import XMeterLogger.MeterReader
import Mathlib.Data.List.Basic

/-! The polling loop of the Modbus source thread. One poll supplies what the
environment decides in one iteration: the meter's answers, the bytes `md_log`
happens to hold, and the code of a call that falls off its end. -/
namespace XMeterLogger.MeterSource

open XMeterLogger.MeterReader

structure Poll where
  device : Device
  leftover : MeterDataLog
  unspecified : Int

/-- One `bus_write`, with the number of the poll that made it. -/
structure Publication where
  poll : Nat
  record : MeterDataLog
  deriving DecidableEq, Repr

structure SourceState where
  exitStatus : Option Nat
  polls : Nat
  written : List Publication
  deriving DecidableEq, Repr

def start : SourceState := ⟨none, 0, []⟩

section Loop

variable (getFloatDcba : UInt16 → UInt16 → CFloat) (mtype : Int)

/-- One iteration. After `exit` no thread of the process takes another step. -/
def pollOnce (s : SourceState) (p : Poll) : SourceState :=
  match s.exitStatus with
  | some _ => s
  | none =>
    match readMeterData getFloatDcba mtype p.device p.unspecified p.leftover with
    | .exited status => { s with exitStatus := some status }
    | .returned rc record =>
      { s with
        polls := s.polls + 1
        written := if rc = 0 then s.written ++ [⟨s.polls, record⟩] else s.written }

def pollLoop (s : SourceState) (polls : List Poll) : SourceState :=
  polls.foldl (pollOnce getFloatDcba mtype) s

def modbusSourceReaderTask (polls : List Poll) : SourceState :=
  pollLoop getFloatDcba mtype start polls

/-- The record a poll fills when its reads succeed. -/
def recordOf (p : Poll) : MeterDataLog :=
  match readMeterData getFloatDcba mtype p.device p.unspecified p.leftover with
  | .returned _ record => record
  | .exited _ => p.leftover

def pollSucceeds (p : Poll) : Bool := readsSucceed mtype p.device

end Loop

variable {getFloatDcba : UInt16 → UInt16 → CFloat} {mtype : Int}

theorem pollOnce_exited (s : SourceState) (p : Poll) (status : Nat)
    (ended : s.exitStatus = some status) : pollOnce getFloatDcba mtype s p = s := by
  simp [pollOnce, ended]

theorem pollLoop_cons (s : SourceState) (p : Poll) (polls : List Poll) :
    pollLoop getFloatDcba mtype s (p :: polls) =
      pollLoop getFloatDcba mtype (pollOnce getFloatDcba mtype s p) polls := rfl

theorem pollLoop_exited (s : SourceState) (polls : List Poll) (status : Nat)
    (ended : s.exitStatus = some status) : pollLoop getFloatDcba mtype s polls = s := by
  induction polls with
  | nil => rfl
  | cons p polls ih =>
    rw [pollLoop_cons, pollOnce_exited s p status ended]
    exact ih

/-- A record once written stays written, at its place. -/
theorem pollOnce_written_grows (s : SourceState) (p : Poll) :
    s.written <+: (pollOnce getFloatDcba mtype s p).written := by
  unfold pollOnce
  split
  · exact List.prefix_rfl
  · split
    · exact List.prefix_rfl
    · dsimp only
      split
      · exact List.prefix_append _ _
      · exact List.prefix_rfl

theorem pollLoop_written_grows (s : SourceState) (polls : List Poll) :
    s.written <+: (pollLoop getFloatDcba mtype s polls).written := by
  induction polls generalizing s with
  | nil => exact List.prefix_rfl
  | cons p polls ih => exact (pollOnce_written_grows s p).trans (ih _)

/-! Two runs over the same registers. -/

/-- The two runs poll the same register contents; the stack may differ freely. -/
def SamePoll (mtype : Int) (left right : Poll) : Prop :=
  SameRegisters mtype left.device right.device

/-- What is written to the bus is a function of the registers alone, over runs of
this many polls whose reads succeed. -/
def DependsOnlyOnRegisters (getFloatDcba : UInt16 → UInt16 → CFloat) (mtype : Int)
    (n : Nat) : Prop :=
  ∀ left right : List Poll, left.length = n → List.Forall₂ (SamePoll mtype) left right →
    (∀ p ∈ left, pollSucceeds mtype p = true) → (∀ p ∈ right, pollSucceeds mtype p = true) →
    (modbusSourceReaderTask getFloatDcba mtype left).written =
      (modbusSourceReaderTask getFloatDcba mtype right).written

theorem pollOnce_dssu666_determined (s : SourceState) {left right : Poll}
    (same : SamePoll dssu666 left right) :
    pollOnce getFloatDcba dssu666 s left = pollOnce getFloatDcba dssu666 s right := by
  have outcome := readMeterData_dssu666_determined getFloatDcba same
    left.unspecified right.unspecified left.leftover right.leftover
  simp only [pollOnce, outcome]

theorem pollLoop_dssu666_determined (s : SourceState) {left right : List Poll}
    (same : List.Forall₂ (SamePoll dssu666) left right) :
    pollLoop getFloatDcba dssu666 s left = pollLoop getFloatDcba dssu666 s right := by
  induction same generalizing s with
  | nil => rfl
  | cons head _ ih =>
    rw [pollLoop_cons, pollLoop_cons, pollOnce_dssu666_determined s head]
    exact ih _

/-- A meter that answers every read with zeros. -/
def zeroDevice : Device := ⟨fun _ _ count => some (Vector.replicate count 0)⟩

def leftoverLog (bits : CFloat) : MeterDataLog := ⟨0, 0, 0, 0, 0, 0, 0, bits⟩

/-- A poll of the zero device over a stack whose last word is `bits`. -/
def zeroPoll (bits : CFloat) : Poll := ⟨zeroDevice, leftoverLog bits, 0⟩

theorem zeroPoll_succeeds (bits : CFloat) : pollSucceeds mtype (zeroPoll bits) = true := by
  simp [pollSucceeds, readsSucceed, Device.answers, zeroPoll, zeroDevice]

theorem zeroPoll_publishes (getFloatDcba : UInt16 → UInt16 → CFloat)
    (other : mtype ≠ dssu666) (bits : CFloat) :
    ∃ record : MeterDataLog, record.exportActive = bits ∧
      (pollOnce getFloatDcba mtype start (zeroPoll bits)).written = [⟨0, record⟩] := by
  have returns : ∃ record,
      readMeterData getFloatDcba mtype zeroDevice 0 (leftoverLog bits) = .returned 0 record := by
    simp only [readMeterData, if_neg other]
    split
    · exact ⟨_, rfl⟩
    · exact ⟨_, rfl⟩
  obtain ⟨record, hr⟩ := returns
  refine ⟨record, readMeterData_keeps_exportActive other hr, ?_⟩
  simp [pollOnce, start, zeroPoll, hr]

theorem zeroPolls_same (n : Nat) (a b : CFloat) : List.Forall₂ (SamePoll mtype)
    (List.replicate n (zeroPoll a)) (List.replicate n (zeroPoll b)) := by
  induction n with
  | zero => exact .nil
  | succ n ih => exact .cons (fun q _ => rfl) ih

theorem zeroPolls_succeed (n : Nat) (bits : CFloat) :
    ∀ p ∈ List.replicate n (zeroPoll bits), pollSucceeds mtype p = true := by
  intro p member
  rw [List.eq_of_mem_replicate member]
  exact zeroPoll_succeeds bits

/-- The first record of a run over the zero device carries the leftover word. -/
theorem zeroPolls_first (getFloatDcba : UInt16 → UInt16 → CFloat) (other : mtype ≠ dssu666)
    (n : Nat) (bits : CFloat) : ∃ record : MeterDataLog, record.exportActive = bits ∧
      [⟨0, record⟩] <+: (modbusSourceReaderTask getFloatDcba mtype
        (List.replicate (n + 1) (zeroPoll bits))).written := by
  obtain ⟨record, leftover, written⟩ :=
    zeroPoll_publishes getFloatDcba other bits
  refine ⟨record, leftover, ?_⟩
  rw [← written]
  exact pollLoop_written_grows _ (List.replicate n (zeroPoll bits))

/-- Only the DSSU666 reader fills every field on every path, so exactly there is
the published sequence a function of the registers. -/
theorem published_depends_only_on_registers_iff (getFloatDcba : UInt16 → UInt16 → CFloat)
    (mtype : Int) (n : Nat) :
    DependsOnlyOnRegisters getFloatDcba mtype n ↔ mtype = dssu666 ∨ n = 0 := by
  constructor
  · intro determined
    by_contra neither
    obtain ⟨other, positive⟩ := not_or.mp neither
    obtain ⟨m, rfl⟩ := Nat.exists_eq_succ_of_ne_zero positive
    -- two runs that differ in the leftover bytes of `export_active` only
    have equal := determined _ _ (List.length_replicate ..) (zeroPolls_same (m + 1) 0 1)
      (zeroPolls_succeed (m + 1) 0) (zeroPolls_succeed (m + 1) 1)
    obtain ⟨a, leftoverA, prefixA⟩ := zeroPolls_first getFloatDcba other m 0
    obtain ⟨b, leftoverB, prefixB⟩ := zeroPolls_first getFloatDcba other m 1
    rw [equal] at prefixA
    have same := (List.prefix_of_prefix_length_le prefixA prefixB (Nat.le_refl 1)).eq_of_length rfl
    have records : a = b := congrArg Publication.record (List.cons.inj same).1
    rw [← records, leftoverA] at leftoverB
    exact absurd leftoverB (by decide)
  · rintro (rfl | rfl)
    · intro left right _ same _ _
      exact congrArg SourceState.written (pollLoop_dssu666_determined start same)
    · intro left right len same _ _
      obtain rfl := List.length_eq_zero_iff.mp len
      cases same
      rfl

/-- One PZEM-16 poll of the same registers over two stacks publishes two different
records. -/
theorem pzem16_publishes_leftover_bytes :
    ¬ DependsOnlyOnRegisters (fun low high => word32 high low) pzem16 1 := by
  intro determined
  have equal := determined [zeroPoll 0] [zeroPoll 1] rfl (zeroPolls_same 1 0 1)
    (zeroPolls_succeed 1 0) (zeroPolls_succeed 1 1)
  exact absurd equal (by decide)

/-! Failed polls. -/

/-- One record for each poll of the list, numbered from `first`. -/
def publications (getFloatDcba : UInt16 → UInt16 → CFloat) (mtype : Int) (first : Nat)
    (polls : List Poll) : List Publication :=
  polls.mapIdx fun i p => ⟨first + i, recordOf getFloatDcba mtype p⟩

theorem pollOnce_cases (getFloatDcba : UInt16 → UInt16 → CFloat)
    (known : mtype = dssu666 ∨ mtype = pzem16) (s : SourceState)
    (running : s.exitStatus = none) (p : Poll) :
    (pollSucceeds mtype p = true ∧ pollOnce getFloatDcba mtype s p =
      { s with
        polls := s.polls + 1
        written := s.written ++ [⟨s.polls, recordOf getFloatDcba mtype p⟩] }) ∨
    (pollSucceeds mtype p = false ∧ pollOnce getFloatDcba mtype s p =
      { s with exitStatus := some exitFailure }) := by
  rcases readMeterData_cases getFloatDcba known p.device p.unspecified p.leftover with
    ⟨succeeds, record, returns⟩ | ⟨fails, exits⟩
  · left
    exact ⟨succeeds, by simp [pollOnce, recordOf, running, returns]⟩
  · right
    exact ⟨fails, by simp [pollOnce, running, exits]⟩

theorem publications_cons (first : Nat) (p : Poll) (polls : List Poll) :
    publications getFloatDcba mtype first (p :: polls) =
      ⟨first, recordOf getFloatDcba mtype p⟩ ::
        publications getFloatDcba mtype (first + 1) polls := by
  simp [publications, List.mapIdx_cons, Nat.add_assoc, Nat.add_comm 1]

/-- The loop publishes every poll up to the first failed one, which ends the process. -/
theorem pollLoop_until_failure (known : mtype = dssu666 ∨ mtype = pzem16) (s : SourceState)
    (running : s.exitStatus = none) (polls : List Poll) :
    pollLoop getFloatDcba mtype s polls =
      { exitStatus := if polls.all (pollSucceeds mtype) then none else some exitFailure
        polls := s.polls + (polls.takeWhile (pollSucceeds mtype)).length
        written := s.written ++ publications getFloatDcba mtype s.polls
          (polls.takeWhile (pollSucceeds mtype)) } := by
  induction polls generalizing s with
  | nil => cases s; simp_all [pollLoop, publications]
  | cons p polls ih =>
    rcases pollOnce_cases getFloatDcba known s running p with
      ⟨succeeds, next⟩ | ⟨fails, next⟩
    · rw [pollLoop_cons, next, ih _ (by exact running)]
      simp only [List.takeWhile_cons, succeeds, ↓reduceIte, publications_cons, List.all_cons,
        Bool.true_and, List.length_cons, List.append_assoc, List.singleton_append,
        SourceState.mk.injEq, true_and, and_true]
      omega
    · rw [pollLoop_cons, next, pollLoop_exited _ polls exitFailure rfl]
      simp [fails, publications]

/-- Every poll before the first failed one publishes exactly its record, in order.
The failed poll publishes nothing and ends the process, so nothing follows it. -/
theorem published_until_first_failure (getFloatDcba : UInt16 → UInt16 → CFloat) (mtype : Int)
    (known : mtype = dssu666 ∨ mtype = pzem16) (polls : List Poll) :
    (modbusSourceReaderTask getFloatDcba mtype polls).written =
        publications getFloatDcba mtype 0 (polls.takeWhile (pollSucceeds mtype)) ∧
      (modbusSourceReaderTask getFloatDcba mtype polls).exitStatus =
        if polls.all (pollSucceeds mtype) then none else some exitFailure := by
  rw [modbusSourceReaderTask, pollLoop_until_failure known start rfl polls]
  simp [start]

/-- A poll whose read fails, as by a timeout of the serial line. -/
def failedPoll : Poll := ⟨⟨fun _ _ _ => none⟩, leftoverLog 0, 0⟩

theorem published_until_first_failure_dssu666 :
    (modbusSourceReaderTask (fun low high => word32 high low) dssu666
      [zeroPoll 0, failedPoll, zeroPoll 0]).written.length = 1 := by
  rw [(published_until_first_failure _ dssu666 (.inl rfl) _).1]
  decide

/-- The poll after a failed one succeeds and is not published. -/
theorem failed_poll_costs_later_polls :
    ¬ ∀ polls : List Poll,
      (modbusSourceReaderTask (fun low high => word32 high low) dssu666 polls).written.map
          Publication.record =
        (polls.filter (pollSucceeds dssu666)).map
          (recordOf (fun low high => word32 high low) dssu666) := by
  intro everySuccess
  have lengths := congrArg List.length (everySuccess [failedPoll, zeroPoll 0])
  exact absurd lengths (by decide)

end XMeterLogger.MeterSource
