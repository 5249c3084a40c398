import XMeterLogger.Lib.LossyChannel

/-! The bus of `sbus.c` by itself: one socket that listens and any number of readers that
dial it, over the bus protocol of the transport. A message goes to every reader that has
room for it; the writer cannot tell whether anybody has. -/
namespace XMeterLogger.SBus

open XMeterLogger.Transition

inductive WriteOutcome where
  | allocFails
  | sendFails
  | sent
  deriving DecidableEq, Repr

inductive ReadOutcome where
  | recvFails
  | mallocFails
  | received
  deriving DecidableEq, Repr

/-- A size as the `int` that `bus_read` takes it for. -/
def lengthOf (size : Nat) : Int := (BitVec.ofNat 32 size).toInt

/-- `bus_read` on the queue of a reader: the message it hands over, if any, and what is left.
One that is taken for one of negative size is dropped, and so is one for which there is no
memory. The call blocks while the queue is empty. -/
def busRead {Message : Type} (size : Message → Nat) (queue : List Message) :
    ReadOutcome → Option (Option Message × List Message)
  | .recvFails => some (none, queue)
  | .mallocFails =>
    match queue with
    | [] => none
    | _ :: rest => some (none, rest)
  | .received =>
    match queue with
    | [] => none
    | message :: rest => some (if 0 ≤ lengthOf (size message) then some message else none, rest)

/-- What a message carries, with its length in bytes, which was an `int`. -/
structure Body (α : Type) where
  data : α
  datalen : Nat
  fits : datalen < 0x80000000
  deriving DecidableEq, Repr

structure Reader (α : Type) where
  /-- How many messages were written before it dialled. -/
  since : Nat
  queue : List (Body α)
  taken : List (Body α)
  deriving DecidableEq, Repr

structure State (α : Type) where
  exited : Bool
  listening : Bool
  readers : List (Reader α)
  written : List (Body α)
  deriving DecidableEq, Repr

variable {α : Type}

def initial : State α := ⟨false, false, [], []⟩

inductive Action (α : Type) where
  | initBus (opened listens : Bool)
  | createBusReader (opened dialled : Bool)
  | busWrite (body : Body α) (outcome : WriteOutcome)
  | busRead (reader : Nat) (outcome : ReadOutcome)
  deriving DecidableEq, Repr

section Machine

-- Messages that the queue between the writer and one reader has room for.
variable (capacity : Nat)

def Reader.deliver (body : Body α) (r : Reader α) : Reader α :=
  if r.queue.length < capacity then { r with queue := r.queue ++ [body] } else r

def Reader.busRead (r : Reader α) (outcome : ReadOutcome) : Option (Reader α) :=
  (SBus.busRead Body.datalen r.queue outcome).map fun (message, queue) =>
    { r with queue, taken := r.taken ++ message.toList }

/-- An address that is listened on already is refused. Readers and writers of a bus that
has none are a fault. -/
def step (s : State α) (action : Action α) : Option (State α) :=
  if s.exited then none
  else match action with
    | .initBus opened listens =>
      if opened && listens && !s.listening then some { s with listening := true }
      else some { s with exited := true }
    | .createBusReader opened dialled =>
      if s.listening then
        if opened && dialled then some { s with readers := s.readers ++ [⟨s.written.length, [], []⟩] }
        else some { s with exited := true }
      else none
    | .busWrite body outcome =>
      if s.listening then
        match outcome with
        | .allocFails | .sendFails => some s
        | .sent =>
          some { s with
            readers := s.readers.map (Reader.deliver capacity body), written := s.written ++ [body] }
      else none
    | .busRead i outcome => do
      let r ← s.readers[i]?
      let r ← r.busRead outcome
      some { s with readers := s.readers.set i r }

/-- The steps that cost a reader nothing: it has room for what is written, and memory for
what it reads. -/
def Kept (i : Nat) (s : State α) : Action α → Prop
  | .busWrite _ .sent => ∀ r, s.readers[i]? = some r → r.queue.length < capacity
  | .busRead j .mallocFails => j ≠ i
  | _ => True

end Machine

/-- A reader as a channel for what is written from its `nng_dial` on. -/
structure Hears (written : List (Body α)) (r : Reader α) (c : LossyChannel (Body α)) : Prop where
  sent : written.drop r.since = c.sent
  pending : r.queue = c.pending
  received : r.taken = c.received
  since : r.since ≤ written.length

def Carries (i : Nat) (s : State α) (c : LossyChannel (Body α)) : Prop :=
  match s.readers[i]? with
  | none => c = .empty
  | some r => Hears s.written r c

variable {capacity : Nat} {s next : State α} {action : Action α} {i : Nat} {r : Reader α}
  {c : LossyChannel (Body α)}

/-- A size that was an `int` is never taken for a negative one. -/
theorem lengthOf_nonneg {size : Nat} (fits : size < 0x80000000) : 0 ≤ lengthOf size := by
  rw [lengthOf, BitVec.toInt_eq_toNat_cond, BitVec.toNat_ofNat]
  omega

theorem busRead_cases {Message : Type} {size : Message → Nat} {queue rest : List Message}
    {outcome : ReadOutcome} {message : Option Message}
    (read : busRead size queue outcome = some (message, rest)) :
    (outcome = .recvFails ∧ message = none ∧ rest = queue) ∨
    ∃ first, queue = first :: rest ∧
      ((outcome = .mallocFails ∧ message = none) ∨
        (outcome = .received ∧ message = if 0 ≤ lengthOf (size first) then some first else none)) := by
  cases outcome with
  | recvFails =>
    obtain ⟨rfl, rfl⟩ := Prod.mk.inj (Option.some.inj read)
    exact .inl ⟨rfl, rfl, rfl⟩
  | mallocFails =>
    simp only [busRead] at read
    split at read
    · contradiction
    · obtain ⟨rfl, rfl⟩ := Prod.mk.inj (Option.some.inj read)
      exact .inr ⟨_, rfl, .inl ⟨rfl, rfl⟩⟩
  | received =>
    simp only [busRead] at read
    split at read
    · contradiction
    · obtain ⟨rfl, rfl⟩ := Prod.mk.inj (Option.some.inj read)
      exact .inr ⟨_, rfl, .inr ⟨rfl, rfl⟩⟩

theorem Reader.busRead_recvFails (r : Reader α) : r.busRead .recvFails = some r := by
  simp [Reader.busRead, SBus.busRead]

theorem Reader.busRead_mallocFails {body : Body α} {rest : List (Body α)}
    (front : r.queue = body :: rest) : r.busRead .mallocFails = some { r with queue := rest } := by
  simp [Reader.busRead, SBus.busRead, front]

theorem Reader.busRead_received {body : Body α} {rest : List (Body α)} (front : r.queue = body :: rest) :
    r.busRead .received = some { r with queue := rest, taken := r.taken ++ [body] } := by
  simp [Reader.busRead, SBus.busRead, front, lengthOf_nonneg body.fits]

theorem Reader.deliver_taken (r : Reader α) (body : Body α) :
    (r.deliver capacity body).taken = r.taken := by
  unfold Reader.deliver
  split
  · rfl
  · rfl

/-- The same for what is seen of the messages. -/
theorem Reader.deliver_map {β : Type} (f : Body α → β) (r : Reader α) (body : Body α) :
    (r.deliver capacity body).queue.map f =
      if (r.queue.map f).length < capacity then r.queue.map f ++ [f body] else r.queue.map f := by
  rw [Reader.deliver, List.length_map]
  split
  · exact List.map_append
  · rfl

theorem Reader.forall_deliver {P : Body α → Prop} {body : Body α} (old : ∀ b ∈ r.queue, P b)
    (new : P body) : ∀ b ∈ (r.deliver capacity body).queue, P b := by
  intro b member
  unfold Reader.deliver at member
  split at member
  · rcases List.mem_append.mp member with waiting | last
    · exact old b waiting
    · rw [List.mem_singleton.mp last]
      exact new
  · exact old b member

theorem step_busWrite_failed {outcome : WriteOutcome} (running : s.exited = false)
    (listening : s.listening = true) (failed : outcome ≠ .sent) (body : Body α) :
    step capacity s (.busWrite body outcome) = some s := by
  cases outcome with
  | sent => exact absurd rfl failed
  | allocFails | sendFails => simp [step, running, listening]

theorem step_busWrite_sent (running : s.exited = false) (listening : s.listening = true) (body : Body α) :
    step capacity s (.busWrite body .sent) = some { s with
      readers := s.readers.map (Reader.deliver capacity body), written := s.written ++ [body] } := by
  simp [step, running, listening]

/-- A read on a bus with one reader. -/
theorem step_busRead {outcome : ReadOutcome} {r' : Reader α} (running : s.exited = false)
    (only : s.readers = [r]) (read : r.busRead outcome = some r') :
    step capacity s (.busRead 0 outcome) = some { s with readers := [r'] } := by
  simp [step, running, only, read]

theorem step_cases (stepped : step capacity s action = some next) :
    (next.readers = s.readers ∧ next.written = s.written ∧
      (∀ body, action ≠ .busWrite body .sent) ∧ ∀ j, action ≠ .busRead j .mallocFails) ∨
    (action = .createBusReader true true ∧ next.written = s.written ∧
      next.readers = s.readers ++ [⟨s.written.length, [], []⟩]) ∨
    (∃ body, action = .busWrite body .sent ∧ next.written = s.written ++ [body] ∧
      next.readers = s.readers.map (Reader.deliver capacity body)) ∨
    ∃ j outcome r r', action = .busRead j outcome ∧ s.readers[j]? = some r ∧
      r.busRead outcome = some r' ∧ next.written = s.written ∧ next.readers = s.readers.set j r' := by
  unfold step at stepped
  split at stepped
  · contradiction
  cases action with
  | initBus opened listens =>
    left
    simp only at stepped
    split at stepped
    · obtain rfl := Option.some.inj stepped
      exact ⟨rfl, rfl, by simp, by simp⟩
    · obtain rfl := Option.some.inj stepped
      exact ⟨rfl, rfl, by simp, by simp⟩
  | createBusReader opened dialled =>
    simp only [Option.ite_none_right_eq_some] at stepped
    obtain ⟨-, stepped⟩ := stepped
    split at stepped
    next both =>
      obtain ⟨rfl, rfl⟩ := Bool.and_eq_true_iff.mp both
      obtain rfl := Option.some.inj stepped
      exact .inr (.inl ⟨rfl, rfl, rfl⟩)
    next =>
      obtain rfl := Option.some.inj stepped
      exact .inl ⟨rfl, rfl, by simp, by simp⟩
  | busWrite body outcome =>
    simp only [Option.ite_none_right_eq_some] at stepped
    obtain ⟨-, stepped⟩ := stepped
    cases outcome with
    | allocFails | sendFails =>
      obtain rfl := Option.some.inj stepped
      exact .inl ⟨rfl, rfl, by simp, by simp⟩
    | sent =>
      obtain rfl := Option.some.inj stepped
      exact .inr (.inr (.inl ⟨body, rfl, rfl, rfl⟩))
  | busRead j outcome =>
    simp only [Option.bind_eq_bind, Option.bind_eq_some_iff] at stepped
    obtain ⟨r, found, r', read, same⟩ := stepped
    obtain rfl := Option.some.inj same
    exact .inr (.inr (.inr ⟨j, outcome, r, r', rfl, found, read, rfl, rfl⟩))

theorem hears_deliver (hears : Hears s.written r c) (body : Body α) :
    ∃ d, Hears (s.written ++ [body]) (r.deliver capacity body) d ∧
      LossyChannel.Loses (r.queue.length < capacity) c d := by
  have dropped : (s.written ++ [body]).drop r.since = c.sent ++ [body] := by
    rw [List.drop_append_of_le_length hears.since, hears.sent]
  have later : r.since ≤ (s.written ++ [body]).length := by
    rw [List.length_append]
    exact Nat.le_add_right_of_le hears.since
  unfold Reader.deliver
  by_cases room : r.queue.length < capacity
  · rw [if_pos room]
    exact ⟨c.send body, ⟨dropped, by rw [hears.pending]; rfl, hears.received, later⟩,
      LossyChannel.loses_of_kept room (c.lost_send body)⟩
  · rw [if_neg room]
    exact ⟨c.lose body, ⟨dropped, hears.pending, hears.received, later⟩,
      LossyChannel.loses_of_not room (c.lost_lose body)⟩

theorem hears_read {outcome : ReadOutcome} {r' : Reader α} (hears : Hears s.written r c)
    (read : r.busRead outcome = some r') :
    ∃ d, Hears s.written r' d ∧ LossyChannel.Loses (outcome ≠ .mallocFails) c d := by
  obtain ⟨⟨message, queue⟩, took, rfl⟩ := Option.map_eq_some_iff.mp read
  rcases busRead_cases took with ⟨rfl, rfl, rfl⟩ | ⟨body, front, ⟨rfl, rfl⟩ | ⟨rfl, rfl⟩⟩
  · have same : r.taken ++ (none : Option (Body α)).toList = c.received := by
      rw [Option.toList_none, List.append_nil, hears.received]
    exact ⟨c, ⟨hears.sent, hears.pending, same, hears.since⟩, LossyChannel.loses_of_kept (by simp) rfl⟩
  · have waiting := hears.pending.symm.trans front
    exact ⟨c.discard body queue waiting,
      ⟨hears.sent, rfl, (List.append_nil _).trans hears.received, hears.since⟩,
      LossyChannel.loses_of_not (by simp) (c.lost_discard body queue waiting)⟩
  · have waiting := hears.pending.symm.trans front
    rw [if_pos (lengthOf_nonneg body.fits)]
    exact ⟨c.receive body queue waiting, ⟨hears.sent, rfl, by rw [hears.received]; rfl, hears.since⟩,
      LossyChannel.loses_of_kept (by simp) (c.lost_receive body queue waiting)⟩

theorem kept_of_other (notWrite : ∀ body, action ≠ .busWrite body .sent)
    (notDrop : ∀ j, action ≠ .busRead j .mallocFails) : Kept capacity i s action := by
  cases action with
  | initBus _ _ | createBusReader _ _ => trivial
  | busWrite body outcome =>
    cases outcome with
    | allocFails | sendFails => trivial
    | sent => exact absurd rfl (notWrite body)
  | busRead j outcome =>
    cases outcome with
    | recvFails | received => trivial
    | mallocFails => exact absurd rfl (notDrop j)

theorem reader_step {r' : Reader α} (stepped : step capacity s action = some next)
    (found : next.readers[i]? = some r') :
    (s.readers[i]? = none ∧ Hears next.written r' .empty ∧ Kept capacity i s action) ∨
    ∃ r, s.readers[i]? = some r ∧ ∀ c, Hears s.written r c →
      ∃ d, Hears next.written r' d ∧ LossyChannel.Loses (Kept capacity i s action) c d := by
  rcases step_cases stepped with ⟨readers, written, notWrite, notDrop⟩ | ⟨rfl, written, readers⟩ |
    ⟨body, rfl, written, readers⟩ | ⟨j, outcome, r, r'', rfl, was, read, written, readers⟩
  · rw [readers] at found
    rw [written]
    have kept : Kept capacity i s action := kept_of_other notWrite notDrop
    exact .inr ⟨r', found, fun c hears => ⟨c, hears, LossyChannel.loses_of_kept kept rfl⟩⟩
  · rw [readers] at found
    rw [written]
    by_cases old : i < s.readers.length
    · rw [List.getElem?_append_left old] at found
      exact .inr ⟨r', found, fun c hears => ⟨c, hears, LossyChannel.loses_of_kept trivial rfl⟩⟩
    · rw [List.getElem?_append_right (Nat.le_of_not_lt old), List.getElem?_singleton] at found
      split at found
      · obtain rfl := Option.some.inj found
        refine .inl ⟨List.getElem?_eq_none (Nat.le_of_not_lt old), ?_, trivial⟩
        exact ⟨List.drop_length, rfl, rfl, Nat.le_refl _⟩
      · contradiction
  · rw [readers, List.getElem?_map] at found
    obtain ⟨r, was, rfl⟩ := Option.map_eq_some_iff.mp found
    refine .inr ⟨r, was, fun c hears => ?_⟩
    have kept : Kept capacity i s (.busWrite body .sent) ↔ r.queue.length < capacity := by
      simp [Kept, was]
    rw [written, kept]
    exact hears_deliver hears body
  · rw [readers] at found
    rw [written]
    by_cases same : j = i
    · subst same
      obtain ⟨inside, -⟩ := List.getElem?_eq_some_iff.mp was
      rw [List.getElem?_set_self inside] at found
      obtain rfl := Option.some.inj found
      refine .inr ⟨r, was, fun c hears => ?_⟩
      have kept : Kept capacity j s (.busRead j outcome) ↔ outcome ≠ .mallocFails := by
        cases outcome <;> simp [Kept]
      rw [kept]
      exact hears_read hears read
    · rw [List.getElem?_set_ne same] at found
      refine .inr ⟨r', found, fun c hears => ⟨c, hears, LossyChannel.loses_of_kept ?_ rfl⟩⟩
      cases outcome with
      | recvFails | received => trivial
      | mallocFails => exact same

theorem readers_length (stepped : step capacity s action = some next) :
    s.readers.length ≤ next.readers.length := by
  rcases step_cases stepped with ⟨readers, -⟩ | ⟨-, -, readers⟩ | ⟨body, -, -, readers⟩ |
    ⟨j, outcome, r, r', -, -, -, -, readers⟩ <;> simp [readers]

theorem kept_of_absent (absent : s.readers[i]? = none) (stepped : step capacity s action = some next) :
    Kept capacity i s action := by
  rcases step_cases stepped with ⟨-, -, notWrite, notDrop⟩ | ⟨rfl, -⟩ | ⟨body, rfl, -⟩ |
    ⟨j, outcome, r, -, rfl, was, -⟩
  · exact kept_of_other notWrite notDrop
  · trivial
  · simp [Kept, absent]
  · have apart : j ≠ i := by
      rintro rfl
      rw [was] at absent
      contradiction
    cases outcome with
    | recvFails | received => trivial
    | mallocFails => exact apart

theorem carries_step (carries : Carries i s c) (stepped : step capacity s action = some next) :
    ∃ d, Carries i next d ∧ LossyChannel.Loses (Kept capacity i s action) c d := by
  unfold Carries at carries ⊢
  cases found : next.readers[i]? with
  | none =>
    have absent : s.readers[i]? = none := by
      rw [List.getElem?_eq_none_iff] at found ⊢
      exact Nat.le_trans (readers_length stepped) found
    rw [absent] at carries
    exact ⟨_, rfl, LossyChannel.loses_of_kept (kept_of_absent absent stepped) (by rw [carries])⟩
  | some r' =>
    rcases reader_step stepped found with ⟨absent, hears, kept⟩ | ⟨r, was, onward⟩
    · rw [absent] at carries
      exact ⟨_, hears, LossyChannel.loses_of_kept kept (by rw [carries])⟩
    · rw [was] at carries
      exact onward c carries

theorem carries_initial : Carries i (initial : State α) .empty := rfl

theorem hears_run {trace : List (Action α)} {final : State α}
    (ran : run (step capacity) initial trace = some final) (held : final.readers[i]? = some r) :
    ∃ c, Hears final.written r c ∧
      (c.lost = 0 ↔ Along (step capacity) (Kept capacity i) initial trace) := by
  obtain ⟨c, carries, -, exact⟩ := LossyChannel.run_loses_iff (Carries i) (fun _ => True)
    (Kept capacity i) (fun _ _ _ _ carries _ => carries_step carries) carries_initial (by simp) ran
  unfold Carries at carries
  rw [held] at carries
  exact ⟨c, carries, exact⟩

/-- What a reader has taken and what waits for it is an ordered part of what was written. -/
theorem Hears.ordered {written : List (Body α)} (hears : Hears written r c) :
    (r.taken ++ r.queue).Sublist (written.drop r.since) := by
  rw [hears.sent, hears.received, hears.pending]
  exact c.ordered

/-- Every reader hears messages that were written since it dialled, in their order and none
twice, whatever the other readers and the transport do. -/
theorem reader_in_order {trace : List (Action α)} {final : State α}
    (ran : run (step capacity) initial trace = some final) (held : final.readers[i]? = some r) :
    (r.taken ++ r.queue).Sublist (final.written.drop r.since) := by
  obtain ⟨c, hears, -⟩ := hears_run ran held
  exact hears.ordered

/-- A bus with room for one message. Its first reader is late for the second message, its
second reader dialled after the first message. -/
def crowdedTrace : List (Action Nat) :=
  [.initBus true true, .createBusReader true true, .busWrite ⟨7, 1, by decide⟩ .sent,
    .createBusReader true true, .busWrite ⟨8, 1, by decide⟩ .sent, .busRead 0 .received,
    .busRead 1 .received, .busWrite ⟨9, 1, by decide⟩ .sent]

def crowded : State Nat where
  exited := false
  listening := true
  readers := [⟨0, [⟨9, 1, by decide⟩], [⟨7, 1, by decide⟩]⟩, ⟨1, [⟨9, 1, by decide⟩], [⟨8, 1, by decide⟩]⟩]
  written := [⟨7, 1, by decide⟩, ⟨8, 1, by decide⟩, ⟨9, 1, by decide⟩]

theorem reader_in_order_crowded :
    run (step 1) initial crowdedTrace = some crowded ∧
      ([⟨7, 1, by decide⟩] ++ [⟨9, 1, by decide⟩] : List (Body Nat)).Sublist (crowded.written.drop 0) :=
  have ran : run (step 1) initial crowdedTrace = some crowded := by decide
  ⟨ran, @reader_in_order _ 1 0 ⟨0, [⟨9, 1, by decide⟩], [⟨7, 1, by decide⟩]⟩ _ _ ran rfl⟩

/-- A reader hears all that is written since it dialled exactly in the runs in which it has
room for every message and memory for every read. -/
theorem reader_hears_all_iff {trace : List (Action α)} {final : State α}
    (ran : run (step capacity) initial trace = some final) (held : final.readers[i]? = some r) :
    r.taken ++ r.queue = final.written.drop r.since ↔
      Along (step capacity) (Kept capacity i) initial trace := by
  obtain ⟨c, hears, exact⟩ := hears_run ran held
  rw [hears.sent, hears.received, hears.pending, ← c.lost_eq_zero_iff]
  exact exact

theorem reader_hears_all_late : Along (step 1) (Kept 1 1) initial crowdedTrace := by
  have ran : run (step 1) initial crowdedTrace = some crowded := by decide
  exact (@reader_hears_all_iff _ 1 1 ⟨1, [⟨9, 1, by decide⟩], [⟨8, 1, by decide⟩]⟩ _ _ ran rfl).mp rfl

end XMeterLogger.SBus
