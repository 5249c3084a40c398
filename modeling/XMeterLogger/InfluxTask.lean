import XMeterLogger.DataForwarder
import XMeterLogger.InfluxSink
import XMeterLogger.Lib.Ownership
import XMeterLogger.SBus

/-! The loop of the InfluxDB sink with the memory it takes: the message and its copy, the
line, and what the HTTP library allocates for the request. -/
namespace XMeterLogger.InfluxTask

open XMeterLogger.DataForwarder XMeterLogger.Decimal XMeterLogger.InfluxSink XMeterLogger.LinkedList
open XMeterLogger.MeterReader XMeterLogger.SBus XMeterLogger.Transition

inductive Resource where
  | msg
  | data
  | line
  | url
  | client
  | req
  | res
  | aio
  | conn
  deriving DecidableEq, Repr

structure Turn where
  msg : Answer Nat Resource
  data : Answer Nat Resource
  line : Answer Nat Resource
  url : Answer Nat Resource
  client : Answer Nat Resource
  req : Answer Nat Resource
  res : Answer Nat Resource
  aio : Answer Nat Resource
  conn : Answer Nat Resource
  written : Bool

structure State where
  crashed : Bool
  heap : Heap Nat Resource
  reader : Reader MeterDataLog
  /-- Messages received for which `bus_read` found no memory. -/
  unread : Nat
  posted : List Bytes

def initial (base : Heap Nat Resource) : State := ⟨false, base, ⟨0, [], []⟩, 0, []⟩

inductive Action where
  | deliver (body : Body MeterDataLog)
  | turn (t : Turn)

/-- The rest of `bus_read` after `nng_recvmsg`, with the copy it hands over. -/
def busRead (t : Turn) (m : Nat) (body : Body MeterDataLog) (h : Heap Nat Resource) :
    Option (Heap Nat Resource × Option Nat) :=
  let h := malloc h m .msg
  if 0 ≤ lengthOf body.datalen then
    match t.data.choose h with
    | none => some (h, none)
    | some d => do
      let h ← free (malloc h d .data) m
      return (h, some d)
  else do
    let h ← free h m
    return (h, none)

/-- From the connection on, with the connection and whether the request was written. -/
def writeRequest (t : Turn) (line : Nat) (client req aio : Option Nat) (h : Heap Nat Resource) :
    Option (Heap Nat Resource × Option Nat × Bool) := do
  touch h [client, aio]
  match t.conn.choose h with
  | none => return (h, none, false)
  | some c => do
    let h := malloc h c .conn
    touch h [some c, req, aio, some line]
    return (h, some c, t.written)

/-- Everything is released at `out`, whichever call has jumped there. -/
def sendDataToInfluxDBv2 (t : Turn) (line : Nat) (h : Heap Nat Resource) :
    Option (Heap Nat Resource × Bool) := do
  let (h, got, ok) := acquireChain h
    [(t.url, .url), (t.client, .client), (t.req, .req), (t.res, .res), (t.aio, .aio)]
  let (h, conn, written) ←
    (if ok then writeRequest t line got[1]? got[2]? got[4]? h else some (h, none, false))
  let h ← [got[0]?, conn, got[1]?, got[2]?, got[3]?, got[4]?].foldlM freeGuarded h
  return (h, written)

/-- A record as a line, sent and freed, with the line if it was written. `sprintf` writes
into whatever `malloc` has answered. -/
def postRecord (measurement : Bytes) (t : Turn) (mdl : MeterDataLog) (h : Heap Nat Resource) :
    Option (Heap Nat Resource × Option Bytes) := do
  let l ← t.line.choose h
  let line ← convertToInfluxdbLine measurement mdl
  let (h, written) ← sendDataToInfluxDBv2 t l (malloc h l .line)
  let h ← free h l
  return (h, if written then some line else none)

def handle (measurement : Bytes) (t : Turn) (body : Body MeterDataLog) (d : Nat)
    (h : Heap Nat Resource) : Option (Heap Nat Resource × Option Bytes) := do
  let (h, posted) ←
    (if body.datalen = sizeofMeterDataLog then postRecord measurement t body.data h
      else some (h, none))
  let h ← free h d
  return (h, posted)

def State.miss (s : State) (h : Heap Nat Resource) (rest : List (Body MeterDataLog)) : State :=
  { s with heap := h, reader := { s.reader with queue := rest }, unread := s.unread + 1 }

def State.take (s : State) (h : Heap Nat Resource) (body : Body MeterDataLog)
    (rest : List (Body MeterDataLog)) (line : Option Bytes) : State :=
  { s with
    heap := h
    reader := { s.reader with queue := rest, taken := s.reader.taken ++ [body] }
    posted := s.posted ++ line.toList }

/-- One turn with a message, none for a fault. -/
def receive (measurement : Bytes) (t : Turn) (m : Nat) (body : Body MeterDataLog)
    (rest : List (Body MeterDataLog)) (s : State) : Option State := do
  let (h, copy) ← busRead t m body s.heap
  match copy with
  | none => return s.miss h rest
  | some d => do
    let (h, line) ← handle measurement t body d h
    return s.take h body rest line

/-- A turn of the loop waits for a message unless receiving fails. -/
def step (capacity : Nat) (measurement : Bytes) (s : State) (action : Action) : Option State :=
  if s.crashed then none
  else match action with
    | .deliver body => some { s with reader := s.reader.deliver capacity body }
    | .turn t =>
      match t.msg.choose s.heap with
      | none => some s
      | some m =>
        match s.reader.queue with
        | [] => none
        | body :: rest => some ((receive measurement t m body rest s).getD { s with crashed := true })

def Fits (measurement : Bytes) (t : Turn) (body : Body MeterDataLog) (h : Heap Nat Resource) : Prop :=
  body.datalen = sizeofMeterDataLog →
    (t.line.choose h).isSome = true ∧ measurement.length + printedTotal body.data ≤ 164

/-- A turn that hands the task a record finds memory for a line that fits. -/
def Harmless (measurement : Bytes) (s : State) : Action → Prop
  | .deliver _ => True
  | .turn t => ∀ m body rest h d, t.msg.choose s.heap = some m → s.reader.queue = body :: rest →
      busRead t m body s.heap = some (h, some d) → Fits measurement t body h

def sends (t : Turn) (h : Heap Nat Resource) : Bool :=
  match t.line.choose h with
  | none => false
  | some l => (sendDataToInfluxDBv2 t l (malloc h l .line)).any Prod.snd

def lineOf (measurement : Bytes) (t : Turn) (body : Body MeterDataLog) (h : Heap Nat Resource) :
    Option Bytes :=
  if body.datalen = sizeofMeterDataLog ∧ sends t h = true then
    some (lineProtocol measurement body.data)
  else none

/-- What happens to the reader of the bus: a message comes in, or `bus_read` is called. -/
def Moves (capacity : Nat) (r r' : Reader MeterDataLog) : Prop :=
  (∃ body, r' = r.deliver capacity body) ∨ ∃ outcome, r.busRead outcome = some r'

def lines (measurement : Bytes) (taken : List (Body MeterDataLog)) : List Bytes :=
  (taken.filter fun body => body.datalen = sizeofMeterDataLog).map fun body =>
    lineProtocol measurement body.data

/-- Outside a turn the task owns the messages it could not copy and nothing else, and has
posted lines of records it has taken, each once at most and in order. -/
structure Accounts (base : Heap Nat Resource) (measurement : Bytes) (s : State) : Prop where
  leaked : ∃ owned, Extends base s.heap owned ∧ (∀ a ∈ owned, s.heap a = some .msg) ∧
    owned.length = s.unread
  posted : s.posted.Sublist (lines measurement s.reader.taken)

variable {base h : Heap Nat Resource} {owned : List Nat} {measurement : Bytes} {capacity : Nat}
  {s next : State} {t : Turn} {m : Nat} {body : Body MeterDataLog}

/-- `bus_read` leaves the copy, or the message where there is no memory for one. -/
theorem busRead_cases (received : t.msg.choose h = some m) (body : Body MeterDataLog) :
    (busRead t m body h = some (malloc h m .msg, none) ∧ t.data.choose (malloc h m .msg) = none) ∨
    ∃ k d, busRead t m body h = some (k, some d) ∧ Extends h k [d] := by
  have whole := lengthOf_nonneg body.fits
  have holds := (extends_refl h).malloc (t.msg.unused h m received) Resource.msg
  cases answered : t.data.choose (malloc h m .msg) with
  | none => exact .inl ⟨by simp [busRead, whole, answered], rfl⟩
  | some d =>
    have copied := holds.malloc (t.data.unused _ d answered) Resource.data
    obtain ⟨freed, left⟩ := (copied.perm (List.Perm.swap m d [])).free
    exact .inr ⟨_, d, by simp [busRead, whole, answered, freed], left⟩

/-- What `out` releases is the connection and what was allocated before it. -/
theorem released_perm (conn : Option Nat) {got : List Nat} (short : got.length ≤ 5) :
    [got[0]?, conn, got[1]?, got[2]?, got[3]?, got[4]?].reduceOption.Perm (conn.toList ++ got) := by
  cases conn with
  | none =>
    match got, short with
    | [], _ | [_], _ | [_, _], _ | [_, _, _], _ | [_, _, _, _], _ | [_, _, _, _, _], _ =>
      simp [List.reduceOption]
  | some c =>
    match got, short with
    | [], _ => simp [List.reduceOption]
    | [_], _ | [_, _], _ | [_, _, _], _ | [_, _, _, _], _ | [_, _, _, _, _], _ =>
      simpa [List.reduceOption] using List.Perm.swap _ _ _

theorem writeRequest_keeps {line : Nat} {client req aio : Option Nat} (t : Turn)
    (extended : Extends base h owned) (valid : line ∈ owned)
    (inside : ∀ p ∈ [client, req, aio], ∃ a ∈ owned, p = some a) :
    ∃ k conn written, writeRequest t line client req aio h = some (k, conn, written) ∧
      Extends base k (conn.toList ++ owned) := by
  have first : touch h [client, aio] = some () := extended.touch (by simp_all)
  cases connected : t.conn.choose h with
  | none => exact ⟨h, none, false, by simp [writeRequest, first, connected], extended⟩
  | some c =>
    have longer := extended.malloc (t.conn.unused h c connected) Resource.conn
    have second : touch (malloc h c .conn) [some c, req, aio, some line] = some () := by
      refine longer.touch fun p member => ?_
      simp only [List.mem_cons, List.not_mem_nil, or_false] at member inside
      rcases member with rfl | rfl | rfl | rfl
      · exact ⟨c, List.mem_cons_self, rfl⟩
      · obtain ⟨a, owns, same⟩ := inside p (.inr (.inl rfl))
        exact ⟨a, List.mem_cons_of_mem c owns, same⟩
      · obtain ⟨a, owns, same⟩ := inside p (.inr (.inr rfl))
        exact ⟨a, List.mem_cons_of_mem c owns, same⟩
      · exact ⟨line, List.mem_cons_of_mem c valid, rfl⟩
    exact ⟨_, some c, t.written, by simp [writeRequest, first, connected, second], longer⟩

/-- A request leaves the heap as it was, at whichever call it fails. -/
theorem send_keeps {line : Nat} (t : Turn) (extended : Extends base h owned) (valid : line ∈ owned) :
    ∃ k written, sendDataToInfluxDBv2 t line h = some (k, written) ∧ Extends base k owned := by
  obtain ⟨k, got, ok, chained, owns, short, whole⟩ := extended.acquireChain
    [(t.url, .url), (t.client, .client), (t.req, .req), (t.res, .res), (t.aio, .aio)]
  have reached : ∃ l conn written, (if ok then writeRequest t line got[1]? got[2]? got[4]? k
      else some (k, none, false)) = some (l, conn, written) ∧
      Extends base l (conn.toList ++ (got ++ owned)) := by
    cases ok with
    | false => exact ⟨k, none, false, rfl, owns⟩
    | true =>
      have five : got.length = 5 := whole.mp rfl
      have place (i : Nat) (inside : i < 5) : ∃ a ∈ got ++ owned, got[i]? = some a :=
        ⟨got[i], List.mem_append_left _ (List.getElem_mem _), List.getElem?_eq_getElem _⟩
      refine writeRequest_keeps t owns (List.mem_append_right _ valid) fun p member => ?_
      simp only [List.mem_cons, List.not_mem_nil, or_false] at member
      rcases member with rfl | rfl | rfl
      · exact place 1 (by omega)
      · exact place 2 (by omega)
      · exact place 4 (by omega)
  obtain ⟨l, conn, written, wrote, holds⟩ := reached
  rw [← List.append_assoc] at holds
  have ordered := (released_perm conn short).symm.append_right owned
  obtain ⟨last, released, left⟩ := (holds.perm ordered).freeAll
  refine ⟨last, written, ?_, left⟩
  simp only [sendDataToInfluxDBv2, chained, wrote, released, Option.bind_eq_bind, Option.bind_some,
    Option.pure_def]

theorem postRecord_keeps {mdl : MeterDataLog} (extended : Extends base h owned)
    (roomy : (t.line.choose h).isSome = true) (fits : measurement.length + printedTotal mdl ≤ 164) :
    ∃ k, postRecord measurement t mdl h =
        some (k, if sends t h then some (lineProtocol measurement mdl) else none) ∧
      Extends base k owned := by
  obtain ⟨l, answered⟩ := Option.isSome_iff_exists.mp roomy
  have converted := (convert_eq_some_iff measurement mdl _).mpr ⟨rfl, fits⟩
  have longer := extended.malloc (t.line.unused h l answered) Resource.line
  obtain ⟨k, written, sent, holds⟩ := send_keeps t longer List.mem_cons_self
  obtain ⟨freed, left⟩ := holds.free
  exact ⟨_, by simp [postRecord, sends, answered, converted, sent, freed], left⟩

theorem postRecord_fault {mdl : MeterDataLog}
    (harmful : ¬ ((t.line.choose h).isSome = true ∧ measurement.length + printedTotal mdl ≤ 164)) :
    postRecord measurement t mdl h = none := by
  cases answered : t.line.choose h with
  | none => simp [postRecord, answered]
  | some l =>
    have overruns : convertToInfluxdbLine measurement mdl = none := by
      by_contra fits
      obtain ⟨line, converted⟩ := Option.ne_none_iff_exists'.mp fits
      exact harmful ⟨by simp [answered], ((convert_eq_some_iff _ _ _).mp converted).2⟩
    simp [postRecord, answered, overruns]

theorem handle_keeps {d : Nat} (extended : Extends base h [d]) (fits : Fits measurement t body h) :
    handle measurement t body d h = some (base, lineOf measurement t body h) := by
  by_cases full : body.datalen = sizeofMeterDataLog
  · obtain ⟨k, sent, holds⟩ := postRecord_keeps extended (fits full).1 (fits full).2
    obtain ⟨freed, left⟩ := holds.free
    simp [handle, lineOf, full, sent, freed, left.eq]
  · obtain ⟨freed, left⟩ := extended.free
    simp [handle, lineOf, full, freed, left.eq]

theorem handle_fault {d : Nat} (harmful : ¬ Fits measurement t body h) :
    handle measurement t body d h = none := by
  obtain ⟨full, harmful⟩ := Classical.not_imp.mp harmful
  simp [handle, full, postRecord_fault harmful]

/-- What a message comes to: no memory for its copy, a turn that leaves the heap as it was, a
fault. -/
inductive Received (measurement : Bytes) (t : Turn) (m : Nat) (body : Body MeterDataLog)
    (rest : List (Body MeterDataLog)) (s : State) : Option State → Prop
  | missed (refused : t.data.choose (malloc s.heap m .msg) = none) :
      Received measurement t m body rest s (some (s.miss (malloc s.heap m .msg) rest))
  | took (h : Heap Nat Resource) (d : Nat) (read : busRead t m body s.heap = some (h, some d))
      (fits : Fits measurement t body h) :
      Received measurement t m body rest s
        (some (s.take s.heap body rest (lineOf measurement t body h)))
  | fault (h : Heap Nat Resource) (d : Nat) (read : busRead t m body s.heap = some (h, some d))
      (harmful : ¬ Fits measurement t body h) : Received measurement t m body rest s none

theorem lineOf_posted (t : Turn) (body : Body MeterDataLog) (h : Heap Nat Resource) :
    (lineOf measurement t body h).toList.Sublist (lines measurement [body]) := by
  unfold lineOf
  split
  next sent => simp [lines, sent.1]
  next => exact List.nil_sublist _

theorem receive_cases (received : t.msg.choose s.heap = some m) (body : Body MeterDataLog)
    (rest : List (Body MeterDataLog)) :
    Received measurement t m body rest s (receive measurement t m body rest s) := by
  rcases busRead_cases received body with ⟨read, refused⟩ | ⟨h, d, read, holds⟩
  · have outcome : receive measurement t m body rest s = some (s.miss (malloc s.heap m .msg) rest) := by
      simp [receive, read]
    rw [outcome]
    exact .missed refused
  · by_cases fits : Fits measurement t body h
    · have outcome : receive measurement t m body rest s =
          some (s.take s.heap body rest (lineOf measurement t body h)) := by
        simp [receive, read, handle_keeps holds fits]
      rw [outcome]
      exact .took h d read fits
    · have outcome : receive measurement t m body rest s = none := by
        simp [receive, read, handle_fault fits]
      rw [outcome]
      exact .fault h d read fits

theorem Accounts.miss (accounts : Accounts base measurement s) (unused : s.heap m = none)
    (rest : List (Body MeterDataLog)) :
    Accounts base measurement (s.miss (malloc s.heap m .msg) rest) := by
  obtain ⟨owned, extended, messages, counted⟩ := accounts.leaked
  have outside := extended.unowned unused
  refine ⟨⟨m :: owned, extended.malloc unused _, fun a member => ?_, ?_⟩, accounts.posted⟩
  · rcases List.mem_cons.mp member with rfl | member
    · simp [State.miss, malloc]
    · have other : a ≠ m := fun same => outside (same ▸ member)
      simpa [State.miss, malloc, Function.update_of_ne other] using messages a member
  · rw [List.length_cons, counted]
    rfl

theorem Accounts.take (accounts : Accounts base measurement s) (body : Body MeterDataLog)
    (rest : List (Body MeterDataLog)) (h : Heap Nat Resource) :
    Accounts base measurement (s.take s.heap body rest (lineOf measurement t body h)) := by
  have longer : lines measurement (s.reader.taken ++ [body]) =
      lines measurement s.reader.taken ++ lines measurement [body] := by
    simp [lines]
  exact ⟨accounts.leaked, longer ▸ accounts.posted.append (lineOf_posted t body h)⟩

inductive Turned (measurement : Bytes) (t : Turn) (s : State) : State → Prop
  | idle (refused : t.msg.choose s.heap = none) : Turned measurement t s s
  | received (m : Nat) (body : Body MeterDataLog) (rest : List (Body MeterDataLog)) (next : State)
      (answered : t.msg.choose s.heap = some m) (front : s.reader.queue = body :: rest)
      (came : Received measurement t m body rest s (some next)) : Turned measurement t s next
  | crashed (m : Nat) (body : Body MeterDataLog) (rest : List (Body MeterDataLog))
      (answered : t.msg.choose s.heap = some m) (front : s.reader.queue = body :: rest)
      (came : Received measurement t m body rest s none) :
      Turned measurement t s { s with crashed := true }

theorem turn_cases (stepped : step capacity measurement s (.turn t) = some next) :
    s.crashed = false ∧ Turned measurement t s next := by
  unfold step at stepped
  split at stepped
  · contradiction
  next running =>
    refine ⟨Bool.not_eq_true _ ▸ running, ?_⟩
    dsimp only at stepped
    split at stepped
    next refused =>
      obtain rfl := Option.some.inj stepped
      exact .idle refused
    next m answered =>
      split at stepped
      · contradiction
      next body rest front =>
        obtain rfl := Option.some.inj stepped
        have came := @receive_cases measurement s t m answered body rest
        cases outcome : receive measurement t m body rest s with
        | none => exact .crashed m body rest answered front (outcome ▸ came)
        | some next => exact .received m body rest next answered front (outcome ▸ came)

/-- A turn is harmless and keeps the accounts, or it is not and the task crashes. -/
theorem Turned.harmless_or_crashed (turned : Turned measurement t s next)
    (accounts : Accounts base measurement s) (running : s.crashed = false) :
    (Harmless measurement s (.turn t) ∧ next.crashed = false ∧ Accounts base measurement next ∧
        ∃ outcome, s.reader.busRead outcome = some next.reader) ∨
      (¬ Harmless measurement s (.turn t) ∧ next.crashed = true) := by
  cases turned with
  | idle refused =>
    refine .inl ⟨fun m body rest h d received => ?_, running, accounts, .recvFails, ?_⟩
    · rw [refused] at received
      contradiction
    · exact s.reader.busRead_recvFails
  | received m body rest _ answered front came =>
    cases came with
    | missed refused =>
      refine .inl ⟨fun m' body' rest' h d received' front' read => ?_, running,
        accounts.miss (t.msg.unused _ m answered) rest, .mallocFails, ?_⟩
      · obtain rfl := Option.some.inj (answered.symm.trans received')
        simp [busRead, refused, lengthOf_nonneg body'.fits] at read
      · exact Reader.busRead_mallocFails front
    | took h d read fits =>
      refine .inl ⟨fun m' body' rest' h' d' received' front' read' => ?_, running,
        accounts.take body rest h, .received, ?_⟩
      · obtain rfl := Option.some.inj (answered.symm.trans received')
        obtain ⟨rfl, rfl⟩ := List.cons.inj (front.symm.trans front')
        obtain ⟨rfl, -⟩ := Prod.mk.inj (Option.some.inj (read.symm.trans read'))
        exact fits
      · exact Reader.busRead_received front
  | crashed m body rest answered front came =>
    cases came with
    | fault h d read harmful =>
      exact .inr ⟨fun harmless => harmful (harmless m body rest h d answered front read), rfl⟩

theorem step_spec {action : Action} (accounts : Accounts base measurement s)
    (stepped : step capacity measurement s action = some next) :
    s.crashed = false ∧
      ((Harmless measurement s action ∧ next.crashed = false ∧ Accounts base measurement next ∧
          Moves capacity s.reader next.reader) ∨
        (¬ Harmless measurement s action ∧ next.crashed = true)) := by
  cases action with
  | deliver body =>
    simp only [step, Option.ite_none_left_eq_some, Bool.not_eq_true, Option.some.injEq] at stepped
    obtain ⟨running, rfl⟩ := stepped
    have taken := @Reader.deliver_taken _ capacity s.reader body
    exact ⟨running, .inl ⟨trivial, running, ⟨accounts.leaked, taken ▸ accounts.posted⟩,
      .inl ⟨body, rfl⟩⟩⟩
  | turn t =>
    obtain ⟨running, turned⟩ := turn_cases stepped
    rcases turned.harmless_or_crashed accounts running with ⟨harmless, alive, kept, read⟩ | crashes
    · exact ⟨running, .inl ⟨harmless, alive, kept, .inr read⟩⟩
    · exact ⟨running, .inr crashes⟩

def giving (a : Nat) : Answer Nat Resource where
  choose h := if h a = none then some a else none
  unused h b chosen := by
    split at chosen
    next unused =>
      obtain rfl := Option.some.inj chosen
      exact unused
    · contradiction

def refusing : Answer Nat Resource := ⟨fun _ => none, fun _ _ chosen => by contradiction⟩

/-- Every block comes from the same place on: 1 for the message, then in the order of the calls. -/
def smoothTurn : Turn :=
  ⟨giving 1, giving 2, giving 3, giving 4, giving 5, giving 6, giving 7, giving 8, giving 9, true⟩

/-- A record that is posted, one that meets no server, one that is not copied. -/
def troubledTrace : List Action :=
  let body : Body MeterDataLog := ⟨constantRecord 0, 32, by decide⟩
  [.deliver body, .deliver body, .deliver body, .turn smoothTurn,
    .turn { smoothTurn with conn := refusing }, .turn { smoothTurn with data := refusing }]

theorem troubledTrace_runs :
    (run (step 8 (ascii "meter")) (initial fun _ => none) troubledTrace).map
      (fun s => (s.crashed, s.unread, s.posted.length, s.reader.taken.length)) =
        some (false, 1, 1, 2) := by
  decide +kernel

theorem accounts_initial (base : Heap Nat Resource) (measurement : Bytes) :
    Accounts base measurement (initial base) :=
  ⟨⟨[], extends_refl base, by simp, rfl⟩, List.Sublist.slnil⟩

/-- The task survives exactly the runs in which every record that is handed over finds memory
for a line and fits it. -/
theorem influx_run_survives_iff {trace : List Action} {final : State}
    (ran : run (step capacity measurement) (initial base) trace = some final) :
    final.crashed = false ↔
      Along (step capacity measurement) (Harmless measurement) (initial base) trace := by
  constructor
  · intro survives
    have either := along_or_broken (Accounts base measurement) (fun s => s.crashed = true)
      (Harmless measurement)
      (fun s action next accounts harmless stepped => by
        rcases (step_spec accounts stepped).2 with ⟨-, -, kept, -⟩ | ⟨harmful, -⟩
        · exact kept
        · exact absurd harmless harmful)
      (fun s action next accounts harmful stepped => by
        rcases (step_spec accounts stepped).2 with ⟨harmless, -⟩ | ⟨-, crashed⟩
        · exact absurd harmless harmful
        · exact crashed)
      (fun s action next crashed stepped => by simp [step, crashed] at stepped)
      (accounts_initial base measurement) ran
    rcases either with along | crashed
    · exact along
    · rw [survives] at crashed
      contradiction
  · intro along
    have safe := (throughout_iff_along
      (fun s => Accounts base measurement s ∧ s.crashed = false) (fun s => s.crashed = false)
      (Harmless measurement) (fun s kept => kept.2)
      (fun s action next kept harmless stepped => by
        rcases (step_spec kept.1 stepped).2 with ⟨-, running, accounts, -⟩ | ⟨harmful, -⟩
        · exact ⟨accounts, running⟩
        · exact absurd harmless harmful)
      (fun s action next kept harmful stepped => by
        rcases (step_spec kept.1 stepped).2 with ⟨harmless, -⟩ | ⟨-, crashed⟩
        · exact absurd harmless harmful
        · simp [crashed])
      ⟨accounts_initial base measurement, rfl⟩ ran).mpr along
    exact safe trace final List.prefix_rfl ran

theorem influx_run_survives_iff_troubled :
    Along (step 8 (ascii "meter")) (Harmless (ascii "meter")) (initial fun _ => none) troubledTrace := by
  obtain ⟨final, ran, ended⟩ := Option.map_eq_some_iff.mp troubledTrace_runs
  exact (influx_run_survives_iff ran).mp (congrArg Prod.fst ended)

end XMeterLogger.InfluxTask
