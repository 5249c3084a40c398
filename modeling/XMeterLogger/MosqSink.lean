import XMeterLogger.Error
import XMeterLogger.MosqForward
import XMeterLogger.SBus

/-! The mosquitto sink thread and the callbacks of the library's network thread,
which share the global flag `_connected`. The flag is tested until it is first set
and never again. -/
namespace XMeterLogger.MosqSink

open XMeterLogger.Heap XMeterLogger.MosqForward XMeterLogger.Transition
open XMeterLogger.SBus (ReadOutcome)

inductive Callback where
  | onConnect (rc : Int)
  | onDisconnect (rc : Int)
  deriving DecidableEq, Repr

def Callback.isDisconnect : Callback → Bool
  | .onConnect _ => false
  | .onDisconnect _ => true

inductive Position where
  | entry
  | configured
  | clientMade
  | flagCleared
  | connected
  /-- `while (!_connected)`, after `mosquitto_loop_start`. -/
  | waiting
  | reading
  | holding (data : Bytes)
  | exited (status : Nat)
  deriving DecidableEq, Repr

/-- The network thread runs, so callbacks may come. -/
def Position.looping : Position → Bool
  | .waiting | .reading | .holding _ => true
  | _ => false

structure State where
  position : Position
  connected : Bool
  /-- The most recent connection event. -/
  session : Option Callback
  queue : List Bytes
  published : List Publish
  deriving DecidableEq, Repr

def initial : State := ⟨.entry, false, none, [], []⟩

inductive Action where
  | checkConfig (ok : Bool)
  | mosquittoNew (ok : Bool)
  | clearFlag
  | mosquittoConnect (ok : Bool)
  | loopStart (ok : Bool)
  | testFlag
  | busRead (outcome : ReadOutcome)
  /-- The size test, `send_to_mqtt` and `free`. -/
  | publish
  | callback (event : Callback)
  | arrive (message : Bytes)
  deriving DecidableEq, Repr

/-- `on_connect` sets the flag before it looks at the code. -/
def callbackFlag : Callback → Bool
  | .onConnect _ => true
  | .onDisconnect _ => false

def busRead (s : State) (outcome : ReadOutcome) : Option State := do
  let (data, queue) ← SBus.busRead List.length s.queue outcome
  some { s with queue, position := data.elim s.position .holding }

def proceed (s : State) (ok : Bool) (next : Position) (status : Nat) : State :=
  { s with position := if ok then next else .exited status }

def step (s : State) : Action → Option State
  | .arrive message => some { s with queue := s.queue ++ [message] }
  | .callback event =>
    if s.position.looping then some { s with connected := callbackFlag event, session := some event }
    else none
  | .checkConfig ok =>
    if s.position = .entry then some (proceed s ok .configured equerr) else none
  | .mosquittoNew ok =>
    if s.position = .configured then some (proceed s ok .clientMade esyserr) else none
  | .clearFlag =>
    if s.position = .clientMade then some { s with connected := false, position := .flagCleared }
    else none
  | .mosquittoConnect ok =>
    if s.position = .flagCleared then some (proceed s ok .connected esvrerr) else none
  | .loopStart ok =>
    if s.position = .connected then some (proceed s ok .waiting esvrerr) else none
  | .testFlag =>
    if s.position = .waiting then some (if s.connected then { s with position := .reading } else s)
    else none
  | .busRead outcome => if s.position = .reading then busRead s outcome else none
  | .publish =>
    match s.position with
    | .holding data =>
      some { s with position := .reading, published := s.published ++ (mosqSinkPublish data).toList }
    | _ => none

/-- The steps that take a message off the bus or publish it. -/
def Action.consumes : Action → Bool
  | .busRead .received | .busRead .mallocFails | .publish => true
  | _ => false

/-- A consuming step is taken in an accepted session. -/
def Guarded (s : State) (action : Action) : Prop :=
  action.consumes = true → s.session = some (.onConnect 0)

def callbacksOf (trace : List Action) : List Callback :=
  trace.filterMap fun
    | .callback event => some event
    | _ => none

/-- No refusal, and no drop once a connect was reported. -/
def Steady (events : List Callback) : Prop :=
  ∀ event ∈ events.dropWhile Callback.isDisconnect, event = .onConnect 0

/-- The bus is within the task's reach. -/
def Position.serving : Position → Bool
  | .reading | .holding _ => true
  | _ => false

/-- The flag and the position promise an accepted session, and the callbacks still
to come do not take it back. -/
structure Settled (s : State) (events : List Callback) : Prop where
  promise : s.connected = true ∨ s.position.serving = true → s.session = some (.onConnect 0)
  coming : if s.session = some (.onConnect 0) then ∀ event ∈ events, event = .onConnect 0
    else Steady events

variable {s next : State} {action : Action}

theorem steady_cons_disconnect (rc : Int) (events : List Callback) :
    Steady (.onDisconnect rc :: events) ↔ Steady events := by
  simp [Steady, List.dropWhile_cons, Callback.isDisconnect]

theorem steady_cons_connect (rc : Int) (events : List Callback) :
    Steady (.onConnect rc :: events) ↔ ∀ event ∈ Callback.onConnect rc :: events, event = .onConnect 0 := by
  simp [Steady, Callback.isDisconnect]

theorem callback_step {event : Callback} (stepped : step s (.callback event) = some next) :
    next = { s with connected := callbackFlag event, session := some event } := by
  simp only [step, Option.ite_none_right_eq_some, Option.some.injEq] at stepped
  exact stepped.2.symm

theorem busRead_cases {outcome : ReadOutcome} (read : busRead s outcome = some next) :
    (outcome = .recvFails ∧ next = s) ∨
    ∃ data rest, s.queue = data :: rest ∧
      ((outcome = .mallocFails ∧ next = { s with queue := rest }) ∨
        (outcome = .received ∧ 0 ≤ SBus.lengthOf data.length ∧
          next = { s with queue := rest, position := .holding data }) ∨
        (outcome = .received ∧ ¬ 0 ≤ SBus.lengthOf data.length ∧ next = { s with queue := rest })) := by
  obtain ⟨⟨message, queue⟩, took, read⟩ := Option.bind_eq_some_iff.mp read
  obtain rfl := Option.some.inj read
  rcases SBus.busRead_cases took with ⟨rfl, rfl, rfl⟩ | ⟨data, front, ⟨rfl, rfl⟩ | ⟨rfl, rfl⟩⟩
  · exact .inl ⟨rfl, rfl⟩
  · exact .inr ⟨data, queue, front, .inl ⟨rfl, rfl⟩⟩
  · refine .inr ⟨data, queue, front, .inr ?_⟩
    by_cases whole : 0 ≤ SBus.lengthOf data.length
    · exact .inl ⟨rfl, whole, by simp [whole]⟩
    · exact .inr ⟨rfl, whole, by simp [whole]⟩

theorem busRead_keeps {outcome : ReadOutcome} (read : busRead s outcome = some next) :
    next.session = s.session ∧ next.connected = s.connected := by
  rcases busRead_cases read with ⟨-, rfl⟩ | ⟨data, rest, -, ⟨-, rfl⟩ | ⟨-, -, rfl⟩ | ⟨-, -, rfl⟩⟩ <;>
    exact ⟨rfl, rfl⟩

/-- No other step touches the session, raises the flag, or comes within reach of the
bus without the flag. -/
theorem other_step (other : ∀ event, action ≠ .callback event) (stepped : step s action = some next) :
    next.session = s.session ∧ (next.connected = true → s.connected = true) ∧
      (next.position.serving = true → s.position.serving = true ∨ s.connected = true) := by
  cases action with
  | callback event => exact absurd rfl (other event)
  | arrive message =>
    obtain rfl := Option.some.inj stepped
    exact ⟨rfl, id, .inl⟩
  | checkConfig ok | mosquittoNew ok | mosquittoConnect ok | loopStart ok =>
    simp only [step, Option.ite_none_right_eq_some, Option.some.injEq] at stepped
    obtain ⟨-, rfl⟩ := stepped
    cases ok <;> simp [proceed, Position.serving]
  | clearFlag =>
    simp only [step, Option.ite_none_right_eq_some, Option.some.injEq] at stepped
    obtain ⟨-, rfl⟩ := stepped
    simp [Position.serving]
  | testFlag =>
    simp only [step, Option.ite_none_right_eq_some, Option.some.injEq] at stepped
    obtain ⟨-, rfl⟩ := stepped
    split
    next flag => exact ⟨rfl, id, fun _ => .inr flag⟩
    next => exact ⟨rfl, id, .inl⟩
  | busRead outcome =>
    simp only [step, Option.ite_none_right_eq_some] at stepped
    obtain ⟨reading, stepped⟩ := stepped
    have serving : s.position.serving = true := by
      rw [reading]
      rfl
    obtain ⟨session, flag⟩ := busRead_keeps stepped
    exact ⟨session, fun raised => flag ▸ raised, fun _ => .inl serving⟩
  | publish =>
    simp only [step] at stepped
    split at stepped
    next data holding =>
      obtain rfl := Option.some.inj stepped
      exact ⟨rfl, id, fun _ => .inl (by rw [holding]; rfl)⟩
    · contradiction

theorem settled_callback {event : Callback} {events : List Callback}
    (settled : Settled s (event :: events)) (stepped : step s (.callback event) = some next) :
    Settled next events := by
  obtain ⟨promise, coming⟩ := settled
  obtain rfl := callback_step stepped
  by_cases accepted : s.session = some (.onConnect 0)
  · rw [if_pos accepted] at coming
    have again := coming event List.mem_cons_self
    subst again
    exact ⟨fun _ => rfl, by
      rw [if_pos rfl]
      exact fun later member => coming later (List.mem_cons_of_mem _ member)⟩
  · rw [if_neg accepted] at coming
    have idle : s.position.serving = false := by
      cases serving : s.position.serving with
      | false => rfl
      | true => exact absurd (promise (.inr serving)) accepted
    cases event with
    | onDisconnect rc =>
      refine ⟨by simp [callbackFlag, idle], ?_⟩
      rw [if_neg (by simp)]
      exact (steady_cons_disconnect rc events).mp coming
    | onConnect rc =>
      have all := (steady_cons_connect rc events).mp coming
      rw [all _ List.mem_cons_self]
      refine ⟨fun _ => rfl, ?_⟩
      rw [if_pos rfl]
      exact fun later member => all later (List.mem_cons_of_mem _ member)

theorem settled_other {events : List Callback} (settled : Settled s events)
    (other : ∀ event, action ≠ .callback event) (stepped : step s action = some next) :
    Settled next events := by
  obtain ⟨session, flag, serving⟩ := other_step other stepped
  refine ⟨?_, by rw [session]; exact settled.coming⟩
  rintro (raised | reached)
  · rw [session]
    exact settled.promise (.inl (flag raised))
  · rw [session]
    exact settled.promise ((serving reached).symm)

theorem consumes_serving (consumes : action.consumes = true) (stepped : step s action = some next) :
    s.position.serving = true := by
  cases action with
  | busRead outcome =>
    simp only [step, Option.ite_none_right_eq_some] at stepped
    rw [stepped.1]
    rfl
  | publish =>
    simp only [step] at stepped
    split at stepped
    next data holding =>
      rw [holding]
      rfl
    · contradiction
  | _ => simp [Action.consumes] at consumes

theorem settled_run {events : List Callback} {trace : List Action} {final : State}
    (settled : Settled s events) (ran : run step s trace = some final)
    (heard : callbacksOf trace <+: events) : Along step Guarded s trace := by
  induction trace generalizing s events with
  | nil => trivial
  | cons action rest ih =>
    obtain ⟨next, stepped, continued⟩ := run_cons_iff.mp ran
    refine ⟨fun consumes => settled.promise (.inr (consumes_serving consumes stepped)),
      fun other same => ?_⟩
    obtain rfl := Option.some.inj (stepped.symm.trans same)
    cases action with
    | callback event =>
      obtain ⟨unheard, rfl⟩ := heard
      exact ih (settled_callback settled stepped) continued ⟨unheard, rfl⟩
    | _ => exact ih (settled_other settled (by simp) stepped) continued heard

/-- Callbacks reach a looping client wherever its thread stands. -/
theorem run_callbacks (events : List Callback) (looping : s.position.looping = true) :
    ∃ final, run step s (events.map Action.callback) = some final ∧
      final.position = s.position ∧ final.queue = s.queue ∧ final.published = s.published ∧
      final.session = events.getLast?.or s.session := by
  induction events generalizing s with
  | nil => exact ⟨s, rfl, rfl, rfl, rfl, rfl⟩
  | cons event events ih =>
    let after : State := { s with connected := callbackFlag event, session := some event }
    have stepped : step s (.callback event) = some after := by
      simp [step, looping, after]
    obtain ⟨final, ran, position, queue, published, last⟩ := @ih after looping
    refine ⟨final, run_cons_iff.mpr ⟨after, stepped, ran⟩, position, queue, published, ?_⟩
    rw [last, List.getLast?_cons]
    cases events.getLast? <;> rfl

theorem steady_settled {events : List Callback} (steady : Steady events) : Settled initial events := by
  refine ⟨by simp [initial, Position.serving], ?_⟩
  rw [if_neg (by simp [initial])]
  exact steady

def setUp : List Action :=
  [.checkConfig true, .mosquittoNew true, .clearFlag, .mosquittoConnect true, .loopStart true]

/-- The thread passes its wait at a connect, whatever its code, and reads the bus
after all the callbacks that follow. -/
theorem run_to_busRead (before : List Callback) (rc : Int) (later : List Callback) (message : Bytes) :
    ∃ final, run step initial (setUp ++ (before.map .callback ++ ([.callback (.onConnect rc), .testFlag] ++
        (later.map .callback ++ [.arrive message])))) = some final ∧
      final.position = .reading ∧ final.queue = [message] ∧ final.published = [] ∧
      final.session = some (later.getLast?.getD (.onConnect rc)) := by
  let waiting : State := ⟨.waiting, false, none, [], []⟩
  have up : run step initial setUp = some waiting := rfl
  obtain ⟨heard, ranBefore, position, queue, published, -⟩ := @run_callbacks waiting before rfl
  let reading : State := { heard with
    position := .reading, connected := true, session := some (.onConnect rc) }
  have passed : run step heard [.callback (.onConnect rc), .testFlag] = some reading := by
    simp [run, step, position, waiting, Position.looping, callbackFlag, reading]
  obtain ⟨final, ranLater, reads, kept, unpublished, session⟩ := @run_callbacks reading later rfl
  have arrived : run step final [.arrive message] =
      some { final with queue := final.queue ++ [message] } := rfl
  refine ⟨_, run_append up (run_append ranBefore (run_append passed (run_append ranLater arrived))),
    reads, ?_, unpublished.trans published, ?_⟩
  · simp only [kept, reading, queue, waiting, List.nil_append]
  · simp only [session, reading]
    cases later.getLast? <;> rfl

/-- A record that `on_message` has made is published as soon as it is read. -/
theorem run_publish {m : Memory} {topic payload : Bytes} (noNul : (0 : UInt8) ∉ topic)
    (fits : payload.length ≤ 2048) (reading : s.position = .reading)
    (queue : s.queue = [load (record m topic payload) 0 Message.sizeofMessage]) :
    run step s [.busRead .received, .publish] = some { s with
      queue := [], published := s.published ++ [⟨topic.take 128, payload.length, payload⟩] } := by
  have length : (load (record m topic payload) 0 Message.sizeofMessage).length = Message.sizeofMessage :=
    load_length ..
  have whole : 0 ≤ SBus.lengthOf Message.sizeofMessage := by decide
  have published := mosqSinkPublish_record m topic payload noNul fits
  generalize load (record m topic payload) 0 Message.sizeofMessage = message at *
  have taken : SBus.busRead List.length s.queue .received = some (some message, []) := by
    simp [SBus.busRead, queue, length, whole]
  simp [run, step, busRead, reading, taken, published]

/-- Callbacks that are not steady have a first connect and, from there on, a callback
that is not an accepted connect. -/
theorem unsteady_split {events : List Callback} (unsteady : ¬ Steady events) :
    ∃ before rc later back, events = before ++ .onConnect rc :: later ++ back ∧
      later.getLast?.getD (.onConnect rc) ≠ .onConnect 0 := by
  simp only [Steady, not_forall] at unsteady
  obtain ⟨event, member, refused⟩ := unsteady
  obtain ⟨first, others, started⟩ := List.exists_cons_of_ne_nil (List.ne_nil_of_mem member)
  have connect : first.isDisconnect = false := by
    have head := List.head?_dropWhile_not Callback.isDisconnect events
    rw [started] at head
    simpa using head
  have joined : events = events.takeWhile Callback.isDisconnect ++ first :: others := by
    rw [← started, List.takeWhile_append_dropWhile]
  cases first with
  | onDisconnect rc => simp [Callback.isDisconnect] at connect
  | onConnect rc =>
    rw [started] at member
    rcases List.mem_cons.mp member with rfl | inside
    · exact ⟨_, rc, [], others, by simpa using joined, refused⟩
    · obtain ⟨front, back, rfl⟩ := List.append_of_mem inside
      refine ⟨_, rc, front ++ [event], back, by simpa using joined, ?_⟩
      simpa using refused

theorem callbacksOf_append (front back : List Action) :
    callbacksOf (front ++ back) = callbacksOf front ++ callbacksOf back := List.filterMap_append

theorem callbacksOf_map (events : List Callback) : callbacksOf (events.map .callback) = events := by
  rw [callbacksOf, List.filterMap_map]
  exact List.filterMap_some

/-- The task consumes in accepted sessions only, in every run with these callbacks,
exactly when no callback refuses a connect or drops a reported one. -/
theorem consumes_only_while_accepted_iff (events : List Callback) :
    (∀ trace final, run step initial trace = some final → callbacksOf trace <+: events →
      Along step Guarded initial trace) ↔ Steady events := by
  constructor
  · intro guarded
    by_contra unsteady
    obtain ⟨before, rc, later, back, rfl, refused⟩ := unsteady_split unsteady
    obtain ⟨final, ran, reading, queue, -, session⟩ := run_to_busRead before rc later
      (load (record (fun _ => 0) [0x74] [0x31]) 0 Message.sizeofMessage)
    have taken := run_publish (by decide) (by decide) reading queue
    have along := guarded _ _ (run_append ran taken) (by
      refine ⟨back, ?_⟩
      simp only [callbacksOf_append, callbacksOf_map]
      simp [callbacksOf, setUp])
    have accepted := (along_append_right along ran).1 rfl
    rw [session] at accepted
    exact refused (Option.some.inj accepted)
  · intro steady trace final ran heard
    exact settled_run (steady_settled steady) ran heard

/-- The broker refuses the first connect; the sink takes a message off the bus all
the same and hands it to the library. -/
theorem refused_session_consumes :
    ∃ trace final, run step initial trace = some final ∧
      callbacksOf trace = [.onConnect 5] ∧ final.published = [⟨[0x74], 1, [0x31]⟩] ∧
      ¬ Along step Guarded initial trace := by
  obtain ⟨final, ran, reading, queue, published, session⟩ := run_to_busRead [] 5 []
    (load (record (fun _ => 0) [0x74] [0x31]) 0 Message.sizeofMessage)
  have taken := run_publish (by decide) (by decide) reading queue
  refine ⟨_, _, run_append ran taken, rfl, by rw [published]; rfl, fun along => ?_⟩
  have accepted := (along_append_right along ran).1 rfl
  rw [session] at accepted
  exact absurd accepted (by decide)

end XMeterLogger.MosqSink
