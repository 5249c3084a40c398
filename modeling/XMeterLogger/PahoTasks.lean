import XMeterLogger.QueueSinks

/-! The source and the sink of the Paho library. Each makes a client, connects it and
loops until the library's thread, calling `connectionLost`, clears the flag they share.
The task raises the flag only after the connect has returned. -/
namespace XMeterLogger.PahoTasks

open XMeterLogger.Transition

structure Task where
  /-- Exit statuses of the tests for NULL in front of the loop. -/
  checks : List Nat
  /-- `MQTTClient_subscribe` follows the connect. -/
  subscribes : Bool
  /-- A client that failed to connect is destroyed before the next is made. -/
  discards : Bool

def mqttSourceReaderTask : Task := ⟨[], true, false⟩

def mqttSinkTask : Task := ⟨[esyserr, equerr], false, true⟩

inductive Position where
  | checking (statuses : List Nat)
  /-- At `MQTTClient_create`, with the options and the callbacks that follow it. -/
  | creating
  | connecting
  | discarding
  | subscribing
  | setting
  | looping
  | turning
  | disconnecting
  | destroying
  | exited (status : Nat)
  deriving DecidableEq, Repr

def Position.inLoop : Position → Bool
  | .looping | .turning => true
  | _ => false

def Position.running : Position → Bool
  | .exited _ => false
  | _ => true

/-- The session of the current client, lost once its `connectionLost` has completed. -/
inductive Session where
  | absent
  | live
  | lost
  deriving DecidableEq, Repr

structure State where
  position : Position
  connected : Bool
  session : Session
  earlier : Nat
  deriving DecidableEq, Repr

def enter (checks : List Nat) : Position :=
  if checks = [] then .creating else .checking checks

def Task.start (task : Task) : State := ⟨enter task.checks, false, .absent, 0⟩

inductive Client where
  | current
  | earlier
  deriving DecidableEq, Repr

inductive Action where
  | check (ok : Bool)
  | create (ok : Bool)
  | connect (ok : Bool)
  | discard
  /-- `MQTTClient_subscribe`, whose code nobody reads. -/
  | subscribe
  | setFlag
  | testFlag
  /-- The body of the loop: a `sleep`, or one dequeue and what follows it. -/
  | turn
  | disconnect
  | destroy
  /-- The callback of a client whose connect succeeded. -/
  | connectionLost (client : Client)
  deriving DecidableEq, Repr

section Machine

variable (task : Task)

def Task.connectNext (ok : Bool) : Position :=
  if ok then (if task.subscribes then .subscribing else .setting)
  else if task.discards then .discarding
  else .creating

def connectionLost (s : State) : Client → Option State
  | .current =>
    if s.session = .absent then none else some { s with connected := false, session := .lost }
  | .earlier => if s.earlier = 0 then none else some { s with connected := false }

def step (s : State) : Action → Option State
  | .check ok =>
    match s.position with
    | .checking (status :: rest) => some { s with position := if ok then enter rest else .exited status }
    | _ => none
  | .create ok =>
    if s.position = .creating then
      some { s with position := if ok then .connecting else .exited esvrerr }
    else none
  | .connect ok =>
    if s.position = .connecting then
      some { s with position := task.connectNext ok, session := if ok then .live else .absent }
    else none
  | .discard => if s.position = .discarding then some { s with position := .creating } else none
  | .subscribe => if s.position = .subscribing then some { s with position := .setting } else none
  | .setFlag =>
    if s.position = .setting then some { s with position := .looping, connected := true } else none
  | .testFlag =>
    if s.position = .looping then
      some { s with position := if s.connected then .turning else .disconnecting }
    else none
  | .turn => if s.position = .turning then some { s with position := .looping } else none
  | .disconnect =>
    if s.position = .disconnecting then some { s with position := .destroying } else none
  | .destroy =>
    if s.position = .destroying then
      some { s with position := .creating, session := .absent, earlier := s.earlier + 1 }
    else none
  | .connectionLost client => if s.position.running then connectionLost s client else none

/-- However the run goes on, the next test of the flag leaves the loop. -/
def LeavesAtNextTest (s : State) : Prop :=
  ∀ trace middle next, Action.testFlag ∉ trace → run (step task) s trace = some middle →
    step task middle .testFlag = some next → next.position = .disconnecting

/-- In the loop a lost session shows in the flag, so that the task is about to leave. -/
def Noticed (s : State) : Prop :=
  s.position.inLoop = true → s.session = .lost → s.connected = false ∧ LeavesAtNextTest task s

end Machine

/-- The flag is raised over a live session. -/
def RaisedLive (s : State) (action : Action) : Prop := action = .setFlag → s.session ≠ .lost

variable {task : Task} {s next : State} {action : Action}

theorem connectionLost_step {client : Client}
    (stepped : step task s (.connectionLost client) = some next) :
    next.position = s.position ∧ next.connected = false := by
  simp only [step, Option.ite_none_right_eq_some] at stepped
  obtain ⟨-, called⟩ := stepped
  cases client with
  | current =>
    simp only [connectionLost, Option.ite_none_left_eq_some, Option.some.injEq] at called
    obtain ⟨-, rfl⟩ := called
    exact ⟨rfl, rfl⟩
  | earlier =>
    simp only [connectionLost, Option.ite_none_left_eq_some, Option.some.injEq] at called
    obtain ⟨-, rfl⟩ := called
    exact ⟨rfl, rfl⟩

theorem enter_inLoop (checks : List Nat) : (enter checks).inLoop = false := by
  unfold enter
  split <;> rfl

theorem connectNext_inLoop (ok : Bool) : (task.connectNext ok).inLoop = false := by
  unfold Task.connectNext
  split
  · split <;> rfl
  · split <;> rfl

/-- What one step does to the flag and the loop: the flag is raised in front of it,
a callback clears it, the test decides, a turn ends, or all goes on outside. -/
theorem step_cases (stepped : step task s action = some next) :
    (action = .setFlag ∧ s.position = .setting ∧
      next = { s with position := .looping, connected := true }) ∨
    ((∃ client, action = .connectionLost client) ∧ next.position = s.position ∧
      next.connected = false) ∨
    (action = .testFlag ∧ s.position = .looping ∧
      next = { s with position := if s.connected then .turning else .disconnecting }) ∨
    (action = .turn ∧ s.position = .turning ∧ next = { s with position := .looping }) ∨
    (action ≠ .setFlag ∧ s.position.inLoop = false ∧ next.position.inLoop = false) := by
  cases action with
  | setFlag =>
    simp only [step, Option.ite_none_right_eq_some, Option.some.injEq] at stepped
    obtain ⟨setting, rfl⟩ := stepped
    exact .inl ⟨rfl, setting, rfl⟩
  | connectionLost client =>
    obtain ⟨position, cleared⟩ := connectionLost_step stepped
    exact .inr (.inl ⟨⟨client, rfl⟩, position, cleared⟩)
  | testFlag =>
    simp only [step, Option.ite_none_right_eq_some, Option.some.injEq] at stepped
    obtain ⟨looping, rfl⟩ := stepped
    exact .inr (.inr (.inl ⟨rfl, looping, rfl⟩))
  | turn =>
    simp only [step, Option.ite_none_right_eq_some, Option.some.injEq] at stepped
    obtain ⟨turning, rfl⟩ := stepped
    exact .inr (.inr (.inr (.inl ⟨rfl, turning, rfl⟩)))
  | check ok =>
    right; right; right; right
    simp only [step] at stepped
    split at stepped
    next status rest checking =>
      obtain rfl := Option.some.inj stepped
      refine ⟨by simp, by rw [checking]; rfl, ?_⟩
      cases ok with
      | true => exact enter_inLoop rest
      | false => rfl
    · contradiction
  | create ok =>
    right; right; right; right
    simp only [step, Option.ite_none_right_eq_some, Option.some.injEq] at stepped
    obtain ⟨creating, rfl⟩ := stepped
    refine ⟨by simp, by rw [creating]; rfl, ?_⟩
    cases ok <;> rfl
  | connect ok =>
    right; right; right; right
    simp only [step, Option.ite_none_right_eq_some, Option.some.injEq] at stepped
    obtain ⟨connecting, rfl⟩ := stepped
    exact ⟨by simp, by rw [connecting]; rfl, connectNext_inLoop ok⟩
  | discard | subscribe | disconnect | destroy =>
    right; right; right; right
    simp only [step, Option.ite_none_right_eq_some, Option.some.injEq] at stepped
    obtain ⟨outside, rfl⟩ := stepped
    exact ⟨by simp, by rw [outside]; rfl, rfl⟩

/-- In the loop with the flag down: nothing but the test of the flag ends this. -/
def AboutToLeave (s : State) : Prop := s.position.inLoop = true ∧ s.connected = false

theorem aboutToLeave_step (about : AboutToLeave s) (other : action ≠ .testFlag)
    (stepped : step task s action = some next) : AboutToLeave next := by
  obtain ⟨inside, down⟩ := about
  rcases step_cases stepped with ⟨-, setting, -⟩ | ⟨-, position, cleared⟩ | ⟨test, -⟩ |
    ⟨-, -, rfl⟩ | ⟨-, outside, -⟩
  · rw [setting] at inside
    contradiction
  · exact ⟨by rw [position]; exact inside, cleared⟩
  · contradiction
  · exact ⟨rfl, down⟩
  · rw [inside] at outside
    contradiction

theorem aboutToLeave_leaves (about : AboutToLeave s) : LeavesAtNextTest task s := by
  intro trace middle next untested ran tested
  have others : ∀ action ∈ trace, action ≠ .testFlag := by
    rintro action member rfl
    exact untested member
  obtain ⟨-, down⟩ := run_invariant_on AboutToLeave (· ≠ .testFlag)
    (fun _ _ _ => aboutToLeave_step) about others ran
  simp only [step, Option.ite_none_right_eq_some, Option.some.injEq] at tested
  obtain ⟨-, rfl⟩ := tested
  rw [down]
  rfl

/-- In the loop a lost session shows in the flag. -/
def Shown (s : State) : Prop := s.position.inLoop = true → s.session = .lost → s.connected = false

theorem noticed_iff : Noticed task s ↔ Shown s := by
  constructor
  · intro noticed inside lost
    exact (noticed inside lost).1
  · intro shown inside lost
    have down := shown inside lost
    exact ⟨down, aboutToLeave_leaves ⟨inside, down⟩⟩

theorem shown_start : Shown task.start := by
  intro inside
  rw [Task.start, enter_inLoop] at inside
  contradiction

theorem shown_step (shown : Shown s) (raised : RaisedLive s action)
    (stepped : step task s action = some next) : Shown next := by
  intro inside lost
  rcases step_cases stepped with ⟨set, -, rfl⟩ | ⟨-, -, cleared⟩ | ⟨-, looping, rfl⟩ |
    ⟨-, turning, rfl⟩ | ⟨-, -, outside⟩
  · exact absurd lost (raised set)
  · exact cleared
  · exact shown (by rw [looping]; rfl) lost
  · exact shown (by rw [turning]; rfl) lost
  · rw [inside] at outside
    contradiction

theorem hidden_step (hidden : ¬ RaisedLive s action) (stepped : step task s action = some next) :
    ¬ Shown next := by
  simp only [RaisedLive, Classical.not_imp, not_not] at hidden
  obtain ⟨rfl, lost⟩ := hidden
  simp only [step, Option.ite_none_right_eq_some, Option.some.injEq] at stepped
  obtain ⟨-, rfl⟩ := stepped
  intro shown
  exact absurd (shown rfl lost) (by simp)

/-- A lost session is noticed throughout a run exactly if the run never raises the flag
over a session whose callback has already come. -/
theorem lost_session_noticed_iff {trace : List Action} {final : State}
    (ran : run (step task) task.start trace = some final) :
    Throughout (step task) (Noticed task) task.start trace ↔
      Along (step task) RaisedLive task.start trace := by
  apply throughout_iff_along Shown (Noticed task) RaisedLive ?_ ?_ ?_ shown_start ran
  · exact fun s shown => noticed_iff.mpr shown
  · exact fun s action next => shown_step
  · intro s action next _ hidden stepped noticed
    exact hidden_step hidden stepped (noticed_iff.mp noticed)

/-- A session of the source that is lost in the loop and replaced by another. -/
def promptTrace : List Action :=
  [.create true, .connect true, .subscribe, .setFlag, .testFlag, .connectionLost .current, .turn,
    .testFlag, .disconnect, .destroy, .create true]

theorem lost_session_noticed_prompt :
    Throughout (step mqttSourceReaderTask) (Noticed mqttSourceReaderTask)
      mqttSourceReaderTask.start promptTrace := by
  have ran : run (step mqttSourceReaderTask) mqttSourceReaderTask.start promptTrace =
      some ⟨.connecting, false, .absent, 1⟩ := rfl
  refine (lost_session_noticed_iff ran).mpr ?_
  simp [promptTrace, Along, RaisedLive, step, connectionLost, Task.start, enter, Task.connectNext,
    mqttSourceReaderTask, Position.running]

/-- The link drops between the connect and the store to the flag. -/
theorem early_loss_unnoticed :
    (∃ trace final, run (step mqttSourceReaderTask) mqttSourceReaderTask.start trace = some final ∧
      ¬ Noticed mqttSourceReaderTask final) ∧
    (∃ trace final, run (step mqttSinkTask) mqttSinkTask.start trace = some final ∧
      ¬ Noticed mqttSinkTask final) := by
  constructor
  · refine ⟨[.create true, .connect true, .connectionLost .current, .subscribe, .setFlag],
      ⟨.looping, true, .lost, 0⟩, rfl, fun noticed => ?_⟩
    exact absurd (noticed rfl rfl).1 (by simp)
  · refine ⟨[.check true, .check true, .create true, .connect true, .connectionLost .current, .setFlag],
      ⟨.looping, true, .lost, 0⟩, rfl, fun noticed => ?_⟩
    exact absurd (noticed rfl rfl).1 (by simp)

end XMeterLogger.PahoTasks
