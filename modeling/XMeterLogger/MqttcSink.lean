import XMeterLogger.Error
import XMeterLogger.Lib.Transition

/-! The sink of the NNG library. Each round of its loop opens a socket and starts a
dialer on it, and waits for the flag that the callbacks of every socket write. No round
closes its socket, and a started dialer goes on connecting it again. -/
namespace XMeterLogger.MqttcSink

open XMeterLogger.Transition

/-- An open socket: before its dialer is started, then without or with a connection. -/
inductive Socket where
  | undialled
  | down
  | live
  deriving DecidableEq, Repr

/-- A dialer that is started already is left as it is. -/
def Socket.dial : Socket → Socket
  | .undialled => .down
  | socket => socket

/-- The next call of `client_connect`, or the test of one of the two loops that wait. -/
inductive Position where
  | entry
  | opening
  | creating
  | starting (created : Bool)
  | waiting
  | serving
  | exited (status : Nat)
  deriving DecidableEq, Repr

structure State where
  position : Position
  connected : Bool
  sockets : List Socket
  /-- The variable `sock`, with no value after an open that failed. -/
  sock : Option Nat
  deriving DecidableEq, Repr

def start : State := ⟨.entry, false, [], none⟩

/-- A change of a connection and the callback raised at it are one step. -/
inductive Action where
  | checkConfig (ok : Bool)
  | nngMqttClientOpen (ok : Bool)
  | nngDialerCreate (ok : Bool)
  | nngDialerStart (ok : Bool)
  | testWaiting
  | testServing
  | connectCb (socket : Nat)
  | disconnectCb (socket : Nat)
  deriving DecidableEq, Repr

/-- A failure in `client_connect` is logged and the next call made all the same. -/
def step (s : State) : Action → Option State
  | .checkConfig ok =>
    if s.position = .entry then
      some { s with position := if ok then .opening else .exited esyserr }
    else none
  | .nngMqttClientOpen ok =>
    if s.position = .opening then
      if ok then
        some { s with
          position := .creating, sockets := s.sockets ++ [.undialled], sock := some s.sockets.length }
      else some { s with position := .creating, sock := none }
    else none
  | .nngDialerCreate ok =>
    if s.position = .creating then some { s with position := .starting ok } else none
  | .nngDialerStart ok =>
    match s.position, s.sock with
    | .starting true, some i =>
      some { s with
        position := .waiting, sockets := if ok then s.sockets.modify i Socket.dial else s.sockets }
    | .starting _, _ => some { s with position := .waiting }
    | _, _ => none
  | .testWaiting =>
    if s.position = .waiting then
      some { s with position := if s.connected then .serving else .waiting }
    else none
  | .testServing =>
    if s.position = .serving then
      some { s with position := if s.connected then .serving else .opening }
    else none
  | .connectCb i =>
    if s.sockets[i]? = some .down then
      some { s with connected := true, sockets := s.sockets.set i .live }
    else none
  | .disconnectCb i =>
    if s.sockets[i]? = some .live then
      some { s with connected := false, sockets := s.sockets.set i .down }
    else none

/-- The socket of the latest `client_connect` has a connection. -/
def State.LatestLive (s : State) : Prop := ∃ i, s.sock = some i ∧ s.sockets[i]? = some .live

structure OneSession (s : State) : Prop where
  atMostOne : s.sockets.length ≤ 1
  describes : s.connected = true → s.LatestLive

/-- A socket is opened as the first, an open fails with the flag down, and a
connection comes up on the latest socket. -/
def Tidy (s : State) : Action → Prop
  | .nngMqttClientOpen true => s.sockets = []
  | .nngMqttClientOpen false => s.connected = false
  | .connectCb i => s.sock = some i
  | _ => True

variable {s next : State} {action : Action}

theorem step_cases (stepped : step s action = some next) :
    (action = .nngMqttClientOpen true ∧ next.connected = s.connected ∧
      next.sockets = s.sockets ++ [.undialled] ∧ next.sock = some s.sockets.length) ∨
    (action = .nngMqttClientOpen false ∧ next.connected = s.connected ∧
      next.sockets = s.sockets ∧ next.sock = none) ∨
    (∃ i, action = .connectCb i ∧ s.sockets[i]? = some .down ∧
      next = { s with connected := true, sockets := s.sockets.set i .live }) ∨
    (∃ i, action = .disconnectCb i ∧ s.sockets[i]? = some .live ∧
      next = { s with connected := false, sockets := s.sockets.set i .down }) ∨
    ((∀ ok, action ≠ .nngMqttClientOpen ok) ∧ (∀ i, action ≠ .connectCb i) ∧
      next.connected = s.connected ∧ next.sock = s.sock ∧
      (next.sockets = s.sockets ∨ ∃ i, next.sockets = s.sockets.modify i Socket.dial)) := by
  cases action with
  | nngMqttClientOpen ok =>
    simp only [step, Option.ite_none_right_eq_some] at stepped
    obtain ⟨-, opened⟩ := stepped
    cases ok with
    | true =>
      obtain rfl := Option.some.inj opened
      exact .inl ⟨rfl, rfl, rfl, rfl⟩
    | false =>
      obtain rfl := Option.some.inj opened
      exact .inr (.inl ⟨rfl, rfl, rfl, rfl⟩)
  | connectCb i =>
    simp only [step, Option.ite_none_right_eq_some, Option.some.injEq] at stepped
    obtain ⟨down, rfl⟩ := stepped
    exact .inr (.inr (.inl ⟨i, rfl, down, rfl⟩))
  | disconnectCb i =>
    simp only [step, Option.ite_none_right_eq_some, Option.some.injEq] at stepped
    obtain ⟨live, rfl⟩ := stepped
    exact .inr (.inr (.inr (.inl ⟨i, rfl, live, rfl⟩)))
  | nngDialerStart ok =>
    right; right; right; right
    simp only [step] at stepped
    split at stepped
    next i starting returned =>
      obtain rfl := Option.some.inj stepped
      refine ⟨by simp, by simp, rfl, rfl, ?_⟩
      cases ok with
      | true => exact .inr ⟨i, rfl⟩
      | false => exact .inl rfl
    next =>
      obtain rfl := Option.some.inj stepped
      exact ⟨by simp, by simp, rfl, rfl, .inl rfl⟩
    · contradiction
  | checkConfig ok | nngDialerCreate ok | testWaiting | testServing =>
    right; right; right; right
    simp only [step, Option.ite_none_right_eq_some, Option.some.injEq] at stepped
    obtain ⟨-, rfl⟩ := stepped
    exact ⟨by simp, by simp, rfl, rfl, .inl rfl⟩

theorem dialled_length
    (dialled : next.sockets = s.sockets ∨ ∃ i, next.sockets = s.sockets.modify i Socket.dial) :
    next.sockets.length = s.sockets.length := by
  rcases dialled with same | ⟨j, dialled⟩
  · rw [same]
  · rw [dialled, List.length_modify]

theorem dialled_latestLive
    (dialled : next.sockets = s.sockets ∨ ∃ i, next.sockets = s.sockets.modify i Socket.dial)
    (sock : next.sock = s.sock) (latest : s.LatestLive) : next.LatestLive := by
  obtain ⟨i, returned, live⟩ := latest
  refine ⟨i, sock.trans returned, ?_⟩
  rcases dialled with same | ⟨j, dialled⟩
  · rw [same]
    exact live
  · rw [dialled, List.getElem?_modify, live]
    split <;> rfl

theorem oneSession_start : OneSession start := ⟨by simp [start], by simp [start]⟩

theorem oneSession_step (one : OneSession s) (tidy : Tidy s action)
    (stepped : step s action = some next) : OneSession next := by
  rcases step_cases stepped with ⟨rfl, flag, sockets, -⟩ | ⟨rfl, flag, sockets, -⟩ |
    ⟨i, rfl, down, rfl⟩ | ⟨i, rfl, -, rfl⟩ | ⟨-, -, flag, sock, dialled⟩
  · have first : s.sockets = [] := tidy
    refine ⟨by simp [sockets, first], fun raised => ?_⟩
    obtain ⟨i, -, live⟩ := one.describes (flag ▸ raised)
    simp [first] at live
  · have lowered : s.connected = false := tidy
    refine ⟨by rw [sockets]; exact one.atMostOne, fun raised => ?_⟩
    rw [flag, lowered] at raised
    contradiction
  · obtain ⟨bound, -⟩ := List.getElem?_eq_some_iff.mp down
    refine ⟨by simp [one.atMostOne], fun _ => ⟨i, tidy, ?_⟩⟩
    simp [bound]
  · refine ⟨by simp [one.atMostOne], fun raised => ?_⟩
    contradiction
  · refine ⟨by rw [dialled_length dialled]; exact one.atMostOne, fun raised => ?_⟩
    exact dialled_latestLive dialled sock (one.describes (flag ▸ raised))

theorem index_unique {sockets : List Socket} {i j : Nat} {a b : Socket}
    (atMostOne : sockets.length ≤ 1) (first : sockets[i]? = some a)
    (second : sockets[j]? = some b) : i = j := by
  obtain ⟨hi, -⟩ := List.getElem?_eq_some_iff.mp first
  obtain ⟨hj, -⟩ := List.getElem?_eq_some_iff.mp second
  omega

theorem untidy_step (untidy : ¬ Tidy s action) (stepped : step s action = some next) :
    ¬ OneSession next := by
  intro one
  rcases step_cases stepped with ⟨rfl, -, sockets, -⟩ | ⟨rfl, flag, -, sock⟩ |
    ⟨i, rfl, down, rfl⟩ | ⟨i, rfl, -, rfl⟩ | ⟨notOpen, notConnect, -⟩
  · have atMostOne := one.atMostOne
    rw [sockets, List.length_append, List.length_singleton] at atMostOne
    exact untidy (List.length_eq_zero_iff.mp (by omega))
  · have raised : s.connected = true := by simpa [Tidy] using untidy
    obtain ⟨i, latest, -⟩ := one.describes (flag.trans raised)
    rw [sock] at latest
    contradiction
  · obtain ⟨j, latest, live⟩ := one.describes rfl
    obtain ⟨bound, -⟩ := List.getElem?_eq_some_iff.mp down
    have raised : (s.sockets.set i .live)[i]? = some .live := by simp [bound]
    obtain rfl := index_unique one.atMostOne raised live
    exact untidy latest
  · exact untidy trivial
  · cases action with
    | nngMqttClientOpen ok => exact notOpen ok rfl
    | connectCb i => exact notConnect i rfl
    | _ => exact untidy trivial

/-- The sink keeps one session that its flag describes throughout a run exactly if no
socket is opened after the first and no other than the latest comes up. -/
theorem keeps_one_session_iff {trace : List Action} {final : State}
    (ran : run step start trace = some final) :
    Throughout step OneSession start trace ↔ Along step Tidy start trace := by
  apply throughout_iff_along OneSession OneSession Tidy ?_ ?_ ?_ oneSession_start ran
  · exact fun s one => one
  · exact fun s action next => oneSession_step
  · exact fun s action next _ => untidy_step

/-- A connection that drops and comes up again before the task looks. -/
def redialTrace : List Action :=
  [.checkConfig true, .nngMqttClientOpen true, .nngDialerCreate true, .nngDialerStart true,
    .testWaiting, .connectCb 0, .testWaiting, .testServing, .disconnectCb 0, .connectCb 0,
    .testServing]

theorem keeps_one_session_redial : Throughout step OneSession start redialTrace := by
  have ran : run step start redialTrace = some ⟨.serving, true, [.live], some 0⟩ := rfl
  refine (keeps_one_session_iff ran).mpr ?_
  simp [redialTrace, Along, Tidy, step, start, Socket.dial]

/-- The task notices the drop and opens a second socket, and the first, still open, raises
the flag over it. -/
theorem redialled_twice :
    ∃ trace final, run step start trace = some final ∧ ¬ final.sockets.length ≤ 1 ∧
      final.connected = true ∧ ¬ final.LatestLive := by
  refine ⟨[.checkConfig true, .nngMqttClientOpen true, .nngDialerCreate true, .nngDialerStart true,
    .connectCb 0, .testWaiting, .disconnectCb 0, .testServing, .nngMqttClientOpen true,
    .nngDialerCreate true, .nngDialerStart true, .connectCb 0],
    ⟨.waiting, true, [.live, .down], some 1⟩, rfl, by simp, rfl, ?_⟩
  rintro ⟨i, latest, live⟩
  obtain rfl := Option.some.inj latest
  contradiction

end XMeterLogger.MqttcSink
