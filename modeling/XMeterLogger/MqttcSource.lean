import Mathlib.Data.List.Infix
import XMeterLogger.MqttcSink

/-! The source of the NNG library. Unlike the sink it never leaves its inner loop: it opens
one socket and subscribes once, whatever becomes of the connection. -/
namespace XMeterLogger.MqttcSource

open XMeterLogger.Transition
open XMeterLogger.MqttcSink (Socket)

/-- The next call or test; one of them has a dialer or none, one a payload or none. -/
inductive Position where
  | opening
  | creating
  | starting (created : Bool)
  | waiting
  | subscribing
  | receiving
  | holding (payload : Bool)
  deriving DecidableEq, Repr

structure State where
  position : Position
  connected : Bool
  sockets : List Socket
  sock : Option Nat
  /-- Calls of `nng_mqtt_subscribe_async` so far. -/
  requests : Nat
  /-- Messages the socket has received, in order, with a payload or without. -/
  queue : List Bool
  /-- The same with those that were taken. -/
  heard : List Bool
  /-- Messages taken from the socket and not freed. -/
  live : Nat
  deriving DecidableEq, Repr

def start : State := ⟨.opening, false, [], none, 0, [], [], 0⟩

inductive Action where
  | nngMqttClientOpen (ok : Bool)
  | nngDialerCreate (ok : Bool)
  | nngDialerStart (ok : Bool)
  | testWaiting
  | nngMqttSubscribeAsync
  | nngRecvmsg (ok : Bool)
  /-- The tests of the message, and `nng_msg_free` or `continue`. -/
  | handle
  | connectCb (socket : Nat)
  | disconnectCb (socket : Nat)
  | suback
  | deliver (payload : Bool)
  deriving DecidableEq, Repr

/-- A failure in `client_connect` is logged and the next call made all the same. A message
without payload is left behind. -/
def step (s : State) : Action → Option State
  | .nngMqttClientOpen ok =>
    if s.position = .opening then
      if ok then
        some { s with
          position := .creating, sockets := s.sockets ++ [.undialled], sock := some s.sockets.length }
      else some { s with position := .creating, sock := none }
    else none
  | .nngDialerCreate ok =>
    if s.position = .creating then some { s with position := .starting ok } else none
  | .nngDialerStart ok =>
    match s.position, s.sock with
    | .starting true, some i =>
      some { s with
        position := .waiting, sockets := if ok then s.sockets.modify i Socket.dial else s.sockets }
    | .starting _, _ => some { s with position := .waiting }
    | _, _ => none
  | .testWaiting =>
    if s.position = .waiting then
      some { s with position := if s.connected then .subscribing else .waiting }
    else none
  | .nngMqttSubscribeAsync =>
    if s.position = .subscribing then some { s with position := .receiving, requests := s.requests + 1 }
    else none
  | .nngRecvmsg ok =>
    if s.position = .receiving then
      if ok then
        match s.queue with
        | [] => none
        | payload :: rest =>
          some { s with position := .holding payload, queue := rest, live := s.live + 1 }
      else some s
    else none
  | .handle =>
    match s.position with
    | .holding payload =>
      some { s with position := .receiving, live := if payload then s.live - 1 else s.live }
    | _ => none
  | .connectCb i =>
    if s.sockets[i]? = some .down then
      some { s with connected := true, sockets := s.sockets.set i .live }
    else none
  | .disconnectCb i =>
    if s.sockets[i]? = some .live then
      some { s with connected := false, sockets := s.sockets.set i .down }
    else none
  | .suback => some s
  | .deliver payload => some { s with queue := s.queue ++ [payload], heard := s.heard ++ [payload] }

def Position.opened : Position → Bool
  | .opening => false
  | _ => true

def Position.asked : Position → Bool
  | .receiving | .holding _ => true
  | _ => false

def Position.owed : Position → Nat
  | .holding true => 1
  | _ => 0

/-- One socket at most, described by the flag; one subscription, asked for before the inner
loop; and every message without payload that was taken is never freed. -/
structure OneSession (s : State) : Prop where
  sockets : s.sockets = [] ∧ s.sock = none ∧ s.connected = false ∨
    s.sock = some 0 ∧ ∃ socket, s.sockets = [socket] ∧ (s.connected = true ↔ socket = .live)
  once : s.position.opened = false → s.sockets = []
  requests : s.requests = if s.position.asked then 1 else 0
  messages : ∃ taken, s.heard = taken ++ s.queue ∧ s.live = taken.count false + s.position.owed

variable {s next : State} {action : Action}

theorem oneSession_start : OneSession start where
  sockets := .inl ⟨rfl, rfl, rfl⟩
  once := fun _ => rfl
  requests := rfl
  messages := ⟨[], rfl, rfl⟩

theorem oneSession_move (one : OneSession s) (position : Position)
    (opened : position.opened = true) (asked : position.asked = s.position.asked)
    (owed : position.owed = s.position.owed) : OneSession { s with position := position } where
  sockets := one.sockets
  once := by simp [opened]
  requests := by
    rw [asked]
    exact one.requests
  messages := by
    rw [owed]
    exact one.messages

theorem oneSession_callback (one : OneSession s) {i : Nat} {was socket : Socket}
    (found : s.sockets[i]? = some was) (connected : Bool)
    (describes : connected = true ↔ socket = .live) :
    OneSession { s with connected := connected, sockets := s.sockets.set i socket } := by
  refine ⟨?_, fun unopened => by simp [one.once unopened] at found, one.requests, one.messages⟩
  rcases one.sockets with ⟨none, -⟩ | ⟨sock, only, sockets, -⟩
  · simp [none] at found
  · rw [sockets] at found
    obtain ⟨bound, -⟩ := List.getElem?_eq_some_iff.mp found
    obtain rfl : i = 0 := by simpa using bound
    exact .inr ⟨sock, socket, by simp [sockets], describes⟩

/-- The first call opens the only socket, or none. -/
theorem oneSession_open (one : OneSession s) (position : s.position = .opening) {ok : Bool}
    (opened : (if ok then
        some { s with
          position := .creating, sockets := s.sockets ++ [.undialled], sock := some s.sockets.length }
      else some { s with position := .creating, sock := none }) = some next) : OneSession next := by
  have none := one.once (by simp [position, Position.opened])
  have flag : s.connected = false := by
    rcases one.sockets with ⟨-, -, flag⟩ | ⟨-, only, some, -⟩
    · exact flag
    · simp [none] at some
  have moved := oneSession_move one .creating rfl (by simp [position, Position.asked])
    (by simp [position, Position.owed])
  cases ok with
  | true =>
    obtain rfl := Option.some.inj opened
    refine ⟨.inr ⟨by simp [none], .undialled, by simp [none], by simp [flag]⟩, by simp [Position.opened],
      moved.requests, moved.messages⟩
  | false =>
    obtain rfl := Option.some.inj opened
    exact ⟨.inl ⟨none, rfl, flag⟩, by simp [Position.opened], moved.requests, moved.messages⟩

/-- Starting a dialer makes no connection. -/
theorem oneSession_dial (one : OneSession s) {i : Nat} (position : s.position = .starting true)
    (sock : s.sock = some i) (ok : Bool) :
    OneSession { s with
      position := .waiting, sockets := if ok then s.sockets.modify i Socket.dial else s.sockets } := by
  have moved := oneSession_move one .waiting rfl (by simp [position, Position.asked])
    (by simp [position, Position.owed])
  refine ⟨?_, by simp [Position.opened], moved.requests, moved.messages⟩
  rcases one.sockets with ⟨-, none, -⟩ | ⟨first, only, sockets, flag⟩
  · simp [none] at sock
  obtain rfl := Option.some.inj (first.symm.trans sock)
  refine .inr ⟨first, if ok then only.dial else only, by cases ok <;> simp [sockets], ?_⟩
  rw [flag]
  cases ok <;> cases only <;> simp [Socket.dial]

theorem oneSession_step (one : OneSession s) (stepped : step s action = some next) :
    OneSession next := by
  have requests := one.requests
  cases action with
  | nngMqttClientOpen ok =>
    simp only [step, Option.ite_none_right_eq_some] at stepped
    obtain ⟨position, opened⟩ := stepped
    exact oneSession_open one position opened
  | nngDialerCreate ok =>
    simp only [step, Option.ite_none_right_eq_some] at stepped
    obtain ⟨position, same⟩ := stepped
    obtain rfl := Option.some.inj same
    exact oneSession_move one _ rfl (by simp [position, Position.asked]) (by simp [position, Position.owed])
  | nngDialerStart ok =>
    simp only [step] at stepped
    split at stepped
    next i position sock =>
      obtain rfl := Option.some.inj stepped
      exact oneSession_dial one position sock ok
    next created position _ =>
      obtain rfl := Option.some.inj stepped
      exact oneSession_move one _ rfl (by simp [position, Position.asked]) (by simp [position, Position.owed])
    next => contradiction
  | testWaiting =>
    simp only [step, Option.ite_none_right_eq_some] at stepped
    obtain ⟨position, same⟩ := stepped
    obtain rfl := Option.some.inj same
    split
    · exact oneSession_move one .subscribing rfl (by simp [position, Position.asked])
        (by simp [position, Position.owed])
    · exact oneSession_move one .waiting rfl (by simp [position, Position.asked])
        (by simp [position, Position.owed])
  | nngMqttSubscribeAsync =>
    simp only [step, Option.ite_none_right_eq_some] at stepped
    obtain ⟨position, same⟩ := stepped
    obtain rfl := Option.some.inj same
    have none : s.requests = 0 := by simpa [position, Position.asked] using requests
    refine ⟨one.sockets, by simp [Position.opened], by simp [none, Position.asked], ?_⟩
    simpa [position, Position.owed] using one.messages
  | nngRecvmsg ok =>
    simp only [step, Option.ite_none_right_eq_some] at stepped
    obtain ⟨position, received⟩ := stepped
    cases ok with
    | false =>
      obtain rfl := Option.some.inj received
      exact one
    | true =>
      simp only [if_true] at received
      split at received
      · contradiction
      next payload rest front =>
        obtain rfl := Option.some.inj received
        obtain ⟨taken, heard, live⟩ := one.messages
        refine ⟨one.sockets, by simp [Position.opened], ?_, taken ++ [payload], ?_, ?_⟩
        · simpa [position, Position.asked] using requests
        · simp [heard, front]
        · cases payload <;> simp [live, position, Position.owed]
  | handle =>
    simp only [step] at stepped
    split at stepped
    next payload position =>
      obtain rfl := Option.some.inj stepped
      obtain ⟨taken, heard, live⟩ := one.messages
      refine ⟨one.sockets, by simp [Position.opened], ?_, taken, heard, ?_⟩
      · simpa [position, Position.asked] using requests
      · cases payload <;> simp [live, position, Position.owed]
    next => contradiction
  | connectCb i =>
    simp only [step, Option.ite_none_right_eq_some] at stepped
    obtain ⟨down, same⟩ := stepped
    obtain rfl := Option.some.inj same
    exact oneSession_callback one down true (by simp)
  | disconnectCb i =>
    simp only [step, Option.ite_none_right_eq_some] at stepped
    obtain ⟨live, same⟩ := stepped
    obtain rfl := Option.some.inj same
    exact oneSession_callback one live false (by simp)
  | suback =>
    obtain rfl := Option.some.inj stepped
    exact one
  | deliver payload =>
    obtain rfl := Option.some.inj stepped
    obtain ⟨taken, heard, live⟩ := one.messages
    exact ⟨one.sockets, one.once, requests, taken, by simp [heard], live⟩

/-- Two messages, the first without payload, and a connection that comes up again. -/
def redialTrace : List Action :=
  [.nngMqttClientOpen true, .nngDialerCreate true, .nngDialerStart true, .testWaiting, .connectCb 0,
    .testWaiting, .nngMqttSubscribeAsync, .suback, .deliver false, .deliver true, .nngRecvmsg true,
    .handle, .disconnectCb 0, .connectCb 0, .nngRecvmsg true, .handle]

section Broker

/-- The connection carries a subscription, from the SUBACK until it drops. -/
def carries (held : Bool) : Action → Bool
  | .suback => true
  | .disconnectCb _ => false
  | _ => held

end Broker

end XMeterLogger.MqttcSource
