import XMeterLogger.Error
import XMeterLogger.Lib.Channel
import XMeterLogger.Lib.Transition

/-! The four sinks fed by the queue: a connection loop around a loop that dequeues
and sends. They differ in the set-up calls of a connection and in where control
goes after a send or an empty queue; none of them keeps a message it failed to send. -/
namespace XMeterLogger.QueueSinks

open XMeterLogger.Transition

/-- What a set-up call does when it fails. -/
inductive OnFailure where
  | exit (status : Nat)
  | retry
  deriving DecidableEq, Repr

/-- The inner loop goes on, or the connection is made again. -/
inductive Next where
  | loop
  | reconnect
  deriving DecidableEq, Repr

structure Sink where
  /-- Exit status for a missing configuration or queue. -/
  configStatus : Nat
  queueStatus : Nat
  setUp : List OnFailure
  afterSend : (succeeded : Bool) → Next
  afterEmpty : Next
  /-- The inner loop is `while (_connected)`, which `connectionLost` ends. -/
  flagged : Bool

/-- `rd_kafka_conf_set`, `rd_kafka_new` and `rd_kafka_topic_new`, then
`rd_kafka_produce` until one fails. -/
def kafkaSinkTask : Sink where
  configStatus := egenerr
  queueStatus := equerr
  setUp := [.exit esvrerr, .exit esvrerr, .exit esvrerr]
  afterSend succeeded := if succeeded then .loop else .reconnect
  afterEmpty := .loop
  flagged := false

/-- `natsConnection_ConnectTo`, then `natsConnection_PublishString` until one fails. -/
def natsSinkTask : Sink where
  configStatus := egenerr
  queueStatus := equerr
  setUp := [.exit esvrerr]
  afterSend succeeded := if succeeded then .loop else .reconnect
  afterEmpty := .loop
  flagged := false

/-- `redisConnect` until one succeeds, then one dequeue and `redisCommand`: every
turn of the only loop makes a new connection. -/
def redisSinkTask : Sink where
  configStatus := egenerr
  queueStatus := equerr
  setUp := [.retry]
  afterSend _ := .reconnect
  afterEmpty := .reconnect
  flagged := false

/-- `MQTTClient_create` and `MQTTClient_connect`, then `MQTTClient_publishMessage`,
whose code nobody reads, until the flag drops. -/
def mqttSinkTask : Sink where
  configStatus := esyserr
  queueStatus := equerr
  setUp := [.exit esvrerr, .retry]
  afterSend _ := .loop
  afterEmpty := .loop
  flagged := true

inductive Position (Message : Type*) where
  | entry
  | connecting (remaining : List OnFailure)
  | looping
  | dequeuing
  | sending (message : Message)
  | exited (status : Nat)
  deriving DecidableEq, Repr

structure State (Message : Type*) where
  position : Position Message
  connected : Bool
  /-- Arrived, queued and dequeued messages. -/
  queue : Channel Message
  /-- Every send call with whether it succeeded, in order. -/
  sends : List (Message × Bool)

variable {Message : Type*}

def State.accepted (s : State Message) : List Message := (s.sends.filter Prod.snd).map Prod.fst

def start (content : List Message) : State Message := ⟨.entry, false, .holding content, []⟩

inductive Action (Message : Type*) where
  /-- The tests of the task's argument and of its queue for NULL. -/
  | check (config queue : Bool)
  | setUp (ok : Bool)
  | testLoop
  | dequeue (found : Bool)
  | send (succeeded : Bool)
  | arrive (message : Message)
  | connectionLost

section Machine

variable (sink : Sink)

def Sink.go : Next → Position Message
  | .loop => .looping
  | .reconnect => .connecting sink.setUp

def step (s : State Message) : Action Message → Option (State Message)
  | .check config queue =>
    match s.position with
    | .entry =>
      if config = false then some { s with position := .exited sink.configStatus }
      else if queue = false then some { s with position := .exited sink.queueStatus }
      else some { s with position := .connecting sink.setUp }
    | _ => none
  | .setUp ok =>
    match s.position with
    | .connecting [] => some { s with position := .looping, connected := sink.flagged || s.connected }
    | .connecting (failure :: rest) =>
      if ok then some { s with position := .connecting rest }
      else match failure with
        | .exit status => some { s with position := .exited status }
        | .retry => some { s with position := .connecting sink.setUp }
    | _ => none
  | .testLoop =>
    match s.position with
    | .looping =>
      if sink.flagged ∧ s.connected = false then some { s with position := .connecting sink.setUp }
      else some { s with position := .dequeuing }
    | _ => none
  | .dequeue found =>
    match s.position with
    | .dequeuing =>
      if found then
        match front : s.queue.pending with
        | [] => none
        | message :: rest =>
          some { s with position := .sending message, queue := s.queue.receive message rest front }
      else some { s with position := sink.go sink.afterEmpty }
    | _ => none
  | .send succeeded =>
    match s.position with
    | .sending message =>
      some { s with
        position := sink.go (sink.afterSend succeeded)
        sends := s.sends ++ [(message, succeeded)] }
    | _ => none
  | .arrive message => some { s with queue := s.queue.send message }
  | .connectionLost => if sink.flagged then some { s with connected := false } else none

end Machine

def arrivalsOf (trace : List (Action Message)) : List Message :=
  trace.filterMap fun
    | .arrive message => some message
    | _ => none

def Position.held : Position Message → List Message
  | .sending message => [message]
  | _ => []

/-- Every dequeued message has been sent once, but for the one in hand. -/
def SentOnce (s : State Message) : Prop :=
  s.sends.map Prod.fst ++ s.position.held = s.queue.received

theorem held_go (sink : Sink) (next : Next) : (sink.go next : Position Message).held = [] := by
  cases next <;> rfl

variable {sink : Sink} {s next : State Message} {action : Action Message}

theorem step_cases (stepped : step sink s action = some next) :
    -- control moves, or a message arrives
    (next.sends = s.sends ∧ next.position.held = s.position.held ∧
      ((next.queue = s.queue ∧ arrivalsOf [action] = []) ∨
        ∃ message, action = .arrive message ∧ next.queue = s.queue.send message)) ∨
    -- a message is taken in hand
    (∃ message rest front, action = .dequeue true ∧ s.position.held = [] ∧ next.sends = s.sends ∧
      next.position = .sending message ∧ next.queue = s.queue.receive message rest front) ∨
    -- the message in hand is sent, whatever comes of it
    (∃ message succeeded, action = .send succeeded ∧ s.position = .sending message ∧
      next.position.held = [] ∧ next.sends = s.sends ++ [(message, succeeded)] ∧
      next.queue = s.queue) := by
  cases action with
  | arrive message =>
    obtain rfl := Option.some.inj stepped
    exact .inl ⟨rfl, rfl, .inr ⟨message, rfl, rfl⟩⟩
  | connectionLost =>
    simp only [step, Option.ite_none_right_eq_some, Option.some.injEq] at stepped
    obtain ⟨-, rfl⟩ := stepped
    exact .inl ⟨rfl, rfl, .inl ⟨rfl, rfl⟩⟩
  | check config queue =>
    left
    simp only [step] at stepped
    split at stepped
    next entry =>
      split at stepped
      · obtain rfl := Option.some.inj stepped
        exact ⟨rfl, by rw [entry]; rfl, .inl ⟨rfl, rfl⟩⟩
      · split at stepped
        · obtain rfl := Option.some.inj stepped
          exact ⟨rfl, by rw [entry]; rfl, .inl ⟨rfl, rfl⟩⟩
        · obtain rfl := Option.some.inj stepped
          exact ⟨rfl, by rw [entry]; rfl, .inl ⟨rfl, rfl⟩⟩
    · contradiction
  | setUp ok =>
    left
    simp only [step] at stepped
    split at stepped
    next done =>
      obtain rfl := Option.some.inj stepped
      exact ⟨rfl, by rw [done]; rfl, .inl ⟨rfl, rfl⟩⟩
    next failure rest pending =>
      split at stepped
      · obtain rfl := Option.some.inj stepped
        exact ⟨rfl, by rw [pending]; rfl, .inl ⟨rfl, rfl⟩⟩
      · cases failure with
        | exit status =>
          obtain rfl := Option.some.inj stepped
          exact ⟨rfl, by rw [pending]; rfl, .inl ⟨rfl, rfl⟩⟩
        | retry =>
          obtain rfl := Option.some.inj stepped
          exact ⟨rfl, by rw [pending]; rfl, .inl ⟨rfl, rfl⟩⟩
    · contradiction
  | testLoop =>
    left
    simp only [step] at stepped
    split at stepped
    next looping =>
      split at stepped
      · obtain rfl := Option.some.inj stepped
        exact ⟨rfl, by rw [looping]; rfl, .inl ⟨rfl, rfl⟩⟩
      · obtain rfl := Option.some.inj stepped
        exact ⟨rfl, by rw [looping]; rfl, .inl ⟨rfl, rfl⟩⟩
    · contradiction
  | dequeue found =>
    simp only [step] at stepped
    split at stepped
    next dequeuing =>
      cases found with
      | false =>
        obtain rfl := Option.some.inj stepped
        exact .inl ⟨rfl, by rw [dequeuing, held_go]; rfl, .inl ⟨rfl, rfl⟩⟩
      | true =>
        simp only [↓reduceIte] at stepped
        split at stepped
        · contradiction
        next message rest front =>
          obtain rfl := Option.some.inj stepped
          exact .inr (.inl ⟨message, rest, front, rfl, by rw [dequeuing]; rfl, rfl, rfl, rfl⟩)
    · contradiction
  | send succeeded =>
    simp only [step] at stepped
    split at stepped
    next message sending =>
      obtain rfl := Option.some.inj stepped
      exact .inr (.inr ⟨message, succeeded, rfl, sending, held_go _ _, rfl, rfl⟩)
    · contradiction

theorem sentOnce_step (sentOnce : SentOnce s) (stepped : step sink s action = some next) :
    SentOnce next := by
  unfold SentOnce at sentOnce ⊢
  rcases step_cases stepped with ⟨sends, held, queue⟩ |
    ⟨message, rest, front, -, held, sends, position, queue⟩ |
    ⟨message, succeeded, -, position, held, sends, queue⟩
  · rw [sends, held, sentOnce]
    rcases queue with ⟨same, -⟩ | ⟨message, -, arrived⟩
    · rw [same]
    · rw [arrived]
      rfl
  · rw [held, List.append_nil] at sentOnce
    rw [sends, position, queue, sentOnce]
    rfl
  · rw [position] at sentOnce
    rw [sends, held, queue, ← sentOnce, List.map_append, List.append_nil]
    rfl

theorem sent_step (stepped : step sink s action = some next) :
    next.queue.sent = s.queue.sent ++ arrivalsOf [action] := by
  rcases step_cases stepped with ⟨-, -, queue⟩ | ⟨message, rest, front, rfl, -, -, -, queue⟩ |
    ⟨message, succeeded, rfl, -, -, -, queue⟩
  · rcases queue with ⟨same, none⟩ | ⟨message, rfl, arrived⟩
    · rw [same, none, List.append_nil]
    · rw [arrived]
      rfl
  · rw [queue]
    exact (List.append_nil _).symm
  · rw [queue]
    exact (List.append_nil _).symm

theorem sent_run {trace : List (Action Message)} {final : State Message}
    (ran : run (step sink) s trace = some final) :
    final.queue.sent = s.queue.sent ++ arrivalsOf trace := by
  induction trace generalizing s with
  | nil =>
    obtain rfl := Option.some.inj ran
    exact (List.append_nil _).symm
  | cons action rest ih =>
    obtain ⟨middle, stepped, continued⟩ := run_cons_iff.mp ran
    have joined : arrivalsOf (action :: rest) = arrivalsOf [action] ++ arrivalsOf rest :=
      List.filterMap_append (l := [action])
    rw [ih continued, sent_step stepped, joined, List.append_assoc]

theorem accepted_eq_iff (attempts : List (Message × Bool)) :
    (attempts.filter Prod.snd).map Prod.fst = attempts.map Prod.fst ↔
      ∀ attempt ∈ attempts, attempt.2 = true := by
  constructor
  · intro same
    have lengths := congrArg List.length same
    rw [List.length_map, List.length_map] at lengths
    exact List.length_filter_eq_length_iff.mp lengths
  · intro all
    rw [List.filter_eq_self.mpr all]

/-- Whenever a sink is about to dequeue, it has sent every dequeued message once, in
order. The backend has those whose one send succeeded, so all of them exactly if no
send failed: a failed send is not made again. -/
theorem one_send_for_each_dequeued {content : List Message} {trace : List (Action Message)}
    {final : State Message} (ran : run (step sink) (start content) trace = some final)
    (returned : final.position = .dequeuing) :
    final.sends.map Prod.fst = final.queue.received ∧
      final.queue.received ++ final.queue.pending = content ++ arrivalsOf trace ∧
      final.accepted.Sublist final.queue.received ∧
      (final.accepted = final.queue.received ↔ ∀ attempt ∈ final.sends, attempt.2 = true) := by
  have initial : SentOnce (start content) := rfl
  have sentOnce : SentOnce final :=
    run_invariant SentOnce (fun _ _ _ => sentOnce_step) initial ran
  have idle : final.position.held = [] := by
    rw [returned]
    rfl
  rw [SentOnce, idle, List.append_nil] at sentOnce
  refine ⟨sentOnce, ?_, ?_, ?_⟩
  · rw [final.queue.balance, sent_run ran]
    rfl
  · rw [← sentOnce]
    exact List.filter_sublist.map Prod.fst
  · rw [← sentOnce]
    exact accepted_eq_iff final.sends

def connect (sink : Sink) : List (Action Message) :=
  sink.setUp.map (fun _ => .setUp true) ++ [.setUp true, .testLoop]

/-- The first message of the queue fails to be sent; `again` leads back to the dequeue. -/
def failingTrace (sink : Sink) (again : List (Action Nat)) : List (Action Nat) :=
  .check true true :: connect sink ++ [.dequeue true, .send false] ++ again

/-- The first message fails to be sent, the second is sent. -/
theorem one_send_for_each_dequeued_kafka :
    ∃ trace final, run (step kafkaSinkTask) (start [7, 8]) trace = some final ∧
      final.sends = [(7, false), (8, true)] ∧ final.queue.received = [7, 8] ∧
      final.queue.received ++ final.queue.pending = [7, 8] ++ arrivalsOf trace ∧
      final.accepted.Sublist final.queue.received ∧
      (final.accepted = final.queue.received ↔ ∀ attempt ∈ final.sends, attempt.2 = true) := by
  let trace := failingTrace kafkaSinkTask (connect kafkaSinkTask) ++
    [.dequeue true, .send true, .testLoop]
  have ran : run (step kafkaSinkTask) (start [7, 8]) trace =
      some ⟨.dequeuing, false, ⟨[7, 8], [], [7, 8], rfl⟩, [(7, false), (8, true)]⟩ := rfl
  obtain ⟨order, balance, ordered, complete⟩ := one_send_for_each_dequeued ran rfl
  exact ⟨trace, _, ran, rfl, order.symm, balance, ordered, complete⟩

/-- At every dequeue point the backend has all that was dequeued. -/
def LosesNothing (sink : Sink) : Prop :=
  ∀ (content : List Nat) trace final, run (step sink) (start content) trace = some final →
    final.position = .dequeuing → final.accepted = final.queue.received

/-- In each of the four sinks a failed send loses its message. -/
theorem failed_send_loses_message :
    ¬ LosesNothing kafkaSinkTask ∧ ¬ LosesNothing natsSinkTask ∧ ¬ LosesNothing redisSinkTask ∧
      ¬ LosesNothing mqttSinkTask := by
  refine ⟨fun law => ?_, fun law => ?_, fun law => ?_, fun law => ?_⟩
  · exact absurd (law [7] (failingTrace kafkaSinkTask (connect kafkaSinkTask)) _ rfl rfl) (by decide)
  · exact absurd (law [7] (failingTrace natsSinkTask (connect natsSinkTask)) _ rfl rfl) (by decide)
  · exact absurd (law [7] (failingTrace redisSinkTask (connect redisSinkTask)) _ rfl rfl) (by decide)
  · exact absurd (law [7] (failingTrace mqttSinkTask [.testLoop]) _ rfl rfl) (by decide)

end XMeterLogger.QueueSinks
