import XMeterLogger.DataForwarder
import XMeterLogger.Lib.Simulation
import XMeterLogger.MosqSink

/-! The MQTT bridge: `mosq_source_reader_task` with the callbacks its loop makes, the bus,
and the sink thread, in one process. An exit of either task ends the other. -/
namespace XMeterLogger.MosqBridge

open XMeterLogger.DataForwarder (Stage)
open XMeterLogger.SBus (Body Reader WriteOutcome ReadOutcome)
open XMeterLogger.Heap XMeterLogger.Message XMeterLogger.MosqForward XMeterLogger.Transition

inductive SourcePosition where
  | entry
  | clientMade
  /-- In `mosquitto_loop`, or between two of its calls. -/
  | looping
  deriving DecidableEq, Repr

structure State where
  stage : Stage
  exited : Option Nat
  source : SourcePosition
  sink : MosqSink.State
  /-- Every message handed to `on_message`, in order. -/
  arrived : List (Bytes × Bytes)

def initial : State := ⟨.start, none, .entry, MosqSink.initial, []⟩

inductive Action where
  | initBus
  | sourceRun
  | createBusReader
  | sinkRun
  | busFails
  | mosquittoNew (ok : Bool)
  | mosquittoConnect (ok : Bool)
  | onConnect (rc : Int)
  | onDisconnect (rc : Int)
  | onMessage (topic payload : Bytes) (heap : Option Memory) (outcome : WriteOutcome)
  | sink (action : MosqSink.Action)

section Machine

-- Messages the queue of the sink's reader has room for.
variable (capacity : Nat)

/-- `bus_write`, whose result `on_message` ignores. -/
def busWrite (s : State) (message : Bytes) (outcome : WriteOutcome) : Option State :=
  if outcome = .sent ∧ s.stage.connected = true ∧ s.sink.queue.length < capacity then
    (MosqSink.step s.sink (.arrive message)).map fun sink => { s with sink }
  else some s

/-- `create_message` exits for want of memory. -/
def onMessage (s : State) (topic payload : Bytes) (heap : Option Memory) (outcome : WriteOutcome) :
    Option State :=
  let s := { s with arrived := s.arrived ++ [(topic, payload)] }
  match MosqForward.onMessage heap topic payload with
  | none => some { s with exited := some esyserr }
  | some message => busWrite capacity s message outcome

def sinkExit : MosqSink.Position → Option Nat
  | .exited status => some status
  | _ => none

def step (s : State) (action : Action) : Option State :=
  if s.exited.isSome then none
  else match action with
    | .initBus => if s.stage = .start then some { s with stage := .busOpen } else none
    | .sourceRun => if s.stage = .busOpen then some { s with stage := .sourceRunning } else none
    | .createBusReader =>
      if s.stage = .sourceRunning then some { s with stage := .readerConnected } else none
    | .sinkRun => if s.stage = .readerConnected then some { s with stage := .sinkRunning } else none
    | .busFails => some { s with exited := some equerr }
    | .mosquittoNew ok =>
      if s.stage.sourceThread = true ∧ s.source = .entry then
        if ok then some { s with source := .clientMade } else some { s with exited := some esyserr }
      else none
    | .mosquittoConnect ok =>
      if s.source = .clientMade then
        if ok then some { s with source := .looping } else some { s with exited := some esvrerr }
      else none
    | .onConnect rc =>
      if s.source = .looping then
        if rc = 0 then some s else some { s with exited := some esvrerr }
      else none
    | .onDisconnect _ => if s.source = .looping then some s else none
    | .onMessage topic payload heap outcome =>
      if s.source = .looping then onMessage capacity s topic payload heap outcome else none
    | .sink (.arrive _) => none
    | .sink action =>
      if s.stage = .sinkRunning then
        (MosqSink.step s.sink action).map fun sink => { s with sink, exited := sinkExit sink.position }
      else none

/-- The steps that carry every message on: the record is built, finds the sink's reader
connected with room, and is read with memory to spare. -/
def Kept (s : State) : Action → Prop
  | .onMessage _ _ heap outcome =>
    heap ≠ none ∧ outcome = .sent ∧ s.stage.connected = true ∧ s.sink.queue.length < capacity
  | .sink (.busRead .mallocFails) => False
  | _ => True

end Machine

/-- A message that MQTT delivers and `struct Message` has room for. -/
def Action.Carried : Action → Prop
  | .onMessage topic payload _ _ => (0 : UInt8) ∉ topic ∧ payload.length ≤ 2048
  | _ => True

/-- What the sink is to publish for a message of the source. -/
def relay (message : Bytes × Bytes) : Publish :=
  ⟨message.1.take 128, message.2.length, message.2⟩

def held : MosqSink.Position → List Bytes
  | .holding data => [data]
  | _ => []

/-- The bridge as a channel from `on_message` to `mosquitto_publish`. -/
structure Carries (s : State) (c : LossyChannel Publish) : Prop where
  sent : s.arrived.map relay = c.sent
  pending : (held s.sink.position ++ s.sink.queue).map mosqSinkPublish = c.pending.map some
  received : s.sink.published = c.received

variable {capacity : Nat} {s next : State} {action : Action} {c : LossyChannel Publish}

theorem sink_cases {sink after : MosqSink.State} {action : MosqSink.Action}
    (notArrive : ∀ message, action ≠ .arrive message)
    (sizes : ∀ data ∈ sink.queue, data.length = sizeofMessage)
    (stepped : MosqSink.step sink action = some after) :
    (after.published = sink.published ∧ action ≠ .busRead .mallocFails ∧
      held after.position ++ after.queue = held sink.position ++ sink.queue) ∨
    (∃ message, action = .busRead .mallocFails ∧ after.published = sink.published ∧
      held sink.position ++ sink.queue = message :: (held after.position ++ after.queue)) ∨
    ∃ data, action = .publish ∧
      after.published = sink.published ++ (mosqSinkPublish data).toList ∧
      held sink.position ++ sink.queue = data :: (held after.position ++ after.queue) := by
  cases action with
  | arrive message => exact absurd rfl (notArrive message)
  | callback event =>
    rw [MosqSink.callback_step stepped]
    exact .inl ⟨rfl, by simp, rfl⟩
  | checkConfig ok | mosquittoNew ok | mosquittoConnect ok | loopStart ok =>
    simp only [MosqSink.step, Option.ite_none_right_eq_some, Option.some.injEq] at stepped
    obtain ⟨position, rfl⟩ := stepped
    cases ok <;> simp [MosqSink.proceed, position, held]
  | clearFlag =>
    simp only [MosqSink.step, Option.ite_none_right_eq_some, Option.some.injEq] at stepped
    obtain ⟨position, rfl⟩ := stepped
    simp [position, held]
  | testFlag =>
    simp only [MosqSink.step, Option.ite_none_right_eq_some, Option.some.injEq] at stepped
    obtain ⟨position, rfl⟩ := stepped
    split <;> simp [position, held]
  | busRead outcome =>
    simp only [MosqSink.step, Option.ite_none_right_eq_some] at stepped
    obtain ⟨position, read⟩ := stepped
    rcases MosqSink.busRead_cases read with
      ⟨rfl, rfl⟩ | ⟨data, rest, front, ⟨rfl, rfl⟩ | ⟨rfl, -, rfl⟩ | ⟨rfl, negative, rfl⟩⟩
    · exact .inl ⟨rfl, by simp, rfl⟩
    · exact .inr (.inl ⟨data, rfl, rfl, by simp [position, held, front]⟩)
    · exact .inl ⟨rfl, by simp, by simp [position, held, front]⟩
    · have whole : 0 ≤ SBus.lengthOf data.length := by
        rw [sizes data (by simp [front])]
        decide
      exact absurd whole negative
  | publish =>
    simp only [MosqSink.step] at stepped
    split at stepped
    next data position =>
      obtain rfl := Option.some.inj stepped
      exact .inr (.inr ⟨data, rfl, rfl, by simp [position, held]⟩)
    · contradiction

/-- Every message for the sink is one that it publishes, and so a whole record. -/
theorem Carries.sizes (carries : Carries s c) : ∀ data ∈ s.sink.queue, data.length = sizeofMessage := by
  intro data member
  have listed : mosqSinkPublish data ∈ c.pending.map some :=
    carries.pending ▸ List.mem_map_of_mem (List.mem_append_right _ member)
  obtain ⟨published, -, same⟩ := List.mem_map.mp listed
  by_contra odd
  rw [mosqSinkPublish, if_neg odd] at same
  contradiction

theorem Carries.congr {t : State} (carries : Carries s c) (arrived : t.arrived = s.arrived)
    (sink : t.sink = s.sink) : Carries t c :=
  ⟨by rw [arrived]; exact carries.sent, by rw [sink]; exact carries.pending,
    by rw [sink]; exact carries.received⟩

theorem onMessage_carries {topic payload : Bytes} {heap : Option Memory} {outcome : WriteOutcome}
    (carries : Carries s c) (noNul : (0 : UInt8) ∉ topic) (fits : payload.length ≤ 2048)
    (called : onMessage capacity s topic payload heap outcome = some next) :
    ∃ d, Carries next d ∧
      LossyChannel.Loses (Kept capacity s (.onMessage topic payload heap outcome)) c d := by
  have sent : (s.arrived ++ [(topic, payload)]).map relay = c.sent ++ [relay (topic, payload)] := by
    rw [List.map_append, carries.sent]
    rfl
  cases heap with
  | none =>
    obtain rfl := Option.some.inj called
    refine ⟨c.lose (relay (topic, payload)), ⟨sent, carries.pending, carries.received⟩,
      LossyChannel.loses_of_not ?_ (c.lost_lose _)⟩
    exact fun kept => absurd rfl kept.1
  | some m =>
    have published := mosqSinkPublish_record m topic payload noNul fits
    simp only [onMessage, onMessage_some, busWrite] at called
    split at called
    next kept =>
      obtain rfl := Option.some.inj called
      refine ⟨c.send (relay (topic, payload)), ⟨sent, ?_, carries.received⟩,
        LossyChannel.loses_of_kept ⟨by simp, kept⟩ (c.lost_send _)⟩
      simp only [LossyChannel.send, List.map_append, List.map_cons, List.map_nil, published,
        ← carries.pending, List.append_assoc]
      rfl
    next lost =>
      obtain rfl := Option.some.inj called
      refine ⟨c.lose (relay (topic, payload)), ⟨sent, carries.pending, carries.received⟩,
        LossyChannel.loses_of_not ?_ (c.lost_lose _)⟩
      exact fun kept => lost kept.2

theorem sink_carries {action : MosqSink.Action} {after : MosqSink.State} {exited : Option Nat}
    (carries : Carries s c) (notArrive : ∀ message, action ≠ .arrive message)
    (stepped : MosqSink.step s.sink action = some after) :
    ∃ d, Carries { s with sink := after, exited } d ∧
      LossyChannel.Loses (Kept capacity s (.sink action)) c d := by
  have pending := carries.pending
  rcases sink_cases notArrive carries.sizes stepped with ⟨published, notDrop, same⟩ |
    ⟨message, rfl, published, front⟩ | ⟨data, rfl, published, front⟩
  · refine ⟨c, ⟨carries.sent, by rw [same]; exact pending, published.trans carries.received⟩,
      LossyChannel.loses_of_kept ?_ rfl⟩
    unfold Kept
    split <;> simp_all
  · rw [front, List.map_cons] at pending
    obtain ⟨p, rest, waiting, -, kept⟩ := List.map_eq_cons_iff.mp pending.symm
    exact ⟨c.discard p rest waiting, ⟨carries.sent, kept.symm, published.trans carries.received⟩,
      LossyChannel.loses_of_not (by simp [Kept]) (c.lost_discard p rest waiting)⟩
  · rw [front, List.map_cons] at pending
    obtain ⟨p, rest, waiting, read, kept⟩ := List.map_eq_cons_iff.mp pending.symm
    refine ⟨c.receive p rest waiting, ⟨carries.sent, kept.symm, ?_⟩,
      LossyChannel.loses_of_kept trivial (c.lost_receive p rest waiting)⟩
    rw [published, ← read, carries.received]
    rfl

theorem carries_step (carries : Carries s c) (carried : action.Carried)
    (stepped : step capacity s action = some next) :
    ∃ d, Carries next d ∧ LossyChannel.Loses (Kept capacity s action) c d := by
  unfold step at stepped
  split at stepped
  · contradiction
  cases action with
  | onMessage topic payload heap outcome =>
    simp only [Option.ite_none_right_eq_some] at stepped
    exact onMessage_carries carries carried.1 carried.2 stepped.2
  | sink action =>
    cases action with
    | arrive message => contradiction
    | _ =>
      simp only [Option.ite_none_right_eq_some, Option.map_eq_some_iff] at stepped
      obtain ⟨-, after, ran, rfl⟩ := stepped
      exact sink_carries carries (by simp) ran
  | busFails =>
    obtain rfl := Option.some.inj stepped
    exact ⟨c, carries.congr rfl rfl, LossyChannel.loses_of_kept trivial rfl⟩
  | mosquittoNew ok | mosquittoConnect ok =>
    simp only [Option.ite_none_right_eq_some] at stepped
    obtain ⟨-, stepped⟩ := stepped
    split at stepped <;> obtain rfl := Option.some.inj stepped <;>
      exact ⟨c, carries.congr rfl rfl, LossyChannel.loses_of_kept trivial rfl⟩
  | onConnect rc =>
    simp only [Option.ite_none_right_eq_some] at stepped
    obtain ⟨-, stepped⟩ := stepped
    split at stepped <;> obtain rfl := Option.some.inj stepped <;>
      exact ⟨c, carries.congr rfl rfl, LossyChannel.loses_of_kept trivial rfl⟩
  | initBus | sourceRun | createBusReader | sinkRun | onDisconnect rc =>
    simp only [Option.ite_none_right_eq_some, Option.some.injEq] at stepped
    obtain ⟨-, rfl⟩ := stepped
    exact ⟨c, carries.congr rfl rfl, LossyChannel.loses_of_kept trivial rfl⟩

theorem carries_initial : Carries initial .empty := ⟨rfl, rfl, rfl⟩

def State.waiting (s : State) : List Publish :=
  (held s.sink.position ++ s.sink.queue).filterMap mosqSinkPublish

theorem Carries.waiting (carries : Carries s c) : s.waiting = c.pending := by
  have pending := congrArg (List.filterMap id) carries.pending
  rw [List.filterMap_map, List.filterMap_map] at pending
  simpa [State.waiting] using pending

/-- The sink publishes what the source has heard, in order and nothing twice, with at most
the topic cut. It publishes all of it exactly in the runs whose every step is kept. -/
theorem bridge_relays {trace : List Action} {final : State}
    (carried : ∀ action ∈ trace, action.Carried)
    (ran : run (step capacity) initial trace = some final) :
    (final.sink.published ++ final.waiting).Sublist (final.arrived.map relay) ∧
      (final.sink.published ++ final.waiting = final.arrived.map relay ↔
        Along (step capacity) (Kept capacity) initial trace) := by
  obtain ⟨c, carries, -, exact⟩ := LossyChannel.run_loses_iff Carries Action.Carried (Kept capacity)
    (fun _ _ _ _ => carries_step) carries_initial carried ran
  rw [carries.sent, carries.received, carries.waiting, ← c.lost_eq_zero_iff]
  exact ⟨c.ordered, exact⟩

/-- The session drops and comes back, and a message arrives before the sink's reader has
dialled. -/
def sampleTrace : List Action :=
  [.initBus, .sourceRun, .mosquittoNew true, .mosquittoConnect true, .onConnect 0,
    .onMessage [0x74] [0x31] (some fun _ => 0xFF) .sent, .createBusReader, .sinkRun,
    .onDisconnect 7, .sink (.checkConfig true), .sink (.mosquittoNew true), .sink .clearFlag,
    .sink (.mosquittoConnect true), .sink (.loopStart true), .onConnect 0,
    .onMessage (List.replicate 200 0x74) [0x32] (some fun _ => 0xFF) .sent,
    .sink (.callback (.onConnect 0)), .sink .testFlag, .sink (.busRead .received), .sink .publish]

set_option maxRecDepth 20000 in
theorem bridge_relays_sample : ∃ final, run (step 4) initial sampleTrace = some final ∧
    (final.sink.published ++ final.waiting).Sublist (final.arrived.map relay) ∧
      (final.sink.published ++ final.waiting = final.arrived.map relay ↔
        Along (step 4) (Kept 4) initial sampleTrace) :=
  ⟨_, rfl, bridge_relays (by simp [sampleTrace, Action.Carried, -List.reduceReplicate]) rfl⟩

section Bus

/-- What the sink has done with the messages it read. -/
def handed (sink : MosqSink.State) : List Publish :=
  sink.published ++ (held sink.position).filterMap mosqSinkPublish

structure Reads (r : Reader Bytes) (sink : MosqSink.State) : Prop where
  queue : r.queue.map Body.data = sink.queue
  taken : (r.taken.map Body.data).filterMap mosqSinkPublish = handed sink
  sizes : ∀ b ∈ r.queue, b.data.length = b.datalen

structure Mirrors (s : State) (bus : SBus.State Bytes) : Prop where
  running : bus.exited = false
  listening : bus.listening = decide (s.stage ≠ .start)
  source : s.source ≠ .entry → s.stage.sourceThread = true
  unread : s.stage.connected = false → bus.readers = [] ∧ s.sink.queue = [] ∧ handed s.sink = []
  reader : s.stage.connected = true → ∃ r, bus.readers = [r] ∧ Reads r s.sink

variable {bus : SBus.State Bytes}

def body (m : Memory) (topic payload : Bytes) : Body Bytes :=
  ⟨load (record m topic payload) 0 sizeofMessage, sizeofMessage, by decide⟩

theorem body_data (m : Memory) (topic payload : Bytes) :
    (body m topic payload).data = load (record m topic payload) 0 sizeofMessage := by
  rw [body]

theorem body_length (m : Memory) (topic payload : Bytes) :
    (body m topic payload).data.length = (body m topic payload).datalen := by
  simp only [body, load_length]

theorem mirrors_initial : Mirrors initial SBus.initial where
  running := rfl
  listening := rfl
  source := fun running => absurd rfl running
  unread := fun _ => ⟨rfl, rfl, rfl⟩
  reader := by simp [initial, Stage.connected]

/-- The bus stands still while control moves between two stages on the same side of the dial. -/
theorem mirrors_idle (mirrors : Mirrors s bus) (queue : next.sink.queue = s.sink.queue)
    (done : handed next.sink = handed s.sink) (listening : (next.stage = .start) = (s.stage = .start))
    (connected : next.stage.connected = s.stage.connected)
    (source : next.source ≠ .entry → next.stage.sourceThread = true) : Mirrors next bus where
  running := mirrors.running
  listening := by simp only [mirrors.listening, ne_eq, listening]
  source := source
  unread := fun off => by
    rw [connected] at off
    rw [queue, done]
    exact mirrors.unread off
  reader := fun on => by
    rw [connected] at on
    obtain ⟨r, only, reads⟩ := mirrors.reader on
    exact ⟨r, only, reads.queue.trans queue.symm, reads.taken.trans done.symm, reads.sizes⟩

/-- Only its reads of the bus move the messages of the sink. -/
theorem sink_quiet {sink after : MosqSink.State} {action : MosqSink.Action}
    (notArrive : ∀ message, action ≠ .arrive message) (notRead : ∀ outcome, action ≠ .busRead outcome)
    (stepped : MosqSink.step sink action = some after) :
    after.queue = sink.queue ∧ handed after = handed sink := by
  cases action with
  | arrive message => exact absurd rfl (notArrive message)
  | busRead outcome => exact absurd rfl (notRead outcome)
  | callback event =>
    rw [MosqSink.callback_step stepped]
    exact ⟨rfl, rfl⟩
  | checkConfig ok | mosquittoNew ok | mosquittoConnect ok | loopStart ok =>
    simp only [MosqSink.step, Option.ite_none_right_eq_some, Option.some.injEq] at stepped
    obtain ⟨position, rfl⟩ := stepped
    cases ok <;> simp [MosqSink.proceed, handed, position, held]
  | clearFlag =>
    simp only [MosqSink.step, Option.ite_none_right_eq_some, Option.some.injEq] at stepped
    obtain ⟨position, rfl⟩ := stepped
    simp [handed, position, held]
  | testFlag =>
    simp only [MosqSink.step, Option.ite_none_right_eq_some, Option.some.injEq] at stepped
    obtain ⟨position, rfl⟩ := stepped
    split <;> simp [handed, position, held]
  | publish =>
    simp only [MosqSink.step] at stepped
    split at stepped
    next data position =>
      obtain rfl := Option.some.inj stepped
      cases published : mosqSinkPublish data <;> simp [handed, position, held, published]
    · contradiction

theorem busWrite_sent (message : Bytes) : busWrite capacity s message .sent =
    some { s with sink := { s.sink with
      queue := if s.stage.connected = true ∧ s.sink.queue.length < capacity
        then s.sink.queue ++ [message] else s.sink.queue } } := by
  unfold busWrite
  by_cases roomy : s.stage.connected = true ∧ s.sink.queue.length < capacity
  · rw [if_pos ⟨rfl, roomy⟩, if_pos roomy]
    rfl
  · rw [if_neg (fun sent => roomy sent.2), if_neg roomy]

/-- The sink's reader gets a copy if it has room. -/
theorem reads_deliver {r : Reader Bytes} {sink : MosqSink.State} (reads : Reads r sink)
    (b : Body Bytes) (size : b.data.length = b.datalen) :
    Reads (r.deliver capacity b)
      { sink with queue := if sink.queue.length < capacity then sink.queue ++ [b.data] else sink.queue } := by
  have delivered := @Reader.deliver_map _ capacity _ Body.data r b
  rw [reads.queue] at delivered
  refine ⟨delivered, ?_, Reader.forall_deliver reads.sizes size⟩
  rw [Reader.deliver_taken]
  exact reads.taken

/-- The message is written to the bus, whatever comes of it. -/
theorem mirrors_busWrite {b : Body Bytes} {outcome : WriteOutcome} (mirrors : Mirrors s bus)
    (looping : s.source = .looping) (size : b.data.length = b.datalen)
    (wrote : busWrite capacity s b.data outcome = some next) :
    ∃ after, SBus.step capacity bus (.busWrite b outcome) = some after ∧ Mirrors next after := by
  have source := mirrors.source (by simp [looping])
  have listening : bus.listening = true := by
    rw [mirrors.listening]
    cases stage : s.stage <;> simp_all [Stage.sourceThread]
  cases outcome with
  | allocFails | sendFails =>
    rw [busWrite, if_neg (by simp)] at wrote
    obtain rfl := Option.some.inj wrote
    exact ⟨bus, SBus.step_busWrite_failed mirrors.running listening (by simp) _, mirrors⟩
  | sent =>
    rw [busWrite_sent] at wrote
    obtain rfl := Option.some.inj wrote
    refine ⟨_, SBus.step_busWrite_sent mirrors.running listening _,
      mirrors.running, mirrors.listening, mirrors.source, fun off => ?_, fun on => ?_⟩
    · obtain ⟨none, queue, done⟩ := mirrors.unread off
      exact ⟨by simp [none], by simp [show s.stage.connected = false from off, queue], done⟩
    · obtain ⟨r, only, reads⟩ := mirrors.reader on
      have delivered := @reads_deliver capacity r s.sink reads b size
      refine ⟨r.deliver capacity b, by simp [only], ?_, delivered.taken, delivered.sizes⟩
      simp only [show s.stage.connected = true from on, true_and]
      exact delivered.queue

/-- A read of the sink is one of the bus's only reader. -/
theorem mirrors_busRead {outcome : ReadOutcome} {after : MosqSink.State} {exited : Option Nat}
    (mirrors : Mirrors s bus) (serving : s.stage = .sinkRunning)
    (stepped : MosqSink.step s.sink (.busRead outcome) = some after) :
    ∃ later, SBus.step capacity bus (.busRead 0 outcome) = some later ∧
      Mirrors { s with sink := after, exited } later := by
  have connected : s.stage.connected = true := by
    rw [serving]
    rfl
  obtain ⟨r, only, reads⟩ := mirrors.reader connected
  have mirrored : ∀ r', Reads r' after →
      Mirrors { s with sink := after, exited } { bus with readers := [r'] } := fun r' reads =>
    ⟨mirrors.running, mirrors.listening, mirrors.source, by simp [connected], fun _ => ⟨r', rfl, reads⟩⟩
  simp only [MosqSink.step, Option.ite_none_right_eq_some] at stepped
  obtain ⟨reading, read⟩ := stepped
  have waiting := reads.queue
  have taken := reads.taken
  rcases MosqSink.busRead_cases read with ⟨rfl, rfl⟩ | ⟨data, rest, front, read⟩
  · exact ⟨_, SBus.step_busRead mirrors.running only r.busRead_recvFails, mirrored r reads⟩
  · rw [front] at waiting
    obtain ⟨b, bodies, waits, rfl, rfl⟩ := List.map_eq_cons_iff.mp waiting
    have sizes : ∀ c ∈ bodies, c.data.length = c.datalen :=
      fun c member => reads.sizes c (by rw [waits]; exact List.mem_cons_of_mem _ member)
    have whole : 0 ≤ SBus.lengthOf b.datalen := SBus.lengthOf_nonneg b.fits
    rcases read with ⟨rfl, rfl⟩ | ⟨rfl, -, rfl⟩ | ⟨rfl, negative, -⟩
    · exact ⟨_, SBus.step_busRead mirrors.running only (Reader.busRead_mallocFails waits),
        mirrored _ ⟨rfl, taken, sizes⟩⟩
    · refine ⟨_, SBus.step_busRead mirrors.running only (Reader.busRead_received waits),
        mirrored _ ⟨rfl, ?_, sizes⟩⟩
      have before : s.sink.published = (r.taken.map Body.data).filterMap mosqSinkPublish := by
        rw [taken, handed, reading]
        exact (List.append_nil _).symm
      simp only [List.map_append, List.filterMap_append, handed, held, before]
      rfl
    · rw [reads.sizes b (by simp [waits])] at negative
      exact absurd whole negative

/-- What one step does, the bus does in at most one call. -/
theorem step_implemented (mirrors : Mirrors s bus) (stepped : step capacity s action = some next) :
    ∃ acts after, run (SBus.step capacity) bus acts = some after ∧ Mirrors next after := by
  unfold step at stepped
  split at stepped
  · contradiction
  cases action with
  | initBus =>
    simp only [Option.ite_none_right_eq_some, Option.some.injEq] at stepped
    obtain ⟨stage, rfl⟩ := stepped
    have listening : bus.listening = false := by simp [mirrors.listening, stage]
    refine ⟨[.initBus true true], { bus with listening := true },
      by simp [run, SBus.step, mirrors.running, listening], mirrors.running, rfl, fun running => ?_,
      fun _ => mirrors.unread (by simp [stage, Stage.connected]), by simp [Stage.connected]⟩
    simpa [stage, Stage.sourceThread] using mirrors.source running
  | createBusReader =>
    simp only [Option.ite_none_right_eq_some, Option.some.injEq] at stepped
    obtain ⟨stage, rfl⟩ := stepped
    have listening : bus.listening = true := by simp [mirrors.listening, stage]
    obtain ⟨none, queue, done⟩ := mirrors.unread (by simp [stage, Stage.connected])
    refine ⟨[.createBusReader true true], { bus with readers := [⟨bus.written.length, [], []⟩] },
      by simp [run, SBus.step, mirrors.running, listening, none], mirrors.running, listening,
      fun _ => rfl, by simp [Stage.connected], fun _ => ⟨_, rfl, ?_⟩⟩
    exact ⟨queue.symm, done.symm, by simp⟩
  | sourceRun | sinkRun =>
    simp only [Option.ite_none_right_eq_some, Option.some.injEq] at stepped
    obtain ⟨stage, rfl⟩ := stepped
    refine ⟨[], bus, rfl, mirrors_idle mirrors rfl rfl (by simp [stage]) (by simp [stage, Stage.connected]) ?_⟩
    exact fun _ => rfl
  | busFails =>
    obtain rfl := Option.some.inj stepped
    exact ⟨[], bus, rfl, mirrors_idle mirrors rfl rfl rfl rfl mirrors.source⟩
  | mosquittoNew ok =>
    simp only [Option.ite_none_right_eq_some] at stepped
    obtain ⟨⟨source, -⟩, stepped⟩ := stepped
    split at stepped <;> obtain rfl := Option.some.inj stepped <;>
      exact ⟨[], bus, rfl, mirrors_idle mirrors rfl rfl rfl rfl fun _ => source⟩
  | mosquittoConnect ok =>
    simp only [Option.ite_none_right_eq_some] at stepped
    obtain ⟨made, stepped⟩ := stepped
    have source := mirrors.source (by simp [made])
    split at stepped <;> obtain rfl := Option.some.inj stepped <;>
      exact ⟨[], bus, rfl, mirrors_idle mirrors rfl rfl rfl rfl fun _ => source⟩
  | onConnect rc =>
    simp only [Option.ite_none_right_eq_some] at stepped
    obtain ⟨-, stepped⟩ := stepped
    split at stepped <;> obtain rfl := Option.some.inj stepped <;>
      exact ⟨[], bus, rfl, mirrors_idle mirrors rfl rfl rfl rfl mirrors.source⟩
  | onDisconnect rc =>
    simp only [Option.ite_none_right_eq_some, Option.some.injEq] at stepped
    obtain ⟨-, rfl⟩ := stepped
    exact ⟨[], bus, rfl, mirrors⟩
  | onMessage topic payload heap outcome =>
    simp only [Option.ite_none_right_eq_some] at stepped
    obtain ⟨looping, stepped⟩ := stepped
    have heard : Mirrors { s with arrived := s.arrived ++ [(topic, payload)] } bus :=
      mirrors_idle mirrors rfl rfl rfl rfl mirrors.source
    cases heap with
    | none =>
      obtain rfl := Option.some.inj stepped
      exact ⟨[], bus, rfl, mirrors_idle heard rfl rfl rfl rfl heard.source⟩
    | some m =>
      simp only [onMessage, onMessage_some, ← body_data] at stepped
      obtain ⟨after, called, mirrored⟩ :=
        mirrors_busWrite heard looping (body_length m topic payload) stepped
      exact ⟨[.busWrite (body m topic payload) outcome], after, by simp [run, called], mirrored⟩
  | sink action =>
    cases action with
    | arrive message => contradiction
    | busRead outcome =>
      simp only [Option.ite_none_right_eq_some, Option.map_eq_some_iff] at stepped
      obtain ⟨serving, after, ran, rfl⟩ := stepped
      obtain ⟨later, called, mirrored⟩ := @mirrors_busRead capacity _ _ _ _ _ mirrors serving ran
      exact ⟨[.busRead 0 outcome], later, by simp [run, called], mirrored⟩
    | _ =>
      simp only [Option.ite_none_right_eq_some, Option.map_eq_some_iff] at stepped
      obtain ⟨-, after, ran, rfl⟩ := stepped
      obtain ⟨queue, done⟩ := sink_quiet (by simp) (by simp) ran
      exact ⟨[], bus, rfl, mirrors_idle mirrors queue done rfl rfl mirrors.source⟩

/-- Every run of the bridge is one of the bus with at most one reader. -/
theorem bridge_implemented {trace : List Action} {final : State}
    (ran : run (step capacity) initial trace = some final) :
    ∃ acts bus, run (SBus.step capacity) SBus.initial acts = some bus ∧ Mirrors final bus :=
  run_implements Mirrors (fun _ _ _ _ => step_implemented) mirrors_initial ran

end Bus

end XMeterLogger.MosqBridge
