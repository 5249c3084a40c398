import XMeterLogger.Lib.Channel
import XMeterLogger.Lib.Transition
import XMeterLogger.MeterReader
import XMeterLogger.SBus

/-! The meter pipeline: start-up, the Modbus source thread and the InfluxDB sink
thread over one bus, in any interleaving. The bus reports a send as successful
whether or not anybody listens. -/
namespace XMeterLogger.DataForwarder

open XMeterLogger.MeterReader XMeterLogger.Transition
open XMeterLogger.SBus (WriteOutcome ReadOutcome)

inductive Stage where
  | start
  | busOpen
  | sourceRunning
  | readerConnected
  | sinkRunning
  deriving DecidableEq, Repr

/-- `modbus_source_run` comes before the sink's reader dials. -/
def Stage.sourceThread : Stage → Bool
  | .start | .busOpen => false
  | .sourceRunning | .readerConnected | .sinkRunning => true

def Stage.connected : Stage → Bool
  | .start | .busOpen | .sourceRunning => false
  | .readerConnected | .sinkRunning => true

structure Packet where
  data : MeterDataLog
  datalen : Nat
  deriving DecidableEq, Repr

/-- `sizeof(meter_data_log)`: eight floats. -/
def sizeofMeterDataLog : Nat := 32

structure State where
  stage : Stage
  exited : Bool
  polled : Option MeterDataLog
  posting : Bool
  queue : List Packet
  /-- Records for which `bus_write` returned 0. -/
  written : List MeterDataLog
  /-- Records passed to `convert_to_influxdb_line`. -/
  passed : List MeterDataLog
  deriving DecidableEq, Repr

def initial : State := ⟨.start, false, none, false, [], [], []⟩

inductive Action where
  | openBus
  | startSource
  | connectReader
  | startSink
  /-- A set-up call or a Modbus read fails and ends the process. -/
  | exit
  | poll (record : Option MeterDataLog)
  | busWrite (outcome : WriteOutcome)
  | busRead (outcome : ReadOutcome)
  | posted
  deriving DecidableEq, Repr

section Machine

-- Messages the receive queue of a socket has room for.
variable (capacity : Nat)

/-- The message is copied to the sink's socket when that is connected with room,
and silently dropped otherwise. Either way the call returns 0. -/
def nngSendmsg (s : State) (packet : Packet) : State :=
  if s.stage.connected ∧ s.queue.length < capacity then { s with queue := s.queue ++ [packet] } else s

def busWrite (s : State) (record : MeterDataLog) : WriteOutcome → State
  | .allocFails => s
  | .sendFails => s
  | .sent =>
    let s := nngSendmsg capacity s ⟨record, sizeofMeterDataLog⟩
    { s with written := s.written ++ [record] }

/-- One turn of `influxdb_write_task` up to its request. -/
def influxdbWriteTask (s : State) (outcome : ReadOutcome) : Option State := do
  let (packet, queue) ← SBus.busRead Packet.datalen s.queue outcome
  match packet with
  | none => some { s with queue }
  | some packet =>
    if packet.datalen = sizeofMeterDataLog then
      some { s with queue, passed := s.passed ++ [packet.data], posting := true }
    else some { s with queue }

def step (s : State) (action : Action) : Option State :=
  if s.exited then none
  else match action with
    | .openBus => if s.stage = .start then some { s with stage := .busOpen } else none
    | .startSource => if s.stage = .busOpen then some { s with stage := .sourceRunning } else none
    | .connectReader =>
      if s.stage = .sourceRunning then some { s with stage := .readerConnected } else none
    | .startSink => if s.stage = .readerConnected then some { s with stage := .sinkRunning } else none
    | .exit => some { s with exited := true }
    | .poll record =>
      if s.stage.sourceThread ∧ s.polled = none then some { s with polled := record } else none
    | .busWrite outcome =>
      match s.polled with
      | none => none
      | some record => some { busWrite capacity s record outcome with polled := none }
    | .busRead outcome =>
      if s.stage = .sinkRunning ∧ s.posting = false then influxdbWriteTask s outcome else none
    | .posted => if s.posting then some { s with posting := false } else none

/-- The steps the transport carries out faithfully: a write finds the reader
connected with room in its queue, and no message is dropped for want of memory. -/
def Kept (s : State) : Action → Prop
  | .busWrite .sent => s.stage.connected = true ∧ s.queue.length < capacity
  | .busRead .mallocFails => False
  | _ => True

end Machine

/-- The pipeline as a channel from `bus_write` to `convert_to_influxdb_line`. -/
structure Represents (s : State) (c : Channel MeterDataLog) : Prop where
  sent : s.written = c.sent
  pending : s.queue.map Packet.data = c.pending
  received : s.passed = c.received
  sizes : ∀ packet ∈ s.queue, packet.datalen = sizeofMeterDataLog

/-- A record was written that is neither passed on nor queued. -/
def Lost (s : State) : Prop := s.passed.length + s.queue.length < s.written.length

variable {capacity : Nat} {s next : State} {action : Action}

theorem initial_represents : Represents initial .empty :=
  ⟨rfl, rfl, rfl, by simp [initial]⟩

@[simp] theorem nngSendmsg_queue (packet : Packet) : (nngSendmsg capacity s packet).queue =
    if s.stage.connected = true ∧ s.queue.length < capacity then s.queue ++ [packet] else s.queue := by
  unfold nngSendmsg
  split <;> rfl

@[simp] theorem nngSendmsg_written (packet : Packet) :
    (nngSendmsg capacity s packet).written = s.written := by
  unfold nngSendmsg
  split <;> rfl

@[simp] theorem nngSendmsg_passed (packet : Packet) :
    (nngSendmsg capacity s packet).passed = s.passed := by
  unfold nngSendmsg
  split <;> rfl

theorem influxdbWriteTask_cases {outcome : ReadOutcome}
    (turned : influxdbWriteTask s outcome = some next) :
    (outcome = .recvFails ∧ next = s) ∨
    ∃ packet rest, s.queue = packet :: rest ∧ next.queue = rest ∧ next.written = s.written ∧
      next.polled = s.polled ∧ next.stage = s.stage ∧
      ((outcome = .mallocFails ∧ next.passed = s.passed) ∨
        (outcome = .received ∧ next.passed =
          if packet.datalen = sizeofMeterDataLog then s.passed ++ [packet.data] else s.passed)) := by
  obtain ⟨⟨message, queue⟩, took, turned⟩ := Option.bind_eq_some_iff.mp turned
  rcases SBus.busRead_cases took with ⟨rfl, rfl, rfl⟩ | ⟨packet, front, ⟨rfl, rfl⟩ | ⟨rfl, rfl⟩⟩
  · obtain rfl := Option.some.inj turned
    exact .inl ⟨rfl, rfl⟩
  · obtain rfl := Option.some.inj turned
    exact .inr ⟨packet, queue, front, rfl, rfl, rfl, rfl, .inl ⟨rfl, rfl⟩⟩
  · by_cases sized : packet.datalen = sizeofMeterDataLog
    · have whole : 0 ≤ SBus.lengthOf sizeofMeterDataLog := by decide
      simp only [sized, whole, if_true] at turned
      obtain rfl := Option.some.inj turned
      exact .inr ⟨packet, queue, front, rfl, rfl, rfl, rfl, .inr ⟨rfl, (if_pos sized).symm⟩⟩
    · have dropped : next = { s with queue } := by
        by_cases whole : 0 ≤ SBus.lengthOf packet.datalen
        · simp only [whole, sized, if_true, if_false] at turned
          exact (Option.some.inj turned).symm
        · simp only [whole, if_false] at turned
          exact (Option.some.inj turned).symm
      subst dropped
      exact .inr ⟨packet, queue, front, rfl, rfl, rfl, rfl, .inr ⟨rfl, (if_neg sized).symm⟩⟩

theorem step_cases (stepped : step capacity s action = some next) :
    -- nothing moves
    (next.queue = s.queue ∧ next.written = s.written ∧ next.passed = s.passed ∧
      action ≠ .busWrite .sent ∧ action ≠ .busRead .mallocFails) ∨
    -- a write that returns 0, with or without a copy in the queue
    (∃ record, action = .busWrite .sent ∧ next.written = s.written ++ [record] ∧
      next.passed = s.passed ∧
      next.queue = if s.stage.connected = true ∧ s.queue.length < capacity
        then s.queue ++ [⟨record, sizeofMeterDataLog⟩] else s.queue) ∨
    -- a message leaves the queue, dropped or passed on
    (∃ packet rest, s.queue = packet :: rest ∧ next.queue = rest ∧ next.written = s.written ∧
      ((action = .busRead .mallocFails ∧ next.passed = s.passed) ∨
        (action = .busRead .received ∧
          next.passed = if packet.datalen = sizeofMeterDataLog then s.passed ++ [packet.data]
            else s.passed))) := by
  unfold step at stepped
  split at stepped
  · contradiction
  cases action with
  | exit =>
    obtain rfl := Option.some.inj stepped
    simp
  | openBus | startSource | connectReader | startSink | poll _ | posted =>
    simp only [Option.ite_none_right_eq_some, Option.some.injEq] at stepped
    obtain ⟨-, rfl⟩ := stepped
    simp
  | busWrite outcome =>
    simp only at stepped
    split at stepped
    · contradiction
    next record _ =>
      obtain rfl := Option.some.inj stepped
      cases outcome with
      | allocFails => simp [busWrite]
      | sendFails => simp [busWrite]
      | sent =>
        right; left
        refine ⟨record, rfl, ?_⟩
        simp [busWrite]
  | busRead outcome =>
    simp only [Option.ite_none_right_eq_some] at stepped
    obtain ⟨-, stepped⟩ := stepped
    rcases influxdbWriteTask_cases stepped with
      ⟨rfl, rfl⟩ | ⟨packet, rest, front, queue, written, -, -, ⟨rfl, passed⟩ | ⟨rfl, passed⟩⟩
    · simp
    · exact .inr (.inr ⟨packet, rest, front, queue, written, .inl ⟨rfl, passed⟩⟩)
    · exact .inr (.inr ⟨packet, rest, front, queue, written, .inr ⟨rfl, passed⟩⟩)

theorem kept_sent_iff : Kept capacity s (.busWrite .sent) ↔
    s.stage.connected = true ∧ s.queue.length < capacity := Iff.rfl

/-- A kept step is one move of a faithful channel. -/
theorem kept_step_moves {c : Channel MeterDataLog} (represents : Represents s c)
    (kept : Kept capacity s action) (stepped : step capacity s action = some next) :
    ∃ d, Represents next d ∧ c.Move d := by
  obtain ⟨sent, pending, received, sizes⟩ := represents
  rcases step_cases stepped with ⟨queue, written, passed, -, -⟩ |
    ⟨record, rfl, written, passed, queue⟩ | ⟨packet, rest, front, queue, written, outcome⟩
  · exact ⟨c, ⟨by rw [written, sent], by rw [queue, pending], by rw [passed, received],
      by rw [queue]; exact sizes⟩, .idle c⟩
  · rw [if_pos (kept_sent_iff.mp kept)] at queue
    refine ⟨c.send record, ⟨by rw [written, sent]; rfl, ?_, by rw [passed, received]; rfl, ?_⟩,
      .send c record⟩
    · rw [queue, List.map_append, pending]
      rfl
    · rw [queue]
      intro packet member
      rcases List.mem_append.mp member with old | new
      · exact sizes packet old
      · rw [List.mem_singleton.mp new]
  · rcases outcome with ⟨rfl, -⟩ | ⟨rfl, passed⟩
    · exact kept.elim
    · have sized := sizes packet (by rw [front]; exact List.mem_cons_self)
      rw [if_pos sized] at passed
      rw [front, List.map_cons] at pending
      refine ⟨c.receive packet.data (rest.map Packet.data) pending.symm,
        ⟨by rw [written, sent]; rfl, by rw [queue]; rfl, by rw [passed, received]; rfl, ?_⟩,
        .receive c packet.data _ pending.symm⟩
      rw [queue]
      exact fun later member => sizes later (by rw [front]; exact List.mem_cons_of_mem _ member)

/-- A run of kept steps is a path of a faithful channel that starts empty. -/
theorem kept_run_refines {trace : List Action} {final : State}
    (along : Along (step capacity) (Kept capacity) initial trace)
    (ran : run (step capacity) initial trace = some final) :
    ∃ c, Represents final c ∧ Relation.ReflTransGen Channel.Move .empty c :=
  run_simulates Represents Channel.Move (Kept capacity)
    (fun _ _ _ _ => kept_step_moves) initial_represents along ran

theorem unkept_step_loses {c : Channel MeterDataLog} (represents : Represents s c)
    (unkept : ¬ Kept capacity s action) (stepped : step capacity s action = some next) :
    Lost next := by
  have balance : s.passed.length + s.queue.length = s.written.length := by
    have lengths := congrArg List.length c.balance
    rw [← represents.sent, ← represents.received, ← represents.pending, List.length_append,
      List.length_map] at lengths
    exact lengths
  unfold Lost
  rcases step_cases stepped with ⟨-, -, -, notSent, notDropped⟩ |
    ⟨record, rfl, written, passed, queue⟩ | ⟨packet, rest, front, queue, written, outcome⟩
  · exact absurd (by unfold Kept; split <;> simp_all) unkept
  · rw [if_neg (mt kept_sent_iff.mpr unkept)] at queue
    rw [written, passed, queue, List.length_append, List.length_singleton]
    omega
  · rcases outcome with ⟨rfl, passed⟩ | ⟨rfl, -⟩
    · rw [written, passed, queue]
      rw [front, List.length_cons] at balance
      omega
    · exact absurd trivial unkept

theorem lost_step (lost : Lost s) (stepped : step capacity s action = some next) : Lost next := by
  unfold Lost at lost ⊢
  rcases step_cases stepped with ⟨queue, written, passed, -, -⟩ |
    ⟨record, -, written, passed, queue⟩ | ⟨packet, rest, front, queue, written, outcome⟩
  · rw [queue, written, passed]
    exact lost
  · rw [written, passed, queue, List.length_append, List.length_singleton]
    split
    · rw [List.length_append, List.length_singleton]
      omega
    · omega
  · rw [front, List.length_cons] at lost
    rcases outcome with ⟨-, passed⟩ | ⟨-, passed⟩
    · rw [written, passed, queue]
      omega
    · rw [written, passed, queue]
      split
      · rw [List.length_append, List.length_singleton]
        omega
      · omega

/-- The records passed on and queued are the written ones exactly in the runs
whose every write found the reader connected with room, and whose reads never
ran out of memory. -/
theorem delivers_exactly_once_iff {trace : List Action} {final : State}
    (ran : run (step capacity) initial trace = some final) :
    final.passed ++ final.queue.map Packet.data = final.written ↔
      Along (step capacity) (Kept capacity) initial trace := by
  constructor
  · intro balanced
    have keeps (s : State) (action : Action) (next : State) (represented : ∃ c, Represents s c)
        (kept : Kept capacity s action) (stepped : step capacity s action = some next) :
        ∃ d, Represents next d := by
      obtain ⟨c, represents⟩ := represented
      obtain ⟨d, after, -⟩ := kept_step_moves represents kept stepped
      exact ⟨d, after⟩
    have loses (s : State) (action : Action) (next : State) (represented : ∃ c, Represents s c)
        (unkept : ¬ Kept capacity s action) (stepped : step capacity s action = some next) :
        Lost next := by
      obtain ⟨c, represents⟩ := represented
      exact unkept_step_loses represents unkept stepped
    rcases along_or_broken (fun s => ∃ c, Represents s c) Lost (Kept capacity) keeps loses
      (fun _ _ _ => lost_step) ⟨_, initial_represents⟩ ran with along | lost
    · exact along
    · have lengths := congrArg List.length balanced
      rw [List.length_append, List.length_map] at lengths
      exact absurd lost (by unfold Lost; omega)
  · intro along
    obtain ⟨c, represents, -⟩ := kept_run_refines along ran
    rw [represents.sent, represents.pending, represents.received]
    exact c.balance

/-- A run in which the first poll ends after the sink's reader has dialled. -/
def promptTrace : List Action :=
  [.openBus, .startSource, .connectReader, .startSink, .poll (some sampleRecord),
    .busWrite .sent, .busRead .received, .posted]

theorem delivers_exactly_once_prompt : Along (step 16) (Kept 16) initial promptTrace := by
  have ran : run (step 16) initial promptTrace =
      some ⟨.sinkRunning, false, none, false, [], [sampleRecord], [sampleRecord]⟩ := by decide
  exact (delivers_exactly_once_iff ran).mp rfl

/-- The first poll ends before the sink's reader has dialled: `bus_write` returns 0
and the record never reaches the sink. -/
theorem early_poll_is_lost :
    ∃ final, run (step 16) initial
        [.openBus, .startSource, .poll (some sampleRecord), .busWrite .sent, .connectReader,
          .startSink] = some final ∧
      final.written = [sampleRecord] ∧
      final.passed ++ final.queue.map Packet.data ≠ final.written :=
  ⟨⟨.sinkRunning, false, none, false, [], [sampleRecord], []⟩, by decide, rfl, by decide⟩

end XMeterLogger.DataForwarder
