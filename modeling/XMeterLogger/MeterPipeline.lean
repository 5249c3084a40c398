import XMeterLogger.DataForwarder
import XMeterLogger.Lib.Simulation

/-! The meter pipeline over the bus of `sbus.c`: its runs are runs of the bus with at most
one reader, so that what holds of any reader holds of the InfluxDB sink. -/
namespace XMeterLogger.MeterPipeline

open XMeterLogger.DataForwarder XMeterLogger.MeterReader XMeterLogger.Transition
open XMeterLogger.SBus (Body Reader WriteOutcome ReadOutcome)

def packet (body : Body MeterDataLog) : Packet := ⟨body.data, body.datalen⟩

/-- The message that `modbus_source_reader_task` writes. -/
def body (record : MeterDataLog) : Body MeterDataLog := ⟨record, sizeofMeterDataLog, by decide⟩

/-- The reader of the sink, once it has dialled. -/
structure Reads (r : Reader MeterDataLog) (s : State) : Prop where
  queue : r.queue.map packet = s.queue
  passed : r.taken.map Body.data = s.passed
  sizes : ∀ b ∈ r.queue, b.datalen = sizeofMeterDataLog

structure Mirrors (s : State) (bus : SBus.State MeterDataLog) : Prop where
  running : bus.exited = false
  listening : bus.listening = decide (s.stage ≠ .start)
  written : bus.written.map Body.data = s.written
  source : s.polled ≠ none → s.stage.sourceThread = true
  unread : s.stage.connected = false → bus.readers = [] ∧ s.queue = [] ∧ s.passed = []
  reader : s.stage.connected = true → ∃ r, bus.readers = [r] ∧ Reads r s

/-- The records of the polls that succeeded. -/
def recordsOf (trace : List Action) : List MeterDataLog :=
  trace.filterMap fun
    | .poll record => record
    | _ => none

variable {capacity : Nat} {s next : State} {action : Action} {bus : SBus.State MeterDataLog}

theorem mirrors_initial : Mirrors initial SBus.initial where
  running := rfl
  listening := rfl
  written := rfl
  source := by simp [initial]
  unread := fun _ => ⟨rfl, rfl, rfl⟩
  reader := by simp [initial, Stage.connected]

/-- The bus stands still while control moves between two stages on the same side of the dial. -/
theorem mirrors_idle (mirrors : Mirrors s bus) (queue : next.queue = s.queue)
    (written : next.written = s.written) (passed : next.passed = s.passed)
    (listening : (next.stage = .start) = (s.stage = .start))
    (connected : next.stage.connected = s.stage.connected)
    (source : next.polled ≠ none → next.stage.sourceThread = true) : Mirrors next bus where
  running := mirrors.running
  listening := by simp only [mirrors.listening, ne_eq, listening]
  written := by rw [written, mirrors.written]
  source := source
  unread := fun off => by
    rw [connected] at off
    rw [queue, passed]
    exact mirrors.unread off
  reader := fun on => by
    rw [connected] at on
    obtain ⟨r, only, reads⟩ := mirrors.reader on
    exact ⟨r, only, reads.queue.trans queue.symm, reads.passed.trans passed.symm, reads.sizes⟩

theorem busWrite_sent (record : MeterDataLog) : busWrite capacity s record .sent =
    { s with
      queue := if s.stage.connected = true ∧ s.queue.length < capacity
        then s.queue ++ [packet (body record)] else s.queue
      written := s.written ++ [record] } := by
  simp only [busWrite, nngSendmsg]
  split <;> rfl

/-- The sink's reader gets a copy if it has room. -/
theorem reads_deliver {r : Reader MeterDataLog} (reads : Reads r s) (record : MeterDataLog) :
    Reads (r.deliver capacity (body record))
      { s with queue := if s.queue.length < capacity then s.queue ++ [packet (body record)] else s.queue } := by
  have delivered := @Reader.deliver_map _ capacity _ packet r (body record)
  rw [reads.queue] at delivered
  exact ⟨delivered, (congrArg _ (r.deliver_taken _)).trans reads.passed, Reader.forall_deliver reads.sizes rfl⟩

/-- A write is one of the bus, whatever comes of it. -/
theorem mirrors_busWrite {record : MeterDataLog} (mirrors : Mirrors s bus)
    (polled : s.polled = some record) (outcome : WriteOutcome) :
    ∃ after, SBus.step capacity bus (.busWrite (body record) outcome) = some after ∧
      Mirrors { busWrite capacity s record outcome with polled := none } after := by
  have source := mirrors.source (by simp [polled])
  have listening : bus.listening = true := by
    rw [mirrors.listening]
    cases stage : s.stage <;> simp_all [Stage.sourceThread]
  cases outcome with
  | allocFails | sendFails =>
    refine ⟨bus, SBus.step_busWrite_failed mirrors.running listening (by simp) _, ?_⟩
    exact mirrors_idle mirrors rfl rfl rfl rfl rfl (by simp)
  | sent =>
    refine ⟨_, SBus.step_busWrite_sent mirrors.running listening _, ?_⟩
    rw [busWrite_sent]
    refine ⟨mirrors.running, mirrors.listening, by simp [mirrors.written, body], by simp, ?_, ?_⟩
    · intro off
      obtain ⟨none, queue, passed⟩ := mirrors.unread off
      exact ⟨by simp [none], by simp [show s.stage.connected = false from off, queue], passed⟩
    · intro on
      obtain ⟨r, only, reads⟩ := mirrors.reader on
      have delivered := @reads_deliver capacity s r reads record
      refine ⟨r.deliver capacity (body record), by simp [only], ?_, delivered.passed, delivered.sizes⟩
      simp only [show s.stage.connected = true from on, true_and]
      exact delivered.queue

/-- A read of the sink is one of the bus's only reader. -/
theorem mirrors_busRead {outcome : ReadOutcome} (mirrors : Mirrors s bus)
    (serving : s.stage = .sinkRunning) (turned : influxdbWriteTask s outcome = some next) :
    ∃ after, SBus.step capacity bus (.busRead 0 outcome) = some after ∧ Mirrors next after := by
  have connected : s.stage.connected = true := by
    rw [serving]
    rfl
  obtain ⟨r, only, reads⟩ := mirrors.reader connected
  have mirrored : ∀ r', Reads r' next → next.stage = s.stage → next.written = s.written →
      next.polled = s.polled → Mirrors next { bus with readers := [r'] } := by
    intro r' reads stage written polled
    refine ⟨mirrors.running, ?_, mirrors.written.trans written.symm, ?_, ?_, fun _ => ⟨r', rfl, reads⟩⟩
    · rw [stage]
      exact mirrors.listening
    · rw [stage, polled]
      exact mirrors.source
    · simp [stage, connected]
  rcases influxdbWriteTask_cases turned with
    ⟨rfl, rfl⟩ | ⟨first, rest, front, queue, written, polled, stage, read⟩
  · exact ⟨_, SBus.step_busRead mirrors.running only r.busRead_recvFails, mirrored r reads rfl rfl rfl⟩
  · have waiting := reads.queue
    rw [front] at waiting
    obtain ⟨b, bodies, waits, rfl, rfl⟩ := List.map_eq_cons_iff.mp waiting
    have size : (packet b).datalen = sizeofMeterDataLog :=
      reads.sizes b (by rw [waits]; exact List.mem_cons_self)
    have sizes : ∀ c ∈ bodies, c.datalen = sizeofMeterDataLog :=
      fun c member => reads.sizes c (by rw [waits]; exact List.mem_cons_of_mem _ member)
    rcases read with ⟨rfl, passed⟩ | ⟨rfl, passed⟩
    · exact ⟨_, SBus.step_busRead mirrors.running only (Reader.busRead_mallocFails waits),
        mirrored _ ⟨queue.symm, reads.passed.trans passed.symm, sizes⟩ stage written polled⟩
    · rw [if_pos size] at passed
      refine ⟨_, SBus.step_busRead mirrors.running only (Reader.busRead_received waits),
        mirrored _ ⟨queue.symm, ?_, sizes⟩ stage written polled⟩
      rw [passed, List.map_append, reads.passed]
      rfl

/-- What one step does, the bus does in at most one call. -/
theorem step_implemented (mirrors : Mirrors s bus) (stepped : step capacity s action = some next) :
    ∃ acts after, run (SBus.step capacity) bus acts = some after ∧ Mirrors next after := by
  unfold step at stepped
  split at stepped
  · contradiction
  cases action with
  | openBus =>
    simp only [Option.ite_none_right_eq_some, Option.some.injEq] at stepped
    obtain ⟨stage, rfl⟩ := stepped
    have listening : bus.listening = false := by simp [mirrors.listening, stage]
    obtain ⟨none, queue, passed⟩ := mirrors.unread (by simp [stage, Stage.connected])
    refine ⟨[.initBus true true], { bus with listening := true },
      by simp [run, SBus.step, mirrors.running, listening], mirrors.running, rfl, mirrors.written, ?_,
      fun _ => ⟨none, queue, passed⟩, by simp [Stage.connected]⟩
    intro polled
    simpa [stage, Stage.sourceThread] using mirrors.source polled
  | connectReader =>
    simp only [Option.ite_none_right_eq_some, Option.some.injEq] at stepped
    obtain ⟨stage, rfl⟩ := stepped
    have listening : bus.listening = true := by simp [mirrors.listening, stage]
    obtain ⟨none, queue, passed⟩ := mirrors.unread (by simp [stage, Stage.connected])
    refine ⟨[.createBusReader true true], { bus with readers := [⟨bus.written.length, [], []⟩] },
      by simp [run, SBus.step, mirrors.running, listening, none], mirrors.running, listening,
      mirrors.written, fun _ => rfl, by simp [Stage.connected], fun _ => ⟨_, rfl, ?_⟩⟩
    exact ⟨queue.symm, passed.symm, by simp⟩
  | startSource | startSink =>
    simp only [Option.ite_none_right_eq_some, Option.some.injEq] at stepped
    obtain ⟨stage, rfl⟩ := stepped
    refine ⟨[], bus, rfl, mirrors_idle mirrors rfl rfl rfl (by simp [stage]) (by simp [stage, Stage.connected]) ?_⟩
    exact fun _ => rfl
  | exit =>
    obtain rfl := Option.some.inj stepped
    exact ⟨[], bus, rfl, mirrors_idle mirrors rfl rfl rfl rfl rfl mirrors.source⟩
  | poll record =>
    simp only [Option.ite_none_right_eq_some, Option.some.injEq] at stepped
    obtain ⟨⟨source, -⟩, rfl⟩ := stepped
    exact ⟨[], bus, rfl, mirrors_idle mirrors rfl rfl rfl rfl rfl fun _ => source⟩
  | busWrite outcome =>
    simp only at stepped
    split at stepped
    · contradiction
    next record polled =>
      obtain rfl := Option.some.inj stepped
      obtain ⟨after, called, mirrored⟩ := @mirrors_busWrite capacity s bus record mirrors polled outcome
      exact ⟨[.busWrite (body record) outcome], after, by simp [run, called], mirrored⟩
  | busRead outcome =>
    simp only [Option.ite_none_right_eq_some] at stepped
    obtain ⟨⟨serving, -⟩, read⟩ := stepped
    obtain ⟨after, called, mirrored⟩ := @mirrors_busRead capacity s next bus outcome mirrors serving read
    exact ⟨[.busRead 0 outcome], after, by simp [run, called], mirrored⟩
  | posted =>
    simp only [Option.ite_none_right_eq_some, Option.some.injEq] at stepped
    obtain ⟨-, rfl⟩ := stepped
    exact ⟨[], bus, rfl, mirrors_idle mirrors rfl rfl rfl rfl rfl mirrors.source⟩

theorem influxdbWriteTask_keeps {outcome : ReadOutcome}
    (turned : influxdbWriteTask s outcome = some next) :
    next.written = s.written ∧ next.polled = s.polled := by
  rcases influxdbWriteTask_cases turned with ⟨-, rfl⟩ | ⟨_, _, -, -, written, polled, -, -⟩
  · exact ⟨rfl, rfl⟩
  · exact ⟨written, polled⟩

/-- A record is written at most once after it was polled, and before the next poll. -/
theorem written_step (stepped : step capacity s action = some next) :
    (next.written ++ next.polled.toList).Sublist
      (s.written ++ s.polled.toList ++ recordsOf [action]) := by
  unfold step at stepped
  split at stepped
  · contradiction
  cases action with
  | exit =>
    obtain rfl := Option.some.inj stepped
    exact List.sublist_append_left ..
  | openBus | startSource | connectReader | startSink | posted =>
    simp only [Option.ite_none_right_eq_some, Option.some.injEq] at stepped
    obtain ⟨-, rfl⟩ := stepped
    exact List.sublist_append_left ..
  | poll record =>
    simp only [Option.ite_none_right_eq_some, Option.some.injEq] at stepped
    obtain ⟨⟨-, polled⟩, rfl⟩ := stepped
    cases record with
    | none => simp [polled]
    | some record => simp [polled, recordsOf]
  | busWrite outcome =>
    simp only at stepped
    split at stepped
    · contradiction
    next record polled =>
      obtain rfl := Option.some.inj stepped
      cases outcome with
      | allocFails | sendFails => simp [busWrite]
      | sent => simp [busWrite_sent, polled]
  | busRead outcome =>
    simp only [Option.ite_none_right_eq_some] at stepped
    obtain ⟨-, read⟩ := stepped
    obtain ⟨written, polled⟩ := influxdbWriteTask_keeps read
    rw [written, polled]
    exact List.sublist_append_left ..

theorem written_run {trace : List Action} {final : State}
    (ran : run (step capacity) s trace = some final) :
    (final.written ++ final.polled.toList).Sublist
      (s.written ++ s.polled.toList ++ recordsOf trace) := by
  induction trace generalizing s with
  | nil =>
    obtain rfl := Option.some.inj ran
    exact List.sublist_append_left ..
  | cons action rest ih =>
    obtain ⟨next, stepped, continued⟩ := run_cons_iff.mp ran
    have split : recordsOf (action :: rest) = recordsOf [action] ++ recordsOf rest := by
      rw [recordsOf, recordsOf, recordsOf, ← List.filterMap_append, List.singleton_append]
    rw [split, ← List.append_assoc]
    exact (ih continued).trans ((written_step stepped).append (.refl _))

/-- In every run, whatever fails and whoever is late, the sink passes on polled records in
the order of their polls, each at most once. -/
theorem pipeline_in_order {trace : List Action} {final : State}
    (ran : run (step capacity) initial trace = some final) :
    (final.passed ++ final.queue.map Packet.data).Sublist final.written ∧
      final.written.Sublist (recordsOf trace) := by
  constructor
  · obtain ⟨acts, bus, ranBus, mirrors⟩ :=
      run_implements Mirrors (fun _ _ _ _ => step_implemented) mirrors_initial ran
    cases connected : final.stage.connected with
    | false =>
      obtain ⟨-, queue, passed⟩ := mirrors.unread connected
      rw [queue, passed]
      exact List.nil_sublist _
    | true =>
      obtain ⟨r, only, reads⟩ := mirrors.reader connected
      have held : bus.readers[0]? = some r := by rw [only]; rfl
      obtain ⟨c, hears, -⟩ := SBus.hears_run ranBus held
      have data := (hears.ordered.trans (List.drop_sublist ..)).map Body.data
      rw [List.map_append, reads.passed, mirrors.written] at data
      rw [← reads.queue, List.map_map]
      exact data
  · have written := written_run ran
    simp only [initial, Option.toList_none, List.nil_append] at written
    exact (List.sublist_append_left ..).trans written

/-- The first record is written before the reader has dialled, the second queues and the
third is dropped on its way to the sink. -/
def lateTrace : List Action :=
  [.openBus, .startSource, .poll (some sampleRecord), .busWrite .sent, .connectReader, .startSink,
    .poll none, .poll (some sampleRecord), .busWrite .sent, .busRead .received,
    .poll (some sampleRecord), .busWrite .sent, .posted, .busRead .mallocFails]

theorem pipeline_in_order_late :
    [sampleRecord].Sublist [sampleRecord, sampleRecord, sampleRecord] ∧
      [sampleRecord, sampleRecord, sampleRecord].Sublist (recordsOf lateTrace) := by
  have ran : run (step 16) initial lateTrace = some
      ⟨.sinkRunning, false, none, false, [], [sampleRecord, sampleRecord, sampleRecord],
        [sampleRecord]⟩ := by decide
  exact pipeline_in_order ran

end XMeterLogger.MeterPipeline
