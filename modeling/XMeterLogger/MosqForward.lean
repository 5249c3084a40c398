import XMeterLogger.Message

/-! MQTT forwarding through the mosquitto source and sink. The source callback packs
a message into a `struct Message` and writes the whole record to the bus; the sink
thread publishes what it reads back out of those bytes. -/
namespace XMeterLogger.MosqForward

open XMeterLogger.Heap XMeterLogger.Message

/-- The copies `on_message` makes; `target_topic` is NULL. -/
def onMessageStores (topic payload : Bytes) : List MemberStore :=
  memberStores (some topic) none (some payload) payload.length

/-- `on_message`: the bytes handed to `bus_write`, none when `create_message` exits. -/
def onMessage (heap : Option Memory) (topic payload : Bytes) : Option Bytes :=
  (createMessage heap (some topic) none (some payload) payload.length).map fun m =>
    load m 0 sizeofMessage

/-- The arguments of one `mosquitto_publish`, its payload as the library reads it. -/
structure Publish where
  topic : Bytes
  payloadlen : Int
  payload : Bytes
  deriving DecidableEq, Repr

/-- `send_to_mqtt`: the topic is read as a C string, the payload by length. -/
def sendToMqtt (topic data : Bytes) (datalen : Int) : Option Publish :=
  (cString? topic).map fun topic => ⟨topic, datalen, data.take datalen.toNat⟩

/-- What `mosq_sink_task` does with one message off the bus. -/
def mosqSinkPublish (message : Bytes) : Option Publish :=
  if message.length = sizeofMessage then
    sendToMqtt (message.drop Member.sourceTopic.offset) (message.drop Member.data.offset)
      (readInt16 ((message.drop Member.datalen.offset).take Member.datalen.size))
  else none

/-- The record is built in bounds with the right length, and the sink publishes the
same topic and the same payload. Exiting before anything is published also counts. -/
def ForwardsFaithfully (heap : Option Memory) (topic payload : Bytes) : Prop :=
  match onMessage heap topic payload with
  | none => True
  | some message =>
    (∀ st ∈ onMessageStores topic payload, st.Within) ∧
    readInt16 ((message.drop Member.datalen.offset).take Member.datalen.size) = payload.length ∧
    mosqSinkPublish message = some ⟨topic, payload.length, payload⟩

/-- The record `create_message` builds in a block of contents `m`. -/
def record (m : Memory) (topic payload : Bytes) : Memory :=
  applyAll (Store.apply ⟨0, List.replicate sizeofMessage 0⟩ m)
    ((onMessageStores topic payload).map MemberStore.store)

theorem onMessage_some (m : Memory) (topic payload : Bytes) :
    onMessage (some m) topic payload = some (load (record m topic payload) 0 sizeofMessage) := rfl

theorem onMessageStores_eq (topic payload : Bytes) :
    onMessageStores topic payload = ⟨.sourceTopic, strncpyBytes topic 128⟩ ::
      if payload = [] then []
      else [⟨.data, payload⟩, ⟨.datalen, int16Bytes payload.length⟩] := by
  by_cases empty : payload = []
  · subst empty
    rfl
  · have positive : 0 < payload.length := List.length_pos_iff.mpr empty
    simp [onMessageStores, memberStores, empty, positive, Member.size]

theorem onMessageStores_within_iff (topic payload : Bytes) :
    (∀ st ∈ onMessageStores topic payload, st.Within) ↔ payload.length ≤ 2048 := by
  rw [onMessageStores_eq]
  by_cases empty : payload = []
  · simp [empty, MemberStore.Within, Member.size]
  · simp [empty, MemberStore.Within, Member.size, int16Bytes]

/-- The payload copy starts behind both topics, so even one that overruns `data`
leaves them alone. -/
theorem record_sourceTopic (m : Memory) (topic payload : Bytes) :
    load (record m topic payload) 0 128 = strncpyBytes topic 128 := by
  rw [record, onMessageStores_eq, List.map_cons]
  generalize Store.apply ⟨0, List.replicate sizeofMessage 0⟩ m = zeroed
  have same := load_applyAll_first zeroed (MemberStore.store ⟨.sourceTopic, strncpyBytes topic 128⟩)
    ((if payload = [] then [] else
      [⟨.data, payload⟩, ⟨.datalen, int16Bytes payload.length⟩] : List MemberStore).map
        MemberStore.store)
  simp only [MemberStore.store, strncpyBytes_length, Member.offset] at same
  apply same
  intro later member
  split at member
  · simp at member
  · simp only [List.map_cons, List.map_nil, List.mem_cons, List.not_mem_nil, or_false] at member
    rcases member with rfl | rfl
    · exact .inl (show 0 + 128 ≤ Member.data.offset by decide)
    · exact .inl (show 0 + 128 ≤ Member.datalen.offset by decide)

theorem record_targetTopic (m : Memory) (topic payload : Bytes) :
    load (record m topic payload) 128 128 = List.replicate 128 0 := by
  apply applyAll_member_zero m _ .targetTopic
  · rw [onMessageStores_eq]
    intro st member
    split at member <;> simp at member <;> rcases member with rfl | rfl | rfl <;> simp
  · rw [onMessageStores_eq]
    intro st member
    split at member <;> simp at member <;> rcases member with rfl | rfl | rfl <;>
      simp [MemberStore.Within, Member.size, Member.offset]

theorem record_data (m : Memory) (topic payload : Bytes) (fits : payload.length ≤ 2048) :
    load (record m topic payload) 256 payload.length = payload := by
  by_cases empty : payload = []
  · subst empty
    rfl
  · rw [record, onMessageStores_eq, if_neg empty, List.map_cons, applyAll_cons, List.map_cons]
    generalize Store.apply _ _ = zeroed
    apply load_applyAll_first zeroed (MemberStore.store ⟨.data, payload⟩)
    intro later member
    obtain rfl := List.mem_singleton.mp member
    have bound : 256 + payload.length ≤ 2304 := by omega
    exact .inl bound

theorem record_datalen (m : Memory) (topic payload : Bytes) (fits : payload.length ≤ 2048) :
    readInt16 (load (record m topic payload) 2304 2) = payload.length := by
  by_cases empty : payload = []
  · have zero : load (record m topic payload) 2304 2 = List.replicate 2 0 := by
      apply applyAll_member_zero m _ .datalen
      · rw [onMessageStores_eq, if_pos empty]
        simp
      · rw [onMessageStores_eq, if_pos empty]
        simp [MemberStore.Within, Member.size]
    rw [zero, empty]
    rfl
  · have stored : load (record m topic payload) 2304 2 = int16Bytes payload.length := by
      rw [record, onMessageStores_eq, if_neg empty, List.map_cons, applyAll_cons, List.map_cons,
        applyAll_cons]
      generalize Store.apply _ _ = filled
      exact load_applyAll_first filled (MemberStore.store ⟨.datalen, int16Bytes payload.length⟩) []
        (by simp)
    rw [stored, readInt16_int16Bytes _ (by omega)]

/-- The sink's string read stops at the latest on the zeroed `target_topic`. -/
theorem record_topic_read (m : Memory) (topic payload : Bytes) (noNul : (0 : UInt8) ∉ topic) :
    cString? (load (record m topic payload) 0 sizeofMessage) = some (topic.take 128) := by
  have split : load (record m topic payload) 0 sizeofMessage =
      strncpyBytes topic 128 ++
        0 :: (List.replicate 127 0 ++ load (record m topic payload) 256 2064) := by
    rw [show sizeofMessage = 128 + (128 + 2064) from rfl, load_add, load_add,
      record_sourceTopic, record_targetTopic]
    rfl
  rw [split, cString_strncpyBytes noNul]

theorem mosqSinkPublish_record (m : Memory) (topic payload : Bytes)
    (noNul : (0 : UInt8) ∉ topic) (fits : payload.length ≤ 2048) :
    mosqSinkPublish (load (record m topic payload) 0 sizeofMessage) =
      some ⟨topic.take 128, payload.length, payload⟩ := by
  have length : (load (record m topic payload) 0 sizeofMessage).length = sizeofMessage :=
    load_length ..
  have source : cString? ((load (record m topic payload) 0 sizeofMessage).drop
      Member.sourceTopic.offset) = some (topic.take 128) :=
    record_topic_read m topic payload noNul
  have datalen : readInt16 (((load (record m topic payload) 0 sizeofMessage).drop
      Member.datalen.offset).take Member.datalen.size) = payload.length := by
    rw [load_member _ .datalen (Nat.le_refl _)]
    exact record_datalen m topic payload fits
  have data : ((load (record m topic payload) 0 sizeofMessage).drop
      Member.data.offset).take payload.length = payload := by
    rw [load_member _ .data fits]
    exact record_data m topic payload fits
  simp only [mosqSinkPublish, if_pos length, sendToMqtt, source, datalen, Int.toNat_natCast, data,
    Option.map_some]

/-- Forwarding is faithful exactly up to the two capacities: 128 bytes of topic, where
`target_topic` supplies the missing NUL, and 2048 bytes of payload. -/
theorem forwards_faithfully_iff (heap : Option Memory) (topic payload : Bytes)
    (noNul : (0 : UInt8) ∉ topic) :
    ForwardsFaithfully heap topic payload ↔
      heap = none ∨ (topic.length ≤ 128 ∧ payload.length ≤ 2048) := by
  cases heap with
  | none => simp [ForwardsFaithfully, onMessage, createMessage]
  | some m =>
    simp only [ForwardsFaithfully, onMessage_some, reduceCtorEq, false_or]
    constructor
    · rintro ⟨within, -, published⟩
      have fits := (onMessageStores_within_iff topic payload).mp within
      rw [mosqSinkPublish_record m topic payload noNul fits] at published
      have whole : topic.take 128 = topic := congrArg Publish.topic (Option.some.inj published)
      have short := congrArg List.length whole
      rw [List.length_take] at short
      exact ⟨by omega, fits⟩
    · rintro ⟨short, fits⟩
      refine ⟨(onMessageStores_within_iff topic payload).mpr fits, ?_, ?_⟩
      · rw [load_member _ .datalen (Nat.le_refl _)]
        exact record_datalen m topic payload fits
      · rw [mosqSinkPublish_record m topic payload noNul fits, List.take_of_length_le short]

/-- A 128-byte topic without room for its NUL still arrives whole. -/
theorem forwards_faithfully_full_topic :
    ForwardsFaithfully (some fun _ => 0xFF) (List.replicate 128 0x74) [0x31] :=
  (forwards_faithfully_iff _ (List.replicate 128 0x74) [0x31]
    (fun nul => absurd (List.eq_of_mem_replicate nul) (by decide))).mpr
    (.inr ⟨Nat.le_of_eq List.length_replicate, by decide⟩)

/-- One byte more of payload than `data` holds is stored past its end. -/
theorem overlong_payload_overruns_data :
    ¬ ForwardsFaithfully (some fun _ => 0) [0x74] (List.replicate 2049 0x31) := by
  rintro ⟨within, -⟩
  have fits := (onMessageStores_within_iff _ _).mp within
  rw [List.length_replicate] at fits
  exact absurd fits (by decide)

end XMeterLogger.MosqForward
