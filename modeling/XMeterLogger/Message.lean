import XMeterLogger.Lib.Heap

/-! `struct Message`, the fixed-layout record that carries one MQTT message over the
bus. Offsets are those of the 64-bit Linux ABI; `datalen` is two bytes, low first. -/
namespace XMeterLogger.Message

open XMeterLogger.Heap

inductive Member where
  | sourceTopic
  | targetTopic
  | data
  | datalen
  | timeArrived
  deriving DecidableEq, Repr

def Member.offset : Member → Nat
  | .sourceTopic => 0
  | .targetTopic => 128
  | .data => 256
  | .datalen => 2304
  | .timeArrived => 2312

def Member.size : Member → Nat
  | .sourceTopic => 128
  | .targetTopic => 128
  | .data => 2048
  | .datalen => 2
  | .timeArrived => 8

/-- `sizeof(struct Message)`: six bytes of padding precede `time_arrived`. -/
def sizeofMessage : Nat := 2320

theorem members_disjoint (a b : Member) (distinct : a ≠ b) :
    a.offset + a.size ≤ b.offset ∨ b.offset + b.size ≤ a.offset := by
  cases a <;> cases b <;> first | contradiction | decide

theorem member_inside (a : Member) : a.offset + a.size ≤ sizeofMessage := by
  cases a <;> decide

/-- One copy into the record, aimed at the start of a member. -/
structure MemberStore where
  member : Member
  bytes : Bytes
  deriving DecidableEq, Repr

def MemberStore.store (st : MemberStore) : Store := ⟨st.member.offset, st.bytes⟩

/-- The copy stays in the array it is meant for. -/
def MemberStore.Within (st : MemberStore) : Prop := st.bytes.length ≤ st.member.size

/-- The two bytes left of an `int64_t` assigned to an `int16_t`. -/
def int16Bytes (n : Int) : Bytes :=
  let word := (n % 65536).toNat
  [UInt8.ofNat word, UInt8.ofNat (word / 256)]

def readInt16 (bytes : Bytes) : Int :=
  match bytes with
  | [low, high] => (BitVec.ofNat 16 (low.toNat + 256 * high.toNat)).toInt
  | _ => 0

theorem readInt16_int16Bytes (n : Nat) (fits : n < 32768) : readInt16 (int16Bytes n) = n := by
  have small : ((n : Int) % 65536).toNat = n := by omega
  simp only [int16Bytes, small, readInt16, UInt8.toNat_ofNat', BitVec.toInt_eq_toNat_cond,
    BitVec.toNat_ofNat]
  omega

/-- The copies of `create_message` after its `memset`, in source order. `memcpy`
takes `datalen` bytes whatever the size of the array. -/
def memberStores (source target : Option Bytes) (data : Option Bytes) (datalen : Int) :
    List MemberStore :=
  (source.map fun topic => ⟨.sourceTopic, strncpyBytes topic Member.sourceTopic.size⟩).toList ++
  (target.map fun topic => ⟨.targetTopic, strncpyBytes topic Member.targetTopic.size⟩).toList ++
  match data with
  | some bytes =>
    if 0 < datalen then
      [⟨.data, bytes.take datalen.toNat⟩, ⟨.datalen, int16Bytes datalen⟩]
    else []
  | none => []

/-- `heap` is what `malloc` hands out: a block of unspecified contents, or NULL, where
the process exits. -/
def createMessage (heap : Option Memory) (source target data : Option Bytes) (datalen : Int) :
    Option Memory :=
  heap.map fun m =>
    applyAll (Store.apply ⟨0, List.replicate sizeofMessage 0⟩ m)
      ((memberStores source target data datalen).map MemberStore.store)

/-- The start of a member read out of the whole record. -/
theorem load_member (m : Memory) (member : Member) {count : Nat} (within : count ≤ member.size) :
    ((load m 0 sizeofMessage).drop member.offset).take count = load m member.offset count := by
  have inside := member_inside member
  rw [load_drop (by omega), load_take (by omega), Nat.zero_add]

/-- A member no copy is aimed at, and none runs into, stays zero. -/
theorem applyAll_member_zero (m : Memory) (stores : List MemberStore) (member : Member)
    (other : ∀ st ∈ stores, st.member ≠ member)
    (apart : ∀ st ∈ stores, member.offset + member.size ≤ st.member.offset ∨ st.Within) :
    load (applyAll (Store.apply ⟨0, List.replicate sizeofMessage 0⟩ m)
      (stores.map MemberStore.store)) member.offset member.size =
      List.replicate member.size 0 := by
  rw [load_applyAll_apart, load_replicate_zero]
  · exact member_inside member
  · intro st hst
    obtain ⟨copy, member, rfl⟩ := List.mem_map.mp hst
    rcases apart copy member with before | within
    · exact .inl before
    · have disjoint := members_disjoint copy.member _ (other copy member)
      simp only [MemberStore.Within] at within
      simp only [MemberStore.store]
      omega

end XMeterLogger.Message
