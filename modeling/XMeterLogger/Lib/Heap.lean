import Mathlib.Tactic.Common
import Mathlib.Data.List.TakeWhile

/-! Byte memory addressed from the start of one block, with the C library's copies
into it. Addresses are unbounded, so a copy that runs past the block is a store
like any other and stays visible to whoever asks where it landed. -/
namespace XMeterLogger.Heap

abbrev Bytes := List UInt8

abbrev Memory := Nat → UInt8

structure Store where
  offset : Nat
  bytes : Bytes
  deriving DecidableEq, Repr

def Store.apply (st : Store) (m : Memory) : Memory := fun i =>
  if st.offset ≤ i ∧ i < st.offset + st.bytes.length then st.bytes.getD (i - st.offset) 0
  else m i

def applyAll (m : Memory) (stores : List Store) : Memory :=
  stores.foldl (fun m st => st.apply m) m

@[simp] theorem applyAll_nil (m : Memory) : applyAll m [] = m := rfl

@[simp] theorem applyAll_cons (m : Memory) (st : Store) (rest : List Store) :
    applyAll m (st :: rest) = applyAll (st.apply m) rest := rfl

def load (m : Memory) (offset count : Nat) : Bytes :=
  (List.range count).map fun i => m (offset + i)

@[simp] theorem load_length (m : Memory) (offset count : Nat) :
    (load m offset count).length = count := by
  simp [load]

theorem load_add (m : Memory) (offset a b : Nat) :
    load m offset (a + b) = load m offset a ++ load m (offset + a) b := by
  rw [load, List.range_add, List.map_append, List.map_map]
  refine congrArg (load m offset a ++ ·) (List.map_congr_left fun i _ => ?_)
  exact congrArg m (Nat.add_assoc offset a i).symm

theorem load_take {m : Memory} {offset count k : Nat} (inside : k ≤ count) :
    (load m offset count).take k = load m offset k := by
  obtain ⟨rest, rfl⟩ := Nat.exists_eq_add_of_le inside
  rw [load_add, List.take_left' (load_length m offset k)]

theorem load_drop {m : Memory} {offset count k : Nat} (inside : k ≤ count) :
    (load m offset count).drop k = load m (offset + k) (count - k) := by
  obtain ⟨rest, rfl⟩ := Nat.exists_eq_add_of_le inside
  rw [load_add, List.drop_left' (load_length m offset k), Nat.add_sub_cancel_left]

theorem load_congr {m k : Memory} {offset count : Nat}
    (same : ∀ i, offset ≤ i → i < offset + count → m i = k i) :
    load m offset count = load k offset count := by
  apply List.map_congr_left
  intro i hi
  have bound := List.mem_range.mp hi
  exact same _ (by omega) (by omega)

/-- What was stored is read back. -/
theorem load_apply_same (st : Store) (m : Memory) :
    load (st.apply m) st.offset st.bytes.length = st.bytes := by
  apply List.ext_getElem
  · simp
  · intro i hi hj
    have inside : ¬ st.bytes.length ≤ i := Nat.not_le.mpr hj
    simp [load, Store.apply, List.getElem?_eq_getElem hj, inside]

/-- A store leaves every range it does not meet alone. -/
theorem load_apply_apart (st : Store) (m : Memory) (offset count : Nat)
    (apart : offset + count ≤ st.offset ∨ st.offset + st.bytes.length ≤ offset) :
    load (st.apply m) offset count = load m offset count := by
  apply load_congr
  intro i lower upper
  have outside : ¬ (st.offset ≤ i ∧ i < st.offset + st.bytes.length) := by omega
  simp only [Store.apply, if_neg outside]

theorem load_applyAll_apart (m : Memory) (stores : List Store) (offset count : Nat)
    (apart : ∀ st ∈ stores, offset + count ≤ st.offset ∨ st.offset + st.bytes.length ≤ offset) :
    load (applyAll m stores) offset count = load m offset count := by
  induction stores generalizing m with
  | nil => rfl
  | cons st rest ih =>
    rw [applyAll_cons]
    exact (ih _ (fun x hx => apart x (List.mem_cons_of_mem _ hx))).trans
      (load_apply_apart st m offset count (apart st List.mem_cons_self))

/-- What was stored is still there after stores that do not meet it. -/
theorem load_applyAll_first (m : Memory) (st : Store) (rest : List Store)
    (apart : ∀ later ∈ rest, st.offset + st.bytes.length ≤ later.offset ∨
      later.offset + later.bytes.length ≤ st.offset) :
    load (applyAll m (st :: rest)) st.offset st.bytes.length = st.bytes := by
  rw [applyAll_cons, load_applyAll_apart _ _ _ _ apart, load_apply_same]

theorem load_replicate_zero (m : Memory) (size offset count : Nat) (inside : offset + count ≤ size) :
    load (Store.apply ⟨0, List.replicate size 0⟩ m) offset count = List.replicate count 0 := by
  apply List.ext_getElem
  · simp
  · intro i hi hj
    simp only [List.length_replicate] at hj
    have bound : offset + i < size := by omega
    simp [load, Store.apply, bound]

/-! C strings. -/

/-- The bytes up to the first NUL. -/
def cString (bytes : Bytes) : Bytes := bytes.takeWhile (· != 0)

/-- A C string read from a buffer; without a NUL the read would leave the buffer. -/
def cString? (bytes : Bytes) : Option Bytes :=
  if (0 : UInt8) ∈ bytes then some (cString bytes) else none

/-- What `strncpy` writes: at most `n` bytes of the string, padded with NULs to `n`. -/
def strncpyBytes (source : Bytes) (n : Nat) : Bytes :=
  ((cString source).take n).rightpad n 0

@[simp] theorem strncpyBytes_length (source : Bytes) (n : Nat) :
    (strncpyBytes source n).length = n := by
  simp only [strncpyBytes, List.length_rightpad, List.length_take]
  omega

theorem ne_nul_of_mem {bytes : Bytes} (noNul : (0 : UInt8) ∉ bytes) :
    ∀ b ∈ bytes, (b != 0) = true := by
  intro b hb
  simp only [bne_iff_ne, ne_eq]
  rintro rfl
  exact noNul hb

theorem cString_of_no_nul {bytes : Bytes} (noNul : (0 : UInt8) ∉ bytes) :
    cString bytes = bytes :=
  List.takeWhile_eq_self_iff.mpr (ne_nul_of_mem noNul)

theorem cString_append_nul {bytes : Bytes} (noNul : (0 : UInt8) ∉ bytes) (rest : Bytes) :
    cString (bytes ++ 0 :: rest) = bytes := by
  rw [cString, List.takeWhile_append_of_pos (ne_nul_of_mem noNul)]
  simp

/-- After `strncpy` into `n` bytes that are followed by a NUL, the string read back
is the first `n` bytes of the source. -/
theorem cString_strncpyBytes {source : Bytes} (noNul : (0 : UInt8) ∉ source) (n : Nat)
    (rest : Bytes) : cString? (strncpyBytes source n ++ 0 :: rest) = some (source.take n) := by
  have takeNoNul : (0 : UInt8) ∉ source.take n := fun h => noNul (List.mem_of_mem_take h)
  have member : (0 : UInt8) ∈ strncpyBytes source n ++ 0 :: rest := by simp
  rw [cString?, if_pos member, strncpyBytes, cString_of_no_nul noNul, List.rightpad]
  congr 1
  rw [List.append_assoc]
  cases n - (source.take n).length with
  | zero => exact cString_append_nul takeNoNul rest
  | succ k => exact cString_append_nul takeNoNul _

end XMeterLogger.Heap
