import XMeterLogger.Lib.FloatInteger

/-! What the DataLog codec relies on of the JSON library, and the two numeric
conversions C inserts between `double` and `int64_t`. Objects are ordered member
lists; names and texts are C strings. -/
namespace XMeterLogger.CJson

open Float.Model
open XMeterLogger.Decimal XMeterLogger.FloatText XMeterLogger.FloatInteger

/-- A C `double` as its stored bits. -/
abbrev CDouble := UInt64

/-- The exact value, none for an infinity or a NaN. -/
def doubleValue (v : CDouble) : Option ℚ := @exactValue Format.binary64 v.toBitVec

/-- `NAN`. -/
def nan : CDouble := 0x7FF8000000000000

/-- Conversion of a `double` to `int64_t`: truncation toward zero, and undefined when
the result is out of range or there is none. -/
def toInt64 (v : CDouble) : Option Int64 :=
  match doubleValue v with
  | none => none
  | some q =>
    if -2 ^ 63 ≤ truncate q ∧ truncate q < 2 ^ 63 then some (Int64.ofInt (truncate q)) else none

/-- Conversion of an `int64_t` to the nearest `double`. -/
def ofInt64 (n : Int64) : CDouble := UInt64.ofBitVec (ofInteger Format.binary64 n.toInt)

inductive Json where
  | null
  | bool (value : Bool)
  | number (value : CDouble)
  | string (text : Bytes)
  | array (items : List Json)
  | object (members : List (Bytes × Json))

/-- `tolower` on ASCII. -/
def lower (b : UInt8) : UInt8 := if 65 ≤ b ∧ b ≤ 90 then b + 32 else b

def lowered (name : Bytes) : Bytes := name.map lower

/-- Names are compared ignoring case. -/
def hasObjectItem (j : Json) (name : Bytes) : Bool :=
  match j with
  | .object members => members.any fun member => lowered member.1 == lowered name
  | _ => false

/-- The first member of exactly that name, none for NULL. -/
def getObjectItemCaseSensitive (j : Json) (name : Bytes) : Option Json :=
  match j with
  | .object members => (members.find? fun member => member.1 == name).map Prod.snd
  | _ => none

def isNumber : Option Json → Bool
  | some (.number _) => true
  | _ => false

def isString : Option Json → Bool
  | some (.string _) => true
  | _ => false

/-- NaN for NULL and for an item of another type. -/
def getNumberValue : Option Json → CDouble
  | some (.number value) => value
  | _ => nan

/-- None, for NULL, in the same cases. -/
def getStringValue : Option Json → Option Bytes
  | some (.string text) => some text
  | _ => none

theorem isNumber_eq_true {item : Option Json} (number : isNumber item = true) :
    ∃ v, item = some (.number v) := by
  unfold isNumber at number
  split at number
  next v => exact ⟨v, rfl⟩
  · contradiction

theorem isString_eq_true {item : Option Json} (string : isString item = true) :
    ∃ text, item = some (.string text) := by
  unfold isString at string
  split at string
  next text => exact ⟨text, rfl⟩
  · contradiction

theorem getNumberValue_of_not {item : Option Json} (other : isNumber item = false) :
    getNumberValue item = nan := by
  unfold getNumberValue
  split
  · contradiction
  · rfl

theorem getStringValue_of_not {item : Option Json} (other : isString item = false) :
    getStringValue item = none := by
  unfold getStringValue
  split
  · contradiction
  · rfl

theorem toInt64_nan : toInt64 nan = none := by
  have undefined : doubleValue nan = none := by
    rw [← Option.isNone_iff_eq_none]
    rfl
  rw [toInt64, undefined]

theorem toInt64_of_range {v : CDouble} {q : ℚ} (exact : doubleValue v = some q)
    (inRange : -2 ^ 63 ≤ truncate q ∧ truncate q < 2 ^ 63) :
    toInt64 v = some (Int64.ofInt (truncate q)) := by
  simp only [toInt64, exact, if_pos inRange]

theorem toInt64_eq_some {v : CDouble} {n : Int64} (converted : toInt64 v = some n) :
    ∃ q, doubleValue v = some q ∧ n.toInt = truncate q := by
  unfold toInt64 at converted
  split at converted
  · contradiction
  next q exact =>
    split at converted
    next inRange =>
      obtain rfl := Option.some.inj converted
      refine ⟨q, exact, Int64.toInt_ofInt_of_le ?_ ?_⟩
      · exact inRange.1
      · exact inRange.2
    · contradiction

theorem natAbs_log2_lt (n : Int64) : n.toInt.natAbs.log2 < 2 ^ 10 := by
  have low := n.le_toInt
  have high := n.toInt_lt
  rcases Nat.eq_zero_or_pos n.toInt.natAbs with zero | positive
  · rw [zero]
    decide
  · have bits : n.toInt.natAbs.log2 < 64 := (Nat.log2_lt positive.ne').mpr (by omega)
    omega

/-- The integer part of a double comes back unchanged from a `double`. -/
theorem doubleValue_ofInt64 {v : CDouble} {n : Int64} (converted : toInt64 v = some n) :
    doubleValue (ofInt64 n) = some (n.toInt : ℚ) := by
  obtain ⟨q, exact, truncated⟩ := toInt64_eq_some converted
  have fits : FitsMantissa Format.binary64 n.toInt.natAbs := by
    rw [truncated]
    exact truncate_fits exact
  exact exactValue_ofInteger fits (by decide) (natAbs_log2_lt n)

theorem toInt64_ofInt64 {v : CDouble} {n : Int64} (converted : toInt64 v = some n) :
    toInt64 (ofInt64 n) = some n := by
  have exact := doubleValue_ofInt64 converted
  have inRange : -2 ^ 63 ≤ truncate (n.toInt : ℚ) ∧ truncate (n.toInt : ℚ) < 2 ^ 63 := by
    rw [truncate_intCast]
    exact ⟨n.le_toInt, n.toInt_lt⟩
  rw [toInt64_of_range exact inRange, truncate_intCast, Int64.ofInt_toInt]

/-- An exact match is also a match ignoring case. -/
theorem hasObjectItem_of_exact {j item : Json} {name : Bytes}
    (found : getObjectItemCaseSensitive j name = some item) : hasObjectItem j name = true := by
  cases j with
  | object members =>
    simp only [getObjectItemCaseSensitive, Option.map_eq_some_iff] at found
    obtain ⟨member, first, rfl⟩ := found
    have same := List.find?_some first
    simp only [beq_iff_eq] at same
    rw [hasObjectItem, List.any_eq_true]
    exact ⟨member, List.mem_of_find?_eq_some first, by rw [same, beq_self_eq_true]⟩
  | null | bool _ | number _ | string _ | array _ => simp [getObjectItemCaseSensitive] at found

theorem mem_of_exact {members : List (Bytes × Json)} {name : Bytes} {item : Json}
    (found : getObjectItemCaseSensitive (.object members) name = some item) :
    (name, item) ∈ members := by
  simp only [getObjectItemCaseSensitive, Option.map_eq_some_iff] at found
  obtain ⟨member, first, rfl⟩ := found
  have same := List.find?_some first
  simp only [beq_iff_eq] at same
  rw [← same]
  exact List.mem_of_find?_eq_some first

theorem exists_exact {members : List (Bytes × Json)} {name : Bytes} {item : Json}
    (member : (name, item) ∈ members) :
    ∃ first, getObjectItemCaseSensitive (.object members) name = some first := by
  have some_match : (members.find? fun member => member.1 == name).isSome = true := by
    rw [List.find?_isSome]
    exact ⟨(name, item), member, beq_self_eq_true name⟩
  obtain ⟨first, found⟩ := Option.isSome_iff_exists.mp some_match
  exact ⟨first.2, by rw [getObjectItemCaseSensitive, found, Option.map_some]⟩

/-- A name that occurs once is looked up to its only item. -/
theorem exact_of_count {members : List (Bytes × Json)} {name : Bytes} {item : Json}
    (once : (members.map Prod.fst).count name ≤ 1) (member : (name, item) ∈ members) :
    getObjectItemCaseSensitive (.object members) name = some item := by
  obtain ⟨front, back, rfl⟩ := List.append_of_mem member
  have absent : name ∉ front.map Prod.fst := by
    intro inside
    have positive := List.count_pos_iff.mpr inside
    simp only [List.map_append, List.map_cons, List.count_append, List.count_cons_self] at once
    omega
  have skipped : front.find? (fun member => member.1 == name) = none := by
    rw [List.find?_eq_none]
    intro other inside
    simp only [beq_iff_eq]
    rintro rfl
    exact absent (List.mem_map_of_mem inside)
  simp [getObjectItemCaseSensitive, List.find?_append, skipped]

end XMeterLogger.CJson
