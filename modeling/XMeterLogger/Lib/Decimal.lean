import Mathlib.Data.Nat.Digits.Lemmas
import Mathlib.Data.List.TakeWhile
import Mathlib.Tactic.FieldSimp
import Mathlib.Tactic.Linarith
import Mathlib.Tactic.Ring

/-! Decimal numerals as bytes: printing a natural number or a fixed-point number,
its exact length, and a parser that undoes the printing. -/
namespace XMeterLogger.Decimal

abbrev Bytes := List UInt8

/-- The bytes of an ASCII literal. -/
def ascii (s : String) : Bytes := s.toList.map fun c => UInt8.ofNat c.toNat

def minus : UInt8 := 0x2D
def dot : UInt8 := 0x2E

def digit (d : Nat) : UInt8 := UInt8.ofNat (48 + d)
def isDigit (b : UInt8) : Bool := 48 ≤ b.toNat && b.toNat < 58
def digitValue (b : UInt8) : Nat := b.toNat - 48

/-- Decimal without leading zeros. -/
def decimal (n : Nat) : Bytes :=
  if n = 0 then [digit 0] else (Nat.digits 10 n).reverse.map digit

/-- `n / 10 ^ places` with exactly `places` decimals. -/
def fixedPoint (places n : Nat) : Bytes :=
  decimal (n / 10 ^ places) ++ dot ::
    (decimal (n % 10 ^ places)).leftpad places (digit 0)

/-- Characters in front of the decimal point. -/
def integerWidth (n : Nat) : Nat := Nat.log 10 n + 1

def parseDigits (bytes : Bytes) : Option Nat :=
  if bytes ≠ [] ∧ bytes.all isDigit then
    some (Nat.ofDigits 10 (bytes.reverse.map digitValue))
  else none

/-- Digits, optionally followed by a point and more digits. -/
def parseUnsigned (bytes : Bytes) : Option ℚ :=
  match bytes.dropWhile (· != dot) with
  | [] => (parseDigits bytes).map fun n => (n : ℚ)
  | _ :: fraction =>
    match parseDigits (bytes.takeWhile (· != dot)), parseDigits fraction with
    | some whole, some part => some (whole + part / 10 ^ fraction.length)
    | _, _ => none

/-- A finite decimal number. -/
def parseNumber (bytes : Bytes) : Option ℚ :=
  match bytes with
  | [] => none
  | b :: rest => if b = minus then (parseUnsigned rest).map (-·) else parseUnsigned (b :: rest)

/-- A check of every byte, for the bytes of a literal. -/
theorem forall_mem_of_all {p : UInt8 → Prop} [DecidablePred p] {bytes : Bytes}
    (all : (bytes.all fun b => decide (p b)) = true) : ∀ b ∈ bytes, p b := by
  simpa [List.all_eq_true] using all

theorem digit_toNat {d : Nat} (small : d < 10) : (digit d).toNat = 48 + d := by
  rw [digit, UInt8.toNat_ofNat']
  omega

theorem isDigit_digit {d : Nat} (small : d < 10) : isDigit (digit d) = true := by
  simp only [isDigit, digit_toNat small, Bool.and_eq_true, decide_eq_true_eq]
  omega

theorem digitValue_digit {d : Nat} (small : d < 10) : digitValue (digit d) = d := by
  simp [digitValue, digit_toNat small]

theorem decimal_all_digits (n : Nat) : ∀ b ∈ decimal n, isDigit b = true := by
  intro b member
  unfold decimal at member
  split at member
  · obtain rfl := List.mem_singleton.mp member
    exact isDigit_digit (by decide)
  · obtain ⟨d, hd, rfl⟩ := List.mem_map.mp member
    exact isDigit_digit (Nat.digits_lt_base (by decide) (List.mem_reverse.mp hd))

theorem decimal_length (n : Nat) : (decimal n).length = integerWidth n := by
  unfold decimal integerWidth
  split
  next zero => simp [zero]
  next nonzero => simp [Nat.length_digits 10 n (by decide) nonzero]

theorem decimal_ne_nil (n : Nat) : decimal n ≠ [] := by
  apply List.ne_nil_of_length_pos
  rw [decimal_length]
  exact Nat.succ_pos _

/-- The digits of `decimal`, least significant first. -/
theorem ofDigits_decimal (n : Nat) :
    Nat.ofDigits 10 ((decimal n).reverse.map digitValue) = n := by
  unfold decimal
  split
  next zero => simp [zero, digitValue_digit]
  next nonzero =>
    have values : (Nat.digits 10 n).map (digitValue ∘ digit) = Nat.digits 10 n := by
      conv_rhs => rw [← List.map_id (Nat.digits 10 n)]
      apply List.map_congr_left
      intro d hd
      exact digitValue_digit (Nat.digits_lt_base (by decide) hd)
    rw [← List.map_reverse, List.reverse_reverse, List.map_map, values, Nat.ofDigits_digits]

theorem parseDigits_leftpad (k n : Nat) :
    parseDigits ((decimal n).leftpad k (digit 0)) = some n := by
  have digits : ((decimal n).leftpad k (digit 0)).all isDigit = true := by
    simp only [List.leftpad, List.all_append, Bool.and_eq_true, List.all_eq_true]
    refine ⟨fun b hb => ?_, decimal_all_digits n⟩
    rw [List.eq_of_mem_replicate hb]
    exact isDigit_digit (by decide)
  have nonempty : (decimal n).leftpad k (digit 0) ≠ [] := by
    simp [List.leftpad, decimal_ne_nil]
  rw [parseDigits, if_pos ⟨nonempty, digits⟩]
  congr 1
  simp only [List.leftpad, List.reverse_append, List.map_append, List.reverse_replicate,
    List.map_replicate, digitValue_digit (show 0 < 10 by decide)]
  rw [Nat.ofDigits_append_replicate_zero, ofDigits_decimal]

theorem parseDigits_decimal (n : Nat) : parseDigits (decimal n) = some n := by
  simpa [List.leftpad] using parseDigits_leftpad 0 n

theorem integerWidth_le {n places : Nat} (positive : 0 < places) (small : n < 10 ^ places) :
    integerWidth n ≤ places := by
  rcases Nat.eq_zero_or_pos n with rfl | npos
  · rw [integerWidth, Nat.log_zero_right]
    exact positive
  · exact Nat.log_lt_of_lt_pow (Nat.ne_of_gt npos) small

theorem fraction_length {places : Nat} (positive : 0 < places) (n : Nat) :
    ((decimal (n % 10 ^ places)).leftpad places (digit 0)).length = places := by
  have small : n % 10 ^ places < 10 ^ places := Nat.mod_lt _ (Nat.pow_pos (by decide))
  rw [List.length_leftpad, decimal_length, Nat.max_eq_left (integerWidth_le positive small)]

theorem fixedPoint_length {places : Nat} (positive : 0 < places) (n : Nat) :
    (fixedPoint places n).length = integerWidth (n / 10 ^ places) + 1 + places := by
  rw [fixedPoint, List.length_append, List.length_cons, fraction_length positive, decimal_length]
  omega

/-- Every character of a fixed-point numeral is a digit or the point. -/
theorem fixedPoint_chars {places n : Nat} :
    ∀ b ∈ fixedPoint places n, isDigit b = true ∨ b = dot := by
  intro b member
  rcases List.mem_append.mp member with whole | rest
  · exact .inl (decimal_all_digits _ b whole)
  · rcases List.mem_cons.mp rest with rfl | part
    · exact .inr rfl
    · rcases List.mem_append.mp part with pad | digits
      · rw [List.eq_of_mem_replicate pad]
        exact .inl (isDigit_digit (by decide))
      · exact .inl (decimal_all_digits _ b digits)

theorem decimal_no_dot (n : Nat) : ∀ b ∈ decimal n, (b != dot) = true := by
  intro b member
  have isdigit := decimal_all_digits n b member
  simp only [bne_iff_ne, ne_eq]
  rintro rfl
  exact absurd isdigit (by decide)

/-- Parsing a printed fixed-point number gives the number back. -/
theorem parseUnsigned_fixedPoint {places : Nat} (positive : 0 < places) (n : Nat) :
    parseUnsigned (fixedPoint places n) = some ((n : ℚ) / 10 ^ places) := by
  have power : (10 : ℚ) ^ places ≠ 0 := pow_ne_zero _ (by norm_num)
  have parts : ((n / 10 ^ places : Nat) : ℚ) + ((n % 10 ^ places : Nat) : ℚ) / 10 ^ places =
      (n : ℚ) / 10 ^ places := by
    have whole : (n : ℚ) = 10 ^ places * ((n / 10 ^ places : Nat) : ℚ) +
        ((n % 10 ^ places : Nat) : ℚ) := by
      exact_mod_cast (Nat.div_add_mod n (10 ^ places)).symm
    field_simp
    linarith
  have pointed : (dot != dot) = false := by decide
  rw [parseUnsigned, fixedPoint, List.dropWhile_append_of_pos (decimal_no_dot _),
    List.takeWhile_append_of_pos (decimal_no_dot _)]
  simp only [List.dropWhile_cons, List.takeWhile_cons, pointed, Bool.false_eq_true, ↓reduceIte,
    List.append_nil, parseDigits_decimal, parseDigits_leftpad, fraction_length positive, parts]

theorem fixedPoint_head (places n : Nat) :
    ∃ b rest, fixedPoint places n = b :: rest ∧ b ≠ minus := by
  obtain ⟨b, rest, eq⟩ := List.exists_cons_of_ne_nil (decimal_ne_nil (n / 10 ^ places))
  refine ⟨b, _, by rw [fixedPoint, eq, List.cons_append], ?_⟩
  rintro rfl
  have isdigit := decimal_all_digits (n / 10 ^ places) minus (by rw [eq]; exact List.mem_cons_self)
  exact absurd isdigit (by decide)

theorem parseNumber_fixedPoint {places : Nat} (positive : 0 < places) (n : Nat) :
    parseNumber (fixedPoint places n) = some ((n : ℚ) / 10 ^ places) := by
  obtain ⟨b, rest, eq, unsigned⟩ := fixedPoint_head places n
  rw [← parseUnsigned_fixedPoint positive n, eq, parseNumber, if_neg unsigned]

theorem parseNumber_minus_fixedPoint {places : Nat} (positive : 0 < places) (n : Nat) :
    parseNumber (minus :: fixedPoint places n) = some (-((n : ℚ) / 10 ^ places)) := by
  simp [parseNumber, parseUnsigned_fixedPoint positive n]

end XMeterLogger.Decimal
