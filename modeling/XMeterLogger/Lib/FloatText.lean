import Mathlib
import XMeterLogger.Lib.Decimal
import XMeterLogger.Lib.Rounding

/-! The text C's `%.*f` gives a stored float of any format of the float model, and
the exact rational the stored bits denote. A finite float is printed as its exact
value rounded to the decimals asked for, a non-finite one as a word. -/
namespace XMeterLogger.FloatText

open Float.Model Float.Model.UnpackedFloat
open XMeterLogger.Decimal XMeterLogger.Rounding

variable {spec : Format}

def signOf (b : BitVec spec.numBits) : Sign := Sign.ofBitVec (unpackSign b)

/-- The exponent field is not all ones. -/
def finiteBits (b : BitVec spec.numBits) : Bool := unpackExponent b != -1#_

/-- The exact value, none for an infinity or a NaN. -/
def exactValue (b : BitVec spec.numBits) : Option ℚ :=
  match unpack spec b with
  | .notANumber => none
  | .infinity _ => none
  | .zero _ => some 0
  | .finite s m e _ => some ((s.apply m : ℤ) * (2 : ℚ) ^ e)

/-- `m * 2 ^ e * 10 ^ places` rounded to the nearest integer, ties to even. -/
def scaled (places m : Nat) (e : Int) : Nat :=
  if 0 ≤ e then m * 2 ^ e.toNat * 10 ^ places
  else divNearestEven (m * 10 ^ places) (2 ^ (-e).toNat)

def signText : Sign → Bytes
  | .negative => [minus]
  | .positive => []

/-- The text after the sign. -/
def magnitudeText (places : Nat) : UnpackedFloat → Bytes
  | .notANumber => ascii "nan"
  | .infinity _ => ascii "inf"
  | .zero _ => fixedPoint places 0
  | .finite _ m e _ => fixedPoint places (scaled places m e)

def printFixed (places : Nat) (b : BitVec spec.numBits) : Bytes :=
  signText (signOf b) ++ magnitudeText places (unpack spec b)

/-- Characters of the text after the sign, by arithmetic on the value. -/
def magnitudeWidth (places : Nat) : UnpackedFloat → Nat
  | .notANumber => 3
  | .infinity _ => 3
  | .zero _ => places + 2
  | .finite _ m e _ => integerWidth (scaled places m e / 10 ^ places) + 1 + places

def printedWidth (places : Nat) (b : BitVec spec.numBits) : Nat :=
  (match signOf b with | .negative => 1 | .positive => 0) + magnitudeWidth places (unpack spec b)

/-- A value rounded to a number of decimals, ties to even. -/
def roundTo (places : Nat) (q : ℚ) : ℚ := roundNearestEven (q * 10 ^ places) / 10 ^ places

theorem roundTo_neg (places : Nat) (q : ℚ) : roundTo places (-q) = -roundTo places q := by
  rw [roundTo, neg_mul, roundNearestEven_neg, Int.cast_neg, neg_div, roundTo]

theorem roundTo_zero (places : Nat) : roundTo places 0 = 0 := by
  have zero := roundNearestEven_intCast 0
  rw [Int.cast_zero] at zero
  rw [roundTo, zero_mul, zero, Int.cast_zero, zero_div]

theorem scaled_spec (places m : Nat) (e : Int) :
    roundNearestEven ((m : ℚ) * 2 ^ e * 10 ^ places) = scaled places m e := by
  unfold scaled
  split
  next nonneg =>
    obtain ⟨k, rfl⟩ := Int.eq_ofNat_of_zero_le nonneg
    have integral : (m : ℚ) * 2 ^ (k : ℤ) * 10 ^ places = ((m * 2 ^ k * 10 ^ places : Nat) : ℤ) := by
      push_cast
      rw [zpow_natCast]
    rw [integral, roundNearestEven_intCast, Int.toNat_natCast]
  next negative =>
    obtain ⟨k, rfl⟩ : ∃ k : Nat, e = -k := ⟨(-e).toNat, by omega⟩
    have fraction : (m : ℚ) * 2 ^ (-k : ℤ) * 10 ^ places =
        ((m * 10 ^ places : Nat) : ℚ) / (2 ^ k : Nat) := by
      push_cast
      rw [zpow_neg, zpow_natCast]
      ring
    rw [fraction, roundNearestEven_div _ _ (Nat.two_pow_pos k), neg_neg, Int.toNat_natCast]

/-- What the fields of a stored float say about its unpacked form. -/
theorem unpack_cases (b : BitVec spec.numBits) :
    (finiteBits b = false ∧ (unpack spec b = .infinity (signOf b) ∨ unpack spec b = .notANumber)) ∨
    (finiteBits b = true ∧ (unpack spec b = .zero (signOf b) ∨
      ∃ m e positive, unpack spec b = .finite (signOf b) m e positive)) := by
  unfold UnpackedFloat.unpack finiteBits signOf
  dsimp only
  split
  next ones =>
    left
    refine ⟨by simp [ones], ?_⟩
    split
    · exact .inl rfl
    · exact .inr rfl
  next notOnes =>
    right
    refine ⟨by simp [notOnes], ?_⟩
    split
    · split
      · exact .inl rfl
      next nonzero =>
        have positive : 0 < (unpackMantissa b).toNat := by
          simpa [BitVec.toNat_pos, BitVec.pos_iff_ne_zero] using nonzero
        exact .inr ⟨_, _, positive, rfl⟩
    · have positive : 0 < (1#1 ++ unpackMantissa b).toNat := by
        simp
      exact .inr ⟨_, _, positive, rfl⟩

theorem exactValue_isSome (b : BitVec spec.numBits) : (exactValue b).isSome = finiteBits b := by
  rcases unpack_cases b with ⟨nonfinite, h | h⟩ | ⟨finite, h | ⟨m, e, _, h⟩⟩
  all_goals simp [exactValue, *]

theorem printFixed_length {places : Nat} (positive : 0 < places) (b : BitVec spec.numBits) :
    (printFixed places b).length = printedWidth places b := by
  have magnitude : (magnitudeText places (unpack spec b)).length =
      magnitudeWidth places (unpack spec b) := by
    cases unpack spec b with
    | notANumber => rfl
    | infinity s => rfl
    | zero s =>
      simp only [magnitudeText, fixedPoint_length positive, magnitudeWidth, Nat.zero_div,
        integerWidth, Nat.log_zero_right]
      omega
    | finite s m e _ => simp only [magnitudeText, fixedPoint_length positive, magnitudeWidth]
  rw [printFixed, List.length_append, magnitude, printedWidth]
  cases signOf b <;> rfl

/-- A finite float reads back as its exact value rounded to the printed decimals. -/
theorem parseNumber_printFixed {places : Nat} (positive : 0 < places) {b : BitVec spec.numBits}
    {q : ℚ} (exact : exactValue b = some q) :
    parseNumber (printFixed places b) = some (roundTo places q) := by
  rcases unpack_cases b with ⟨_, h | h⟩ | ⟨_, h | ⟨m, e, _, h⟩⟩
  · simp [exactValue, h] at exact
  · simp [exactValue, h] at exact
  · simp only [exactValue, h, Option.some.injEq] at exact
    rw [printFixed, h, ← exact, roundTo_zero]
    cases signOf b with
    | negative => simp [signText, magnitudeText, parseNumber_minus_fixedPoint positive]
    | positive => simp [signText, magnitudeText, parseNumber_fixedPoint positive]
  · simp only [exactValue, h, Option.some.injEq] at exact
    have rounded : roundTo places ((m : ℚ) * 2 ^ e) = (scaled places m e : ℚ) / 10 ^ places := by
      rw [roundTo, scaled_spec, Int.cast_natCast]
    rw [printFixed, h, ← exact]
    cases signOf b with
    | negative =>
      have value : roundTo places (((Sign.negative.apply m : ℤ) : ℚ) * 2 ^ e) =
          -((scaled places m e : ℚ) / 10 ^ places) := by
        rw [← rounded, ← roundTo_neg]
        simp [Sign.apply]
      rw [value]
      exact parseNumber_minus_fixedPoint positive _
    | positive =>
      have value : roundTo places (((Sign.positive.apply m : ℤ) : ℚ) * 2 ^ e) =
          (scaled places m e : ℚ) / 10 ^ places := by
        rw [← rounded]
        simp [Sign.apply]
      rw [value]
      exact parseNumber_fixedPoint positive _

/-- The words for non-finite floats are not numbers. -/
theorem parseNumber_printFixed_nonfinite (places : Nat) {b : BitVec spec.numBits}
    (nonfinite : finiteBits b = false) : parseNumber (printFixed places b) = none := by
  rcases unpack_cases b with ⟨_, h | h⟩ | ⟨finite, _⟩
  · rw [printFixed, h]
    cases signOf b <;> rfl
  · rw [printFixed, h]
    cases signOf b <;> rfl
  · simp [finite] at nonfinite

theorem nonfinite_chars : ∀ c ∈ ascii "nan" ++ ascii "inf", c ∈ ascii "nanif" :=
  forall_mem_of_all (by decide)

/-- Digits, the point, a minus sign or a letter of "nan" and "inf". -/
theorem printFixed_chars (places : Nat) (b : BitVec spec.numBits) :
    ∀ c ∈ printFixed places b, isDigit c = true ∨ c = dot ∨ c = minus ∨ c ∈ ascii "nanif" := by
  intro c member
  rcases List.mem_append.mp member with sign | magnitude
  · right; right; left
    cases hs : signOf b with
    | negative => simpa [hs, signText] using sign
    | positive => simp [hs, signText] at sign
  · cases hu : unpack spec b with
    | notANumber =>
      rw [hu] at magnitude
      exact .inr (.inr (.inr (nonfinite_chars c (List.mem_append_left _ magnitude))))
    | infinity s =>
      rw [hu] at magnitude
      exact .inr (.inr (.inr (nonfinite_chars c (List.mem_append_right _ magnitude))))
    | zero s =>
      rw [hu] at magnitude
      exact (fixedPoint_chars c magnitude).imp id .inl
    | finite s m e _ =>
      rw [hu] at magnitude
      exact (fixedPoint_chars c magnitude).imp id .inl

theorem printFixed_avoids (places : Nat) (b : BitVec spec.numBits) {c : UInt8}
    (notDigit : isDigit c = false) (other : c ∉ dot :: minus :: ascii "nanif") :
    c ∉ printFixed places b := by
  intro member
  simp only [List.mem_cons, not_or] at other
  rcases printFixed_chars places b c member with isdigit | rest
  · simp [isdigit] at notDigit
  · rcases rest with isDot | isMinus | letter
    · exact other.1 isDot
    · exact other.2.1 isMinus
    · exact other.2.2 letter

end XMeterLogger.FloatText
