import Mathlib.Data.Rat.Floor
import Mathlib.Algebra.Order.Floor.Ring
import Mathlib.Algebra.Ring.Int.Parity
import Mathlib.Tactic.Linarith
import Mathlib.Tactic.FieldSimp
import Mathlib.Tactic.Ring

/-! Rounding to the nearest integer with ties to even: what it means over the
rationals, and the same function on a fraction of naturals by division. -/
namespace XMeterLogger.Rounding

/-- A nearest integer, the even one when two are equally near. -/
structure IsNearestEven (q : ℚ) (n : ℤ) : Prop where
  near : |q - n| ≤ 1 / 2
  tie : |q - n| = 1 / 2 → Even n

theorem IsNearestEven.neg {q : ℚ} {n : ℤ} (h : IsNearestEven q n) : IsNearestEven (-q) (-n) := by
  have flip : |-q - ((-n : ℤ) : ℚ)| = |q - n| := by
    rw [Int.cast_neg, ← abs_neg]
    ring_nf
  constructor
  · rw [flip]
    exact h.near
  · rw [flip]
    exact fun half => (h.tie half).neg

theorem IsNearestEven.unique {q : ℚ} {n m : ℤ} (hn : IsNearestEven q n)
    (hm : IsNearestEven q m) : n = m := by
  wlog less : n < m generalizing n m
  · rcases Int.lt_trichotomy n m with h | h | h
    · exact absurd h less
    · exact h
    · exact (this hm hn h).symm
  -- two nearest integers are one apart with `q` half way between them
  exfalso
  have lower := abs_le.mp hn.near
  have upper := abs_le.mp hm.near
  have step : (n : ℚ) + 1 ≤ m := by exact_mod_cast less
  have halfN : q - n = 1 / 2 := by linarith
  have halfM : q - m = -(1 / 2) := by linarith
  have evenN := hn.tie (by rw [halfN]; norm_num)
  have evenM := hm.tie (by rw [halfM]; norm_num)
  have next : m = n + 1 := by
    have : (m : ℚ) = n + 1 := by linarith
    exact_mod_cast this
  rw [next, Int.even_add_one] at evenM
  exact evenM evenN

def roundNearestEven (q : ℚ) : ℤ :=
  let f := ⌊q⌋
  if q - f < 1 / 2 then f
  else if 1 / 2 < q - f then f + 1
  else if f % 2 = 0 then f else f + 1

theorem roundNearestEven_spec (q : ℚ) : IsNearestEven q (roundNearestEven q) := by
  have low : (⌊q⌋ : ℚ) ≤ q := Int.floor_le q
  have high : q < ⌊q⌋ + 1 := Int.lt_floor_add_one q
  unfold roundNearestEven
  dsimp only
  split_ifs with below above even
  · constructor
    · rw [abs_of_nonneg (by linarith)]
      linarith
    · rw [abs_of_nonneg (by linarith)]
      intro half
      linarith
  · have cast : q - ((⌊q⌋ + 1 : ℤ) : ℚ) = -(1 - (q - ⌊q⌋)) := by push_cast; ring
    constructor
    · rw [cast, abs_neg, abs_of_nonneg (by linarith)]
      linarith
    · rw [cast, abs_neg, abs_of_nonneg (by linarith)]
      intro half
      linarith
  · constructor
    · rw [abs_of_nonneg (by linarith)]
      linarith
    · exact fun _ => Int.even_iff.mpr even
  · have cast : q - ((⌊q⌋ + 1 : ℤ) : ℚ) = -(1 - (q - ⌊q⌋)) := by push_cast; ring
    constructor
    · rw [cast, abs_neg, abs_of_nonneg (by linarith)]
      linarith
    · intro _
      exact Int.even_add_one.mpr (fun h => even (Int.even_iff.mp h))

theorem roundNearestEven_neg (q : ℚ) : roundNearestEven (-q) = -roundNearestEven q :=
  (roundNearestEven_spec (-q)).unique (roundNearestEven_spec q).neg

theorem roundNearestEven_intCast (n : ℤ) : roundNearestEven n = n :=
  (roundNearestEven_spec n).unique ⟨by norm_num, by norm_num⟩

/-- Nearest-even quotient of two naturals. -/
def divNearestEven (n d : Nat) : Nat :=
  let q := n / d
  let r := n % d
  if 2 * r < d then q
  else if d < 2 * r then q + 1
  else if q % 2 = 0 then q else q + 1

theorem div_lt_half_iff (r d : Nat) (positive : (0 : ℚ) < d) :
    (r : ℚ) / d < 1 / 2 ↔ 2 * r < d := by
  rw [div_lt_div_iff₀ positive two_pos, one_mul, mul_comm]
  exact_mod_cast Iff.rfl

theorem half_lt_div_iff (r d : Nat) (positive : (0 : ℚ) < d) :
    1 / 2 < (r : ℚ) / d ↔ d < 2 * r := by
  rw [div_lt_div_iff₀ two_pos positive, one_mul, mul_comm]
  exact_mod_cast Iff.rfl

theorem roundNearestEven_div (n d : Nat) (positive : 0 < d) :
    roundNearestEven ((n : ℚ) / d) = divNearestEven n d := by
  have dpos : (0 : ℚ) < d := by exact_mod_cast positive
  have floor : ⌊(n : ℚ) / d⌋ = ((n / d : Nat) : ℤ) := by
    exact_mod_cast Rat.floor_natCast_div_natCast n d
  have remainder : (n : ℚ) / d - ((n / d : Nat) : ℚ) = ((n % d : Nat) : ℚ) / d := by
    have parts : (n : ℚ) = d * ((n / d : Nat) : ℚ) + ((n % d : Nat) : ℚ) := by
      exact_mod_cast (Nat.div_add_mod n d).symm
    field_simp
    linarith
  have even : (((n / d : Nat) : ℤ) % 2 = 0) ↔ n / d % 2 = 0 := by omega
  simp only [roundNearestEven, floor, Int.cast_natCast, remainder, div_lt_half_iff _ _ dpos,
    half_lt_div_iff _ _ dpos, even, divNearestEven]
  split_ifs <;> simp

end XMeterLogger.Rounding
