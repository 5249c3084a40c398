import XMeterLogger.Lib.FloatText

/-! Conversions between integers and floats of the float model: an integer with no
more significant bits than the mantissa holds is converted exactly, and a finite
float that is truncated leaves such an integer. -/
namespace XMeterLogger.FloatInteger

open Float.Model Float.Model.UnpackedFloat
open XMeterLogger.FloatText

variable {spec : Format}

/-- The bits of the float nearest to an integer. -/
def ofInteger (spec : Format) (n : Int) : BitVec spec.numBits :=
  UnpackedFloat.pack spec (UnpackedFloat.ofInt spec n)

/-- The integer part, rounded toward zero. -/
def truncate (q : ℚ) : Int := if 0 ≤ q then ⌊q⌋ else ⌈q⌉

theorem truncate_intCast (n : Int) : truncate n = n := by
  unfold truncate
  split
  · exact Int.floor_intCast n
  · exact Int.ceil_intCast n

theorem le_truncate {n : Int} {q : ℚ} (low : (n : ℚ) ≤ q) : n ≤ truncate q := by
  unfold truncate
  split
  · exact Int.le_floor.mpr low
  · exact_mod_cast low.trans (Int.le_ceil q)

theorem truncate_lt {n : Int} {q : ℚ} (positive : 0 < n) (high : q < n) : truncate q < n := by
  unfold truncate
  split
  · exact Int.floor_lt.mpr high
  next negative =>
    have nonpos : ⌈q⌉ ≤ 0 := Int.ceil_le.mpr (by push_cast; linarith)
    omega

theorem truncate_neg (q : ℚ) : truncate (-q) = -truncate q := by
  rcases lt_trichotomy q 0 with negative | rfl | positive
  · rw [truncate, if_pos (by linarith), truncate, if_neg (by linarith), Int.floor_neg]
  · simp [truncate]
  · rw [truncate, if_neg (by linarith), truncate, if_pos (by linarith), Int.ceil_neg]

theorem log2_mul_two_pow {n : Nat} (nonzero : n ≠ 0) (k : Nat) : (2 ^ k * n).log2 = n.log2 + k := by
  induction k with
  | zero => simp
  | succ k ih =>
    have shifted : 2 ^ (k + 1) * n = 2 * (2 ^ k * n) := by
      ring
    rw [shifted, Nat.log2_two_mul (Nat.mul_ne_zero (Nat.two_pow_pos k).ne' nonzero), ih]
    omega

/-- Shifting out zeros leaves no residue. -/
theorem shiftRightOne_repeat (k q : Nat) :
    Nat.repeat ExtendedMantissa.shiftRightOne k ⟨2 ^ k * q, false, false⟩ = ⟨q, false, false⟩ := by
  induction k generalizing q with
  | zero => simp [Nat.repeat]
  | succ k ih =>
    have shifted : 2 ^ (k + 1) * q = 2 ^ k * (2 * q) := by
      ring
    rw [Nat.repeat, shifted, ih]
    simp [ExtendedMantissa.shiftRightOne]

/-- A mantissa that reaches its target exponent by shifting out zeros, or by none. -/
theorem shiftToTargetExponent_exact (q k : Nat) {t : Int}
    (target : spec.targetExponent (totalExponent (2 ^ k * q) (t - k)) = t) :
    shiftToTargetExponent spec (2 ^ k * q) (t - k) .exact = (⟨q, false, false⟩, t) := by
  have amount : (t - (t - k)).toNat = k := by
    omega
  simp only [shiftToTargetExponent, shiftToExponent, target, amount,
    ExtendedMantissa.ofMantissaAndAccuracy]
  exact Prod.ext (shiftRightOne_repeat k q) (by simp)

/-- Rounding a value the format holds exactly changes its representation only. -/
theorem roundWithAccuracy_exact (s : Sign) {q k : Nat} {t : Int} (positive : 0 < q)
    (target : spec.targetExponent (totalExponent q t) = t) :
    roundWithAccuracy spec s (2 ^ k * q) (t - k) .exact = .finite s q t positive := by
  have total : totalExponent (2 ^ k * q) (t - k) = totalExponent q t := by
    rw [totalExponent, totalExponent, log2_mul_two_pow positive.ne']
    omega
  have first := shiftToTargetExponent_exact q k ((congrArg spec.targetExponent total).trans target)
  have second : shiftToTargetExponent spec q t .exact = (⟨q, false, false⟩, t) := by
    simpa using @shiftToTargetExponent_exact spec q 0 t (by simpa using target)
  simp only [roundWithAccuracy, first, ExtendedMantissa.roundedMantissa, ExtendedMantissa.accuracy,
    Accuracy.roundToNearestEven, second]
  rw [dif_neg positive.ne']

/-- Significant bits of an integer fit the mantissa. -/
def FitsMantissa (spec : Format) (n : Nat) : Prop :=
  2 ^ (n.log2 - spec.mantissaBitsWithoutImplicit) ∣ n

/-- The mantissa of an integer the format holds, scaled to full width. -/
theorem fitsMantissa_scaled {n : Nat} (positive : 0 < n) (fits : FitsMantissa spec n) :
    ∃ q, 2 ^ (n.log2 - spec.mantissaBitsWithoutImplicit) * q =
        n * 2 ^ (spec.mantissaBitsWithoutImplicit - n.log2) ∧
      q.log2 = spec.mantissaBitsWithoutImplicit ∧ 0 < q := by
  obtain ⟨r, eq⟩ := fits
  have rpos : 0 < r := by
    apply Nat.pos_of_ne_zero
    intro zero
    rw [zero, Nat.mul_zero] at eq
    omega
  rcases Nat.le_total n.log2 spec.mantissaBitsWithoutImplicit with narrow | wide
  · have none : n.log2 - spec.mantissaBitsWithoutImplicit = 0 := by
      omega
    refine ⟨2 ^ (spec.mantissaBitsWithoutImplicit - n.log2) * n, by rw [none]; ring, ?_,
      Nat.mul_pos (Nat.two_pow_pos _) positive⟩
    rw [log2_mul_two_pow positive.ne']
    omega
  · have none : spec.mantissaBitsWithoutImplicit - n.log2 = 0 := by
      omega
    refine ⟨r, by rw [none, pow_zero, mul_one, ← eq], ?_, rpos⟩
    have width := log2_mul_two_pow rpos.ne' (n.log2 - spec.mantissaBitsWithoutImplicit)
    rw [← eq] at width
    omega

/-- The unpacked float an exactly held positive integer rounds to. -/
theorem round_integer (s : Sign) {n : Nat} (positive : 0 < n) (fits : FitsMantissa spec n)
    (two : 2 ≤ spec.exponentBits) :
    ∃ q qpos, q.log2 = spec.mantissaBitsWithoutImplicit ∧
      UnpackedFloat.round spec s n 0 =
        .finite s q ((n.log2 : Int) - spec.mantissaBitsWithoutImplicit) qpos ∧
      (q : ℚ) * 2 ^ ((n.log2 : Int) - spec.mantissaBitsWithoutImplicit) = n := by
  obtain ⟨q, scaled, width, qpos⟩ := fitsMantissa_scaled positive fits
  have power : 1 < 2 ^ (spec.exponentBits - 1) := Nat.one_lt_two_pow (by omega)
  have target (e : Int) (total : e = (n.log2 : Int) + 1) :
      spec.targetExponent e = (n.log2 : Int) - spec.mantissaBitsWithoutImplicit := by
    have cast : ((2 ^ (spec.exponentBits - 1) : Nat) : Int) = 2 ^ (spec.exponentBits - 1) := by
      push_cast
      rfl
    rw [total, Format.targetExponent, Format.minExponent, Format.mantissaBits, ← cast]
    push_cast
    omega
  refine ⟨q, qpos, width, ?_, ?_⟩
  · have input := target (totalExponent n 0) (by simp [totalExponent])
    have output := target (totalExponent q ((n.log2 : Int) - spec.mantissaBitsWithoutImplicit))
      (by rw [totalExponent, width]; omega)
    have shift : (0 - ((n.log2 : Int) - spec.mantissaBitsWithoutImplicit)).toNat =
        spec.mantissaBitsWithoutImplicit - n.log2 := by
      omega
    have start : (0 : Int) - ((spec.mantissaBitsWithoutImplicit - n.log2 : Nat) : Int) =
        (n.log2 : Int) - spec.mantissaBitsWithoutImplicit -
          ((n.log2 - spec.mantissaBitsWithoutImplicit : Nat) : Int) := by
      omega
    simp only [UnpackedFloat.round, input, decreaseExponent, shift, Nat.shiftLeft_eq, ← scaled, start]
    exact roundWithAccuracy_exact s qpos output
  · have value := congrArg (fun m : Nat => (m : ℚ)) scaled
    push_cast at value
    rcases Nat.le_total n.log2 spec.mantissaBitsWithoutImplicit with narrow | wide
    · obtain ⟨k, bits⟩ := Nat.exists_eq_add_of_le narrow
      rw [show n.log2 - spec.mantissaBitsWithoutImplicit = 0 by omega,
        show spec.mantissaBitsWithoutImplicit - n.log2 = k by omega, pow_zero, one_mul] at value
      rw [value, show (n.log2 : Int) - spec.mantissaBitsWithoutImplicit = -(k : Int) by omega,
        zpow_neg, zpow_natCast]
      field_simp
    · obtain ⟨k, bits⟩ := Nat.exists_eq_add_of_le wide
      rw [show n.log2 - spec.mantissaBitsWithoutImplicit = k by omega,
        show spec.mantissaBitsWithoutImplicit - n.log2 = 0 by omega, pow_zero, mul_one] at value
      rw [show (n.log2 : Int) - spec.mantissaBitsWithoutImplicit = (k : Int) by omega,
        zpow_natCast, mul_comm, value]

/-- Putting the implicit bit back in front of the stored ones. -/
theorem implicit_append {k q : Nat} (width : q.log2 = k) (positive : 0 < q) :
    (1#1 ++ BitVec.ofNat k q).toNat = q := by
  obtain ⟨low, high⟩ := (Nat.log2_eq_iff positive.ne').mp width
  have double : 2 ^ (k + 1) = 2 ^ k + 2 ^ k := by
    ring
  have rest : q % 2 ^ k = q - 2 ^ k := by
    rw [Nat.mod_eq_sub_mod low, Nat.mod_eq_of_lt (by omega)]
  have one : (1#1).toNat = 1 := rfl
  rw [BitVec.toNat_append, one, BitVec.toNat_ofNat, rest,
    ← Nat.shiftLeft_add_eq_or_of_lt (by omega), Nat.shiftLeft_eq]
  omega

/-- A full-width finite float in exponent range keeps its value when packed. -/
theorem exactValue_pack (s : Sign) (biased : Nat) {q : Nat} {t : Int} (positive : 0 < q)
    (width : q.log2 = spec.mantissaBitsWithoutImplicit) (lowest : 0 < biased)
    (highest : biased + 1 < 2 ^ spec.exponentBits)
    (exponent : t = (biased : Int) - (spec.exponentBias + spec.mantissaBitsWithoutImplicit)) :
    exactValue (UnpackedFloat.pack spec (.finite s q t positive)) =
      some ((s.apply q : ℤ) * (2 : ℚ) ^ t) := by
  have field : (t + spec.exponentBias + spec.mantissaBitsWithoutImplicit).toNat = biased := by
    omega
  have bits : (BitVec.ofNat spec.exponentBits biased).toNat = biased := by
    rw [BitVec.toNat_ofNat, Nat.mod_eq_of_lt (by omega)]
  have notOnes : BitVec.ofNat spec.exponentBits biased ≠ -1#_ := by
    intro ones
    have count := congrArg BitVec.toNat ones
    rw [bits, BitVec.neg_one_eq_allOnes, BitVec.toNat_allOnes] at count
    omega
  have notZero : BitVec.ofNat spec.exponentBits biased ≠ 0#_ := by
    intro zero
    have count := congrArg BitVec.toNat zero
    rw [bits] at count
    simp at count
    omega
  have full : q.log2 + 1 = spec.mantissaBits := by
    rw [width, Format.mantissaBits]
    omega
  have packed : UnpackedFloat.pack spec (.finite s q t positive) =
      packComponents spec s (BitVec.ofNat _ biased) (BitVec.ofNat _ q) := by
    simp only [UnpackedFloat.pack, field, if_neg (Nat.not_le.mpr highest), if_pos full]
  have unpacked : UnpackedFloat.unpack spec (UnpackedFloat.pack spec (.finite s q t positive)) =
      .finite s q t positive := by
    rw [packed, exponent]
    simp only [UnpackedFloat.unpack, unpackMantissa_packComponents, unpackExponent_packComponents,
      unpackSign_packComponents, Sign.ofBitVec_toBitVec, if_neg notOnes, if_neg notZero,
      implicit_append width positive, bits]
  rw [exactValue, unpacked]

theorem exactValue_pack_zero (s : Sign) (wide : 2 ≤ spec.exponentBits) :
    exactValue (UnpackedFloat.pack spec (.zero s)) = some 0 := by
  have notOnes : (0 : BitVec spec.exponentBits) ≠ -1#_ := by
    intro ones
    have count := congrArg BitVec.toNat ones
    have power : 1 < 2 ^ spec.exponentBits := Nat.one_lt_two_pow (by omega)
    rw [BitVec.neg_one_eq_allOnes, BitVec.toNat_allOnes] at count
    simp at count
    omega
  simp only [exactValue, UnpackedFloat.pack, packedZero, UnpackedFloat.unpack,
    unpackMantissa_packComponents, unpackExponent_packComponents, if_neg notOnes]
  rfl

/-- An integer the format holds is converted exactly. -/
theorem exactValue_ofInteger {n : Int} (fits : FitsMantissa spec n.natAbs)
    (wide : 2 ≤ spec.exponentBits) (inRange : n.natAbs.log2 < 2 ^ (spec.exponentBits - 1)) :
    exactValue (ofInteger spec n) = some (n : ℚ) := by
  have half : 2 ^ spec.exponentBits = 2 * 2 ^ (spec.exponentBits - 1) := by
    rw [← Nat.pow_succ']
    congr 1
    omega
  have power : 1 < 2 ^ (spec.exponentBits - 1) := Nat.one_lt_two_pow (by omega)
  -- one sign at a time, by the magnitude
  have signed (s : Sign) (positive : 0 < n.natAbs) :
      exactValue (UnpackedFloat.pack spec (UnpackedFloat.round spec s n.natAbs 0)) =
        some ((s.apply n.natAbs : ℤ) : ℚ) := by
    obtain ⟨q, qpos, width, rounded, value⟩ := round_integer s positive fits wide
    rw [rounded, exactValue_pack s (n.natAbs.log2 + spec.exponentBias) qpos width
      (by rw [Format.exponentBias]; omega) (by rw [Format.exponentBias]; omega) (by push_cast; omega)]
    cases s with
    | positive => simpa [Sign.apply] using value
    | negative => simpa [Sign.apply] using value
  unfold ofInteger UnpackedFloat.ofInt UnpackedFloat.normalize
  rcases lt_trichotomy n 0 with negative | rfl | positive
  · have magnitude : (-n).toNat = n.natAbs := by
      omega
    rw [compare_lt_iff_lt.mpr negative]
    simp only [magnitude]
    rw [signed .negative (by omega)]
    congr 1
    rw [Sign.apply, Int.ofNat_natAbs_of_nonpos (by omega), neg_neg]
  · exact exactValue_pack_zero .positive wide
  · have magnitude : n.toNat = n.natAbs := by
      omega
    rw [compare_gt_iff_gt.mpr positive]
    simp only [magnitude]
    rw [signed .positive (by omega)]
    congr 1
    rw [Sign.apply, Int.natAbs_of_nonneg (by omega)]

theorem unpack_mantissa_lt {b : BitVec spec.numBits} {s : Sign} {m : Nat} {e : Int} {positive}
    (unpacked : UnpackedFloat.unpack spec b = .finite s m e positive) :
    m < 2 ^ (spec.mantissaBitsWithoutImplicit + 1) := by
  unfold UnpackedFloat.unpack at unpacked
  dsimp only at unpacked
  split at unpacked
  · split at unpacked <;> contradiction
  · split at unpacked
    · split at unpacked
      · contradiction
      · obtain ⟨-, rfl, -⟩ := UnpackedFloat.finite.inj unpacked
        exact (BitVec.isLt _).trans (Nat.pow_lt_pow_right (by decide) (by omega))
    · obtain ⟨-, rfl, -⟩ := UnpackedFloat.finite.inj unpacked
      exact (BitVec.isLt _).trans_eq (congrArg (2 ^ ·) (Nat.add_comm _ _))

theorem fitsMantissa_of_lt {n : Nat} (small : n < 2 ^ (spec.mantissaBitsWithoutImplicit + 1)) :
    FitsMantissa spec n := by
  have width : n.log2 - spec.mantissaBitsWithoutImplicit = 0 := by
    rcases Nat.eq_zero_or_pos n with rfl | positive
    · simp
    · have bits := (Nat.log2_lt positive.ne').mpr small
      omega
  rw [FitsMantissa, width, pow_zero]
  exact one_dvd n

theorem fitsMantissa_mul {m : Nat} (k : Nat) (small : m < 2 ^ (spec.mantissaBitsWithoutImplicit + 1)) :
    FitsMantissa spec (2 ^ k * m) := by
  rcases Nat.eq_zero_or_pos m with rfl | positive
  · rw [Nat.mul_zero]
    exact fitsMantissa_of_lt (Nat.two_pow_pos _)
  · have bits := (Nat.log2_lt positive.ne').mpr small
    rw [FitsMantissa, log2_mul_two_pow positive.ne']
    exact (Nat.pow_dvd_pow 2 (by omega)).trans (Nat.dvd_mul_right _ _)

/-- Truncation leaves no more significant bits than the float had. -/
theorem truncate_fits {b : BitVec spec.numBits} {q : ℚ} (exact : exactValue b = some q) :
    FitsMantissa spec (truncate q).natAbs := by
  have magnitude (m : Nat) (e : Int) (small : m < 2 ^ (spec.mantissaBitsWithoutImplicit + 1)) :
      FitsMantissa spec (truncate ((m : ℚ) * 2 ^ e)).natAbs := by
    rcases Int.le_total 0 e with nonneg | nonpos
    · obtain ⟨k, rfl⟩ := Int.eq_ofNat_of_zero_le nonneg
      have integral : (m : ℚ) * 2 ^ (k : ℤ) = ((2 ^ k * m : Nat) : ℤ) := by
        push_cast
        rw [zpow_natCast]
        ring
      rw [integral, truncate_intCast, Int.natAbs_natCast]
      exact fitsMantissa_mul k small
    · obtain ⟨k, rfl⟩ : ∃ k : Nat, e = -k := ⟨(-e).toNat, by omega⟩
      have fraction : (m : ℚ) * 2 ^ (-k : ℤ) = (m : ℚ) / (2 ^ k : Nat) := by
        push_cast
        rw [zpow_neg, zpow_natCast]
        ring
      have nonneg : (0 : ℚ) ≤ (m : ℚ) / (2 ^ k : Nat) := by
        positivity
      have floor : ⌊(m : ℚ) / (2 ^ k : Nat)⌋ = ((m / 2 ^ k : Nat) : ℤ) := by
        exact_mod_cast Rat.floor_natCast_div_natCast m (2 ^ k)
      rw [fraction, truncate, if_pos nonneg, floor, Int.natAbs_natCast]
      exact fitsMantissa_of_lt ((Nat.div_le_self m _).trans_lt small)
  rcases unpack_cases b with ⟨_, h | h⟩ | ⟨_, h | ⟨m, e, positive, h⟩⟩
  · simp [exactValue, h] at exact
  · simp [exactValue, h] at exact
  · simp only [exactValue, h, Option.some.injEq] at exact
    rw [← exact]
    exact fitsMantissa_of_lt (by simp [truncate])
  · simp only [exactValue, h, Option.some.injEq] at exact
    have fits := magnitude m e (unpack_mantissa_lt h)
    rw [← exact]
    cases signOf b with
    | positive => simpa [Sign.apply] using fits
    | negative => simpa [Sign.apply, truncate_neg] using fits

end XMeterLogger.FloatInteger
