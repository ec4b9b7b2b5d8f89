import MessageSelector.Proofs.Doubles.Parts

/-!
# Rounding to a double

A number is rounded from the quotient of two naturals: the digits that the mantissa has no room for
are told by two bits, and `extended_shift` says that they go on telling how the quotient lies after
any number of digits is dropped. So the quotient becomes the whole number of units that is nearest
to it, `extended_rounded`. `units_bounds` says how large the quotient is in these units, and
`round_with_accuracy_eq` and `round_with_accuracy_zero` what it is rounded to.
-/

namespace MessageSelector.Double

open Float.Model Float.Model.UnpackedFloat
open Float.Model.Format (binary64)

/-! ## Quotients with two further bits -/

/-- The whole part of a quotient, with the bits that say how the quotient lies above it. -/
def extended (num den : Nat) : ExtendedMantissa :=
  .ofMantissaAndAccuracy (num / den) (accuracyOfFraction (num % den) den)

/-- The first bit is set from one half on, and the second one where that is not all. -/
theorem extended_eq (num : Nat) {den : Nat} (hden : 0 < den) :
    extended num den =
      ⟨num / den, decide (den ≤ 2 * (num % den)), decide (2 * (num % den) % den ≠ 0)⟩ := by
  have hlt : num % den < den := Nat.mod_lt num hden
  unfold extended accuracyOfFraction
  by_cases hzero : num % den = 0
  · rw [if_pos hzero, hzero]
    simp [ExtendedMantissa.ofMantissaAndAccuracy, Nat.ne_of_gt hden]
  · rw [if_neg hzero]
    rcases Nat.lt_trichotomy (2 * (num % den)) den with hhalf | hhalf | hhalf
    · rw [Nat.compare_eq_lt.mpr hhalf, Nat.mod_eq_of_lt hhalf]
      simp [ExtendedMantissa.ofMantissaAndAccuracy, hzero]
      omega
    · rw [Nat.compare_eq_eq.mpr hhalf, hhalf, Nat.mod_self]
      simp [ExtendedMantissa.ofMantissaAndAccuracy]
    · have hmod : 2 * (num % den) % den = 2 * (num % den) - den := by
        rw [Nat.mod_eq_sub_mod (Nat.le_of_lt hhalf), Nat.mod_eq_of_lt (by omega)]
      rw [Nat.compare_eq_gt.mpr hhalf, hmod]
      simp [ExtendedMantissa.ofMantissaAndAccuracy]
      omega

/-- One of the bits is set exactly where the quotient is not whole. -/
theorem extended_bits (num : Nat) {den : Nat} (hden : 0 < den) :
    (decide (den ≤ 2 * (num % den)) || decide (2 * (num % den) % den ≠ 0)) =
      decide (num % den ≠ 0) := by
  have hlt : num % den < den := Nat.mod_lt num hden
  rw [← Bool.decide_or, decide_eq_decide]
  constructor
  · rintro (hhalf | hmore) hzero
    · omega
    · exact hmore (by rw [hzero]; exact Nat.zero_mod den)
  · intro hne
    by_cases hhalf : den ≤ 2 * (num % den)
    · exact .inl hhalf
    · refine .inr ?_
      rw [Nat.mod_eq_of_lt (Nat.lt_of_not_le hhalf)]
      omega

/-- Dropping a digit of the whole part doubles the denominator. -/
theorem extended_shift_one (num : Nat) {den : Nat} (hden : 0 < den) :
    (extended num den).shiftRightOne = extended num (den * 2) := by
  have hlt : num % den < den := Nat.mod_lt num hden
  have hparts : num % (den * 2) = num % den + den * (num / den % 2) := Nat.mod_mul
  have hmod : 2 * (num % (den * 2)) % (den * 2) = 2 * (num % den) := by
    rw [Nat.mul_comm den 2, Nat.mul_mod_mul_left, Nat.mul_comm 2 den, hparts,
      Nat.add_mul_mod_self_left, Nat.mod_mod]
  rw [extended_eq num hden, extended_eq num (Nat.mul_pos hden (by decide)), hmod]
  unfold ExtendedMantissa.shiftRightOne
  rw [ExtendedMantissa.mk.injEq]
  -- The digit that is dropped becomes the first bit, and the two bits together the second one.
  refine ⟨Nat.div_div_eq_div_mul _ _ _, ?_, ?_⟩
  · rw [hparts]
    rcases Nat.mod_two_eq_zero_or_one (num / den) with heven | hodd
    · simp [heven]
      omega
    · simp [hodd]
      omega
  · rw [extended_bits num hden, decide_eq_decide]
    omega

/-- Dropping digits of the whole part multiplies the denominator. -/
theorem extended_shift (num : Nat) {den : Nat} (hden : 0 < den) (count : Nat) :
    extended num den >>> count = extended num (den * 2 ^ count) := by
  change count.repeat ExtendedMantissa.shiftRightOne _ = _
  induction count with
  | zero => rw [Nat.pow_zero, Nat.mul_one]; rfl
  | succ count ih =>
      have hpos : 0 < den * 2 ^ count := Nat.mul_pos hden (Nat.pow_pos (by decide))
      rw [Nat.repeat, ih, extended_shift_one num hpos, Nat.pow_succ, Nat.mul_assoc]

/-- Rounding goes by what is known above the whole part. -/
theorem rounded_of_accuracy (n : Nat) (accuracy : Accuracy) :
    (ExtendedMantissa.ofMantissaAndAccuracy n accuracy).roundedMantissa =
      accuracy.roundToNearestEven n := by
  rcases accuracy with _ | _ | _ | _ <;> rfl

/-- A quotient rounds to what lies nearest to it, to the even one of two that are equally near. -/
theorem extended_rounded {num den n : Nat} (hden : 0 < den) (hlow : 2 * n * den ≤ 2 * num + den)
    (hhigh : 2 * num ≤ (2 * n + 1) * den)
    (htie : n % 2 = 1 → 2 * n * den < 2 * num + den ∧ 2 * num < (2 * n + 1) * den) :
    (extended num den).roundedMantissa = n := by
  obtain ⟨whole, rest, hwhole, hrest⟩ : ∃ whole rest, num / den = whole ∧ num % den = rest :=
    ⟨_, _, rfl, rfl⟩
  have hlt : rest < den := hrest ▸ Nat.mod_lt num hden
  have hnum : num = whole * den + rest := by
    rw [← hwhole, ← hrest, Nat.mul_comm]
    exact (Nat.div_add_mod num den).symm
  have hle : whole ≤ n := by
    by_contra hgt
    have hmul : (n + 1) * den ≤ whole * den := Nat.mul_le_mul_right den (by omega)
    have hgoal : (2 * n + 1) * den < 2 * ((n + 1) * den) := by
      rw [← Nat.mul_assoc]
      exact Nat.mul_lt_mul_of_pos_right (by omega) hden
    omega
  have hge : n ≤ whole + 1 := by
    by_contra hgt
    have hmul : (whole + 2) * den ≤ n * den := Nat.mul_le_mul_right den (by omega)
    rw [Nat.mul_assoc] at hlow
    rw [Nat.add_mul] at hmul
    omega
  unfold extended accuracyOfFraction
  rw [hwhole, hrest, rounded_of_accuracy]
  rcases Nat.lt_or_eq_of_le hle with hcarry | rfl
  · -- The quotient lies in the upper half, so the next number is nearer or is the even one.
    obtain rfl : n = whole + 1 := by omega
    rw [hnum] at hlow htie
    have hhalf : den ≤ 2 * rest := by
      have hexpand : 2 * (whole + 1) * den = 2 * (whole * den) + 2 * den := by ring
      omega
    rw [if_neg (by omega)]
    rcases Nat.lt_or_eq_of_le hhalf with hmore | heq
    · rw [Nat.compare_eq_gt.mpr hmore]
      rfl
    · rw [Nat.compare_eq_eq.mpr heq.symm]
      change whole + whole % 2 = whole + 1
      have hexpand : 2 * (whole + 1) * den = 2 * (whole * den) + 2 * den := by ring
      omega
  · -- The quotient lies in the lower half.
    rw [hnum] at hhigh htie
    have hhalf : 2 * rest ≤ den := by
      have hexpand : (2 * whole + 1) * den = 2 * (whole * den) + den := by ring
      omega
    split
    · rfl
    · rcases Nat.lt_or_eq_of_le hhalf with hless | heq
      · rw [Nat.compare_eq_lt.mpr hless]
        rfl
      · rw [Nat.compare_eq_eq.mpr heq]
        change whole + whole % 2 = whole
        have hexpand : (2 * whole + 1) * den = 2 * (whole * den) + den := by ring
        omega

/-! ## The two shifts of rounding -/

/-- The exponent that a number with its first digit at the given place has as a double. -/
theorem target_exponent_eq (total : Int) :
    binary64.targetExponent total = max (total - 53) (-1074) :=
  rfl

/-- A shift drops digits down to the exponent that the number has as a double. -/
theorem shift_eq {num den : Nat} {exponent target : Int} (hden : 0 < den)
    (htarget : binary64.targetExponent (totalExponent (num / den) exponent) = target)
    (hle : exponent ≤ target) :
    shiftToTargetExponent binary64 (num / den) exponent (accuracyOfFraction (num % den) den) =
      (extended num (den * 2 ^ (target - exponent).toNat), target) := by
  unfold shiftToTargetExponent shiftToExponent
  rw [htarget, ← extended_shift num hden]
  refine Prod.ext rfl ?_
  change exponent + ((target - exponent).toNat : Int) = target
  omega

/-- A shift of a whole number. -/
theorem shift_exact_eq {n : Nat} {exponent target : Int}
    (htarget : binary64.targetExponent (totalExponent n exponent) = target)
    (hle : exponent ≤ target) :
    shiftToTargetExponent binary64 n exponent .exact =
      (extended n (2 ^ (target - exponent).toNat), target) := by
  have h : shiftToTargetExponent binary64 (n / 1) exponent (accuracyOfFraction (n % 1) 1) = _ :=
    shift_eq (by decide) (by rwa [Nat.div_one]) hle
  rwa [Nat.div_one, Nat.mod_one, Nat.one_mul] at h

/-- The whole part is what the denominator goes into. -/
theorem extended_mantissa (num den : Nat) : (extended num den).mantissa = num / den := by
  unfold extended
  rcases accuracyOfFraction (num % den) den with _ | _ | _ | _ <;> rfl

/-- Parts with the digits and the exponent of a double are not shifted. -/
theorem shift_parts {mantissa : Nat} {exponent : Int} (hpos : 0 < mantissa)
    (hlt : mantissa < 2 ^ 53) (hnormal : 2 ^ 52 ≤ mantissa ∨ exponent = -1074)
    (hge : -1074 ≤ exponent) :
    (shiftToTargetExponent binary64 mantissa exponent .exact).1.mantissa = mantissa ∧
      (shiftToTargetExponent binary64 mantissa exponent .exact).2 = exponent := by
  have hlog : mantissa.log2 < 53 := (Nat.log2_lt (Nat.ne_of_gt hpos)).mpr hlt
  have htarget : binary64.targetExponent (totalExponent mantissa exponent) = exponent := by
    rw [target_exponent_eq, totalExponent]
    rcases hnormal with hnormal | rfl
    · have hlog' : 52 ≤ mantissa.log2 := (Nat.le_log2 (Nat.ne_of_gt hpos)).mpr hnormal
      omega
    · omega
  rw [shift_exact_eq htarget (Int.le_refl exponent), Int.sub_self]
  exact ⟨(extended_mantissa _ _).trans (Nat.div_one mantissa), rfl⟩

/-- A carry into the next power of two is shifted out again. -/
theorem shift_carry {exponent : Int} (hge : -1074 ≤ exponent) :
    (shiftToTargetExponent binary64 (2 ^ 53) exponent .exact).1.mantissa = 2 ^ 52 ∧
      (shiftToTargetExponent binary64 (2 ^ 53) exponent .exact).2 = exponent + 1 := by
  have htarget : binary64.targetExponent (totalExponent (2 ^ 53) exponent) = exponent + 1 := by
    rw [target_exponent_eq, totalExponent, Nat.log2_two_pow]
    omega
  rw [shift_exact_eq htarget (by omega), show (exponent + 1 - exponent).toNat = 1 by omega]
  exact ⟨extended_mantissa _ _, rfl⟩

/-- Rounding drops digits to the exponent that the number has as a double, rounds what is left, and
shifts a carry out. -/
theorem round_with_accuracy_eq {num den rounded mantissa : Nat} {exponent target final : Int}
    {sign : UnpackedFloat.Sign} (hden : 0 < den) (hpos : 0 < mantissa)
    (htarget : binary64.targetExponent (totalExponent (num / den) exponent) = target)
    (hle : exponent ≤ target)
    (hrounded : (extended num (den * 2 ^ (target - exponent).toNat)).roundedMantissa = rounded)
    (hshift : (shiftToTargetExponent binary64 rounded target .exact).1.mantissa = mantissa ∧
      (shiftToTargetExponent binary64 rounded target .exact).2 = final) :
    roundWithAccuracy binary64 sign (num / den) exponent (accuracyOfFraction (num % den) den) =
      .finite sign mantissa final hpos := by
  unfold roundWithAccuracy
  rw [shift_eq hden htarget hle]
  dsimp only
  rw [hrounded]
  simp only [hshift.1, hshift.2]
  rw [dif_neg (Nat.ne_of_gt hpos)]

/-- What is rounded to no units at all is zero. -/
theorem round_with_accuracy_zero {num den : Nat} {exponent target : Int}
    {sign : UnpackedFloat.Sign} (hden : 0 < den)
    (htarget : binary64.targetExponent (totalExponent (num / den) exponent) = target)
    (hle : exponent ≤ target)
    (hrounded : (extended num (den * 2 ^ (target - exponent).toNat)).roundedMantissa = 0) :
    roundWithAccuracy binary64 sign (num / den) exponent (accuracyOfFraction (num % den) den) =
      .zero sign := by
  have hshift : (shiftToTargetExponent binary64 0 target .exact).1.mantissa = 0 := by
    unfold shiftToTargetExponent shiftToExponent
    change ((extended 0 1 >>> _ : ExtendedMantissa)).mantissa = 0
    rw [extended_shift 0 (by decide), extended_mantissa, Nat.zero_div]
  unfold roundWithAccuracy
  rw [shift_eq hden htarget hle]
  dsimp only
  rw [hrounded]
  exact dif_pos hshift

/-! ## The place of a quotient -/

section Units

variable {num den : Nat} {exponent target : Int}

/-- A quotient with a unit is below the power of two that its digits reach up to. -/
theorem quotient_lt (num : Nat) (exponent : Int) (hden : 0 < den) :
    (num / den : ℚ) * 2 ^ exponent < 2 ^ totalExponent (num / den) exponent := by
  have hnat : num < 2 ^ ((num / den).log2 + 1) * den :=
    (Nat.div_lt_iff_lt_mul hden).mp Nat.lt_log2_self
  have hrat : (num : ℚ) < 2 ^ ((num / den).log2 + 1) * den := by exact_mod_cast hnat
  have hpos : (0 : ℚ) < den := by exact_mod_cast hden
  have hdiv : (num / den : ℚ) < 2 ^ ((num / den).log2 + 1) := (div_lt_iff₀ hpos).mpr hrat
  have hunit : (0 : ℚ) < 2 ^ exponent := by positivity
  unfold totalExponent
  rw [zpow_add₀ (by norm_num)]
  have hmul := mul_lt_mul_of_pos_right hdiv hunit
  exact_mod_cast hmul

/-- A quotient with a unit reaches the power of two that its first digit stands for. -/
theorem le_quotient (exponent : Int) (hden : 0 < den) (hquotient : num / den ≠ 0) :
    (2 : ℚ) ^ (totalExponent (num / den) exponent - 1) ≤ (num / den : ℚ) * 2 ^ exponent := by
  have hnat : 2 ^ (num / den).log2 * den ≤ num := by
    have hlog := Nat.log2_self_le hquotient
    exact (Nat.mul_le_mul_right den hlog).trans (Nat.div_mul_le_self num den)
  have hrat : (2 : ℚ) ^ (num / den).log2 * den ≤ num := by exact_mod_cast hnat
  have hpos : (0 : ℚ) < den := by exact_mod_cast hden
  have hdiv : (2 : ℚ) ^ (num / den).log2 ≤ num / den := (le_div_iff₀ hpos).mpr hrat
  have hunit : (0 : ℚ) < 2 ^ exponent := by positivity
  have hexponent : totalExponent (num / den) exponent - 1 = (num / den).log2 + exponent := by
    unfold totalExponent
    omega
  rw [hexponent, zpow_add₀ (by norm_num), zpow_natCast]
  exact mul_le_mul_of_nonneg_right hdiv hunit.le

/-- A quotient with a unit in its place as a double: a number of units below the next power of two,
and not below the least of them but at the least exponent. -/
theorem units_bounds (hden : 0 < den)
    (htarget : binary64.targetExponent (totalExponent (num / den) exponent) = target)
    (hle : exponent ≤ target) :
    ∃ q : ℚ, 0 ≤ q ∧ (num / den : ℚ) * 2 ^ exponent = q * 2 ^ target ∧
      q = num / (den * 2 ^ (target - exponent).toNat : Nat) ∧ q < 2 ^ 53 ∧
        (target = -1074 ∨ -1074 < target ∧ 2 ^ 52 ≤ q) := by
  have hunit : (0 : ℚ) < 2 ^ target := by positivity
  rw [target_exponent_eq] at htarget
  obtain ⟨q, hq⟩ : ∃ q : ℚ, num / (den * 2 ^ (target - exponent).toNat : Nat) = q := ⟨_, rfl⟩
  have hx : (num / den : ℚ) * 2 ^ exponent = q * 2 ^ target := by
    have hshift : target = exponent + ((target - exponent).toNat : Int) := by omega
    rw [← hq]
    nth_rewrite 2 [hshift]
    rw [zpow_add₀ (by norm_num), zpow_natCast]
    push_cast
    field_simp
  refine ⟨q, hq ▸ by positivity, hx, hq.symm, ?_, ?_⟩
  · have hupper := quotient_lt num exponent hden
    have htop : (2 : ℚ) ^ totalExponent (num / den) exponent ≤ 2 ^ (53 + target) :=
      zpow_le_zpow_right₀ (by norm_num) (by omega)
    rw [zpow_add₀ (by norm_num)] at htop
    rw [hx] at hupper
    exact_mod_cast lt_of_mul_lt_mul_right (hupper.trans_le htop) hunit.le
  · by_cases hleast : target = -1074
    · exact .inl hleast
    · have hquotient : num / den ≠ 0 := by
        intro hzero
        rw [hzero, totalExponent] at htarget
        simp at htarget
        omega
      have hlower := le_quotient exponent hden hquotient
      have hfirst : totalExponent (num / den) exponent - 1 = 52 + target := by omega
      rw [hfirst, hx, zpow_add₀ (by norm_num)] at hlower
      exact .inr ⟨by omega, by exact_mod_cast le_of_mul_le_mul_right hlower hunit⟩

end Units

end MessageSelector.Double
