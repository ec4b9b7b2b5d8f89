import MessageSelector.Decimal
import MessageSelector.Proofs.Doubles.Nearest

/-!
# Rounding a decimal number

A decimal number becomes the double nearest to it, whichever way its digits and its power of ten are
put together: as doubles where both are exact, and as numbers of any size otherwise. Where it is far
beyond the doubles or far too small for them, the bounds on its digits tell so.
-/

namespace MessageSelector

/-- The number that a decimal stands for. -/
def Decimal.value (x : Decimal) : ℚ :=
  x.digits * 10 ^ x.exponent

namespace Double

open Float.Model Float.Model.UnpackedFloat
open Float.Model.Format (binary64)

variable {mantissa : Nat} {final : Int}

/-! ## Products and quotients -/

/-- A product of positive numbers becomes what is nearest to it. -/
theorem nearest_of_mul {m₁ m₂ : Nat} (e₁ e₂ : Int) (h₁ : 0 < m₁) (h₂ : 0 < m₂)
    (hdigits : 2 ^ 52 ≤ m₁ * m₂) :
    NearestTo (m₁ * 2 ^ e₁ * (m₂ * 2 ^ e₂)) (UnpackedFloat.unpack binary64
      (UnpackedFloat.pack binary64 (UnpackedFloat.mul binary64 (.finite .positive m₁ e₁ h₁)
        (.finite .positive m₂ e₂ h₂)))) := by
  have hvalue : (m₁ * 2 ^ e₁ * (m₂ * 2 ^ e₂) : ℚ) = ((m₁ * m₂ : Nat) : ℚ) * 2 ^ (e₁ + e₂) := by
    rw [zpow_add₀ (by norm_num)]
    push_cast
    ring
  have hlog : 52 ≤ (m₁ * m₂).log2 :=
    (Nat.le_log2 (Nat.ne_of_gt (Nat.mul_pos h₁ h₂))).mpr hdigits
  rw [hvalue]
  refine nearest_of_round_exact ?_
  rw [target_exponent_eq, totalExponent]
  omega

/-- A quotient has at least as many binary digits as the numbers of digits leave it. -/
theorem log2_le_quotient (num : Nat) {den : Nat} (hden : 0 < den) :
    num.log2 ≤ (num / den).log2 + 1 + den.log2 := by
  rcases Nat.eq_zero_or_pos num with rfl | hnum
  · simp
  · have hquotient : num < 2 ^ ((num / den).log2 + 1) * den :=
      (Nat.div_lt_iff_lt_mul hden).mp Nat.lt_log2_self
    have hproduct : num < 2 ^ ((num / den).log2 + 1 + (den.log2 + 1)) := by
      rw [Nat.pow_add]
      exact hquotient.trans (Nat.mul_lt_mul_of_pos_left Nat.lt_log2_self (Nat.pow_pos (by decide)))
    have hlog := (Nat.log2_lt (Nat.ne_of_gt hnum)).mpr hproduct
    omega

/-- A quotient of positive numbers becomes what is nearest to it. -/
theorem nearest_of_div {m₁ m₂ : Nat} (e₁ e₂ : Int) (h₁ : 0 < m₁) (h₂ : 0 < m₂) :
    NearestTo (m₁ * 2 ^ e₁ / (m₂ * 2 ^ e₂)) (UnpackedFloat.unpack binary64
      (UnpackedFloat.pack binary64 (UnpackedFloat.div binary64 (.finite .positive m₁ e₁ h₁)
        (.finite .positive m₂ e₂ h₂)))) := by
  obtain ⟨exponent, hexponent⟩ : ∃ exponent, min (e₁ - e₂) (binary64.targetExponent
      (totalExponent m₁ e₁ - totalExponent m₂ e₂)) = exponent := ⟨_, rfl⟩
  obtain ⟨shift, hshift⟩ : ∃ shift, (e₁ - e₂ - exponent).toNat = shift := ⟨_, rfl⟩
  have hsum : e₁ - e₂ = exponent + (shift : Int) := by omega
  have hvalue : (m₁ * 2 ^ e₁ / (m₂ * 2 ^ e₂) : ℚ) =
      ((m₁ * 2 ^ shift : Nat) : ℚ) / m₂ * 2 ^ exponent := by
    have hpowers : (2 : ℚ) ^ e₁ = 2 ^ e₂ * (2 ^ exponent * 2 ^ shift) := by
      rw [← zpow_natCast, ← zpow_add₀ (by norm_num), ← zpow_add₀ (by norm_num), ← hsum]
      congr 1
      omega
    rw [hpowers]
    push_cast
    field_simp
  -- The numerator is shifted until the quotient has all the digits of a mantissa.
  have hscaled : m₁.log2 + shift ≤ (m₁ * 2 ^ shift).log2 := by
    have hscaledPos : 0 < m₁ * 2 ^ shift := Nat.mul_pos h₁ (Nat.pow_pos (by decide))
    rw [Nat.le_log2 (Nat.ne_of_gt hscaledPos), Nat.pow_add]
    exact Nat.mul_le_mul_right _ (Nat.log2_self_le (Nat.ne_of_gt h₁))
  have hlog := log2_le_quotient (m₁ * 2 ^ shift) h₂
  unfold UnpackedFloat.div divCore
  dsimp only
  rw [hexponent, hshift, Nat.shiftLeft_eq]
  rw [hvalue]
  refine nearest_of_round h₂ ?_
  rw [target_exponent_eq] at hexponent ⊢
  unfold totalExponent at hexponent ⊢
  omega

/-! ## Decimal numbers of any size -/

/-- Powers of two bases that are in order stay so at exponents in the same ratio. -/
theorem pow_le_pow_of_ratio {a b p q m n : Nat} (hp : p ≠ 0) (hb : 0 < b) (h : a ^ p ≤ b ^ q)
    (hratio : q * m ≤ n * p) : a ^ m ≤ b ^ n := by
  refine (Nat.pow_le_pow_iff_left hp).mp ?_
  calc
    (a ^ m) ^ p = (a ^ p) ^ m := by rw [← Nat.pow_mul, ← Nat.pow_mul, Nat.mul_comm]
    _ ≤ (b ^ q) ^ m := Nat.pow_le_pow_left h m
    _ = b ^ (q * m) := (Nat.pow_mul ..).symm
    _ ≤ b ^ (n * p) := Nat.pow_le_pow_right hb hratio
    _ = (b ^ n) ^ p := Nat.pow_mul ..

/-- The decimal logarithm of two is a little less than 0.30103. -/
theorem two_pow_le_ten_pow {bits power : Nat} (hratio : 30103 * bits ≤ power * 100000) :
    2 ^ bits ≤ 10 ^ power :=
  pow_le_pow_of_ratio (by decide) (by decide)
    (show 2 ^ 100000 ≤ 10 ^ 30103 by decide +kernel) hratio

/-- The bound on the digits of a number is one. -/
theorem lt_ten_pow_digit_bound (digits : Nat) : digits < 10 ^ Decimal.digitBound digits := by
  refine Nat.lt_log2_self.trans_le (two_pow_le_ten_pow ?_)
  unfold Decimal.digitBound
  omega

/-- Powers of two and of ten that are in order stay so, and their inverses are in the other
order. -/
theorem two_zpow_le_ten_zpow {twos tens : Nat} (h : 2 ^ twos ≤ 10 ^ tens) :
    (2 : ℚ) ^ (twos : Int) ≤ 10 ^ (tens : Int) ∧
      (10 : ℚ) ^ (-(tens : Int)) ≤ 2 ^ (-(twos : Int)) := by
  have hrat : (2 : ℚ) ^ twos ≤ 10 ^ tens := by exact_mod_cast h
  rw [zpow_neg, zpow_neg, zpow_natCast, zpow_natCast]
  exact ⟨hrat, inv_anti₀ (by positivity) hrat⟩

/-- A decimal number with digits is no less than its power of ten. -/
theorem le_decimal {digits : Nat} (hdigits : digits ≠ 0) (exponent : Int) :
    (10 : ℚ) ^ exponent ≤ digits * 10 ^ exponent := by
  have hone : (1 : ℚ) ≤ digits := by exact_mod_cast Nat.pos_of_ne_zero hdigits
  exact le_mul_of_one_le_left (by positivity) hone

/-- A decimal number of so large an exponent is beyond all doubles. -/
theorem nearest_of_large {digits : Nat} {exponent : Int} (hdigits : digits ≠ 0)
    (h : 309 ≤ exponent) : NearestTo (digits * 10 ^ exponent) (.infinity .positive) := by
  have hgreatest : 2 ^ 1024 ≤ 10 ^ 309 := two_pow_le_ten_pow (by decide)
  refine .infinity ?_
  calc
    ((2 ^ 54 - 1) * 2 ^ (970 : Int) : ℚ) ≤ 2 ^ 54 * 2 ^ (970 : Int) :=
      mul_le_mul_of_nonneg_right (by norm_num) (by positivity)
    _ = 2 ^ ((1024 : Nat) : Int) := by rw [← zpow_natCast, ← zpow_add₀ (by norm_num)]; rfl
    _ ≤ 10 ^ ((309 : Nat) : Int) := (two_zpow_le_ten_zpow hgreatest).1
    _ ≤ 10 ^ exponent := zpow_le_zpow_right₀ (by norm_num) (by exact_mod_cast h)
    _ ≤ digits * 10 ^ exponent := le_decimal hdigits exponent

/-- A decimal number of so few digits and so small an exponent is nearest to zero. -/
theorem nearest_of_small {digits bound : Nat} {exponent : Int} (hdigits : digits < 10 ^ bound)
    (h : bound + exponent ≤ -324) : NearestTo (digits * 10 ^ exponent) (.zero .positive) := by
  have hleast : 2 ^ 1075 ≤ 10 ^ 324 := two_pow_le_ten_pow (by decide)
  have hbound : (digits : ℚ) ≤ 10 ^ bound := by exact_mod_cast hdigits.le
  refine .zero ?_
  calc
    (digits * 10 ^ exponent : ℚ) ≤ 10 ^ bound * 10 ^ exponent :=
      mul_le_mul_of_nonneg_right hbound (by positivity)
    _ = 10 ^ (bound + exponent) := by rw [zpow_add₀ (by norm_num), zpow_natCast]
    _ ≤ 10 ^ (-((324 : Nat) : Int)) := zpow_le_zpow_right₀ (by norm_num) h
    _ ≤ 2 ^ (-((1075 : Nat) : Int)) := (two_zpow_le_ten_zpow hleast).2

/-- A decimal number of any size becomes what is nearest to it. -/
theorem nearest_of_scientific (digits : Nat) (exponent : Int) :
    NearestTo (digits * 10 ^ exponent) (UnpackedFloat.unpack binary64
      (UnpackedFloat.pack binary64 (UnpackedFloat.ofScientific binary64 digits exponent))) := by
  unfold UnpackedFloat.ofScientific
  split
  · next hzero =>
      rw [hzero, Nat.cast_zero, zero_mul]
      exact .zero (by positivity)
  next hdigits =>
  split
  · next hlarge =>
      have hexponent : 309 ≤ exponent := by
        simp at hlarge
        omega
      exact nearest_of_large hdigits hexponent
  split
  · next hsmall =>
      have hbound : digits < 10 ^ (digits.log2 + 1) :=
        Nat.lt_log2_self.trans_le (Nat.pow_le_pow_left (by decide) _)
      refine nearest_of_small hbound ?_
      simp at hsmall
      push_cast
      omega
  split
  · next hnonneg =>
      obtain ⟨power, rfl⟩ := Int.eq_ofNat_of_zero_le hnonneg
      have hreach : 2 ^ 52 ≤ digits <<< binary64.mantissaBits * 10 ^ (power : Int).toNat := by
        have hone : 1 ≤ digits := Nat.pos_of_ne_zero hdigits
        rw [Nat.shiftLeft_eq]
        calc
          2 ^ 52 ≤ 1 * 2 ^ 53 * 1 := by decide
          _ ≤ digits * 2 ^ binary64.mantissaBits * 10 ^ (power : Int).toNat :=
            Nat.mul_le_mul (Nat.mul_le_mul hone (Nat.le_refl _)) (Nat.pow_pos (by decide))
      convert nearest_of_mul _ _ _ _ hreach using 1
      rw [Nat.shiftLeft_eq, zpow_neg, Int.toNat_natCast, zpow_natCast, zpow_natCast]
      push_cast
      field_simp
  · next hneg =>
      obtain ⟨power, hpower⟩ := Int.eq_ofNat_of_zero_le (show 0 ≤ -exponent by omega)
      obtain rfl : exponent = -(power : Int) := by omega
      convert nearest_of_div _ _ _ _ using 1
      rw [hpower, Int.toNat_natCast, zpow_neg, zpow_natCast, zpow_zero]
      push_cast
      field_simp

/-! ## Exact doubles -/

/-- A positive double that is exactly the given number. -/
def IsExactly (x : Float) (value : ℚ) : Prop :=
  ∃ mantissa exponent, ∃ hpos : 0 < mantissa,
    parts x = .finite .positive mantissa exponent hpos ∧ 2 ^ 52 ≤ mantissa ∧
      (mantissa * 2 ^ exponent : ℚ) = value

/-- A natural number of no more than 53 binary digits is a double. -/
theorem is_exactly_nat {n : Nat} (hpos : 0 < n) (hlt : n < 2 ^ 53) :
    IsExactly n.toUInt64.toFloat n := by
  -- Shifted so far, the first digit is that of a mantissa.
  obtain ⟨shift, hshift⟩ : ∃ shift, 52 - n.log2 = shift := ⟨_, rfl⟩
  have hlog : n.log2 < 53 := (Nat.log2_lt (Nat.ne_of_gt hpos)).mpr hlt
  have hscaled : 0 < n * 2 ^ shift := Nat.mul_pos hpos (Nat.pow_pos (by decide))
  have hreach : 2 ^ 52 ≤ n * 2 ^ shift := by
    calc
      2 ^ 52 = 2 ^ n.log2 * 2 ^ shift := by rw [← Nat.pow_add]; congr 1; omega
      _ ≤ n * 2 ^ shift := Nat.mul_le_mul_right _ (Nat.log2_self_le (Nat.ne_of_gt hpos))
  have hbelow : n * 2 ^ shift < 2 ^ 53 := by
    calc
      n * 2 ^ shift < 2 ^ (n.log2 + 1) * 2 ^ shift :=
        Nat.mul_lt_mul_of_pos_right Nat.lt_log2_self (Nat.pow_pos (by decide))
      _ = 2 ^ 53 := by rw [← Nat.pow_add]; congr 1; omega
  have hcanonical : Canonical (n * 2 ^ shift) (-(shift : Int)) :=
    ⟨hbelow, .inl hreach, by omega, by omega⟩
  have hvalue : ((n * 2 ^ shift : Nat) : ℚ) * 2 ^ (-(shift : Int)) = n := by
    rw [zpow_neg, zpow_natCast]
    push_cast
    field_simp
  have hround : UnpackedFloat.ofUInt64 binary64 n.toUInt64 =
      roundWithAccuracy binary64 .positive (n * 2 ^ shift) (-(shift : Int)) .exact := by
    have hword : n.toUInt64.toNat = n := Nat.mod_eq_of_lt (by omega)
    have htarget : binary64.targetExponent (totalExponent n 0) = -(shift : Int) := by
      rw [target_exponent_eq, totalExponent]
      omega
    have hsign : compare (n : Int) 0 = .gt := Int.compare_eq_gt.mpr (by omega)
    unfold UnpackedFloat.ofUInt64 UnpackedFloat.ofNat UnpackedFloat.ofInt UnpackedFloat.normalize
    rw [hword, hsign]
    dsimp only
    unfold UnpackedFloat.round decreaseExponent
    rw [Int.toNat_natCast, htarget]
    dsimp only
    rw [Nat.shiftLeft_eq, show (0 - -(shift : Int)).toNat = shift by omega,
      show 0 - (shift : Int) = -(shift : Int) by omega]
  have hplace : -(shift : Int) ≤
      binary64.targetExponent (totalExponent (n * 2 ^ shift) (-(shift : Int))) := by
    have hdigits : 52 ≤ (n * 2 ^ shift).log2 := (Nat.le_log2 (Nat.ne_of_gt hscaled)).mpr hreach
    rw [target_exponent_eq, totalExponent]
    omega
  refine ⟨n * 2 ^ shift, -(shift : Int), hscaled, ?_, hreach, hvalue⟩
  change UnpackedFloat.unpack binary64 (UnpackedFloat.pack binary64
    (UnpackedFloat.ofUInt64 binary64 n.toUInt64)) = _
  rw [hround]
  exact (nearest_of_round_exact hplace).unique (.finite hscaled hcanonical (RoundsTo.self _ _))

/-- The bits of the powers of ten in the table. -/
theorem power_bits : ∀ power : Fin Float.exactlyRepresentablePowersOfTen.size,
    let bits := Float.exactlyRepresentablePowersOfTen[power].toBits.toNat
    bits < 2 ^ 63 ∧ 1023 ≤ bits / 2 ^ 52 ∧ bits / 2 ^ 52 < 2047 ∧
      (2 ^ 52 + bits % 2 ^ 52) * 2 ^ (bits / 2 ^ 52 - 1023) = 10 ^ power.val * 2 ^ 52 := by
  decide +kernel

/-- The powers of ten in the table are doubles. -/
theorem is_exactly_power (power : Nat) (h : power < Float.exactlyRepresentablePowersOfTen.size) :
    IsExactly Float.exactlyRepresentablePowersOfTen[power] (10 ^ power) := by
  obtain ⟨bits, hbits⟩ : ∃ bits, Float.exactlyRepresentablePowersOfTen[power].toBits.toNat = bits :=
    ⟨_, rfl⟩
  have hpower := power_bits ⟨power, h⟩
  simp only [Fin.getElem_fin, hbits] at hpower
  obtain ⟨hsign, hge, hlt, hvalue⟩ := hpower
  obtain ⟨shift, hshift⟩ : ∃ shift, bits / 2 ^ 52 - 1023 = shift := ⟨_, rfl⟩
  rw [hshift] at hvalue
  refine ⟨2 ^ 52 + bits % 2 ^ 52, (shift : Int) - 52, by omega, ?_, by omega, ?_⟩
  · have hexponent : ((bits / 2 ^ 52 % 2 ^ 11 : Nat) : Int) - 1075 = shift - 52 := by omega
    rw [parts_eq, hbits, ofBits, if_neg (by omega), if_neg (by omega), signOf, if_pos hsign,
      hexponent]
  · have hrat : ((2 ^ 52 + bits % 2 ^ 52 : Nat) : ℚ) * 2 ^ shift = 10 ^ power * 2 ^ 52 := by
      exact_mod_cast hvalue
    rw [zpow_sub₀ (by norm_num), zpow_natCast, mul_div_assoc', hrat]
    norm_num

/-- A product of exact doubles is what is nearest to the product. -/
theorem nearest_of_exact_mul {x y : Float} {a b : ℚ} (hx : IsExactly x a) (hy : IsExactly y b) :
    NearestTo (a * b) (parts (x * y)) := by
  obtain ⟨m₁, e₁, h₁, hxParts, hbig, rfl⟩ := hx
  obtain ⟨m₂, e₂, h₂, hyParts, -, rfl⟩ := hy
  have hproduct := nearest_of_mul e₁ e₂ h₁ h₂
    (hbig.trans (Nat.le_mul_of_pos_right m₁ h₂))
  rw [← hxParts, ← hyParts] at hproduct
  exact hproduct

/-- A quotient of exact doubles is what is nearest to the quotient. -/
theorem nearest_of_exact_div {x y : Float} {a b : ℚ} (hx : IsExactly x a) (hy : IsExactly y b) :
    NearestTo (a / b) (parts (x / y)) := by
  obtain ⟨m₁, e₁, h₁, hxParts, -, rfl⟩ := hx
  obtain ⟨m₂, e₂, h₂, hyParts, -, rfl⟩ := hy
  have hquotient := nearest_of_div e₁ e₂ h₁ h₂
  rw [← hxParts, ← hyParts] at hquotient
  exact hquotient

/-! ## The double of a decimal number -/

/-- A scientific literal is the double nearest to it. -/
theorem nearest_of_literal {digits : Nat} (hdigits : digits ≠ 0) (exponent : Int) :
    NearestTo (digits * 10 ^ exponent)
      (parts (Float.ofScientific digits (exponent < 0) exponent.natAbs)) := by
  unfold Float.ofScientific
  split
  · next hsmall =>
      have hdigitsExact := is_exactly_nat (Nat.pos_of_ne_zero hdigits) hsmall.1
      have hsize : Float.exactlyRepresentablePowersOfTen.size = 23 := rfl
      have hpower := is_exactly_power exponent.natAbs (by omega)
      dsimp only
      split
      · next hneg =>
          rw [decide_eq_true_eq] at hneg
          have hvalue : (10 : ℚ) ^ exponent = (10 ^ exponent.natAbs)⁻¹ := by
            rw [← zpow_natCast, ← zpow_neg]
            congr 1
            omega
          rw [hvalue, ← div_eq_mul_inv]
          exact nearest_of_exact_div hdigitsExact hpower
      · next hnonneg =>
          rw [decide_eq_true_eq] at hnonneg
          have hvalue : (10 : ℚ) ^ exponent = 10 ^ exponent.natAbs := by
            rw [← zpow_natCast]
            congr 1
            omega
          rw [hvalue]
          exact nearest_of_exact_mul hdigitsExact hpower
  · have hexponent : (if decide (exponent < 0) = true then Int.negOfNat exponent.natAbs
        else Int.ofNat exponent.natAbs) = exponent := by
      split
      · next hneg =>
          rw [decide_eq_true_eq] at hneg
          rw [Int.negOfNat_eq, Int.ofNat_eq_natCast]
          omega
      · next hnonneg =>
          rw [decide_eq_true_eq] at hnonneg
          exact Int.natAbs_of_nonneg (Int.not_lt.mp hnonneg)
    change NearestTo _ (UnpackedFloat.unpack binary64 (UnpackedFloat.pack binary64
      (UnpackedFloat.ofScientific binary64 digits _)))
    rw [hexponent]
    exact nearest_of_scientific digits exponent

/-- A decimal number becomes the double that is nearest to it. -/
theorem nearest_of_decimal (x : Decimal) : NearestTo x.value (parts x.toFloat) := by
  unfold Decimal.toFloat Decimal.value
  split
  · next hsmall =>
      rw [parts_zero]
      simp only [Bool.or_eq_true, decide_eq_true_eq] at hsmall
      rcases hsmall with hzero | hsmall
      · rw [hzero, Nat.cast_zero, zero_mul]
        exact .zero (by positivity)
      · exact nearest_of_small (lt_ten_pow_digit_bound x.digits) (by omega)
  next hdigits =>
  have hdigits : x.digits ≠ 0 := by
    rintro hzero
    simp [hzero] at hdigits
  split
  · next hlarge => exact nearest_of_large hdigits (by omega)
  · exact nearest_of_literal hdigits x.exponent

/-- A scientific literal is the double that lies nearest to it. -/
theorem parts_scientific {digits : Nat} {exponent : Int} (hdigits : digits ≠ 0)
    (hpos : 0 < mantissa) (h : Canonical mantissa final)
    (hrounds : RoundsTo (digits * 10 ^ exponent) mantissa final) :
    parts (Float.ofScientific digits (exponent < 0) exponent.natAbs) =
      .finite .positive mantissa final hpos :=
  (nearest_of_literal hdigits exponent).unique (.finite hpos h hrounds)

/-- A decimal number that lies nearest to a finite double becomes that double. -/
theorem parts_to_float {x : Decimal} (hpos : 0 < mantissa) (h : Canonical mantissa final)
    (hrounds : RoundsTo x.value mantissa final) :
    parts x.toFloat = .finite .positive mantissa final hpos :=
  (nearest_of_decimal x).unique (.finite hpos h hrounds)

/-! ## Signs -/

/-- A number that is not written with a minus. -/
def Unsigned : UnpackedFloat → Prop
  | .notANumber => True
  | .infinity sign | .zero sign | .finite sign _ _ _ => sign = .positive

/-- The first bit of a number without a minus is not set. -/
theorem pack_bits_lt {x : UnpackedFloat} (h : Unsigned x) :
    (UnpackedFloat.pack binary64 x).toNat < 2 ^ 63 := by
  have hcomponents (field : BitVec binary64.exponentBits)
      (fraction : BitVec binary64.mantissaBitsWithoutImplicit) :
      (packComponents binary64 .positive field fraction).toNat < 2 ^ 63 := by
    have hfield := field.isLt
    have hfraction := fraction.isLt
    rw [pack_components_to_nat]
    simp only [UnpackedFloat.Sign.toBitVec]
    simp at hfield hfraction ⊢
    omega
  cases x with
  | notANumber => exact hcomponents _ _
  | infinity sign | zero sign =>
      obtain rfl : sign = .positive := h
      exact hcomponents _ _
  | finite sign mantissa exponent hpos =>
      obtain rfl : sign = .positive := h
      unfold UnpackedFloat.pack
      dsimp only
      split
      · exact hcomponents _ _
      · split <;> exact hcomponents _ _

/-- A double whose first bit is not set has no minus. -/
theorem unsigned_parts {x : Float} (h : x.toBits.toNat < 2 ^ 63) : Unsigned (parts x) := by
  have hsign : signOf x.toBits.toNat = .positive := if_pos h
  rw [parts_eq]
  unfold ofBits
  rw [hsign]
  split
  · split
    · rfl
    · trivial
  · split
    · split <;> rfl
    · rfl

/-- Rounding keeps a number without a minus so. -/
theorem unsigned_round (mantissa : Nat) (exponent : Int) (accuracy : Accuracy) :
    Unsigned (roundWithAccuracy binary64 .positive mantissa exponent accuracy) := by
  unfold roundWithAccuracy
  dsimp only
  split <;> rfl

/-- A product of numbers without a minus has none. -/
theorem unsigned_mul {x y : UnpackedFloat} (hx : Unsigned x) (hy : Unsigned y) :
    Unsigned (UnpackedFloat.mul binary64 x y) := by
  cases x <;> cases y <;> simp only [Unsigned] at hx hy <;> subst_vars <;>
    first | trivial | exact unsigned_round _ _ _

/-- A quotient of numbers without a minus has none. -/
theorem unsigned_div {x y : UnpackedFloat} (hx : Unsigned x) (hy : Unsigned y) :
    Unsigned (UnpackedFloat.div binary64 x y) := by
  cases x <;> cases y <;> simp only [Unsigned] at hx hy <;> subst_vars <;>
    first | trivial | exact unsigned_round _ _ _

/-- A scientific literal has no minus. -/
theorem unsigned_scientific (digits : Nat) (exponent : Int) :
    Unsigned (UnpackedFloat.ofScientific binary64 digits exponent) := by
  unfold UnpackedFloat.ofScientific
  split
  · rfl
  · split
    · rfl
    · split
      · rfl
      · split
        · exact unsigned_mul rfl rfl
        · exact unsigned_div rfl rfl

/-- A natural number has no minus. -/
theorem unsigned_nat (n : Nat) : Unsigned (UnpackedFloat.ofNat binary64 n) := by
  unfold UnpackedFloat.ofNat UnpackedFloat.ofInt UnpackedFloat.normalize
  split
  · next hneg =>
      rw [Int.compare_eq_lt] at hneg
      omega
  · rfl
  · exact unsigned_round _ _ _

/-- The double of a decimal number has no minus. -/
theorem to_float_bits_lt (x : Decimal) : x.toFloat.toBits.toNat < 2 ^ 63 := by
  have hmul {a b : Float} (ha : a.toBits.toNat < 2 ^ 63) (hb : b.toBits.toNat < 2 ^ 63) :
      (a * b).toBits.toNat < 2 ^ 63 :=
    pack_bits_lt (unsigned_mul (unsigned_parts ha) (unsigned_parts hb))
  have hdiv {a b : Float} (ha : a.toBits.toNat < 2 ^ 63) (hb : b.toBits.toNat < 2 ^ 63) :
      (a / b).toBits.toNat < 2 ^ 63 :=
    pack_bits_lt (unsigned_div (unsigned_parts ha) (unsigned_parts hb))
  have hzero : (0 : Float).toBits.toNat < 2 ^ 63 := pack_bits_lt (unsigned_nat 0)
  have hone : (1 : Float).toBits.toNat < 2 ^ 63 := pack_bits_lt (unsigned_nat 1)
  unfold Decimal.toFloat
  split
  · exact hzero
  · split
    · exact hdiv hone hzero
    · unfold Float.ofScientific
      split
      · next hsmall =>
          have hsize : Float.exactlyRepresentablePowersOfTen.size = 23 := rfl
          have hdigits : x.digits.toUInt64.toFloat.toBits.toNat < 2 ^ 63 :=
            pack_bits_lt (unsigned_nat _)
          have hpower := (power_bits ⟨x.exponent.natAbs, by omega⟩).1
          dsimp only
          split
          · exact hdiv hdigits hpower
          · exact hmul hdigits hpower
      · exact pack_bits_lt (unsigned_scientific _ _)

end Double

end MessageSelector
