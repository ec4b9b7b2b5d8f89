import MessageSelector.Proofs.Doubles.Order
import MessageSelector.Proofs.Doubles.Rounding

/-!
# The double nearest to a number

`RoundsTo` tells which numbers lie nearest to a finite double, and `NearestTo` what any number that
is not negative becomes: such a double, zero or the infinity. It is one of them only,
`NearestTo.unique`, and rounding finds it, `nearest_of_round`.
-/

namespace MessageSelector.Double

open Float.Model Float.Model.UnpackedFloat
open Float.Model.Format (binary64)

/-- How many quarters of a unit lie between a double and what still rounds to it from below. The
lower neighbour of a power of two is twice as near as the upper one. -/
def gapBelow (mantissa : Nat) (exponent : Int) : Nat :=
  if mantissa = 2 ^ 52 ∧ -1074 < exponent then 1 else 2

/-- A number that lies nearest to a double given by its parts: no farther than half-way to a
neighbour, and half-way only where the mantissa is even. -/
structure RoundsTo (x : ℚ) (mantissa : Nat) (exponent : Int) : Prop where
  low : (4 * mantissa - gapBelow mantissa exponent) * 2 ^ (exponent - 2) ≤ x
  high : x ≤ (4 * mantissa + 2) * 2 ^ (exponent - 2)
  tie : mantissa % 2 = 1 →
    (4 * mantissa - gapBelow mantissa exponent) * 2 ^ (exponent - 2) < x ∧
      x < (4 * mantissa + 2) * 2 ^ (exponent - 2)

/-- What a number that is not negative becomes as a double: the one nearest to it, or zero up to one
half of the least, or the infinity from half a unit beyond the greatest. -/
inductive NearestTo (x : ℚ) : UnpackedFloat → Prop where
  | zero : x ≤ 2 ^ (-1075 : Int) → NearestTo x (.zero .positive)
  | finite {mantissa exponent} (hpos : 0 < mantissa) :
      Canonical mantissa exponent → RoundsTo x mantissa exponent →
      NearestTo x (.finite .positive mantissa exponent hpos)
  | infinity : (2 ^ 54 - 1) * 2 ^ (970 : Int) ≤ x → NearestTo x (.infinity .positive)

variable {num den m n mantissa : Nat} {e f exponent final target : Int} {x q : ℚ}

/-! ## Half-way points -/

/-- At least one quarter and at most two are below a double. -/
theorem gap_below_bounds (mantissa : Nat) (final : Int) :
    (1 : ℚ) ≤ gapBelow mantissa final ∧ (gapBelow mantissa final : ℚ) ≤ 2 := by
  unfold gapBelow
  split <;> norm_num

/-- What rounds to a number with its first bit set lies no more than a quarter below the least such
number. -/
theorem gap_normal (hnormal : 2 ^ 52 ≤ mantissa) (h : -1074 < final) :
    (2 ^ 54 - 1 : ℚ) ≤ 4 * mantissa - gapBelow mantissa final := by
  unfold gapBelow
  split
  · next hpower =>
      rw [hpower.1]
      norm_num
  · next hpower =>
      have hmore : (2 ^ 52 + 1 : ℚ) ≤ mantissa := by
        exact_mod_cast (show 2 ^ 52 + 1 ≤ mantissa by omega)
      push_cast
      linarith

/-- What rounds to a double lies below what rounds to a greater one, and never at its lower end
where the mantissas are both even. -/
theorem high_le_low (hm : Canonical m e) (hn : Canonical n f)
    (h : magnitudeRank m e < magnitudeRank n f) :
    ((4 * m + 2) * 2 ^ (e - 2) : ℚ) ≤ (4 * n - gapBelow n f) * 2 ^ (f - 2) ∧
      (m % 2 = 0 → n % 2 = 0 →
        ((4 * m + 2) * 2 ^ (e - 2) : ℚ) < (4 * n - gapBelow n f) * 2 ^ (f - 2)) := by
  obtain ⟨-, hgap⟩ := gap_below_bounds n f
  have hunit : (0 : ℚ) < 2 ^ (e - 2) := by positivity
  rcases Int.lt_trichotomy e f with hlt | rfl | hgt
  · -- The lowest number with the greater exponent has a neighbour that is twice as near.
    have hge := hm.exponent_ge
    have hsmall := hm.mantissa_lt
    have hdouble : (2 * 2 ^ (e - 2) : ℚ) ≤ 2 ^ (f - 2) := by
      rw [← zpow_one_add₀ (by norm_num)]
      exact zpow_le_zpow_right₀ (by norm_num) (by omega)
    have hquarters := gap_normal (hn.normal.resolve_right (by omega)) (show -1074 < f by omega)
    have hunits : ((2 ^ 54 - 1) * (2 * 2 ^ (e - 2)) : ℚ) ≤
        (4 * n - gapBelow n f) * 2 ^ (f - 2) := by
      calc
        ((2 ^ 54 - 1) * (2 * 2 ^ (e - 2)) : ℚ) ≤ (2 ^ 54 - 1) * 2 ^ (f - 2) :=
          mul_le_mul_of_nonneg_left hdouble (by norm_num)
        _ ≤ (4 * n - gapBelow n f) * 2 ^ (f - 2) :=
          mul_le_mul_of_nonneg_right hquarters (by positivity)
    rw [← mul_assoc] at hunits
    constructor
    · have hmantissa : (m : ℚ) + 1 ≤ 2 ^ 53 := by exact_mod_cast hsmall
      exact (mul_le_mul_of_nonneg_right (by linarith) hunit.le).trans hunits
    · intro heven _
      have hmantissa : (m : ℚ) + 2 ≤ 2 ^ 53 := by exact_mod_cast (show m + 2 ≤ 2 ^ 53 by omega)
      exact (mul_lt_mul_of_pos_right (by linarith) hunit).trans_le hunits
  · unfold magnitudeRank at h
    constructor
    · have hmantissa : (m : ℚ) + 1 ≤ n := by exact_mod_cast (show m + 1 ≤ n by omega)
      exact mul_le_mul_of_nonneg_right (by linarith) hunit.le
    · intro heven heven'
      have hmantissa : (m : ℚ) + 2 ≤ n := by exact_mod_cast (show m + 2 ≤ n by omega)
      exact mul_lt_mul_of_pos_right (by linarith) hunit
  · have := magnitude_rank_lt_of_exponent hn hm hgt
    omega

/-- Of two numbers the one that is not less rounds to a double of no smaller rank. -/
theorem RoundsTo.rank_le {y : ℚ} (hx : RoundsTo x m e) (hy : RoundsTo y n f)
    (hm : Canonical m e) (hn : Canonical n f) (h : x ≤ y) :
    magnitudeRank m e ≤ magnitudeRank n f := by
  by_contra hgt
  obtain ⟨hmiddle, hstrict⟩ := high_le_low hn hm (Int.not_le.mp hgt)
  -- Half-way between the two doubles, one of them is odd and takes nothing of it.
  rcases Nat.mod_two_eq_zero_or_one n with heven | hodd
  · rcases Nat.mod_two_eq_zero_or_one m with heven' | hodd'
    · exact absurd h (not_le.mpr (hy.high.trans_lt ((hstrict heven heven').trans_le hx.low)))
    · exact absurd h (not_le.mpr ((hy.high.trans hmiddle).trans_lt (hx.tie hodd').1))
  · exact absurd h (not_le.mpr ((hy.tie hodd).2.trans_le (hmiddle.trans hx.low)))

/-- What rounds to a double is more than half the least of them. -/
theorem RoundsTo.lower (h : RoundsTo x mantissa final) (hpos : 0 < mantissa)
    (hcanonical : Canonical mantissa final) : (2 : ℚ) ^ (-1075 : Int) < x := by
  have hunit : (2 : ℚ) ^ (-1076 : Int) ≤ 2 ^ (final - 2) :=
    zpow_le_zpow_right₀ (by norm_num) (by have := hcanonical.exponent_ge; omega)
  have hquarters : (2 : ℚ) ^ (-1075 : Int) = 2 * 2 ^ (-1076 : Int) := by
    rw [← zpow_one_add₀ (by norm_num)]
    norm_num
  have hpositive : (0 : ℚ) < 2 ^ (final - 2) := by positivity
  obtain ⟨-, hgap⟩ := gap_below_bounds mantissa final
  rw [hquarters]
  rcases Nat.lt_or_eq_of_le (Nat.succ_le_of_lt hpos) with hmore | rfl
  · have htwo : (2 : ℚ) ≤ mantissa := by exact_mod_cast hmore
    calc
      2 * (2 : ℚ) ^ (-1076 : Int) ≤ 2 * 2 ^ (final - 2) :=
        mul_le_mul_of_nonneg_left hunit (by norm_num)
      _ < (4 * mantissa - gapBelow mantissa final) * 2 ^ (final - 2) :=
        mul_lt_mul_of_pos_right (by linarith) hpositive
      _ ≤ x := h.low
  · have hone := (h.tie rfl).1
    push_cast at hone
    calc
      2 * (2 : ℚ) ^ (-1076 : Int) ≤ 2 * 2 ^ (final - 2) :=
        mul_le_mul_of_nonneg_left hunit (by norm_num)
      _ ≤ (4 * 1 - gapBelow 1 final) * 2 ^ (final - 2) :=
        mul_le_mul_of_nonneg_right (by push_cast at hgap; linarith) hpositive.le
      _ < x := hone

/-- What rounds to a double is less than half a unit beyond the greatest of them. -/
theorem RoundsTo.upper (h : RoundsTo x mantissa final) (hcanonical : Canonical mantissa final) :
    x < (2 ^ 54 - 1) * (2 : ℚ) ^ (970 : Int) := by
  have hlt := hcanonical.mantissa_lt
  have hunit : (2 : ℚ) ^ (final - 2) ≤ 2 ^ (969 : Int) :=
    zpow_le_zpow_right₀ (by norm_num) (by have := hcanonical.exponent_le; omega)
  have hquarters : (2 ^ 54 - 1) * (2 : ℚ) ^ (970 : Int) = (2 ^ 55 - 2) * 2 ^ (969 : Int) := by
    rw [show (970 : Int) = 1 + 969 by rfl, zpow_one_add₀ (by norm_num)]
    ring
  have hpositive : (0 : ℚ) < 2 ^ (final - 2) := by positivity
  have hlargest : ((2 ^ 55 - 2) * 2 ^ (final - 2) : ℚ) ≤ (2 ^ 55 - 2) * 2 ^ (969 : Int) :=
    mul_le_mul_of_nonneg_left hunit (by norm_num)
  rw [hquarters]
  refine lt_of_lt_of_le ?_ hlargest
  rcases Nat.mod_two_eq_zero_or_one mantissa with heven | hodd
  · have hmantissa : (mantissa : ℚ) + 2 ≤ 2 ^ 53 := by
      exact_mod_cast (show mantissa + 2 ≤ 2 ^ 53 by omega)
    exact h.high.trans_lt (mul_lt_mul_of_pos_right (by linarith) hpositive)
  · have hmantissa : (mantissa : ℚ) + 1 ≤ 2 ^ 53 := by exact_mod_cast hlt
    exact (h.tie hodd).2.trans_le (mul_le_mul_of_nonneg_right (by linarith) hpositive.le)

/-- A number is nearest to one thing only. -/
theorem NearestTo.unique {a b : UnpackedFloat} (ha : NearestTo x a) (hb : NearestTo x b) :
    a = b := by
  have hrange : (2 : ℚ) ^ (-1075 : Int) < (2 ^ 54 - 1) * 2 ^ (970 : Int) := by
    have hlow : (2 : ℚ) ^ (-1075 : Int) ≤ 2 ^ (970 : Int) :=
      zpow_le_zpow_right₀ (by norm_num) (by decide)
    exact hlow.trans_lt (lt_mul_of_one_lt_left (by positivity) (by norm_num))
  cases ha with
  | zero hsmall =>
      cases hb with
      | zero => rfl
      | finite hpos hcanonical hrounds =>
          exact absurd hsmall (not_le.mpr (hrounds.lower hpos hcanonical))
      | infinity hlarge => exact absurd (hlarge.trans hsmall) (not_le.mpr hrange)
  | finite hpos hcanonical hrounds =>
      cases hb with
      | zero hsmall => exact absurd hsmall (not_le.mpr (hrounds.lower hpos hcanonical))
      | finite hpos' hcanonical' hrounds' =>
          have hrank := Int.le_antisymm (hrounds.rank_le hrounds' hcanonical hcanonical' le_rfl)
            (hrounds'.rank_le hrounds hcanonical' hcanonical le_rfl)
          obtain ⟨rfl, rfl⟩ := magnitude_rank_inj hcanonical hcanonical' hrank
          rfl
      | infinity hlarge => exact absurd hlarge (not_le.mpr (hrounds.upper hcanonical))
  | infinity hlarge =>
      cases hb with
      | zero hsmall => exact absurd (hlarge.trans hsmall) (not_le.mpr hrange)
      | finite hpos hcanonical hrounds =>
          exact absurd hlarge (not_le.mpr (hrounds.upper hcanonical))
      | infinity => rfl

/-! ## Whole numbers of units -/

/-- A whole number that is no farther away than one half, and that far only where it is even. -/
structure NearestNat (q : ℚ) (n : Nat) : Prop where
  low : 2 * n - 1 ≤ 2 * q
  high : 2 * q ≤ 2 * n + 1
  tie : n % 2 = 1 → (2 * n - 1 : ℚ) < 2 * q ∧ 2 * q < (2 * n + 1 : ℚ)

/-- There is one nearest to any number that is not negative. -/
theorem exists_nearest_nat (hq : 0 ≤ q) : ∃ n, NearestNat q n := by
  have hlow := Nat.floor_le hq
  have hhigh := Nat.lt_floor_add_one q
  generalize ⌊q⌋₊ = whole at hlow hhigh
  by_cases hdown : 2 * q < 2 * whole + 1 ∨ 2 * q = 2 * whole + 1 ∧ whole % 2 = 0
  · refine ⟨whole, by linarith, ?_, fun hodd => ⟨by linarith, ?_⟩⟩
    · rcases hdown with hless | ⟨heq, -⟩
      · exact hless.le
      · exact heq.le
    · exact hdown.resolve_right fun heven => by omega
  · rw [not_or, not_lt] at hdown
    refine ⟨whole + 1, ?_, ?_, fun hodd => ⟨?_, ?_⟩⟩ <;> push_cast
    · linarith [hdown.1]
    · linarith
    · have hne : 2 * q ≠ 2 * whole + 1 := fun heq => hdown.2 ⟨heq, by omega⟩
      linarith [lt_of_le_of_ne hdown.1 (Ne.symm hne)]
    · linarith

/-- A quotient rounds to the whole number nearest to it. -/
theorem NearestNat.rounded (hden : 0 < den) (h : NearestNat (num / den) n) :
    (extended num den).roundedMantissa = n := by
  obtain ⟨hlow, hhigh, htie⟩ := h
  have hpos : (0 : ℚ) < den := by exact_mod_cast hden
  have hnum : (2 * (num / den) : ℚ) * den = 2 * num := by field_simp
  refine extended_rounded hden ?_ ?_ fun hodd => ⟨?_, ?_⟩
  · have hmul := mul_le_mul_of_nonneg_right hlow hpos.le
    rw [hnum] at hmul
    have hrat : (2 * n * den : ℚ) ≤ 2 * num + den := by linarith
    exact_mod_cast hrat
  · have hmul := mul_le_mul_of_nonneg_right hhigh hpos.le
    rw [hnum] at hmul
    exact_mod_cast hmul
  · have hmul := mul_lt_mul_of_pos_right (htie hodd).1 hpos
    rw [hnum] at hmul
    have hrat : (2 * n * den : ℚ) < 2 * num + den := by linarith
    exact_mod_cast hrat
  · have hmul := mul_lt_mul_of_pos_right (htie hodd).2 hpos
    rw [hnum] at hmul
    exact_mod_cast hmul

/-- A number of units rounds to the double of the whole number of units nearest to it, unless this
is the least of its exponent and the number lies below it. -/
theorem NearestNat.rounds (h : NearestNat q n) (hleast : n = 2 ^ 52 → -1074 < final → 2 ^ 52 ≤ q) :
    RoundsTo (q * 2 ^ final) n final := by
  have hunit : (0 : ℚ) < 2 ^ (final - 2) := by positivity
  have hquarters : q * 2 ^ final = 4 * q * 2 ^ (final - 2) := by
    rw [zpow_sub₀ (by norm_num)]
    field_simp
    norm_num
  have hgap : 4 * (n : ℚ) - gapBelow n final ≤ 4 * q ∧
      (n % 2 = 1 → 4 * (n : ℚ) - gapBelow n final < 4 * q) := by
    unfold gapBelow
    split
    · next hpower =>
        have hge := hleast hpower.1 hpower.2
        rw [hpower.1]
        push_cast
        exact ⟨by linarith, fun _ => by linarith⟩
    · push_cast
      exact ⟨by linarith [h.low], fun hodd => by linarith [(h.tie hodd).1]⟩
  rw [hquarters]
  refine ⟨?_, ?_, fun hodd => ⟨?_, ?_⟩⟩
  · exact mul_le_mul_of_nonneg_right hgap.1 hunit.le
  · exact mul_le_mul_of_nonneg_right (by linarith [h.high]) hunit.le
  · exact mul_lt_mul_of_pos_right (hgap.2 hodd) hunit
  · exact mul_lt_mul_of_pos_right (by linarith [(h.tie hodd).2]) hunit

/-- A mantissa that is carried over to the next power of two. -/
theorem NearestNat.rounds_carry (h : NearestNat q (2 ^ 53)) (hlt : q < 2 ^ 53)
    (hge : -1074 ≤ final) : RoundsTo (q * 2 ^ final) (2 ^ 52) (final + 1) := by
  have hhalf : q * 2 ^ final = q / 2 * 2 ^ (final + 1) := by
    rw [zpow_add_one₀ (by norm_num)]
    ring
  have hlow := h.low
  have hunit : (0 : ℚ) < 2 ^ (final + 1 - 2) := by positivity
  have hquarters : q / 2 * 2 ^ (final + 1) = 2 * q * 2 ^ (final + 1 - 2) := by
    rw [zpow_sub₀ (by norm_num)]
    field_simp
  push_cast at hlow
  rw [hhalf, hquarters]
  refine ⟨?_, ?_, fun hodd => absurd hodd (by decide)⟩
  · rw [gapBelow, if_pos ⟨rfl, by omega⟩]
    refine mul_le_mul_of_nonneg_right ?_ hunit.le
    push_cast
    linarith
  · refine mul_le_mul_of_nonneg_right ?_ hunit.le
    push_cast
    linarith

/-- A double rounds to itself. -/
theorem RoundsTo.self (mantissa : Nat) (final : Int) :
    RoundsTo (mantissa * 2 ^ final) mantissa final := by
  refine NearestNat.rounds ⟨?_, ?_, fun _ => ⟨?_, ?_⟩⟩ fun hpower _ => ?_
  · linarith
  · linarith
  · linarith
  · linarith
  · rw [hpower]
    norm_num

/-! ## Rounding -/

/-- Beyond the greatest exponent there is only the infinity. -/
theorem unpack_pack_overflow (sign : UnpackedFloat.Sign) (hpos : 0 < mantissa)
    (h : 971 < exponent) :
    UnpackedFloat.unpack binary64
        (UnpackedFloat.pack binary64 (.finite sign mantissa exponent hpos)) = .infinity sign := by
  have hbias : 2 ^ 11 ≤ (exponent + (binary64.exponentBias : Int) + (52 : Nat)).toNat + 1 := by
    simp [Format.exponentBias]
    omega
  unfold UnpackedFloat.pack
  dsimp only
  rw [if_pos hbias]
  cases sign <;> rfl

/-- A positive number of parts beyond the greatest exponent is nearest to the infinity, and any
other to the double of its parts. -/
theorem NearestTo.of_parts (hpos : 0 < mantissa) (hlt : mantissa < 2 ^ 53)
    (hnormal : 2 ^ 52 ≤ mantissa ∨ exponent = -1074) (hge : -1074 ≤ exponent)
    (hrounds : RoundsTo x mantissa exponent) :
    NearestTo x (UnpackedFloat.unpack binary64
      (UnpackedFloat.pack binary64 (.finite .positive mantissa exponent hpos))) := by
  by_cases hle : exponent ≤ 971
  · have hcanonical : Canonical mantissa exponent := ⟨hlt, hnormal, hge, hle⟩
    rw [unpack_pack_finite hpos hcanonical]
    exact .finite hpos hcanonical hrounds
  · rw [unpack_pack_overflow .positive hpos (Int.not_le.mp hle)]
    refine .infinity ?_
    have hquarters := gap_normal (hnormal.resolve_right (by omega)) (show -1074 < exponent by omega)
    have hunit : (2 : ℚ) ^ (970 : Int) ≤ 2 ^ (exponent - 2) :=
      zpow_le_zpow_right₀ (by norm_num) (by omega)
    calc
      (2 ^ 54 - 1 : ℚ) * 2 ^ (970 : Int) ≤ (2 ^ 54 - 1) * 2 ^ (exponent - 2) :=
        mul_le_mul_of_nonneg_left hunit (by norm_num)
      _ ≤ (4 * mantissa - gapBelow mantissa exponent) * 2 ^ (exponent - 2) :=
        mul_le_mul_of_nonneg_right hquarters (by positivity)
      _ ≤ x := hrounds.low

/-- Whatever is given precisely enough is rounded to what is nearest to it. -/
theorem nearest_of_round (hden : 0 < den)
    (hle : exponent ≤ binary64.targetExponent (totalExponent (num / den) exponent)) :
    NearestTo (num / den * 2 ^ exponent) (UnpackedFloat.unpack binary64
      (UnpackedFloat.pack binary64 (roundWithAccuracy binary64 .positive (num / den) exponent
        (accuracyOfFraction (num % den) den)))) := by
  obtain ⟨target, htarget⟩ : ∃ target,
      binary64.targetExponent (totalExponent (num / den) exponent) = target := ⟨_, rfl⟩
  rw [htarget] at hle
  have hge : -1074 ≤ target := by
    rw [target_exponent_eq] at htarget
    omega
  obtain ⟨q, hq, hx, hunits, hlt, hleast⟩ := units_bounds hden htarget hle
  obtain ⟨n, hn⟩ := exists_nearest_nat hq
  have hrounded : (extended num (den * 2 ^ (target - exponent).toNat)).roundedMantissa = n :=
    NearestNat.rounded (Nat.mul_pos hden (Nat.pow_pos (by decide))) (hunits ▸ hn)
  have hunit : (0 : ℚ) < 2 ^ target := by positivity
  rw [hx]
  rcases Nat.eq_zero_or_pos n with rfl | hpos
  · have hhalf : q ≤ 1 / 2 := by
      have hhigh := hn.high
      push_cast at hhigh
      linarith
    obtain rfl : target = -1074 := hleast.resolve_right fun hmore => by linarith [hmore.2]
    rw [round_with_accuracy_zero hden htarget hle hrounded]
    refine .zero ((mul_le_mul_of_nonneg_right hhalf hunit.le).trans_eq ?_)
    rw [one_div, ← zpow_neg_one, ← zpow_add₀ (by norm_num)]
    rfl
  have hle53 : n ≤ 2 ^ 53 := by
    have hlow := hn.low
    have hlt' : (n : ℚ) < 2 ^ 53 + 1 := by linarith
    exact Nat.lt_succ_iff.mp (by exact_mod_cast hlt')
  rcases Nat.lt_or_eq_of_le hle53 with hsmall | rfl
  · have hnormal : 2 ^ 52 ≤ n ∨ target = -1074 := by
      refine hleast.symm.imp_left fun hmore => ?_
      have hlow' : (2 ^ 52 : ℚ) < n + 1 := by linarith [hmore.2, hn.high]
      exact Nat.lt_succ_iff.mp (by exact_mod_cast hlow')
    rw [round_with_accuracy_eq hden hpos htarget hle hrounded (shift_parts hpos hsmall hnormal hge)]
    refine .of_parts hpos hsmall hnormal hge (hn.rounds fun _ hmore => ?_)
    exact (hleast.resolve_left (by omega)).2
  · rw [round_with_accuracy_eq hden (by decide) htarget hle hrounded (shift_carry hge)]
    exact .of_parts (by decide) (by decide) (.inl (Nat.le_refl _)) (by omega)
      (hn.rounds_carry hlt hge)

/-- A whole number of units is rounded to what is nearest to it. -/
theorem nearest_of_round_exact
    (hle : exponent ≤ binary64.targetExponent (totalExponent n exponent)) :
    NearestTo (n * 2 ^ exponent) (UnpackedFloat.unpack binary64
      (UnpackedFloat.pack binary64 (roundWithAccuracy binary64 .positive n exponent .exact))) := by
  have hround : NearestTo (n / (1 : Nat) * 2 ^ exponent) _ :=
    nearest_of_round (by decide) (by rwa [Nat.div_one])
  rwa [Nat.cast_one, div_one, Nat.div_one, Nat.mod_one] at hround

end MessageSelector.Double
