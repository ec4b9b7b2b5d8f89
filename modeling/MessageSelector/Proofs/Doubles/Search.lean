import MessageSelector.Decimal.Shortest
import MessageSelector.Proofs.Doubles.Scientific

/-!
# The search for the shortest decimal

The search works on naturals: the ends of the interval of a double, and the points of a decimal grid
in the same unit. `contains_iff` says that a point in the interval is a decimal that rounds to the
double, so that whatever is found does. That something is found is a matter of size, since the last
grid is finer than half a unit of the double.
-/

namespace MessageSelector.Double

open Decimal (Interval Tie nearest? firstHit)

variable {mantissa : Nat} {final : Int}

/-! ## Points of a grid -/

/-- A power with an integer exponent is a quotient of two with natural ones, of which one is one. -/
theorem zpow_mul_pow {base : ℚ} (hbase : base ≠ 0) (exponent : Int) :
    base ^ exponent * base ^ (-exponent).toNat = base ^ exponent.toNat := by
  rw [← zpow_natCast, ← zpow_natCast, ← zpow_add₀ hbase]
  congr 1
  omega

/-- How many units of a refined interval make one. -/
def unitsInOne (final power : Int) : Nat :=
  Nat.pow 2 (-(final - 2)).toNat * Nat.pow 10 (-power).toNat

/-- The step of a decimal grid in units of a refined interval. -/
def gridStep (final power : Int) : Nat :=
  Nat.pow 2 (-(final - 2)).toNat * Nat.pow 10 power.toNat

/-- A quarter of the unit of a double in units of a refined interval. -/
def quarterStep (final power : Int) : Nat :=
  Nat.pow 2 (final - 2).toNat * Nat.pow 10 (-power).toNat

/-- There are units. -/
theorem units_in_one_pos (final power : Int) : (0 : ℚ) < unitsInOne final power := by
  unfold unitsInOne
  exact_mod_cast Nat.mul_pos (Nat.pow_pos (by decide)) (Nat.pow_pos (by decide))

/-- The step of a grid stands for its power of ten. -/
theorem grid_step_eq (final power : Int) :
    (gridStep final power : ℚ) = 10 ^ power * unitsInOne final power := by
  have hpower := zpow_mul_pow (show (10 : ℚ) ≠ 0 by norm_num) power
  unfold gridStep unitsInOne
  simp only [Nat.pow_eq]
  push_cast
  rw [← hpower]
  ring

/-- A quarter of the unit of a double stands for its power of two. -/
theorem quarter_step_eq (final power : Int) :
    (quarterStep final power : ℚ) = 2 ^ (final - 2) * unitsInOne final power := by
  have hpower := zpow_mul_pow (show (2 : ℚ) ≠ 0 by norm_num) (final - 2)
  unfold quarterStep unitsInOne
  simp only [Nat.pow_eq]
  push_cast
  rw [← hpower]
  ring

/-- The refined interval of a double. -/
theorem refine_of_binary (mantissa : Nat) (final power : Int) :
    (Interval.ofBinary ⟨mantissa, final⟩).refine power =
      { low := (4 * mantissa - gapBelow mantissa final) * quarterStep final power
        value := 4 * mantissa * quarterStep final power
        high := (4 * mantissa + 2) * quarterStep final power
        scale := Nat.pow 2 (-(final - 2)).toNat
        isClosed := mantissa % 2 = 0 } := by
  unfold Interval.refine Interval.ofBinary gapBelow quarterStep
  simp [Nat.mul_assoc]

/-- A point of a grid lies in the interval of a double exactly when it rounds to it. -/
theorem contains_iff (hpos : 0 < mantissa) (final power : Int) (digits : Nat) :
    ((Interval.ofBinary ⟨mantissa, final⟩).refine power).contains (digits * gridStep final power) =
      true ↔ RoundsTo (digits * 10 ^ power) mantissa final := by
  have hunits := units_in_one_pos final power
  have hgap : gapBelow mantissa final ≤ 4 * mantissa := by
    unfold gapBelow
    split <;> omega
  have hlow : (((4 * mantissa - gapBelow mantissa final) * quarterStep final power : Nat) : ℚ) =
      (4 * mantissa - gapBelow mantissa final) * 2 ^ (final - 2) * unitsInOne final power := by
    rw [Nat.cast_mul, quarter_step_eq, Nat.cast_sub hgap]
    push_cast
    ring
  have hhigh : (((4 * mantissa + 2) * quarterStep final power : Nat) : ℚ) =
      (4 * mantissa + 2) * 2 ^ (final - 2) * unitsInOne final power := by
    rw [Nat.cast_mul, quarter_step_eq]
    push_cast
    ring
  have hpoint : ((digits * gridStep final power : Nat) : ℚ) =
      digits * 10 ^ power * unitsInOne final power := by
    rw [Nat.cast_mul, grid_step_eq, mul_assoc]
  rw [refine_of_binary]
  unfold Interval.contains
  dsimp only
  split
  · next hclosed =>
      rw [Bool.and_eq_true, decide_eq_true_eq, decide_eq_true_eq, ← Nat.cast_le (α := ℚ),
        ← Nat.cast_le (α := ℚ), hlow, hhigh, hpoint, mul_le_mul_iff_left₀ hunits,
        mul_le_mul_iff_left₀ hunits]
      rw [decide_eq_true_eq] at hclosed
      exact ⟨fun h => ⟨h.1, h.2, fun hodd => by omega⟩, fun h => ⟨h.low, h.high⟩⟩
  · next hopen =>
      rw [Bool.and_eq_true, decide_eq_true_eq, decide_eq_true_eq, ← Nat.cast_lt (α := ℚ),
        ← Nat.cast_lt (α := ℚ), hlow, hhigh, hpoint, mul_lt_mul_iff_left₀ hunits,
        mul_lt_mul_iff_left₀ hunits]
      rw [decide_eq_true_eq] at hopen
      exact ⟨fun h => ⟨h.1.le, h.2.le, fun _ => h⟩, fun h => h.tie (by omega)⟩

/-! ## Grids -/

/-- What is found on a grid rounds to the double. -/
theorem nearest_rounds {tie : Tie} {power : Int} {digits : Nat} (hpos : 0 < mantissa)
    (h : nearest? tie (.ofBinary ⟨mantissa, final⟩) power = some digits) :
    RoundsTo (digits * 10 ^ power) mantissa final := by
  rw [← contains_iff hpos]
  unfold nearest? at h
  dsimp only at h
  rw [← Nat.succ_mul] at h
  split at h
  · next hbelow habove =>
      split at h
      · cases h
        exact hbelow
      · cases h
        exact habove
  · next hbelow _ =>
      cases h
      exact hbelow
  · next _ habove =>
      cases h
      exact habove
  · cases h

/-- A grid finer than half a unit of the double has a point in its interval. -/
theorem nearest_ne_none (tie : Tie) {power : Int}
    (hfine : (10 : ℚ) ^ power < 2 ^ (final - 1)) :
    nearest? tie (.ofBinary ⟨mantissa, final⟩) power ≠ none := by
  have hunits := units_in_one_pos final power
  have hstep : gridStep final power < 2 * quarterStep final power := by
    have hrat : (gridStep final power : ℚ) < (2 * quarterStep final power : Nat) := by
      rw [grid_step_eq, Nat.cast_mul, quarter_step_eq, ← mul_assoc]
      refine mul_lt_mul_of_pos_right ?_ hunits
      rw [show final - 1 = 1 + (final - 2) by omega, zpow_add₀ (by norm_num)] at hfine
      simpa using hfine
    exact_mod_cast hrat
  have hgrid : 0 < gridStep final power := by
    unfold gridStep
    exact Nat.mul_pos (Nat.pow_pos (by decide)) (Nat.pow_pos (by decide))
  -- The first point above the double is less than half a unit away from it.
  have habove : ((Interval.ofBinary ⟨mantissa, final⟩).refine power).contains
      ((((Interval.ofBinary ⟨mantissa, final⟩).refine power).value / gridStep final power + 1) *
        gridStep final power) = true := by
    rw [refine_of_binary]
    dsimp only
    obtain ⟨value, hvalue⟩ : ∃ value, 4 * mantissa * quarterStep final power = value := ⟨_, rfl⟩
    rw [hvalue]
    have hmore : value < (value / gridStep final power + 1) * gridStep final power := by
      rw [Nat.mul_comm]
      exact Nat.lt_mul_div_succ value hgrid
    have hless : (value / gridStep final power + 1) * gridStep final power ≤
        value + gridStep final power := by
      rw [Nat.add_mul, Nat.one_mul]
      exact Nat.add_le_add_right (Nat.div_mul_le_self _ _) _
    have hlow : (4 * mantissa - gapBelow mantissa final) * quarterStep final power ≤ value := by
      rw [← hvalue]
      exact Nat.mul_le_mul_right _ (Nat.sub_le _ _)
    have hhigh : (4 * mantissa + 2) * quarterStep final power =
        value + 2 * quarterStep final power := by
      rw [Nat.add_mul, hvalue]
    unfold Interval.contains
    dsimp only
    rw [hhigh]
    split
    · rw [Bool.and_eq_true, decide_eq_true_eq, decide_eq_true_eq]
      omega
    · rw [Bool.and_eq_true, decide_eq_true_eq, decide_eq_true_eq]
      omega
  unfold nearest?
  dsimp only
  rw [← Nat.succ_mul]
  split
  · split <;> simp
  · simp
  · simp
  · next _ hnone =>
      exact absurd (hnone.symm.trans habove) Bool.false_ne_true

/-- The first grid with a point in the interval is found where there is one in reach. -/
theorem first_hit_of_nearest {tie : Tie} {interval : Interval} {grids : Nat} {power : Int}
    (skipped : Nat) (hreach : skipped < grids)
    (h : nearest? tie interval (power - skipped) ≠ none) :
    nearest? tie interval (firstHit tie interval grids power).exponent =
      some (firstHit tie interval grids power).digits := by
  induction grids generalizing power skipped with
  | zero => omega
  | succ grids ih =>
      rw [firstHit]
      cases hfirst : nearest? tie interval power with
      | some digits => exact hfirst
      | none =>
          cases skipped with
          | zero =>
              rw [Int.natCast_zero, Int.sub_zero] at h
              exact absurd hfirst h
          | succ skipped =>
              refine ih skipped (by omega) ?_
              rwa [show power - 1 - (skipped : Int) = power - ((skipped + 1 : Nat) : Int) by omega]

/-! ## The shortest decimal -/

/-- The estimate of the decimal power is less than a power of two too large. -/
theorem estimate_le (power : Int) (hle : power ≤ 1023) :
    (10 : ℚ) ^ (power * 30103 / 100000) ≤ 2 ^ (power + 1) := by
  rcases Int.le_total 0 power with hnonneg | hneg
  · obtain ⟨bits, rfl⟩ := Int.eq_ofNat_of_zero_le hnonneg
    obtain ⟨digits, hdigits⟩ := Int.eq_ofNat_of_zero_le
      (show 0 ≤ (bits : Int) * 30103 / 100000 by omega)
    have hnat : 10 ^ digits ≤ 2 ^ (bits + 1) :=
      pow_le_pow_of_ratio (by decide) (by decide) (show 10 ^ 59 ≤ 2 ^ 196 by decide +kernel)
        (by omega)
    rw [hdigits, zpow_natCast, ← Int.natCast_succ, zpow_natCast]
    exact_mod_cast hnat
  · obtain ⟨bits, hbits⟩ := Int.eq_ofNat_of_zero_le (show 0 ≤ -power by omega)
    obtain ⟨digits, hdigits⟩ := Int.eq_ofNat_of_zero_le
      (show 0 ≤ -(power * 30103 / 100000) by omega)
    obtain rfl : power = -(bits : Int) := by omega
    have hnat : 2 ^ bits ≤ 10 ^ digits := two_pow_le_ten_pow (by omega)
    rw [show -(bits : Int) * 30103 / 100000 = -(digits : Int) by omega]
    exact (two_zpow_le_ten_zpow hnat).2.trans (zpow_le_zpow_right₀ (by norm_num) (by omega))

/-- The shortest decimal of a double rounds to it. -/
theorem shortest_rounds (tie : Tie) (hpos : 0 < mantissa) (h : Canonical mantissa final) :
    RoundsTo (Decimal.shortest tie ⟨mantissa, final⟩).value mantissa final := by
  have hlog : mantissa.log2 < 53 := (Nat.log2_lt (Nat.ne_of_gt hpos)).mpr h.mantissa_lt
  have hestimate := estimate_le (mantissa.log2 + final) (by have := h.exponent_le; omega)
  -- The last grid is finer than the first by more than the binary digits of a mantissa.
  have hfine : (10 : ℚ) ^ ((mantissa.log2 + final) * 30103 / 100000 + 2 - (21 : Nat)) <
      2 ^ (final - 1) := by
    have hconstant : (2 : ℚ) ^ (63 : Int) < 10 ^ (19 : Int) := by norm_num
    have hpositive : (0 : ℚ) < 2 ^ (mantissa.log2 + final + 1) := by positivity
    calc
      (10 : ℚ) ^ ((mantissa.log2 + final) * 30103 / 100000 + 2 - (21 : Nat))
        = 10 ^ ((mantissa.log2 + final) * 30103 / 100000) / 10 ^ (19 : Int) := by
          rw [← zpow_sub₀ (by norm_num)]
          congr 1
          omega
      _ ≤ 2 ^ (mantissa.log2 + final + 1) / 10 ^ (19 : Int) :=
          div_le_div_of_nonneg_right hestimate (by positivity)
      _ < 2 ^ (mantissa.log2 + final + 1) / 2 ^ (63 : Int) :=
          div_lt_div_of_pos_left hpositive (by positivity) hconstant
      _ = 2 ^ (mantissa.log2 + final + 1 - 63) := (zpow_sub₀ (by norm_num) _ _).symm
      _ ≤ 2 ^ (final - 1) := zpow_le_zpow_right₀ (by norm_num) (by omega)
  exact nearest_rounds hpos
    (first_hit_of_nearest 21 (by decide) (nearest_ne_none tie hfine))

end MessageSelector.Double
