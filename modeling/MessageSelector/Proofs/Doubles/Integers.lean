import MessageSelector.Proofs.Doubles.Scientific

/-!
# Integers as doubles

An integer becomes the double that lies nearest to it. `exists_rounds` finds that double, and
greater numbers round to doubles of no smaller rank. So integers keep their order as doubles,
`rank_of_int_le`, though they may become the same double. Up to `2 ^ 53` they do not,
`rank_of_int_lt`.
-/

namespace MessageSelector.Double

open Float.Model Float.Model.UnpackedFloat
open Float.Model.Format (binary64)

variable {m n : Nat} {e f : Int}

/-! ## The double nearest to an integer -/

/-- A natural number up to `2 ^ 53` is exactly a double. -/
theorem exists_exact (hpos : 0 < n) (hle : n ≤ 2 ^ 53) :
    ∃ m e, 0 < m ∧ Canonical m e ∧ (m * 2 ^ e : ℚ) = n := by
  rcases Nat.lt_or_eq_of_le hle with hlt | rfl
  · obtain ⟨m, e, hm, hparts, -, hvalue⟩ := is_exactly_nat hpos hlt
    exact ⟨m, e, hm, canonical_of_bits (parts_eq _ ▸ hparts), hvalue⟩
  · exact ⟨2 ^ 52, 1, by decide, ⟨by decide, .inl (Nat.le_refl _), by decide, by decide⟩,
      by norm_num⟩

/-- A natural number that is no larger than any word has a double nearest to it. -/
theorem exists_rounds (hpos : 0 < n) (hlt : n < 2 ^ 64) :
    ∃ m e, 0 < m ∧ Canonical m e ∧ RoundsTo n m e := by
  have hlow : (1 : ℚ) ≤ n := by exact_mod_cast hpos
  have hhigh : (n : ℚ) < 2 ^ 64 := by exact_mod_cast hlt
  have hnearest := nearest_of_literal (Nat.ne_of_gt hpos) 0
  rw [zpow_zero, mul_one] at hnearest
  generalize parts (Float.ofScientific n _ _) = double at hnearest
  cases hnearest with
  | zero hsmall =>
      have hleast : (2 : ℚ) ^ (-1075 : Int) < 1 := zpow_lt_one_of_neg₀ (by norm_num) (by decide)
      exact absurd hlow (not_le.mpr (hsmall.trans_lt hleast))
  | finite hpos hcanonical hrounds => exact ⟨_, _, hpos, hcanonical, hrounds⟩
  | infinity hlarge =>
      have hword : (2 : ℚ) ^ 64 ≤ 2 ^ (970 : Int) := by
        rw [← zpow_natCast]
        exact zpow_le_zpow_right₀ (by norm_num) (by decide)
      have hgreatest : (2 : ℚ) ^ (970 : Int) ≤ (2 ^ 54 - 1) * 2 ^ (970 : Int) :=
        le_mul_of_one_le_left (by positivity) (by norm_num)
      exact absurd hhigh (not_lt.mpr (hword.trans (hgreatest.trans hlarge)))

/-- The parts of a natural number as a double. -/
theorem parts_of_nat (hn : n ≠ 0) (hpos : 0 < m) (h : Canonical m e) (hrounds : RoundsTo n m e) :
    parts (Float.ofNat n) = .finite .positive m e hpos := by
  have hvalue : RoundsTo ((n : ℚ) * 10 ^ (0 : Int)) m e := by simpa using hrounds
  have hscientific := parts_scientific hn hpos h hvalue
  exact hscientific

/-! ## Integers in order -/

/-- The natural number zero becomes a zero. -/
theorem parts_of_nat_zero : parts (Float.ofNat 0) = .zero .positive :=
  parts_zero

/-- A natural number becomes a double of positive rank, the nearest one. -/
theorem rank_of_nat (hpos : 0 < n) (hlt : n < 2 ^ 64) :
    ∃ m e, Canonical m e ∧ RoundsTo n m e ∧ rank (Float.ofNat n) = magnitudeRank m e ∧
      0 < rank (Float.ofNat n) := by
  obtain ⟨m, e, hm, hcanonical, hrounds⟩ := exists_rounds hpos hlt
  have hrank : rank (Float.ofNat n) = magnitudeRank m e := by
    rw [rank, parts_of_nat (Nat.ne_of_gt hpos) hm hcanonical hrounds]
    rfl
  exact ⟨m, e, hcanonical, hrounds, hrank, hrank ▸ (magnitude_rank_bounds hm hcanonical).1⟩

/-- No natural number becomes a double of negative rank. -/
theorem rank_of_nat_nonneg (hlt : n < 2 ^ 64) : 0 ≤ rank (Float.ofNat n) := by
  rcases Nat.eq_zero_or_pos n with rfl | hpos
  · rw [rank, parts_of_nat_zero]
    exact Int.le_refl 0
  · obtain ⟨-, -, -, -, -, hrank⟩ := rank_of_nat hpos hlt
    exact hrank.le

/-- Natural numbers keep their order as doubles. -/
theorem rank_of_nat_le {a b : Nat} (h : a ≤ b) (hlt : b < 2 ^ 64) :
    rank (Float.ofNat a) ≤ rank (Float.ofNat b) := by
  rcases Nat.lt_or_eq_of_le h with hless | rfl
  · rcases Nat.eq_zero_or_pos a with rfl | hpos
    · rw [rank, parts_of_nat_zero]
      exact rank_of_nat_nonneg hlt
    · obtain ⟨m, e, hm, hrounds, hrank, -⟩ := rank_of_nat hpos (hless.trans hlt)
      obtain ⟨m', e', hm', hrounds', hrank', -⟩ := rank_of_nat (hpos.trans hless) hlt
      rw [hrank, hrank']
      exact hrounds.rank_le hrounds' hm hm' (by exact_mod_cast h)
  · exact Int.le_refl _

/-- A natural number up to `2 ^ 53` is the value of the double that it becomes. -/
theorem rank_of_nat_exact (hpos : 0 < n) (hle : n ≤ 2 ^ 53) :
    ∃ m e, Canonical m e ∧ (m * 2 ^ e : ℚ) = n ∧ rank (Float.ofNat n) = magnitudeRank m e := by
  obtain ⟨m, e, hm, hcanonical, hvalue⟩ := exists_exact hpos hle
  refine ⟨m, e, hcanonical, hvalue, ?_⟩
  rw [rank, parts_of_nat (Nat.ne_of_gt hpos) hm hcanonical (hvalue ▸ RoundsTo.self m e)]
  rfl

/-- Natural numbers up to `2 ^ 53` become different doubles. -/
theorem rank_of_nat_lt {a b : Nat} (h : a < b) (hle : b ≤ 2 ^ 53) :
    rank (Float.ofNat a) < rank (Float.ofNat b) := by
  have hpos : 0 < b := by omega
  refine lt_of_le_of_ne (rank_of_nat_le h.le (by omega)) fun heq => ?_
  rcases Nat.eq_zero_or_pos a with rfl | hapos
  · obtain ⟨-, -, -, -, -, hpositive⟩ := rank_of_nat hpos (by omega)
    rw [← heq, rank, parts_of_nat_zero] at hpositive
    exact absurd hpositive (Int.lt_irrefl 0)
  · obtain ⟨m, e, hcanonical, hvalue, hrank⟩ := rank_of_nat_exact hapos (h.le.trans hle)
    obtain ⟨m', e', hcanonical', hvalue', hrank'⟩ := rank_of_nat_exact hpos hle
    obtain ⟨rfl, rfl⟩ := magnitude_rank_inj hcanonical hcanonical' (by rw [← hrank, ← hrank', heq])
    have hsame : (a : ℚ) = b := hvalue.symm.trans hvalue'
    exact absurd (by exact_mod_cast hsame) (Nat.ne_of_lt h)

/-- A negative integer becomes a double of negative rank, as far from zero as its opposite. -/
theorem rank_of_neg_succ (p : Nat) :
    rank (Float.ofInt (.negSucc p)) = -rank (Float.ofNat (p + 1)) :=
  rank_neg _

/-- Integers keep their order as doubles. -/
theorem rank_of_int_le {a b : Int} (h : a ≤ b) (hlow : -2 ^ 64 < a) (hhigh : b < 2 ^ 64) :
    rank (Float.ofInt a) ≤ rank (Float.ofInt b) := by
  cases a with
  | ofNat p =>
      cases b with
      | ofNat q => exact rank_of_nat_le (Int.ofNat_le.mp h) (by simpa using hhigh)
      | negSucc q =>
          exact absurd h (Int.not_le.mpr (Int.negSucc_lt_zero q |>.trans_le p.cast_nonneg))
  | negSucc p =>
      rw [rank_of_neg_succ]
      cases b with
      | ofNat q =>
          have hp := @rank_of_nat_nonneg (p + 1) (by omega)
          have hq := @rank_of_nat_nonneg q (by simpa using hhigh)
          exact (Int.neg_nonpos_of_nonneg hp).trans hq
      | negSucc q =>
          rw [rank_of_neg_succ]
          exact Int.neg_le_neg (rank_of_nat_le (by omega) (by omega))

/-- Integers of no more than `2 ^ 53` in magnitude become different doubles. -/
theorem rank_of_int_lt {a b : Int} (h : a < b) (hlow : -2 ^ 53 ≤ a) (hhigh : b ≤ 2 ^ 53) :
    rank (Float.ofInt a) < rank (Float.ofInt b) := by
  cases a with
  | ofNat p =>
      cases b with
      | ofNat q => exact rank_of_nat_lt (Int.ofNat_lt.mp h) (by simpa using hhigh)
      | negSucc q =>
          exact absurd h (Int.not_lt.mpr (Int.negSucc_lt_zero q |>.le.trans p.cast_nonneg))
  | negSucc p =>
      rw [rank_of_neg_succ]
      cases b with
      | ofNat q =>
          obtain ⟨-, -, -, -, -, hp⟩ := @rank_of_nat (p + 1) (by omega) (by omega)
          have hq := @rank_of_nat_nonneg q (by simp at hhigh; omega)
          exact (Int.neg_neg_of_pos hp).trans_le hq
      | negSucc q =>
          rw [rank_of_neg_succ]
          exact Int.neg_lt_neg (rank_of_nat_lt (by omega) (by omega))

/-- An integer becomes a number. -/
theorem not_nan_of_int {z : Int} (hlow : -2 ^ 64 < z) (hhigh : z < 2 ^ 64) :
    (Float.ofInt z).isNaN = false := by
  have hnat {n : Nat} (hlt : n < 2 ^ 64) : (parts (Float.ofNat n)).isNaN = false := by
    rcases Nat.eq_zero_or_pos n with rfl | hpos
    · rw [parts_of_nat_zero]
      rfl
    · obtain ⟨m, e, hm, hcanonical, hrounds⟩ := exists_rounds hpos hlt
      rw [parts_of_nat (Nat.ne_of_gt hpos) hm hcanonical hrounds]
      rfl
  cases z with
  | ofNat n => exact hnat (by simpa using hhigh)
  | negSucc n =>
      have hparts : parts (Float.ofInt (.negSucc n)) = (parts (Float.ofNat (n + 1))).neg :=
        parts_neg _
      change (parts (Float.ofInt (.negSucc n))).isNaN = false
      have hnumber := @hnat (n + 1) (by omega)
      rw [hparts]
      cases hcases : parts (Float.ofNat (n + 1)) with
      | notANumber =>
          rw [hcases] at hnumber
          cases hnumber
      | zero | infinity | finite => rfl

end MessageSelector.Double
