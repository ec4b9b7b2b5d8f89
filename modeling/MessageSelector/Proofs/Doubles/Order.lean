import MessageSelector.Proofs.Comparison
import MessageSelector.Proofs.Doubles.Parts

/-!
# The order of doubles

The doubles that are numbers stand in a row, with the two infinities at its ends and the two zeros
in one place. `rank` is the place of a double in the row, counted from zero, and
`double_order_of_rank` says that doubles are in the order of their ranks. So the laws of the order
are those of the integers.
-/

namespace MessageSelector.Double

open Float.Model Float.Model.UnpackedFloat
open Float.Model.Format (binary64)

/-! ## Ranks -/

/-- How many doubles there are from zero up to a positive one. -/
def magnitudeRank (mantissa : Nat) (exponent : Int) : Int :=
  (exponent + 1074) * 2 ^ 52 + mantissa

/-- The place of a number among the doubles. -/
def rankOf : UnpackedFloat → Int
  | .notANumber | .zero _ => 0
  | .infinity sign => sign.apply (2047 * 2 ^ 52)
  | .finite sign mantissa exponent _ => sign.apply (magnitudeRank mantissa exponent)

/-- The place of a double among all of them. -/
def rank (x : Float) : Int :=
  rankOf (parts x)

variable {m n : Nat} {e f : Int}

/-- A positive double is behind zero and in front of the infinity. -/
theorem magnitude_rank_bounds (hpos : 0 < m) (h : Canonical m e) :
    0 < magnitudeRank m e ∧ magnitudeRank m e < 2047 * 2 ^ 52 := by
  obtain ⟨hlt, -, hge, hle⟩ := h
  unfold magnitudeRank
  omega

/-- A greater exponent makes a double greater, whatever the mantissas are. -/
theorem magnitude_rank_lt_of_exponent (hm : Canonical m e) (hn : Canonical n f) (h : e < f) :
    magnitudeRank m e < magnitudeRank n f := by
  have hge := hm.exponent_ge
  have hlt := hm.mantissa_lt
  have hnormal := hn.normal.resolve_right (by omega)
  unfold magnitudeRank
  omega

/-- The exponents decide the order of positive doubles, and then the mantissas. -/
theorem compare_magnitudes (hm : Canonical m e) (hn : Canonical n f) :
    (Ord.compare e f).then (Ord.compare m n) =
      Ord.compare (magnitudeRank m e) (magnitudeRank n f) := by
  rcases Int.lt_trichotomy e f with hlt | rfl | hgt
  · rw [Int.compare_eq_lt.mpr hlt,
      Int.compare_eq_lt.mpr (magnitude_rank_lt_of_exponent hm hn hlt)]
    rfl
  · rw [Int.compare_eq_eq.mpr rfl, Ordering.eq_then]
    unfold magnitudeRank
    rcases Nat.lt_trichotomy m n with hlt | rfl | hgt
    · rw [Nat.compare_eq_lt.mpr hlt, Int.compare_eq_lt.mpr (by omega)]
    · rw [Nat.compare_eq_eq.mpr rfl, Int.compare_eq_eq.mpr rfl]
    · rw [Nat.compare_eq_gt.mpr hgt, Int.compare_eq_gt.mpr (by omega)]
  · rw [Int.compare_eq_gt.mpr hgt,
      Int.compare_eq_gt.mpr (magnitude_rank_lt_of_exponent hn hm hgt)]
    rfl

/-- Positive doubles of one rank are the same. -/
theorem magnitude_rank_inj (hm : Canonical m e) (hn : Canonical n f)
    (h : magnitudeRank m e = magnitudeRank n f) : m = n ∧ e = f := by
  have hcompare := compare_magnitudes hm hn
  rw [Int.compare_eq_eq.mpr h, Ordering.then_eq_eq, Int.compare_eq_eq,
    Nat.compare_eq_eq] at hcompare
  exact ⟨hcompare.2, hcompare.1⟩

/-! ## Comparison -/

/-- The parts of a number have a mantissa and an exponent as doubles have them. -/
def HasDoubleParts (a : UnpackedFloat) : Prop :=
  ∀ sign mantissa exponent hpos, a = .finite sign mantissa exponent hpos →
    Canonical mantissa exponent

/-- So have the parts of a double. -/
theorem has_double_parts (x : Float) : HasDoubleParts (parts x) := by
  intro sign mantissa exponent hpos h
  exact canonical_of_bits (parts_eq x ▸ h)

/-- The rank of a finite number lies between those of the infinities, on the side of its sign. -/
theorem rank_of_finite_bounds {sign : UnpackedFloat.Sign} {hpos : 0 < m}
    (h : HasDoubleParts (.finite sign m e hpos)) :
    -(2047 * 2 ^ 52) < rankOf (.finite sign m e hpos) ∧
      rankOf (.finite sign m e hpos) < 2047 * 2 ^ 52 ∧
        match sign with
        | .positive => 0 < rankOf (.finite sign m e hpos)
        | .negative => rankOf (.finite sign m e hpos) < 0 := by
  obtain ⟨hlow, hhigh⟩ := magnitude_rank_bounds hpos (h sign m e hpos rfl)
  cases sign <;> simp only [rankOf, Sign.apply] <;> omega

/-- Exchanging signs swaps the order of integers. -/
theorem compare_neg (p q : Int) : Ord.compare (-p) (-q) = (Ord.compare p q).swap := by
  rw [Int.compare_swap]
  rcases Int.lt_trichotomy p q with hlt | rfl | hgt
  · rw [Int.compare_eq_gt.mpr (by omega), Int.compare_eq_gt.mpr hlt]
  · rw [Int.compare_eq_eq.mpr rfl, Int.compare_eq_eq.mpr rfl]
  · rw [Int.compare_eq_lt.mpr (by omega), Int.compare_eq_lt.mpr hgt]

/-- Numbers compare as their ranks do. -/
theorem compare_of_ranks {a b : UnpackedFloat} (ha : HasDoubleParts a) (hb : HasDoubleParts b)
    (hnumber : a ≠ .notANumber) (hnumber' : b ≠ .notANumber) :
    a.compare b = some (Ord.compare (rankOf a) (rankOf b)) := by
  have less {p q : Int} (h : p < q) : some Ordering.lt = some (Ord.compare p q) := by
    rw [Int.compare_eq_lt.mpr h]
  have greater {p q : Int} (h : q < p) : some Ordering.gt = some (Ord.compare p q) := by
    rw [Int.compare_eq_gt.mpr h]
  -- Unless both are finite and of one sign, the kinds and the signs settle the order.
  cases a with
  | notANumber => exact absurd rfl hnumber
  | infinity s =>
      cases b with
      | notANumber => exact absurd rfl hnumber'
      | infinity t => cases s <;> cases t <;> rfl
      | zero t => cases s <;> rfl
      | finite t n f hn =>
          obtain ⟨hlow, hhigh, -⟩ := rank_of_finite_bounds hb
          cases s with
          | positive => exact greater hhigh
          | negative => exact less hlow
  | zero s =>
      cases b with
      | notANumber => exact absurd rfl hnumber'
      | infinity t => cases t <;> rfl
      | zero t => rfl
      | finite t n f hn =>
          obtain ⟨-, -, hsign⟩ := rank_of_finite_bounds hb
          cases t with
          | positive => exact less hsign
          | negative => exact greater hsign
  | finite s m e hm =>
      obtain ⟨hlow, hhigh, hsign⟩ := rank_of_finite_bounds ha
      cases b with
      | notANumber => exact absurd rfl hnumber'
      | infinity t =>
          cases t with
          | positive => exact less hhigh
          | negative => exact greater hlow
      | zero t =>
          cases s with
          | positive => exact greater hsign
          | negative => exact less hsign
      | finite t n f hn =>
          obtain ⟨-, -, hsign'⟩ := rank_of_finite_bounds hb
          have hcompare := compare_magnitudes (ha s m e hm rfl) (hb t n f hn rfl)
          cases s with
          | positive =>
              cases t with
              | positive => exact congrArg some hcompare
              | negative => exact greater (Int.lt_trans hsign' hsign)
          | negative =>
              cases t with
              | positive => exact less (Int.lt_trans hsign hsign')
              | negative => exact congrArg some ((congrArg Ordering.swap hcompare).trans
                  (compare_neg _ _).symm)

/-- A double that is a number has parts that are one. -/
theorem parts_ne_nan {x : Float} (h : x.isNaN = false) : parts x ≠ .notANumber := by
  intro hparts
  change (parts x).isNaN = false at h
  rw [hparts] at h
  cases h

/-- Doubles are in the order of their ranks. -/
theorem double_order_of_rank {x y : Float} (hx : x.isNaN = false) (hy : y.isNaN = false) :
    Value.doubleOrder? x y = some (Ord.compare (rank x) (rank y)) := by
  rw [Value.double_order_eq]
  exact compare_of_ranks (has_double_parts x) (has_double_parts y) (parts_ne_nan hx)
    (parts_ne_nan hy)

/-- The other sign puts a double on the other side of zero. -/
theorem rank_neg (x : Float) : rank (-x) = -rank x := by
  unfold rank
  rw [parts_neg]
  cases parts x with
  | notANumber => rfl
  | zero => rfl
  | infinity sign => cases sign <;> simp [rankOf, UnpackedFloat.neg, Sign.apply]
  | finite sign => cases sign <;> simp [rankOf, UnpackedFloat.neg, Sign.apply]

end MessageSelector.Double
