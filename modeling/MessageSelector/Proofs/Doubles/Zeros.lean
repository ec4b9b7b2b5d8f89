import MessageSelector.Proofs.Comparison
import MessageSelector.Proofs.Doubles.Parts
import MessageSelector.Value.Arithmetic

/-!
# The two zeros

Doubles that are found equal are the same, but for the two zeros. A comparison cannot tell those
apart. A result of either one is the same double again or one of the zeros, unless it is divided by:
only a quotient makes different numbers of them.
-/

namespace MessageSelector.Double

open Float.Model Float.Model.UnpackedFloat
open Float.Model.Format (binary64)

/-! ## Parts -/

/-- The parts of two doubles agree, but for the sign of a zero. -/
inductive PartsAlike : UnpackedFloat → UnpackedFloat → Prop where
  | same (parts) : PartsAlike parts parts
  | zeros (sign sign') : PartsAlike (.zero sign) (.zero sign')

variable {a a' b b' : UnpackedFloat}

/-- The sign of a zero is nothing to a comparison. -/
theorem PartsAlike.compare_eq (ha : PartsAlike a a') (hb : PartsAlike b b') :
    a.compare b = a'.compare b' := by
  cases ha with
  | same =>
      cases hb with
      | same => rfl
      | zeros => rcases a with (_ | _) | _ | _ | ⟨_ | _, _⟩ <;> rfl
  | zeros =>
      cases hb with
      | same => rcases b with (_ | _) | _ | _ | ⟨_ | _, _⟩ <;> rfl
      | zeros => rfl

/-- Numbers of one sign are the same where neither part of the one is less or greater. -/
theorem eq_of_then_eq {m n : Nat} {e f : Int}
    (h : (Ord.compare e f).then (Ord.compare m n) = .eq) : e = f ∧ m = n := by
  rw [Ordering.then_eq_eq, Int.compare_eq_eq, Nat.compare_eq_eq] at h
  exact h

/-- Parts that compare as equal agree, but for the sign of a zero. -/
theorem parts_alike_of_compare (h : a.compare b = some .eq) : PartsAlike a b := by
  cases a with
  | notANumber => cases h
  | infinity s =>
      cases b with
      | infinity t => cases s <;> cases t <;> first | exact .same _ | cases h
      | _ => cases s <;> cases h
  | zero s =>
      cases b with
      | zero t => exact .zeros s t
      | infinity t | finite t => cases t <;> cases h
      | notANumber => cases h
  | finite s m e hm =>
      cases b with
      | finite t n f hn =>
          cases s <;> cases t
          · simp only [UnpackedFloat.compare, Option.some.injEq, Ordering.swap_eq_eq] at h
            obtain ⟨rfl, rfl⟩ := eq_of_then_eq h
            exact .same _
          · cases h
          · cases h
          · simp only [UnpackedFloat.compare, Option.some.injEq] at h
            obtain ⟨rfl, rfl⟩ := eq_of_then_eq h
            exact .same _
      | infinity t => cases s <;> cases t <;> cases h
      | zero t => cases s <;> cases h
      | notANumber => cases s <;> cases h

/-- The parts of a result before they are packed. -/
def partsOf (op : Arithmetic) (a b : UnpackedFloat) : UnpackedFloat :=
  match op with
  | .add => a.add binary64 b
  | .subtract => a.sub binary64 b
  | .multiply => a.mul binary64 b
  | .divide => a.div binary64 b

/-- A result with either zero on the left is the same, or a zero again. -/
theorem parts_alike_zero_left (op : Arithmetic) (s s' : UnpackedFloat.Sign) (b : UnpackedFloat) :
    PartsAlike (partsOf op (.zero s) b) (partsOf op (.zero s') b) := by
  cases op with
  | add | subtract | multiply | divide =>
      cases b with
      | zero t => cases s <;> cases s' <;> cases t <;> first | exact .zeros _ _ | exact .same _
      | notANumber | infinity | finite => first | exact .same _ | exact .zeros _ _

/-- A result with either zero on the right is the same, or a zero again, quotients apart. -/
theorem parts_alike_zero_right {op : Arithmetic} (hop : op ≠ .divide) (a : UnpackedFloat)
    (s s' : UnpackedFloat.Sign) :
    PartsAlike (partsOf op a (.zero s)) (partsOf op a (.zero s')) := by
  cases op with
  | divide => exact absurd rfl hop
  | add | subtract | multiply =>
      cases a with
      | zero t => cases s <;> cases s' <;> cases t <;> exact .zeros _ _
      | notANumber | infinity | finite => first | exact .same _ | exact .zeros _ _

/-- Agreement is passed on one after the other. -/
theorem PartsAlike.trans {c : UnpackedFloat} (hab : PartsAlike a b) (hbc : PartsAlike b c) :
    PartsAlike a c := by
  cases hab with
  | same => exact hbc
  | zeros s t =>
      cases hbc with
      | same => exact .zeros s t
      | zeros _ u => exact .zeros s u

/-- What treats the two zeros alike keeps agreement. -/
theorem PartsAlike.map {f : UnpackedFloat → UnpackedFloat} (h : PartsAlike a b)
    (hzeros : ∀ s t, PartsAlike (f (.zero s)) (f (.zero t))) : PartsAlike (f a) (f b) := by
  cases h with
  | same => exact .same _
  | zeros s t => exact hzeros s t

/-! ## Doubles -/

/-- Two doubles agree, but for the sign of a zero. -/
def Alike (x y : Float) : Prop :=
  PartsAlike (parts x) (parts y)

variable {x x' y y' : Float}

/-- A double agrees with itself. -/
theorem Alike.rfl : Alike x x :=
  .same _

/-- Agreement is passed on one after the other. -/
theorem Alike.trans {z : Float} (hxy : Alike x y) (hyz : Alike y z) : Alike x z :=
  PartsAlike.trans hxy hyz

/-- Doubles that are found equal agree, but for the sign of a zero. -/
theorem alike_of_beq (h : (x == y) = true) : Alike x y := by
  refine parts_alike_of_compare ?_
  change ((parts x).compare (parts y) == some .eq) = true at h
  exact beq_iff_eq.mp h

/-- The order of two doubles does not depend on the sign of a zero. -/
theorem Alike.order_eq (hx : Alike x x') (hy : Alike y y') :
    Value.doubleOrder? x y = Value.doubleOrder? x' y' := by
  rw [Value.double_order_eq, Value.double_order_eq]
  exact PartsAlike.compare_eq hx hy

/-- Doubles that agree do so with their signs exchanged. -/
theorem Alike.neg (h : Alike x y) : Alike (-x) (-y) := by
  unfold Alike
  rw [parts_neg, parts_neg]
  exact h.map fun s t => .zeros (-s) (-t)

/-- The parts of a result are those of the operands' parts, once packed. -/
theorem parts_of_doubles (op : Arithmetic) (x y : Float) :
    parts (op.ofDoubles x y) =
      UnpackedFloat.unpack binary64
        (UnpackedFloat.pack binary64 (partsOf op (parts x) (parts y))) := by
  cases op <;> rfl

/-- Packing treats the two zeros alike. -/
theorem PartsAlike.packed (h : PartsAlike a b) :
    PartsAlike (UnpackedFloat.unpack binary64 (UnpackedFloat.pack binary64 a))
      (UnpackedFloat.unpack binary64 (UnpackedFloat.pack binary64 b)) := by
  refine h.map (f := fun parts => UnpackedFloat.unpack binary64 (UnpackedFloat.pack binary64 parts))
    fun s t => ?_
  cases s <;> cases t <;> exact .zeros _ _

/-- Results of doubles that agree on the left do so again. -/
theorem Alike.of_doubles_left (op : Arithmetic) (h : Alike x x') (y : Float) :
    Alike (op.ofDoubles x y) (op.ofDoubles x' y) := by
  unfold Alike
  rw [parts_of_doubles, parts_of_doubles]
  exact (PartsAlike.map (f := (partsOf op · (parts y))) h
    fun s t => parts_alike_zero_left op s t _).packed

/-- Results of doubles that agree on the right do so again, quotients apart. -/
theorem Alike.of_doubles_right {op : Arithmetic} (hop : op ≠ .divide) (x : Float)
    (h : Alike y y') : Alike (op.ofDoubles x y) (op.ofDoubles x y') := by
  unfold Alike
  rw [parts_of_doubles, parts_of_doubles]
  exact (PartsAlike.map (f := partsOf op (parts x)) h
    fun s t => parts_alike_zero_right hop _ s t).packed

/-! ## Signs of zeros -/

/-- The sign of a double that is a zero, and nothing of any other. -/
def zeroSigns (x : Float) : List Sign :=
  match parts x with
  | .zero .positive => [.plus]
  | .zero .negative => [.minus]
  | _ => []

/-- Doubles that agree are zeros together. -/
theorem Alike.length_zero_signs (h : Alike x y) : (zeroSigns x).length = (zeroSigns y).length := by
  unfold Alike at h
  unfold zeroSigns
  generalize parts x = a, parts y = b at h
  cases h with
  | same => rfl
  | zeros s t => cases s <;> cases t <;> rfl

/-- Doubles that agree, with the same sign where they are zeros, are one double. -/
theorem Alike.eq_of_zero_signs (h : Alike x y) (hsigns : zeroSigns x = zeroSigns y) : x = y := by
  refine eq_of_parts ?_
  unfold Alike at h
  unfold zeroSigns at hsigns
  generalize parts x = a, parts y = b at h hsigns ⊢
  cases h with
  | same => rfl
  | zeros s t => cases s <;> cases t <;> first | rfl | cases hsigns

end MessageSelector.Double
