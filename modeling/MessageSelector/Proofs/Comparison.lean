import Mathlib
import MessageSelector.Value.Comparison

/-!
# Equality of values as a selector sees it

Doubles are ordered by the parts of their bits, so exchanging the operands of a comparison only
swaps the order. Read `equals_comm` first: equality does not depend on which operand is written on
the left.
-/

namespace MessageSelector

namespace Value

/-- Two numbers given by their parts compare the other way round when they are exchanged. -/
theorem unpacked_compare_swap (a b : Float.Model.UnpackedFloat) :
    b.compare a = (a.compare b).map Ordering.swap := by
  cases a with
  | notANumber => cases b <;> rfl
  | infinity s =>
      cases b with
      | infinity t => cases s <;> cases t <;> rfl
      | _ => cases s <;> rfl
  | zero s =>
      cases b with
      | finite t m e hm => cases t <;> rfl
      | infinity t => cases t <;> rfl
      | _ => rfl
  | finite s m e hm =>
      cases b with
      | notANumber => cases s <;> rfl
      | infinity t => cases t <;> cases s <;> rfl
      | zero t => cases s <;> rfl
      | finite t n f hn =>
          -- Of two numbers with one sign the exponents decide, and then the mantissas.
          cases s <;> cases t
          · simp [Float.Model.UnpackedFloat.compare, Ordering.swap_then, Int.compare_swap,
              Nat.compare_swap]
          · rfl
          · rfl
          · simp [Float.Model.UnpackedFloat.compare, Ordering.swap_then, Int.compare_swap,
              Nat.compare_swap]

/-- A double is below another where the comparison of their parts says so. -/
theorem double_lt_iff (a b : Float) :
    a < b ↔ a.toModel.unpack.compare b.toModel.unpack = some .lt := by
  change decide ((a.toModel.unpack.compare b.toModel.unpack == some .lt) = true) = true ↔ _
  rw [decide_eq_true_iff, beq_iff_eq]

/-- The order of two doubles is the comparison of their parts. -/
theorem double_order_eq (a b : Float) :
    doubleOrder? a b = a.toModel.unpack.compare b.toModel.unpack := by
  have hgt := double_lt_iff b a
  have heq : (a == b) = true ↔ a.toModel.unpack.compare b.toModel.unpack = some .eq := by
    change (a.toModel.unpack.compare b.toModel.unpack == some .eq) = true ↔ _
    rw [beq_iff_eq]
  rw [unpacked_compare_swap a.toModel.unpack] at hgt
  unfold doubleOrder?
  simp only [double_lt_iff a b, hgt, heq]
  cases a.toModel.unpack.compare b.toModel.unpack with
  | none => rfl
  | some order => cases order <;> rfl

/-- Exchanging two doubles swaps their order. -/
theorem double_order_swap (a b : Float) :
    doubleOrder? b a = (doubleOrder? a b).map Ordering.swap := by
  rw [double_order_eq, double_order_eq, unpacked_compare_swap]

/-- An equality of two doubles gives the same outcome with its operands exchanged. -/
theorem compare_equal_float_comm (a b : Float) :
    compare .equal (float a) (float b) = compare .equal (float b) (float a) := by
  simp only [compare, double?, double_order_swap a b]
  cases doubleOrder? a b with
  | none => rfl
  | some order => cases order <;> rfl

/-- An equality gives the same outcome with its operands exchanged. -/
theorem compare_equal_comm (a b : Value) : compare .equal a b = compare .equal b a := by
  cases a with
  | string s =>
      cases b with
      | string t => simp only [compare, BEq.comm]
      | _ => rfl
  | boolean s =>
      cases b with
      | boolean t => simp only [compare, BEq.comm]
      | _ => rfl
  | integer m =>
      cases b with
      | integer n =>
          have hswap := Int.compare_swap m.toInt n.toInt
          simp only [compare, ← hswap]
          cases Ord.compare m.toInt n.toInt <;> rfl
      | float x => exact compare_equal_float_comm (Float.ofInt m.toInt) x
      | _ => rfl
  | float x =>
      cases b with
      | integer n => exact compare_equal_float_comm x (Float.ofInt n.toInt)
      | float y => exact compare_equal_float_comm x y
      | _ => rfl

/-- Values are equal in one order exactly where they are equal in the other. -/
theorem equals_comm (a b : Value) : a.equals b = b.equals a :=
  congrArg Truth.isHolds (compare_equal_comm a b)

end Value

end MessageSelector
