import MessageSelector.Operator
import MessageSelector.Value.Comparison

/-!
# Arithmetic of values

Two integers give an integer, or nothing where the exact result does not fit or the divisor is
zero. Any other pair of numbers is computed in doubles. Strings and booleans have no arithmetic.
-/

namespace MessageSelector

namespace Arithmetic

/-- The exact result on integers; a quotient is cut towards zero. -/
def ofIntegers? (op : Arithmetic) (a b : Int) : Option Int :=
  match op with
  | add => some (a + b)
  | subtract => some (a - b)
  | multiply => some (a * b)
  | divide => if b = 0 then none else some (a.tdiv b)

/-- The rounded result on doubles. -/
def ofDoubles (op : Arithmetic) (a b : Float) : Float :=
  match op with
  | add => a + b
  | subtract => a - b
  | multiply => a * b
  | divide => a / b

end Arithmetic

namespace Value

/-- The result of an arithmetic operator, if there is one. -/
def arithmetic? (op : Arithmetic) : Value → Value → Option Value
  | integer a, integer b => do
    let result ← op.ofIntegers? a.toInt b.toInt
    integer <$> Integer.narrow result
  | a, b => do
    let a ← a.double?
    let b ← b.double?
    return float (op.ofDoubles a b)

/-- The number with the other sign, if it is one and fits. -/
def negate? : Value → Option Value
  | integer number => integer <$> Integer.narrow (-number.toInt)
  | float number => some (float (-number))
  | string _ | boolean _ => none

/-- The number under a sign. -/
def signed? : Sign → Value → Option Value
  | .plus, value => if value.isNumeric then some value else none
  | .minus, value => value.negate?

end Value

end MessageSelector
