import MessageSelector.Operator
import MessageSelector.Truth
import MessageSelector.Value

/-!
# Comparison of values

Integers compare exactly and other pairs of numbers as doubles. Strings and booleans know only
equality, each among their own. Every other pair is unknown.
-/

namespace MessageSelector

namespace Value

/-- The order of two doubles. The undefined number has no order, even with itself. -/
def doubleOrder? (a b : Float) : Option Ordering :=
  if a < b then some .lt else if a == b then some .eq else if b < a then some .gt else none

/-- A number as a double; integers round to the nearest one. -/
def double? : Value → Option Float
  | integer number => some (Float.ofInt number.toInt)
  | float number => some number
  | string _ | boolean _ => none

/-- The outcome of a comparison that needs no order, for operands known to be the same or not. -/
def compareSame (op : Comparison) (same : Bool) : Truth :=
  match op with
  | .equal => .ofBool same
  | .notEqual => .ofBool !same
  | _ => .unknown

/-- The comparison of two values. The undefined number is unequal to every number and in no order
with any. -/
def compare (op : Comparison) : Value → Value → Truth
  | integer a, integer b => .ofBool (op.accepts (Ord.compare a.toInt b.toInt))
  | string a, string b => compareSame op (a == b)
  | boolean a, boolean b => compareSame op (a == b)
  | a, b =>
    match a.double?, b.double? with
    | some a, some b =>
      match doubleOrder? a b with
      | some order => .ofBool (op.accepts order)
      | none => .ofBool (op = .notEqual)
    | _, _ => .unknown

/-- Whether two values are equal as a selector sees them. -/
def equals (a b : Value) : Bool :=
  (compare .equal a b).isHolds

end Value

end MessageSelector
