import MessageSelector.Decimal.Layout
import MessageSelector.Text.Quoted

/-!
# Values

A value is a literal of a selector or the value of a header or property of a message. Integers of
every width are held as 64-bit words and both floating-point widths as doubles.
-/

namespace MessageSelector

/-- A typed scalar. Sameness is that of the parts: numbers of the two numeric types differ, the
undefined number differs from itself, and the two zeros are the same. -/
inductive Value where
  | string (text : String)
  | integer (number : Int64)
  | float (number : Float)
  | boolean (flag : Bool)
  deriving BEq, Inhabited

namespace Value

/-- The text of a string. -/
def string? : Value → Option String
  | string text => some text
  | _ => none

/-- The flag of a boolean. -/
def boolean? : Value → Option Bool
  | boolean flag => some flag
  | _ => none

/-- Whether arithmetic applies. -/
def isNumeric : Value → Bool
  | integer _ | float _ => true
  | string _ | boolean _ => false

/-- The name of the type. -/
def typeName : Value → String
  | string _ => "string"
  | integer _ => "integer"
  | float _ => "float"
  | boolean _ => "boolean"

/-- Floating-point literals of a selector are positional from `0.0001` up to below `10 ^ 16`, and
of two equally near decimals the larger one is written. -/
def floatLayout : Decimal.Layout where
  leastPositional := -4
  greatestPositional := 15
  positiveMark := "e"
  negativeMark := "e-"
  tie := .up

/-- The literal that denotes the value in a selector. -/
def text : Value → String
  | string text => Text.quote text
  | integer number => toString number.toInt
  | float number => floatLayout.write number
  | boolean true => "TRUE"
  | boolean false => "FALSE"

end Value

end MessageSelector
