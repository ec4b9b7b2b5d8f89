import MessageSelector.Integer
import MessageSelector.Json

/-!
# JSON numbers

Digits are gathered into a significand as long as it fits 64 bits. Without a fraction, an exponent
or digits left over, the number is whole; a negative zero and whole numbers below the signed range
are floating-point numbers all the same. Any other number is the significand as a double, multiplied
or divided once by a power of ten, and has to be finite.
-/

namespace MessageSelector.Json

/-- A significand with the digits at the front of a text appended as long as it fits 64 bits, how
many of them were appended, and the rest. -/
def gather (significand appended : Nat) : List Char → Nat × Nat × List Char
  | c :: rest =>
    let longer := significand * 10 + Integer.digitValue c
    if c.isDigit && longer < Nat.pow 2 64 then gather longer (appended + 1) rest
    else (significand, appended, c :: rest)
  | [] => (significand, appended, [])

/-- A power of ten as a double. -/
def powerOfTen (power : Nat) : Float :=
  Float.ofScientific 1 false power

/-- A number divided by a power of ten, in steps of the greatest power that is a double; three steps
bring any number down to zero. -/
def divide : (steps : Nat) → Float → (power : Nat) → Float
  | 0, number, _ => number
  | steps + 1, number, power =>
    if power ≤ 308 then number / powerOfTen power
    else if number == 0 then number
    else divide steps (number / powerOfTen 308) (power - 308)

/-- A significand times a power of ten, unless it is infinite. -/
def scale? (significand : Nat) (exponent : Int) : Option Float :=
  let number := Float.ofNat significand
  if exponent < 0 then some (divide 4 number exponent.natAbs)
  else if 308 < exponent then if significand = 0 then some number else none
  else
    let product := number * powerOfTen exponent.natAbs
    if product.isFinite then some product else none

/-- The fraction of a number after its point: the longer significand, the digits appended to it, and
the rest. There has to be a digit. -/
def fraction? (significand : Nat) (text : List Char) : Option (Nat × Nat × List Char) := do
  guard (text.head?.any Char.isDigit)
  let (significand, appended, rest) := gather significand 0 text
  return (significand, appended, rest.dropWhile Char.isDigit)

/-- The exponent of a number after its mark, and the rest. There has to be a digit. -/
def exponent? (text : List Char) : Option (Int × List Char) := do
  let (negative, rest) := Integer.splitSign text
  let (digits, rest) := rest.span Char.isDigit
  guard (!digits.isEmpty)
  let magnitude : Int := Integer.ofDigits 10 digits
  return (if negative then -magnitude else magnitude, rest)

/-- A whole number under its sign. -/
def wholeNumber (negative : Bool) (magnitude : Nat) : Json :=
  if !negative then integer magnitude
  else if magnitude = 0 || Nat.pow 2 63 < magnitude then float (-Float.ofNat magnitude)
  else integer (-(magnitude : Int))

/-- A number without its sign, at the front of a text, and the rest. A leading zero stands alone. -/
def unsigned? (negative : Bool) (text : List Char) : Option (Json × List Char) := do
  guard (text.head?.any Char.isDigit)
  guard (!(text.head? = some '0' && text.tail.head?.any Char.isDigit))
  let (significand, _, rest) := gather 0 0 text
  let (leftOver, rest) := rest.span Char.isDigit
  let signed (magnitude : Float) : Json := float (if negative then -magnitude else magnitude)
  let finish (significand : Nat) (power : Int) : List Char → Option (Json × List Char)
    | mark :: rest => do
      if mark = 'e' || mark = 'E' then
        let (exponent, rest) ← exponent? rest
        return (signed (← scale? significand (power + exponent)), rest)
      else return (signed (← scale? significand power), mark :: rest)
    | [] => do return (signed (← scale? significand power), [])
  match rest with
  | '.' :: rest =>
    let (significand, appended, rest) ← fraction? significand rest
    finish significand (leftOver.length - appended) rest
  | mark :: _ =>
    if mark = 'e' || mark = 'E' || !leftOver.isEmpty then finish significand leftOver.length rest
    else return (wholeNumber negative significand, rest)
  | [] =>
    if leftOver.isEmpty then return (wholeNumber negative significand, [])
    else finish significand leftOver.length []

/-- A number at the front of a text, and the rest. -/
def number? : List Char → Option (Json × List Char)
  | '-' :: rest => unsigned? true rest
  | text => unsigned? false text

end MessageSelector.Json
