import MessageSelector.Integer

/-!
# Decimal numbers

A decimal number is a whole number of units of a power of ten. It is read from digits with an
optional point and exponent, and rounds to the nearest floating-point number.
-/

namespace MessageSelector

/-- The number `digits * 10 ^ exponent`. -/
structure Decimal where
  digits : Nat
  exponent : Int
  deriving DecidableEq, Repr, Inhabited

namespace Decimal

/-- One more than the decimal logarithm, rounded up or one too large: `digits < 10 ^ bound`. -/
def digitBound (digits : Nat) : Nat :=
  (digits.log2 + 1) * 30103 / 100000 + 1

/-- The nearest double, half-way cases to the even one. The two bounds answer at once where the
number is far too large or too small for any finite double. -/
def toFloat (x : Decimal) : Float :=
  if x.digits = 0 || digitBound x.digits + x.exponent < -330 then 0
  else if x.exponent > 310 then 1 / 0
  else Float.ofScientific x.digits (x.exponent < 0) x.exponent.natAbs

/-- The nearest single, half-way cases to the even one, as a double. -/
def toSingle (x : Decimal) : Float :=
  if x.digits = 0 || digitBound x.digits + x.exponent < -60 then 0
  else if x.exponent > 40 then 1 / 0
  else (Float32.ofScientific x.digits (x.exponent < 0) x.exponent.natAbs).toFloat

/-- The digits in front of a text, and the rest. -/
def splitDigits (text : List Char) : List Char × List Char :=
  text.span Char.isDigit

/-- An exponent that ends a text: its mark, at most one sign, and at least one digit. -/
def readExponent? : List Char → Option Int
  | [] => some 0
  | mark :: rest =>
    let (negative, digits) := Integer.splitSign rest
    if (mark = 'e' || mark = 'E') && !digits.isEmpty && digits.all Char.isDigit then
      let magnitude : Int := Integer.ofDigits 10 digits
      some (if negative then -magnitude else magnitude)
    else none

/-- A number without a sign: digits with at most one point among or beside them, then an optional
exponent. -/
def read? (text : List Char) : Option Decimal :=
  let (whole, rest) := splitDigits text
  let (fraction, rest) := match rest with
    | '.' :: rest => splitDigits rest
    | rest => ([], rest)
  if whole.isEmpty && fraction.isEmpty then none
  else do
    let exponent ← readExponent? rest
    return ⟨Integer.ofDigits 10 (whole ++ fraction), exponent - fraction.length⟩

/-- A floating-point number in text: after at most one sign, a decimal number or the name of
infinity or of the undefined number. The decimal number is rounded by `round`. -/
def readFloat? (round : Decimal → Float) (text : String) : Option Float :=
  let (negative, rest) := Integer.splitSign text.toList
  let magnitude :=
    match (String.ofList rest).toLower with
    | "inf" | "infinity" => some (1 / 0)
    | "nan" => some (0 / 0)
    | _ => (read? rest).map round
  magnitude.map fun x => if negative then -x else x

/-- A finite floating-point number in text. -/
def readFinite? (text : String) : Option Float := do
  let number ← readFloat? toFloat text
  if number.isFinite then some number else none

end Decimal

end MessageSelector
