import MessageSelector.Decimal.Shortest

/-!
# Layouts of floating-point text

A layout settles what the digits leave open: which magnitudes are written positionally, how an
exponent is marked, and the choice between two equally near decimals. A positional number always
has a point, so that it reads back as a floating-point number.
-/

namespace MessageSelector.Decimal

/-- How the digits of a floating-point number are laid out. -/
structure Layout where
  /-- The least power of ten of a leading digit that is written positionally. -/
  leastPositional : Int
  /-- The greatest power of ten of a leading digit that is written positionally. -/
  greatestPositional : Int
  /-- What stands before a non-negative exponent. -/
  positiveMark : String
  /-- What stands before the digits of a negative exponent. -/
  negativeMark : String
  /-- The choice between two equally near decimals. -/
  tie : Tie
  deriving Repr

/-- A run of zeros. -/
def zeros (count : Nat) : String :=
  String.ofList (List.replicate count '0')

/-- Digits with the point after the first `places` of them, padded with zeros on either side. -/
def positional (digits : String) (places : Int) : String :=
  if places ≤ 0 then "0." ++ zeros (-places).toNat ++ digits
  else if digits.length ≤ places then
    digits ++ zeros (places.toNat - digits.length) ++ ".0"
  else
    let parts := digits.toList.splitAt places.toNat
    String.ofList parts.1 ++ "." ++ String.ofList parts.2

/-- Digits with the point after the first of them, where there are more. -/
def pointed (digits : String) : String :=
  match digits.toList with
  | first :: second :: rest => String.ofList (first :: '.' :: second :: rest)
  | digits => String.ofList digits

namespace Layout

/-- The text of a decimal number other than zero. -/
def writeDecimal (layout : Layout) (x : Decimal) : String :=
  let digits := toString x.digits
  let leading := digits.length + x.exponent - 1
  if layout.leastPositional ≤ leading && leading ≤ layout.greatestPositional then
    positional digits (leading + 1)
  else
    let mark := if leading < 0 then layout.negativeMark else layout.positiveMark
    pointed digits ++ mark ++ toString leading.natAbs

/-- The text of a floating-point number. -/
def write (layout : Layout) (x : Float) : String :=
  if x.isNaN then "NaN"
  else
    let sign := if x.toBits.toNat < Nat.pow 2 63 then "" else "-"
    let magnitude :=
      if x.isInf then "inf"
      else if x == 0 then "0.0"
      else layout.writeDecimal (shortest layout.tie (.ofFloat x))
    sign ++ magnitude

end Layout

end MessageSelector.Decimal
