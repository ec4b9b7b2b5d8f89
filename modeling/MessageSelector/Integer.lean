/-!
# Integers of 64 bits

Integer values are 64-bit words. Results are computed over the unbounded integers and narrowed, so
nothing wraps, and whole numbers are read from text in the same way.
-/

namespace MessageSelector.Integer

/-- The word that represents an integer, if there is one. -/
def narrow (n : Int) : Option Int64 :=
  if -9223372036854775808 ≤ n ∧ n < 9223372036854775808 then some (Int64.ofInt n) else none

/-- Hexadecimal digits in either case. -/
def isHexDigit (c : Char) : Bool :=
  c.isDigit || ('a' ≤ c && c ≤ 'f') || ('A' ≤ c && c ≤ 'F')

/-- The value of a digit in a base of up to sixteen. -/
def digitValue (c : Char) : Nat :=
  if c.isDigit then c.toNat - '0'.toNat
  else if 'a' ≤ c then c.toNat - 'a'.toNat + 10
  else c.toNat - 'A'.toNat + 10

/-- The number that digits denote in a base, the most significant digit first. -/
def ofDigits (base : Nat) (digits : List Char) : Nat :=
  digits.foldl (fun value c => value * base + digitValue c) 0

/-- A sign in front of the rest of a text: whether it is a minus, and the rest. -/
def splitSign : List Char → Bool × List Char
  | '-' :: rest => (true, rest)
  | '+' :: rest => (false, rest)
  | rest => (false, rest)

/-- A whole number in decimal digits, after at most one sign. -/
def read? (text : String) : Option Int :=
  let (negative, digits) := splitSign text.toList
  if digits.isEmpty || !digits.all Char.isDigit then none
  else
    let magnitude : Int := ofDigits 10 digits
    some (if negative then -magnitude else magnitude)

/-- A whole number in decimal digits that fits a word. -/
def readWord? (text : String) : Option Int64 :=
  read? text >>= narrow

end MessageSelector.Integer
