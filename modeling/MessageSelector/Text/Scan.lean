import MessageSelector.Integer

/-!
# Reading from the front of a text

A scan takes a part off the front of a text and leaves the rest, or fails.
-/

namespace MessageSelector.Text

/-- Reading from the front of a text, which may fail. -/
abbrev Scan := StateT (List Char) Option

namespace Scan

/-- The next character. -/
def next : Scan Char
  | c :: rest => some (c, rest)
  | [] => none

/-- One of the given characters. -/
def oneOf (expected : List Char) : Scan Char := do
  let c ← next
  guard (expected.contains c)
  return c

/-- A given character. -/
def expect (expected : Char) : Scan Unit := do
  let _ ← oneOf [expected]

/-- A number of exactly `count` decimal digits, no greater than a limit. -/
def number (count limit : Nat) : Scan Nat := fun text => do
  let digits := text.take count
  guard (digits.length = count && digits.all Char.isDigit)
  let value := Integer.ofDigits 10 digits
  guard (value ≤ limit)
  return (value, text.drop count)

/-- A hexadecimal digit. -/
def hexDigit : Scan Nat := do
  let c ← next
  guard (Integer.isHexDigit c)
  return Integer.digitValue c

end Scan

end MessageSelector.Text
