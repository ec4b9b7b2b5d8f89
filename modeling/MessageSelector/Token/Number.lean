import MessageSelector.Decimal
import MessageSelector.Token

/-!
# Number literals

A floating-point literal has digits with a point or an exponent, or both, and may end in one of the
suffixes `f` and `d`. An integer literal is a run of decimal digits, or `0x` and a run of
hexadecimal ones, and may end in the suffix `l`. Letters count in either case. A literal is taken
only where it is not directly followed by a further word character.

Each reader below answers with the characters of its part and the rest of the text.
-/

namespace MessageSelector.Token

open MessageSelector.Decimal (splitDigits)

/-- A non-empty run of digits. -/
def digits? (text : List Char) : Option (List Char × List Char) :=
  match splitDigits text with
  | ([], _) => none
  | split => some split

/-- An exponent: its mark, at most one sign, and digits. -/
def exponent? : List Char → Option (List Char × List Char)
  | mark :: rest =>
    if mark = 'e' || mark = 'E' then
      match rest with
      | '+' :: rest => (digits? rest).map fun (digits, rest) => (mark :: '+' :: digits, rest)
      | '-' :: rest => (digits? rest).map fun (digits, rest) => (mark :: '-' :: digits, rest)
      | rest => (digits? rest).map fun (digits, rest) => (mark :: digits, rest)
    else none
  | [] => none

/-- A part together with the exponent that follows it, if one does. -/
def withExponent (part rest : List Char) : List Char × List Char :=
  match exponent? rest with
  | some (exponent, rest) => (part ++ exponent, rest)
  | none => (part, rest)

/-- Digits with a point or an exponent, or both. A point needs digits on one side of it, and digits
alone are no such number. -/
def mantissa? (text : List Char) : Option (List Char × List Char) :=
  match splitDigits text with
  | ([], '.' :: rest) =>
    (digits? rest).map fun (fraction, rest) => withExponent ('.' :: fraction) rest
  | ([], _) => none
  | (whole, '.' :: rest) =>
    let (fraction, rest) := splitDigits rest
    some (withExponent (whole ++ '.' :: fraction) rest)
  | (whole, rest) => (exponent? rest).map fun (exponent, rest) => (whole ++ exponent, rest)

/-- A run of decimal digits, or `0x` and hexadecimal ones. -/
def whole? (text : List Char) : Option (List Char × List Char) :=
  match text with
  | '0' :: x :: digit :: rest =>
    if (x = 'x' || x = 'X') && Integer.isHexDigit digit then
      let (digits, rest) := rest.span Integer.isHexDigit
      some ('0' :: x :: digit :: digits, rest)
    else digits? text
  | _ => digits? text

/-- A part together with one suffix letter, if one follows, provided that the word ends there. -/
def withSuffix (isSuffix : Char → Bool) (part rest : List Char) :
    Option (List Char × List Char) :=
  let (part, rest) := match rest with
    | c :: following => if isSuffix c then (part ++ [c], following) else (part, rest)
    | [] => (part, rest)
  if rest.head?.any isWordChar then none else some (part, rest)

/-- The suffixes of floating-point literals. -/
def isFloatSuffix (c : Char) : Bool :=
  c = 'f' || c = 'F' || c = 'd' || c = 'D'

/-- The suffixes of integer literals. -/
def isIntegerSuffix (c : Char) : Bool :=
  c = 'l' || c = 'L'

/-- A floating-point literal at the front of a text. -/
def float? (text : List Char) : Option (List Char × List Char) := do
  let (part, rest) ← mantissa? text
  withSuffix isFloatSuffix part rest

/-- An integer literal at the front of a text. -/
def integer? (text : List Char) : Option (List Char × List Char) := do
  let (part, rest) ← whole? text
  withSuffix isIntegerSuffix part rest

/-- The finite number that a floating-point literal denotes, if it is finite. -/
def floatValue? (literal : String) : Option Float := do
  let digits := literal.toList.filter (!isFloatSuffix ·)
  let x := (← Decimal.read? digits).toFloat
  if x.isFinite then some x else none

/-- The number that an integer literal denotes, before any sign is applied. -/
def integerValue (literal : String) : Nat :=
  match literal.toList.filter (!isIntegerSuffix ·) with
  | '0' :: 'x' :: digits | '0' :: 'X' :: digits => Integer.ofDigits 16 digits
  | digits => Integer.ofDigits 10 digits

end MessageSelector.Token
