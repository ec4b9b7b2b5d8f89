import MessageSelector.Fault
import MessageSelector.Nesting
import MessageSelector.Text.Escaped

/-!
# Rejections

A rejection is a fault together with the text it was found in, and is what the author of the text
is told: a message, a stable code, a label on the offending stretch of text, and often advice.
-/

namespace MessageSelector

/-- A line and a column of a text, both counted from one, the column in characters. -/
structure Place where
  line : Nat
  column : Nat
  deriving DecidableEq, Repr

/-- The place after a text. A line feed ends a line, and every other character, a carriage return
included, takes a column. -/
def Place.after (text : List Char) : Place :=
  text.foldl
    (fun place c => if c = '\n' then ⟨place.line + 1, 1⟩ else ⟨place.line, place.column + 1⟩)
    ⟨1, 1⟩

/-- A text that is no selector, and why. -/
structure Rejection where
  text : String
  fault : Fault
  deriving DecidableEq, Repr

namespace Fault

/-- The code under which a fault can be looked up. -/
def code : Fault → String
  | unexpected .. => "selector::syntax"
  | unterminatedString _ => "selector::unterminated_string"
  | identifierRequired .. => "selector::identifier_required"
  | invalidEscape .. => "selector::invalid_escape"
  | danglingEscape _ => "selector::dangling_escape"
  | numberOutOfRange .. => "selector::number_out_of_range"
  | nestingTooDeep _ => "selector::nesting_too_deep"

end Fault

namespace Expectation

/-- What would have let a text go on. Neighbours of one name are named once, and of more than three
names only three are given. -/
def summary (expected : List Expectation) : String :=
  match (expected.map name).eraseReps with
  | [] => "Unexpected input"
  | [only] => "Expected " ++ only
  | names =>
    if names.length ≤ 3 then "Expected one of: " ++ ", ".intercalate names
    else "Expected one of: " ++ ", ".intercalate (names.take 3) ++ ", ..."

/-- Advice on what is missing or superfluous at a position, which may be the end of the text. -/
def advice? (expected : List Expectation) (atEnd : Bool) : Option String :=
  if expected.isEmpty then none
  else if expected.all fun part => part = string || part = unclosedString then
    some ("IN lists, LIKE patterns and ESCAPE characters are quoted strings, like: " ++
      "color IN ('red', 'blue')")
  else if atEnd && (expected.contains expression || expected.contains identifier) then
    some "Selector is incomplete. Add an operand after the operator."
  else if expected.contains endOfText then
    some "Unexpected input. Check for unbalanced parentheses or a misspelled keyword."
  else none

end Expectation

namespace Rejection

/-- Whether a byte position is at the end of the text. -/
def isAtEnd (rejection : Rejection) (position : Nat) : Bool :=
  rejection.text.utf8ByteSize ≤ position

/-- The line and column of a byte position. -/
def place (rejection : Rejection) (position : Nat) : Place :=
  .after (Span.takeBytes rejection.text.toList position [])

/-- The stretch of text that the label is put on. A position at the end of the text is shown at the
byte before it. -/
def span (rejection : Rejection) : Span :=
  match rejection.fault with
  | .unexpected position _ =>
    if !rejection.isAtEnd position then ⟨position, 1⟩
    else if 0 < position then ⟨position - 1, 1⟩
    else ⟨0, 0⟩
  | .unterminatedString span
  | .identifierRequired _ _ span
  | .invalidEscape _ span
  | .danglingEscape span
  | .numberOutOfRange _ span
  | .nestingTooDeep span => span

/-- What is wrong, in a sentence. -/
def message (rejection : Rejection) : String :=
  match rejection.fault with
  | .unexpected position _ =>
    let place := rejection.place position
    s!"Syntax error at line {place.line}, column {place.column}"
  | .unterminatedString _ => "Unterminated string literal"
  | .identifierRequired test found _ =>
    test.text ++ " requires an identifier on its left-hand side, found: " ++ found
  | .invalidEscape escape _ => "Invalid ESCAPE character: " ++ Text.escape escape
  | .danglingEscape _ => "LIKE pattern ends with its escape character"
  | .numberOutOfRange literal _ => "Numeric literal out of range: " ++ literal
  | .nestingTooDeep _ => s!"Selector nests deeper than {Nesting.limit} levels"

/-- What the label says. -/
def label (rejection : Rejection) : String :=
  match rejection.fault with
  | .unexpected _ expected => Expectation.summary expected
  | .unterminatedString _ => "missing closing ' quote"
  | .identifierRequired .. => "expected an identifier"
  | .invalidEscape .. => "invalid escape"
  | .danglingEscape _ => "escape sequence not completed"
  | .numberOutOfRange .. => "out of range"
  | .nestingTooDeep _ => "too deep"

/-- How to mend it, where there is advice to give. -/
def advice? (rejection : Rejection) : Option String :=
  match rejection.fault with
  | .unexpected position expected => Expectation.advice? expected (rejection.isAtEnd position)
  | .unterminatedString _ =>
    some "String literals are closed with a single quote; write '' for a literal quote"
  | .identifierRequired .. => some "IN, LIKE and IS NULL test a header or property by name"
  | .invalidEscape .. => some "ESCAPE takes a string literal holding exactly one character"
  | .danglingEscape _ | .numberOutOfRange .. => none
  | .nestingTooDeep _ =>
    some "Flatten nested parentheses, NOT or sign runs; long AND/OR chains are fine"

end Rejection

end MessageSelector
