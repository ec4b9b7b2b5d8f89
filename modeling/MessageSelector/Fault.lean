import MessageSelector.Expectation
import MessageSelector.Span

/-!
# Faults

Why a text is no selector, and where in the text.
-/

namespace MessageSelector

/-- The tests that apply only to a header or property given by name. -/
inductive NameTest where
  | inList
  | like
  | isNull
  deriving DecidableEq, Repr

/-- The keywords of a test. -/
def NameTest.text : NameTest → String
  | inList => "IN"
  | like => "LIKE"
  | isNull => "IS NULL"

/-- Why a text is no selector. -/
inductive Fault where
  /-- No reading of the text goes on at a position; it asks for these parts. -/
  | unexpected (position : Nat) (expected : List Expectation)
  /-- A string literal is not closed. -/
  | unterminatedString (span : Span)
  /-- A test is put to something other than an identifier. -/
  | identifierRequired (test : NameTest) (found : String) (span : Span)
  /-- An escape text is not exactly one character. -/
  | invalidEscape (escape : String) (span : Span)
  /-- A pattern ends with its escape character. -/
  | danglingEscape (span : Span)
  /-- A number has no value of its type. -/
  | numberOutOfRange (literal : String) (span : Span)
  /-- The text nests too deep. -/
  | nestingTooDeep (span : Span)
  deriving DecidableEq, Repr

end MessageSelector
