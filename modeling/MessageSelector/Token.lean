import MessageSelector.Operator
import MessageSelector.Span
import MessageSelector.Text.Alphabetic

/-!
# Tokens

The words, literals and symbols of a selector text. Keywords and the two boolean literals are
recognised in any ASCII case; any other word is an identifier.
-/

namespace MessageSelector

/-- The reserved words other than the boolean literals. -/
inductive Keyword where
  | not
  | and
  | or
  | between
  | like
  | inside
  | is
  | null
  | escape
  deriving DecidableEq, Repr

/-- What a token is. -/
inductive Lexeme where
  | keyword (keyword : Keyword)
  | boolean (flag : Bool)
  | identifier (name : String)
  /-- A closed string literal, with its doubled quotes collapsed. -/
  | string (contents : String)
  /-- A quote that no later quote closes, and all text after it. -/
  | unclosedString
  /-- A floating-point literal as written. -/
  | float (literal : String)
  /-- An integer literal as written. -/
  | integer (literal : String)
  | comparison (op : Comparison)
  | plus
  | minus
  | star
  | slash
  | leftParen
  | rightParen
  | comma
  /-- A character that begins no token. -/
  | stray (c : Char)
  | endOfText
  deriving DecidableEq, Repr

/-- A lexeme with its place in the text. -/
structure Token where
  lexeme : Lexeme
  span : Span
  deriving DecidableEq, Repr

/-- The blanks that may stand between tokens: space, tab, line feed, form feed, carriage return. -/
def isLayout (c : Char) : Bool :=
  c = ' ' || c = '\t' || c = '\n' || c = '\x0c' || c = '\r'

/-- The characters a word begins with. -/
def isWordStart (c : Char) : Bool :=
  Text.isAlphabetic c || c = '_' || c = '$'

/-- The characters a word goes on with. -/
def isWordChar (c : Char) : Bool :=
  isWordStart c || c.isDigit

/-- The lexeme a whole word is. -/
def Lexeme.ofWord (word : String) : Lexeme :=
  match word.toLower with
  | "not" => keyword .not
  | "and" => keyword .and
  | "or" => keyword .or
  | "between" => keyword .between
  | "like" => keyword .like
  | "in" => keyword .inside
  | "is" => keyword .is
  | "null" => keyword .null
  | "escape" => keyword .escape
  | "true" => boolean true
  | "false" => boolean false
  | _ => identifier word

end MessageSelector
