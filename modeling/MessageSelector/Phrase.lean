import MessageSelector.Operator
import MessageSelector.Span

/-!
# Phrases

A phrase is a part of a selector as written, before its literals are given their values and its
conditions are checked. It keeps the places in the text that a diagnostic may have to point at.
-/

namespace MessageSelector

/-- A string literal with its place, quotes included. -/
structure QuotedString where
  span : Span
  contents : String
  deriving DecidableEq, Repr, Inhabited

/-- A part of a selector as written. -/
inductive Phrase where
  | identifier (span : Span) (name : String)
  | string (literal : QuotedString)
  /-- A string literal that is not closed. -/
  | unclosedString (span : Span)
  | float (span : Span) (literal : String)
  | integer (span : Span) (literal : String)
  | boolean (span : Span) (flag : Bool)
  /-- A phrase in parentheses. -/
  | group (leftParen : Span) (inner : Phrase) (rightParen : Span)
  | signed (mark : Span) (sign : Sign) (operand : Phrase)
  | arithmetic (op : Arithmetic) (left right : Phrase)
  | comparison (op : Comparison) (left right : Phrase)
  | between (operand low high : Phrase) (negated : Bool)
  | inList (operand : Phrase) (items : List QuotedString) (rightParen : Span) (negated : Bool)
  | like (operand : Phrase) (pattern : QuotedString) (escape : Option QuotedString)
      (negated : Bool)
  | isNull (operand : Phrase) (nullKeyword : Span) (negated : Bool)
  /-- An `IN` or `LIKE` condition in which a string literal is not closed. -/
  | cutShort (operand : Phrase) (unclosed : Span)
  | not (keyword : Span) (operand : Phrase)
  | and (left right : Phrase)
  | or (left right : Phrase)
  deriving Repr, Inhabited

namespace Phrase

/-- Where the first token of a phrase begins. -/
def start : Phrase → Nat
  | identifier span _ | unclosedString span | float span _ | integer span _ | boolean span _ =>
    span.start
  | string literal => literal.span.start
  | group leftParen _ _ => leftParen.start
  | signed mark _ _ => mark.start
  | not keyword _ => keyword.start
  | arithmetic _ left _ | comparison _ left _ | and left _ | or left _ => left.start
  | between operand _ _ _ | inList operand _ _ _ | like operand _ _ _ | isNull operand _ _
  | cutShort operand _ => operand.start

/-- Where the last token of a phrase ends. -/
def stop : Phrase → Nat
  | identifier span _ | unclosedString span | float span _ | integer span _ | boolean span _ =>
    span.stop
  | string literal => literal.span.stop
  | group _ _ rightParen => rightParen.stop
  | signed _ _ operand | not _ operand => operand.stop
  | arithmetic _ _ right | comparison _ _ right | and _ right | or _ right => right.stop
  | between _ _ high _ => high.stop
  | inList _ _ rightParen _ => rightParen.stop
  | like _ pattern escape _ => (escape.getD pattern).span.stop
  | isNull _ nullKeyword _ => nullKeyword.stop
  | cutShort _ unclosed => unclosed.stop

/-- The stretch of text from the first token of a phrase to the last. -/
def span (phrase : Phrase) : Span :=
  .between phrase.start phrase.stop

end Phrase

end MessageSelector
