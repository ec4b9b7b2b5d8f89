import MessageSelector.Phrase.Grammar
import MessageSelector.Phrase.Meaning
import MessageSelector.Rejection

/-!
# From text to expressions

A selector text is measured for its nesting, cut into tokens, read as a phrase, and given its
meaning. A text of layout alone has no expression.
-/

namespace MessageSelector.Expr

/-- The expression of a selector text, or the fault that keeps it from having one. -/
def ofChars (text : List Char) : Except Fault (Option Expr) :=
  match Nesting.tooDeep? text with
  | some span => .error (.nestingTooDeep span)
  | none =>
    match Phrase.ofTokens (Token.scan text) with
    | .error furthest =>
      .error (.unexpected furthest.position (Expectation.inOrder furthest.expected))
    | .ok none => .ok none
    | .ok (some phrase) => (phrase.meaning text).map some

/-- The expression of a selector text, if it has one. -/
def parse (text : String) : Except Rejection (Option Expr) :=
  (ofChars text.toList).mapError fun fault => ⟨text, fault⟩

end MessageSelector.Expr
