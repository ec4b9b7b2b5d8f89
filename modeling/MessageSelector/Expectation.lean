/-!
# Expectations

While a selector text is read, the grammar asks for its parts one after another. When no reading of
the text succeeds, the parts that were asked for at the furthest position reached say what would
have let the text go on.
-/

namespace MessageSelector

/-- What the grammar can ask for, in the order in which it is reported. -/
inductive Expectation where
  | endOfText
  | selector
  | expression
  | condition
  | comparison
  | comparisonOperator
  | between
  | inList
  | like
  | isNull
  | sum
  | add
  | subtract
  | multiply
  | divide
  | plus
  | minus
  | string
  | unclosedString
  | float
  | integer
  | boolean
  | identifier
  | or
  | and
  | negation
  | notKeyword
  | betweenKeyword
  | inKeyword
  | likeKeyword
  | escapeKeyword
  | isKeyword
  | nullKeyword
  deriving DecidableEq, Repr, Inhabited

namespace Expectation

/-- Every expectation, in the order in which it is reported. -/
def all : List Expectation :=
  [endOfText, selector, expression, condition, comparison, comparisonOperator, between, inList,
    like, isNull, sum, add, subtract, multiply, divide, plus, minus, string, unclosedString, float,
    integer, boolean, identifier, or, and, negation, notKeyword, betweenKeyword, inKeyword,
    likeKeyword, escapeKeyword, isKeyword, nullKeyword]

/-- The name shown to the author of a selector. -/
def name : Expectation → String
  | endOfText => "end of input"
  | selector => "selector"
  | expression => "expression"
  | condition => "condition"
  | comparison => "comparison"
  | comparisonOperator => "comparison operator"
  | between | betweenKeyword => "BETWEEN"
  | inList | inKeyword => "IN"
  | like | likeKeyword => "LIKE"
  | isNull => "IS NULL"
  | sum => "value expression"
  | add | subtract | multiply | divide => "arithmetic operator"
  | plus | minus => "sign"
  | string | unclosedString => "string literal"
  | float | integer => "number"
  | boolean => "TRUE or FALSE"
  | identifier => "identifier"
  | or => "OR"
  | and => "AND"
  | negation | notKeyword => "NOT"
  | escapeKeyword => "ESCAPE"
  | isKeyword => "IS"
  | nullKeyword => "NULL"

/-- The expectations among those found, each once and in the order in which it is reported. -/
def inOrder (found : List Expectation) : List Expectation :=
  all.filter found.contains

end Expectation

/-- The furthest position at which a part was asked for in vain, with every part asked for there.
Before anything is asked for, it is the first position with no parts. -/
structure Furthest where
  position : Nat
  expected : List Expectation
  deriving DecidableEq, Repr, Inhabited

namespace Furthest

/-- Nothing has been asked for in vain. -/
def start : Furthest :=
  ⟨0, []⟩

/-- The further of two positions, or all that was asked for at one and the same. -/
def merge (a b : Furthest) : Furthest :=
  if a.position < b.position then b
  else if b.position < a.position then a
  else ⟨a.position, a.expected ++ b.expected⟩

/-- What has been reached when a part that begins at `position` is not found, given what was reached
inside it. Progress inside the part, or a single request at its beginning, says more than the part
itself; otherwise the part stands for all that was asked for at its beginning. -/
def notFound (part : Expectation) (position : Nat) (inside : Furthest) : Furthest :=
  if position < inside.position || (inside.position = position && inside.expected.length = 1) then
    inside
  else ⟨position, [part]⟩

end Furthest

end MessageSelector
