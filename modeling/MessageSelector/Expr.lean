import MessageSelector.Like
import MessageSelector.Operator
import MessageSelector.Value

/-!
# Expressions

The tree of a compiled selector: operands that yield values, conditions over them, and the
connectives. Any expression may stand where another is expected; which trees a selector text can
produce is a matter of the grammar.
-/

namespace MessageSelector

/-- A selector expression. -/
inductive Expr where
  /-- A header or property, looked up when the expression is evaluated. -/
  | identifier (name : String)
  | literal (value : Value)
  | not (operand : Expr)
  | and (left right : Expr)
  | or (left right : Expr)
  | comparison (op : Comparison) (left right : Expr)
  | arithmetic (op : Arithmetic) (left right : Expr)
  | signed (sign : Sign) (operand : Expr)
  | between (operand low high : Expr) (negated : Bool)
  | inList (operand : Expr) (items : List String) (negated : Bool)
  | like (operand : Expr) (pattern : Like.Pattern) (negated : Bool)
  | isNull (operand : Expr) (negated : Bool)
  deriving Inhabited

namespace Expr

/-- The name, if the expression is an identifier. -/
def identifier? : Expr → Option String
  | identifier name => some name
  | _ => none

/-- The value, if the expression is a literal. -/
def literal? : Expr → Option Value
  | literal value => some value
  | _ => none

/-- Sameness of trees: the same shape with the same parts, literals by the sameness of values. -/
def same : Expr → Expr → Bool
  | identifier a, identifier b => a == b
  | literal a, literal b => a == b
  | not a, not b => same a b
  | and a b, and c d => same a c && same b d
  | or a b, or c d => same a c && same b d
  | comparison op a b, comparison op' c d => op == op' && same a c && same b d
  | arithmetic op a b, arithmetic op' c d => op == op' && same a c && same b d
  | signed sign a, signed sign' b => sign == sign' && same a b
  | between a low high negated, between b low' high' negated' =>
    same a b && same low low' && same high high' && negated == negated'
  | inList a items negated, inList b items' negated' =>
    same a b && items == items' && negated == negated'
  | like a pattern negated, like b pattern' negated' =>
    same a b && pattern == pattern' && negated == negated'
  | isNull a negated, isNull b negated' => same a b && negated == negated'
  | _, _ => false

instance : BEq Expr := ⟨same⟩

end Expr

end MessageSelector
