import MessageSelector.Expr

/-!
# Canonical text

The canonical text of an expression has upper-case keywords, single spaces, and parentheses only
around an operand that binds more loosely than its place demands. Binary operators of one level
group to the left, so a right operand of the same level is parenthesised.
-/

namespace MessageSelector.Expr

/-- How tightly the outermost operator of an expression binds, from the loosest to the tightest. -/
inductive Binding where
  | or
  | and
  | not
  | condition
  | additive
  | multiplicative
  | sign
  | primary
  deriving DecidableEq, Ord, Repr

/-- The binding of an arithmetic operator. -/
def Binding.ofArithmetic (op : Arithmetic) : Binding :=
  if op.isMultiplicative then multiplicative else additive

/-- The next tighter binding of an arithmetic operator. -/
def Binding.aboveArithmetic (op : Arithmetic) : Binding :=
  if op.isMultiplicative then sign else multiplicative

/-- How tightly the outermost operator of an expression binds. -/
def binding : Expr → Binding
  | identifier _ | literal _ => .primary
  | not _ => .not
  | and _ _ => .and
  | or _ _ => .or
  | comparison .. | between .. | inList .. | like .. | isNull .. => .condition
  | arithmetic op _ _ => .ofArithmetic op
  | signed _ _ => .sign

/-- Whether a sign in front of the expression needs a space after it: another sign follows, or a
number that it would otherwise run into. -/
def startsSigned : Expr → Bool
  | literal value => value.isNumeric
  | signed _ _ => true
  | _ => false

/-- A text in parentheses where its binding is looser than demanded. -/
def enclose (demanded actual : Binding) (text : String) : String :=
  if (compare actual demanded).isLT then "(" ++ text ++ ")" else text

/-- The keyword that negates a condition, when it is negated. -/
def notKeyword (negated : Bool) : String :=
  if negated then "NOT " else ""

/-- The items of an `IN` condition in parentheses. -/
def listText (items : List String) : String :=
  "(" ++ ", ".intercalate (items.map Text.quote) ++ ")"

/-- The canonical text of an expression. -/
def render : Expr → String
  | identifier name => name
  | literal value => value.text
  | not operand => "NOT " ++ enclose .not operand.binding (render operand)
  | and left right =>
    enclose .and left.binding (render left) ++ " AND " ++
      enclose .not right.binding (render right)
  | or left right =>
    enclose .or left.binding (render left) ++ " OR " ++
      enclose .and right.binding (render right)
  | comparison op left right =>
    enclose .additive left.binding (render left) ++ " " ++ op.symbol ++ " " ++
      enclose .additive right.binding (render right)
  | arithmetic op left right =>
    enclose (.ofArithmetic op) left.binding (render left) ++ " " ++ op.symbol ++ " " ++
      enclose (.aboveArithmetic op) right.binding (render right)
  | signed sign operand =>
    sign.symbol ++ (if operand.startsSigned then " " else "") ++
      enclose .sign operand.binding (render operand)
  | between operand low high negated =>
    enclose .additive operand.binding (render operand) ++ " " ++ notKeyword negated ++
      "BETWEEN " ++ enclose .additive low.binding (render low) ++
      " AND " ++ enclose .additive high.binding (render high)
  | inList operand items negated =>
    enclose .additive operand.binding (render operand) ++ " " ++ notKeyword negated ++
      "IN " ++ listText items
  | like operand pattern negated =>
    enclose .additive operand.binding (render operand) ++ " " ++ notKeyword negated ++
      "LIKE " ++ pattern.literal
  | isNull operand negated =>
    enclose .additive operand.binding (render operand) ++ " IS " ++ notKeyword negated ++ "NULL"

end MessageSelector.Expr
