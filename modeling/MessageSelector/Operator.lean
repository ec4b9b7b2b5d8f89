/-!
# Operators

The comparison, arithmetic and sign operators of selectors, each with its symbol.
-/

namespace MessageSelector

/-- The six comparisons. -/
inductive Comparison where
  | equal
  | notEqual
  | less
  | lessOrEqual
  | greater
  | greaterOrEqual
  deriving DecidableEq, Repr, Inhabited

namespace Comparison

/-- The symbol as written between the operands. -/
def symbol : Comparison → String
  | equal => "="
  | notEqual => "<>"
  | less => "<"
  | lessOrEqual => "<="
  | greater => ">"
  | greaterOrEqual => ">="

/-- The comparison a symbol stands for. -/
def ofSymbol? : String → Option Comparison
  | "=" => some equal
  | "<>" => some notEqual
  | "<" => some less
  | "<=" => some lessOrEqual
  | ">" => some greater
  | ">=" => some greaterOrEqual
  | _ => none

/-- The two comparisons that need no order, and so apply to strings and booleans too. -/
def isEquality : Comparison → Bool
  | equal | notEqual => true
  | _ => false

/-- Whether the comparison accepts operands that stand in the given order. -/
def accepts : Comparison → Ordering → Bool
  | equal, order => order == .eq
  | notEqual, order => order != .eq
  | less, order => order == .lt
  | lessOrEqual, order => order != .gt
  | greater, order => order == .gt
  | greaterOrEqual, order => order != .lt

@[simp] theorem of_symbol_symbol (op : Comparison) : ofSymbol? op.symbol = some op := by
  cases op <;> rfl

end Comparison

/-- The four arithmetic operators. -/
inductive Arithmetic where
  | add
  | subtract
  | multiply
  | divide
  deriving DecidableEq, Repr, Inhabited

namespace Arithmetic

/-- The symbol as written between the operands. -/
def symbol : Arithmetic → String
  | add => "+"
  | subtract => "-"
  | multiply => "*"
  | divide => "/"

/-- Products and quotients bind their operands before sums and differences do. -/
def isMultiplicative : Arithmetic → Bool
  | multiply | divide => true
  | add | subtract => false

end Arithmetic

/-- A sign in front of an operand. -/
inductive Sign where
  | plus
  | minus
  deriving DecidableEq, Repr, Inhabited

/-- The symbol as written in front of the operand. -/
def Sign.symbol : Sign → String
  | plus => "+"
  | minus => "-"

end MessageSelector
