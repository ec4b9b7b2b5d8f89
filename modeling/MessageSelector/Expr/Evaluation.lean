import MessageSelector.Expr
import MessageSelector.Value.Arithmetic

/-!
# Evaluation

An expression is evaluated on a source of headers and properties. Absence is the SQL NULL: an
operand that is absent, has the wrong type or has no arithmetic result yields no value, and a
condition over it is unknown. Evaluation never fails.
-/

namespace MessageSelector

/-- What a message offers to a selector: the value of a header or property by name, if present. -/
abbrev Source := String → Option Value

/-- The truth of a value where a condition is expected: only booleans are definite. -/
def Truth.ofValue? (value : Option Value) : Truth :=
  .ofBool? (value.bind Value.boolean?)

/-- A condition where a value is expected: the unknown is absent. -/
def Truth.toValue? (outcome : Truth) : Option Value :=
  outcome.toBool?.map Value.boolean

/-- The comparison of two operands that may be absent. -/
def Value.compare? (op : Comparison) : Option Value → Option Value → Truth
  | some a, some b => a.compare op b
  | _, _ => .unknown

/-- A test that only strings can be put to. -/
def Value.testString? (value : Option Value) (test : String → Bool) : Truth :=
  .ofBool? ((value.bind Value.string?).map test)

namespace Expr

/-- The value of an expression on a source. Conditions and connectives yield booleans, or nothing
where they are unknown. -/
def evaluate (source : Source) : Expr → Option Value
  | identifier name => source name
  | literal value => some value
  | not operand => (Truth.ofValue? (evaluate source operand)).not.toValue?
  | and left right =>
    let left := Truth.ofValue? (evaluate source left)
    let right := Truth.ofValue? (evaluate source right)
    (left.and right).toValue?
  | or left right =>
    let left := Truth.ofValue? (evaluate source left)
    let right := Truth.ofValue? (evaluate source right)
    (left.or right).toValue?
  | comparison op left right =>
    (Value.compare? op (evaluate source left) (evaluate source right)).toValue?
  | arithmetic op left right => do
    let left ← evaluate source left
    let right ← evaluate source right
    left.arithmetic? op right
  | signed sign operand => (evaluate source operand).bind (Value.signed? sign)
  | between operand low high negated =>
    let value := evaluate source operand
    let aboveLow := Value.compare? .greaterOrEqual value (evaluate source low)
    let belowHigh := Value.compare? .lessOrEqual value (evaluate source high)
    ((aboveLow.and belowHigh).notIf negated).toValue?
  | inList operand items negated =>
    ((Value.testString? (evaluate source operand) items.contains).notIf negated).toValue?
  | like operand pattern negated =>
    ((Value.testString? (evaluate source operand) pattern.accepts).notIf negated).toValue?
  | isNull operand negated =>
    ((Truth.ofBool (evaluate source operand).isNone).notIf negated).toValue?

/-- The truth of an expression on a source. -/
def truth (source : Source) (e : Expr) : Truth :=
  .ofValue? (e.evaluate source)

end Expr

end MessageSelector
