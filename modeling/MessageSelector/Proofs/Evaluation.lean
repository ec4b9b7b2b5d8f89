import MessageSelector.Expr.Evaluation

/-!
# Laws of evaluation

The outcome of a connective is the connective of the outcomes, and a condition that holds says what
its operands are. Evaluation itself passes outcomes through values, so the laws here are what spares
later proofs the detour.
-/

namespace MessageSelector

namespace Truth

/-- An outcome survives being turned into a value and read back. -/
@[simp] theorem of_value_to_value (outcome : Truth) : ofValue? outcome.toValue? = outcome := by
  cases outcome <;> rfl

/-- A conjunction holds where both operands hold. -/
theorem and_holds_iff (a b : Truth) : a.and b = holds ↔ a = holds ∧ b = holds := by
  cases a <;> cases b <;> simp [and]

/-- A disjunction holds where either operand holds. -/
theorem or_holds_iff (a b : Truth) : a.or b = holds ↔ a = holds ∨ b = holds := by
  cases a <;> cases b <;> simp [or]

/-- A definite outcome holds where its flag is set. -/
@[simp] theorem of_bool_holds_iff (flag : Bool) : ofBool flag = holds ↔ flag = true := by
  cases flag <;> decide

/-- Only the outcome that holds selects. -/
theorem is_holds_iff (outcome : Truth) : outcome.isHolds = true ↔ outcome = holds := by
  cases outcome <;> decide

end Truth

namespace Value

/-- Two operands are found equal only where both are there. -/
theorem compare_option_holds_iff (op : Comparison) (a b : Option Value) :
    compare? op a b = .holds ↔
      ∃ left right, a = some left ∧ b = some right ∧ left.compare op right = .holds := by
  cases a <;> cases b <;> simp [compare?]

/-- A test of strings holds only of a string that passes it. -/
theorem test_string_holds_iff (value : Option Value) (test : String → Bool) :
    testString? value test = .holds ↔ ∃ text, value = some (.string text) ∧ test text = true := by
  match value with
  | some (.string text) => simp [testString?, string?, Truth.ofBool?]
  | some (.integer _) | some (.float _) | some (.boolean _) | none =>
      simp [testString?, string?, Truth.ofBool?]

end Value

namespace Expr

variable (source : Source)

/-- The outcome of a conjunction is the conjunction of the outcomes. -/
@[simp] theorem truth_and (left right : Expr) :
    (and left right).truth source = (left.truth source).and (right.truth source) :=
  Truth.of_value_to_value _

/-- The outcome of a disjunction is the disjunction of the outcomes. -/
@[simp] theorem truth_or (left right : Expr) :
    (or left right).truth source = (left.truth source).or (right.truth source) :=
  Truth.of_value_to_value _

/-- The outcome of a comparison is the comparison of its operands. -/
theorem truth_comparison (op : Comparison) (left right : Expr) :
    (comparison op left right).truth source =
      Value.compare? op (left.evaluate source) (right.evaluate source) :=
  Truth.of_value_to_value _

/-- The outcome of a range test is the conjunction of the comparisons with the two bounds. -/
theorem truth_between (operand low high : Expr) (negated : Bool) :
    (between operand low high negated).truth source =
      ((Value.compare? .greaterOrEqual (operand.evaluate source) (low.evaluate source)).and
        (Value.compare? .lessOrEqual (operand.evaluate source) (high.evaluate source))).notIf
        negated :=
  Truth.of_value_to_value _

/-- The outcome of a list test is that of looking the operand up in the list. -/
theorem truth_in_list (operand : Expr) (items : List String) (negated : Bool) :
    (inList operand items negated).truth source =
      (Value.testString? (operand.evaluate source) items.contains).notIf negated :=
  Truth.of_value_to_value _

end Expr

end MessageSelector
