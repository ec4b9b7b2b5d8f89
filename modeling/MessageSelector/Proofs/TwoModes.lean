import MessageSelector.Proofs.Evaluation

/-!
# Evaluation in two modes

Where a condition is expected an expression has an outcome, and where an operand is expected it has
a value. `Expr.ask` answers either question by asking the operands for what their place expects, and
a connective asks its right operand only where the left one has not decided. It keeps the names that
it looks up, so what it leaves out can be seen. `ask_answers` says that evaluation, which computes
nothing but values and always both operands, gives the same answers.
-/

namespace MessageSelector

/-! ## Answers -/

/-- What is asked of an expression: whether it holds, or which value it has. -/
inductive Mode where
  | outcome
  | value
  deriving DecidableEq, Repr

namespace Mode

/-- What answers a question. -/
abbrev Answer : Mode → Type
  | outcome => Truth
  | value => Option Value

/-- An outcome as an answer. As a value it is a boolean, and absent while it is unknown. -/
def ofOutcome : (mode : Mode) → Truth → mode.Answer
  | outcome, found => found
  | value, .holds => some (.boolean true)
  | value, .fails => some (.boolean false)
  | value, .unknown => (none : Option Value)

/-- A value as an answer. Only a boolean is a definite outcome. -/
def ofValue : (mode : Mode) → Option Value → mode.Answer
  | outcome, some (.boolean true) => Truth.holds
  | outcome, some (.boolean false) => Truth.fails
  | outcome, _ => Truth.unknown
  | value, found => found

/-- As an outcome a value is what it is where a condition is expected. -/
@[simp] theorem of_value_outcome (found : Option Value) :
    ofValue outcome found = Truth.ofValue? found := by
  match found with
  | some (.boolean true) | some (.boolean false) => rfl
  | some (.string _) | some (.integer _) | some (.float _) | none => rfl

@[simp] theorem of_value_value (found : Option Value) : ofValue value found = found := rfl

/-- An outcome answers as the value does that it is turned into. -/
theorem of_outcome_eq (mode : Mode) (found : Truth) :
    mode.ofOutcome found = mode.ofValue found.toValue? := by
  cases mode <;> cases found <;> rfl

end Mode

/-- An answer with the names of the headers and properties looked up for it, in order. -/
structure Traced (α : Type) where
  answer : α
  names : List String

namespace Traced

variable {α β : Type}

/-- Two steps look up their names one after the other. -/
instance : Monad Traced where
  pure answer := ⟨answer, []⟩
  bind step next := ⟨(next step.answer).answer, step.names ++ (next step.answer).names⟩

@[simp] theorem answer_pure (answer : α) : (pure answer : Traced α).answer = answer := rfl

@[simp] theorem answer_bind (step : Traced α) (next : α → Traced β) :
    (step >>= next).answer = (next step.answer).answer := rfl

@[simp] theorem names_bind (step : Traced α) (next : α → Traced β) :
    (step >>= next).names = step.names ++ (next step.answer).names := rfl

/-- A step that only passes the answer on looks up nothing more. -/
theorem bind_of_pure {step : Traced α} {next : α → Traced α}
    (h : next step.answer = pure step.answer) : step >>= next = step := by
  change Traced.mk _ _ = step
  rw [h]
  exact congrArg (Traced.mk step.answer) (List.append_nil step.names)

/-- Wherever all names that are looked up for an answer agree, another answer is the same. -/
def Settles (agree : String → Prop) (found other : Traced α) : Prop :=
  (∀ name ∈ found.names, agree name) → other = found

variable {agree : String → Prop}

/-- An answer is the same as itself. -/
theorem Settles.rfl {found : Traced α} : Settles agree found found :=
  fun _ => Eq.refl found

/-- Steps one after the other are settled by their names together. -/
theorem Settles.bind {step step' : Traced α} {next next' : α → Traced β}
    (hstep : Settles agree step step')
    (hnext : ∀ answer, Settles agree (next answer) (next' answer)) :
    Settles agree (step >>= next) (step' >>= next') := by
  intro hagree
  rw [names_bind, List.forall_mem_append] at hagree
  obtain rfl := hstep hagree.1
  have hrest := hnext step'.answer hagree.2
  change Traced.mk _ _ = Traced.mk _ _
  rw [hrest]

end Traced

/-- A conjunction whose left operand is known. The right one is asked for where it can matter. -/
def Truth.andThen : Truth → Traced Truth → Traced Truth
  | fails, _ => pure fails
  | holds, right => right
  | unknown, right => do
    match ← right with
    | fails => return fails
    | holds | unknown => return unknown

/-- A disjunction whose left operand is known. The right one is asked for where it can matter. -/
def Truth.orElse : Truth → Traced Truth → Traced Truth
  | holds, _ => pure holds
  | fails, right => right
  | unknown, right => do
    match ← right with
    | holds => return holds
    | fails | unknown => return unknown

namespace Truth

/-- What is left out of a conjunction does not matter to it. -/
@[simp] theorem answer_and_then (left : Truth) (right : Traced Truth) :
    (left.andThen right).answer = left.and right.answer := by
  obtain ⟨answer, names⟩ := right
  cases left <;> cases answer <;> rfl

/-- What is left out of a disjunction does not matter to it. -/
@[simp] theorem answer_or_else (left : Truth) (right : Traced Truth) :
    (left.orElse right).answer = left.or right.answer := by
  obtain ⟨answer, names⟩ := right
  cases left <;> cases answer <;> rfl

variable {agree : String → Prop} {right right' : Traced Truth}

/-- A conjunction is settled by what its right operand is. -/
theorem settles_and_then (left : Truth) (h : right.Settles agree right') :
    (left.andThen right).Settles agree (left.andThen right') := by
  cases left with
  | fails => exact .rfl
  | holds => exact h
  | unknown => exact h.bind fun _ => .rfl

/-- A disjunction is settled by what its right operand is. -/
theorem settles_or_else (left : Truth) (h : right.Settles agree right') :
    (left.orElse right).Settles agree (left.orElse right') := by
  cases left with
  | holds => exact .rfl
  | fails => exact h
  | unknown => exact h.bind fun _ => .rfl

end Truth

/-- The comparison of two operands, unknown while one of them is absent. -/
def Value.comparisonOutcome (op : Comparison) : Option Value → Option Value → Truth
  | some left, some right => left.compare op right
  | some _, none | none, _ => .unknown

/-- The outcome of a test on a string, unknown for anything else. -/
def Value.stringOutcome (test : String → Bool) : Option Value → Truth
  | some (.string text) => .ofBool (test text)
  | _ => .unknown

namespace Value

@[simp] theorem comparison_outcome_eq (op : Comparison) (left right : Option Value) :
    comparisonOutcome op left right = compare? op left right := by
  cases left <;> cases right <;> rfl

@[simp] theorem string_outcome_eq (test : String → Bool) (value : Option Value) :
    stringOutcome test value = testString? value test := by
  match value with
  | some (.string _) => rfl
  | some (.integer _) | some (.float _) | some (.boolean _) | none => rfl

end Value

namespace Expr

/-- The answer of an expression on a source. -/
def ask (source : Source) : Expr → (mode : Mode) → Traced mode.Answer
  | identifier name, mode => ⟨mode.ofValue (source name), [name]⟩
  | literal value, mode => pure (mode.ofValue (some value))
  | not operand, mode => do
    let outcome : Truth ← operand.ask source .outcome
    return mode.ofOutcome outcome.not
  | and left right, mode => do
    let decided : Truth ← left.ask source .outcome
    return mode.ofOutcome (← decided.andThen (right.ask source .outcome))
  | or left right, mode => do
    let decided : Truth ← left.ask source .outcome
    return mode.ofOutcome (← decided.orElse (right.ask source .outcome))
  | comparison op left right, mode => do
    let left : Option Value ← left.ask source .value
    let right : Option Value ← right.ask source .value
    return mode.ofOutcome (Value.comparisonOutcome op left right)
  | arithmetic op left right, mode => do
    let left : Option Value ← left.ask source .value
    let right : Option Value ← right.ask source .value
    match left, right with
    | some left, some right => return mode.ofValue (left.arithmetic? op right)
    | some _, none | none, _ => return mode.ofValue none
  | signed sign operand, mode => do
    match (← operand.ask source .value : Option Value) with
    | some value => return mode.ofValue (value.signed? sign)
    | none => return mode.ofValue none
  | between operand low high negated, mode => do
    let value : Option Value ← operand.ask source .value
    let low : Option Value ← low.ask source .value
    let high : Option Value ← high.ask source .value
    let aboveLow := Value.comparisonOutcome .greaterOrEqual value low
    let within ← aboveLow.andThen (pure (Value.comparisonOutcome .lessOrEqual value high))
    return mode.ofOutcome (within.notIf negated)
  | inList operand items negated, mode => do
    let value : Option Value ← operand.ask source .value
    return mode.ofOutcome ((Value.stringOutcome items.contains value).notIf negated)
  | like operand pattern negated, mode => do
    let value : Option Value ← operand.ask source .value
    return mode.ofOutcome ((Value.stringOutcome pattern.accepts value).notIf negated)
  | isNull operand negated, mode => do
    match (← operand.ask source .value : Option Value) with
    | none => return mode.ofOutcome (.ofBool !negated)
    | some _ => return mode.ofOutcome (.ofBool negated)

/-- Every question is answered by the value of the expression. -/
theorem answer_ask (e : Expr) (source : Source) (mode : Mode) :
    (e.ask source mode).answer = mode.ofValue (e.evaluate source) := by
  induction e generalizing mode with
  | identifier name => rfl
  | literal value => rfl
  | not operand ih => simp [ask, evaluate, Mode.of_outcome_eq, ih]
  | and left right ihLeft ihRight | or left right ihLeft ihRight =>
      simp [ask, evaluate, Mode.of_outcome_eq, ihLeft, ihRight]
  | comparison op left right ihLeft ihRight =>
      simp [ask, evaluate, Mode.of_outcome_eq, ihLeft, ihRight]
  | arithmetic op left right ihLeft ihRight =>
      simp only [ask, evaluate, Traced.answer_bind, ihLeft, ihRight, Mode.of_value_value]
      cases left.evaluate source <;> cases right.evaluate source <;> rfl
  | signed sign operand ih =>
      simp only [ask, evaluate, Traced.answer_bind, ih, Mode.of_value_value]
      cases operand.evaluate source <;> rfl
  | between operand low high negated ih ihLow ihHigh =>
      simp [ask, evaluate, Mode.of_outcome_eq, ih, ihLow, ihHigh]
  | inList operand items negated ih | like operand pattern negated ih =>
      simp [ask, evaluate, Mode.of_outcome_eq, ih]
  | isNull operand negated ih =>
      simp only [ask, evaluate, Traced.answer_bind, ih, Mode.of_value_value]
      cases operand.evaluate source <;> cases negated <;> cases mode <;> rfl

/-- An answer is settled by the names looked up for it. -/
theorem settles_ask (e : Expr) (source other : Source) (mode : Mode) :
    (e.ask source mode).Settles (fun name => other name = source name) (e.ask other mode) := by
  induction e generalizing mode with
  | identifier name =>
      intro hagree
      have hname := hagree name (List.mem_singleton.mpr rfl)
      rw [ask, ask, hname]
  | literal value => exact .rfl
  | not operand ih | inList operand items negated ih | like operand pattern negated ih =>
      exact (ih _).bind fun _ => .rfl
  | signed sign operand ih | isNull operand negated ih => exact (ih _).bind fun _ => .rfl
  | and left right ihLeft ihRight =>
      exact (ihLeft _).bind fun decided =>
        (Truth.settles_and_then decided (ihRight _)).bind fun _ => .rfl
  | or left right ihLeft ihRight =>
      exact (ihLeft _).bind fun decided =>
        (Truth.settles_or_else decided (ihRight _)).bind fun _ => .rfl
  | comparison op left right ihLeft ihRight | arithmetic op left right ihLeft ihRight =>
      exact (ihLeft _).bind fun _ => (ihRight _).bind fun _ => .rfl
  | between operand low high negated ih ihLow ihHigh =>
      exact (ih _).bind fun _ => (ihLow _).bind fun _ => (ihHigh _).bind fun _ => .rfl

/-- Evaluation gives the outcome and the value that the two modes ask for. A left operand that
decides leaves the right one out, and nothing but the names looked up decides. -/
theorem ask_answers (e : Expr) (source : Source) :
    (e.ask source .outcome).answer = e.truth source ∧
      (e.ask source .value).answer = e.evaluate source ∧
      (∀ right, e.truth source = .fails →
        (and e right).ask source .outcome = e.ask source .outcome) ∧
      (∀ right, e.truth source = .holds →
        (or e right).ask source .outcome = e.ask source .outcome) ∧
      ∀ other : Source, (∀ name ∈ (e.ask source .outcome).names, other name = source name) →
        e.truth other = e.truth source := by
  have houtcome (source : Source) : (e.ask source .outcome).answer = e.truth source := by
    rw [answer_ask, Mode.of_value_outcome]
    rfl
  refine ⟨houtcome source, answer_ask e source .value, fun right hfails => ?_,
    fun right hholds => ?_, fun other hagree => ?_⟩
  · rw [← houtcome] at hfails
    refine Traced.bind_of_pure ?_
    rw [hfails]
    rfl
  · rw [← houtcome] at hholds
    refine Traced.bind_of_pure ?_
    rw [hholds]
    rfl
  · rw [← houtcome, settles_ask e source other .outcome hagree, houtcome]

end Expr

end MessageSelector
