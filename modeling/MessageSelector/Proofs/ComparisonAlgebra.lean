import MessageSelector.Proofs.NumericOrder

/-!
# The algebra of comparison

Two values are compared by their order if both are numeric, by sameness if both are strings or both
are booleans, and not at all otherwise. Every law is shown for each of the four. Read
`comparison_algebra` for the laws: when a comparison is unknown, that it may be read from the right,
that `<>` is the negation of `=`, and how the orderings are made of one another.
-/

namespace MessageSelector

namespace Comparison

/-- The comparison that says from right to left what this one says from left to right. -/
def mirrored : Comparison → Comparison
  | equal => equal
  | notEqual => notEqual
  | less => greater
  | lessOrEqual => greaterOrEqual
  | greater => less
  | greaterOrEqual => lessOrEqual

/-- The relation of integers that a comparison stands for. -/
def Relates : Comparison → Int → Int → Prop
  | equal, m, n => m = n
  | notEqual, m, n => m ≠ n
  | less, m, n => m < n
  | lessOrEqual, m, n => m ≤ n
  | greater, m, n => m > n
  | greaterOrEqual, m, n => m ≥ n

instance (op : Comparison) (m n : Int) : Decidable (op.Relates m n) :=
  match op with
  | equal => inferInstanceAs (Decidable (m = n))
  | notEqual => inferInstanceAs (Decidable (m ≠ n))
  | less => inferInstanceAs (Decidable (m < n))
  | lessOrEqual => inferInstanceAs (Decidable (m ≤ n))
  | greater => inferInstanceAs (Decidable (m > n))
  | greaterOrEqual => inferInstanceAs (Decidable (m ≥ n))

/-- The order of two integers is accepted where they are related. -/
theorem accepts_compare_iff (op : Comparison) (m n : Int) :
    op.accepts (Ord.compare m n) = true ↔ op.Relates m n := by
  cases op with
  | equal => exact beq_iff_eq.trans Int.compare_eq_eq
  | notEqual => exact bne_iff_ne.trans (not_congr Int.compare_eq_eq)
  | less => exact beq_iff_eq.trans Int.compare_eq_lt
  | lessOrEqual => exact bne_iff_ne.trans Int.compare_ne_gt
  | greater => exact beq_iff_eq.trans Int.compare_eq_gt
  | greaterOrEqual => exact bne_iff_ne.trans Int.compare_ne_lt

variable (op : Comparison) (order : Option Ordering)

/-- The order always decides. -/
theorem decided_ne_unknown : op.decided order ≠ .unknown := by
  have definite (answer : Bool) : Truth.ofBool answer ≠ .unknown := by
    cases answer <;> decide
  cases order <;> exact definite _

/-- The mirrored comparison decides on the other order as the comparison does on the order. -/
theorem decided_mirrored : op.mirrored.decided (order.map Ordering.swap) = op.decided order := by
  cases order with
  | none => cases op <;> rfl
  | some order => cases op <;> cases order <;> rfl

/-- Inequality decides the opposite of equality. -/
theorem decided_not_equal : notEqual.decided order = (equal.decided order).not := by
  cases order with
  | none => rfl
  | some order => cases order <;> rfl

/-- What is no greater is less or equal. -/
theorem decided_less_or_equal :
    lessOrEqual.decided order = (less.decided order).or (equal.decided order) := by
  cases order with
  | none => rfl
  | some order => cases order <;> rfl

/-- What is no less is greater or equal. -/
theorem decided_greater_or_equal :
    greaterOrEqual.decided order = (greater.decided order).or (equal.decided order) := by
  cases order with
  | none => rfl
  | some order => cases order <;> rfl

/-- An order is accepted by one of the three comparisons that accept a single order each. -/
theorem exists_unique_decided (order : Ordering) :
    ∃! op, op ∈ [less, equal, greater] ∧ op.decided (some order) = .holds := by
  cases order with
  | lt => exact ⟨less, by decide, fun op => by cases op <;> decide⟩
  | eq => exact ⟨equal, by decide, fun op => by cases op <;> decide⟩
  | gt => exact ⟨greater, by decide, fun op => by cases op <;> decide⟩

end Comparison

namespace Value

open Comparison (less lessOrEqual equal notEqual greater greaterOrEqual)

/-! ## Kinds of pairs -/

/-- Both values are strings. -/
def BothStrings (a b : Value) : Prop :=
  ∃ s t, a = string s ∧ b = string t

/-- Both values are booleans. -/
def BothBooleans (a b : Value) : Prop :=
  ∃ p q, a = boolean p ∧ b = boolean q

/-- The types of the values go together in a comparison. -/
def Compatible (a b : Value) : Prop :=
  BothNumeric a b ∨ BothStrings a b ∨ BothBooleans a b

variable {a b : Value}

/-- The types go together whichever value is written first. -/
theorem Compatible.symm (h : Compatible a b) : Compatible b a := by
  rcases h with ⟨ha, hb⟩ | ⟨s, t, ha, hb⟩ | ⟨p, q, ha, hb⟩
  · exact .inl ⟨hb, ha⟩
  · exact .inr (.inl ⟨t, s, hb, ha⟩)
  · exact .inr (.inr ⟨q, p, hb, ha⟩)

/-- Nothing is known of values that do not go together. -/
theorem compare_of_mismatch (op : Comparison) (h : ¬ Compatible a b) :
    a.compare op b = .unknown := by
  cases a with
  | string s =>
      cases b with
      | string t => exact absurd (.inr (.inl ⟨s, t, rfl, rfl⟩)) h
      | integer | float | boolean => rfl
  | boolean p =>
      cases b with
      | boolean q => exact absurd (.inr (.inr ⟨p, q, rfl, rfl⟩)) h
      | integer | float | string => rfl
  | integer | float =>
      cases b with
      | integer | float => exact absurd (.inl ⟨rfl, rfl⟩) h
      | string | boolean => rfl

/-- A number is defined unless it is the undefined double. -/
theorem exists_nan_of_not_number (hnumeric : a.isNumeric = true) (h : ¬ a.IsNumber) :
    ∃ x, a = float x ∧ x.isNaN = true := by
  cases a with
  | string | boolean => cases hnumeric
  | integer n => exact absurd (is_number_integer n) h
  | float x => exact ⟨x, rfl, Bool.eq_true_of_not_eq_false h⟩

/-- Where one of two numbers is undefined there is no order. -/
theorem numeric_order_of_undefined (hnumeric : BothNumeric a b)
    (h : ¬ (a.IsNumber ∧ b.IsNumber)) : numericOrder? a b = none := by
  by_cases ha : a.IsNumber
  · obtain ⟨y, rfl, hnan⟩ := exists_nan_of_not_number hnumeric.2 fun hb => h ⟨ha, hb⟩
    rw [numeric_order_swap ⟨hnumeric.2, hnumeric.1⟩, numeric_order_of_nan hnan, Option.map_none]
  · obtain ⟨x, rfl, hnan⟩ := exists_nan_of_not_number hnumeric.1 ha
    exact numeric_order_of_nan hnan b

/-- Sameness decides the two equalities and nothing else. -/
theorem compare_same_unknown_iff (op : Comparison) (same : Bool) :
    compareSame op same = .unknown ↔ op.isEquality = false := by
  cases op <;> cases same <;> decide

/-- The equalities are their own mirror images, and so are the orderings that sameness leaves
unknown. -/
theorem compare_same_mirrored (op : Comparison) (same : Bool) :
    compareSame op.mirrored same = compareSame op same := by
  cases op <;> rfl

/-- What is not the same is different. -/
theorem compare_same_not_equal (same : Bool) :
    compareSame notEqual same = (compareSame equal same).not := by
  cases same <;> rfl

/-! ## The laws -/

variable (op : Comparison) (a b : Value)

/-- A comparison is unknown of values that do not go together, and if it needs an order that strings
and booleans do not have. -/
theorem compare_unknown_iff :
    a.compare op b = .unknown ↔
      ¬ Compatible a b ∨ op.isEquality = false ∧ (BothStrings a b ∨ BothBooleans a b) := by
  by_cases h : Compatible a b
  · rw [or_iff_right (not_not.mpr h)]
    rcases h with hnumeric | hstrings | hbooleans
    · rw [compare_of_numeric op hnumeric, iff_false_left (Comparison.decided_ne_unknown op _)]
      rintro ⟨-, ⟨s, t, rfl, rfl⟩ | ⟨p, q, rfl, rfl⟩⟩ <;> cases hnumeric.1
    · rw [and_iff_left (.inl hstrings)]
      obtain ⟨s, t, rfl, rfl⟩ := hstrings
      exact compare_same_unknown_iff op _
    · rw [and_iff_left (.inr hbooleans)]
      obtain ⟨p, q, rfl, rfl⟩ := hbooleans
      exact compare_same_unknown_iff op _
  · exact iff_of_true (compare_of_mismatch op h) (.inl h)

/-- A comparison says the same when it is read from the right. -/
theorem compare_mirrored : b.compare op.mirrored a = a.compare op b := by
  by_cases h : Compatible a b
  · rcases h with hnumeric | ⟨s, t, rfl, rfl⟩ | ⟨p, q, rfl, rfl⟩
    · rw [compare_of_numeric op hnumeric, compare_of_numeric _ ⟨hnumeric.2, hnumeric.1⟩,
        numeric_order_swap hnumeric, Comparison.decided_mirrored]
    · change compareSame _ (t == s) = compareSame op (s == t)
      rw [BEq.comm, compare_same_mirrored]
    · change compareSame _ (q == p) = compareSame op (p == q)
      rw [BEq.comm, compare_same_mirrored]
  · rw [compare_of_mismatch op h, compare_of_mismatch _ fun hswap => h hswap.symm]

/-- The outcome of `<>` is the negation of that of `=`. -/
theorem compare_not_equal : a.compare notEqual b = (a.compare equal b).not := by
  by_cases h : Compatible a b
  · rcases h with hnumeric | ⟨s, t, rfl, rfl⟩ | ⟨p, q, rfl, rfl⟩
    · rw [compare_of_numeric _ hnumeric, compare_of_numeric _ hnumeric,
        Comparison.decided_not_equal]
    · exact compare_same_not_equal _
    · exact compare_same_not_equal _
  · rw [compare_of_mismatch _ h, compare_of_mismatch _ h]
    rfl

/-- Of two numbers one is less than the other, or greater, or they are equal. -/
theorem compare_trichotomy (ha : a.IsNumber) (hb : b.IsNumber) :
    ∃! op, op ∈ [less, equal, greater] ∧ a.compare op b = .holds := by
  simp only [compare_of_numeric _ (both_numeric_of_numbers ha hb), numeric_order_of_numbers ha hb]
  exact Comparison.exists_unique_decided (order a b)

/-- Integers are related as they are, whatever their doubles are. -/
theorem compare_integers (m n : Int64) :
    compare op (integer m) (integer n) = .ofBool (op.Relates m.toInt n.toInt) :=
  congrArg Truth.ofBool
    (Bool.eq_iff_iff.mpr ((op.accepts_compare_iff _ _).trans decide_eq_true_iff.symm))

/-- A comparison is unknown of values whose types do not go together, and if it orders strings or
booleans. It may be read from the right, and `<>` is the negation of `=`. Of numeric values `<=` is
`<` or `=` and `>=` is `>` or `=`; one of `<`, `=` and `>` holds of two numbers, and nothing but
`<>` of a pair with the undefined number in it. Integers are compared exactly. -/
theorem comparison_algebra :
    (∀ op, a.compare op b = .unknown ↔
      ¬ Compatible a b ∨ op.isEquality = false ∧ (BothStrings a b ∨ BothBooleans a b)) ∧
    (∀ op, a.compare op b = b.compare op.mirrored a) ∧
    a.compare notEqual b = (a.compare equal b).not ∧
    (BothNumeric a b →
      a.compare lessOrEqual b = (a.compare less b).or (a.compare equal b) ∧
      a.compare greaterOrEqual b = (a.compare greater b).or (a.compare equal b) ∧
      (a.IsNumber ∧ b.IsNumber → ∃! op, op ∈ [less, equal, greater] ∧ a.compare op b = .holds) ∧
      (¬ (a.IsNumber ∧ b.IsNumber) → ∀ op, a.compare op b = .ofBool (op = notEqual))) ∧
    ∀ m n, a = integer m → b = integer n →
      ∀ op, a.compare op b = .ofBool (op.Relates m.toInt n.toInt) := by
  refine ⟨fun op => compare_unknown_iff op a b, fun op => (compare_mirrored op a b).symm,
    compare_not_equal a b, fun hnumeric => ⟨?_, ?_, ?_, ?_⟩, ?_⟩
  · simp only [compare_of_numeric _ hnumeric, Comparison.decided_less_or_equal]
  · simp only [compare_of_numeric _ hnumeric, Comparison.decided_greater_or_equal]
  · rintro ⟨ha, hb⟩
    exact compare_trichotomy a b ha hb
  · intro hundefined op
    rw [compare_of_numeric op hnumeric, numeric_order_of_undefined hnumeric hundefined]
    rfl
  · rintro m n rfl rfl op
    exact compare_integers op m n

/-- The integer above `2 ^ 53` is greater than the integer `2 ^ 53`, and stands in one of the three
orders to the double `2 ^ 53`. The undefined number is in no order with itself, and unequal to
itself. -/
theorem comparison_algebra_at_limits :
    let above := integer 9007199254740993
    let double := float 9007199254740992.0
    let undefined := float (0.0 / 0.0)
    compare greater above (integer 9007199254740992) = .holds ∧
      (∃! op, op ∈ [less, equal, greater] ∧ compare op above double = .holds) ∧
      compare lessOrEqual undefined undefined = .fails ∧
      compare notEqual undefined undefined = .holds := by
  intro above double undefined
  have hintegers := (comparison_algebra above (integer 9007199254740992)).2.2.2.2 _ _ rfl rfl
  have hnumbers := (comparison_algebra above double).2.2.2.1 ⟨rfl, rfl⟩
  have hundefined := (comparison_algebra undefined undefined).2.2.2.1 ⟨rfl, rfl⟩
  have hdouble : Float.isNaN 9007199254740992.0 = false := by decide +kernel
  have hnan : Float.isNaN (0.0 / 0.0) ≠ false := by decide +kernel
  have hnone := hundefined.2.2.2 fun hboth => hnan hboth.1
  exact ⟨hintegers greater, hnumbers.2.2.1 ⟨trivial, hdouble⟩, hnone lessOrEqual, hnone notEqual⟩

end Value

end MessageSelector
