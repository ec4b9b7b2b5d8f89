import MessageSelector.Message
import MessageSelector.Proofs.Composition
import MessageSelector.Proofs.Parts

/-!
# More information

A result that does not rest on absence survives when more becomes known. An absent value is less
than any other, and every operation on values and outcomes keeps to that order: `Kept` for values,
`Truth.Kept` for outcomes, and one lemma an operation. Only `IS NULL` does not, as it turns absence
into an answer, so the two sources must agree on what it is asked about.
-/

namespace MessageSelector

/-! ## The order of information -/

/-- What was known is still known: the two values are the same unless the first is absent. -/
def Kept (before after : Option Value) : Prop :=
  before = none ∨ before = after

/-- An outcome that was definite is still the outcome. -/
def Truth.Kept (before after : Truth) : Prop :=
  before = .unknown ∨ before = after

namespace Kept

variable {before after : Option Value}

theorem refl (value : Option Value) : Kept value value :=
  .inr rfl

/-- A value that was there is there. -/
theorem eq_some (h : Kept before after) {value : Value} (hbefore : before = some value) :
    after = some value := by
  subst hbefore
  exact (h.resolve_left nofun).symm

/-- What is computed from a value is kept with it. -/
theorem bind (h : Kept before after) (compute : Value → Option Value) :
    Kept (before.bind compute) (after.bind compute) := by
  rcases h with rfl | rfl
  · exact .inl rfl
  · exact .refl _

/-- What is computed from two values is kept with them. -/
theorem bind_bind {other more : Option Value} (h : Kept before after) (hother : Kept other more)
    (compute : Value → Value → Option Value) :
    Kept (before.bind fun a => other.bind (compute a))
      (after.bind fun a => more.bind (compute a)) := by
  rcases h with rfl | rfl
  · exact .inl rfl
  · cases before with
    | none => exact .refl none
    | some value => exact hother.bind (compute value)

/-- The truth of a value is kept with it. -/
theorem truth (h : Kept before after) :
    Truth.Kept (Truth.ofValue? before) (Truth.ofValue? after) := by
  rcases h with rfl | rfl
  · exact .inl rfl
  · exact .inr rfl

/-- The comparison of two values is kept with them. -/
theorem compare {left right left' right' : Option Value} (op : Comparison)
    (hleft : Kept left left') (hright : Kept right right') :
    Truth.Kept (Value.compare? op left right) (Value.compare? op left' right') := by
  rcases hleft with rfl | rfl
  · exact .inl rfl
  · rcases hright with rfl | rfl
    · cases left <;> exact .inl rfl
    · exact .inr rfl

/-- A test of strings is kept with what it is put to. -/
theorem test_string (h : Kept before after) (test : String → Bool) :
    Truth.Kept (Value.testString? before test) (Value.testString? after test) := by
  rcases h with rfl | rfl
  · exact .inl rfl
  · exact .inr rfl

end Kept

namespace Truth.Kept

variable {before after left right left' right' : Truth}

/-- A conjunction is kept with its operands: one that fails decides it whatever the other is. -/
theorem and (hleft : Kept left left') (hright : Kept right right') :
    Kept (left.and right) (left'.and right') := by
  rcases hleft with rfl | rfl <;> rcases hright with rfl | rfl
  · exact .inl rfl
  · cases right <;> cases left' <;> first | exact .inl rfl | exact .inr rfl
  · cases left <;> cases right' <;> first | exact .inl rfl | exact .inr rfl
  · exact .inr rfl

/-- A disjunction is kept with its operands: one that holds decides it whatever the other is. -/
theorem or (hleft : Kept left left') (hright : Kept right right') :
    Kept (left.or right) (left'.or right') := by
  rcases hleft with rfl | rfl <;> rcases hright with rfl | rfl
  · exact .inl rfl
  · cases right <;> cases left' <;> first | exact .inl rfl | exact .inr rfl
  · cases left <;> cases right' <;> first | exact .inl rfl | exact .inr rfl
  · exact .inr rfl

/-- A negation is kept with its operand. -/
theorem not (h : Kept before after) : Kept before.not after.not := by
  rcases h with rfl | rfl
  · exact .inl rfl
  · exact .inr rfl

/-- An outcome is kept whether it is to be negated or not. -/
theorem not_if (h : Kept before after) (negated : Bool) :
    Kept (before.notIf negated) (after.notIf negated) := by
  cases negated with
  | true => exact h.not
  | false => exact h

/-- An outcome is kept where a value is expected. -/
theorem value (h : Kept before after) : MessageSelector.Kept before.toValue? after.toValue? := by
  rcases h with rfl | rfl
  · exact .inl rfl
  · exact .inr rfl

/-- An outcome that was definite is the outcome. -/
theorem eq_of_definite (h : Kept before after) (hdefinite : before ≠ .unknown) :
    after = before :=
  (h.resolve_left hdefinite).symm

end Truth.Kept

/-! ## Evaluation with more information -/

/-- The second source knows what the first knows of the names in an expression, and both know the
same of the names that the expression tests for absence. -/
structure Informs (p q : Source) (e : Expr) : Prop where
  named (name : String) : Subtree (.identifier name) e → p name = none ∨ p name = q name
  tested (operand : Expr) (negated : Bool) : Subtree (.isNull operand negated) e →
    ∃ name, operand = .identifier name ∧ (p name = none ↔ q name = none)

variable {p q : Source} {e child : Expr}

/-- What is known of an expression is known of what it is made of. -/
theorem Informs.of_child (h : Informs p q e) (hchild : child ∈ e.children) : Informs p q child where
  named name hsub := h.named name (.inside hchild hsub)
  tested operand negated hsub := h.tested operand negated (.inside hchild hsub)

namespace Expr

/-- A value is kept with more information. -/
theorem evaluate_kept (h : Informs p q e) : Kept (e.evaluate p) (e.evaluate q) := by
  induction e with
  | identifier name => exact h.named name (.whole _)
  | literal => exact .refl _
  | not operand ih => exact (ih (h.of_child (by simp [children]))).truth.not.value
  | and left right ihLeft ihRight =>
      have hleft := (ihLeft (h.of_child (by simp [children]))).truth
      have hright := (ihRight (h.of_child (by simp [children]))).truth
      exact (hleft.and hright).value
  | or left right ihLeft ihRight =>
      have hleft := (ihLeft (h.of_child (by simp [children]))).truth
      have hright := (ihRight (h.of_child (by simp [children]))).truth
      exact (hleft.or hright).value
  | comparison op left right ihLeft ihRight =>
      have hleft := ihLeft (h.of_child (by simp [children]))
      have hright := ihRight (h.of_child (by simp [children]))
      exact (hleft.compare op hright).value
  | arithmetic op left right ihLeft ihRight =>
      have hleft := ihLeft (h.of_child (by simp [children]))
      have hright := ihRight (h.of_child (by simp [children]))
      exact hleft.bind_bind hright (Value.arithmetic? op)
  | signed sign operand ih =>
      exact (ih (h.of_child (by simp [children]))).bind (Value.signed? sign)
  | between operand low high negated ih ihLow ihHigh =>
      have hvalue := ih (h.of_child (by simp [children]))
      have hlow := ihLow (h.of_child (by simp [children]))
      have hhigh := ihHigh (h.of_child (by simp [children]))
      have hwithin := (hvalue.compare .greaterOrEqual hlow).and (hvalue.compare .lessOrEqual hhigh)
      exact (hwithin.not_if negated).value
  | inList operand items negated ih =>
      have hvalue := ih (h.of_child (by simp [children]))
      exact ((hvalue.test_string items.contains).not_if negated).value
  | like operand pattern negated ih =>
      have hvalue := ih (h.of_child (by simp [children]))
      exact ((hvalue.test_string pattern.accepts).not_if negated).value
  | isNull operand negated =>
      -- The value may be new, so the induction hypothesis is of no use: only its absence is tested.
      obtain ⟨name, rfl, habsent⟩ := h.tested operand negated (.whole _)
      have hsame : (p name).isNone = (q name).isNone := by
        rw [Bool.eq_iff_iff, Option.isNone_iff_eq_none, Option.isNone_iff_eq_none, habsent]
      rw [evaluate, evaluate, evaluate, evaluate, hsame]
      exact .refl _

/-- The value depends on nothing but the names in the expression. -/
theorem evaluate_eq_of_named (h : ∀ name, Subtree (.identifier name) e → p name = q name) :
    e.evaluate p = e.evaluate q := by
  induction e with
  | identifier name => exact h name (.whole _)
  | literal => rfl
  | not operand ih | signed _ operand ih | inList operand _ _ ih | like operand _ _ ih
  | isNull operand _ ih =>
      have hsame := ih fun name hsub => h name (.inside (by simp [children]) hsub)
      simp only [evaluate, hsame]
  | and left right ihLeft ihRight | or left right ihLeft ihRight
  | comparison _ left right ihLeft ihRight | arithmetic _ left right ihLeft ihRight =>
      have hleft := ihLeft fun name hsub => h name (.inside (by simp [children]) hsub)
      have hright := ihRight fun name hsub => h name (.inside (by simp [children]) hsub)
      simp only [evaluate, hleft, hright]
  | between operand low high negated ih ihLow ihHigh =>
      have hsame := ih fun name hsub => h name (.inside (by simp [children]) hsub)
      have hlow := ihLow fun name hsub => h name (.inside (by simp [children]) hsub)
      have hhigh := ihHigh fun name hsub => h name (.inside (by simp [children]) hsub)
      simp only [evaluate, hsame, hlow, hhigh]

end Expr

/-! ## Messages with more properties -/

namespace Message

/-- The message with properties set one after another. -/
def withProperties (message : Message) (added : List (String × Value)) : Message :=
  added.foldl (fun message entry => message.update (.property entry.1 entry.2)) message

/-- Setting a property changes nothing but what is offered under its name, and not even that where
the name is that of a header. -/
theorem source_update_property (message : Message) {name other : String} (value : Value)
    (h : (Header.ofName? other).isSome ∨ name ≠ other) :
    (message.update (.property name value)).source other = message.source other := by
  unfold source
  cases hheader : Header.ofName? other with
  | some header => cases header <;> rfl
  | none =>
      have hne : other ≠ name := fun heq => h.elim (by simp [hheader]) fun hne => hne heq.symm
      simp only [update, Properties.get?_set, if_neg hne]

/-- Setting any number of properties changes nothing else either. -/
theorem source_with_properties (message : Message) {added : List (String × Value)} {other : String}
    (h : (Header.ofName? other).isSome ∨ ∀ entry ∈ added, entry.1 ≠ other) :
    (message.withProperties added).source other = message.source other := by
  induction added generalizing message with
  | nil => rfl
  | cons entry rest ih =>
      rw [List.forall_mem_cons] at h
      have hrest := ih (message.update (.property entry.1 entry.2)) (h.imp_right And.right)
      exact hrest.trans (source_update_property message entry.2 (h.imp_right And.left))

/-- Properties that were not set are more information. -/
theorem source_with_properties_kept (message : Message) {added : List (String × Value)}
    (hnew : ∀ entry ∈ added, message.properties.get? entry.1 = none) (name : String) :
    Kept (message.source name) ((message.withProperties added).source name) := by
  by_cases hset : (Header.ofName? name).isSome ∨ ∀ entry ∈ added, entry.1 ≠ name
  · rw [source_with_properties message hset]
    exact .refl _
  · push Not at hset
    obtain ⟨hheader, entry, hmem, rfl⟩ := hset
    left
    rw [source, Option.not_isSome_iff_eq_none.mp hheader]
    exact hnew entry hmem

end Message

/-- A message that is selected without a test for absence is selected with more properties. -/
theorem Selector.selects_with_properties (message : Message) {added : List (String × Value)}
    (hnew : ∀ entry ∈ added, message.properties.get? entry.1 = none)
    (htests : ∀ operand negated, ¬ Subtree (.isNull operand negated) e)
    (hselected : selects ⟨some e⟩ message.source = true) :
    selects ⟨some e⟩ (message.withProperties added).source = true := by
  rw [selects_iff] at hselected ⊢
  have hinforms : Informs message.source (message.withProperties added).source e :=
    ⟨fun name _ => message.source_with_properties_kept hnew name,
      fun operand negated hsub => absurd hsub (htests operand negated)⟩
  have hkept := (Expr.evaluate_kept hinforms).truth
  exact (hkept.eq_of_definite (by rw [← Expr.truth, hselected]; decide)).trans hselected

/-- Definite results survive more information. A value of an expression, and an outcome that holds
or fails, is the same on every source that has the named properties that were there and agrees on
the absence of those that the expression tests for it. In particular the result depends on nothing
but the properties named, and a message that is selected without a test for absence is selected
with any properties added. -/
theorem Expr.definite_results_survive (e : Expr) :
    (∀ p q : Source,
      (∀ name, Subtree (.identifier name) e → p name = none ∨ p name = q name) →
      (∀ operand negated, Subtree (.isNull operand negated) e →
        ∃ name, operand = .identifier name ∧ (p name = none ↔ q name = none)) →
      (∀ value, e.evaluate p = some value → e.evaluate q = some value) ∧
      (e.truth p = .holds → e.truth q = .holds) ∧
      (e.truth p = .fails → e.truth q = .fails)) ∧
    (∀ p q : Source, (∀ name, Subtree (.identifier name) e → p name = q name) →
      e.evaluate p = e.evaluate q ∧ e.truth p = e.truth q) ∧
    ((∀ operand negated, ¬ Subtree (.isNull operand negated) e) →
      ∀ (message : Message) (added : List (String × Value)),
        (∀ entry ∈ added, message.properties.get? entry.1 = none) →
        Selector.selects ⟨some e⟩ message.source = true →
        Selector.selects ⟨some e⟩ (message.withProperties added).source = true) := by
  refine ⟨fun p q hnamed htested => ?_, fun p q hnamed => ?_, fun htests message added hnew => ?_⟩
  · have hkept := evaluate_kept ⟨hnamed, htested⟩
    refine ⟨fun value => hkept.eq_some, fun hholds => ?_, fun hfails => ?_⟩
    · exact (hkept.truth.eq_of_definite (by rw [← truth, hholds]; decide)).trans hholds
    · exact (hkept.truth.eq_of_definite (by rw [← truth, hfails]; decide)).trans hfails
  · have hsame := evaluate_eq_of_named hnamed
    exact ⟨hsame, congrArg Truth.ofValue? hsame⟩
  · exact Selector.selects_with_properties message hnew htests

/-- A test for the absence of one property and a comparison of another are indifferent to a third
that turns up. -/
theorem Expr.definite_results_survive_third_property :
    (let e := Expr.and (.isNull (.identifier "c") false) (.identifier "a")
      let p : Source := fun name => if name = "a" then some (.boolean true) else none
      let q : Source := fun name => if name = "b" then some (.integer 2) else p name
      e.truth p = .holds ∧ e.truth q = .holds ∧ e.evaluate p = e.evaluate q) ∧
    (let e := Expr.comparison .equal (.identifier "a") (.literal (.string "x"))
      let message := Message.build [.property "a" (.string "x")]
      Selector.selects ⟨some e⟩ message.source = true ∧
        Selector.selects ⟨some e⟩ (message.withProperties [("b", .integer 2)]).source = true) := by
  refine ⟨?_, ?_⟩
  · intro e p q
    obtain ⟨hsurvive, hnamed, -⟩ := definite_results_survive e
    have hholds : e.truth p = .holds := by cbv
    refine ⟨hholds, (hsurvive p q (fun name _ => ?_) fun operand negated hsub => ?_).2.1 hholds,
      (hnamed p q fun name hsub => ?_).1⟩
    · by_cases hb : name = "b"
      · subst hb
        exact .inl rfl
      · exact .inr (if_neg hb).symm
    · have hoperand : operand = .identifier "c" ∧ negated = false := by
        simpa [e, subtree_iff _ (and _ _), subtree_iff _ (isNull _ _), subtree_iff _ (identifier _),
          children] using hsub
      exact ⟨"c", hoperand.1, by decide⟩
    · have hname : name = "c" ∨ name = "a" := by
        simpa [e, subtree_iff _ (and _ _), subtree_iff _ (isNull _ _), subtree_iff _ (identifier _),
          children] using hsub
      rcases hname with rfl | rfl <;> rfl
  · intro e message
    have hselected : Selector.selects ⟨some e⟩ message.source = true := by cbv
    refine ⟨hselected, (definite_results_survive e).2.2 (fun operand negated => ?_) message _ ?_
      hselected⟩
    · simp [e, subtree_iff _ (comparison _ _ _), subtree_iff _ (literal _),
        subtree_iff _ (identifier _), children]
    · simp only [List.forall_mem_singleton]
      rfl

end MessageSelector
