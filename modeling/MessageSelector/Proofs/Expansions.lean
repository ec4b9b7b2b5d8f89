import MessageSelector.Proofs.Evaluation
import MessageSelector.Proofs.Wildcards

/-!
# Condensed conditions

A range test, a list test and a test against a pattern without wildcards are short for comparisons,
and every negated test is short for the negation of the test. `Expands` says what each is short for.
Read `same_as_expansion` for the result: no source tells the two apart, not even one where the
operand is absent or of another type.
-/

namespace MessageSelector

/-! ## Tests of strings -/

namespace Value

/-- Equality with a string is a test of strings. -/
theorem compare_text (value : Option Value) (text : String) :
    compare? .equal value (some (.string text)) = testString? value (· == text) := by
  match value with
  | none => rfl
  | some (.string _) => rfl
  | some (.integer _) | some (.float _) | some (.boolean _) => rfl

/-- A string passes one test or another where it passes either, and nothing else passes any. -/
theorem test_string_or (value : Option Value) (first second : String → Bool) :
    (testString? value first).or (testString? value second) =
      testString? value fun text => first text || second text := by
  match value with
  | none => rfl
  | some (.string text) =>
      change (Truth.ofBool (first text)).or (.ofBool (second text)) =
        .ofBool (first text || second text)
      cases first text <;> cases second text <;> rfl
  | some (.integer _) | some (.float _) | some (.boolean _) => rfl

end Value

namespace Like

/-- A text without wildcards is read as the characters it consists of. -/
theorem reads_plain {text : List Char} (hrun : '%' ∉ text) (hone : '_' ∉ text) :
    Reads none text (text.map Item.char) := by
  induction text with
  | nil => exact .nil
  | cons c rest ih =>
      obtain ⟨hrun, hrunRest⟩ := List.ne_and_not_mem_of_not_mem_cons hrun
      obtain ⟨hone, honeRest⟩ := List.ne_and_not_mem_of_not_mem_cons hone
      exact .char (by simp) hrun.symm hone.symm (ih hrunRest honeRest)

/-- Characters that stand for themselves fit the text they make, and no other. -/
theorem fits_chars (text subject : List Char) :
    Fits (text.map Item.char) subject ↔ subject = text := by
  induction text generalizing subject with
  | nil => exact fits_nil subject
  | cons c rest ih =>
      rw [List.map_cons, fits_cons]
      constructor
      · rintro ⟨piece, left, hpiece, hleft, rfl⟩
        rw [(ih left).mp hleft, show piece = [c] from hpiece]
        rfl
      · rintro rfl
        exact ⟨[c], rest, rfl, (ih rest).mpr rfl, rfl⟩

/-- A pattern without wildcards and without an escape character accepts its own text only. -/
theorem accepts_plain {pattern : Pattern} (hescape : pattern.escape = none)
    (hrun : '%' ∉ pattern.text.toList) (hone : '_' ∉ pattern.text.toList) (subject : String) :
    pattern.accepts subject = (subject == pattern.text) := by
  have hreads := reads_plain hrun hone
  rw [← hescape, reads_iff_items] at hreads
  rw [Bool.eq_iff_iff, beq_iff_eq, ← String.toList_inj, Pattern.accepts, front_iff_fits, ← hreads,
    fits_chars]

end Like

/-! ## Expansions -/

namespace Expr

/-- The comparison of an operand with a string literal. -/
def equalsText (operand : Expr) (text : String) : Expr :=
  .comparison .equal operand (.literal (.string text))

/-- The first condition is short for the second. -/
inductive Expands : Expr → Expr → Prop where
  | between (operand low high : Expr) :
      Expands (.between operand low high false)
        (.and (.comparison .greaterOrEqual operand low) (.comparison .lessOrEqual operand high))
  | inList (operand : Expr) (first : String) (rest : List String) :
      Expands (.inList operand (first :: rest) false)
        (rest.foldl (fun found item => .or found (operand.equalsText item))
          (operand.equalsText first))
  | like (operand : Expr) (pattern : Like.Pattern) (hescape : pattern.escape = none)
      (hrun : '%' ∉ pattern.text.toList) (hone : '_' ∉ pattern.text.toList) :
      Expands (.like operand pattern false) (operand.equalsText pattern.text)
  | notBetween (operand low high : Expr) :
      Expands (.between operand low high true) (.not (.between operand low high false))
  | notInList (operand : Expr) (items : List String) :
      Expands (.inList operand items true) (.not (.inList operand items false))
  | notLike (operand : Expr) (pattern : Like.Pattern) :
      Expands (.like operand pattern true) (.not (.like operand pattern false))
  | isNotNull (operand : Expr) :
      Expands (.isNull operand true) (.not (.isNull operand false))

variable (source : Source)

/-- A comparison with a string literal puts the operand to the test of being that string. -/
theorem evaluate_equals_text (operand : Expr) (text : String) :
    (operand.equalsText text).evaluate source =
      (Value.testString? (operand.evaluate source) (· == text)).toValue? :=
  congrArg Truth.toValue? (Value.compare_text _ _)

/-- The value of the negation of a condition is that of the negated outcome. -/
theorem evaluate_not_of_outcome {condition : Expr} {outcome : Truth}
    (h : condition.evaluate source = outcome.toValue?) :
    (Expr.not condition).evaluate source = (outcome.notIf true).toValue? := by
  rw [evaluate, h, Truth.of_value_to_value]
  rfl

/-- A disjunction of comparisons with string literals puts the operand to all the tests in turn. -/
theorem evaluate_any_text (operand : Expr) (items : List String) {found : Expr}
    {passes : String → Bool}
    (hfound : found.evaluate source =
      (Value.testString? (operand.evaluate source) passes).toValue?) :
    (items.foldl (fun found item => .or found (operand.equalsText item)) found).evaluate source =
      (Value.testString? (operand.evaluate source)
        fun text => passes text || items.contains text).toValue? := by
  -- What was found so far grows by one item in each step.
  induction items generalizing found passes with
  | nil => simpa using hfound
  | cons item rest ih =>
      have hnext : (Expr.or found (operand.equalsText item)).evaluate source =
          (Value.testString? (operand.evaluate source)
            fun text => passes text || text == item).toValue? := by
        rw [evaluate, hfound, evaluate_equals_text, Truth.of_value_to_value,
          Truth.of_value_to_value, Value.test_string_or]
      rw [List.foldl_cons, ih hnext]
      simp only [List.contains_cons, Bool.or_assoc]

variable {source}

/-- A condensed condition and its expansion yield the same value and have the same truth on every
source. -/
theorem same_as_expansion {condensed expansion : Expr} (h : Expands condensed expansion)
    (source : Source) :
    condensed.evaluate source = expansion.evaluate source ∧
      condensed.truth source = expansion.truth source := by
  have hvalue : condensed.evaluate source = expansion.evaluate source := by
    cases h with
    | between operand low high =>
        rw [evaluate, evaluate, evaluate, evaluate, Truth.of_value_to_value,
          Truth.of_value_to_value]
        rfl
    | inList operand first rest =>
        rw [evaluate_any_text source operand rest (evaluate_equals_text source operand first)]
        simp only [← List.contains_cons]
        rfl
    | like operand pattern hescape hrun hone =>
        rw [evaluate_equals_text, ← funext (Like.accepts_plain hescape hrun hone)]
        rfl
    | notBetween | notInList | notLike | isNotNull =>
        exact (evaluate_not_of_outcome source rfl).symm
  exact ⟨hvalue, congrArg Truth.ofValue? hvalue⟩

/-- A list test of a number is unknown, and so is the disjunction of the equalities that it is short
for, though the list test of a string that is not there fails. -/
theorem same_as_expansion_of_list :
    let code := Expr.identifier "code"
    let condensed := Expr.inList code ["a", "b"] false
    let expansion := Expr.or (code.equalsText "a") (code.equalsText "b")
    expansion.truth (fun _ => some (.integer 1)) = .unknown ∧
      expansion.truth (fun _ => some (.string "c")) = .fails ∧
      condensed.truth (fun _ => some (.integer 1)) = .unknown ∧
      condensed.truth (fun _ => some (.string "c")) = .fails := by
  intro code condensed expansion
  have h := same_as_expansion (Expands.inList code "a" ["b"])
  exact ⟨(h _).2.symm, (h _).2.symm.trans (by decide), by decide, by decide⟩

end Expr

end MessageSelector
