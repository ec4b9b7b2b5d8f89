import MessageSelector.Proofs.Lexical.Numbers

/-!
# Numbers as written

A floating-point literal is digits with a point or an exponent. `Numeral` holds its parts together
with what makes them one literal, and tells the decimal number that the literal denotes.
-/

namespace MessageSelector

/-- A floating-point literal in its parts: digits, then digits after a point if there are any, then
an exponent if there is one, with its sign and digits. -/
structure Numeral where
  whole : List Char
  fraction : List Char
  exponent : Option (Bool × List Char)
  whole_ne_nil : whole ≠ []
  whole_digits : whole.all Char.isDigit = true
  fraction_digits : fraction.all Char.isDigit = true
  exponent_digits : ∀ negative ds, exponent = some (negative, ds) →
    ds ≠ [] ∧ ds.all Char.isDigit = true
  /-- Digits alone are an integer literal. -/
  is_float : fraction = [] → exponent ≠ none

namespace Numeral

open Token
open Decimal (splitDigits)

/-- The point with the digits after it. -/
def pointText : List Char → List Char
  | [] => []
  | fraction => '.' :: fraction

/-- The exponent as written. -/
def exponentText : Option (Bool × List Char) → List Char
  | none => []
  | some (true, ds) => 'e' :: '-' :: ds
  | some (false, ds) => 'e' :: ds

/-- The literal as written. -/
def text (numeral : Numeral) : List Char :=
  numeral.whole ++ pointText numeral.fraction ++ exponentText numeral.exponent

/-- An exponent begins with no digit. -/
theorem exponent_text_head (exponent : Option (Bool × List Char)) :
    ∀ c ∈ (exponentText exponent).head?, c.isDigit = false := by
  rcases exponent with _ | ⟨_ | _, ds⟩ <;> rintro c ⟨⟩ <;> rfl

/-- An exponent is written as one. -/
theorem exponent_written (numeral : Numeral) :
    exponentText numeral.exponent = [] ∨ IsExponent (exponentText numeral.exponent) := by
  rcases hexponent : numeral.exponent with _ | ⟨negative, ds⟩
  · exact .inl rfl
  · obtain ⟨hne, hds⟩ := numeral.exponent_digits negative ds hexponent
    right
    cases negative with
    | true => exact @IsExponent.mk 'e' ['-'] ds (.inl rfl) (.inr (.inr rfl)) hne hds
    | false => exact @IsExponent.mk 'e' [] ds (.inl rfl) (.inl rfl) hne hds

/-- A literal is written as one. -/
theorem written (numeral : Numeral) : IsFloat numeral.text := by
  refine ⟨numeral.text, [], (List.append_nil _).symm, ?_, .inl rfl⟩
  have hexponent := numeral.exponent_written
  unfold text
  cases hfraction : numeral.fraction with
  | nil =>
      -- Without a point there is an exponent, which comes right after the digits.
      have hsome := numeral.is_float hfraction
      rw [pointText, List.append_nil]
      refine .scientific numeral.whole_digits numeral.whole_ne_nil (hexponent.resolve_left ?_)
      rcases hparts : numeral.exponent with _ | ⟨_ | _, ds⟩
      · exact absurd hparts hsome
      · exact List.cons_ne_nil _ _
      · exact List.cons_ne_nil _ _
  | cons d ds =>
      have hdigits := numeral.fraction_digits
      rw [hfraction] at hdigits
      rw [List.append_assoc]
      exact .pointed numeral.whole_digits hdigits (.inl numeral.whole_ne_nil) hexponent

/-! ## What a literal denotes -/

/-- The value of an exponent. -/
def exponentValue : Option (Bool × List Char) → Int
  | none => 0
  | some (true, ds) => -(Integer.ofDigits 10 ds : Int)
  | some (false, ds) => Integer.ofDigits 10 ds

/-- The decimal number that a literal denotes. -/
def decimal (numeral : Numeral) : Decimal :=
  ⟨Integer.ofDigits 10 (numeral.whole ++ numeral.fraction),
    exponentValue numeral.exponent - numeral.fraction.length⟩

/-- An exponent that ends a text is read with its sign. -/
theorem read_exponent_text (numeral : Numeral) :
    Decimal.readExponent? (exponentText numeral.exponent) =
      some (exponentValue numeral.exponent) := by
  rcases hexponent : numeral.exponent with _ | ⟨negative, ds⟩
  · rfl
  · obtain ⟨hne, hds⟩ := numeral.exponent_digits negative ds hexponent
    have hnonempty : ds.isEmpty = false := by simpa using hne
    cases negative with
    | true =>
        simp [exponentText, Decimal.readExponent?, Integer.splitSign, hnonempty, hds, exponentValue]
    | false =>
        have hsign : Integer.splitSign ds = (false, ds) := by
          rw [← List.append_nil ds]
          unfold Integer.splitSign
          split
          · next heq => exact absurd heq (unsigned_of_digits hne hds (by decide))
          · next heq => exact absurd heq (unsigned_of_digits hne hds (by decide))
          · rfl
        simp [exponentText, Decimal.readExponent?, hsign, hnonempty, hds, exponentValue]

/-- A literal is read as the decimal number it denotes. -/
theorem read_text (numeral : Numeral) : Decimal.read? numeral.text = some numeral.decimal := by
  have hexponent := numeral.read_exponent_text
  have hwhole : numeral.whole.isEmpty = false := by simpa using numeral.whole_ne_nil
  have hhead := exponent_text_head numeral.exponent
  unfold Decimal.read? text
  rw [List.append_assoc]
  cases hfraction : numeral.fraction with
  | nil =>
      rw [split_digits_append numeral.whole_digits (by simpa [pointText] using hhead)]
      rcases hparts : numeral.exponent with _ | ⟨_ | _, ds⟩ <;>
        rw [hparts] at hexponent <;> simp only [exponentText] at hexponent <;>
        simp [pointText, exponentText, hwhole, hexponent, decimal, hfraction, hparts]
  | cons d ds =>
      have hdigits := numeral.fraction_digits
      rw [hfraction] at hdigits
      rw [split_digits_append numeral.whole_digits (by simp [pointText])]
      have hsplit := split_digits_append hdigits hhead
      simp only [pointText, List.cons_append] at hsplit ⊢
      simp only [hsplit, hwhole, hexponent]
      simp [decimal, hfraction]

/-- A digit is no suffix. -/
theorem suffix_of_digits {ds : List Char} (h : ds.all Char.isDigit = true) :
    ∀ c ∈ ds, isFloatSuffix c = false ∧ isIntegerSuffix c = false := by
  intro c hc
  have hdigit : c.isDigit = true := List.all_eq_true.mp h c hc
  constructor
  · cases hsuffix : isFloatSuffix c with
    | false => rfl
    | true =>
        simp only [isFloatSuffix, Bool.or_eq_true, decide_eq_true_eq] at hsuffix
        rcases hsuffix with ((rfl | rfl) | rfl) | rfl <;> exact absurd hdigit (by decide)
  · cases hsuffix : isIntegerSuffix c with
    | false => rfl
    | true =>
        simp only [isIntegerSuffix, Bool.or_eq_true, decide_eq_true_eq] at hsuffix
        rcases hsuffix with rfl | rfl <;> exact absurd hdigit (by decide)

/-- A literal has no suffix. -/
theorem filter_text (numeral : Numeral) :
    numeral.text.filter (!isFloatSuffix ·) = numeral.text := by
  have hdigits {ds : List Char} (h : ds.all Char.isDigit = true) :
      ∀ c ∈ ds, isFloatSuffix c = false := fun c hc => (suffix_of_digits h c hc).1
  rw [List.filter_eq_self]
  intro c hc
  suffices hsuffix : isFloatSuffix c = false by rw [hsuffix]; rfl
  simp only [text, List.mem_append] at hc
  rcases hc with (hc | hc) | hc
  · exact hdigits numeral.whole_digits c hc
  · have hdigitsAfter := numeral.fraction_digits
    cases hfraction : numeral.fraction with
    | nil =>
        rw [hfraction] at hc
        cases hc
    | cons d ds =>
        rw [hfraction] at hc hdigitsAfter
        rcases List.mem_cons.mp hc with rfl | hc
        · rfl
        · exact hdigits hdigitsAfter c hc
  · rcases hexponent : numeral.exponent with _ | ⟨negative, ds⟩
    · rw [hexponent] at hc
      cases hc
    · obtain ⟨-, hds⟩ := numeral.exponent_digits negative ds hexponent
      rw [hexponent] at hc
      cases negative with
      | true =>
          rcases List.mem_cons.mp hc with rfl | hc
          · rfl
          · rcases List.mem_cons.mp hc with rfl | hc
            · rfl
            · exact hdigits hds c hc
      | false =>
          rcases List.mem_cons.mp hc with rfl | hc
          · rfl
          · exact hdigits hds c hc

/-- A literal has the number that its decimal rounds to, where that is finite. -/
theorem float_value_text (numeral : Numeral) (h : numeral.decimal.toFloat.isFinite = true) :
    floatValue? (String.ofList numeral.text) = some numeral.decimal.toFloat := by
  unfold floatValue?
  simp only [String.toList_ofList, numeral.filter_text, numeral.read_text]
  simp [h]

end Numeral

end MessageSelector
