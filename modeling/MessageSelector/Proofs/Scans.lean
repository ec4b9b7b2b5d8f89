import Mathlib.Data.Option.Basic
import MessageSelector.Text.Scan

/-!
# Scans

A scan takes a part off the front of a text. Each lemma says what the text has to begin with for a
scan to succeed, and `bind_iff` puts the parts of scans that follow one another together.
-/

namespace MessageSelector.Text.Scan

variable {α β : Type} {text rest : List Char}

/-- Scans one after the other succeed when each of them does. -/
theorem bind_iff (scan : Scan α) (next : α → Scan β) (text : List Char) (result : β × List Char) :
    (scan >>= next) text = some result ↔
      ∃ part rest, scan text = some (part, rest) ∧ next part rest = some result := by
  change (scan text).bind (fun step => next step.1 step.2) = some result ↔ _
  rw [Option.bind_eq_some_iff, Prod.exists]

/-- A part that is there without reading leaves the text as it is. -/
theorem pure_iff (part : α) (text : List Char) (result : α × List Char) :
    (pure part : Scan α) text = some result ↔ result = (part, text) := by
  change some (part, text) = some result ↔ _
  rw [Option.some_inj, eq_comm]

/-- A condition leaves the text as it is. -/
theorem guard_iff (p : Prop) [Decidable p] (result : Unit × List Char) :
    (guard p : Scan Unit) text = some result ↔ p ∧ result = ((), text) := by
  by_cases h : p
  · rw [guard, if_pos h]
    exact (pure_iff _ _ _).trans (and_iff_right h).symm
  · rw [guard, if_neg h]
    exact ⟨nofun, fun hp => absurd hp.1 h⟩

/-- What is not read from the text leaves it as it is. -/
theorem lift_iff (found : Option α) (text : List Char) (result : α × List Char) :
    (liftM found : Scan α) text = some result ↔ found = some result.1 ∧ result.2 = text := by
  change (found.bind fun part => some (part, text)) = some result ↔ _
  rw [Option.bind_eq_some_iff]
  constructor
  · rintro ⟨part, rfl, ⟨⟩⟩
    exact ⟨rfl, rfl⟩
  · rintro ⟨rfl, rfl⟩
    exact ⟨_, rfl, rfl⟩

/-- One of the given characters has to stand in front. -/
theorem one_of_iff {expected : List Char} {c : Char} :
    oneOf expected text = some (c, rest) ↔ text = c :: rest ∧ c ∈ expected := by
  have hnext (result : Char × List Char) :
      next text = some result ↔ text = result.1 :: result.2 := by
    cases text with
    | nil => exact ⟨nofun, nofun⟩
    | cons first others => simp [next, Prod.ext_iff]
  simp only [oneOf, bind_iff, guard_iff, pure_iff, hnext, List.contains_iff_mem]
  constructor
  · rintro ⟨first, others, rfl, -, -, ⟨hmem, rfl, rfl⟩, rfl, rfl⟩
    exact ⟨rfl, hmem⟩
  · rintro ⟨rfl, hmem⟩
    exact ⟨c, rest, rfl, (), rest, ⟨hmem, rfl⟩, rfl⟩

/-- A given character has to stand in front. -/
theorem expect_iff {expected : Char} {result : Unit × List Char} :
    expect expected text = some result ↔ text = expected :: result.2 := by
  simp only [expect, bind_iff, one_of_iff, pure_iff, List.mem_singleton]
  constructor
  · rintro ⟨c, others, ⟨rfl, rfl⟩, rfl⟩
    rfl
  · intro htext
    exact ⟨expected, result.2, ⟨htext, rfl⟩, rfl⟩

end MessageSelector.Text.Scan
