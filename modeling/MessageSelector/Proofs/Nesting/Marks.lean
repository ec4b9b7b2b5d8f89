import MessageSelector.Nesting

/-!
# The depth of a text, mark by mark

A text nests within the limit from a depth on if its first mark does, and what that mark leaves does
from the depth after it.
-/

namespace MessageSelector.Nesting

/-- From a depth on, the text nests within the limit. -/
def WithinText (depth : Depth) (text : List Char) : Prop :=
  tooDeepFrom depth 0 0 text = none

/-- Where a text begins does not matter to its depth, and characters skipped are as good as
dropped. -/
theorem too_deep_from_none_iff (depth : Depth) (position skip : Nat) (text : List Char) :
    tooDeepFrom depth position skip text = none ↔ WithinText depth (text.drop skip) := by
  have hplace (depth : Depth) (position other skip : Nat) (text : List Char) :
      tooDeepFrom depth position skip text = none ↔
        tooDeepFrom depth other 0 (text.drop skip) = none := by
    induction text generalizing depth position other skip with
    | nil => simp [tooDeepFrom]
    | cons c rest ih =>
        cases skip with
        | succ skip => simpa only [tooDeepFrom, List.drop_succ_cons] using ih depth _ other skip
        | zero =>
            simp only [List.drop_zero, tooDeepFrom]
            split
            · simp
            · exact (ih _ _ 0 _).trans (ih _ _ 0 _).symm
  exact hplace depth position 0 skip text

/-- A text ends within the limit. -/
theorem within_text_nil (depth : Depth) : WithinText depth [] :=
  rfl

/-- The first mark of a text, and then what it leaves. -/
theorem within_text_cons (depth : Depth) (c : Char) (rest : List Char) :
    WithinText depth (c :: rest) ↔ (depth.after (Mark.atFront c rest).1).levels ≤ limit ∧
      WithinText (depth.after (Mark.atFront c rest).1) (rest.drop (Mark.atFront c rest).2) := by
  unfold WithinText
  simp only [tooDeepFrom]
  split
  · next hdeep => simp; omega
  · next hdeep =>
      rw [too_deep_from_none_iff]
      exact ⟨fun h => ⟨Nat.le_of_not_lt hdeep, h⟩, fun h => h.2⟩

/-- The mark of a word takes the characters that go on as marks of words do. -/
theorem mark_at_front_word {first : Char} {following rest : List Char}
    (hfirst : isWordMark first = true) (hfollowing : following.all isWordMark = true)
    (hrest : rest.head?.any isWordMark = false) :
    Mark.atFront first (following ++ rest) =
      (.word (String.ofList (first :: following)), following.length) := by
  have htake : (following ++ rest).takeWhile isWordMark = following := by
    rw [List.takeWhile_append_of_pos (List.all_eq_true.mp hfollowing)]
    cases rest with
    | nil => simp
    | cons c rest =>
        have hc : isWordMark c = false := by simpa using hrest
        simp [hc]
  have hne {other : Char} (hother : isWordMark other = false) : first ≠ other := by
    rintro rfl
    rw [hfirst] at hother
    cases hother
  unfold Mark.atFront
  rw [if_neg (hne (by decide)), if_neg (hne (by decide)), if_neg (hne (by decide)),
    if_neg (by simp [hne (show isWordMark '+' = false by decide),
      hne (show isWordMark '-' = false by decide)]), if_pos hfirst]
  simp only [htake]

end MessageSelector.Nesting
