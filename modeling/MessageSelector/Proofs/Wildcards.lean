import Mathlib
import MessageSelector.Like

/-!
# What a pattern accepts

A pattern is read as a list of items, and it accepts a subject just if the subject comes apart into
one piece for each of them. `Reads` says how items are written and `Item.Covers` which pieces they
stand for; neither mentions an order of trying. Read `accepts_iff_pieces` for the result. It also
says that the regular expression of a pattern, as `Pattern.regular` writes it, is matched by the
same subjects.
-/

namespace MessageSelector.Like

/-! ## Reading a pattern -/

/-- How the items of a pattern are written. What stands behind an escape character is that
character itself, a wildcard or the escape character included. -/
inductive Reads (escape : Option Char) : List Char → List Item → Prop where
  | nil : Reads escape [] []
  | escaped {mark c rest items} :
      escape = some mark → Reads escape rest items →
      Reads escape (mark :: c :: rest) (.char c :: items)
  | run {rest items} :
      escape ≠ some '%' → Reads escape rest items → Reads escape ('%' :: rest) (.run :: items)
  | one {rest items} :
      escape ≠ some '_' → Reads escape rest items → Reads escape ('_' :: rest) (.one :: items)
  | char {c rest items} :
      escape ≠ some c → c ≠ '%' → c ≠ '_' → Reads escape rest items →
      Reads escape (c :: rest) (.char c :: items)

/-- A character that is no wildcard stands for itself. -/
theorem of_char_eq {c : Char} (hrun : c ≠ '%') (hone : c ≠ '_') : Item.ofChar c = .char c := by
  unfold Item.ofChar
  split
  · exact absurd rfl hrun
  · exact absurd rfl hone
  · rfl

/-- An escape character and what stands behind it are one item. -/
theorem items_escaped {escape : Option Char} {mark : Char} (h : escape = some mark) (c : Char)
    (rest : List Char) :
    items? escape (mark :: c :: rest) = (items? escape rest).map (Item.char c :: ·) :=
  if_pos h

/-- An escape character at the end has nothing to stand before. -/
theorem items_dangling {escape : Option Char} {mark : Char} (h : escape = some mark) :
    items? escape [mark] = none :=
  if_pos h

/-- Any other character is an item. -/
theorem items_plain {escape : Option Char} {c : Char} (h : escape ≠ some c) (rest : List Char) :
    items? escape (c :: rest) = (items? escape rest).map (Item.ofChar c :: ·) := by
  cases rest <;> exact if_neg h

/-- What is no escape character is read as the item it stands for. -/
theorem Reads.plain {escape : Option Char} {c : Char} {rest : List Char} {items : List Item}
    (hescape : escape ≠ some c) (h : Reads escape rest items) :
    Reads escape (c :: rest) (.ofChar c :: items) := by
  by_cases hrun : c = '%'
  · subst hrun
    exact .run hescape h
  · by_cases hone : c = '_'
    · subst hone
      exact .one hescape h
    · rw [of_char_eq hrun hone]
      exact .char hescape hrun hone h

/-- The items of a pattern are what it is read as. -/
theorem reads_of_items {escape : Option Char} {text : List Char} {items : List Item}
    (h : items? escape text = some items) : Reads escape text items := by
  -- An item takes one character or two, so the induction goes by two.
  induction text using List.twoStepInduction generalizing items with
  | nil =>
      cases h
      exact .nil
  | singleton c =>
      by_cases hescape : escape = some c
      · rw [items_dangling hescape] at h
        cases h
      · rw [items_plain hescape] at h
        cases h
        exact .plain hescape .nil
  | cons_cons c next rest ih ihNext =>
      by_cases hescape : escape = some c
      · rw [items_escaped hescape] at h
        obtain ⟨more, hmore, rfl⟩ := Option.map_eq_some_iff.mp h
        exact .escaped hescape (ih hmore)
      · rw [items_plain hescape] at h
        obtain ⟨more, hmore, rfl⟩ := Option.map_eq_some_iff.mp h
        exact .plain hescape (ihNext next hmore)

/-- A pattern has the items that it is read as, and no others. -/
theorem items_eq_some_iff (escape : Option Char) (text : List Char) (items : List Item) :
    items? escape text = some items ↔ Reads escape text items := by
  refine ⟨reads_of_items, fun h => ?_⟩
  induction h with
  | nil => rfl
  | escaped hescape _ ih => rw [items_escaped hescape, ih]; rfl
  | run hescape _ ih | one hescape _ ih => rw [items_plain hescape, ih]; rfl
  | char hescape hrun hone _ ih =>
      rw [items_plain hescape, ih, of_char_eq hrun hone]
      rfl

/-! ## Pieces of a subject -/

/-- The pieces of a subject that an item stands for. -/
def Item.Covers : Item → List Char → Prop
  | run, _ => True
  | one, piece => ∃ c, piece = [c]
  | char c, piece => piece = [c]

/-- The subject comes apart into consecutive pieces, one for each item. -/
def Fits (items : List Item) (subject : List Char) : Prop :=
  ∃ pieces, List.Forall₂ Item.Covers items pieces ∧ pieces.flatten = subject

/-- Without items there is nothing to match. -/
theorem fits_nil (subject : List Char) : Fits [] subject ↔ subject = [] := by
  simp [Fits, eq_comm]

/-- The first item stands for the front of the subject, and the others for the rest. -/
theorem fits_cons (item : Item) (items : List Item) (subject : List Char) :
    Fits (item :: items) subject ↔
      ∃ piece rest, item.Covers piece ∧ Fits items rest ∧ piece ++ rest = subject := by
  constructor
  · rintro ⟨_, hcovers, rfl⟩
    obtain ⟨piece, pieces, hpiece, hpieces, rfl⟩ := List.forall₂_cons_left_iff.mp hcovers
    exact ⟨piece, pieces.flatten, hpiece, ⟨pieces, hpieces, rfl⟩, rfl⟩
  · rintro ⟨piece, _, hpiece, ⟨pieces, hpieces, rfl⟩, rfl⟩
    exact ⟨piece :: pieces, .cons hpiece hpieces, rfl⟩

/-- An item that stands for single characters takes the first one. -/
theorem fits_single {item : Item} {accepts : Char → Bool}
    (h : ∀ piece, item.Covers piece ↔ ∃ c, accepts c = true ∧ piece = [c]) (items : List Item)
    (subject : List Char) :
    Fits (item :: items) subject ↔
      ∃ c rest, subject = c :: rest ∧ accepts c = true ∧ Fits items rest := by
  rw [fits_cons]
  constructor
  · rintro ⟨piece, rest, hpiece, hrest, rfl⟩
    obtain ⟨c, hc, rfl⟩ := (h piece).mp hpiece
    exact ⟨c, rest, rfl, hc, hrest⟩
  · rintro ⟨c, rest, rfl, hc, hrest⟩
    exact ⟨[c], rest, (h [c]).mpr ⟨c, hc, rfl⟩, hrest, rfl⟩

/-- A run takes nothing, or one more character. -/
theorem fits_run (items : List Item) (subject : List Char) :
    Fits (.run :: items) subject ↔
      Fits items subject ∨ ∃ c rest, subject = c :: rest ∧ Fits (.run :: items) rest := by
  simp only [fits_cons]
  constructor
  · rintro ⟨_ | ⟨c, piece⟩, rest, -, hrest, rfl⟩
    · exact .inl hrest
    · exact .inr ⟨c, piece ++ rest, rfl, piece, rest, trivial, hrest, rfl⟩
  · rintro (h | ⟨c, _, rfl, piece, rest, -, hrest, rfl⟩)
    · exact ⟨[], subject, trivial, h, rfl⟩
    · exact ⟨c :: piece, rest, trivial, hrest, rfl⟩

/-! ## Outcomes -/

/-- There is an outcome for every suffix of the subject, and the empty one is one of them. -/
theorem length_outcomes (subject : List Char) (items : List Item) :
    (outcomes subject items).length = subject.length + 1 := by
  have hlater (found : List Bool) : (anyLater found).length = found.length := by
    unfold anyLater
    induction found with
    | nil => rfl
    | cons outcome found ih => rw [List.foldr_cons, List.length_cons, ih, List.length_cons]
  induction items with
  | nil => simp [outcomes]
  | cons item items ih =>
      cases item with
      | run => rw [outcomes, hlater, ih]
      | one | char => simp [outcomes, afterOne, ih]

/-- The outcome for the whole subject, and then those for what is left of it. -/
theorem outcomes_cons (c : Char) (rest : List Char) (items : List Item) :
    ∃ outcome, outcomes (c :: rest) items = outcome :: outcomes rest items := by
  induction items with
  | nil => exact ⟨false, rfl⟩
  | cons item items ih =>
      obtain ⟨outcome, h⟩ := ih
      cases item with
      | run => exact ⟨_, by rw [outcomes, h]; rfl⟩
      | one | char =>
          obtain ⟨first, later, hlater⟩ :=
            List.exists_cons_of_length_eq_add_one (length_outcomes rest items)
          exact ⟨_, by rw [outcomes, h, outcomes, hlater]; rfl⟩

/-- A run matches if the other items match here or the whole matches one character later. -/
theorem front_run (subject : List Char) (items : List Item) :
    (outcomes subject (.run :: items)).headD false =
      ((outcomes subject items).headD false ||
        match subject with
        | [] => false
        | _ :: rest => (outcomes rest (.run :: items)).headD false) := by
  cases subject with
  | nil =>
      obtain ⟨outcome, hone⟩ := List.length_eq_one_iff.mp (length_outcomes [] items)
      simp [outcomes, hone, anyLater]
  | cons c rest =>
      obtain ⟨outcome, hcons⟩ := outcomes_cons c rest items
      rw [outcomes, hcons]
      rfl

/-- What stands for one character matches if it accepts the first one and the other items match
what is left. -/
theorem front_after_one (accepts : Char → Bool) (subject : List Char) (items : List Item) :
    (afterOne accepts subject (outcomes subject items)).headD false =
      match subject with
      | [] => false
      | c :: rest => accepts c && (outcomes rest items).headD false := by
  cases subject with
  | nil => rfl
  | cons c rest =>
      obtain ⟨outcome, hcons⟩ := outcomes_cons c rest items
      obtain ⟨first, later, hlater⟩ :=
        List.exists_cons_of_length_eq_add_one (length_outcomes rest items)
      rw [afterOne, hcons, List.tail_cons]
      simp only [hlater]
      rfl

/-- What stands for one character matches just if it takes the first one. -/
theorem front_single_iff {item : Item} {accepts : Char → Bool} {items : List Item}
    (hcovers : ∀ piece, item.Covers piece ↔ ∃ c, accepts c = true ∧ piece = [c])
    (ih : ∀ subject, (outcomes subject items).headD false = true ↔ Fits items subject)
    (subject : List Char) :
    (afterOne accepts subject (outcomes subject items)).headD false = true ↔
      Fits (item :: items) subject := by
  rw [front_after_one, fits_single hcovers]
  cases subject with
  | nil => simp
  | cons c rest =>
      rw [Bool.and_eq_true, ih]
      constructor
      · exact fun ⟨hc, h⟩ => ⟨c, rest, rfl, hc, h⟩
      · rintro ⟨_, _, ⟨⟩, hc, h⟩
        exact ⟨hc, h⟩

/-- The outcome for the whole subject tells whether it comes apart into pieces. -/
theorem front_iff_fits (items : List Item) (subject : List Char) :
    (outcomes subject items).headD false = true ↔ Fits items subject := by
  induction items generalizing subject with
  | nil =>
      rw [fits_nil]
      cases subject <;> simp [outcomes]
  | cons item items ih =>
      cases item with
      | run =>
          -- The run is followed through the subject, one character at a time.
          induction subject with
          | nil =>
              rw [front_run, fits_run items [], Bool.or_eq_true, ih]
              simp
          | cons c rest ihRest =>
              rw [front_run, fits_run items (c :: rest), Bool.or_eq_true, ih, ihRest]
              simp
      | one => exact front_single_iff (by simp [Item.Covers]) ih subject
      | char c => exact front_single_iff (by simp [Item.Covers]) ih subject

/-! ## Regular expressions -/

/-- The characters that mean something in a regular expression. -/
def operators : List Char :=
  ['\\', '.', '+', '*', '?', '(', ')', '|', '[', ']', '{', '}', '^', '$', '#', '&', '-', '~']

/-- The regular expression of an item. A character with a meaning of its own gets a backslash. -/
def Item.regular : Item → List Char
  | run => ['.', '*']
  | one => ['.']
  | char c => if c ∈ operators then ['\\', c] else [c]

/-- The regular expression of a pattern: between the anchors, `.` stands for newlines as well. -/
def Pattern.regular (pattern : Pattern) : String :=
  "^(?s:" ++ String.ofList (pattern.items.flatMap Item.regular) ++ ")$"

/-- What is matched by a sequence of literal characters, of `.` and of `.*`, when `.` stands for
newlines as well. -/
inductive Matches : List Char → List Char → Prop where
  | empty : Matches [] []
  | run {expression rest} (piece) :
      Matches expression rest → Matches ('.' :: '*' :: expression) (piece ++ rest)
  | one {expression rest} (c) : Matches expression rest → Matches ('.' :: expression) (c :: rest)
  | escaped {c expression rest} :
      c ∈ operators → Matches expression rest → Matches ('\\' :: c :: expression) (c :: rest)
  | literal {c expression rest} :
      c ∉ operators → Matches expression rest → Matches (c :: expression) (c :: rest)

/-- The whole of a subject is matched by what an expression has between its anchors. -/
def MatchedBy (expression subject : String) : Prop :=
  ∃ sequence, expression = "^(?s:" ++ String.ofList sequence ++ ")$" ∧
    Matches sequence subject.toList

/-- An operator matches nothing by itself. -/
theorem not_matches_star (expression subject : List Char) :
    ¬ Matches ('*' :: expression) subject := by
  intro h
  cases h with
  | literal hliteral _ => exact hliteral (by decide)

/-- A character without a meaning of its own matches itself. -/
theorem matches_literal {c : Char} {expression subject : List Char} (hc : c ∉ operators)
    (h : Matches (c :: expression) subject) :
    ∃ rest, subject = c :: rest ∧ Matches expression rest := by
  cases h with
  | run | one | escaped => exact absurd (by decide) hc
  | literal _ h => exact ⟨_, rfl, h⟩

/-- A dot that is not repeated matches one character. -/
theorem matches_dot {expression subject : List Char} (h : Matches ('.' :: expression) subject)
    (hstar : ∀ rest, expression ≠ '*' :: rest) :
    ∃ c rest, subject = c :: rest ∧ Matches expression rest := by
  cases h with
  | run piece h => exact absurd rfl (hstar _)
  | one c h => exact ⟨c, _, rfl, h⟩
  | literal hliteral _ => exact absurd (by decide) hliteral

/-- What an item begins with is never a repetition of the item before it. -/
theorem regular_ne_star (items : List Item) (rest : List Char) :
    items.flatMap Item.regular ≠ '*' :: rest := by
  cases items with
  | nil => simp
  | cons item items =>
      cases item with
      | run | one => simp [Item.regular]
      | char c =>
          by_cases hc : c ∈ operators
          · simp [Item.regular, hc]
          · have : c ≠ '*' := fun h => hc (h ▸ by decide)
            simp [Item.regular, hc, this]

/-- The expression of an item takes the pieces the item stands for off the subject. -/
theorem matches_cons (item : Item) (items : List Item) (subject : List Char) :
    Matches ((item :: items).flatMap Item.regular) subject ↔
      ∃ piece rest, item.Covers piece ∧ Matches (items.flatMap Item.regular) rest ∧
        piece ++ rest = subject := by
  rw [List.flatMap_cons]
  constructor
  · intro h
    cases item with
    | run =>
        cases h with
        | run piece h => exact ⟨piece, _, trivial, h, rfl⟩
        | one c h => exact absurd h (not_matches_star _ _)
        | literal hc h => exact absurd (by decide) hc
    | one =>
        obtain ⟨c, rest, rfl, hrest⟩ := matches_dot h (regular_ne_star items)
        exact ⟨[c], rest, ⟨c, rfl⟩, hrest, rfl⟩
    | char c =>
        by_cases hc : c ∈ operators
        · simp only [Item.regular, if_pos hc, List.cons_append, List.nil_append] at h
          cases h with
          | escaped _ h => exact ⟨[c], _, rfl, h, rfl⟩
          | literal hslash h => exact absurd (by decide) hslash
        · simp only [Item.regular, if_neg hc, List.cons_append, List.nil_append] at h
          obtain ⟨rest, rfl, hrest⟩ := matches_literal hc h
          exact ⟨[c], rest, rfl, hrest, rfl⟩
  · rintro ⟨piece, rest, hpiece, h, rfl⟩
    cases item with
    | run => exact .run piece h
    | one =>
        obtain ⟨c, rfl⟩ := hpiece
        exact .one c h
    | char c =>
        cases hpiece
        by_cases hc : c ∈ operators
        · simpa [Item.regular, hc] using .escaped hc h
        · simpa [Item.regular, hc] using .literal hc h

/-- The regular expression of the items matches what comes apart into pieces for them. -/
theorem matches_iff_fits (items : List Item) (subject : List Char) :
    Matches (items.flatMap Item.regular) subject ↔ Fits items subject := by
  induction items generalizing subject with
  | nil =>
      rw [fits_nil]
      constructor
      · intro h
        cases h
        rfl
      · rintro rfl
        exact .empty
  | cons item items ih => simp only [matches_cons, fits_cons, ih]

/-- The expression of a pattern has one sequence between its anchors, the one of its items. -/
theorem matched_by_regular_iff (pattern : Pattern) (subject : String) :
    MatchedBy pattern.regular subject ↔ Fits pattern.items subject.toList := by
  rw [← matches_iff_fits]
  constructor
  · rintro ⟨sequence, hsequence, h⟩
    have : pattern.items.flatMap Item.regular = sequence := by
      simpa [Pattern.regular, ← String.toList_inj] using hsequence
    rwa [this]
  · exact fun h => ⟨_, rfl, h⟩

/-! ## Patterns -/

/-- A pattern that is not refused has the text and the escape character that it was given. -/
theorem of_text_ok {text : String} {escape : Option Char} {pattern : Pattern}
    (h : Pattern.ofText text (escape.map String.singleton) = .ok pattern) :
    pattern.text = text ∧ pattern.escape = escape := by
  have hescape : escapeChar? (escape.map String.singleton) = .ok escape := by
    cases escape <;> simp [escapeChar?]
  simp only [Pattern.ofText, hescape, bind, Except.bind] at h
  split at h
  · cases h
    exact ⟨rfl, rfl⟩
  · cases h

/-- A pattern is read as its items and as nothing else. -/
theorem reads_iff_items (pattern : Pattern) (items : List Item) :
    Reads pattern.escape pattern.text.toList items ↔ items = pattern.items := by
  rw [← items_eq_some_iff, ← Option.some_get pattern.complete, Option.some_inj, eq_comm]
  rfl

/-- What `LIKE` accepts. A pattern is read as items in exactly one way, and it accepts a subject
just if the whole subject comes apart into consecutive pieces, one for each item. Its regular
expression is matched by the same subjects. -/
theorem accepts_iff_pieces {text : String} {escape : Option Char} {pattern : Pattern}
    (h : Pattern.ofText text (escape.map String.singleton) = .ok pattern) :
    ∃ items, (∀ other, Reads escape text.toList other ↔ other = items) ∧
      ∀ subject : String,
        (pattern.accepts subject = true ↔
          ∃ pieces, List.Forall₂ Item.Covers items pieces ∧ pieces.flatten = subject.toList) ∧
        (MatchedBy pattern.regular subject ↔ pattern.accepts subject = true) := by
  obtain ⟨rfl, rfl⟩ := of_text_ok h
  refine ⟨pattern.items, reads_iff_items pattern, fun subject => ?_⟩
  have haccepts := front_iff_fits pattern.items subject.toList
  exact ⟨haccepts, (matched_by_regular_iff pattern subject).trans haccepts.symm⟩

/-- With `!` as its escape character, `a!%_%` accepts a percent sign behind the `a` and then a
newline, but no other character in place of the percent sign. -/
theorem accepts_newline_behind_percent :
    ∃ pattern, Pattern.ofText "a!%_%" (Option.map String.singleton (some '!')) = .ok pattern ∧
      MatchedBy pattern.regular "a%\n%" ∧ ¬ MatchedBy pattern.regular "ab\n%" := by
  have hpattern : Pattern.ofText "a!%_%" (Option.map String.singleton (some '!')) =
      .ok ⟨"a!%_%", some '!', by decide⟩ := rfl
  obtain ⟨_, _, h⟩ := accepts_iff_pieces hpattern
  exact ⟨_, hpattern, (h "a%\n%").2.mpr (by decide),
    fun hmatched => absurd ((h "ab\n%").2.mp hmatched) (by decide)⟩

end MessageSelector.Like
