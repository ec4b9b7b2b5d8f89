import MessageSelector.Proofs.Lexical.Cuts

/-!
# Spacing

In a well-spaced text every lexeme has a separator behind it, unless it is one that nothing goes on
with, such as a sign or an opening parenthesis. `Laid` is a cut with that spacing. A parenthesis may
be deleted from a well-spaced text: what was on its two sides does not run together, and the other
lexemes stay what they are. Read `Laid.without` for that.
-/

namespace MessageSelector

open Lexeme (Written Ends)

/-- What may stand after a lexeme in a well-spaced text: its end, a space, or what closes a list or
goes on with it. -/
def Separates : List Char → Prop
  | [] => True
  | c :: _ => c = ' ' ∨ c = ')' ∨ c = ','

/-- A space separates. -/
theorem separates_space (rest : List Char) : Separates (' ' :: rest) :=
  Or.inl rfl

/-- A closing parenthesis separates. -/
theorem separates_close (rest : List Char) : Separates (')' :: rest) :=
  Or.inr (Or.inl rfl)

/-- A comma separates. -/
theorem separates_comma (rest : List Char) : Separates (',' :: rest) :=
  Or.inr (Or.inr rfl)

/-- An opening parenthesis does not separate. -/
theorem not_separates_open (rest : List Char) : ¬ Separates ('(' :: rest) := by
  simp [Separates]

/-- Every lexeme ends in front of a separator. -/
theorem Separates.breaks {rest : List Char} (h : Separates rest) : Breaks rest := by
  cases rest with
  | nil => trivial
  | cons c rest => rcases h with rfl | rfl | rfl <;> simp [Breaks, isLayout]

/-- The lexemes that stand directly in front of what follows them. -/
def Lexeme.Clings (lexeme : Lexeme) : Prop :=
  lexeme = plus ∨ lexeme = minus ∨ lexeme = leftParen

/-- Nothing goes on with a lexeme that clings. -/
theorem Lexeme.Clings.ends {lexeme : Lexeme} (h : lexeme.Clings) (rest : List Char) :
    Ends lexeme rest := by
  rcases h with rfl | rfl | rfl <;> cases rest <;> rfl

/-- In front of `back` the text consists of the lexemes, with spaces between them wherever they do
not cling and no parenthesis or comma follows. -/
inductive Laid : List Char → List Lexeme → List Char → Prop where
  | nil (back) : Laid [] [] back
  | space {front lexemes back} : Laid front lexemes back → Laid (' ' :: front) lexemes back
  | lexeme {lexeme source front lexemes back} :
      Written lexeme source → lexeme.Clings ∨ Separates (front ++ back) →
      Laid front lexemes back → Laid (source ++ front) (lexeme :: lexemes) back

variable {front middle before after back : List Char} {ls ms : List Lexeme} {lexeme : Lexeme}

/-- A well-spaced lexeme ends. -/
theorem ends_of_spaced (h : lexeme.Clings ∨ Separates back) : Ends lexeme back :=
  h.elim (fun hclings => hclings.ends back) fun hseparates => hseparates.breaks.ends lexeme

/-- A well-spaced text is cut into its lexemes. -/
theorem Laid.cut (h : Laid front ls back) : Cut front ls back := by
  induction h with
  | nil => exact .nil _
  | space _ ih => exact .layout rfl ih
  | lexeme hwritten hspaced _ ih => exact .lexeme hwritten (ends_of_spaced hspaced) ih

/-- Well-spaced texts one after the other are well spaced. -/
theorem Laid.append (h : Laid front ls (middle ++ back)) (hmiddle : Laid middle ms back) :
    Laid (front ++ middle) (ls ++ ms) back := by
  generalize hbehind : middle ++ back = behind at h
  induction h with
  | nil => exact hmiddle
  | space _ ih => exact .space (ih hbehind)
  | lexeme hwritten hspaced _ ih =>
      rw [List.append_assoc, List.cons_append]
      refine .lexeme hwritten ?_ (ih hbehind)
      rwa [List.append_assoc, hbehind]

/-- A well-spaced text stays so in front of another text if that separates where the first did. -/
theorem Laid.followed (h : Laid front ls back) {behind : List Char}
    (hbehind : Separates back → Separates behind) : Laid front ls behind := by
  induction h with
  | nil => exact .nil behind
  | space _ ih => exact .space (ih hbehind)
  | @lexeme lexeme source front ls back hwritten hspaced _ ih =>
      refine .lexeme hwritten (hspaced.imp_right fun hseparates => ?_) (ih hbehind)
      cases front with
      | nil => exact hbehind hseparates
      | cons c front => exact hseparates

/-! ## Taking a well-spaced text apart -/

/-- All layout of a well-spaced text is spaces. -/
theorem Laid.of_layout {c : Char} (h : Laid (c :: front) ls back) (hlayout : isLayout c = true) :
    c = ' ' ∧ Laid front ls back := by
  generalize htext : c :: front = text at h
  cases h with
  | nil => cases htext
  | space hfront =>
      cases htext
      exact ⟨rfl, hfront⟩
  | @lexeme _ source _ _ _ hwritten hspaced _ =>
      obtain ⟨d, source, rfl⟩ := List.exists_cons_of_ne_nil hwritten.ne_nil
      cases htext
      rw [(hwritten.at_front (ends_of_spaced hspaced)).1] at hlayout
      cases hlayout

/-- A lexeme at the front of a well-spaced text is the first one of it. -/
theorem Laid.of_written {source : List Char} (h : Laid (source ++ front) ls back)
    (hwritten : Written lexeme source) (hends : Ends lexeme (front ++ back)) :
    ∃ rest, ls = lexeme :: rest ∧ (lexeme.Clings ∨ Separates (front ++ back)) ∧
      Laid front rest back := by
  obtain ⟨c, source, rfl⟩ := List.exists_cons_of_ne_nil hwritten.ne_nil
  obtain ⟨hlayout, hfront⟩ := hwritten.at_front hends
  generalize htext : c :: source ++ front = text at h
  cases h with
  | nil => cases htext
  | space =>
      cases htext
      cases hlayout
  | @lexeme other otherSource otherFront rest _ hother hspaced hrest =>
      obtain ⟨d, otherSource, rfl⟩ := List.exists_cons_of_ne_nil hother.ne_nil
      rw [List.cons_append, List.cons_append, List.cons.injEq] at htext
      obtain ⟨rfl, hrests⟩ := htext
      -- Scanning finds one lexeme at the front of the text, so the two are the same.
      have hfound := (hother.at_front (ends_of_spaced hspaced)).2
      rw [← List.append_assoc, ← hrests, List.append_assoc, hfront] at hfound
      obtain ⟨rfl, hlength⟩ := Prod.mk.inj hfound
      obtain ⟨-, rfl⟩ := List.append_inj hrests hlength
      exact ⟨rest, rfl, hspaced, hrest⟩

/-- A well-spaced text comes apart wherever it may be cut. -/
theorem Laid.split (h : Laid (before ++ after) ls back) (hcut : Cut before ms (after ++ back)) :
    ∃ rest, ls = ms ++ rest ∧ Laid before ms (after ++ back) ∧ Laid after rest back := by
  generalize hbehind : after ++ back = behind at hcut
  induction hcut generalizing ls with
  | nil => exact ⟨ls, rfl, .nil _, h⟩
  | layout hc _ ih =>
      obtain ⟨rfl, hfront⟩ := h.of_layout hc
      obtain ⟨rest, rfl, hbefore, hafter⟩ := ih hfront hbehind
      exact ⟨rest, rfl, .space hbefore, hafter⟩
  | @lexeme lexeme source front ms _ hwritten hends _ ih =>
      subst hbehind
      rw [List.append_assoc] at h
      obtain ⟨rest, rfl, hspaced, hfront⟩ := h.of_written hwritten (by rwa [List.append_assoc])
      obtain ⟨rest, rfl, hbefore, hafter⟩ := ih hfront rfl
      rw [List.append_assoc] at hspaced
      exact ⟨rest, rfl, .lexeme hwritten hspaced hbefore, hafter⟩

/-- Without one of its parentheses a text is still well spaced, and has the other lexemes. -/
theorem Laid.without {c : Char}
    (hparen : lexeme = .leftParen ∧ c = '(' ∨ lexeme = .rightParen ∧ c = ')')
    (h : Laid (before ++ c :: after) ls []) (hcut : Cut before ms (c :: after)) :
    ∃ rest, ls = ms ++ lexeme :: rest ∧ Laid (before ++ after) (ms ++ rest) [] := by
  obtain ⟨rest, rfl, hbefore, hafter⟩ := h.split (by rwa [List.append_nil])
  change Laid ([c] ++ after) rest [] at hafter
  rcases hparen with ⟨rfl, rfl⟩ | ⟨rfl, rfl⟩
  · have hclings : Lexeme.Clings .leftParen := .inr (.inr rfl)
    obtain ⟨rest, rfl, -, hafter⟩ := hafter.of_written .leftParen (hclings.ends _)
    -- What stands directly in front of an opening parenthesis clings.
    refine ⟨rest, rfl, (hbefore.followed fun hseparates => ?_).append hafter⟩
    exact absurd hseparates (not_separates_open _)
  · have hends : Ends .rightParen (after ++ []) := by cases after <;> rfl
    obtain ⟨rest, rfl, hspaced, hafter⟩ := hafter.of_written .rightParen hends
    -- What stands in front of a closing parenthesis is separated from what stands behind it.
    refine ⟨rest, rfl, (hbefore.followed fun _ => ?_).append hafter⟩
    exact hspaced.resolve_left (by simp [Lexeme.Clings])

end MessageSelector
