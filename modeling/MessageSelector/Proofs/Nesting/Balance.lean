import MessageSelector.Proofs.Nesting.Lexemes
import MessageSelector.Proofs.Texts

/-!
# Phrases close what they open

The lexemes of a phrase leave open just the parentheses that they find open. In parentheses they
are therefore an operand like any other, whatever they are and wherever they stand.
-/

namespace MessageSelector.Nesting

namespace Depth

/-- The depth after lexemes one after the other. -/
def afterLexemes (depth : Depth) (lexemes : List Lexeme) : Depth :=
  lexemes.foldl afterLexeme depth

@[simp] theorem after_lexemes_nil (depth : Depth) : depth.afterLexemes [] = depth :=
  rfl

@[simp] theorem after_lexemes_cons (depth : Depth) (lexeme : Lexeme) (rest : List Lexeme) :
    depth.afterLexemes (lexeme :: rest) = (depth.afterLexeme lexeme).afterLexemes rest :=
  rfl

@[simp] theorem after_lexemes_append (depth : Depth) (ls ms : List Lexeme) :
    depth.afterLexemes (ls ++ ms) = (depth.afterLexemes ls).afterLexemes ms :=
  List.foldl_append

/-- Lexemes one after the other nest within the limit where each part does from its own depth. -/
theorem within_append (depth : Depth) (ls ms : List Lexeme) :
    depth.Within (ls ++ ms) ↔ depth.Within ls ∧ (depth.afterLexemes ls).Within ms := by
  induction ls generalizing depth with
  | nil => simp [Within]
  | cons lexeme ls ih => simp only [List.cons_append, Within, ih, after_lexemes_cons, and_assoc]

end Depth

/-- After the lexemes the same parentheses are open as before. -/
def Balanced (lexemes : List Lexeme) : Prop :=
  ∀ depth : Depth, (depth.afterLexemes lexemes).insideParens = depth.insideParens

/-- Nothing opens nothing. -/
@[simp] theorem balanced_nil : Balanced [] :=
  fun _ => rfl

/-- What closes what it opens does so one after the other. -/
theorem Balanced.append {ls ms : List Lexeme} (hls : Balanced ls) (hms : Balanced ms) :
    Balanced (ls ++ ms) := by
  intro depth
  rw [Depth.after_lexemes_append, hms, hls]

/-- Only parentheses open and close. -/
theorem inside_parens_after_lexeme {lexeme : Lexeme} (hleft : lexeme ≠ .leftParen)
    (hright : lexeme ≠ .rightParen) (depth : Depth) :
    (depth.afterLexeme lexeme).insideParens = depth.insideParens := by
  unfold Depth.afterLexeme
  split
  all_goals first
    | rfl
    | contradiction
    | skip
  all_goals
    unfold Depth.after
    dsimp only
    split <;> rfl

/-- A lexeme that is no parenthesis leaves the rest balanced. -/
theorem Balanced.cons {lexeme : Lexeme} {ls : List Lexeme} (hls : Balanced ls)
    (hparens : lexeme ≠ .leftParen ∧ lexeme ≠ .rightParen) : Balanced (lexeme :: ls) := by
  intro depth
  rw [Depth.after_lexemes_cons, hls, inside_parens_after_lexeme hparens.1 hparens.2]

/-- After balanced lexemes in parentheses an operand has ended, whatever was in front of it. -/
theorem Balanced.after_group {ls : List Lexeme} (h : Balanced ls) (depth : Depth) :
    depth.afterLexemes (.leftParen :: ls ++ [.rightParen]) = ⟨depth.insideParens, 0, true⟩ := by
  have hinner := h (depth.afterLexeme .leftParen)
  simp only [List.cons_append, Depth.after_lexemes_cons, Depth.after_lexemes_append,
    Depth.after_lexemes_nil]
  generalize (depth.afterLexeme .leftParen).afterLexemes ls = inside at hinner
  change (⟨inside.insideParens.tail, 0, true⟩ : Depth) = _
  rw [hinner]
  rfl

/-- Balanced lexemes in parentheses are balanced. -/
theorem Balanced.group {ls : List Lexeme} (h : Balanced ls) :
    Balanced (.leftParen :: ls ++ [.rightParen]) := by
  intro depth
  rw [h.after_group]

/-! ## Phrases -/

/-- A negation is balanced. -/
theorem balanced_of_negation {negated : Bool} {ns : List Token} (h : SpellsNegation negated ns) :
    Balanced (ns.map (·.lexeme)) := by
  cases h with
  | plain => exact balanced_nil
  | negated => exact balanced_nil.cons (by simp)

/-- Items of a list are balanced. -/
theorem balanced_of_items {items : List QuotedString} {is : List Token}
    (h : SpellsItems items is) : Balanced (is.map (·.lexeme)) := by
  induction h with
  | nil => exact balanced_nil
  | cons _ _ _ ih => exact (ih.cons (by simp)).cons (by simp)

/-- An escape clause is balanced. -/
theorem balanced_of_escape {escape : Option QuotedString} {es : List Token}
    (h : SpellsEscape escape es) : Balanced (es.map (·.lexeme)) := by
  cases h with
  | absent => exact balanced_nil
  | present => exact (balanced_nil.cons (by simp)).cons (by simp)

/-- A phrase closes what it opens, if no string in it is open. -/
theorem balanced_of_spells {phrase : Phrase} {tokens : List Token} (h : Spells phrase tokens)
    (hproper : AllProper tokens) : Balanced (tokens.map (·.lexeme)) := by
  induction h with
  | identifier | string | unclosedString | float | integer | boolean =>
      exact balanced_nil.cons (by simp)
  | group _ _ _ ih =>
      simp only [all_proper_append, all_proper_cons] at hproper
      rw [List.map_append, List.map_cons]
      exact (ih hproper.1.2).group
  | signed _ sign _ _ ih =>
      rw [all_proper_cons] at hproper
      exact (ih hproper.2).cons (by cases sign <;> simp [Sign.lexeme])
  | arithmetic op _ _ _ _ _ ihLeft ihRight =>
      simp only [all_proper_append, all_proper_cons] at hproper
      rw [List.map_append, List.map_cons]
      refine (ihLeft hproper.1).append ((ihRight hproper.2.2).cons ?_)
      cases op <;> simp [Arithmetic.lexeme]
  | comparison _ _ _ _ _ _ ihLeft ihRight | and _ _ _ _ _ ihLeft ihRight
  | or _ _ _ _ _ ihLeft ihRight =>
      simp only [all_proper_append, all_proper_cons] at hproper
      rw [List.map_append, List.map_cons]
      exact (ihLeft hproper.1).append ((ihRight hproper.2.2).cons (by simp))
  | between _ _ _ hnegation _ _ _ _ _ ih ihLow ihHigh =>
      simp only [all_proper_append, all_proper_cons] at hproper
      obtain ⟨⟨⟨hos, -⟩, -, hls⟩, -, hhs⟩ := hproper
      simp only [List.map_append, List.map_cons]
      exact (((ih hos).append (balanced_of_negation hnegation)).append
        ((ihLow hls).cons (by simp))).append ((ihHigh hhs).cons (by simp))
  | inList _ _ _ item _ hnegation hitems _ ih =>
      simp only [all_proper_append] at hproper
      have hinside : Balanced [item.token.lexeme] := balanced_nil.cons (by simp)
      have htest := @Balanced.cons (.keyword .inside) _
        ((balanced_of_items hitems).append hinside).group (by simp)
      have hwhole := ((ih hproper.1.1.1).append (balanced_of_negation hnegation)).append htest
      simpa using hwhole
  | like _ _ _ hnegation hescape _ ih =>
      simp only [all_proper_append] at hproper
      simp only [List.map_append, List.map_cons]
      exact ((ih hproper.1.1).append (balanced_of_negation hnegation)).append
        (((balanced_of_escape hescape).cons (by simp)).cons (by simp))
  | isNull _ _ _ hnegation _ ih =>
      simp only [all_proper_append] at hproper
      simp only [List.map_append, List.map_cons]
      exact ((ih hproper.1.1).append ((balanced_of_negation hnegation).cons (by simp))).append
        (balanced_nil.cons (by simp))
  | cutShort =>
      simp only [all_proper_append, all_proper_cons] at hproper
      exact absurd rfl hproper.2.1.2.1
  | not _ _ _ ih =>
      rw [all_proper_cons] at hproper
      exact (ih hproper.2).cons (by simp)

end MessageSelector.Nesting
