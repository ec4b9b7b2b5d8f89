import MessageSelector.Proofs.Grammar.Completeness
import MessageSelector.Proofs.Lexical.Cuts
import MessageSelector.Proofs.Standing
import MessageSelector.Proofs.WellFormed

/-!
# What a text says

A text says an expression where its tokens spell a phrase that means it. `parse_ok_iff` is the use
of that: a text is accepted with an expression just if it says the expression and nests within the
limit. What a text says is said by every text of like lexemes, `Spells.said`.
-/

namespace MessageSelector

open MessageSelector.Expr (Binding)

/-! ## Texts -/

/-- The tokens of the text spell a phrase that means the expression. -/
def Says (text : List Char) (e : Expr) : Prop :=
  ∃ phrase tokens stop, Token.scan text = tokens ++ [⟨.endOfText, stop⟩] ∧ Spells phrase tokens ∧
    phrase.meaning text = .ok e

/-- A text that says an expression has it, unless it nests too deep. -/
theorem Says.of_chars {text : List Char} {e : Expr} (h : Says text e)
    (hnesting : Nesting.tooDeep? text = none) : Expr.ofChars text = .ok (some e) := by
  obtain ⟨phrase, tokens, stop, htokens, hspells, hmeaning⟩ := h
  unfold Expr.ofChars
  rw [hnesting, htokens, Phrase.of_tokens_complete hspells stop]
  dsimp only
  rw [hmeaning]
  rfl

/-- A text is accepted with an expression just if it says it and nests within the limit. -/
theorem Expr.parse_ok_iff (text : String) (e : Expr) :
    parse text = .ok (some e) ↔ Nesting.tooDeep? text.toList = none ∧ Says text.toList e := by
  constructor
  · intro h
    exact of_chars_ok (of_parse_ok h)
  · rintro ⟨hnesting, hsaid⟩
    exact (parse_eq_ok_iff _ _).mpr (hsaid.of_chars hnesting)

/-! ## Lexemes -/

/-- Each of the tokens is written out. -/
def AllProper (tokens : List Token) : Prop :=
  ∀ token ∈ tokens, token.lexeme.IsProper

@[simp] theorem all_proper_nil : AllProper [] :=
  nofun

@[simp] theorem all_proper_cons (token : Token) (tokens : List Token) :
    AllProper (token :: tokens) ↔ token.lexeme.IsProper ∧ AllProper tokens :=
  List.forall_mem_cons

@[simp] theorem all_proper_append (before after : List Token) :
    AllProper (before ++ after) ↔ AllProper before ∧ AllProper after :=
  List.forall_mem_append

/-- A negation is written out. -/
theorem all_proper_of_negation {negated : Bool} {ns : List Token}
    (h : SpellsNegation negated ns) : AllProper ns := by
  cases h <;> simp [Lexeme.IsProper]

/-- Items of a list are written out. -/
theorem all_proper_of_items {items : List QuotedString} {is : List Token}
    (h : SpellsItems items is) : AllProper is := by
  induction h with
  | nil => simp
  | cons _ _ _ ih => simp [ih, Lexeme.IsProper]

/-- The tokens of a phrase that has a meaning are written out: no string among them is open. -/
theorem Spells.all_proper {text : List Char} {phrase : Phrase} {tokens : List Token} {e : Expr}
    (h : Spells phrase tokens) (hmeaning : phrase.meaning text = .ok e) : AllProper tokens := by
  induction h generalizing e with
  | identifier | string | float | integer | boolean => simp [Lexeme.IsProper]
  | unclosedString => cases hmeaning
  | cutShort => exact absurd hmeaning (Phrase.meaning_cut_short _ _ _ e)
  | group _ _ _ ih => simp [ih hmeaning, Lexeme.IsProper]
  | signed mark sign hspells _ ih =>
      obtain ⟨inner, hinner, -⟩ | ⟨_, _, rfl, rfl, -⟩ := Phrase.meaning_signed_ok hmeaning
      · cases sign <;> simp [ih hinner, Sign.lexeme, Lexeme.IsProper]
      · cases hspells
        simp [Sign.lexeme, Lexeme.IsProper]
  | arithmetic op _ _ _ _ _ ihLeft ihRight =>
      rw [Phrase.meaning] at hmeaning
      simp only [bind_ok_iff] at hmeaning
      obtain ⟨left, hleft, right, hright, -⟩ := hmeaning
      cases op <;> simp [ihLeft hleft, ihRight hright, Arithmetic.lexeme, Lexeme.IsProper]
  | comparison _ _ _ _ _ _ ihLeft ihRight | and _ _ _ _ _ ihLeft ihRight
  | or _ _ _ _ _ ihLeft ihRight =>
      rw [Phrase.meaning] at hmeaning
      simp only [bind_ok_iff] at hmeaning
      obtain ⟨left, hleft, right, hright, -⟩ := hmeaning
      simp [ihLeft hleft, ihRight hright, Lexeme.IsProper]
  | between _ _ _ hnegation _ _ _ _ _ ih ihLow ihHigh =>
      rw [Phrase.meaning] at hmeaning
      simp only [bind_ok_iff] at hmeaning
      obtain ⟨operand, hoperand, low, hlow, high, hhigh, -⟩ := hmeaning
      simp [ih hoperand, ihLow hlow, ihHigh hhigh, all_proper_of_negation hnegation,
        Lexeme.IsProper]
  | inList _ _ _ _ _ hnegation hitems _ ih =>
      rw [Phrase.meaning, bind_ok_iff] at hmeaning
      obtain ⟨operand, hoperand, -⟩ := hmeaning
      simp [ih hoperand, all_proper_of_negation hnegation, all_proper_of_items hitems,
        Lexeme.IsProper]
  | like _ _ _ hnegation hescape _ ih =>
      rw [Phrase.meaning, bind_ok_iff] at hmeaning
      obtain ⟨operand, hoperand, -⟩ := hmeaning
      cases hescape <;> simp [ih hoperand, all_proper_of_negation hnegation, Lexeme.IsProper]
  | isNull _ _ _ hnegation _ ih =>
      rw [Phrase.meaning, bind_ok_iff] at hmeaning
      obtain ⟨operand, hoperand, -⟩ := hmeaning
      simp [ih hoperand, all_proper_of_negation hnegation, Lexeme.IsProper]
  | not _ _ _ ih =>
      rw [Phrase.meaning, bind_ok_iff] at hmeaning
      obtain ⟨operand, hoperand, -⟩ := hmeaning
      simp [ih hoperand, Lexeme.IsProper]

/-- What a phrase means is said by any text that is cut into lexemes like those of the phrase. -/
theorem Spells.said {text other : List Char} {phrase : Phrase} {tokens : List Token}
    {ls : List Lexeme} {e : Expr} (h : Spells phrase tokens)
    (hmeaning : phrase.meaning text = .ok e) (hcut : Cut other ls [])
    (halike : List.Forall₂ Lexeme.Alike (tokens.map (·.lexeme)) ls) : Says other e := by
  obtain ⟨others, stop, htokens, rfl⟩ := hcut.scanned
  rw [List.forall₂_map_left_iff, List.forall₂_map_right_iff] at halike
  obtain ⟨phrase', hspells, hstands⟩ := h.relocated text other others halike
  exact ⟨phrase', others, stop, htokens, hspells, hstands.meaning hmeaning⟩

/-- Wherever the lexemes stand, they spell a phrase that binds at least so tightly and means the
expression. -/
def Denotes (ls : List Lexeme) (binding : Binding) (e : Expr) : Prop :=
  ∀ text tokens, tokens.map (·.lexeme) = ls →
    ∃ phrase, Spells phrase tokens ∧ phrase.meaning text = .ok e ∧
      binding.rank ≤ phrase.binding.rank

/-- Tokens of the same lexemes are like one another. -/
theorem alike_of_lexemes {tokens others : List Token}
    (h : others.map (·.lexeme) = tokens.map (·.lexeme)) : AlikeTokens tokens others := by
  have heq : List.Forall₂ (fun lexeme other : Lexeme => lexeme = other)
      (tokens.map (·.lexeme)) (others.map (·.lexeme)) := by
    rw [List.forall₂_eq_eq_eq, h]
  rw [List.forall₂_map_left_iff, List.forall₂_map_right_iff] at heq
  refine heq.imp fun token other hsame => ?_
  rw [hsame]
  exact .same _

/-- The lexemes of a phrase denote what it means. -/
theorem Spells.denotes {text : List Char} {phrase : Phrase} {tokens : List Token} {e : Expr}
    (h : Spells phrase tokens) (hmeaning : phrase.meaning text = .ok e) :
    Denotes (tokens.map (·.lexeme)) phrase.binding e := by
  intro other others hothers
  obtain ⟨phrase', hspells, hstands⟩ := h.relocated text other others (alike_of_lexemes hothers)
  exact ⟨phrase', hspells, hstands.meaning hmeaning, hstands.rank_le⟩

/-- The tokens of a text that is cut into lexemes spell a phrase that means what these denote. -/
theorem Denotes.scanned {text : List Char} {ls : List Lexeme} {binding : Binding} {e : Expr}
    (h : Denotes ls binding e) (hcut : Cut text ls []) :
    ∃ phrase tokens stop, Token.scan text = tokens ++ [⟨.endOfText, stop⟩] ∧
      tokens.map (·.lexeme) = ls ∧ Spells phrase tokens ∧ phrase.meaning text = .ok e := by
  obtain ⟨tokens, stop, htokens, hls⟩ := hcut.scanned
  obtain ⟨phrase, hspells, hmeaning, -⟩ := h text tokens hls
  exact ⟨phrase, tokens, stop, htokens, hls, hspells, hmeaning⟩

/-- A text that is cut into lexemes says what they denote. -/
theorem Denotes.said {text : List Char} {ls : List Lexeme} {binding : Binding} {e : Expr}
    (h : Denotes ls binding e) (hcut : Cut text ls []) : Says text e := by
  obtain ⟨phrase, tokens, stop, htokens, -, hspells, hmeaning⟩ := h.scanned hcut
  exact ⟨phrase, tokens, stop, htokens, hspells, hmeaning⟩

end MessageSelector
