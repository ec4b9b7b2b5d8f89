import Mathlib.Data.List.Forall2
import MessageSelector.Proofs.Lexical.Letters
import MessageSelector.Proofs.Meanings

/-!
# Phrases that stand for one another

A phrase stands for another where it binds at least as tightly and means the same. That is kept by
every rule of the grammar, so tokens of the same lexemes elsewhere in a text spell a phrase that
stands for the first: `Spells.relocated`.
-/

namespace MessageSelector

namespace Phrase

open MessageSelector.Expr (Binding)

/-! ## Standing for a phrase -/

/-- A phrase under a sign means what the sign makes of its meaning, an integer literal too. -/
theorem meaning_signed_of_ok {text : List Char} {operand : Phrase} {e : Expr}
    (h : operand.meaning text = .ok e) (mark : Span) (sign : Sign) :
    (signed mark sign operand).meaning text = .ok (e.withSign sign) := by
  by_cases hinteger : ∃ span literal, sign = .minus ∧ operand = .integer span literal
  · obtain ⟨span, literal, rfl, rfl⟩ := hinteger
    rw [meaning, integer_meaning_ok_iff] at h
    obtain ⟨number, hnumber, rfl⟩ := h
    -- A literal without a sign is not negative, so its opposite fits.
    cases hneg : Integer.narrow (-number.toInt) with
    | none =>
        have hlt := number.toInt_lt
        rw [Integer.narrow_eq_none_iff] at hneg
        omega
    | some opposite =>
        have hsigned : (Value.integer number).signed? .minus = some (.integer opposite) := by
          simp [Value.signed?, Value.negate?, hneg]
        rw [Expr.with_sign_of_some hsigned, meaning, integerMeaning, ← hnumber, hneg]
  · rw [meaning, h]
    · rfl
    · intro span literal hsign hoperand
      exact hinteger ⟨span, literal, hsign, hoperand⟩

/-- In another text the second phrase stands for the first: it binds at least as tightly and means
what the first means, by itself and under a sign. -/
structure Stands (text other : List Char) (phrase phrase' : Phrase) : Prop where
  rank_le : phrase.binding.rank ≤ phrase'.binding.rank
  meaning {e : Expr} : phrase.meaning text = .ok e → phrase'.meaning other = .ok e
  signed {mark mark' : Span} {sign : Sign} {e : Expr} :
    (Phrase.signed mark sign phrase).meaning text = .ok e →
      (Phrase.signed mark' sign phrase').meaning other = .ok e

variable {text other : List Char} {a b a' b' c c' : Phrase}

/-- What is no integer literal is stood for by whatever means the same. -/
theorem Stands.of_meaning (hinteger : ∀ span literal, a ≠ .integer span literal)
    (hrank : a.binding.rank ≤ b.binding.rank)
    (h : ∀ e, a.meaning text = .ok e → b.meaning other = .ok e) : Stands text other a b where
  rank_le := hrank
  meaning := h _
  signed {mark mark' sign e} hsigned := by
    rcases meaning_signed_ok hsigned with ⟨inner, hinner, rfl⟩ | ⟨span, literal, -, rfl, -⟩
    · exact meaning_signed_of_ok (h inner hinner) mark' sign
    · exact absurd rfl (hinteger span literal)

/-- A phrase that has a meaning is stood for by whatever means the same. -/
theorem stands_of_ok {e : Expr} (ha : a.meaning text = .ok e) (hb : b.meaning other = .ok e)
    (hrank : a.binding.rank ≤ b.binding.rank) : Stands text other a b where
  rank_le := hrank
  meaning := by
    intro e' h
    rw [ha] at h
    cases h
    exact hb
  signed {mark mark' sign e'} h := by
    rw [meaning_signed_of_ok ha mark sign] at h
    cases h
    exact meaning_signed_of_ok hb mark' sign

/-- An integer literal is stood for by one of the same value. -/
theorem stands_integer {literal literal' : String}
    (h : Token.integerValue literal = Token.integerValue literal') (span span' : Span) :
    Stands text other (.integer span literal) (.integer span' literal') where
  rank_le := Nat.le_refl _
  meaning {e} hmeaning := by
    rw [Phrase.meaning, integer_meaning_ok_iff] at hmeaning ⊢
    rw [← h]
    exact hmeaning
  signed {mark mark' sign e} hsigned := by
    cases sign with
    | plus =>
        rcases meaning_signed_ok hsigned with ⟨inner, hinner, rfl⟩ | ⟨_, _, hsign, -, -⟩
        · refine meaning_signed_of_ok ?_ mark' .plus
          rw [Phrase.meaning, integer_meaning_ok_iff] at hinner ⊢
          rw [← h]
          exact hinner
        · cases hsign
    | minus =>
        rw [Phrase.meaning, integer_meaning_ok_iff] at hsigned ⊢
        rw [← h]
        exact hsigned

/-- A phrase stands for itself. -/
theorem Stands.refl (text : List Char) (a : Phrase) : Stands text text a a := by
  by_cases hinteger : ∃ span literal, a = .integer span literal
  · obtain ⟨span, literal, rfl⟩ := hinteger
    exact stands_integer rfl span span
  · exact Stands.of_meaning (fun span literal h => hinteger ⟨span, literal, h⟩) (Nat.le_refl _)
      fun _ h => h

/-! ## What stands for a whole -/

/-- Where the operand is stood for, so is the phrase in parentheses. -/
theorem Stands.group (h : Stands text other a a') (leftParen rightParen leftParen' rightParen') :
    Stands text other (.group leftParen a rightParen) (.group leftParen' a' rightParen') :=
  Stands.of_meaning (fun _ _ => nofun) (Nat.le_refl _) fun _ => h.meaning

/-- Where the operand is stood for, so is the phrase under a sign. -/
theorem Stands.under_sign (h : Stands text other a a') (mark mark' : Span) (sign : Sign) :
    Stands text other (.signed mark sign a) (.signed mark' sign a') :=
  Stands.of_meaning (fun _ _ => nofun) (Nat.le_refl _) fun _ => h.signed

/-- Where both operands are stood for, so is a phrase that is made of them by their meanings. -/
theorem stands_of_two {whole whole' : Phrase} {make : Expr → Expr → Expr}
    (ha : Stands text other a a') (hb : Stands text other b b')
    (hinteger : ∀ span literal, whole ≠ .integer span literal)
    (hrank : whole.binding.rank ≤ whole'.binding.rank)
    (hmeaning : whole.meaning text = (do return make (← a.meaning text) (← b.meaning text)))
    (hmeaning' :
      whole'.meaning other = (do return make (← a'.meaning other) (← b'.meaning other))) :
    Stands text other whole whole' := by
  refine Stands.of_meaning hinteger hrank fun e h => ?_
  rw [hmeaning, bind_ok_iff] at h
  obtain ⟨left, hleft, h⟩ := h
  rw [bind_ok_iff] at h
  obtain ⟨right, hright, h⟩ := h
  rw [hmeaning', ha.meaning hleft, hb.meaning hright]
  exact h

/-- Where the operands are stood for, so is the arithmetic of them. -/
theorem Stands.arithmetic (ha : Stands text other a a') (hb : Stands text other b b')
    (op : Arithmetic) : Stands text other (.arithmetic op a b) (.arithmetic op a' b') :=
  stands_of_two ha hb (fun _ _ => nofun) (Nat.le_refl _) rfl rfl

/-- Where the operands are stood for, so is the comparison of them. -/
theorem Stands.comparison (ha : Stands text other a a') (hb : Stands text other b b')
    (op : Comparison) : Stands text other (.comparison op a b) (.comparison op a' b') :=
  stands_of_two ha hb (fun _ _ => nofun) (Nat.le_refl _) rfl rfl

/-- Where the operands are stood for, so is their conjunction. -/
theorem Stands.and (ha : Stands text other a a') (hb : Stands text other b b') :
    Stands text other (.and a b) (.and a' b') :=
  stands_of_two ha hb (fun _ _ => nofun) (Nat.le_refl _) rfl rfl

/-- Where the operands are stood for, so is their disjunction. -/
theorem Stands.or (ha : Stands text other a a') (hb : Stands text other b b') :
    Stands text other (.or a b) (.or a' b') :=
  stands_of_two ha hb (fun _ _ => nofun) (Nat.le_refl _) rfl rfl

/-- Where the operand is stood for, so is its negation. -/
theorem Stands.not (h : Stands text other a a') (word word' : Span) :
    Stands text other (.not word a) (.not word' a') := by
  refine Stands.of_meaning (fun _ _ => nofun) (Nat.le_refl _) fun e hmeaning => ?_
  rw [Phrase.meaning, bind_ok_iff] at hmeaning ⊢
  obtain ⟨operand, hoperand, he⟩ := hmeaning
  exact ⟨operand, h.meaning hoperand, he⟩

/-- Where the operand and the bounds are stood for, so is the range test. -/
theorem Stands.between (h : Stands text other a a') (hlow : Stands text other b b')
    (hhigh : Stands text other c c') (negated : Bool) :
    Stands text other (.between a b c negated) (.between a' b' c' negated) := by
  refine Stands.of_meaning (fun _ _ => nofun) (Nat.le_refl _) fun e hmeaning => ?_
  simp only [Phrase.meaning, bind_ok_iff] at hmeaning ⊢
  obtain ⟨operand, hoperand, low, hlowOk, high, hhighOk, he⟩ := hmeaning
  exact ⟨operand, h.meaning hoperand, low, hlow.meaning hlowOk, high, hhigh.meaning hhighOk, he⟩

/-- Where the operand is stood for, so is the list test of it with the same items. -/
theorem Stands.in_list (h : Stands text other a a') {items items' : List QuotedString}
    (hitems : items.map (·.contents) = items'.map (·.contents)) (rightParen rightParen' : Span)
    (negated : Bool) :
    Stands text other (.inList a items rightParen negated)
      (.inList a' items' rightParen' negated) := by
  refine Stands.of_meaning (fun _ _ => nofun) (Nat.le_refl _) fun e hmeaning => ?_
  simp only [Phrase.meaning, bind_ok_iff, require_identifier_ok_iff] at hmeaning ⊢
  obtain ⟨operand, hoperand, passed, hname, he⟩ := hmeaning
  exact ⟨operand, h.meaning hoperand, passed, hname, by rw [← hitems]; exact he⟩

/-- Where the operand is stood for, so is the pattern test of it with the same texts. -/
theorem Stands.like (h : Stands text other a a') {pattern pattern' : QuotedString}
    {escape escape' : Option QuotedString} (hpattern : pattern.contents = pattern'.contents)
    (hescape : escape.map (·.contents) = escape'.map (·.contents)) (negated : Bool) :
    Stands text other (.like a pattern escape negated) (.like a' pattern' escape' negated) := by
  have hcompiled {compiled : Like.Pattern} (hok : patternMeaning pattern escape = .ok compiled) :
      patternMeaning pattern' escape' = .ok compiled := by
    unfold patternMeaning at hok ⊢
    rw [← hpattern, ← hescape]
    split at hok
    · exact hok
    · cases hok
    · cases hok
  refine Stands.of_meaning (fun _ _ => nofun) (Nat.le_refl _) fun e hmeaning => ?_
  simp only [Phrase.meaning, bind_ok_iff, require_identifier_ok_iff] at hmeaning ⊢
  obtain ⟨operand, hoperand, passed, hname, compiled, hok, he⟩ := hmeaning
  exact ⟨operand, h.meaning hoperand, passed, hname, compiled, hcompiled hok, he⟩

/-- Where the operand is stood for, so is the presence test of it. -/
theorem Stands.is_null (h : Stands text other a a') (nullKeyword nullKeyword' : Span)
    (negated : Bool) :
    Stands text other (.isNull a nullKeyword negated) (.isNull a' nullKeyword' negated) := by
  refine Stands.of_meaning (fun _ _ => nofun) (Nat.le_refl _) fun e hmeaning => ?_
  simp only [Phrase.meaning, bind_ok_iff, require_identifier_ok_iff] at hmeaning ⊢
  obtain ⟨operand, hoperand, passed, hname, he⟩ := hmeaning
  exact ⟨operand, h.meaning hoperand, passed, hname, he⟩

/-- A test that is cut short by an open string has no meaning. -/
theorem meaning_cut_short (text : List Char) (operand : Phrase) (unclosed : Span) (e : Expr) :
    (cutShort operand unclosed).meaning text ≠ .ok e := by
  rw [meaning, Ne, bind_ok_iff]
  rintro ⟨_, -, hok⟩
  cases hok

end Phrase

/-! ## The same lexemes elsewhere -/

/-- Tokens of the same lexemes, numbers by their type and value. -/
abbrev AlikeTokens : List Token → List Token → Prop :=
  List.Forall₂ fun token other => token.lexeme.Alike other.lexeme

variable {ls ms others : List Token}

/-- Tokens of two parts are like others where the parts are. -/
theorem alike_append (h : AlikeTokens (ls ++ ms) others) :
    ∃ ls' ms', others = ls' ++ ms' ∧ AlikeTokens ls ls' ∧ AlikeTokens ms ms' :=
  ⟨others.take ls.length, others.drop ls.length, (List.take_append_drop _ _).symm,
    List.forall₂_take_append _ _ _ h.flip |>.flip, List.forall₂_drop_append _ _ _ h.flip |>.flip⟩

/-- A first token that is no number is the same elsewhere. -/
theorem alike_cons {lexeme : Lexeme} {span : Span} (h : AlikeTokens (⟨lexeme, span⟩ :: ls) others)
    (hfixed : (∀ literal, lexeme ≠ .integer literal) ∧ ∀ literal, lexeme ≠ .float literal) :
    ∃ span' ls', others = ⟨lexeme, span'⟩ :: ls' ∧ AlikeTokens ls ls' := by
  cases h with
  | @cons _ token _ ls' halike hrest =>
      obtain ⟨lexeme', span'⟩ := token
      cases halike with
      | same => exact ⟨span', ls', rfl, hrest⟩
      | integer => exact absurd rfl (hfixed.1 _)
      | float => exact absurd rfl (hfixed.2 _)

/-- No tokens are like no others. -/
theorem alike_nil (h : AlikeTokens [] others) : others = [] :=
  List.forall₂_nil_left_iff.mp h

/-- A single token that is no number is the same elsewhere. -/
theorem alike_singleton {lexeme : Lexeme} {span : Span} (h : AlikeTokens [⟨lexeme, span⟩] others)
    (hfixed : (∀ literal, lexeme ≠ .integer literal) ∧ ∀ literal, lexeme ≠ .float literal) :
    ∃ span', others = [⟨lexeme, span'⟩] := by
  obtain ⟨span', ls', rfl, hrest⟩ := alike_cons h hfixed
  exact ⟨span', by rw [alike_nil hrest]⟩

/-- A single token is like a single other one. -/
theorem alike_token {token : Token} (h : AlikeTokens [token] others) :
    ∃ token', token.lexeme.Alike token'.lexeme ∧ others = [token'] := by
  cases h with
  | cons halike hrest => exact ⟨_, halike, by rw [alike_nil hrest]⟩

/-- A negation is one elsewhere. -/
theorem SpellsNegation.relocated {negated : Bool} (h : SpellsNegation negated ls)
    (halike : AlikeTokens ls others) : SpellsNegation negated others := by
  cases h with
  | plain =>
      rw [alike_nil halike]
      exact .plain
  | negated =>
      obtain ⟨span', rfl⟩ := alike_singleton halike ⟨nofun, nofun⟩
      exact .negated span'

/-- Items of a list are items of the same contents elsewhere. -/
theorem SpellsItems.relocated {items : List QuotedString} (h : SpellsItems items ls)
    (halike : AlikeTokens ls others) :
    ∃ items', SpellsItems items' others ∧ items.map (·.contents) = items'.map (·.contents) := by
  induction h generalizing others with
  | nil =>
      rw [alike_nil halike]
      exact ⟨[], .nil, rfl⟩
  | cons item comma _ ih =>
      obtain ⟨span', rest, rfl, hafter⟩ := alike_cons halike ⟨nofun, nofun⟩
      obtain ⟨comma', rest, rfl, hmore⟩ := alike_cons hafter ⟨nofun, nofun⟩
      obtain ⟨items', hitems, hcontents⟩ := ih hmore
      refine ⟨⟨span', item.contents⟩ :: items', .cons ⟨span', item.contents⟩ comma' hitems, ?_⟩
      rw [List.map_cons, List.map_cons, hcontents]

/-- An escape clause is one of the same contents elsewhere. -/
theorem SpellsEscape.relocated {escape : Option QuotedString} (h : SpellsEscape escape ls)
    (halike : AlikeTokens ls others) :
    ∃ escape', SpellsEscape escape' others ∧
      escape.map (·.contents) = escape'.map (·.contents) := by
  cases h with
  | absent =>
      rw [alike_nil halike]
      exact ⟨none, .absent, rfl⟩
  | present mark escape =>
      obtain ⟨mark', rest, rfl, hrest⟩ := alike_cons halike ⟨nofun, nofun⟩
      obtain ⟨span', rfl⟩ := alike_singleton hrest ⟨nofun, nofun⟩
      exact ⟨some ⟨span', escape.contents⟩, .present mark' ⟨span', escape.contents⟩, rfl⟩

/-- What opens a test in front of an open string does so elsewhere. -/
theorem SpellsOpening.relocated (h : SpellsOpening ls) (halike : AlikeTokens ls others) :
    SpellsOpening others := by
  cases h with
  | inList inside leftParen hnegation hitems =>
      obtain ⟨ns', rest, rfl, hns, hrest⟩ := alike_append halike
      obtain ⟨inside', rest, rfl, hafter⟩ := alike_cons hrest ⟨nofun, nofun⟩
      obtain ⟨leftParen', rest, rfl, hmore⟩ := alike_cons hafter ⟨nofun, nofun⟩
      obtain ⟨items', hitems', -⟩ := hitems.relocated hmore
      exact .inList inside' leftParen' (hnegation.relocated hns) hitems'
  | pattern word hnegation =>
      obtain ⟨ns', rest, rfl, hns, hrest⟩ := alike_append halike
      obtain ⟨word', rfl⟩ := alike_singleton hrest ⟨nofun, nofun⟩
      exact .pattern word' (hnegation.relocated hns)
  | escape word literal mark hnegation =>
      obtain ⟨ns', rest, rfl, hns, hrest⟩ := alike_append halike
      obtain ⟨word', rest, rfl, hafter⟩ := alike_cons hrest ⟨nofun, nofun⟩
      obtain ⟨span', rest, rfl, hmore⟩ := alike_cons hafter ⟨nofun, nofun⟩
      obtain ⟨mark', rfl⟩ := alike_singleton hmore ⟨nofun, nofun⟩
      exact .escape word' ⟨span', literal.contents⟩ mark' (hnegation.relocated hns)

/-- Whatever tokens are like these, they spell a phrase of another text that stands for the
phrase. -/
def Relocates (text other : List Char) (phrase : Phrase) (tokens : List Token) : Prop :=
  ∀ others, AlikeTokens tokens others →
    ∃ phrase', Spells phrase' others ∧ Phrase.Stands text other phrase phrase'

variable {text other : List Char}

/-- Two operands and the token that joins them are relocated one after the other. -/
theorem Relocates.joined {left right : Phrase} {rs : List Token}
    (hleft : Relocates text other left ls) (hright : Relocates text other right rs)
    {lexeme : Lexeme} {span : Span}
    (halike : AlikeTokens (ls ++ ⟨lexeme, span⟩ :: rs) others)
    (hfixed : (∀ literal, lexeme ≠ .integer literal) ∧ ∀ literal, lexeme ≠ .float literal) :
    ∃ ls' span' rs' left' right', others = ls' ++ ⟨lexeme, span'⟩ :: rs' ∧ Spells left' ls' ∧
      Spells right' rs' ∧ Phrase.Stands text other left left' ∧
      Phrase.Stands text other right right' := by
  obtain ⟨ls', rest, rfl, hls, hrest⟩ := alike_append halike
  obtain ⟨span', rs', rfl, hrs⟩ := alike_cons hrest hfixed
  obtain ⟨left', hspellsLeft, hstandsLeft⟩ := hleft ls' hls
  obtain ⟨right', hspellsRight, hstandsRight⟩ := hright rs' hrs
  exact ⟨ls', span', rs', left', right', rfl, hspellsLeft, hspellsRight, hstandsLeft, hstandsRight⟩

/-- A phrase of one token that is no number is relocated with its token. -/
theorem relocates_leaf {lexeme : Lexeme} {span : Span} (leaf : Span → Phrase)
    (hspells : ∀ span, Spells (leaf span) [⟨lexeme, span⟩])
    (hfixed : (∀ literal, lexeme ≠ .integer literal) ∧ ∀ literal, lexeme ≠ .float literal)
    (hstands : ∀ span', Phrase.Stands text other (leaf span) (leaf span')) :
    Relocates text other (leaf span) [⟨lexeme, span⟩] := by
  intro others halike
  obtain ⟨span', rfl⟩ := alike_singleton halike hfixed
  exact ⟨leaf span', hspells span', hstands span'⟩

/-- Tokens of the same lexemes elsewhere spell a phrase that stands for the first. -/
theorem Spells.relocated (text other : List Char) {phrase : Phrase} (h : Spells phrase ls) :
    Relocates text other phrase ls := by
  -- The tokens come apart where the first ones do, and the parts stand for each other by induction.
  induction h with
  | identifier span name =>
      exact relocates_leaf (.identifier · name) (.identifier · name) ⟨nofun, nofun⟩
        fun _ => .of_meaning (fun _ _ => nofun) (Nat.le_refl _) fun _ h => h
  | string literal =>
      exact relocates_leaf (fun span => .string ⟨span, literal.contents⟩)
        (fun span => .string ⟨span, literal.contents⟩) ⟨nofun, nofun⟩
        fun _ => .of_meaning (fun _ _ => nofun) (Nat.le_refl _) fun _ h => h
  | unclosedString span =>
      exact relocates_leaf .unclosedString .unclosedString ⟨nofun, nofun⟩
        fun _ => .of_meaning (fun _ _ => nofun) (Nat.le_refl _) fun _ => nofun
  | boolean span flag =>
      exact relocates_leaf (.boolean · flag) (.boolean · flag) ⟨nofun, nofun⟩
        fun _ => .of_meaning (fun _ _ => nofun) (Nat.le_refl _) fun _ h => h
  | float span literal =>
      intro others halike
      obtain ⟨⟨lexeme', span'⟩, hlexeme, rfl⟩ := alike_token halike
      cases hlexeme with
      | same =>
          exact ⟨_, .float span' literal, .of_meaning (fun _ _ => nofun) (Nat.le_refl _) fun _ h =>
            (Phrase.float_meaning_ok_iff _ _ _).mpr ((Phrase.float_meaning_ok_iff _ _ _).mp h)⟩
      | float hvalue =>
          refine ⟨_, .float span' _, .of_meaning (fun _ _ => nofun) (Nat.le_refl _) fun e h => ?_⟩
          have h := (Phrase.float_meaning_ok_iff _ _ _).mp h
          rw [hvalue] at h
          exact (Phrase.float_meaning_ok_iff _ _ _).mpr h
  | integer span literal =>
      intro others halike
      obtain ⟨⟨lexeme', span'⟩, hlexeme, rfl⟩ := alike_token halike
      cases hlexeme with
      | same => exact ⟨_, .integer span' literal, Phrase.stands_integer rfl _ _⟩
      | integer hvalue => exact ⟨_, .integer span' _, Phrase.stands_integer hvalue _ _⟩
  | group leftParen rightParen _ ih =>
      intro others halike
      obtain ⟨leftParen', rest, rfl, hrest⟩ := alike_cons halike ⟨nofun, nofun⟩
      obtain ⟨is', closing, rfl, his, hclosing⟩ := alike_append hrest
      obtain ⟨rightParen', rfl⟩ := alike_singleton hclosing ⟨nofun, nofun⟩
      obtain ⟨inner', hspells, hstands⟩ := ih is' his
      exact ⟨_, .group leftParen' rightParen' hspells, hstands.group _ _ _ _⟩
  | signed mark sign _ hrank ih =>
      intro others halike
      obtain ⟨mark', rest, rfl, hrest⟩ :=
        alike_cons halike (by cases sign <;> exact ⟨nofun, nofun⟩)
      obtain ⟨operand', hspells, hstands⟩ := ih rest hrest
      exact ⟨_, .signed mark' sign hspells (Nat.le_trans hrank hstands.rank_le),
        hstands.under_sign _ _ sign⟩
  | arithmetic op span _ _ hleft hright ihLeft ihRight =>
      intro others halike
      obtain ⟨ls', span', rs', left', right', rfl, hls, hrs, hstandsLeft, hstandsRight⟩ :=
        ihLeft.joined ihRight halike (by cases op <;> exact ⟨nofun, nofun⟩)
      exact ⟨_, .arithmetic op span' hls hrs (Nat.le_trans hleft hstandsLeft.rank_le)
        (Nat.le_trans hright hstandsRight.rank_le), hstandsLeft.arithmetic hstandsRight op⟩
  | comparison op span _ _ hleft hright ihLeft ihRight =>
      intro others halike
      obtain ⟨ls', span', rs', left', right', rfl, hls, hrs, hstandsLeft, hstandsRight⟩ :=
        ihLeft.joined ihRight halike ⟨nofun, nofun⟩
      exact ⟨_, .comparison op span' hls hrs (Nat.le_trans hleft hstandsLeft.rank_le)
        (Nat.le_trans hright hstandsRight.rank_le), hstandsLeft.comparison hstandsRight op⟩
  | between word joint _ hnegation _ _ hrank hlow hhigh ih ihLow ihHigh =>
      intro others halike
      simp only [List.append_assoc, List.cons_append] at halike
      obtain ⟨os', rest, rfl, hos, hrest⟩ := alike_append halike
      obtain ⟨ns', rest, rfl, hns, htest⟩ := alike_append hrest
      obtain ⟨word', rest, rfl, hbounds⟩ := alike_cons htest ⟨nofun, nofun⟩
      obtain ⟨ls', joint', hs', low', high', rfl, hls, hhs, hstandsLow, hstandsHigh⟩ :=
        ihLow.joined ihHigh hbounds ⟨nofun, nofun⟩
      obtain ⟨operand', hspells, hstands⟩ := ih os' hos
      refine ⟨.between operand' low' high' _, ?_, hstands.between hstandsLow hstandsHigh _⟩
      simpa using Spells.between word' joint' hspells (hnegation.relocated hns) hls hhs
        (Nat.le_trans hrank hstands.rank_le) (Nat.le_trans hlow hstandsLow.rank_le)
        (Nat.le_trans hhigh hstandsHigh.rank_le)
  | inList inside leftParen rightParen item _ hnegation hitems hrank ih =>
      intro others halike
      simp only [List.append_assoc, List.cons_append] at halike
      obtain ⟨os', rest, rfl, hos, hrest⟩ := alike_append halike
      obtain ⟨ns', rest, rfl, hns, htest⟩ := alike_append hrest
      obtain ⟨inside', rest, rfl, hlist⟩ := alike_cons htest ⟨nofun, nofun⟩
      obtain ⟨leftParen', rest, rfl, hinside⟩ := alike_cons hlist ⟨nofun, nofun⟩
      obtain ⟨is', rest, rfl, his, hlast⟩ := alike_append hinside
      obtain ⟨span', rest, rfl, hclosing⟩ := alike_cons hlast ⟨nofun, nofun⟩
      obtain ⟨rightParen', rfl⟩ := alike_singleton hclosing ⟨nofun, nofun⟩
      obtain ⟨operand', hspells, hstands⟩ := ih os' hos
      obtain ⟨items', hitems', hcontents⟩ := hitems.relocated his
      refine ⟨.inList operand' (items' ++ [⟨span', item.contents⟩]) rightParen' _, ?_,
        hstands.in_list ?_ _ _ _⟩
      · simpa [QuotedString.token] using Spells.inList inside' leftParen' rightParen'
          ⟨span', item.contents⟩ hspells (hnegation.relocated hns) hitems'
          (Nat.le_trans hrank hstands.rank_le)
      · rw [List.map_append, List.map_append, hcontents]
        rfl
  | like word pattern _ hnegation hescape hrank ih =>
      intro others halike
      simp only [List.append_assoc] at halike
      obtain ⟨os', rest, rfl, hos, hrest⟩ := alike_append halike
      obtain ⟨ns', rest, rfl, hns, htest⟩ := alike_append hrest
      obtain ⟨word', rest, rfl, hpattern⟩ := alike_cons htest ⟨nofun, nofun⟩
      obtain ⟨span', es', rfl, hes⟩ := alike_cons hpattern ⟨nofun, nofun⟩
      obtain ⟨operand', hspells, hstands⟩ := ih os' hos
      obtain ⟨escape', hescape', hcontents⟩ := hescape.relocated hes
      have hpattern : pattern.contents = (QuotedString.mk span' pattern.contents).contents := rfl
      refine ⟨.like operand' ⟨span', pattern.contents⟩ escape' _, ?_,
        hstands.like hpattern hcontents _⟩
      simpa [QuotedString.token] using Spells.like word' ⟨span', pattern.contents⟩ hspells
        (hnegation.relocated hns) hescape' (Nat.le_trans hrank hstands.rank_le)
  | isNull word nullKeyword _ hnegation hrank ih =>
      intro others halike
      simp only [List.append_assoc, List.cons_append] at halike
      obtain ⟨os', rest, rfl, hos, hrest⟩ := alike_append halike
      obtain ⟨word', rest, rfl, htest⟩ := alike_cons hrest ⟨nofun, nofun⟩
      obtain ⟨ns', rest, rfl, hns, hlast⟩ := alike_append htest
      obtain ⟨nullKeyword', rfl⟩ := alike_singleton hlast ⟨nofun, nofun⟩
      obtain ⟨operand', hspells, hstands⟩ := ih os' hos
      refine ⟨.isNull operand' nullKeyword' _, ?_, hstands.is_null _ _ _⟩
      simpa using Spells.isNull word' nullKeyword' hspells (hnegation.relocated hns)
        (Nat.le_trans hrank hstands.rank_le)
  | cutShort unclosed _ hopening hrank ih =>
      intro others halike
      rw [List.append_assoc] at halike
      obtain ⟨os', rest, rfl, hos, hrest⟩ := alike_append halike
      obtain ⟨opening', rest, rfl, hopens, hlast⟩ := alike_append hrest
      obtain ⟨unclosed', rfl⟩ := alike_singleton hlast ⟨nofun, nofun⟩
      obtain ⟨operand', hspells, hstands⟩ := ih os' hos
      refine ⟨.cutShort operand' unclosed', ?_,
        .of_meaning (fun _ _ => nofun) (Nat.le_refl _) fun e hok => ?_⟩
      · simpa using Spells.cutShort unclosed' hspells (hopening.relocated hopens)
          (Nat.le_trans hrank hstands.rank_le)
      · exact absurd hok (Phrase.meaning_cut_short _ _ _ e)
  | not word _ hrank ih =>
      intro others halike
      obtain ⟨word', rest, rfl, hrest⟩ := alike_cons halike ⟨nofun, nofun⟩
      obtain ⟨operand', hspells, hstands⟩ := ih rest hrest
      exact ⟨_, .not word' hspells (Nat.le_trans hrank hstands.rank_le), hstands.not _ _⟩
  | and word _ _ hleft hright ihLeft ihRight =>
      intro others halike
      obtain ⟨ls', span', rs', left', right', rfl, hls, hrs, hstandsLeft, hstandsRight⟩ :=
        ihLeft.joined ihRight halike ⟨nofun, nofun⟩
      exact ⟨_, .and span' hls hrs (Nat.le_trans hleft hstandsLeft.rank_le)
        (Nat.le_trans hright hstandsRight.rank_le), hstandsLeft.and hstandsRight⟩
  | or word _ _ hleft hright ihLeft ihRight =>
      intro others halike
      obtain ⟨ls', span', rs', left', right', rfl, hls, hrs, hstandsLeft, hstandsRight⟩ :=
        ihLeft.joined ihRight halike ⟨nofun, nofun⟩
      exact ⟨_, .or span' hls hrs (Nat.le_trans hleft hstandsLeft.rank_le)
        (Nat.le_trans hright hstandsRight.rank_le), hstandsLeft.or hstandsRight⟩

end MessageSelector
