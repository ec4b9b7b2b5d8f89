import MessageSelector.Proofs.Grammar.Words
import MessageSelector.Proofs.Scanning

/-!
# Readers find only what the grammar spells

`SoundAt level reader` says that whatever the reader finds is spelled by exactly the tokens it took,
and binds at least as tightly as `level`. The levels are proved from the tightest to the loosest,
each from the one below it, with the reader inside parentheses as a parameter. `expression_sound`
closes the circle by induction on the clock, `of_tokens_sound` says it of all tokens of a text, and
`scan_of_some` of the text itself.
-/

namespace MessageSelector.Phrase

open Reader
open MessageSelector.Expr (Binding)

/-- Whatever the reader finds is spelled by the tokens it took, and binds tightly enough. -/
def SoundAt (demanded : Binding) (reader : Reader Phrase) : Prop :=
  ∀ tokens phrase rest, Finds reader tokens phrase rest →
    ∃ ts, tokens = ts ++ rest ∧ Spells phrase ts ∧ demanded.rank ≤ phrase.binding.rank

variable {expression : Reader Phrase}

/-! ## Loops -/

section Loops

variable {β : Type} {operator : Reader β} {operand : Reader Phrase} {level : Binding}

/-- A chain is sound at a level when its operands are at the next tighter one, and a round of it is
spelled by the operator between its operands. -/
theorem chain_sound {group : β → Phrase → Phrase → Phrase}
    (hlevel : level.rank ≤ level.tighter.rank)
    (hround : ∀ tokens op rest, Finds operator tokens op rest →
      ∃ token, tokens = token :: rest ∧ ∀ left right ls rs, Spells left ls → Spells right rs →
        level.rank ≤ left.binding.rank → level.tighter.rank ≤ right.binding.rank →
        Spells (group op left right) (ls ++ token :: rs) ∧
          level.rank ≤ (group op left right).binding.rank)
    (hoperand : SoundAt level.tighter operand) : SoundAt level (chain operator operand group) := by
  intro tokens phrase rest h
  -- The part of the tokens that is taken so far spells the left operand of the next round.
  refine chain_invariant
    (fun phrase rest => ∃ ts, tokens = ts ++ rest ∧ Spells phrase ts ∧
      level.rank ≤ phrase.binding.rank) ?_ ?_ h
  · rintro op left right mid _ rest ⟨ls, rfl, hls, hleft⟩ hop hright
    obtain ⟨token, rfl, hspells⟩ := hround _ _ _ hop
    obtain ⟨rs, rfl, hrs, hrank⟩ := hoperand _ _ _ hright
    obtain ⟨hts, hbinding⟩ := hspells left right ls rs hls hrs hleft hrank
    exact ⟨_, by simp, hts, hbinding⟩
  · intro first mid hfirst
    obtain ⟨ts, rfl, hts, hrank⟩ := hoperand _ _ _ hfirst
    exact ⟨ts, rfl, hts, Nat.le_trans hlevel hrank⟩

/-- Operands under operators are sound at a level when the operands alone are at the next tighter
one, and an operator in front is spelled by its token. -/
theorem prefixed_sound {wrap : β → Phrase → Phrase} (hlevel : level.rank ≤ level.tighter.rank)
    (hwrap : ∀ tokens op rest, Finds operator tokens op rest →
      ∃ token, tokens = token :: rest ∧ ∀ phrase ts, Spells phrase ts →
        level.rank ≤ phrase.binding.rank →
        Spells (wrap op phrase) (token :: ts) ∧ level.rank ≤ (wrap op phrase).binding.rank)
    (hoperand : SoundAt level.tighter operand) :
    SoundAt level (prefixed operator operand wrap) := by
  intro tokens phrase rest h
  refine prefixed_invariant
    (fun tokens phrase rest => ∃ ts, tokens = ts ++ rest ∧ Spells phrase ts ∧
      level.rank ≤ phrase.binding.rank) ?_ ?_ h
  · intro tokens phrase rest h
    obtain ⟨ts, rfl, hts, hrank⟩ := hoperand _ _ _ h
    exact ⟨ts, rfl, hts, Nat.le_trans hlevel hrank⟩
  · rintro op phrase tokens mid rest hop ⟨ts, rfl, hts, hrank⟩
    obtain ⟨token, rfl, hspells⟩ := hwrap _ _ _ hop
    obtain ⟨hts, hbinding⟩ := hspells phrase ts hts hrank
    exact ⟨_, rfl, hts, hbinding⟩

end Loops

/-! ## Sums -/

/-- An expression in parentheses is spelled by its tokens and the parentheses. -/
theorem parenthesized_sound (hexpression : SoundAt .or expression) :
    SoundAt .primary (parenthesized expression) := by
  intro tokens phrase rest h
  unfold parenthesized at h
  simp only [finds_bind, finds_lexeme, finds_pure] at h
  obtain ⟨leftParen, _, rfl, inner, _, hinner, rightParen, _, rfl, rfl, rfl⟩ := h
  obtain ⟨ts, rfl, hts, _⟩ := hexpression _ _ _ hinner
  exact ⟨_, by simp, .group leftParen rightParen hts, Nat.le_refl _⟩

/-- A primary is spelled by the tokens taken for it. -/
theorem primary_sound (hexpression : SoundAt .or expression) :
    SoundAt .primary (primary expression) := by
  intro tokens phrase rest h
  unfold primary at h
  simp only [finds_or_else, finds_bind, finds_quoted_string, finds_unclosed, finds_float_literal,
    finds_integer_literal, finds_boolean_literal, finds_identifier_word, finds_pure] at h
  obtain h | ⟨_, h⟩ := h
  · exact parenthesized_sound hexpression _ _ _ h
  obtain ⟨literal, _, rfl, rfl, rfl⟩ | ⟨_, h⟩ := h
  · exact ⟨_, rfl, .string literal, Nat.le_refl _⟩
  obtain ⟨span, _, rfl, rfl, rfl⟩ | ⟨_, h⟩ := h
  · exact ⟨_, rfl, .unclosedString span, Nat.le_refl _⟩
  obtain ⟨span, literal, rfl, rfl⟩ | ⟨_, h⟩ := h
  · exact ⟨_, rfl, .float span literal, Nat.le_refl _⟩
  obtain ⟨span, literal, rfl, rfl⟩ | ⟨_, h⟩ := h
  · exact ⟨_, rfl, .integer span literal, Nat.le_refl _⟩
  obtain ⟨span, flag, rfl, rfl⟩ | ⟨_, span, name, rfl, rfl⟩ := h
  · exact ⟨_, rfl, .boolean span flag, Nat.le_refl _⟩
  · exact ⟨_, rfl, .identifier span name, Nat.le_refl _⟩

/-- An operand under signs is spelled by the signs and its own tokens. -/
theorem signed_primary_sound (hexpression : SoundAt .or expression) :
    SoundAt .sign (signedPrimary expression) := by
  refine prefixed_sound (by decide) ?_ (primary_sound hexpression)
  rintro tokens ⟨mark, sign⟩ rest hsign
  obtain rfl := (finds_sign _ _ _ _).mp hsign
  exact ⟨_, rfl, fun operand ts hts hrank => ⟨.signed mark sign hts hrank, Nat.le_refl _⟩⟩

/-- An operation is spelled at the level of its operator. -/
theorem arithmetic_round (op : Arithmetic) (span : Span) {level : Binding}
    (hof : Binding.ofArithmetic op = level)
    (habove : Binding.aboveArithmetic op = level.tighter) (left right : Phrase)
    (ls rs : List Token) (hls : Spells left ls) (hrs : Spells right rs)
    (hleft : level.rank ≤ left.binding.rank) (hright : level.tighter.rank ≤ right.binding.rank) :
    Spells (.arithmetic op left right) (ls ++ ⟨op.lexeme, span⟩ :: rs) ∧
      level.rank ≤ (Phrase.arithmetic op left right).binding.rank := by
  rw [← hof] at hleft ⊢
  rw [← habove] at hright
  exact ⟨.arithmetic op span hls hrs hleft hright, Nat.le_refl _⟩

/-- A product is spelled by its operands and the operators between them. -/
theorem product_sound (hexpression : SoundAt .or expression) :
    SoundAt .multiplicative (product expression) := by
  refine chain_sound (by decide) ?_ (signed_primary_sound hexpression)
  intro tokens op rest hop
  obtain ⟨span, rfl, hkind⟩ := (finds_multiplicative _ _ _).mp hop
  exact ⟨_, rfl, arithmetic_round op span (if_pos hkind) (if_pos hkind)⟩

/-- A sum is spelled by its operands and the operators between them. -/
theorem sum_sound (hexpression : SoundAt .or expression) :
    SoundAt .additive (sum expression) := by
  have hchain : SoundAt .additive (chain additive (product expression) .arithmetic) := by
    refine chain_sound (by decide) ?_ (product_sound hexpression)
    intro tokens op rest hop
    obtain ⟨span, rfl, hkind⟩ := (finds_additive _ _ _).mp hop
    have hkind : ¬ op.isMultiplicative = true := by simp [hkind]
    exact ⟨_, rfl, arithmetic_round op span (if_neg hkind) (if_neg hkind)⟩
  intro tokens phrase rest h
  rw [sum, finds_expecting] at h
  exact hchain _ _ _ h

/-! ## Conditions -/

/-- What a test after an operand makes of it is spelled by the operand's tokens and those it
took. -/
def SoundTest (operand : Phrase) (test : Reader Phrase) : Prop :=
  ∀ os, Spells operand os → ∀ tokens phrase rest, Finds test tokens phrase rest →
    ∃ ts, os ++ tokens = ts ++ rest ∧ Spells phrase ts ∧ phrase.binding = .condition

variable {sum : Reader Phrase} {operand : Phrase}

/-- A comparison is spelled by its two sums and the operator between them. -/
theorem comparison_test_sound (hsum : SoundAt .additive sum)
    (hoperand : Binding.additive.rank ≤ operand.binding.rank) :
    SoundTest operand (comparisonTest sum operand) := by
  intro os hos tokens phrase rest h
  unfold comparisonTest at h
  simp only [finds_expecting, finds_bind, finds_comparison_operator, finds_pure] at h
  obtain ⟨op, _, ⟨span, rfl⟩, right, _, hright, rfl, rfl⟩ := h
  obtain ⟨rs, rfl, hrs, hrank⟩ := hsum _ _ _ hright
  exact ⟨_, by simp, .comparison op span hos hrs hoperand hrank, rfl⟩

/-- A range test is spelled by its operand, its keywords and its two bounds. -/
theorem between_test_sound (hsum : SoundAt .additive sum)
    (hoperand : Binding.additive.rank ≤ operand.binding.rank) :
    SoundTest operand (betweenTest sum operand) := by
  intro os hos tokens phrase rest h
  unfold betweenTest at h
  simp only [finds_expecting, finds_bind, finds_keyword, finds_pure] at h
  obtain ⟨negated, _, hnegation, word, _, rfl, low, _, hlow, joint, _, rfl, high, _, hhigh, rfl,
    rfl⟩ := h
  obtain ⟨ns, rfl, hns⟩ := finds_negation hnegation
  obtain ⟨ls, rfl, hls, hlowRank⟩ := hsum _ _ _ hlow
  obtain ⟨hs, rfl, hhs, hhighRank⟩ := hsum _ _ _ hhigh
  exact ⟨_, by simp, .between word joint hos hns hls hhs hoperand hlowRank hhighRank, rfl⟩

/-- A list test is spelled by its operand and list, or cut short by an unclosed string. -/
theorem in_test_sound (hoperand : Binding.additive.rank ≤ operand.binding.rank) :
    SoundTest operand (inTest operand) := by
  intro os hos tokens phrase rest h
  unfold inTest at h
  simp only [finds_expecting, finds_bind, finds_or_else, finds_keyword, finds_lexeme,
    finds_unclosed, finds_quoted_string, finds_pure] at h
  obtain ⟨negated, _, hnegation, inside, _, rfl, leftParen, _, rfl, items, _, hitems, h⟩ := h
  obtain ⟨ns, rfl, hns⟩ := finds_negation hnegation
  obtain ⟨is, rfl, his⟩ := spells_items_of_repeats (repeats_of_finds_many hitems)
  obtain ⟨unclosed, _, rfl, rfl, rfl⟩ | ⟨_, item, _, rfl, rightParen, _, rfl, rfl, rfl⟩ := h
  · exact ⟨_, by simp, .cutShort unclosed hos (.inList inside leftParen hns his) hoperand, rfl⟩
  · exact ⟨_, by simp, .inList inside leftParen rightParen item hos hns his hoperand, rfl⟩

/-- A pattern test is spelled by its operand and pattern, or cut short by an unclosed string. -/
theorem like_test_sound (hoperand : Binding.additive.rank ≤ operand.binding.rank) :
    SoundTest operand (likeTest operand) := by
  intro os hos tokens phrase rest h
  unfold likeTest at h
  simp only [finds_expecting, finds_bind, finds_or_else, finds_keyword, finds_unclosed,
    finds_quoted_string, finds_pure] at h
  obtain ⟨negated, _, hnegation, word, _, rfl, h⟩ := h
  obtain ⟨ns, rfl, hns⟩ := finds_negation hnegation
  obtain ⟨unclosed, _, rfl, rfl, rfl⟩ | ⟨_, pattern, _, rfl, escape, _, hescape, h⟩ := h
  · exact ⟨_, by simp, .cutShort unclosed hos (.pattern word hns) hoperand, rfl⟩
  obtain ⟨clause, rfl, hclause⟩ | ⟨rfl, _, rfl⟩ := (finds_optional _ _ _ _).mp hescape
  · unfold escapeClause at hclause
    simp only [finds_bind, finds_or_else, finds_keyword, finds_unclosed, finds_quoted_string,
      finds_pure] at hclause
    obtain ⟨mark, _, rfl, ⟨unclosed, _, rfl, rfl, rfl⟩ | ⟨_, literal, _, rfl, rfl, rfl⟩⟩ := hclause
    · obtain ⟨rfl, rfl⟩ := (finds_pure _ _ _ _).mp h
      exact ⟨_, by simp, .cutShort unclosed hos (.escape word pattern mark hns) hoperand, rfl⟩
    · obtain ⟨rfl, rfl⟩ := (finds_pure _ _ _ _).mp h
      exact ⟨_, by simp, .like word pattern hos hns (.present mark literal) hoperand, rfl⟩
  · obtain ⟨rfl, rfl⟩ := (finds_pure _ _ _ _).mp h
    exact ⟨_, by simp, .like word pattern hos hns .absent hoperand, rfl⟩

/-- A presence test is spelled by its operand and keywords. -/
theorem null_test_sound (hoperand : Binding.additive.rank ≤ operand.binding.rank) :
    SoundTest operand (nullTest operand) := by
  intro os hos tokens phrase rest h
  unfold nullTest at h
  simp only [finds_expecting, finds_bind, finds_keyword, finds_pure] at h
  obtain ⟨word, _, rfl, negated, _, hnegation, nullKeyword, _, rfl, rfl, rfl⟩ := h
  obtain ⟨ns, rfl, hns⟩ := finds_negation hnegation
  exact ⟨_, by simp, .isNull word nullKeyword hos hns hoperand, rfl⟩

/-- A condition is a sum, alone or with one test after it. -/
theorem condition_sound (hexpression : SoundAt .or expression) :
    SoundAt .condition (condition expression) := by
  intro tokens phrase rest h
  rw [condition, finds_expecting, finds_bind] at h
  obtain ⟨operand, mid, hoperand, h⟩ := h
  have hsum := sum_sound hexpression
  obtain ⟨os, rfl, hos, hrank⟩ := hsum _ _ _ hoperand
  -- A test after the operand makes a condition of it
  have htested (test : Reader Phrase) (htest : SoundTest operand test)
      (hfinds : Finds test mid phrase rest) :
      ∃ ts, os ++ mid = ts ++ rest ∧ Spells phrase ts ∧
        Binding.condition.rank ≤ phrase.binding.rank := by
    obtain ⟨ts, heq, hts, hbinding⟩ := htest os hos _ _ _ hfinds
    exact ⟨ts, heq, hts, Nat.le_of_eq (congrArg Binding.rank hbinding.symm)⟩
  simp only [finds_or_else] at h
  obtain h | ⟨_, h | ⟨_, h | ⟨_, h | ⟨_, h | ⟨_, h⟩⟩⟩⟩⟩ := h
  · exact htested _ (comparison_test_sound hsum hrank) h
  · exact htested _ (between_test_sound hsum hrank) h
  · exact htested _ (in_test_sound hrank) h
  · exact htested _ (like_test_sound hrank) h
  · exact htested _ (null_test_sound hrank) h
  · obtain ⟨rfl, rfl⟩ := (finds_pure _ _ _ _).mp h
    exact ⟨os, rfl, hos, Nat.le_trans (by decide) hrank⟩

/-! ## Connectives -/

/-- A condition under `NOT` is spelled by the keywords and its own tokens. -/
theorem negated_condition_sound (hexpression : SoundAt .or expression) :
    SoundAt .not (negatedCondition expression) := by
  refine prefixed_sound (by decide) ?_ (condition_sound hexpression)
  intro tokens word rest hword
  obtain rfl := (finds_keyword _ _ _ _ _).mp hword
  exact ⟨_, rfl, fun operand ts hts hrank => ⟨.not word hts hrank, Nat.le_refl _⟩⟩

/-- A conjunction is spelled by its operands and the keywords between them. -/
theorem conjunction_sound (hexpression : SoundAt .or expression) :
    SoundAt .and (conjunction expression) := by
  refine chain_sound (by decide) ?_ (negated_condition_sound hexpression)
  intro tokens word rest hword
  obtain rfl := (finds_keyword _ _ _ _ _).mp hword
  exact ⟨_, rfl, fun left right ls rs hls hrs hleft hright =>
    ⟨.and word hls hrs hleft hright, Nat.le_refl _⟩⟩

/-- A disjunction is spelled by its operands and the keywords between them. -/
theorem disjunction_sound (hexpression : SoundAt .or expression) :
    SoundAt .or (disjunction expression) := by
  refine chain_sound (by decide) ?_ (conjunction_sound hexpression)
  intro tokens word rest hword
  obtain rfl := (finds_keyword _ _ _ _ _).mp hword
  exact ⟨_, rfl, fun left right ls rs hls hrs hleft hright =>
    ⟨.or word hls hrs hleft hright, Nat.le_refl _⟩⟩

/-- Every expression found, however long the clock, is spelled by the tokens taken. -/
theorem expression_sound (clock : List Token) : SoundAt .or (expressionWithin clock) := by
  induction clock with
  | nil =>
      intro tokens phrase rest h
      cases h
  | cons _ clock ih =>
      intro tokens phrase rest h
      change Finds (expecting .expression (disjunction (expressionWithin clock)))
        tokens phrase rest at h
      rw [finds_expecting] at h
      exact disjunction_sound ih _ _ _ h

/-- A text is read as an expression or nothing, and then comes its end. -/
theorem of_tokens_ok {tokens : List Token} {found : Option Phrase}
    (h : ofTokens tokens = .ok found) :
    ∃ mid stop rest, mid = ⟨.endOfText, stop⟩ :: rest ∧
      ((∃ phrase, found = some phrase ∧ Finds Phrase.expression tokens phrase mid) ∨
        found = none ∧ tokens = mid) := by
  unfold ofTokens at h
  dsimp only at h
  split at h
  · next result rest hfound =>
      cases h
      have hselector : Finds selector tokens found rest := hfound
      unfold selector at hselector
      simp only [finds_bind, finds_optional, finds_expecting, finds_lexeme, finds_pure]
        at hselector
      obtain ⟨_, mid, hread, stop, _, rfl, rfl, rfl⟩ := hselector
      refine ⟨_, stop, _, rfl, hread.imp_right ?_⟩
      rintro ⟨hnone, -, htokens⟩
      exact ⟨hnone, htokens⟩
  · cases h

/-- The phrase of a text is spelled by all of its tokens but the one that closes it. -/
theorem of_tokens_sound {tokens : List Token} {phrase : Phrase}
    (h : ofTokens tokens = .ok (some phrase)) :
    ∃ ts stop rest, tokens = ts ++ ⟨.endOfText, stop⟩ :: rest ∧ Spells phrase ts := by
  obtain ⟨_, stop, rest, rfl, ⟨_, heq, hexpression⟩ | ⟨heq, -⟩⟩ := of_tokens_ok h
  · cases heq
    obtain ⟨ts, rfl, hts, -⟩ := expression_sound _ _ _ _ hexpression
    exact ⟨ts, stop, rest, rfl, hts⟩
  · cases heq

/-- A text without a phrase has no tokens but the one that closes it. -/
theorem of_tokens_none {tokens : List Token} (h : ofTokens tokens = .ok none) :
    ∃ stop rest, tokens = ⟨.endOfText, stop⟩ :: rest := by
  obtain ⟨_, stop, rest, rfl, ⟨_, heq, -⟩ | ⟨-, rfl⟩⟩ := of_tokens_ok h
  · cases heq
  · exact ⟨stop, rest, rfl⟩

/-! ## Texts -/

/-- A text that is read without a phrase has no tokens but its end. -/
theorem scan_of_none {text : List Char} (h : ofTokens (Token.scan text) = .ok none) :
    ∃ stop, Token.scan text = [⟨.endOfText, stop⟩] := by
  obtain ⟨stop, rest, hscan⟩ := of_tokens_none h
  rw [← List.nil_append (_ :: rest)] at hscan
  obtain rfl := Token.eq_nil_of_scan_end hscan
  exact ⟨stop, hscan⟩

/-- The tokens of a text that is read spell the phrase. -/
theorem scan_of_some {text : List Char} {phrase : Phrase}
    (h : ofTokens (Token.scan text) = .ok (some phrase)) :
    ∃ tokens stop, Token.scan text = tokens ++ [⟨.endOfText, stop⟩] ∧ Spells phrase tokens := by
  obtain ⟨tokens, stop, rest, hscan, hspells⟩ := of_tokens_sound h
  obtain rfl := Token.eq_nil_of_scan_end hscan
  exact ⟨tokens, stop, hscan, hspells⟩

/-- A text with tokens that spell no phrase is not read. -/
theorem not_read_of_not_spelled {text : List Char} {tokens : List Token} {stop : Span}
    (hscan : Token.scan text = tokens ++ [⟨.endOfText, stop⟩]) (hne : tokens ≠ [])
    (hspells : ∀ phrase, ¬ Spells phrase tokens) :
    ∃ furthest, ofTokens (Token.scan text) = .error furthest := by
  cases hread : ofTokens (Token.scan text) with
  | error furthest => exact ⟨furthest, rfl⟩
  | ok found =>
      cases found with
      | none =>
          obtain ⟨_, hend⟩ := scan_of_none hread
          have hlength := congrArg List.length (hscan.symm.trans hend)
          rw [List.length_append] at hlength
          exact absurd (List.length_eq_zero_iff.mp (Nat.succ.inj hlength)) hne
      | some phrase =>
          obtain ⟨others, _, hother, hphrase⟩ := scan_of_some hread
          rw [hscan] at hother
          obtain rfl := List.append_inj_left' hother rfl
          exact absurd hphrase (hspells phrase)

end MessageSelector.Phrase
