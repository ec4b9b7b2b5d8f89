import MessageSelector.Proofs.Texts

/-!
# What is awaited in the middle of a phrase

Parentheses that are open have to be closed, and a `BETWEEN` waits for its `AND`. The tokens so far
say what is awaited: `Awaited.afterTokens`. A whole phrase leaves that as it was, and a phrase that
ends with an open string comes to await at most the end of a list: `Awaited.after_spells` and
`leaves_of_spells`.
-/

namespace MessageSelector

open MessageSelector.Expr (Binding)

/-! ## What is awaited -/

/-- What has to come before a selector can end. -/
inductive Awaited where
  /-- The parenthesis that closes one around an expression. -/
  | rightParen
  /-- The `AND` between the bounds of a range. -/
  | joint
  /-- The parenthesis that closes a list. -/
  | listEnd
  deriving DecidableEq, Repr

namespace Awaited

/-- What is awaited after a lexeme, the first in front. -/
def after (awaited : List Awaited) : Lexeme → List Awaited
  | .keyword .inside => .listEnd :: awaited
  | .keyword .between => .joint :: awaited
  | .keyword .and => if awaited.head? = some .joint then awaited.tail else awaited
  | .leftParen => if awaited.head? = some .listEnd then awaited else .rightParen :: awaited
  | .rightParen => awaited.tail
  | _ => awaited

/-- What is awaited after tokens one after the other. -/
def afterTokens (awaited : List Awaited) (tokens : List Token) : List Awaited :=
  tokens.foldl (fun awaited token => after awaited token.lexeme) awaited

@[simp] theorem after_tokens_nil (awaited : List Awaited) : afterTokens awaited [] = awaited :=
  rfl

@[simp] theorem after_tokens_cons (awaited : List Awaited) (token : Token) (rest : List Token) :
    afterTokens awaited (token :: rest) = afterTokens (after awaited token.lexeme) rest :=
  rfl

@[simp] theorem after_tokens_append (awaited : List Awaited) (ls ms : List Token) :
    afterTokens awaited (ls ++ ms) = afterTokens (afterTokens awaited ls) ms :=
  List.foldl_append

/-- Where a phrase that binds so tightly may begin: no list is open, and an `AND` of the phrase is
not taken for that of a range. -/
def Admits (awaited : List Awaited) (binding : Binding) : Prop :=
  awaited.head? ≠ some .listEnd ∧
    (awaited.head? = some .joint → Binding.not.rank ≤ binding.rank)

variable {awaited : List Awaited} {loose tight : Binding}

/-- What binds more tightly may begin there too. -/
theorem Admits.tighten (h : Admits awaited loose) (hrank : loose.rank ≤ tight.rank) :
    Admits awaited tight :=
  ⟨h.1, fun hjoint => Nat.le_trans (h.2 hjoint) hrank⟩

/-- Anything may begin where nothing is awaited. -/
theorem admits_nil (binding : Binding) : Admits [] binding :=
  ⟨by simp, by simp⟩

/-- Anything may begin in parentheses. -/
theorem admits_right_paren (awaited : List Awaited) (binding : Binding) :
    Admits (.rightParen :: awaited) binding :=
  ⟨by simp, by simp⟩

/-- A bound may begin where an `AND` is awaited. -/
theorem admits_joint (awaited : List Awaited) {binding : Binding}
    (hrank : Binding.additive.rank ≤ binding.rank) : Admits (.joint :: awaited) binding :=
  ⟨by simp, fun _ => Nat.le_trans (by decide) hrank⟩

/-- A parenthesis that begins an operand is awaited to be closed. -/
theorem Admits.after_left_paren (h : Admits awaited loose) :
    after awaited .leftParen = .rightParen :: awaited :=
  if_neg h.1

/-- An `AND` between conditions is not awaited. -/
theorem Admits.after_and (h : Admits awaited .and) : after awaited (.keyword .and) = awaited :=
  if_neg fun hjoint => absurd (h.2 hjoint) (by decide)

/-- A sign leaves what is awaited. -/
@[simp] theorem after_sign (awaited : List Awaited) (sign : Sign) :
    after awaited sign.lexeme = awaited := by
  cases sign <;> rfl

/-- An arithmetic operator leaves what is awaited. -/
@[simp] theorem after_arithmetic (awaited : List Awaited) (op : Arithmetic) :
    after awaited op.lexeme = awaited := by
  cases op <;> rfl

/-- A negation of a test leaves what is awaited. -/
theorem after_negation {negated : Bool} {ns : List Token} (h : SpellsNegation negated ns)
    (awaited : List Awaited) : afterTokens awaited ns = awaited := by
  cases h <;> rfl

/-- Items of a list leave what is awaited. -/
theorem after_items {items : List QuotedString} {is : List Token} (h : SpellsItems items is)
    (awaited : List Awaited) : afterTokens awaited is = awaited := by
  induction h with
  | nil => rfl
  | cons _ _ _ ih => exact ih

/-- Behind a `BETWEEN` and a bound its `AND` is awaited. -/
theorem after_bound {negated : Bool} {os ns ls : List Token} (hns : SpellsNegation negated ns)
    (hos : afterTokens awaited os = awaited) (word : Span)
    (hls : afterTokens (.joint :: awaited) ls = .joint :: awaited) :
    afterTokens awaited (os ++ ns ++ ⟨.keyword .between, word⟩ :: ls) = .joint :: awaited := by
  rw [after_tokens_append, after_tokens_append, hos, after_negation hns]
  exact hls

/-- An operand of a test may begin where the test may. -/
theorem Admits.operand (h : Admits awaited .condition)
    (hrank : Binding.additive.rank ≤ tight.rank) : Admits awaited tight :=
  h.tighten (Nat.le_trans (by decide) hrank)

/-- The right operand of an operator may begin where the whole may. -/
theorem Admits.right_of_arithmetic {op : Arithmetic} (h : Admits awaited (.ofArithmetic op))
    (hrank : (Binding.aboveArithmetic op).rank ≤ tight.rank) : Admits awaited tight := by
  have habove : (Binding.ofArithmetic op).rank ≤ (Binding.aboveArithmetic op).rank := by
    cases op <;> decide
  exact h.tighten (Nat.le_trans habove hrank)

/-- The right operand of an `AND` may begin where the whole may. -/
theorem Admits.right_of_and (h : Admits awaited .and) (hrank : Binding.not.rank ≤ tight.rank) :
    Admits awaited tight :=
  h.tighten (Nat.le_trans (by decide) hrank)

/-- The right operand of an `OR` may begin where the whole may. -/
theorem Admits.right_of_or (h : Admits awaited .or) (hrank : Binding.and.rank ≤ tight.rank) :
    Admits awaited tight :=
  h.tighten (Nat.le_trans (by decide) hrank)

/-- After a whole phrase the same is awaited as before it. -/
theorem after_spells {phrase : Phrase} {tokens : List Token} (h : Spells phrase tokens)
    (hproper : AllProper tokens) (hadmits : Admits awaited phrase.binding) :
    afterTokens awaited tokens = awaited := by
  induction h generalizing awaited with
  | identifier | string | unclosedString | float | integer | boolean => rfl
  | group _ _ _ ih =>
      simp only [all_proper_append, all_proper_cons] at hproper
      simp only [List.cons_append, after_tokens_cons, after_tokens_append, hadmits.after_left_paren,
        ih hproper.1.2 (admits_right_paren _ _)]
      rfl
  | signed _ sign _ hrank ih =>
      rw [all_proper_cons] at hproper
      rw [after_tokens_cons, after_sign, ih hproper.2 (hadmits.tighten hrank)]
  | arithmetic op _ _ _ hleft hright ihLeft ihRight =>
      simp only [all_proper_append, all_proper_cons] at hproper
      rw [after_tokens_append, ihLeft hproper.1 (hadmits.tighten hleft), after_tokens_cons,
        after_arithmetic, ihRight hproper.2.2 (hadmits.right_of_arithmetic hright)]
  | comparison _ _ _ _ hleft hright ihLeft ihRight =>
      simp only [all_proper_append, all_proper_cons] at hproper
      rw [after_tokens_append, ihLeft hproper.1 (hadmits.operand hleft), after_tokens_cons]
      exact ihRight hproper.2.2 (hadmits.operand hright)
  | between _ _ _ hnegation _ _ hrank hlow hhigh ih ihLow ihHigh =>
      simp only [all_proper_append, all_proper_cons] at hproper
      obtain ⟨⟨⟨hos, -⟩, -, hls⟩, -, hhs⟩ := hproper
      rw [after_tokens_append, after_bound hnegation (ih hos (hadmits.operand hrank)) _
        (ihLow hls (admits_joint awaited hlow))]
      exact ihHigh hhs (hadmits.operand hhigh)
  | inList _ _ _ _ _ hnegation hitems hrank ih =>
      simp only [all_proper_append] at hproper
      simp only [after_tokens_append, after_tokens_cons, ih hproper.1.1.1 (hadmits.operand hrank),
        after_negation hnegation, after_items hitems]
      rfl
  | like _ _ _ hnegation hescape hrank ih =>
      simp only [all_proper_append] at hproper
      simp only [after_tokens_append, after_tokens_cons, ih hproper.1.1 (hadmits.operand hrank),
        after_negation hnegation]
      cases hescape <;> rfl
  | isNull _ _ _ hnegation hrank ih =>
      simp only [all_proper_append] at hproper
      simp only [after_tokens_append, after_tokens_cons, ih hproper.1.1 (hadmits.operand hrank),
        after_negation hnegation]
      rfl
  | cutShort =>
      simp only [all_proper_append, all_proper_cons] at hproper
      exact absurd rfl hproper.2.1.2.1
  | not _ _ hrank ih =>
      rw [all_proper_cons] at hproper
      exact ih hproper.2 (hadmits.tighten hrank)
  | and _ _ _ hleft hright ihLeft ihRight =>
      simp only [all_proper_append, all_proper_cons] at hproper
      rw [after_tokens_append, ihLeft hproper.1 (hadmits.tighten hleft), after_tokens_cons,
        hadmits.after_and]
      exact ihRight hproper.2.2 (hadmits.right_of_and hright)
  | or _ _ _ hleft hright ihLeft ihRight =>
      simp only [all_proper_append, all_proper_cons] at hproper
      rw [after_tokens_append, ihLeft hproper.1 (hadmits.tighten hleft), after_tokens_cons]
      exact ihRight hproper.2.2 (hadmits.right_of_or hright)

end Awaited

/-! ## Places among tokens -/

/-- A token of two runs is in the first or in the second. -/
theorem eq_append_of_append {ls ms before after : List Token} {token : Token}
    (h : ls ++ ms = before ++ token :: after) :
    (∃ rest, ls = before ++ token :: rest) ∨
      ∃ front, before = ls ++ front ∧ ms = front ++ token :: after := by
  rcases List.append_eq_append_iff.mp h with ⟨front, rfl, rfl⟩ | ⟨rest, rfl, hrest⟩
  · exact .inr ⟨front, rfl, rfl⟩
  · cases rest with
    | nil => exact .inr ⟨[], by simp, by simpa using hrest.symm⟩
    | cons first rest =>
        obtain ⟨rfl, -⟩ := List.cons.inj hrest
        exact .inl ⟨rest, rfl⟩

/-- A string literal that is not the first token is among the others. -/
theorem eq_append_of_cons {first token : Token} {ms before after : List Token} {contents : String}
    (h : first :: ms = before ++ token :: after) (hstring : token.lexeme = .string contents)
    (hne : first.lexeme ≠ .string contents) :
    ∃ front, before = first :: front ∧ ms = front ++ token :: after := by
  cases before with
  | nil =>
      obtain ⟨rfl, -⟩ := List.cons.inj h
      exact absurd hstring hne
  | cons _ front =>
      obtain ⟨rfl, rfl⟩ := List.cons.inj h
      exact ⟨front, rfl, rfl⟩

/-- A single token is there alone. -/
theorem eq_nil_of_singleton {first token : Token} {before after : List Token}
    (h : [first] = before ++ token :: after) : before = [] ∧ token = first := by
  cases before with
  | nil => exact ⟨rfl, (List.cons.inj h).1.symm⟩
  | cons _ front =>
      have hnil := (List.cons.inj h).2
      simp at hnil

/-- A string literal is in front of a joint or behind it. -/
theorem eq_append_of_joined {ls ms before after : List Token} {joint token : Token}
    {contents : String} (h : ls ++ joint :: ms = before ++ token :: after)
    (hstring : token.lexeme = .string contents) (hne : joint.lexeme ≠ .string contents) :
    (∃ rest, ls = before ++ token :: rest) ∨
      ∃ front, before = ls ++ joint :: front ∧ ms = front ++ token :: after := by
  refine (eq_append_of_append h).imp_right ?_
  rintro ⟨front, rfl, hfront⟩
  obtain ⟨front, rfl, rfl⟩ := eq_append_of_cons hfront hstring hne
  exact ⟨front, rfl, rfl⟩

/-- The last token is behind a joint, if anything is. -/
theorem eq_append_of_last (ls : List Token) {ms before : List Token} {joint token : Token}
    (h : ls ++ joint :: ms = before ++ [token]) (hne : 0 < ms.length) :
    ∃ front, before = ls ++ joint :: front ∧ ms = front ++ [token] := by
  rcases List.eq_nil_or_concat ms with rfl | ⟨front, last, rfl⟩
  · cases hne
  · rw [List.concat_eq_append, ← List.cons_append, ← List.append_assoc] at h
    obtain ⟨rfl, hlast⟩ := List.append_inj' h rfl
    exact ⟨front, rfl, by rw [List.concat_eq_append, hlast]⟩

/-! ## What is awaited where a phrase is cut short -/

/-- Nothing is awaited but the ends of lists. -/
def OnlyLists (awaited : List Awaited) : Prop :=
  ∀ first ∈ awaited, first = .listEnd

/-- Nothing awaited is no more than the ends of lists. -/
theorem only_lists_nil : OnlyLists [] :=
  List.forall_mem_nil _

/-- What the tokens come to await, over what was awaited before them, is such. -/
def Leaves (such : List Awaited → Prop) (awaited : List Awaited) (before : List Token) : Prop :=
  ∃ new, Awaited.afterTokens awaited before = new ++ awaited ∧ such new

variable {such : List Awaited → Prop} {awaited : List Awaited} {ls ms before : List Token}

/-- Tokens that leave what is awaited may come first. -/
theorem Leaves.behind (h : Leaves such awaited before)
    (hls : Awaited.afterTokens awaited ls = awaited) : Leaves such awaited (ls ++ before) := by
  unfold Leaves
  rwa [Awaited.after_tokens_append, hls]

/-- What is awaited behind an operand and a joint. -/
theorem after_joint {middle last : List Awaited} (hls : Awaited.afterTokens awaited ls = middle)
    {joint : Token} (hjoint : Awaited.after middle joint.lexeme = last) (before : List Token) :
    Awaited.afterTokens awaited (ls ++ joint :: before) = Awaited.afterTokens last before := by
  rw [Awaited.after_tokens_append, hls, Awaited.after_tokens_cons, hjoint]

/-- An operand and a joint that leave what is awaited may come first. -/
theorem Leaves.joined (h : Leaves such awaited before) {middle : List Awaited}
    (hls : Awaited.afterTokens awaited ls = middle) {joint : Token}
    (hjoint : Awaited.after middle joint.lexeme = awaited) :
    Leaves such awaited (ls ++ joint :: before) := by
  unfold Leaves
  rwa [after_joint hls hjoint]

/-- Inside something that has to be closed, that is awaited too. -/
theorem Leaves.inside {first : Awaited} (h : Leaves such (first :: awaited) before)
    {middle : List Awaited} (hls : Awaited.afterTokens awaited ls = middle) {joint : Token}
    (hjoint : Awaited.after middle joint.lexeme = first :: awaited) (hne : first ≠ .listEnd) :
    Leaves (¬ OnlyLists ·) awaited (ls ++ joint :: before) := by
  obtain ⟨new, hnew, -⟩ := h
  refine ⟨new ++ [first], ?_, fun honly => hne (honly first (by simp))⟩
  rw [after_joint hls hjoint, hnew, List.append_assoc, List.singleton_append]

/-- An opening of a list or pattern test awaits at most the end of a list. -/
theorem leaves_of_opening {opening : List Token} (h : SpellsOpening opening)
    (awaited : List Awaited) : Leaves OnlyLists awaited opening := by
  cases h with
  | inList _ _ hnegation hitems =>
      refine Leaves.behind ⟨[.listEnd], ?_, ?_⟩ (Awaited.after_negation hnegation awaited)
      · exact Awaited.after_items hitems _
      · exact List.forall_mem_singleton.mpr rfl
  | pattern _ hnegation | escape _ _ _ hnegation =>
      exact Leaves.behind ⟨[], rfl, only_lists_nil⟩ (Awaited.after_negation hnegation awaited)

/-- Where a phrase ends with a string literal that is not closed, at most the end of a list is
awaited. -/
theorem leaves_of_spells {phrase : Phrase} {tokens : List Token} (h : Spells phrase tokens)
    {unclosed : Span} (hlast : tokens = before ++ [⟨.unclosedString, unclosed⟩])
    (hproper : AllProper before) (hadmits : Awaited.Admits awaited phrase.binding) :
    Leaves OnlyLists awaited before := by
  -- The open string is the last token, so it is in the last operand, and there is none in a phrase
  -- that ends with a token of its own.
  induction h generalizing before awaited with
  | unclosedString =>
      obtain rfl := (eq_nil_of_singleton hlast).1
      exact ⟨[], rfl, only_lists_nil⟩
  | identifier | string | float | integer | boolean => cases (eq_nil_of_singleton hlast).2
  | group | inList | isNull =>
      have hend := congrArg List.getLast? hlast
      simp [List.getLast?_cons, List.getLast?_append] at hend
  | like _ _ _ _ hescape =>
      have hend := congrArg List.getLast? hlast
      cases hescape <;>
        simp [List.getLast?_cons, List.getLast?_append, QuotedString.token] at hend
  | signed _ sign hspells hrank ih =>
      obtain ⟨front, rfl, hfront⟩ := eq_append_of_last [] hlast hspells.length_pos
      simp only [all_proper_append, all_proper_cons] at hproper
      exact (ih hfront hproper.2.2 (hadmits.tighten hrank)).joined rfl
        (Awaited.after_sign awaited sign)
  | not _ hspells hrank ih =>
      obtain ⟨front, rfl, hfront⟩ := eq_append_of_last [] hlast hspells.length_pos
      simp only [all_proper_append, all_proper_cons] at hproper
      exact (ih hfront hproper.2.2 (hadmits.tighten hrank)).joined rfl rfl
  | arithmetic op _ hl hr hleft hright _ ihRight =>
      obtain ⟨front, rfl, hfront⟩ := eq_append_of_last _ hlast hr.length_pos
      simp only [all_proper_append, all_proper_cons] at hproper
      exact (ihRight hfront hproper.2.2 (hadmits.right_of_arithmetic hright)).joined
        (Awaited.after_spells hl hproper.1 (hadmits.tighten hleft))
        (Awaited.after_arithmetic awaited op)
  | comparison _ _ hl hr hleft hright _ ihRight =>
      obtain ⟨front, rfl, hfront⟩ := eq_append_of_last _ hlast hr.length_pos
      simp only [all_proper_append, all_proper_cons] at hproper
      exact (ihRight hfront hproper.2.2 (hadmits.operand hright)).joined
        (Awaited.after_spells hl hproper.1 (hadmits.operand hleft)) rfl
  | between _ _ ho hnegation hl hh hrank hlow hhigh _ _ ihHigh =>
      obtain ⟨front, rfl, hfront⟩ := eq_append_of_last _ hlast hh.length_pos
      simp only [all_proper_append, all_proper_cons] at hproper
      obtain ⟨⟨⟨hos, -⟩, -, hls⟩, -, hfront'⟩ := hproper
      have hoperand := Awaited.after_spells ho hos (hadmits.operand hrank)
      have hbound := Awaited.after_spells hl hls (Awaited.admits_joint awaited hlow)
      exact (ihHigh hfront hfront' (hadmits.operand hhigh)).joined
        (Awaited.after_bound hnegation hoperand _ hbound) rfl
  | cutShort _ ho hopening hrank =>
      obtain ⟨rfl, -⟩ := List.append_inj' hlast rfl
      rw [all_proper_append] at hproper
      exact (leaves_of_opening hopening awaited).behind
        (Awaited.after_spells ho hproper.1 (hadmits.operand hrank))
  | and _ hl hr hleft hright _ ihRight =>
      obtain ⟨front, rfl, hfront⟩ := eq_append_of_last _ hlast hr.length_pos
      simp only [all_proper_append, all_proper_cons] at hproper
      exact (ihRight hfront hproper.2.2 (hadmits.right_of_and hright)).joined
        (Awaited.after_spells hl hproper.1 (hadmits.tighten hleft)) hadmits.after_and
  | or _ hl hr hleft hright _ ihRight =>
      obtain ⟨front, rfl, hfront⟩ := eq_append_of_last _ hlast hr.length_pos
      simp only [all_proper_append, all_proper_cons] at hproper
      exact (ihRight hfront hproper.2.2 (hadmits.right_of_or hright)).joined
        (Awaited.after_spells hl hproper.1 (hadmits.tighten hleft)) rfl

end MessageSelector
