import MessageSelector.Phrase.Grammar
import MessageSelector.Proofs.Readers
import MessageSelector.Proofs.Spelling

/-!
# What the smallest readers find

Keywords, signs, operators and literals are single tokens, so each of their readers is settled by
the token at the front. The readers of negations and escape clauses are settled by one or two.
-/

namespace MessageSelector.Phrase

open Reader

@[simp] theorem finds_keyword (word : Keyword) (part : Expectation) (tokens rest : List Token)
    (span : Span) :
    Finds (keyword word part) tokens span rest ↔ tokens = ⟨.keyword word, span⟩ :: rest := by
  rw [keyword, finds_expecting, finds_lexeme]

@[simp] theorem misses_keyword (word : Keyword) (part : Expectation) (next : Token)
    (rest : List Token) :
    Misses (keyword word part) (next :: rest) ↔ next.lexeme ≠ .keyword word := by
  rw [keyword, misses_expecting, misses_lexeme]

/-- A negation is spelled at the front, and no second one follows it. -/
theorem finds_negation {tokens rest : List Token} {negated : Bool}
    (h : Finds negation tokens negated rest) :
    ∃ ns, tokens = ns ++ rest ∧ SpellsNegation negated ns := by
  unfold negation at h
  simp only [finds_bind, finds_optional, finds_keyword, finds_pure] at h
  obtain ⟨_, _, ⟨span, rfl, rfl⟩ | ⟨rfl, _, rfl⟩, rfl, rfl⟩ := h
  · exact ⟨_, rfl, .negated span⟩
  · exact ⟨[], rfl, .plain⟩

/-- A spelled negation is found where something else than `NOT` follows it. -/
theorem negation_finds {negated : Bool} {ns : List Token} (h : SpellsNegation negated ns)
    {next : Token} (hnext : next.lexeme ≠ .keyword .not) (rest : List Token) :
    Finds negation (ns ++ next :: rest) negated (next :: rest) := by
  unfold negation
  simp only [finds_bind, finds_optional, finds_keyword, finds_pure]
  cases h with
  | plain => exact ⟨none, _, .inr ⟨rfl, by simpa using hnext, rfl⟩, rfl, rfl⟩
  | negated span => exact ⟨some span, _, .inl ⟨span, rfl, rfl⟩, rfl, rfl⟩

@[simp] theorem finds_quoted_string (tokens rest : List Token) (literal : QuotedString) :
    Finds quotedString tokens literal rest ↔ tokens = literal.token :: rest := by
  rw [quotedString, finds_expecting, finds_token]
  constructor
  · rintro ⟨⟨lexeme, span⟩, rfl, hnext⟩
    cases lexeme <;> cases hnext
    rfl
  · rintro rfl
    exact ⟨_, rfl, rfl⟩

@[simp] theorem misses_quoted_string (next : Token) (rest : List Token) :
    Misses quotedString (next :: rest) ↔ ∀ contents, next.lexeme ≠ .string contents := by
  rw [quotedString, misses_expecting, misses_token]
  cases next.lexeme <;> simp

@[simp] theorem finds_unclosed (tokens rest : List Token) (span : Span) :
    Finds unclosed tokens span rest ↔ tokens = ⟨.unclosedString, span⟩ :: rest := by
  rw [unclosed, finds_expecting, finds_lexeme]

@[simp] theorem misses_unclosed (next : Token) (rest : List Token) :
    Misses unclosed (next :: rest) ↔ next.lexeme ≠ .unclosedString := by
  rw [unclosed, misses_expecting, misses_lexeme]

theorem finds_float_literal (tokens rest : List Token) (phrase : Phrase) :
    Finds floatLiteral tokens phrase rest ↔
      ∃ span literal, tokens = ⟨.float literal, span⟩ :: rest ∧ phrase = .float span literal := by
  rw [floatLiteral, finds_expecting, finds_token]
  constructor
  · rintro ⟨⟨lexeme, span⟩, rfl, hnext⟩
    cases lexeme <;> cases hnext
    exact ⟨_, _, rfl, rfl⟩
  · rintro ⟨span, literal, rfl, rfl⟩
    exact ⟨_, rfl, rfl⟩

@[simp] theorem misses_float_literal (next : Token) (rest : List Token) :
    Misses floatLiteral (next :: rest) ↔ ∀ literal, next.lexeme ≠ .float literal := by
  rw [floatLiteral, misses_expecting, misses_token]
  cases next.lexeme <;> simp

theorem finds_integer_literal (tokens rest : List Token) (phrase : Phrase) :
    Finds integerLiteral tokens phrase rest ↔
      ∃ span literal, tokens = ⟨.integer literal, span⟩ :: rest ∧
        phrase = .integer span literal := by
  rw [integerLiteral, finds_expecting, finds_token]
  constructor
  · rintro ⟨⟨lexeme, span⟩, rfl, hnext⟩
    cases lexeme <;> cases hnext
    exact ⟨_, _, rfl, rfl⟩
  · rintro ⟨span, literal, rfl, rfl⟩
    exact ⟨_, rfl, rfl⟩

@[simp] theorem misses_integer_literal (next : Token) (rest : List Token) :
    Misses integerLiteral (next :: rest) ↔ ∀ literal, next.lexeme ≠ .integer literal := by
  rw [integerLiteral, misses_expecting, misses_token]
  cases next.lexeme <;> simp

theorem finds_boolean_literal (tokens rest : List Token) (phrase : Phrase) :
    Finds booleanLiteral tokens phrase rest ↔
      ∃ span flag, tokens = ⟨.boolean flag, span⟩ :: rest ∧ phrase = .boolean span flag := by
  rw [booleanLiteral, finds_expecting, finds_token]
  constructor
  · rintro ⟨⟨lexeme, span⟩, rfl, hnext⟩
    cases lexeme <;> cases hnext
    exact ⟨_, _, rfl, rfl⟩
  · rintro ⟨span, flag, rfl, rfl⟩
    exact ⟨_, rfl, rfl⟩

@[simp] theorem misses_boolean_literal (next : Token) (rest : List Token) :
    Misses booleanLiteral (next :: rest) ↔ ∀ flag, next.lexeme ≠ .boolean flag := by
  rw [booleanLiteral, misses_expecting, misses_token]
  cases next.lexeme <;> simp

theorem finds_identifier_word (tokens rest : List Token) (phrase : Phrase) :
    Finds identifierWord tokens phrase rest ↔
      ∃ span name, tokens = ⟨.identifier name, span⟩ :: rest ∧ phrase = .identifier span name := by
  rw [identifierWord, finds_expecting, finds_token]
  constructor
  · rintro ⟨⟨lexeme, span⟩, rfl, hnext⟩
    cases lexeme <;> cases hnext
    exact ⟨_, _, rfl, rfl⟩
  · rintro ⟨span, name, rfl, rfl⟩
    exact ⟨_, rfl, rfl⟩

/-! ## Operators -/

@[simp] theorem finds_sign (tokens rest : List Token) (mark : Span) (sign : Sign) :
    Finds Phrase.sign tokens (mark, sign) rest ↔ tokens = ⟨sign.lexeme, mark⟩ :: rest := by
  unfold Phrase.sign
  cases sign <;> cases tokens with
  | nil => simp
  | cons next tokens =>
      obtain ⟨lexeme, span⟩ := next
      cases lexeme <;> simp [Sign.lexeme]

@[simp] theorem misses_sign (next : Token) (rest : List Token) :
    Misses Phrase.sign (next :: rest) ↔ next.lexeme ≠ .plus ∧ next.lexeme ≠ .minus := by
  unfold Phrase.sign
  simp

theorem finds_additive (tokens rest : List Token) (op : Arithmetic) :
    Finds additive tokens op rest ↔
      ∃ span, tokens = ⟨op.lexeme, span⟩ :: rest ∧ op.isMultiplicative = false := by
  unfold additive
  cases op <;> cases tokens with
  | nil => simp
  | cons next tokens =>
      obtain ⟨lexeme, span⟩ := next
      cases lexeme <;> simp [Arithmetic.lexeme, Arithmetic.isMultiplicative]

@[simp] theorem misses_additive (next : Token) (rest : List Token) :
    Misses additive (next :: rest) ↔ next.lexeme ≠ .plus ∧ next.lexeme ≠ .minus := by
  unfold additive
  simp

theorem finds_multiplicative (tokens rest : List Token) (op : Arithmetic) :
    Finds multiplicative tokens op rest ↔
      ∃ span, tokens = ⟨op.lexeme, span⟩ :: rest ∧ op.isMultiplicative = true := by
  unfold multiplicative
  cases op <;> cases tokens with
  | nil => simp
  | cons next tokens =>
      obtain ⟨lexeme, span⟩ := next
      cases lexeme <;> simp [Arithmetic.lexeme, Arithmetic.isMultiplicative]

@[simp] theorem misses_multiplicative (next : Token) (rest : List Token) :
    Misses multiplicative (next :: rest) ↔ next.lexeme ≠ .star ∧ next.lexeme ≠ .slash := by
  unfold multiplicative
  simp

@[simp] theorem finds_comparison_operator (tokens rest : List Token) (op : Comparison) :
    Finds comparisonOperator tokens op rest ↔
      ∃ span, tokens = ⟨.comparison op, span⟩ :: rest := by
  rw [comparisonOperator, finds_expecting, finds_token]
  constructor
  · rintro ⟨⟨lexeme, span⟩, rfl, hnext⟩
    cases lexeme <;> cases hnext
    exact ⟨_, rfl⟩
  · rintro ⟨span, rfl⟩
    exact ⟨_, rfl, rfl⟩

@[simp] theorem misses_comparison_operator (next : Token) (rest : List Token) :
    Misses comparisonOperator (next :: rest) ↔ ∀ op, next.lexeme ≠ .comparison op := by
  rw [comparisonOperator, misses_expecting, misses_token]
  cases next.lexeme <;> simp

/-! ## Items and escape clauses -/

theorem finds_item_before_comma (tokens rest : List Token) (item : QuotedString) :
    Finds itemBeforeComma tokens item rest ↔
      ∃ comma, tokens = item.token :: ⟨.comma, comma⟩ :: rest := by
  unfold itemBeforeComma
  simp only [finds_bind, finds_quoted_string, finds_lexeme, finds_pure]
  constructor
  · rintro ⟨_, _, rfl, comma, _, rfl, rfl, rfl⟩
    exact ⟨comma, rfl⟩
  · rintro ⟨comma, rfl⟩
    exact ⟨item, _, rfl, comma, rest, rfl, rfl, rfl⟩

/-- Items read one after another are spelled with their commas. -/
theorem spells_items_of_repeats {tokens rest : List Token} {items : List QuotedString}
    (h : Repeats itemBeforeComma tokens items rest) :
    ∃ is, tokens = is ++ rest ∧ SpellsItems items is := by
  induction h with
  | nil tokens => exact ⟨[], rfl, .nil⟩
  | @cons _ item _ _ _ hitem _ ih =>
      obtain ⟨comma, rfl⟩ := (finds_item_before_comma _ _ _).mp hitem
      obtain ⟨is, rfl, his⟩ := ih
      exact ⟨_, rfl, .cons item comma his⟩

/-- Items spelled with their commas are read one after another. -/
theorem repeats_of_spells_items {items : List QuotedString} {is : List Token}
    (h : SpellsItems items is) (rest : List Token) :
    Repeats itemBeforeComma (is ++ rest) items rest := by
  induction h with
  | nil => exact .nil rest
  | cons item comma _ ih => exact .cons ((finds_item_before_comma _ _ _).mpr ⟨comma, rfl⟩) ih

/-- Items spelled with their commas are found as far as no further item with a comma follows. -/
theorem many_items_finds {items : List QuotedString} {is : List Token} (h : SpellsItems items is)
    {rest : List Token} (hmiss : Misses itemBeforeComma rest) :
    Finds (many itemBeforeComma) (is ++ rest) items rest := by
  refine (repeats_of_spells_items h rest).finds ?_ hmiss
  intro tokens item mid hitem
  obtain ⟨_, rfl⟩ := (finds_item_before_comma _ _ _).mp hitem
  simp only [List.length_cons]
  omega

@[simp] theorem misses_escape_clause (next : Token) (rest : List Token)
    (h : next.lexeme ≠ .keyword .escape) : Misses escapeClause (next :: rest) := by
  unfold escapeClause
  rw [misses_bind]
  exact .inl ((misses_keyword _ _ _ _).mpr h)

end MessageSelector.Phrase
