import MessageSelector.Proofs.Grammar.Soundness

/-!
# Readers find all that the grammar spells

`CompleteAt level phrase tokens` says that the reader of a level finds the phrase that the tokens
spell, whatever follows, and at a level of binary operators goes on from there with the rounds that
follow it. The rounds are what makes the induction go through: the left operand of a chain is read
by the same loop as the chain itself. `complete_at_of_spells` is the induction over spellings, and
with `of_tokens_sound` it makes the grammar unambiguous.
-/

namespace MessageSelector.Phrase

open Reader
open MessageSelector.Expr (Binding)

/-- The reader of the phrases that bind at least as tightly as a level. -/
def readerAt (expression : Reader Phrase) : Binding → Reader Phrase
  | .or => disjunction expression
  | .and => conjunction expression
  | .not => negatedCondition expression
  | .condition => condition expression
  | .additive => sum expression
  | .multiplicative => product expression
  | .sign => signedPrimary expression
  | .primary => primary expression

/-- What the loop of a level makes of a phrase and the tokens after it. Only the levels of binary
operators have a loop. -/
def GoesOn (expression : Reader Phrase) :
    Binding → Phrase → List Token → Phrase → List Token → Prop
  | .or => Rounds (keyword .or .or) (conjunction expression) fun _ left right => .or left right
  | .and => Rounds (keyword .and .and) (negatedCondition expression)
      fun _ left right => .and left right
  | .additive => Rounds additive (product expression) .arithmetic
  | .multiplicative => Rounds multiplicative (signedPrimary expression) .arithmetic
  | _ => fun phrase tokens result rest => phrase = result ∧ tokens = rest

/-- The reader of a level finds what the loop of the level makes of a phrase, where the phrase
stands in front of the tokens that the loop begins with. -/
def CompleteAt (expression : Reader Phrase) (level : Binding) (phrase : Phrase)
    (tokens : List Token) : Prop :=
  ∀ following result rest, Stops level.tighter following →
    GoesOn expression level phrase following result rest → Stops level rest →
    Finds (readerAt expression level) (tokens ++ following) result rest

variable {expression : Reader Phrase}

/-- A loop may end at once. -/
theorem goes_on_refl (level : Binding) (phrase : Phrase) (tokens : List Token) :
    GoesOn expression level phrase tokens phrase tokens := by
  cases level with
  | or | and | additive | multiplicative => exact .done _ _
  | _ => exact ⟨rfl, rfl⟩

/-- A tighter binding has a higher rank, up to the tightest. -/
theorem rank_tighter {level : Binding} (h : level ≠ .primary) :
    level.tighter.rank = level.rank + 1 := by
  cases level <;> first | rfl | exact absurd rfl h

/-- A phrase alone is found where nothing continues it. -/
theorem CompleteAt.finds {level : Binding} {phrase : Phrase} {tokens rest : List Token}
    (h : CompleteAt expression level phrase tokens) (hstops : Stops level rest) :
    Finds (readerAt expression level) (tokens ++ rest) phrase rest := by
  refine h rest phrase rest (hstops.tighten ?_) (goes_on_refl level phrase rest) hstops
  cases level <;> decide

/-! ## From one level to the next -/

/-- No `OR` follows where a disjunction stops. -/
theorem misses_or {tokens : List Token} (h : Stops .or tokens) :
    Misses (keyword .or .or) tokens := by
  obtain ⟨next, rest, rfl, hnext⟩ :=
    h.head_ne (show (Lexeme.keyword .or).joins = some .or from rfl) (Nat.le_refl _)
  exact (misses_keyword _ _ _ _).mpr hnext

/-- No `AND` follows where a conjunction stops. -/
theorem misses_and {tokens : List Token} (h : Stops .and tokens) :
    Misses (keyword .and .and) tokens := by
  obtain ⟨next, rest, rfl, hnext⟩ :=
    h.head_ne (show (Lexeme.keyword .and).joins = some .and from rfl) (Nat.le_refl _)
  exact (misses_keyword _ _ _ _).mpr hnext

/-- No operator of sums follows where a sum stops. -/
theorem misses_additive_of_stops {tokens : List Token} (h : Stops .additive tokens) :
    Misses additive tokens := by
  obtain ⟨next, rest, rfl, hnext⟩ := h
  refine (misses_additive _ _).mpr ⟨?_, ?_⟩ <;> intro heq <;>
    exact absurd (hnext .additive (by rw [heq]; rfl)) (Nat.lt_irrefl _)

/-- No operator of products follows where a product stops. -/
theorem misses_multiplicative_of_stops {tokens : List Token} (h : Stops .multiplicative tokens) :
    Misses multiplicative tokens := by
  obtain ⟨next, rest, rfl, hnext⟩ := h
  refine (misses_multiplicative _ _).mpr ⟨?_, ?_⟩ <;> intro heq <;>
    exact absurd (hnext .multiplicative (by rw [heq]; rfl)) (Nat.lt_irrefl _)

variable {test : Reader Phrase} {operand : Phrase}

/-- A comparison begins with its operator. -/
theorem misses_comparison_test {next : Token} (h : ∀ op, next.lexeme ≠ .comparison op)
    (rest : List Token) : Misses (comparisonTest test operand) (next :: rest) := by
  unfold comparisonTest
  rw [misses_expecting, misses_bind]
  exact .inl ((misses_comparison_operator _ _).mpr h)

/-- A test that may be negated begins with its keyword, after `NOT` where it is negated. -/
theorem misses_after_negation {word : Keyword} {part : Expectation}
    {continued : Bool → Span → Reader Phrase} {negated : Bool} {ns : List Token} {next : Token}
    (hns : SpellsNegation negated ns) (hnot : next.lexeme ≠ .keyword .not)
    (hword : next.lexeme ≠ .keyword word) (rest : List Token) :
    Misses (negation >>= fun negated => keyword word part >>= continued negated)
      (ns ++ next :: rest) := by
  rw [misses_bind]
  refine .inr ⟨negated, next :: rest, negation_finds hns hnot rest, ?_⟩
  rw [misses_bind]
  exact .inl ((misses_keyword _ _ _ _).mpr hword)

/-- A presence test begins with its keyword. -/
theorem misses_null_test {next : Token} (h : next.lexeme ≠ .keyword .is) (rest : List Token) :
    Misses (nullTest operand) (next :: rest) := by
  unfold nullTest
  rw [misses_expecting, misses_bind]
  exact .inl ((misses_keyword _ _ _ _).mpr h)

/-- No test of any kind follows where a condition stops. -/
theorem misses_tests {tokens : List Token} (h : Stops .condition tokens) :
    Misses (comparisonTest test operand) tokens ∧ Misses (betweenTest test operand) tokens ∧
      Misses (inTest operand) tokens ∧ Misses (likeTest operand) tokens ∧
      Misses (nullTest operand) tokens := by
  obtain ⟨next, rest, rfl, hnext⟩ := h
  have hne (lexeme : Lexeme) (hjoins : lexeme.joins = some .condition) : next.lexeme ≠ lexeme := by
    rintro rfl
    exact absurd (hnext .condition hjoins) (Nat.lt_irrefl _)
  have hword {word : Keyword} {part : Expectation} {continued : Bool → Span → Reader Phrase}
      (hjoins : (Lexeme.keyword word).joins = some .condition) :
      Misses (negation >>= fun negated => keyword word part >>= continued negated)
        (next :: rest) :=
    misses_after_negation .plain (hne _ rfl) (hne _ hjoins) rest
  refine ⟨misses_comparison_test (fun op => hne _ rfl) rest, ?_, ?_, ?_,
    misses_null_test (hne _ rfl) rest⟩
  · unfold betweenTest
    rw [misses_expecting]
    exact hword rfl
  · unfold inTest
    rw [misses_expecting]
    exact hword rfl
  · unfold likeTest
    rw [misses_expecting]
    exact hword rfl

/-- What fits at the next tighter level fits at a level. -/
theorem CompleteAt.loosen_once {level : Binding} {phrase : Phrase} {tokens : List Token}
    (hspells : Spells phrase tokens) (hrank : level.tighter.rank ≤ phrase.binding.rank)
    (h : CompleteAt expression level.tighter phrase tokens) :
    CompleteAt expression level phrase tokens := by
  intro following result rest hfollowing hgoes hstops
  have hfinds := h.finds hfollowing
  cases level with
  | or => exact Rounds.finds hfinds hgoes (misses_or hstops)
  | and => exact Rounds.finds hfinds hgoes (misses_and hstops)
  | not =>
      obtain ⟨rfl, rfl⟩ := hgoes
      obtain ⟨next, ts, rfl, hnext⟩ := hspells.head_ne_not hrank
      exact hfinds.prefixed_operand ((misses_keyword _ _ _ _).mpr hnext)
  | condition =>
      obtain ⟨rfl, rfl⟩ := hgoes
      obtain ⟨hcomparison, hbetween, hin, hlike, hnull⟩ := misses_tests hstops
      change Finds (condition expression) _ _ _
      unfold condition
      rw [finds_expecting, finds_bind]
      refine ⟨phrase, following, hfinds, ?_⟩
      simp only [finds_or_else]
      exact .inr ⟨hcomparison, .inr ⟨hbetween, .inr ⟨hin, .inr ⟨hlike, .inr ⟨hnull,
        (finds_pure _ _ _ _).mpr ⟨rfl, rfl⟩⟩⟩⟩⟩⟩
  | additive =>
      change Finds (sum expression) _ _ _
      rw [sum, finds_expecting]
      exact Rounds.finds hfinds hgoes (misses_additive_of_stops hstops)
  | multiplicative => exact Rounds.finds hfinds hgoes (misses_multiplicative_of_stops hstops)
  | sign =>
      obtain ⟨rfl, rfl⟩ := hgoes
      have hprimary : phrase.binding = .primary := by
        cases hbinding : phrase.binding <;> rw [hbinding] at hrank <;>
          first | rfl | exact absurd hrank (by decide)
      obtain ⟨next, ts, rfl, hnext⟩ := hspells.head_ne_sign hprimary
      exact hfinds.prefixed_operand ((misses_sign _ _).mpr hnext)
  | primary =>
      obtain ⟨rfl, rfl⟩ := hgoes
      exact hfinds

/-- What is complete at the binding of a phrase is complete at every looser level. -/
theorem CompleteAt.loosen {level : Binding} {phrase : Phrase} {tokens : List Token}
    (hspells : Spells phrase tokens) (hrank : level.rank ≤ phrase.binding.rank)
    (h : CompleteAt expression phrase.binding phrase tokens) :
    CompleteAt expression level phrase tokens := by
  -- The levels in between are crossed one at a time, beginning with the tightest.
  obtain ⟨distance, hdistance⟩ := Nat.le.dest hrank
  induction distance generalizing level with
  | zero =>
      have hlevel : level = phrase.binding := by
        cases hbinding : phrase.binding <;> cases level <;> rw [hbinding] at hdistance <;>
          first | rfl | exact absurd hdistance (by decide)
      rwa [hlevel]
  | succ distance ih =>
      have hprimary : level ≠ .primary := by
        rintro rfl
        cases hbinding : phrase.binding <;> rw [hbinding] at hdistance <;>
          simp [Binding.rank] at hdistance <;> omega
      have htighter := rank_tighter hprimary
      exact loosen_once hspells (by omega) (ih (by omega) (by omega))

/-! ## One rule of the grammar at a time -/

/-- One more operand to the right of a binary operator is one more round of its level. -/
theorem CompleteAt.round {β : Type} {operator : Reader β} {group : β → Phrase → Phrase → Phrase}
    {level : Binding} {op : β} {token : Token} {left right : Phrase} {ls rs : List Token}
    (hloop : GoesOn expression level =
      Rounds operator (readerAt expression level.tighter) group)
    (hoperator : ∀ rest, Finds operator (token :: rest) op rest)
    (hjoins : token.lexeme.joins = some level) (hlevel : level.rank < level.tighter.rank)
    (hleft : CompleteAt expression level left ls)
    (hright : CompleteAt expression level.tighter right rs) :
    CompleteAt expression level (group op left right) (ls ++ token :: rs) := by
  intro following result rest hfollowing hgoes hstops
  rw [List.append_assoc, List.cons_append]
  -- The left operand goes on with this round, and then with those that follow the whole.
  refine hleft _ result rest (stops_of_joins hjoins hlevel _) ?_ hstops
  rw [hloop] at hgoes ⊢
  refine .round (hoperator _) (hright.finds hfollowing) ?_ hgoes
  simp only [List.length_cons, List.length_append]
  omega

/-- An operand of arithmetic is read at the level of its operator. -/
theorem arithmetic_complete (op : Arithmetic) (span : Span) {left right : Phrase}
    {ls rs : List Token} (hleft : CompleteAt expression (.ofArithmetic op) left ls)
    (hright : CompleteAt expression (.aboveArithmetic op) right rs) :
    CompleteAt expression (.ofArithmetic op) (.arithmetic op left right)
      (ls ++ ⟨op.lexeme, span⟩ :: rs) := by
  cases op with
  | add | subtract =>
      refine CompleteAt.round rfl ?_ rfl (by decide) hleft hright
      exact fun rest => (finds_additive _ _ _).mpr ⟨span, rfl, rfl⟩
  | multiply | divide =>
      refine CompleteAt.round rfl ?_ rfl (by decide) hleft hright
      exact fun rest => (finds_multiplicative _ _ _).mpr ⟨span, rfl, rfl⟩

/-- A sum with a test after it is a condition. -/
theorem condition_finds {operand phrase : Phrase} {os mid rest : List Token}
    (hoperand : CompleteAt expression .additive operand os) (hmid : Stops .additive mid)
    (htest : Finds (comparisonTest (Phrase.sum expression) operand <|>
      betweenTest (Phrase.sum expression) operand <|> inTest operand <|> likeTest operand <|>
      nullTest operand <|> Pure.pure operand) mid phrase rest) :
    Finds (condition expression) (os ++ mid) phrase rest := by
  unfold condition
  rw [finds_expecting, finds_bind]
  exact ⟨operand, mid, hoperand.finds hmid, htest⟩

/-- A comparison is found whole, and no test follows it. -/
theorem comparison_complete (op : Comparison) (span : Span) {left right : Phrase}
    {ls rs : List Token} (hleft : CompleteAt expression .additive left ls)
    (hright : CompleteAt expression .additive right rs) :
    CompleteAt expression .condition (.comparison op left right)
      (ls ++ ⟨.comparison op, span⟩ :: rs) := by
  rintro following _ _ hfollowing ⟨rfl, rfl⟩ hstops
  rw [List.append_assoc, List.cons_append]
  refine condition_finds hleft (stops_of_joins rfl (by decide) _) ?_
  rw [finds_or_else]
  refine .inl ?_
  unfold comparisonTest
  simp only [finds_expecting, finds_bind, finds_comparison_operator]
  exact ⟨op, _, ⟨span, rfl⟩, right, following, hright.finds hfollowing,
    (finds_pure _ _ _ _).mpr ⟨rfl, rfl⟩⟩

variable {negated : Bool} {os ns : List Token}

/-- A test that may be negated stops the sum in front of it. -/
theorem stops_of_negation (hns : SpellsNegation negated ns) {next : Token}
    (hjoins : next.lexeme.joins = some .condition) (rest : List Token) :
    Stops .additive (ns ++ next :: rest) := by
  cases hns with
  | plain => exact stops_of_joins hjoins (by decide) _
  | negated span => exact stops_of_joins rfl (by decide) _

/-- A test that may be negated is no comparison. -/
theorem misses_comparison_of_negation (hns : SpellsNegation negated ns) {next : Token}
    (h : ∀ op, next.lexeme ≠ .comparison op) (rest : List Token) :
    Misses (comparisonTest test operand) (ns ++ next :: rest) := by
  cases hns with
  | plain => exact misses_comparison_test h rest
  | negated span => exact misses_comparison_test (by simp) _

/-- A range test is found whole. Its `AND` stops the sum in front of it. -/
theorem between_complete (word joint : Span) {low high : Phrase} {ls hs : List Token}
    (hns : SpellsNegation negated ns) (hoperand : CompleteAt expression .additive operand os)
    (hlow : CompleteAt expression .additive low ls)
    (hhigh : CompleteAt expression .additive high hs) :
    CompleteAt expression .condition (.between operand low high negated)
      (os ++ ns ++ ⟨.keyword .between, word⟩ :: ls ++ ⟨.keyword .and, joint⟩ :: hs) := by
  rintro following _ _ hfollowing ⟨rfl, rfl⟩ hstops
  simp only [List.append_assoc, List.cons_append]
  refine condition_finds hoperand (stops_of_negation hns rfl _) ?_
  rw [finds_or_else]
  refine .inr ⟨misses_comparison_of_negation hns (by simp) _, ?_⟩
  rw [finds_or_else]
  refine .inl ?_
  unfold betweenTest
  simp only [finds_expecting, finds_bind, finds_keyword]
  exact ⟨negated, _, negation_finds hns (by simp) _, word, _, rfl, low, _,
    hlow.finds (stops_of_joins rfl (by decide) _), joint, _, rfl, high, following,
    hhigh.finds hfollowing, (finds_pure _ _ _ _).mpr ⟨rfl, rfl⟩⟩

/-- A list test is tried after the comparison and the range test. -/
theorem tests_finds_in {phrase : Phrase} {next : Token} {rest mid : List Token}
    (hns : SpellsNegation negated ns) (hnext : next.lexeme = .keyword .inside)
    (h : Finds (inTest operand) (ns ++ next :: mid) phrase rest) :
    Finds (comparisonTest test operand <|> betweenTest test operand <|> inTest operand <|>
      likeTest operand <|> nullTest operand <|> Pure.pure operand) (ns ++ next :: mid)
      phrase rest := by
  have hbetween : Misses (betweenTest test operand) (ns ++ next :: mid) := by
    unfold betweenTest
    rw [misses_expecting]
    exact misses_after_negation hns (by simp [hnext]) (by simp [hnext]) mid
  simp only [finds_or_else]
  exact .inr ⟨misses_comparison_of_negation hns (by simp [hnext]) _, .inr ⟨hbetween, .inl h⟩⟩

/-- A pattern test is tried after the comparison, the range test and the list test. -/
theorem tests_finds_like {phrase : Phrase} {next : Token} {rest mid : List Token}
    (hns : SpellsNegation negated ns) (hnext : next.lexeme = .keyword .like)
    (h : Finds (likeTest operand) (ns ++ next :: mid) phrase rest) :
    Finds (comparisonTest test operand <|> betweenTest test operand <|> inTest operand <|>
      likeTest operand <|> nullTest operand <|> Pure.pure operand) (ns ++ next :: mid)
      phrase rest := by
  have hbetween : Misses (betweenTest test operand) (ns ++ next :: mid) := by
    unfold betweenTest
    rw [misses_expecting]
    exact misses_after_negation hns (by simp [hnext]) (by simp [hnext]) mid
  have hin : Misses (inTest operand) (ns ++ next :: mid) := by
    unfold inTest
    rw [misses_expecting]
    exact misses_after_negation hns (by simp [hnext]) (by simp [hnext]) mid
  simp only [finds_or_else]
  exact .inr ⟨misses_comparison_of_negation hns (by simp [hnext]) _,
    .inr ⟨hbetween, .inr ⟨hin, .inl h⟩⟩⟩

/-- A list test is found whole. Its last item has no comma after it. -/
theorem in_list_complete (inside leftParen rightParen : Span) (item : QuotedString)
    {items : List QuotedString} {is : List Token} (hns : SpellsNegation negated ns)
    (his : SpellsItems items is) (hoperand : CompleteAt expression .additive operand os) :
    CompleteAt expression .condition (.inList operand (items ++ [item]) rightParen negated)
      (os ++ ns ++ ⟨.keyword .inside, inside⟩ :: ⟨.leftParen, leftParen⟩ :: is ++
        [item.token, ⟨.rightParen, rightParen⟩]) := by
  rintro following _ _ hfollowing ⟨rfl, rfl⟩ hstops
  simp only [List.append_assoc, List.cons_append, List.nil_append]
  refine condition_finds hoperand (stops_of_negation hns rfl _) (tests_finds_in hns rfl ?_)
  have hmiss : Misses itemBeforeComma (item.token :: ⟨.rightParen, rightParen⟩ :: following) := by
    unfold itemBeforeComma
    rw [misses_bind]
    refine .inr ⟨item, _, (finds_quoted_string _ _ _).mpr rfl, ?_⟩
    rw [misses_bind]
    exact .inl ((misses_lexeme _ _ _).mpr (by simp))
  unfold inTest
  simp only [finds_expecting, finds_bind, finds_or_else, finds_keyword, finds_lexeme]
  refine ⟨negated, _, negation_finds hns (by simp) _, inside, _, rfl, leftParen, _, rfl, items, _,
    many_items_finds his hmiss, .inr ⟨?_, item, _, (finds_quoted_string _ _ _).mpr rfl,
      rightParen, following, rfl, (finds_pure _ _ _ _).mpr ⟨rfl, rfl⟩⟩⟩
  rw [misses_bind]
  exact .inl ((misses_unclosed _ _).mpr (by simp [QuotedString.token]))

/-- What opens a list before an unclosed item is cut short there. -/
theorem list_cut_short_finds (inside leftParen unclosed : Span) {items : List QuotedString}
    {is : List Token} (hns : SpellsNegation negated ns) (his : SpellsItems items is)
    (rest : List Token) :
    Finds (inTest operand)
      (ns ++ ⟨.keyword .inside, inside⟩ :: ⟨.leftParen, leftParen⟩ :: (is ++
        ⟨.unclosedString, unclosed⟩ :: rest)) (.cutShort operand unclosed) rest := by
  have hmiss : Misses itemBeforeComma (⟨.unclosedString, unclosed⟩ :: rest) := by
    unfold itemBeforeComma
    rw [misses_bind]
    exact .inl ((misses_quoted_string _ _).mpr (by simp))
  unfold inTest
  simp only [finds_expecting, finds_bind, finds_or_else, finds_keyword, finds_lexeme]
  exact ⟨negated, _, negation_finds hns (by simp) _, inside, _, rfl, leftParen, _, rfl, items, _,
    many_items_finds his hmiss, .inl ⟨unclosed, rest, (finds_unclosed _ _ _).mpr rfl,
      (finds_pure _ _ _ _).mpr ⟨rfl, rfl⟩⟩⟩

/-- A pattern test is read up to its pattern, and what is read of the clause after it decides. -/
theorem like_test_finds (word : Span) (pattern : QuotedString) {mid rest : List Token}
    {clause : Option (Span ⊕ QuotedString)} {phrase : Phrase}
    (hns : SpellsNegation negated ns) (hclause : Finds (optional escapeClause) mid clause rest)
    (hphrase : phrase = match clause with
      | none => .like operand pattern none negated
      | some (.inl span) => .cutShort operand span
      | some (.inr escape) => .like operand pattern (some escape) negated) :
    Finds (likeTest operand) (ns ++ ⟨.keyword .like, word⟩ :: pattern.token :: mid)
      phrase rest := by
  have hmiss : Misses (unclosed >>= fun span => Pure.pure (Phrase.cutShort operand span))
      (pattern.token :: mid) := by
    rw [misses_bind]
    exact .inl ((misses_unclosed _ _).mpr (by simp [QuotedString.token]))
  unfold likeTest
  simp only [finds_expecting, finds_bind, finds_or_else, finds_keyword]
  refine ⟨negated, _, negation_finds hns (by simp) _, word, _, rfl, .inr ⟨hmiss, pattern, mid,
    (finds_quoted_string _ _ _).mpr rfl, clause, rest, hclause, ?_⟩⟩
  subst hphrase
  rcases clause with _ | _ | _ <;> exact (finds_pure _ _ _ _).mpr ⟨rfl, rfl⟩

/-- An escape clause is read when it is spelled, and none where a condition stops. -/
theorem escape_clause_finds {escape : Option QuotedString} {es rest : List Token}
    (hes : SpellsEscape escape es) (hstops : Stops .condition rest) :
    Finds (optional escapeClause) (es ++ rest) (escape.map .inr) rest := by
  rw [finds_optional]
  cases hes with
  | absent =>
      obtain ⟨next, rest, rfl, hnext⟩ :=
        hstops.head_ne (show (Lexeme.keyword .escape).joins = some .condition from rfl)
          (Nat.le_refl _)
      exact .inr ⟨rfl, misses_escape_clause _ _ hnext, rfl⟩
  | present mark escape =>
      have hmiss : Misses (unclosed >>= fun span => Pure.pure (Sum.inl (β := QuotedString) span))
          (escape.token :: rest) := by
        rw [misses_bind]
        exact .inl ((misses_unclosed _ _).mpr (by simp [QuotedString.token]))
      refine .inl ⟨_, rfl, ?_⟩
      unfold escapeClause
      simp only [finds_bind, finds_or_else, finds_keyword]
      exact ⟨mark, _, rfl, .inr ⟨hmiss, escape, rest, (finds_quoted_string _ _ _).mpr rfl,
        (finds_pure _ _ _ _).mpr ⟨rfl, rfl⟩⟩⟩

/-- A pattern test is found whole, with the escape clause if it has one. -/
theorem like_complete (word : Span) (pattern : QuotedString) {escape : Option QuotedString}
    {es : List Token} (hns : SpellsNegation negated ns) (hes : SpellsEscape escape es)
    (hoperand : CompleteAt expression .additive operand os) :
    CompleteAt expression .condition (.like operand pattern escape negated)
      (os ++ ns ++ ⟨.keyword .like, word⟩ :: pattern.token :: es) := by
  rintro following _ _ hfollowing ⟨rfl, rfl⟩ hstops
  simp only [List.append_assoc, List.cons_append]
  refine condition_finds hoperand (stops_of_negation hns rfl _) (tests_finds_like hns rfl ?_)
  refine like_test_finds word pattern hns (escape_clause_finds hes hstops) ?_
  cases escape <;> rfl

/-- A presence test is found whole, after every other test has missed its keyword. -/
theorem is_null_complete (word nullKeyword : Span) (hns : SpellsNegation negated ns)
    (hoperand : CompleteAt expression .additive operand os) :
    CompleteAt expression .condition (.isNull operand nullKeyword negated)
      (os ++ ⟨.keyword .is, word⟩ :: ns ++ [⟨.keyword .null, nullKeyword⟩]) := by
  rintro following _ _ hfollowing ⟨rfl, rfl⟩ hstops
  simp only [List.append_assoc, List.cons_append, List.nil_append]
  have hmiss {word : Keyword} {part : Expectation} {continued : Bool → Span → Reader Phrase}
      (hne : word ≠ .is) (start : Span) (rest : List Token) :
      Misses (negation >>= fun negated => keyword word part >>= continued negated)
        (⟨.keyword .is, start⟩ :: rest) :=
    misses_after_negation .plain (by simp) (by simpa using hne.symm) rest
  refine condition_finds hoperand (stops_of_joins rfl (by decide) _) ?_
  simp only [finds_or_else]
  refine .inr ⟨misses_comparison_test (by simp) _, .inr ⟨?_, .inr ⟨?_, .inr ⟨?_, .inl ?_⟩⟩⟩⟩
  · unfold betweenTest
    rw [misses_expecting]
    exact hmiss (by decide) word _
  · unfold inTest
    rw [misses_expecting]
    exact hmiss (by decide) word _
  · unfold likeTest
    rw [misses_expecting]
    exact hmiss (by decide) word _
  · unfold nullTest
    simp only [finds_expecting, finds_bind, finds_keyword]
    exact ⟨word, _, rfl, negated, _, negation_finds hns (by simp) _, nullKeyword, following, rfl,
      (finds_pure _ _ _ _).mpr ⟨rfl, rfl⟩⟩

/-- A condition ends at a string literal that is not closed. -/
theorem cut_short_complete (unclosed : Span) {opening : List Token}
    (hopening : SpellsOpening opening) (hoperand : CompleteAt expression .additive operand os) :
    CompleteAt expression .condition (.cutShort operand unclosed)
      (os ++ opening ++ [⟨.unclosedString, unclosed⟩]) := by
  rintro following _ _ hfollowing ⟨rfl, rfl⟩ hstops
  cases hopening with
  | inList inside leftParen hns his =>
      simp only [List.append_assoc, List.cons_append, List.nil_append]
      refine condition_finds hoperand (stops_of_negation hns rfl _) (tests_finds_in hns rfl ?_)
      exact list_cut_short_finds inside leftParen unclosed hns his following
  | @pattern word negated ns hns =>
      simp only [List.append_assoc, List.cons_append, List.nil_append]
      refine condition_finds hoperand (stops_of_negation hns rfl _) (tests_finds_like hns rfl ?_)
      unfold likeTest
      simp only [finds_expecting, finds_bind, finds_or_else, finds_keyword]
      exact ⟨negated, _, negation_finds hns (by simp) _, word, _, rfl, .inl ⟨unclosed, following,
        (finds_unclosed _ _ _).mpr rfl, (finds_pure _ _ _ _).mpr ⟨rfl, rfl⟩⟩⟩
  | escape word literal mark hns =>
      simp only [List.append_assoc, List.cons_append, List.nil_append]
      refine condition_finds hoperand (stops_of_negation hns rfl _) (tests_finds_like hns rfl ?_)
      have hclause : Finds (optional escapeClause)
          (⟨.keyword .escape, mark⟩ :: ⟨.unclosedString, unclosed⟩ :: following)
          (some (.inl unclosed)) following := by
        refine (finds_optional _ _ _ _).mpr (.inl ⟨_, rfl, ?_⟩)
        unfold escapeClause
        simp only [finds_bind, finds_or_else, finds_keyword]
        exact ⟨mark, _, rfl, .inl ⟨unclosed, following, (finds_unclosed _ _ _).mpr rfl,
          (finds_pure _ _ _ _).mpr ⟨rfl, rfl⟩⟩⟩
      exact like_test_finds word literal hns hclause rfl

/-- One more `NOT` in front is taken with the rest. -/
theorem not_complete (word : Span) (hoperand : CompleteAt expression .not operand os) :
    CompleteAt expression .not (.not word operand) (⟨.keyword .not, word⟩ :: os) := by
  rintro following _ _ hfollowing ⟨rfl, rfl⟩ hstops
  refine Finds.prefixed_wrap ?_ ((finds_keyword _ _ _ _ _).mpr rfl) (hoperand.finds hstops)
  rintro _ _ mid hop
  obtain rfl := (finds_keyword _ _ _ _ _).mp hop
  exact Nat.lt_succ_self _

/-- One more sign in front is taken with the rest. -/
theorem signed_complete (mark : Span) (sign : Sign)
    (hoperand : CompleteAt expression .sign operand os) :
    CompleteAt expression .sign (.signed mark sign operand) (⟨sign.lexeme, mark⟩ :: os) := by
  rintro following _ _ hfollowing ⟨rfl, rfl⟩ hstops
  refine Finds.prefixed_wrap ?_ ((finds_sign _ _ mark sign).mpr rfl) (hoperand.finds hstops)
  rintro _ ⟨mark, sign⟩ mid hop
  obtain rfl := (finds_sign _ _ _ _).mp hop
  exact Nat.lt_succ_self _

/-- An expression in parentheses begins with one. -/
theorem misses_parenthesized {next : Token} (h : next.lexeme ≠ .leftParen) (rest : List Token) :
    Misses (parenthesized expression) (next :: rest) := by
  unfold parenthesized
  rw [misses_bind]
  exact .inl ((misses_lexeme _ _ _).mpr h)

/-- An expression in parentheses is read by the reader inside them. -/
theorem group_complete (leftParen rightParen : Span) {inner : Phrase} {is : List Token}
    (hinner : ∀ rest, Stops .or rest → Finds expression (is ++ rest) inner rest) :
    CompleteAt expression .primary (.group leftParen inner rightParen)
      (⟨.leftParen, leftParen⟩ :: is ++ [⟨.rightParen, rightParen⟩]) := by
  rintro following _ _ hfollowing ⟨rfl, rfl⟩ hstops
  simp only [List.append_assoc, List.cons_append, List.nil_append]
  change Finds (primary expression) _ _ _
  unfold primary
  rw [finds_or_else]
  refine .inl ?_
  unfold parenthesized
  simp only [finds_bind, finds_lexeme]
  exact ⟨leftParen, _, rfl, inner, _, hinner _ (stops_of_joins_none rfl _ _), rightParen, following,
    rfl, (finds_pure _ _ _ _).mpr ⟨rfl, rfl⟩⟩

/-- A primary that is a single token is found at the front. -/
theorem single_token_complete {phrase : Phrase} {next : Token} (h : next.lexeme ≠ .leftParen)
    (hleaf : ∀ rest, Finds ((do return .string (← quotedString)) <|>
      (do return .unclosedString (← unclosed)) <|> floatLiteral <|> integerLiteral <|>
      booleanLiteral <|> identifierWord) (next :: rest) phrase rest) :
    CompleteAt expression .primary phrase [next] := by
  rintro following _ _ hfollowing ⟨rfl, rfl⟩ hstops
  change Finds (primary expression) _ _ _
  unfold primary
  rw [finds_or_else]
  exact .inr ⟨misses_parenthesized h _, hleaf following⟩

/-! ## All spellings -/

/-- Every spelling is found at the level of its phrase, where the reader inside parentheses finds
all that is shorter. -/
theorem complete_at_of_spells {phrase : Phrase} {tokens : List Token} (h : Spells phrase tokens)
    {bound : Nat} (hbound : tokens.length ≤ bound)
    (hexpression : ∀ inner is rest, Spells inner is → is.length < bound → Stops .or rest →
      Finds expression (is ++ rest) inner rest) :
    CompleteAt expression phrase.binding phrase tokens := by
  induction h with
  | identifier | string | unclosedString | float | integer | boolean =>
      refine single_token_complete (by simp [QuotedString.token]) fun rest => ?_
      simp [finds_or_else, finds_float_literal, finds_integer_literal, finds_boolean_literal,
        finds_identifier_word, QuotedString.token]
  | group leftParen rightParen hinner =>
      simp only [List.length_append, List.length_cons] at hbound
      exact group_complete leftParen rightParen fun rest hstops =>
        hexpression _ _ rest hinner (by omega) hstops
  | signed mark sign hoperand hrank ih =>
      simp only [List.length_cons] at hbound
      exact signed_complete mark sign ((ih (by omega)).loosen hoperand hrank)
  | arithmetic op span hleft hright hleftRank hrightRank ihLeft ihRight =>
      simp only [List.length_append, List.length_cons] at hbound
      exact arithmetic_complete op span ((ihLeft (by omega)).loosen hleft hleftRank)
        ((ihRight (by omega)).loosen hright hrightRank)
  | comparison op span hleft hright hleftRank hrightRank ihLeft ihRight =>
      simp only [List.length_append, List.length_cons] at hbound
      exact comparison_complete op span ((ihLeft (by omega)).loosen hleft hleftRank)
        ((ihRight (by omega)).loosen hright hrightRank)
  | between word joint hoperand hns hlow hhigh hrank hlowRank hhighRank ih ihLow ihHigh =>
      simp only [List.length_append, List.length_cons] at hbound
      exact between_complete word joint hns ((ih (by omega)).loosen hoperand hrank)
        ((ihLow (by omega)).loosen hlow hlowRank) ((ihHigh (by omega)).loosen hhigh hhighRank)
  | inList inside leftParen rightParen item hoperand hns his hrank ih =>
      simp only [List.length_append, List.length_cons] at hbound
      exact in_list_complete inside leftParen rightParen item hns his
        ((ih (by omega)).loosen hoperand hrank)
  | like word pattern hoperand hns hes hrank ih =>
      simp only [List.length_append, List.length_cons] at hbound
      exact like_complete word pattern hns hes ((ih (by omega)).loosen hoperand hrank)
  | isNull word nullKeyword hoperand hns hrank ih =>
      simp only [List.length_append, List.length_cons] at hbound
      exact is_null_complete word nullKeyword hns ((ih (by omega)).loosen hoperand hrank)
  | cutShort unclosed hoperand hopening hrank ih =>
      simp only [List.length_append] at hbound
      exact cut_short_complete unclosed hopening ((ih (by omega)).loosen hoperand hrank)
  | not word hoperand hrank ih =>
      simp only [List.length_cons] at hbound
      exact not_complete word ((ih (by omega)).loosen hoperand hrank)
  | and word hleft hright hleftRank hrightRank ihLeft ihRight =>
      simp only [List.length_append, List.length_cons] at hbound
      exact CompleteAt.round rfl (fun rest => (finds_keyword _ _ _ _ _).mpr rfl) rfl (by decide)
        ((ihLeft (by omega)).loosen hleft hleftRank) ((ihRight (by omega)).loosen hright hrightRank)
  | or word hleft hright hleftRank hrightRank ihLeft ihRight =>
      simp only [List.length_append, List.length_cons] at hbound
      exact CompleteAt.round rfl (fun rest => (finds_keyword _ _ _ _ _).mpr rfl) rfl (by decide)
        ((ihLeft (by omega)).loosen hleft hleftRank) ((ihRight (by omega)).loosen hright hrightRank)

/-- An expression with clock enough is found where nothing continues it. -/
theorem expression_within_complete {clock : List Token} {phrase : Phrase} {tokens rest : List Token}
    (h : Spells phrase tokens) (hclock : tokens.length ≤ clock.length) (hstops : Stops .or rest) :
    Finds (expressionWithin clock) (tokens ++ rest) phrase rest := by
  induction clock generalizing phrase tokens rest with
  | nil =>
      have hpos := h.length_pos
      simp only [List.length_nil] at hclock
      omega
  | cons _ clock ih =>
      simp only [List.length_cons] at hclock
      change Finds (expecting .expression (disjunction (expressionWithin clock))) _ _ _
      rw [finds_expecting]
      -- What stands in parentheses is shorter, so one step less of the clock is enough for it.
      have hcomplete : CompleteAt (expressionWithin clock) phrase.binding phrase tokens :=
        complete_at_of_spells h hclock fun _ _ _ hinner hlength hstops =>
          ih hinner (by omega) hstops
      have hloose : CompleteAt (expressionWithin clock) .or phrase tokens :=
        hcomplete.loosen h (Nat.zero_le _)
      exact hloose.finds hstops

/-- A whole text of tokens that spell a phrase is read as that phrase. -/
theorem of_tokens_complete {phrase : Phrase} {tokens : List Token} (h : Spells phrase tokens)
    (stop : Span) : ofTokens (tokens ++ [⟨.endOfText, stop⟩]) = .ok (some phrase) := by
  have hexpression : Finds expression (tokens ++ [⟨.endOfText, stop⟩]) phrase
      [⟨.endOfText, stop⟩] :=
    expression_within_complete h (by simp) (stops_of_joins_none rfl _ _)
  have hselector : Finds selector (tokens ++ [⟨.endOfText, stop⟩]) (some phrase) [] := by
    unfold selector
    simp only [finds_bind, finds_optional, finds_expecting, finds_lexeme]
    exact ⟨some phrase, _, .inl ⟨phrase, rfl, hexpression⟩, stop, [], rfl,
      (finds_pure _ _ _ _).mpr ⟨rfl, rfl⟩⟩
  unfold ofTokens
  dsimp only
  rw [show (selector _).found = some (some phrase, []) from hselector]

end MessageSelector.Phrase
