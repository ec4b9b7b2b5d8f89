import MessageSelector.Phrase.Grammar
import MessageSelector.Proofs.Readers

/-!
# Where readers ask in vain

`AsksInside reader` says that whatever tokens a reader is given, it asks for parts only where one of
them begins, or at the first byte, and leaves none but these tokens. Every combinator keeps this, so
the whole grammar has it, and `of_tokens_error` says it of the position that is reported.
-/

namespace MessageSelector

/-- The first byte, or where one of the tokens begins. -/
def BeginsAt (tokens : List Token) (position : Nat) : Prop :=
  position = 0 ∨ ∃ token ∈ tokens, token.span.start = position

/-- More tokens begin in more places. -/
theorem BeginsAt.mono {tokens more : List Token} {position : Nat} (h : BeginsAt tokens position)
    (hmore : tokens ⊆ more) : BeginsAt more position :=
  h.imp_right fun ⟨token, hmem, hstart⟩ => ⟨token, hmore hmem, hstart⟩

/-- The further of two positions is one of them. -/
theorem BeginsAt.merge {tokens : List Token} {a b : Furthest} (ha : BeginsAt tokens a.position)
    (hb : BeginsAt tokens b.position) : BeginsAt tokens (a.merge b).position := by
  unfold Furthest.merge
  split
  · exact hb
  split
  · exact ha
  · exact ha

/-- A part that is not found is reported where it begins, or where something inside it was asked
for. -/
theorem BeginsAt.not_found {tokens : List Token} {inside : Furthest} {position : Nat}
    (hinside : BeginsAt tokens inside.position) (hposition : BeginsAt tokens position)
    (part : Expectation) : BeginsAt tokens (inside.notFound part position).position := by
  unfold Furthest.notFound
  split
  · exact hinside
  · exact hposition

namespace Reader

variable {α β : Type}

/-- The next token begins where one of the tokens does. -/
theorem begins_at_position (tokens : List Token) : BeginsAt tokens (position tokens) := by
  cases tokens with
  | nil => exact .inl rfl
  | cons next rest => exact .inr ⟨next, List.mem_cons_self, rfl⟩

/-- A reader asks only where its tokens begin, and leaves no others. -/
def AsksInside (reader : Reader α) : Prop :=
  ∀ tokens, BeginsAt tokens (reader tokens).furthest.position ∧
    ∀ part rest, Finds reader tokens part rest → rest ⊆ tokens

namespace AsksInside

/-- What takes no token asks for nothing. -/
theorem pure (part : α) : AsksInside (Pure.pure part : Reader α) := by
  intro tokens
  refine ⟨.inl rfl, fun found rest h => ?_⟩
  obtain ⟨-, rfl⟩ := (finds_pure _ _ _ _).mp h
  exact List.Subset.refl _

/-- A part and then another one. -/
theorem bind {first : Reader α} {next : α → Reader β} (h : AsksInside first)
    (hnext : ∀ part, AsksInside (next part)) : AsksInside (first >>= next) := by
  intro tokens
  obtain ⟨hplace, hrest⟩ := h tokens
  constructor
  · change BeginsAt tokens (Reader.bind first next tokens).furthest.position
    unfold Reader.bind
    dsimp only
    split
    · exact hplace
    · next part rest hfound =>
        exact hplace.merge ((hnext part rest).1.mono (hrest part rest hfound))
  · intro part rest hfinds
    obtain ⟨value, mid, hfirst, hsecond⟩ := (finds_bind _ _ _ _ _).mp hfinds
    exact fun token hmem => hrest _ _ hfirst ((hnext value mid).2 _ _ hsecond hmem)

/-- A part in one way or another. -/
theorem or_else {first second : Reader α} (h : AsksInside first) (hsecond : AsksInside second) :
    AsksInside (first <|> second) := by
  intro tokens
  obtain ⟨hplace, hrest⟩ := h tokens
  constructor
  · change BeginsAt tokens (Reader.orElse first second tokens).furthest.position
    unfold Reader.orElse
    dsimp only
    split
    · exact hplace
    · exact hplace.merge (hsecond tokens).1
  · intro part rest hfinds
    obtain hfinds | ⟨-, hfinds⟩ := (finds_or_else _ _ _ _ _).mp hfinds
    · exact hrest _ _ hfinds
    · exact (hsecond tokens).2 _ _ hfinds

/-- A token. -/
theorem token (wanted : Token → Option α) : AsksInside (Reader.token wanted) := by
  intro tokens
  constructor
  · cases tokens <;> exact .inl rfl
  · intro part rest hfinds
    obtain ⟨next, rfl, -⟩ := (finds_token _ _ _ _).mp hfinds
    exact List.subset_cons_self _ _

/-- A part under a name. -/
theorem expecting {reader : Reader α} (h : AsksInside reader) (part : Expectation) :
    AsksInside (Reader.expecting part reader) := by
  intro tokens
  obtain ⟨hplace, hrest⟩ := h tokens
  constructor
  · unfold Reader.expecting
    dsimp only
    split
    · exact hplace
    · exact hplace.not_found (begins_at_position tokens) part
  · intro found rest hfinds
    exact hrest _ _ ((finds_expecting _ _ _ _ _).mp hfinds)

/-- A lexeme. -/
theorem lexeme (wanted : Lexeme) : AsksInside (Reader.lexeme wanted) :=
  token _

/-- A part that may be there. -/
theorem optional {reader : Reader α} (h : AsksInside reader) :
    AsksInside (Reader.optional reader) :=
  or_else (bind h fun _ => pure _) (pure none)

/-- Parts one after another. -/
theorem many {reader : Reader α} (h : AsksInside reader) : AsksInside (Reader.many reader) := by
  have hfrom (clock whole tokens : List Token) (parts : List α) (furthest : Furthest)
      (hwhole : tokens ⊆ whole) (hfurthest : BeginsAt whole furthest.position) :
      BeginsAt whole (manyFrom reader clock parts furthest tokens).furthest.position ∧
        ∀ found rest, Finds (manyFrom reader clock parts furthest) tokens found rest →
          rest ⊆ whole := by
    induction clock generalizing tokens parts furthest with
    | nil =>
        refine ⟨hfurthest, fun found rest hfinds => ?_⟩
        cases hfinds
        exact hwhole
    | cons _ clock ih =>
        obtain ⟨hplace, hrest⟩ := h tokens
        have hmerged := hfurthest.merge (hplace.mono hwhole)
        unfold Finds manyFrom
        dsimp only
        split
        · refine ⟨hmerged, fun found rest hfinds => ?_⟩
          cases hfinds
          exact hwhole
        · next part mid hfound =>
            exact ih mid (part :: parts) _ (fun _ hmem => hwhole (hrest _ _ hfound hmem)) hmerged
  exact fun tokens => hfrom tokens tokens tokens [] .start (List.Subset.refl _) (.inl rfl)

/-- Operands with operators between them. -/
theorem chain {operator : Reader β} {operand : Reader α} (hop : AsksInside operator)
    (h : AsksInside operand) (group : β → α → α → α) :
    AsksInside (Reader.chain operator operand group) := by
  have hround : AsksInside (Reader.bind operator fun op =>
      Reader.bind operand fun right => Reader.pure (op, right)) :=
    bind hop fun _ => bind h fun _ => pure _
  have hfrom (clock whole tokens : List Token) (left : α) (furthest : Furthest)
      (hwhole : tokens ⊆ whole) (hfurthest : BeginsAt whole furthest.position) :
      BeginsAt whole
          (chainFrom operator operand group clock left furthest tokens).furthest.position ∧
        ∀ found rest, Finds (chainFrom operator operand group clock left furthest) tokens found
          rest → rest ⊆ whole := by
    induction clock generalizing tokens left furthest with
    | nil =>
        refine ⟨hfurthest, fun found rest hfinds => ?_⟩
        cases hfinds
        exact hwhole
    | cons _ clock ih =>
        obtain ⟨hplace, hrest⟩ := hround tokens
        have hmerged := hfurthest.merge (hplace.mono hwhole)
        unfold Finds chainFrom
        dsimp only
        split
        · refine ⟨hmerged, fun found rest hfinds => ?_⟩
          cases hfinds
          exact hwhole
        · next op right mid hfound =>
            exact ih mid _ _ (fun _ hmem => hwhole (hrest _ _ hfound hmem)) hmerged
  exact bind h fun first tokens =>
    hfrom tokens tokens tokens first .start (List.Subset.refl _) (.inl rfl)

/-- An operand under operators. -/
theorem prefixed {operator : Reader β} {operand : Reader α} (hop : AsksInside operator)
    (h : AsksInside operand) (wrap : β → α → α) :
    AsksInside (Reader.prefixed operator operand wrap) := by
  have hfrom (clock : List Token) : AsksInside (prefixedFrom operator operand wrap clock) := by
    induction clock with
    | nil => exact h
    | cons _ clock ih =>
        intro tokens
        obtain ⟨hplace, hrest⟩ := hop tokens
        unfold Finds prefixedFrom
        dsimp only
        split
        · exact ⟨hplace.merge (h tokens).1, (h tokens).2⟩
        · next op mid hfound =>
            obtain ⟨hinner, hleft⟩ := ih mid
            have hmid := hrest _ _ hfound
            refine ⟨hplace.merge (hinner.mono hmid), fun found rest hfinds => ?_⟩
            obtain ⟨⟨part, after⟩, hpart, heq⟩ := Option.map_eq_some_iff.mp hfinds
            cases heq
            exact fun _ hmem => hmid (hleft _ _ hpart hmem)
  exact fun tokens => hfrom tokens tokens

end AsksInside

end Reader

namespace Phrase

open Reader

variable {expression sum : Reader Phrase}

/-! ## The grammar -/

/-- A keyword. -/
theorem keyword_asks_inside (word : Keyword) (part : Expectation) :
    AsksInside (keyword word part) :=
  .expecting (.lexeme _) _

/-- A negation of a test. -/
theorem negation_asks_inside : AsksInside negation :=
  .bind (.optional (keyword_asks_inside _ _)) fun _ => .pure _

/-- A closed string literal. -/
theorem quoted_string_asks_inside : AsksInside quotedString :=
  .expecting (.token _) _

/-- A string literal that is not closed. -/
theorem unclosed_asks_inside : AsksInside unclosed :=
  .expecting (.lexeme _) _

/-- An operator of one lexeme. -/
theorem operator_asks_inside {α : Type} (part : Expectation) (wanted : Lexeme)
    (result : Span → α) :
    AsksInside (do return result (← expecting part (lexeme wanted))) :=
  .bind (.expecting (.lexeme _) _) fun _ => .pure _

/-- An operand without a sign. -/
theorem primary_asks_inside (h : AsksInside expression) : AsksInside (primary expression) := by
  have hgroup : AsksInside (parenthesized expression) :=
    .bind (.lexeme _) fun _ => .bind h fun _ => .bind (.lexeme _) fun _ => .pure _
  exact .or_else hgroup <| .or_else (.bind quoted_string_asks_inside fun _ => .pure _) <|
    .or_else (.bind unclosed_asks_inside fun _ => .pure _) <|
    .or_else (.expecting (.token _) _) <| .or_else (.expecting (.token _) _) <|
    .or_else (.expecting (.token _) _) (.expecting (.token _) _)

/-- A sum. -/
theorem sum_asks_inside (h : AsksInside expression) : AsksInside (Phrase.sum expression) := by
  have hsigned : AsksInside (signedPrimary expression) :=
    .prefixed (.or_else (operator_asks_inside _ _ _) (operator_asks_inside _ _ _))
      (primary_asks_inside h) _
  have hproduct : AsksInside (product expression) :=
    .chain (.or_else (operator_asks_inside _ _ _) (operator_asks_inside _ _ _)) hsigned _
  exact .expecting
    (.chain (.or_else (operator_asks_inside _ _ _) (operator_asks_inside _ _ _)) hproduct _) _

/-- A comparison. -/
theorem comparison_test_asks_inside (h : AsksInside sum) (operand : Phrase) :
    AsksInside (comparisonTest sum operand) :=
  .expecting (.bind (.expecting (.token _) _) fun _ => .bind h fun _ => .pure _) _

/-- A range test. -/
theorem between_test_asks_inside (h : AsksInside sum) (operand : Phrase) :
    AsksInside (betweenTest sum operand) :=
  .expecting (.bind negation_asks_inside fun _ => .bind (keyword_asks_inside _ _) fun _ =>
    .bind h fun _ => .bind (keyword_asks_inside _ _) fun _ => .bind h fun _ => .pure _) _

/-- A list test. -/
theorem in_test_asks_inside (operand : Phrase) : AsksInside (inTest operand) := by
  have hitems : AsksInside (many itemBeforeComma) :=
    .many (.bind quoted_string_asks_inside fun _ => .bind (.lexeme _) fun _ => .pure _)
  exact .expecting (.bind negation_asks_inside fun _ => .bind (keyword_asks_inside _ _) fun _ =>
    .bind (.lexeme _) fun _ => .bind hitems fun _ =>
    .or_else (.bind unclosed_asks_inside fun _ => .pure _)
      (.bind quoted_string_asks_inside fun _ => .bind (.lexeme _) fun _ => .pure _)) _

/-- A pattern test. -/
theorem like_test_asks_inside (operand : Phrase) : AsksInside (likeTest operand) := by
  have hescape : AsksInside escapeClause :=
    .bind (keyword_asks_inside _ _) fun _ =>
      .or_else (.bind unclosed_asks_inside fun _ => .pure _)
        (.bind quoted_string_asks_inside fun _ => .pure _)
  refine .expecting (.bind negation_asks_inside fun _ => .bind (keyword_asks_inside _ _) fun _ =>
    .or_else (.bind unclosed_asks_inside fun _ => .pure _)
      (.bind quoted_string_asks_inside fun pattern => .bind (.optional hescape) fun clause => ?_)) _
  rcases clause with _ | (_ | _)
  · exact .pure _
  · exact .pure _
  · exact .pure _

/-- A presence test. -/
theorem null_test_asks_inside (operand : Phrase) : AsksInside (nullTest operand) :=
  .expecting (.bind (keyword_asks_inside _ _) fun _ => .bind negation_asks_inside fun _ =>
    .bind (keyword_asks_inside _ _) fun _ => .pure _) _

/-- A disjunction. -/
theorem disjunction_asks_inside (h : AsksInside expression) :
    AsksInside (disjunction expression) := by
  have hsum := sum_asks_inside h
  have hcondition : AsksInside (condition expression) :=
    .expecting (.bind hsum fun operand =>
      .or_else (comparison_test_asks_inside hsum operand) <|
      .or_else (between_test_asks_inside hsum operand) <|
      .or_else (in_test_asks_inside operand) <| .or_else (like_test_asks_inside operand) <|
      .or_else (null_test_asks_inside operand) (.pure _)) _
  have hnegated : AsksInside (negatedCondition expression) :=
    .prefixed (keyword_asks_inside _ _) hcondition _
  exact .chain (keyword_asks_inside _ _) (.chain (keyword_asks_inside _ _) hnegated _) _

/-- An expression, however long the clock. -/
theorem expression_asks_inside (clock : List Token) : AsksInside (expressionWithin clock) := by
  induction clock with
  | nil => exact fun tokens => ⟨.inl rfl, nofun⟩
  | cons _ clock ih => exact .expecting (disjunction_asks_inside ih) _

/-- A text that cannot be read is reported where one of its tokens begins, or at its first byte. -/
theorem of_tokens_error {tokens : List Token} {furthest : Furthest}
    (h : ofTokens tokens = .error furthest) : BeginsAt tokens furthest.position := by
  have hexpression : AsksInside Phrase.expression :=
    fun tokens => expression_asks_inside tokens tokens
  have hselector : AsksInside selector :=
    .bind (.optional hexpression) fun _ => .bind (.expecting (.lexeme _) _) fun _ => .pure _
  unfold ofTokens at h
  dsimp only at h
  split at h <;> cases h
  exact (hselector tokens).1.not_found (.inl rfl) _

end Phrase

end MessageSelector
