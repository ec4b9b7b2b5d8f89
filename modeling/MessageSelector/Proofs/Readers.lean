import MessageSelector.Reader

/-!
# What readers find

`Finds reader tokens part rest` says that a reader takes `part` off the front of `tokens` and leaves
`rest`. How far a reader got in vain plays no part in it, so every combinator has a law in terms of
what its readers find and miss. For the three loops there are two rules each: an invariant that one
round keeps holds of what the loop finds, and a run of rounds is found when the clock allows it.
-/

namespace MessageSelector.Reader

variable {α β : Type}

/-- A reader takes a part off the front of the tokens and leaves the rest. -/
def Finds (reader : Reader α) (tokens : List Token) (part : α) (rest : List Token) : Prop :=
  (reader tokens).found = some (part, rest)

/-- A reader finds nothing at the front of the tokens. -/
def Misses (reader : Reader α) (tokens : List Token) : Prop :=
  (reader tokens).found = none

/-! ## Combinators -/

@[simp] theorem finds_pure (value part : α) (tokens rest : List Token) :
    Finds (Pure.pure value) tokens part rest ↔ value = part ∧ tokens = rest := by
  change some (value, tokens) = some (part, rest) ↔ _
  simp

@[simp] theorem misses_pure (value : α) (tokens : List Token) :
    ¬ Misses (Pure.pure value : Reader α) tokens := by
  change ¬ some (value, tokens) = none
  simp

@[simp] theorem finds_bind (first : Reader α) (next : α → Reader β) (tokens rest : List Token)
    (part : β) :
    Finds (first >>= next) tokens part rest ↔
      ∃ value mid, Finds first tokens value mid ∧ Finds (next value) mid part rest := by
  change (bind first next tokens).found = _ ↔ _
  unfold bind Finds
  cases hfirst : (first tokens).found with
  | none => simp [hfirst]
  | some found =>
      obtain ⟨value, mid⟩ := found
      simp only [hfirst, Option.some.injEq, Prod.mk.injEq]
      constructor
      · exact fun h => ⟨value, mid, ⟨rfl, rfl⟩, h⟩
      · rintro ⟨_, _, ⟨rfl, rfl⟩, h⟩
        exact h

@[simp] theorem misses_bind (first : Reader α) (next : α → Reader β) (tokens : List Token) :
    Misses (first >>= next) tokens ↔
      Misses first tokens ∨
        ∃ value mid, Finds first tokens value mid ∧ Misses (next value) mid := by
  change (bind first next tokens).found = _ ↔ _
  unfold bind Finds Misses
  cases hfirst : (first tokens).found with
  | none => simp [hfirst]
  | some found =>
      obtain ⟨value, mid⟩ := found
      simp only [hfirst, Option.some.injEq, Prod.mk.injEq, reduceCtorEq, false_or]
      constructor
      · exact fun h => ⟨value, mid, ⟨rfl, rfl⟩, h⟩
      · rintro ⟨_, _, ⟨rfl, rfl⟩, h⟩
        exact h

@[simp] theorem finds_or_else (first second : Reader α) (tokens rest : List Token) (part : α) :
    Finds (first <|> second) tokens part rest ↔
      Finds first tokens part rest ∨ Misses first tokens ∧ Finds second tokens part rest := by
  change (orElse first second tokens).found = _ ↔ _
  unfold orElse Finds Misses
  cases hfirst : (first tokens).found with
  | none => simp [hfirst]
  | some found => simp [hfirst]

@[simp] theorem misses_or_else (first second : Reader α) (tokens : List Token) :
    Misses (first <|> second) tokens ↔ Misses first tokens ∧ Misses second tokens := by
  change (orElse first second tokens).found = _ ↔ _
  unfold orElse Misses
  cases hfirst : (first tokens).found with
  | none => simp [hfirst]
  | some found => simp [hfirst]

@[simp] theorem finds_expecting (expected : Expectation) (reader : Reader α)
    (tokens rest : List Token) (part : α) :
    Finds (expecting expected reader) tokens part rest ↔ Finds reader tokens part rest := by
  unfold expecting Finds
  cases hfound : (reader tokens).found with
  | none => simp [hfound]
  | some found => simp [hfound]

@[simp] theorem misses_expecting (expected : Expectation) (reader : Reader α)
    (tokens : List Token) :
    Misses (expecting expected reader) tokens ↔ Misses reader tokens := by
  unfold expecting Misses
  cases hfound : (reader tokens).found with
  | none => simp [hfound]
  | some found => simp [hfound]

/-- A token is found at the front or not at all. -/
theorem finds_token (wanted : Token → Option α) (tokens rest : List Token) (part : α) :
    Finds (token wanted) tokens part rest ↔
      ∃ next, tokens = next :: rest ∧ wanted next = some part := by
  cases tokens with
  | nil => simp [Finds, token]
  | cons next following =>
      change Option.map _ _ = _ ↔ _
      simp only [Option.map_eq_some_iff, Prod.mk.injEq]
      constructor
      · rintro ⟨value, hvalue, rfl, rfl⟩
        exact ⟨next, rfl, hvalue⟩
      · rintro ⟨_, ⟨⟩, hvalue⟩
        exact ⟨part, hvalue, rfl, rfl⟩

@[simp] theorem misses_token (wanted : Token → Option α) (next : Token) (rest : List Token) :
    Misses (token wanted) (next :: rest) ↔ wanted next = none := by
  change Option.map _ _ = _ ↔ _
  simp

@[simp] theorem finds_lexeme (wanted : Lexeme) (tokens rest : List Token) (span : Span) :
    Finds (lexeme wanted) tokens span rest ↔ tokens = ⟨wanted, span⟩ :: rest := by
  rw [lexeme, finds_token]
  constructor
  · rintro ⟨⟨found, place⟩, rfl, hfound⟩
    split at hfound
    · next hlexeme =>
        cases hlexeme
        cases hfound
        rfl
    · cases hfound
  · rintro rfl
    exact ⟨_, rfl, if_pos rfl⟩

@[simp] theorem misses_lexeme (wanted : Lexeme) (next : Token) (rest : List Token) :
    Misses (lexeme wanted) (next :: rest) ↔ next.lexeme ≠ wanted := by
  simp [lexeme]

@[simp] theorem finds_optional (reader : Reader α) (tokens rest : List Token)
    (part : Option α) :
    Finds (optional reader) tokens part rest ↔
      (∃ value, part = some value ∧ Finds reader tokens value rest) ∨
        part = none ∧ Misses reader tokens ∧ tokens = rest := by
  change Finds ((reader >>= fun value => Pure.pure (some value)) <|> Pure.pure none)
    tokens part rest ↔ _
  rw [finds_or_else, finds_bind, misses_bind]
  simp only [finds_pure, misses_pure, and_false, exists_false, or_false]
  constructor
  · rintro (⟨value, mid, hfinds, rfl, rfl⟩ | ⟨hmiss, rfl, rfl⟩)
    · exact .inl ⟨value, rfl, hfinds⟩
    · exact .inr ⟨rfl, hmiss, rfl⟩
  · rintro (⟨value, rfl, hfinds⟩ | ⟨rfl, hmiss, rfl⟩)
    · exact .inl ⟨value, rest, hfinds, rfl, rfl⟩
    · exact .inr ⟨hmiss, rfl, rfl⟩

/-- An optional part is always found, if only as absent. -/
@[simp] theorem misses_optional (reader : Reader α) (tokens : List Token) :
    ¬ Misses (optional reader) tokens := by
  change ¬ Misses ((reader >>= fun value => Pure.pure (some value)) <|> Pure.pure none) tokens
  simp

/-! ## Loops -/

variable {operator : Reader β} {operand : Reader α}

/-- One round of a chain takes an operator and then an operand. -/
theorem finds_pair {tokens rest : List Token} {op : β} {right : α} :
    Finds (bind operator fun op => bind operand fun right => pure (op, right)) tokens
        (op, right) rest ↔
      ∃ mid, Finds operator tokens op mid ∧ Finds operand mid right rest := by
  change Finds (operator >>= fun op => operand >>= fun right => Pure.pure (op, right)) tokens
    (op, right) rest ↔ _
  simp only [finds_bind, finds_pure, Prod.mk.injEq]
  constructor
  · rintro ⟨_, mid, hop, _, _, hright, ⟨rfl, rfl⟩, rfl⟩
    exact ⟨mid, hop, hright⟩
  · rintro ⟨mid, hop, hright⟩
    exact ⟨op, mid, hop, right, rest, hright, ⟨rfl, rfl⟩, rfl⟩

/-- What holds before a chain goes on, and survives one more operand, holds of the whole chain. -/
theorem chain_from_invariant {group : β → α → α → α} {inv : α → List Token → Prop}
    (hstep : ∀ op left right tokens mid rest, inv left tokens → Finds operator tokens op mid →
      Finds operand mid right rest → inv (group op left right) rest)
    {clock : List Token} {left result : α} {furthest : Furthest} {tokens rest : List Token}
    (hinv : inv left tokens)
    (h : Finds (chainFrom operator operand group clock left furthest) tokens result rest) :
    inv result rest := by
  -- The clock only bounds the rounds. The invariant goes from one left operand to the next.
  induction clock generalizing left furthest tokens with
  | nil =>
      cases h
      exact hinv
  | cons _ clock ih =>
      unfold Finds chainFrom at h
      dsimp only at h
      split at h
      · cases h
        exact hinv
      · next op right mid hpair =>
          obtain ⟨_, hop, hright⟩ := finds_pair.mp hpair
          exact ih (hstep _ _ _ _ _ _ hinv hop hright) h

/-- A chain is built from its first operand by rounds that keep an invariant. -/
theorem chain_invariant {group : β → α → α → α} (inv : α → List Token → Prop)
    (hstep : ∀ op left right tokens mid rest, inv left tokens → Finds operator tokens op mid →
      Finds operand mid right rest → inv (group op left right) rest)
    {result : α} {tokens rest : List Token}
    (hfirst : ∀ first mid, Finds operand tokens first mid → inv first mid)
    (h : Finds (chain operator operand group) tokens result rest) : inv result rest := by
  obtain ⟨first, mid, hoperand, htail⟩ := (finds_bind _ _ _ _ _).mp h
  exact chain_from_invariant hstep (hfirst first mid hoperand) htail

/-- The rounds of a chain: from an operand and the tokens after it to the whole chain and its rest.
Every round takes tokens. -/
inductive Rounds (operator : Reader β) (operand : Reader α) (group : β → α → α → α) :
    α → List Token → α → List Token → Prop where
  | done (left tokens) : Rounds operator operand group left tokens left tokens
  | round {left tokens op mid right following result rest} :
      Finds operator tokens op mid → Finds operand mid right following →
      following.length < tokens.length →
      Rounds operator operand group (group op left right) following result rest →
      Rounds operator operand group left tokens result rest

/-- A run of rounds that no operator continues is what a chain with time enough finds. -/
theorem Rounds.finds_from {group : β → α → α → α} {left result : α} {tokens rest : List Token}
    (h : Rounds operator operand group left tokens result rest) (hmiss : Misses operator rest)
    {clock : List Token} (hclock : tokens.length ≤ clock.length) {furthest : Furthest} :
    Finds (chainFrom operator operand group clock left furthest) tokens result rest := by
  induction h generalizing clock furthest with
  | done left tokens =>
      cases clock with
      | nil => rfl
      | cons _ clock =>
          have hpair : Misses
              (bind operator fun op => bind operand fun right => pure (op, right)) tokens :=
            (misses_bind _ _ _).mpr (.inl hmiss)
          unfold Finds chainFrom
          dsimp only
          rw [show (bind operator _ tokens).found = none from hpair]
  | round hop hright hlength _ ih =>
      cases clock with
      | nil =>
          simp only [List.length_nil] at hclock
          omega
      | cons _ clock =>
          simp only [List.length_cons] at hclock
          unfold Finds chainFrom
          dsimp only
          rw [show (bind operator _ _).found = some ((_, _), _) from
            finds_pair.mpr ⟨_, hop, hright⟩]
          exact ih hmiss (by omega)

/-- A first operand and a run of rounds after it make a chain. -/
theorem Rounds.finds {group : β → α → α → α} {first result : α} {tokens mid rest : List Token}
    (hfirst : Finds operand tokens first mid)
    (h : Rounds operator operand group first mid result rest) (hmiss : Misses operator rest) :
    Finds (chain operator operand group) tokens result rest :=
  (finds_bind _ _ _ _ _).mpr ⟨first, mid, hfirst, h.finds_from hmiss (Nat.le_refl _)⟩

/-- What holds of an operand, and survives one more operator in front, holds of all that a reader of
operands under operators finds. -/
theorem prefixed_invariant {wrap : β → α → α} (inv : List Token → α → List Token → Prop)
    (hoperand : ∀ tokens part rest, Finds operand tokens part rest → inv tokens part rest)
    (hwrap : ∀ op part tokens mid rest, Finds operator tokens op mid → inv mid part rest →
      inv tokens (wrap op part) rest)
    {tokens rest : List Token} {part : α}
    (h : Finds (prefixed operator operand wrap) tokens part rest) : inv tokens part rest := by
  have hfrom (clock tokens : List Token) (part : α) (rest : List Token)
      (h : Finds (prefixedFrom operator operand wrap clock) tokens part rest) :
      inv tokens part rest := by
    induction clock generalizing tokens part rest with
    | nil => exact hoperand _ _ _ h
    | cons _ clock ih =>
        unfold Finds prefixedFrom at h
        dsimp only at h
        split at h
        · exact hoperand _ _ _ h
        · next op mid hop =>
            obtain ⟨⟨inner, after⟩, hinner, heq⟩ := Option.map_eq_some_iff.mp h
            cases heq
            exact hwrap _ _ _ _ _ hop (ih _ _ _ hinner)
  exact hfrom tokens tokens part rest h

/-- Without an operator in front, an operand is found as it is. -/
theorem Finds.prefixed_operand {wrap : β → α → α} {tokens rest : List Token} {part : α}
    (hmiss : Misses operator tokens) (h : Finds operand tokens part rest) :
    Finds (prefixed operator operand wrap) tokens part rest := by
  unfold Finds prefixed
  cases tokens with
  | nil => exact h
  | cons next tokens =>
      unfold prefixedFrom
      dsimp only
      rw [show (operator _).found = none from hmiss]
      exact h

/-- The clock of a reader of operands under operators only has to be long enough. -/
theorem Finds.prefixed_from {wrap : β → α → α} {clock longer tokens rest : List Token} {part : α}
    (hshrinks : ∀ tokens op mid, Finds operator tokens op mid → mid.length < tokens.length)
    (hclock : tokens.length ≤ clock.length) (hlonger : tokens.length ≤ longer.length)
    (h : Finds (prefixedFrom operator operand wrap clock) tokens part rest) :
    Finds (prefixedFrom operator operand wrap longer) tokens part rest := by
  -- Every operator takes tokens, so neither clock runs out while there are operators.
  induction clock generalizing longer tokens part rest with
  | nil =>
      have hempty : tokens = [] := List.eq_nil_of_length_eq_zero (Nat.le_zero.mp hclock)
      subst hempty
      cases longer with
      | nil => exact h
      | cons _ longer =>
          unfold Finds prefixedFrom
          dsimp only
          cases hop : (operator []).found with
          | none => exact h
          | some found => exact absurd (hshrinks _ _ _ hop) (Nat.not_lt_zero _)
  | cons _ clock ih =>
      unfold Finds prefixedFrom at h
      dsimp only at h
      cases longer with
      | nil =>
          have hempty : tokens = [] := List.eq_nil_of_length_eq_zero (Nat.le_zero.mp hlonger)
          subst hempty
          split at h
          · exact h
          · next hop => exact absurd (hshrinks _ _ _ hop) (Nat.not_lt_zero _)
      | cons _ longer =>
          unfold Finds prefixedFrom
          dsimp only
          split at h
          · exact h
          · next op mid hop =>
              obtain ⟨⟨inner, after⟩, hinner, heq⟩ := Option.map_eq_some_iff.mp h
              have hshort := hshrinks _ _ _ hop
              simp only [List.length_cons] at hclock hlonger
              exact Option.map_eq_some_iff.mpr
                ⟨(inner, after), ih (by omega) (by omega) hinner, heq⟩

/-- An operator in front of what is found under operators is one more of them. -/
theorem Finds.prefixed_wrap {wrap : β → α → α} {tokens mid rest : List Token} {op : β} {part : α}
    (hshrinks : ∀ tokens op mid, Finds operator tokens op mid → mid.length < tokens.length)
    (hop : Finds operator tokens op mid)
    (h : Finds (prefixed operator operand wrap) mid part rest) :
    Finds (prefixed operator operand wrap) tokens (wrap op part) rest := by
  have hshort := hshrinks _ _ _ hop
  cases tokens with
  | nil => exact absurd hshort (Nat.not_lt_zero _)
  | cons next tokens =>
      simp only [List.length_cons] at hshort
      unfold Finds prefixed prefixedFrom
      dsimp only
      rw [show (operator _).found = some (op, mid) from hop]
      exact Option.map_eq_some_iff.mpr
        ⟨(part, rest), h.prefixed_from hshrinks (Nat.le_refl _) (by omega), rfl⟩

/-- A reader finds parts one after another. -/
inductive Repeats (reader : Reader α) : List Token → List α → List Token → Prop where
  | nil (tokens) : Repeats reader tokens [] tokens
  | cons {tokens part mid parts rest} :
      Finds reader tokens part mid → Repeats reader mid parts rest →
      Repeats reader tokens (part :: parts) rest

/-- What a repetition finds are parts one after another. -/
theorem repeats_of_finds_many {reader : Reader α} {tokens rest : List Token} {parts : List α}
    (h : Finds (many reader) tokens parts rest) : Repeats reader tokens parts rest := by
  have hfrom (clock tokens : List Token) (before : List α) (furthest : Furthest)
      (h : Finds (manyFrom reader clock before furthest) tokens parts rest) :
      ∃ after, parts = before.reverse ++ after ∧ Repeats reader tokens after rest := by
    induction clock generalizing tokens before furthest with
    | nil =>
        cases h
        exact ⟨[], (List.append_nil _).symm, .nil _⟩
    | cons _ clock ih =>
        unfold Finds manyFrom at h
        dsimp only at h
        split at h
        · cases h
          exact ⟨[], (List.append_nil _).symm, .nil _⟩
        · next part mid hpart =>
            obtain ⟨after, rfl, hafter⟩ := ih _ _ _ h
            exact ⟨part :: after, by simp, .cons hpart hafter⟩
  obtain ⟨_, rfl, hafter⟩ := hfrom tokens tokens [] _ h
  exact hafter

/-- Parts one after another, and no part after them, are what a repetition finds. -/
theorem Repeats.finds {reader : Reader α} {tokens rest : List Token} {parts : List α}
    (h : Repeats reader tokens parts rest)
    (hshrinks : ∀ tokens part mid, Finds reader tokens part mid → mid.length < tokens.length)
    (hmiss : Misses reader rest) : Finds (many reader) tokens parts rest := by
  have hfrom {tokens : List Token} {parts : List α} (h : Repeats reader tokens parts rest)
      (clock : List Token) (hclock : tokens.length ≤ clock.length) (before : List α)
      (furthest : Furthest) :
      Finds (manyFrom reader clock before furthest) tokens (before.reverse ++ parts) rest := by
    induction clock generalizing tokens parts before furthest with
    | nil =>
        cases h with
        | nil => simp [Finds, manyFrom]
        | cons hpart _ =>
            have hshort := hshrinks _ _ _ hpart
            simp only [List.length_nil] at hclock
            omega
    | cons _ clock ih =>
        unfold Finds manyFrom
        dsimp only
        cases h with
        | nil =>
            rw [show (reader _).found = none from hmiss]
            simp
        | @cons _ part _ parts _ hpart hafter =>
            have hshort := hshrinks _ _ _ hpart
            simp only [List.length_cons] at hclock
            rw [show (reader _).found = some (_, _) from hpart,
              show before.reverse ++ part :: parts = (part :: before).reverse ++ parts by simp]
            exact ih hafter (by omega) _ _
  exact hfrom h tokens (Nat.le_refl _) [] _

end MessageSelector.Reader
