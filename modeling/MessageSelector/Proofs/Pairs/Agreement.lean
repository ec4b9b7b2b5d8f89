import MessageSelector.Proofs.Pairs.Climbing
import MessageSelector.Proofs.Readers

/-!
# Matchers that take what readers find

`Agrees whole related reader matcher` says that on the tokens at the end of a whole text the matcher
takes as many tokens as the reader, or takes none where the reader finds nothing, and that the pairs
it leaves are related to what is found. Every combinator of readers has a combinator of matchers
that keeps this, so two grammars written alike agree rule by rule.
-/

namespace MessageSelector

open Reader (Finds Misses)

variable {α β : Type} {whole : List Token}

/-- A matcher takes what a reader finds, and leaves pairs that are related to it. -/
def Agrees (whole : List Token) (related : α → List Pair → Prop) (reader : Reader α)
    (matcher : Matcher) : Prop :=
  ∀ tokens, tokens <:+ whole →
    (Misses reader tokens → matcher tokens = none) ∧
      ∀ part rest, Finds reader tokens part rest →
        rest <:+ tokens ∧ ∃ pairs, matcher tokens = some (pairs, rest) ∧ related part pairs

/-- A single pair that is related to a part. -/
def Single (related : α → Pair → Prop) (part : α) (pairs : List Pair) : Prop :=
  ∃ pair, pairs = [pair] ∧ related part pair

/-- A reader finds something or nothing. -/
theorem Reader.finds_or_misses (reader : Reader α) (tokens : List Token) :
    (∃ part rest, Finds reader tokens part rest) ∨ Misses reader tokens := by
  unfold Finds Misses
  cases (reader tokens).found with
  | none => exact .inr rfl
  | some found => exact .inl ⟨found.1, found.2, rfl⟩

namespace Matcher

/-- A sequence fails with its first part. -/
theorem seq_eq_none {first second : Matcher} {tokens : List Token} (h : first tokens = none) :
    seq first second tokens = none := by
  rw [seq, h]

/-- A sequence goes on where its first part ends. -/
theorem seq_eq {first second : Matcher} {tokens mid : List Token} {pairs : List Pair}
    (h : first tokens = some (pairs, mid)) :
    seq first second tokens = (second mid).map fun (more, rest) => (pairs ++ more, rest) := by
  rw [seq, h]

/-- A choice takes its second part where the first fails. -/
theorem choice_of_none {first : Matcher} {tokens : List Token} (h : first tokens = none)
    (second : Matcher) : choice first second tokens = second tokens := by
  rw [choice, h]

/-- A choice takes its first part where it matches. -/
theorem choice_of_some {first : Matcher} {tokens : List Token} {found : List Pair × List Token}
    (h : first tokens = some found) (second : Matcher) :
    choice first second tokens = some found := by
  rw [choice, h]

/-- Choices are tried in the order in which they are written. -/
theorem choice_assoc (first second third : Matcher) :
    choice (choice first second) third = choice first (choice second third) := by
  funext tokens
  cases h : first tokens with
  | none =>
      rw [choice_of_none h (choice second third), choice, choice_of_none h second]
      rfl
  | some found =>
      rw [choice_of_some h (choice second third), choice_of_some (choice_of_some h second) third]

/-- A single token covers its place. -/
@[simp] theorem coverage_singleton (token : Token) : coverage [token] = token.span := by
  obtain ⟨lexeme, start, length⟩ := token
  simp [coverage, Span.between, Span.stop]

end Matcher

/-! ## Combinators -/

namespace Agrees

variable {related : α → List Pair → Prop} {reader : Reader α} {matcher : Matcher}

/-- Pairs may be described in less detail. -/
theorem imp {weaker : α → List Pair → Prop} (h : Agrees whole related reader matcher)
    (himp : ∀ part pairs, related part pairs → weaker part pairs) :
    Agrees whole weaker reader matcher := by
  intro tokens htokens
  refine (h tokens htokens).imp_right fun hfinds part rest hpart => ?_
  obtain ⟨hrest, pairs, hmatcher, hrelated⟩ := hfinds part rest hpart
  exact ⟨hrest, pairs, hmatcher, himp part pairs hrelated⟩

/-- What takes no token leaves no pair. -/
theorem pure (part : α) :
    Agrees whole (fun found pairs => found = part ∧ pairs = []) (Pure.pure part)
      Matcher.nothing := by
  intro tokens _
  refine ⟨fun hmiss => absurd hmiss (Reader.misses_pure _ _), fun found rest hfinds => ?_⟩
  obtain ⟨rfl, rfl⟩ := (Reader.finds_pure _ _ _ _).mp hfinds
  exact ⟨List.suffix_refl _, [], rfl, rfl, rfl⟩

/-- A part and then another one leave the pairs of both. -/
theorem bind {next : α → Reader β} {related' : α → β → List Pair → Prop} {matcher' : Matcher}
    (h : Agrees whole related reader matcher)
    (hnext : ∀ part, Agrees whole (related' part) (next part) matcher') :
    Agrees whole
      (fun result pairs => ∃ part before after,
        related part before ∧ related' part result after ∧ pairs = before ++ after)
      (reader >>= next) (Matcher.seq matcher matcher') := by
  intro tokens htokens
  obtain ⟨hnone, hsome⟩ := h tokens htokens
  constructor
  · intro hmiss
    obtain hmiss | ⟨part, mid, hpart, hmiss⟩ := (Reader.misses_bind _ _ _).mp hmiss
    · exact Matcher.seq_eq_none (hnone hmiss)
    · obtain ⟨hmid, pairs, hmatcher, -⟩ := hsome part mid hpart
      rw [Matcher.seq_eq hmatcher, ((hnext part) mid (hmid.trans htokens)).1 hmiss]
      rfl
  · intro result rest hfinds
    obtain ⟨part, mid, hpart, hresult⟩ := (Reader.finds_bind _ _ _ _ _).mp hfinds
    obtain ⟨hmid, before, hmatcher, hbefore⟩ := hsome part mid hpart
    obtain ⟨hrest, after, hmatcher', hafter⟩ :=
      ((hnext part) mid (hmid.trans htokens)).2 result rest hresult
    refine ⟨hrest.trans hmid, before ++ after, ?_, part, before, after, hbefore, hafter, rfl⟩
    rw [Matcher.seq_eq hmatcher, hmatcher']
    rfl

/-- What is made of a part leaves the pairs of the part. -/
theorem map (h : Agrees whole related reader matcher) (f : α → β) :
    Agrees whole (fun result pairs => ∃ part, related part pairs ∧ result = f part)
      (reader >>= fun part => Pure.pure (f part)) matcher := by
  intro tokens htokens
  obtain ⟨hnone, hsome⟩ := h tokens htokens
  constructor
  · intro hmiss
    obtain hmiss | ⟨_, _, -, hmiss⟩ := (Reader.misses_bind _ _ _).mp hmiss
    · exact hnone hmiss
    · exact absurd hmiss (Reader.misses_pure _ _)
  · intro result rest hfinds
    obtain ⟨part, mid, hpart, hresult⟩ := (Reader.finds_bind _ _ _ _ _).mp hfinds
    obtain ⟨rfl, rfl⟩ := (Reader.finds_pure _ _ _ _).mp hresult
    obtain ⟨hrest, pairs, hmatcher, hrelated⟩ := hsome part mid hpart
    exact ⟨hrest, pairs, hmatcher, part, hrelated, rfl⟩

/-- What is made of a part, case by case, leaves the pairs of the part. -/
theorem map_of_eq {next : α → Reader β} (h : Agrees whole related reader matcher) (f : α → β)
    (hnext : ∀ part, next part = Pure.pure (f part)) :
    Agrees whole (fun result pairs => ∃ part, related part pairs ∧ result = f part)
      (reader >>= next) matcher := by
  obtain rfl : next = fun part => Pure.pure (f part) := funext hnext
  exact h.map f

/-- A part in one way or another. -/
theorem or_else {second : Reader α} {matcher' : Matcher} (h : Agrees whole related reader matcher)
    (hsecond : Agrees whole related second matcher') :
    Agrees whole related (reader <|> second) (Matcher.choice matcher matcher') := by
  intro tokens htokens
  obtain ⟨hnone, hsome⟩ := h tokens htokens
  obtain ⟨hnone', hsome'⟩ := hsecond tokens htokens
  constructor
  · intro hmiss
    obtain ⟨hfirst, hmiss⟩ := (Reader.misses_or_else _ _ _).mp hmiss
    rw [Matcher.choice_of_none (hnone hfirst), hnone' hmiss]
  · intro part rest hfinds
    obtain hpart | ⟨hfirst, hpart⟩ := (Reader.finds_or_else _ _ _ _ _).mp hfinds
    · obtain ⟨hrest, pairs, hmatcher, hrelated⟩ := hsome part rest hpart
      exact ⟨hrest, pairs, Matcher.choice_of_some hmatcher _, hrelated⟩
    · rw [Matcher.choice_of_none (hnone hfirst)]
      exact hsome' part rest hpart

/-- A part under a name. -/
theorem expecting (h : Agrees whole related reader matcher) (part : Expectation) :
    Agrees whole related (Reader.expecting part reader) matcher := by
  intro tokens htokens
  simp only [Reader.misses_expecting, Reader.finds_expecting]
  exact h tokens htokens

/-- A part that may be there. -/
theorem optional (h : Agrees whole related reader matcher) :
    Agrees whole
      (fun found pairs => (∃ part, found = some part ∧ related part pairs) ∨
        found = none ∧ pairs = [])
      (Reader.optional reader) (Matcher.optional matcher) := by
  exact ((h.map some).imp fun _ _ ⟨part, hpart, heq⟩ => .inl ⟨part, heq, hpart⟩).or_else
    ((pure none).imp fun _ _ hnone => .inr hnone)

/-- Parts one after another leave the pairs of each. -/
theorem many {pairsOf : α → List Pair}
    (h : Agrees whole (fun part pairs => pairs = pairsOf part) reader matcher) :
    Agrees whole (fun parts pairs => pairs = parts.flatMap pairsOf) (Reader.many reader)
      (Matcher.many matcher) := by
  have hfrom (clock tokens : List Token) (before : List α) (furthest : Furthest)
      (htokens : tokens <:+ whole) :
      ∃ parts rest, Finds (Reader.manyFrom reader clock before furthest) tokens
          (before.reverse ++ parts) rest ∧ rest <:+ tokens ∧
        Matcher.manyFrom matcher clock tokens = some (parts.flatMap pairsOf, rest) := by
    induction clock generalizing tokens before furthest with
    | nil => exact ⟨[], tokens, by simp [Finds, Reader.manyFrom], List.suffix_refl _, rfl⟩
    | cons _ clock ih =>
        obtain ⟨hnone, hsome⟩ := h tokens htokens
        unfold Finds Reader.manyFrom Matcher.manyFrom
        rcases reader.finds_or_misses tokens with ⟨part, mid, hpart⟩ | hmiss
        · obtain ⟨hmid, _, hmatcher, rfl⟩ := hsome part mid hpart
          obtain ⟨parts, rest, hparts, hrest, hmany⟩ := ih mid (part :: before)
            (furthest.merge (reader tokens).furthest) (hmid.trans htokens)
          refine ⟨part :: parts, rest, ?_, hrest.trans hmid, ?_⟩
          · dsimp only
            rw [show (reader tokens).found = some (part, mid) from hpart]
            rw [List.reverse_cons, List.append_assoc] at hparts
            exact hparts
          · simp [hmatcher, hmany]
        · refine ⟨[], tokens, ?_, List.suffix_refl _, by rw [hnone hmiss]; rfl⟩
          dsimp only
          rw [show (reader tokens).found = none from hmiss]
          simp
  intro tokens htokens
  obtain ⟨parts, rest, hfinds, hrest, hmatcher⟩ := hfrom tokens tokens [] .start htokens
  rw [List.reverse_nil, List.nil_append] at hfinds
  have hmany : Finds (Reader.many reader) tokens parts rest := hfinds
  constructor
  · intro hmiss
    cases hmany.symm.trans hmiss
  · intro found after hfound
    cases hmany.symm.trans hfound
    exact ⟨hrest, _, hmatcher, rfl⟩

/-! ## Tokens and rules -/

/-- A token that is taken by both or by neither. -/
theorem token {wanted : Token → Option α} {accepted : Token → Option (List Pair)}
    (hnone : ∀ next, wanted next = none → accepted next = none)
    (hsome : ∀ next part, next ∈ whole → wanted next = some part →
      ∃ pairs, accepted next = some pairs ∧ related part pairs) :
    Agrees whole related (Reader.token wanted) (Matcher.token accepted) := by
  intro tokens htokens
  cases tokens with
  | nil => exact ⟨fun _ => rfl, fun part rest hfinds => by cases hfinds⟩
  | cons next rest =>
      constructor
      · intro hmiss
        rw [Matcher.token, hnone next ((Reader.misses_token _ _ _).mp hmiss)]
        rfl
      · intro part rest' hfinds
        obtain ⟨_, ⟨⟩, hwanted⟩ := (Reader.finds_token _ _ _ _).mp hfinds
        obtain ⟨pairs, haccepted, hrelated⟩ :=
          hsome next part (htokens.subset List.mem_cons_self) hwanted
        refine ⟨List.suffix_cons _ _, pairs, ?_, hrelated⟩
        rw [Matcher.token, haccepted]
        rfl

/-- A rule leaves one pair, around those of its part, over the tokens that the part takes. -/
theorem rule (h : Agrees whole related reader matcher) (name : Rule) :
    Agrees whole
      (fun part pairs => ∃ tokens rest inner, Finds reader (tokens ++ rest) part rest ∧
        related part inner ∧ tokens ++ rest <:+ whole ∧
        pairs = [.mk name (Matcher.coverage tokens) inner])
      reader (Matcher.rule name matcher) := by
  intro tokens htokens
  obtain ⟨hnone, hsome⟩ := h tokens htokens
  constructor
  · intro hmiss
    rw [Matcher.rule, hnone hmiss]
    rfl
  · intro part rest hfinds
    obtain ⟨hrest, inner, hmatcher, hrelated⟩ := hsome part rest hfinds
    obtain ⟨taken, rfl⟩ := hrest
    refine ⟨List.suffix_append _ _, _, ?_, taken, rest, inner, hfinds, hrelated, htokens, rfl⟩
    simp only [Matcher.rule, hmatcher, Option.map_some, List.length_append, Nat.add_sub_cancel,
      List.take_left]

/-- A rule of a single token leaves a pair over it. -/
theorem word {wanted : Token → Option α} {accepted : Lexeme → Bool}
    (h : ∀ next, accepted next.lexeme = (wanted next).isSome) (name : Rule) :
    Agrees whole
      (fun part pairs => ∃ next ∈ whole, wanted next = some part ∧ pairs = [.mk name next.span []])
      (Reader.token wanted) (Matcher.word name accepted) := by
  have htoken : Agrees whole (fun _ pairs => pairs = []) (Reader.token wanted)
      (Matcher.symbol accepted) := by
    refine token (fun next hnext => ?_) fun next part _ hnext => ⟨[], ?_, rfl⟩
    · rw [if_neg (by rw [h, hnext]; nofun)]
    · rw [if_pos (by rw [h, hnext]; rfl)]
  refine (htoken.rule name).imp ?_
  rintro part _ ⟨tokens, rest, inner, hfinds, rfl, hwhole, rfl⟩
  obtain ⟨next, hsplit, hwanted⟩ := (Reader.finds_token _ _ _ _).mp hfinds
  obtain rfl : tokens = [next] := List.append_cancel_right hsplit
  refine ⟨next, hwhole.subset List.mem_cons_self, hwanted, ?_⟩
  rw [Matcher.coverage_singleton]

/-- A lexeme that leaves a pair. -/
theorem lexeme (wanted : Lexeme) (name : Rule) :
    Agrees whole (fun span pairs => pairs = [.mk name span []]) (Reader.lexeme wanted)
      (Matcher.word name (· = wanted)) := by
  refine (word (fun next => ?_) name).imp ?_
  · by_cases hnext : next.lexeme = wanted <;> simp [hnext]
  · rintro span _ ⟨next, -, hnext, rfl⟩
    split at hnext <;> cases hnext
    rfl

/-- A lexeme that leaves none. -/
theorem symbol (wanted : Lexeme) :
    Agrees whole (fun _ pairs => pairs = []) (Reader.lexeme wanted)
      (Matcher.symbol (· = wanted)) := by
  refine token (fun next hnext => ?_) fun next span _ hnext => ⟨[], ?_, rfl⟩
  · split at hnext
    · cases hnext
    · next hne => rw [if_neg (by simpa using hne)]
  · split at hnext
    · next heq => rw [if_pos (by simpa using heq)]
    · cases hnext

end Agrees

end MessageSelector
