import MessageSelector.Proofs.Nesting.Surroundings

/-!
# What the limit on nesting is a limit of

An accepted text has no more than `limit` counted levels around any of its parts. Operators are not
counted any longer once the operand behind them begins, though all of it may be theirs, so there may
be more levels than are counted, but only so many: `levels_of_parse`. Conversely a text is not too
deep if there are no more than `limit` levels around its primaries, unless a test takes one more
behind its operand: `parse_of_levels`.
-/

namespace MessageSelector

open MessageSelector.Expr (Binding)

namespace Nesting

/-! ## Texts and their phrases -/

variable {text : List Char} {phrase : Phrase} {tokens : List Token} {stop : Span}

/-- A text nests within the limit just if its phrase is shallow. -/
theorem too_deep_eq_none_iff_shallow (htokens : Token.scan text = tokens ++ [⟨.endOfText, stop⟩])
    (hspells : Spells phrase tokens) (hproper : AllProper tokens) :
    tooDeep? text = none ↔ phrase.Shallow .outermost := by
  have hmeasures := measures_of_spells hspells hproper [] 0 0
  rw [too_deep_eq_none_iff htokens hspells, Depth.within_append, after_spells hspells hproper]
  constructor
  · rintro ⟨hwithin, -⟩
    exact hmeasures.mp ⟨Nat.zero_le _, hwithin⟩
  · intro hshallow
    exact ⟨(hmeasures.mpr hshallow).2, Nat.zero_le _, trivial⟩

/-- A text of nothing but its end does not nest. -/
theorem too_deep_of_end (h : Token.scan text = [⟨.endOfText, stop⟩]) :
    tooDeep? text = none := by
  have hlexemes : Token.lexemes text = [.endOfText] := by
    rw [Token.lexemes, h]
    rfl
  refine (within_text_iff text (Nat.zero_le _) ?_).mpr ?_
  · simp [hlexemes]
  · rw [hlexemes]
    exact ⟨Nat.zero_le _, trivial⟩

/-! ## Levels that are not counted -/

/-- The most levels around a phrase in parentheses with so many counted levels inside them. Each
pair of parentheses can have as many operators in front as are left within the limit, none of which
is counted inside. -/
def deepest : Nat → Nat
  | 0 => 0
  | inside + 1 => deepest inside + (limit + 1 - inside)

/-- The most levels around a part that binds so tightly. Only a sum can be the operand of a test
under `NOT` without being the first, and only a primary can be under a sign. -/
def mostLevels (binding : Binding) (around : Surroundings) : Nat :=
  deepest around.inside +
    match binding with
    | .or | .and => 0
    | .not | .condition => around.ahead
    | .additive | .multiplicative => limit - around.inside
    | .sign | .primary => limit - around.inside + around.ahead

/-- What binds more tightly may have more levels around it. -/
theorem most_levels_mono {loose tight : Binding} {around : Surroundings}
    (hrank : loose.rank ≤ tight.rank) (hlimit : around.inside + around.ahead ≤ limit) :
    mostLevels loose around ≤ mostLevels tight around := by
  cases loose <;> cases tight <;>
    first
    | exact absurd hrank (by decide)
    | (simp only [mostLevels]; omega)

/-- The operators in front of parentheses, counted and not, are levels of what is inside. -/
theorem most_levels_in_parens {inside ahead : Nat} (h : inside + ahead + 1 ≤ limit) :
    deepest inside + (limit - inside + ahead) + 1 ≤ deepest (inside + ahead + 1) := by
  induction ahead with
  | zero =>
      rw [Nat.add_zero, deepest]
      omega
  | succ ahead ih =>
      have hone := ih (by omega)
      rw [show inside + (ahead + 1) + 1 = inside + ahead + 1 + 1 from rfl, deepest]
      omega

/-- The phrase is spelled and shallow, and has no more levels around it than its binding lets it
have. -/
structure Bounded (phrase : Phrase) (around : Surroundings) : Prop where
  spells : ∃ tokens, Spells phrase tokens
  shallow : phrase.Shallow around
  levels_le : around.levels ≤ mostLevels phrase.binding around

/-- A child is bounded if its place is. -/
theorem bounded_of_place {child : Phrase} {around : Surroundings} {demanded : Binding}
    (hspells : Spells child tokens) (hshallow : child.Shallow around)
    (hrank : demanded.rank ≤ child.binding.rank)
    (hlevels : around.levels ≤ mostLevels demanded around) : Bounded child around where
  spells := ⟨tokens, hspells⟩
  shallow := hshallow
  levels_le :=
    Nat.le_trans hlevels (most_levels_mono hrank ((Phrase.shallow_iff _ _).mp hshallow).1.1)

/-- What a bounded phrase is made of is bounded. -/
theorem Bounded.children {around : Surroundings} (h : Bounded phrase around) :
    ∀ child ∈ phrase.childrenIn around, Bounded child.1 child.2 := by
  obtain ⟨⟨tokens, hspells⟩, hshallow, hlevels⟩ := h
  obtain ⟨⟨hlimit, -⟩, hchildren⟩ := (Phrase.shallow_iff _ _).mp hshallow
  -- What stands beside a test has the operators in front of the test around it, counted or not.
  have htested (h : around.levels ≤ mostLevels .condition around) (counted : Nat) :
      around.levels ≤ mostLevels .additive (around.behindOperand counted) := by
    change around.levels ≤ deepest around.inside + around.ahead at h
    change around.levels ≤ deepest around.inside + (limit - around.inside)
    omega
  cases hspells with
  | identifier | string | unclosedString | float | integer | boolean => exact List.forall_mem_nil _
  | @group _ _ inner _ hinner =>
      simp only [Phrase.childrenIn, List.forall_mem_singleton] at hchildren ⊢
      have hrank : Binding.or.rank ≤ inner.binding.rank := Nat.zero_le _
      have hmost : mostLevels .primary around + 1 ≤ mostLevels .or around.inParens :=
        most_levels_in_parens (inside_le_of_shallow hchildren)
      exact bounded_of_place hinner hchildren hrank
        (Nat.le_trans (Nat.succ_le_succ hlevels) hmost)
  | signed _ _ hoperand hrank | not _ hoperand hrank =>
      simp only [Phrase.childrenIn, List.forall_mem_singleton] at hchildren ⊢
      exact bounded_of_place hoperand hchildren hrank (Nat.succ_le_succ hlevels)
  | inList _ _ _ _ hoperand _ _ hrank | like _ _ hoperand _ _ hrank
  | isNull _ _ hoperand _ hrank | cutShort _ hoperand _ hrank =>
      simp only [Phrase.childrenIn, List.forall_mem_singleton] at hchildren ⊢
      exact bounded_of_place hoperand hchildren hrank (htested hlevels around.ahead)
  | arithmetic op _ hl hr hleft hright =>
      simp only [Phrase.childrenIn, List.forall_mem_cons] at hchildren ⊢
      refine ⟨bounded_of_place hl hchildren.1 hleft hlevels,
        bounded_of_place hr hchildren.2.1 hright ?_, List.forall_mem_nil _⟩
      cases op with
      | add | subtract => exact hlevels
      | multiply | divide =>
          exact Nat.le_trans hlevels (Nat.add_le_add_left (Nat.le_add_right _ _) _)
  | comparison _ _ hl hr hleft hright =>
      simp only [Phrase.childrenIn, List.forall_mem_cons] at hchildren ⊢
      exact ⟨bounded_of_place hl hchildren.1 hleft (htested hlevels around.ahead),
        bounded_of_place hr hchildren.2.1 hright (htested hlevels 0), List.forall_mem_nil _⟩
  | between _ _ ho _ hl hh hrank hlow hhigh =>
      simp only [Phrase.childrenIn, List.forall_mem_cons] at hchildren ⊢
      exact ⟨bounded_of_place ho hchildren.1 hrank (htested hlevels around.ahead),
        bounded_of_place hl hchildren.2.1 hlow (htested hlevels 0),
        bounded_of_place hh hchildren.2.2.1 hhigh (htested hlevels 0), List.forall_mem_nil _⟩
  | and _ hl hr hleft hright | or _ hl hr hleft hright =>
      simp only [Phrase.childrenIn, List.forall_mem_cons] at hchildren ⊢
      exact ⟨bounded_of_place hl hchildren.1 hleft hlevels,
        bounded_of_place hr hchildren.2.1 hright hlevels, List.forall_mem_nil _⟩

/-- The most levels around anything there are. -/
theorem most_levels_le {around : Surroundings} (hlimit : around.inside + around.ahead ≤ limit)
    (binding : Binding) : mostLevels binding around ≤ limit * (limit + 3) / 2 := by
  have hprimary := most_levels_mono (Binding.rank_le_primary binding) hlimit
  have hdeepest : ∀ inside ≤ limit, deepest inside + 2 * (limit - inside) ≤
      limit * (limit + 3) / 2 := by
    decide
  have hinside := hdeepest around.inside (Nat.le_trans (Nat.le_add_right _ _) hlimit)
  change _ ≤ deepest around.inside + (limit - around.inside + around.ahead) at hprimary
  omega

/-- No part of a shallow phrase has more levels around it. -/
theorem levels_of_shallow (hspells : Spells phrase tokens) (hshallow : phrase.Shallow .outermost) :
    ∀ part ∈ phrase.partsIn .outermost, part.2.levels ≤ limit * (limit + 3) / 2 := by
  have hbounded : Bounded phrase .outermost :=
    bounded_of_place hspells hshallow (Nat.le_refl _) (Nat.zero_le _)
  intro part hpart
  have h := Phrase.forall_parts_in (fun _ _ => Bounded.children) hbounded part hpart
  have hlimit := ((Phrase.shallow_iff _ _).mp h.shallow).1.1
  exact Nat.le_trans h.levels_le (most_levels_le hlimit _)

/-! ## Levels that there are -/

/-- A phrase is as deep as the primary it begins with, but for the operators in front of that. -/
theorem counted_le_of_primaries (phrase : Phrase) (around : Surroundings)
    (h : ∀ part ∈ phrase.partsIn around, part.1.binding = .primary →
      part.2.inside + part.2.ahead ≤ limit) : around.inside + around.ahead ≤ limit := by
  induction phrase, around using Phrase.induction_on_children with
  | h phrase around ih =>
      rw [Phrase.forall_parts_in_iff] at h
      obtain ⟨hwhole, hchildren⟩ := h
      have hchild (child) (hmem : child ∈ phrase.childrenIn around) :
          child.2.inside + child.2.ahead ≤ limit := ih child hmem (hchildren child hmem)
      cases phrase with
      | identifier | string | unclosedString | float | integer | boolean | group =>
          exact hwhole rfl
      | signed | not =>
          have hoperand := hchild _ List.mem_cons_self
          simp only [Surroundings.underOperator] at hoperand
          omega
      | _ => exact hchild _ List.mem_cons_self

/-- What is made of a phrase has no more levels counted around it than there are, if the phrase has
not and its operator does not pass for a sign. -/
theorem counted_le_levels_of_child {around : Surroundings} (hsign : phrase.passesForSign = false)
    (h : around.inside + around.ahead ≤ around.levels) :
    ∀ child ∈ phrase.childrenIn around, child.2.inside + child.2.ahead ≤ child.2.levels := by
  have hbehind : around.inside + 0 ≤ around.levels := by omega
  cases phrase with
  | identifier | string | unclosedString | float | integer | boolean => exact List.forall_mem_nil _
  | group | signed | not =>
      simp only [Phrase.childrenIn, List.forall_mem_singleton, Surroundings.inParens,
        Surroundings.underOperator]
      omega
  | inList | like | isNull | cutShort => exact List.forall_mem_singleton.mpr h
  | arithmetic =>
      rw [Phrase.childrenIn, hsign]
      exact List.forall_mem_cons.mpr ⟨h, List.forall_mem_singleton.mpr hbehind⟩
  | comparison | and | or =>
      exact List.forall_mem_cons.mpr ⟨h, List.forall_mem_singleton.mpr hbehind⟩
  | between =>
      exact List.forall_mem_cons.mpr
        ⟨h, List.forall_mem_cons.mpr ⟨hbehind, List.forall_mem_singleton.mpr hbehind⟩⟩

/-- No more levels are counted around a part than there are, unless an operator between operands
passes for a sign. -/
theorem counted_le_levels (phrase : Phrase) (around : Surroundings)
    (hsigns : ∀ part ∈ phrase.partsIn around, part.1.passesForSign = false)
    (h : around.inside + around.ahead ≤ around.levels) :
    ∀ part ∈ phrase.partsIn around, part.2.inside + part.2.ahead ≤ part.2.levels := by
  induction phrase, around using Phrase.induction_on_children with
  | h phrase around ih =>
      rw [Phrase.forall_parts_in_iff] at hsigns ⊢
      obtain ⟨hsign, hsigns⟩ := hsigns
      refine ⟨h, fun child hmem => ih child hmem (hsigns child hmem) ?_⟩
      exact counted_le_levels_of_child hsign h child hmem

/-- A phrase is shallow if its primaries have no more than `limit` levels around them, and its list
tests and negated tests fewer, parentheses and what is in front of them. -/
theorem shallow_of_levels (hlevels : ∀ part ∈ phrase.partsIn .outermost,
      part.1.binding = .primary → part.2.levels ≤ limit)
    (htests : ∀ part ∈ phrase.partsIn .outermost,
      part.1.takesLevel = true → part.2.inside < limit)
    (hsigns : ∀ part ∈ phrase.partsIn .outermost, part.1.passesForSign = false) :
    phrase.Shallow .outermost := by
  have hcounted := counted_le_levels phrase .outermost hsigns (Nat.le_refl _)
  have hprimaries : ∀ part ∈ phrase.partsIn .outermost, part.1.binding = .primary →
      part.2.inside + part.2.ahead ≤ limit :=
    fun part hpart hprimary => Nat.le_trans (hcounted part hpart) (hlevels part hpart hprimary)
  have hpassed (phrase around)
      (h : ∀ part ∈ Phrase.partsIn around phrase, part.1.binding = .primary →
        part.2.inside + part.2.ahead ≤ limit) :=
    ((Phrase.forall_parts_in_iff phrase around).mp h).2
  intro part hpart
  have hinside := Phrase.forall_parts_in hpassed hprimaries part hpart
  exact ⟨counted_le_of_primaries part.1 part.2 hinside, htests part hpart⟩

end Nesting

namespace Expr

/-- What is accepted is limited in depth. Around every part of an accepted text there are no more
than `limit` counted levels: the parentheses around it, the operators directly in front of each of
them, and those directly in front of the part itself. The operators of an operand that has begun
are not counted, so there may be more levels around it than that, but never more than the sum of
what each pair of parentheses leaves uncounted. -/
theorem levels_of_parse {text : String} {e : Expr} (h : parse text = .ok (some e)) :
    ∃ phrase, Phrase.ofTokens (Token.scan text.toList) = .ok (some phrase) ∧
      phrase.meaning text.toList = .ok e ∧
      ∀ part ∈ phrase.partsIn .outermost,
        part.2.inside + part.2.ahead ≤ Nesting.limit ∧
          part.2.levels ≤ Nesting.limit * (Nesting.limit + 3) / 2 := by
  obtain ⟨hnesting, phrase, tokens, stop, htokens, hspells, hmeaning⟩ :=
    (parse_ok_iff text e).mp h
  rw [Nesting.too_deep_eq_none_iff_shallow htokens hspells (hspells.all_proper hmeaning)]
    at hnesting
  refine ⟨phrase, ?_, hmeaning, fun part hpart => ⟨(hnesting part hpart).1, ?_⟩⟩
  · rw [htokens]
    exact Phrase.of_tokens_complete hspells stop
  · exact Nesting.levels_of_shallow hspells hnesting part hpart

/-- A sign in front of an operand is well within the limit. -/
theorem levels_of_parse_sign :
    parse "a = -b" = .ok (some (.comparison .equal (.identifier "a")
        (.signed .minus (.identifier "b")))) ∧
      ∃ phrase, Phrase.ofTokens (Token.scan "a = -b".toList) = .ok (some phrase) ∧
        phrase.meaning "a = -b".toList =
          .ok (.comparison .equal (.identifier "a") (.signed .minus (.identifier "b"))) ∧
        ∀ part ∈ phrase.partsIn .outermost,
          part.2.inside + part.2.ahead ≤ Nesting.limit ∧
            part.2.levels ≤ Nesting.limit * (Nesting.limit + 3) / 2 := by
  have h : parse "a = -b" = .ok (some (.comparison .equal (.identifier "a")
      (.signed .minus (.identifier "b")))) := by
    cbv
  exact ⟨h, levels_of_parse h⟩

/-- Whether there are so many levels around a primary of an accepted text is a matter of
computation. -/
theorem levels_of_reading {text : String} {levels : Nat}
    (hread : (match Phrase.ofTokens (Token.scan text.toList), parse text with
      | .ok (some phrase), .ok (some _) => (phrase.partsIn .outermost).any fun part =>
          part.1.binding = .primary && part.2.levels = levels
      | _, _ => false) = true) :
    ∃ phrase e, Phrase.ofTokens (Token.scan text.toList) = .ok (some phrase) ∧
      parse text = .ok (some e) ∧
      ∃ part ∈ phrase.partsIn .outermost,
        part.1.binding = .primary ∧ part.2.levels = levels := by
  split at hread
  · next phrase e hphrase hparse =>
      obtain ⟨part, hpart, hlevels⟩ := List.any_eq_true.mp hread
      rw [Bool.and_eq_true, decide_eq_true_eq, decide_eq_true_eq] at hlevels
      exact ⟨phrase, e, hphrase, hparse, part, hpart, hlevels⟩
  · cases hread

/-- Parentheses of the full depth are accepted under a `NOT` whose operand has begun before them, so
there is a level more than is counted around what they enclose. -/
theorem levels_of_parse_beyond_limit :
    let text := "NOT a = ((((((((((((((((((((((((((((((((b))))))))))))))))))))))))))))))))"
    ∃ phrase e, Phrase.ofTokens (Token.scan text.toList) = .ok (some phrase) ∧
      parse text = .ok (some e) ∧
      ∃ part ∈ phrase.partsIn .outermost,
        part.1.binding = .primary ∧ part.2.levels = Nesting.limit + 1 := by
  refine levels_of_reading ?_
  decide +kernel

/-- A text that can be read is accepted if there are no more than `limit` levels around each of its
primaries, parentheses and operators whose operand it is part of, unless a test of a list or a
negated test has as many levels around it already: the parentheses around it and the operators
directly in front of each of them. No plus or minus may stand behind a number that ends in its
point. -/
theorem parse_of_levels {text : String} {found : Option Phrase} {result : Option Expr}
    (hread : Phrase.ofTokens (Token.scan text.toList) = .ok found)
    (hbuilt : found.mapM (Phrase.meaning text.toList) = .ok result)
    (hlevels : ∀ phrase ∈ found, ∀ part ∈ phrase.partsIn .outermost,
      part.1.binding = .primary → part.2.levels ≤ Nesting.limit)
    (htests : ∀ phrase ∈ found, ∀ part ∈ phrase.partsIn .outermost,
      part.1.takesLevel = true → part.2.inside < Nesting.limit)
    (hsigns : ∀ phrase ∈ found, ∀ part ∈ phrase.partsIn .outermost,
      part.1.passesForSign = false) :
    parse text = .ok result := by
  cases found with
  | none =>
      obtain ⟨stop, hscan⟩ := Phrase.scan_of_none hread
      cases hbuilt
      unfold parse ofChars
      rw [Nesting.too_deep_of_end hscan, hread]
      rfl
  | some phrase =>
      obtain ⟨tokens, stop, rest, hscan, hspells⟩ := Phrase.of_tokens_sound hread
      obtain rfl := Token.eq_nil_of_scan_end hscan
      obtain ⟨e, hmeaning, heq⟩ := (bind_ok_iff _ _ _).mp hbuilt
      cases heq
      have hshallow : phrase.Shallow .outermost :=
        Nesting.shallow_of_levels (hlevels phrase rfl) (htests phrase rfl) (hsigns phrase rfl)
      refine (parse_ok_iff text e).mpr ⟨?_, phrase, tokens, stop, hscan, hspells, hmeaning⟩
      exact (Nesting.too_deep_eq_none_iff_shallow hscan hspells
        (hspells.all_proper hmeaning)).mpr hshallow

/-- A negated list test in parentheses under `NOT` is accepted. -/
theorem parse_of_levels_list :
    parse "NOT (a NOT IN ('x'))" = .ok (some (.not (.inList (.identifier "a") ["x"] true))) := by
  have hread : Phrase.ofTokens (Token.scan "NOT (a NOT IN ('x'))".toList) =
      .ok (some (.not ⟨0, 3⟩ (.group ⟨4, 1⟩ (.inList (.identifier ⟨5, 1⟩ "a") [⟨⟨15, 3⟩, "x"⟩]
        ⟨18, 1⟩ true) ⟨19, 1⟩))) := by
    cbv
  refine parse_of_levels hread rfl ?_ ?_ ?_
  · rintro _ ⟨⟩
    decide
  · rintro _ ⟨⟩
    decide
  · rintro _ ⟨⟩
    decide

/-- The text can be read, there are no more than `limit` levels around any of its primaries, and yet
it is found too deep at the span. -/
def Overcounted (text : String) (span : Span) : Prop :=
  ∃ phrase e, Phrase.ofTokens (Token.scan text.toList) = .ok (some phrase) ∧
    phrase.meaning text.toList = .ok e ∧
    (∀ part ∈ phrase.partsIn .outermost,
      part.1.binding = .primary → part.2.levels ≤ Nesting.limit) ∧
    parse text = .error ⟨text, .nestingTooDeep span⟩

/-- Whether a text is overcounted is a matter of computation. -/
theorem overcounted_of_reading {text : String} {span : Span}
    (hread : (match Phrase.ofTokens (Token.scan text.toList) with
      | .ok (some phrase) => (phrase.meaning text.toList).isOk &&
          (phrase.partsIn .outermost).all fun part => part.2.levels ≤ Nesting.limit
      | _ => false) = true)
    (hdeep : Nesting.tooDeep? text.toList = some span) : Overcounted text span := by
  split at hread
  · next phrase hphrase =>
      rw [Bool.and_eq_true, List.all_eq_true] at hread
      obtain ⟨hmeaning, hlevels⟩ := hread
      cases hbuilt : phrase.meaning text.toList with
      | error fault =>
          rw [hbuilt] at hmeaning
          cases hmeaning
      | ok e =>
          refine ⟨phrase, e, hphrase, hbuilt, fun part hpart _ => ?_, ?_⟩
          · exact of_decide_eq_true (hlevels part hpart)
          · unfold parse ofChars
            rw [hdeep]
            rfl
  · cases hread

/-- The parentheses of a list, the `NOT` of a test, and a minus behind a number that ends in its
point each make a level that is none. -/
theorem overcounted_tests :
    Overcounted "((((((((((((((((((((((((((((((((a IN ('x')))))))))))))))))))))))))))))))))"
        ⟨37, 1⟩ ∧
      Overcounted "((((((((((((((((((((((((((((((((a NOT LIKE 'x'))))))))))))))))))))))))))))))))"
        ⟨34, 1⟩ ∧
      Overcounted "a = 1. - ((((((((((((((((((((((((((((((((b))))))))))))))))))))))))))))))))"
        ⟨40, 1⟩ := by
  refine ⟨overcounted_of_reading ?_ ?_, overcounted_of_reading ?_ ?_,
    overcounted_of_reading ?_ ?_⟩
  all_goals decide +kernel

end Expr

end MessageSelector
