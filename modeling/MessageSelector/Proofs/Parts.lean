import MessageSelector.Proofs.Standing

/-!
# Parts of phrases

A part of a phrase has a run of the phrase's tokens for itself, and whatever stands for the part may
stand in its place: `Spells.place_of_part`. The parts are what is written of an expression:
`part_of_subtree` finds one for each of its subtrees.
-/

namespace MessageSelector

open MessageSelector.Expr (Binding)

namespace Phrase

/-- The phrases that a phrase is made of. -/
def children : Phrase → List Phrase
  | identifier .. | string _ | unclosedString _ | float .. | integer .. | boolean .. => []
  | group _ operand _ | signed _ _ operand | inList operand _ _ _ | like operand _ _ _
  | isNull operand _ _ | cutShort operand _ | not _ operand => [operand]
  | arithmetic _ left right | comparison _ left right | and left right | or left right =>
    [left, right]
  | between operand low high _ => [operand, low, high]

end Phrase

/-- The first phrase is a part of the second: the whole, or a part of one that it is made of. -/
inductive Part : Phrase → Phrase → Prop where
  | whole (phrase) : Part phrase phrase
  | inside {part child phrase} : child ∈ phrase.children → Part part child → Part part phrase

/-- Among the tokens of the phrase are those of the part, and whatever stands for the part may be
spelled in their place. -/
def PlaceOf (text : List Char) (part phrase : Phrase) (tokens : List Token) : Prop :=
  ∃ before inner after, tokens = before ++ inner ++ after ∧ Spells part inner ∧
    ∀ part' inner', Spells part' inner' → Phrase.Stands text text part part' →
      ∃ phrase', Spells phrase' (before ++ inner' ++ after) ∧
        Phrase.Stands text text phrase phrase'

variable {text : List Char} {part operand left right : Phrase}

/-- The operand in front of a test has a place there. -/
theorem place_of_tested (make : Phrase → Phrase) (test : List Token) {os : List Token}
    (hspells : Spells operand os) (hrank : Binding.additive.rank ≤ operand.binding.rank)
    (hmake : ∀ other ts, Spells other ts → Binding.additive.rank ≤ other.binding.rank →
      Spells (make other) (ts ++ test))
    (hstands : ∀ other, Phrase.Stands text text operand other →
      Phrase.Stands text text (make operand) (make other)) :
    PlaceOf text operand (make operand) (os ++ test) := by
  refine ⟨[], os, test, rfl, hspells, fun other ts hother hfor => ⟨make other, ?_, hstands _ hfor⟩⟩
  exact hmake other ts hother (Nat.le_trans hrank hfor.rank_le)

/-- The operands on both sides of an operator have a place there. -/
theorem place_of_joined (make : Phrase → Phrase → Phrase) (operator : Token) {ls rs : List Token}
    {wanted demanded : Binding} (hspellsLeft : Spells left ls) (hspellsRight : Spells right rs)
    (hleft : wanted.rank ≤ left.binding.rank) (hright : demanded.rank ≤ right.binding.rank)
    (hmake : ∀ l r ts us, Spells l ts → Spells r us → wanted.rank ≤ l.binding.rank →
      demanded.rank ≤ r.binding.rank → Spells (make l r) (ts ++ operator :: us))
    (hstands : ∀ l r, Phrase.Stands text text left l → Phrase.Stands text text right r →
      Phrase.Stands text text (make left right) (make l r))
    (hpart : part ∈ [left, right]) :
    PlaceOf text part (make left right) (ls ++ operator :: rs) := by
  rw [List.mem_pair] at hpart
  rcases hpart with rfl | rfl
  · refine ⟨[], ls, operator :: rs, rfl, hspellsLeft, fun other ts hother hfor => ?_⟩
    exact ⟨make other right, hmake _ _ _ _ hother hspellsRight (Nat.le_trans hleft hfor.rank_le)
      hright, hstands _ _ hfor (.refl _ _)⟩
  · refine ⟨ls ++ [operator], rs, [], by simp, hspellsRight, fun other ts hother hfor => ?_⟩
    have hwhole := hmake _ _ _ _ hspellsLeft hother hleft (Nat.le_trans hright hfor.rank_le)
    exact ⟨make left other, by simpa using hwhole, hstands _ _ (.refl _ _) hfor⟩

/-- What a phrase is made of has a place in it. -/
theorem Spells.place_of_child {phrase : Phrase} {tokens : List Token} (h : Spells phrase tokens)
    (text : List Char) (hchild : part ∈ phrase.children) : PlaceOf text part phrase tokens := by
  cases h with
  | identifier | string | unclosedString | float | integer | boolean => cases hchild
  | group leftParen rightParen hspells =>
      rw [List.mem_singleton.mp hchild]
      refine ⟨[_], _, [_], rfl, hspells, fun other ts hother hfor => ?_⟩
      exact ⟨_, .group leftParen rightParen hother, hfor.group _ _ _ _⟩
  | signed mark sign hspells hrank =>
      rw [List.mem_singleton.mp hchild]
      refine ⟨[_], _, [], (List.append_nil _).symm, hspells, fun other ts hother hfor => ?_⟩
      rw [List.append_nil]
      exact ⟨_, .signed mark sign hother (Nat.le_trans hrank hfor.rank_le),
        hfor.under_sign _ _ sign⟩
  | arithmetic op span hls hrs hleft hright =>
      exact place_of_joined (.arithmetic op) _ hls hrs hleft hright
        (fun _ _ _ _ => .arithmetic op span) (fun _ _ hl hr => hl.arithmetic hr op) hchild
  | comparison op span hls hrs hleft hright =>
      exact place_of_joined (.comparison op) _ hls hrs hleft hright
        (fun _ _ _ _ => .comparison op span) (fun _ _ hl hr => hl.comparison hr op) hchild
  | @between word joint operand low high negated os ns ls hs hos hnegation hls hhs hrank hlow
      hhigh =>
      simp only [Phrase.children, List.mem_cons, List.not_mem_nil, or_false] at hchild
      rcases hchild with rfl | rfl | rfl
      · simp only [List.append_assoc, List.cons_append]
        refine place_of_tested (.between · low high negated) _ hos hrank
          (fun other ts hother hbinding => ?_)
          fun other hfor => hfor.between (.refl _ _) (.refl _ _) _
        simpa using Spells.between word joint hother hnegation hls hhs hbinding hlow hhigh
      · refine ⟨os ++ ns ++ [⟨.keyword .between, word⟩], ls, ⟨.keyword .and, joint⟩ :: hs, by simp,
          hls, fun other ts hother hfor => ⟨.between operand other high negated, ?_,
            Phrase.Stands.between (.refl _ _) hfor (.refl _ _) _⟩⟩
        simpa using Spells.between word joint hos hnegation hother hhs hrank
          (Nat.le_trans hlow hfor.rank_le) hhigh
      · refine ⟨os ++ ns ++ ⟨.keyword .between, word⟩ :: ls ++ [⟨.keyword .and, joint⟩], hs, [],
          by simp, hhs, fun other ts hother hfor => ⟨.between operand low other negated, ?_,
            Phrase.Stands.between (.refl _ _) (.refl _ _) hfor _⟩⟩
        simpa using Spells.between word joint hos hnegation hls hother hrank hlow
          (Nat.le_trans hhigh hfor.rank_le)
  | inList inside leftParen rightParen item hos hnegation hitems hrank =>
      rw [List.mem_singleton.mp hchild]
      simp only [List.append_assoc, List.cons_append]
      refine place_of_tested (.inList · _ rightParen _) _ hos hrank
        (fun other ts hother hbinding => ?_) fun other hfor => hfor.in_list rfl _ _ _
      simpa using Spells.inList inside leftParen rightParen item hother hnegation hitems hbinding
  | like word pattern hos hnegation hescape hrank =>
      rw [List.mem_singleton.mp hchild]
      rw [List.append_assoc]
      refine place_of_tested (.like · pattern _ _) _ hos hrank
        (fun other ts hother hbinding => ?_) fun other hfor => hfor.like rfl rfl _
      simpa using Spells.like word pattern hother hnegation hescape hbinding
  | isNull word nullKeyword hos hnegation hrank =>
      rw [List.mem_singleton.mp hchild]
      rw [List.append_assoc]
      refine place_of_tested (.isNull · nullKeyword _) _ hos hrank
        (fun other ts hother hbinding => ?_) fun other hfor => hfor.is_null _ _ _
      simpa using Spells.isNull word nullKeyword hother hnegation hbinding
  | cutShort unclosed hos hopening hrank =>
      rw [List.mem_singleton.mp hchild]
      rw [List.append_assoc]
      refine place_of_tested (.cutShort · unclosed) _ hos hrank
        (fun other ts hother hbinding => ?_) fun other hfor => ?_
      · simpa using Spells.cutShort unclosed hother hopening hbinding
      · exact .of_meaning (fun _ _ => nofun) (Nat.le_refl _)
          fun e hok => absurd hok (Phrase.meaning_cut_short _ _ _ e)
  | not word hspells hrank =>
      rw [List.mem_singleton.mp hchild]
      refine ⟨[_], _, [], (List.append_nil _).symm, hspells, fun other ts hother hfor => ?_⟩
      rw [List.append_nil]
      exact ⟨_, .not word hother (Nat.le_trans hrank hfor.rank_le), hfor.not _ _⟩
  | and word hls hrs hleft hright =>
      exact place_of_joined .and _ hls hrs hleft hright (fun _ _ _ _ => .and word)
        (fun _ _ hl hr => hl.and hr) hchild
  | or word hls hrs hleft hright =>
      exact place_of_joined .or _ hls hrs hleft hright (fun _ _ _ _ => .or word)
        (fun _ _ hl hr => hl.or hr) hchild

/-- A part of a phrase has a place in it. -/
theorem Spells.place_of_part {phrase : Phrase} {tokens : List Token} (h : Spells phrase tokens)
    (text : List Char) (hpart : Part part phrase) : PlaceOf text part phrase tokens := by
  induction hpart generalizing tokens with
  | whole =>
      refine ⟨[], tokens, [], by simp, h, fun other ts hother hfor => ⟨other, ?_, hfor⟩⟩
      simpa using hother
  | inside hchild _ ih =>
      obtain ⟨before, inner, after, rfl, hspells, hreplace⟩ := h.place_of_child text hchild
      obtain ⟨front, core, back, rfl, hcore, hexchange⟩ := ih hspells
      refine ⟨before ++ front, core, back ++ after, by simp, hcore, fun other ts hother hfor => ?_⟩
      obtain ⟨child, hchildSpells, hchildStands⟩ := hexchange other ts hother hfor
      obtain ⟨whole, hwhole, hstands⟩ := hreplace child _ hchildSpells hchildStands
      exact ⟨whole, by simpa using hwhole, hstands⟩

/-! ## Places of phrases -/

/-- What begins with tokens begins where they do. -/
theorem start_append {ls : List Token} {start : Nat}
    (h : ls.head?.map (·.span.start) = some start) (ms : List Token) :
    (ls ++ ms).head?.map (·.span.start) = some start := by
  cases ls with
  | nil => cases h
  | cons => exact h

/-- What ends with tokens ends where they do. -/
theorem stop_append {ms : List Token} {stop : Nat}
    (h : ms.getLast?.map (·.span.stop) = some stop) (ls : List Token) :
    (ls ++ ms).getLast?.map (·.span.stop) = some stop := by
  obtain ⟨last, hlast, hstop⟩ := Option.map_eq_some_iff.mp h
  rw [List.getLast?_append, hlast, Option.some_or, Option.map_some, hstop]

/-- A token in front of others does not end with them. -/
theorem stop_cons {ms : List Token} {stop : Nat}
    (h : ms.getLast?.map (·.span.stop) = some stop) (token : Token) :
    (token :: ms).getLast?.map (·.span.stop) = some stop :=
  stop_append h [token]

/-- A phrase begins where its first token does. -/
theorem Spells.start_eq {phrase : Phrase} {tokens : List Token} (h : Spells phrase tokens) :
    tokens.head?.map (·.span.start) = some phrase.start := by
  induction h with
  | arithmetic _ _ _ _ _ _ ihLeft | comparison _ _ _ _ _ _ ihLeft | and _ _ _ _ _ ihLeft
  | or _ _ _ _ _ ihLeft => exact start_append ihLeft _
  | between _ _ _ _ _ _ _ _ _ ih | inList _ _ _ _ _ _ _ _ ih =>
      exact start_append (start_append (start_append ih _) _) _
  | like _ _ _ _ _ _ ih | isNull _ _ _ _ _ ih | cutShort _ _ _ _ ih =>
      exact start_append (start_append ih _) _
  | _ => rfl

/-- A phrase ends where its last token does. -/
theorem Spells.stop_eq {phrase : Phrase} {tokens : List Token} (h : Spells phrase tokens) :
    tokens.getLast?.map (·.span.stop) = some phrase.stop := by
  induction h with
  | signed mark _ _ _ ih | not _ _ _ ih => exact stop_cons ih _
  | arithmetic _ _ _ _ _ _ _ ihRight | comparison _ _ _ _ _ _ _ ihRight
  | and _ _ _ _ _ _ ihRight | or _ _ _ _ _ _ ihRight => exact stop_append (stop_cons ihRight _) _
  | between _ _ _ _ _ _ _ _ _ _ _ ihHigh => exact stop_append (stop_cons ihHigh _) _
  | like word pattern _ _ hescape =>
      refine stop_append (stop_cons ?_ _) _
      cases hescape <;> rfl
  | group | inList | isNull | cutShort => exact stop_append (by rfl) _
  | _ => rfl

/-! ## Parts and subtrees -/

/-- The expressions that an expression is made of. -/
def Expr.children : Expr → List Expr
  | identifier _ | literal _ => []
  | not operand | signed _ operand | inList operand _ _ | like operand _ _ | isNull operand _ =>
    [operand]
  | and left right | or left right | comparison _ left right | arithmetic _ left right =>
    [left, right]
  | between operand low high _ => [operand, low, high]

/-- The first expression is a subtree of the second: the whole, or one of what it is made of. -/
inductive Subtree : Expr → Expr → Prop where
  | whole (e) : Subtree e e
  | inside {sub child e} : child ∈ e.children → Subtree sub child → Subtree sub e

/-- A subtree is the whole, or a subtree of what the whole is made of. -/
theorem subtree_iff (sub e : Expr) :
    Subtree sub e ↔ sub = e ∨ ∃ child ∈ e.children, Subtree sub child := by
  constructor
  · intro h
    cases h with
    | whole => exact .inl rfl
    | inside hchild hsub => exact .inr ⟨_, hchild, hsub⟩
  · rintro (rfl | ⟨child, hchild, hsub⟩)
    · exact .whole _
    · exact .inside hchild hsub

/-- A part of a part is a part. -/
theorem Part.trans {phrase whole : Phrase} (h : Part part phrase) (hwhole : Part phrase whole) :
    Part part whole := by
  induction hwhole with
  | whole => exact h
  | inside hchild _ ih => exact .inside hchild ih

/-- A child of a phrase is a part of it. -/
theorem part_of_child {phrase : Phrase} (h : part ∈ phrase.children) : Part part phrase :=
  .inside h (.whole part)

/-- An expression under a sign is made of what is under the sign, if of anything. -/
theorem Expr.child_with_sign {sign : Sign} {inner child : Expr}
    (h : child ∈ (inner.withSign sign).children) : child = inner := by
  cases inner with
  | literal value =>
      cases hsigned : value.signed? sign with
      | some number =>
          rw [Expr.with_sign_of_some hsigned] at h
          cases h
      | none =>
          rw [Expr.with_sign_of_none hsigned] at h
          exact List.mem_singleton.mp h
  | _ => exact List.mem_singleton.mp h

/-- What an expression is made of is what parts of its phrase mean. -/
theorem part_of_expr_child {phrase : Phrase} {e child : Expr}
    (hmeaning : phrase.meaning text = .ok e) (hchild : child ∈ e.children) :
    ∃ part, Part part phrase ∧ part.meaning text = .ok child := by
  -- Parentheses are passed through, and the number that a sign is part of is made of nothing.
  induction phrase generalizing e with
  | identifier | string | boolean =>
      cases hmeaning
      cases hchild
  | float =>
      obtain ⟨_, -, rfl⟩ := (Phrase.float_meaning_ok_iff _ _ _).mp hmeaning
      cases hchild
  | integer =>
      obtain ⟨_, -, rfl⟩ := (Phrase.integer_meaning_ok_iff _ _ _ _).mp hmeaning
      cases hchild
  | unclosedString => cases hmeaning
  | cutShort => exact absurd hmeaning (Phrase.meaning_cut_short _ _ _ e)
  | group _ inner _ ih =>
      obtain ⟨part, hpart, hpartMeaning⟩ := ih hmeaning hchild
      exact ⟨part, .inside (List.mem_singleton_self inner) hpart, hpartMeaning⟩
  | signed mark sign operand =>
      obtain ⟨inner, hinner, rfl⟩ | ⟨_, _, -, -, hinteger⟩ := Phrase.meaning_signed_ok hmeaning
      · rw [Expr.child_with_sign hchild]
        exact ⟨operand, part_of_child (List.mem_singleton_self operand), hinner⟩
      · obtain ⟨_, -, rfl⟩ := (Phrase.integer_meaning_ok_iff _ _ _ _).mp hinteger
        cases hchild
  | arithmetic op left right | comparison op left right | and left right | or left right =>
      rw [Phrase.meaning] at hmeaning
      simp only [bind_ok_iff] at hmeaning
      obtain ⟨l, hl, r, hr, heq⟩ := hmeaning
      cases heq
      rcases List.mem_pair.mp hchild with rfl | rfl
      · exact ⟨left, part_of_child (by simp [Phrase.children]), hl⟩
      · exact ⟨right, part_of_child (by simp [Phrase.children]), hr⟩
  | between operand low high =>
      rw [Phrase.meaning] at hmeaning
      simp only [bind_ok_iff] at hmeaning
      obtain ⟨tested, htested, l, hl, h, hh, heq⟩ := hmeaning
      cases heq
      simp only [Expr.children, List.mem_cons, List.not_mem_nil, or_false] at hchild
      rcases hchild with rfl | rfl | rfl
      · exact ⟨operand, part_of_child (by simp [Phrase.children]), htested⟩
      · exact ⟨low, part_of_child (by simp [Phrase.children]), hl⟩
      · exact ⟨high, part_of_child (by simp [Phrase.children]), hh⟩
  | inList operand | isNull operand =>
      rw [Phrase.meaning] at hmeaning
      simp only [bind_ok_iff] at hmeaning
      obtain ⟨tested, htested, _, -, heq⟩ := hmeaning
      cases heq
      rw [List.mem_singleton.mp hchild]
      exact ⟨operand, part_of_child (List.mem_singleton_self operand), htested⟩
  | like operand =>
      rw [Phrase.meaning] at hmeaning
      simp only [bind_ok_iff] at hmeaning
      obtain ⟨tested, htested, _, -, _, -, heq⟩ := hmeaning
      cases heq
      rw [List.mem_singleton.mp hchild]
      exact ⟨operand, part_of_child (List.mem_singleton_self operand), htested⟩
  | not word operand =>
      rw [Phrase.meaning, bind_ok_iff] at hmeaning
      obtain ⟨inner, hinner, heq⟩ := hmeaning
      cases heq
      rw [List.mem_singleton.mp hchild]
      exact ⟨operand, part_of_child (List.mem_singleton_self operand), hinner⟩

/-- Every subtree of what a phrase means is what a part of the phrase means. -/
theorem part_of_subtree {phrase : Phrase} {e sub : Expr} (hmeaning : phrase.meaning text = .ok e)
    (hsub : Subtree sub e) : ∃ part, Part part phrase ∧ part.meaning text = .ok sub := by
  induction hsub generalizing phrase with
  | whole => exact ⟨phrase, .whole phrase, hmeaning⟩
  | inside hchild _ ih =>
      obtain ⟨inner, hinner, hinnerMeaning⟩ := part_of_expr_child hmeaning hchild
      obtain ⟨part, hpart, hpartMeaning⟩ := ih hinnerMeaning
      exact ⟨part, hpart.trans hinner, hpartMeaning⟩

end MessageSelector
