import MessageSelector.Proofs.Grammar.Awaited

/-!
# Phrases cut short

A string literal that is not closed ends a selector, and it ends one only where nothing but the end
of a list is awaited. In place of any of the string literals of a phrase, an open one either ends a
phrase of which it is the first fault, or it comes where more is awaited: `leaves_or_ends`.
-/

namespace MessageSelector

open MessageSelector.Expr (Binding)

variable {awaited : List Awaited} {ls before : List Token}

/-- In place of the string literal behind the tokens, one that is not closed makes a phrase that
binds at least so tightly, and it is the first fault in it. -/
def EndsAt (text : List Char) (binding : Binding) (before : List Token) (unclosed : Span) : Prop :=
  ∃ phrase, Spells phrase (before ++ [⟨.unclosedString, unclosed⟩]) ∧
    binding.rank ≤ phrase.binding.rank ∧
    phrase.meaning text = .error (.unterminatedString unclosed)

variable {text : List Char} {unclosed : Span} {loose tight : Binding}

/-- What ends a phrase that binds tightly ends one that binds loosely. -/
theorem EndsAt.loosen (h : EndsAt text tight before unclosed) (hrank : loose.rank ≤ tight.rank) :
    EndsAt text loose before unclosed := by
  obtain ⟨phrase, hspells, hbinding, hmeaning⟩ := h
  exact ⟨phrase, hspells, Nat.le_trans hrank hbinding, hmeaning⟩

/-- The token comes where something other than the end of a list is awaited, or a string literal in
its place that is not closed ends a phrase. -/
def LeavesOrEnds (text : List Char) (binding : Binding) (awaited : List Awaited)
    (before : List Token) (unclosed : Span) : Prop :=
  Leaves (¬ OnlyLists ·) awaited before ∨ EndsAt text binding before unclosed

/-- What ends a phrase that binds tightly ends one that binds loosely, or it comes where more is
awaited. -/
theorem LeavesOrEnds.loosen (h : LeavesOrEnds text tight awaited before unclosed)
    (hrank : loose.rank ≤ tight.rank) : LeavesOrEnds text loose awaited before unclosed :=
  h.imp_right (·.loosen hrank)

/-- What ends the last operand of a phrase ends the phrase, if there is no fault in front of it. -/
theorem LeavesOrEnds.joined (h : LeavesOrEnds text tight awaited before unclosed)
    {demanded : Binding} (hrank : demanded.rank ≤ tight.rank) {middle : List Awaited}
    (hls : Awaited.afterTokens awaited ls = middle) {joint : Token}
    (hjoint : Awaited.after middle joint.lexeme = awaited) (make : Phrase → Phrase)
    (hspells : ∀ operand tokens, Spells operand tokens → demanded.rank ≤ operand.binding.rank →
      Spells (make operand) (ls ++ joint :: tokens))
    (hbinding : ∀ operand, loose.rank ≤ (make operand).binding.rank)
    (hmeaning : ∀ operand, operand.meaning text = .error (.unterminatedString unclosed) →
      (make operand).meaning text = .error (.unterminatedString unclosed)) :
    LeavesOrEnds text loose awaited (ls ++ joint :: before) unclosed := by
  rcases h with hleaves | ⟨operand, hoperand, hoperandRank, hfault⟩
  · exact .inl (hleaves.joined hls hjoint)
  · refine .inr ⟨make operand, ?_, hbinding operand, hmeaning operand hfault⟩
    rw [List.append_assoc]
    exact hspells operand _ hoperand (Nat.le_trans hrank hoperandRank)

/-- Inside something that has to be closed, that is awaited whatever else is. -/
theorem LeavesOrEnds.inside {first : Awaited}
    (h : LeavesOrEnds text tight (first :: awaited) before unclosed)
    (hproper : AllProper before) (hadmits : ∀ binding, tight.rank ≤ binding.rank →
      Awaited.Admits (first :: awaited) binding) {middle : List Awaited}
    (hls : Awaited.afterTokens awaited ls = middle) {joint : Token}
    (hjoint : Awaited.after middle joint.lexeme = first :: awaited) (hne : first ≠ .listEnd) :
    LeavesOrEnds text loose awaited (ls ++ joint :: before) unclosed := by
  rcases h with hleaves | ⟨cut, hcut, hrank, -⟩
  · exact .inl (hleaves.inside hls hjoint hne)
  · exact .inl ((leaves_of_spells hcut rfl hproper (hadmits _ hrank)).inside hls hjoint hne)

/-- A test that is cut short in its own literals ends there, if its operand has no fault. -/
theorem ends_at_opening {operand : Phrase} {e : Expr} {opening : List Token}
    (hspells : Spells operand ls) (hmeaning : operand.meaning text = .ok e)
    (hopening : SpellsOpening opening) (hrank : Binding.additive.rank ≤ operand.binding.rank) :
    EndsAt text .condition (ls ++ opening) unclosed := by
  refine ⟨.cutShort operand unclosed, .cutShort unclosed hspells hopening hrank, Nat.le_refl _, ?_⟩
  rw [Phrase.meaning, hmeaning]
  rfl

/-- An open string under a sign is the fault of the whole. -/
theorem meaning_signed_of_unterminated {operand : Phrase}
    (h : operand.meaning text = .error (.unterminatedString unclosed)) (mark : Span) (sign : Sign) :
    (Phrase.signed mark sign operand).meaning text = .error (.unterminatedString unclosed) := by
  have hinteger : ∀ span literal, sign = .minus → operand ≠ .integer span literal := by
    rintro span literal - rfl
    rw [Phrase.meaning, Phrase.integerMeaning] at h
    split at h <;> cases h
  rw [Phrase.meaning, h]
  · rfl
  · exact hinteger

/-- A string literal in front of a test, or in its negation, is in front of both. -/
theorem eq_append_of_negation {negated : Bool} {ns after : List Token} {token : Token}
    {contents : String} (hns : SpellsNegation negated ns)
    (hsplit : ls ++ ns = before ++ token :: after) (hstring : token.lexeme = .string contents) :
    ∃ rest, ls = before ++ token :: rest := by
  refine (eq_append_of_append hsplit).resolve_right ?_
  rintro ⟨front, -, hfront⟩
  cases hns with
  | plain => simp at hfront
  | negated =>
      obtain ⟨-, rfl⟩ := eq_nil_of_singleton hfront
      cases hstring

/-- The items in front of a string of a list are items with commas after them. -/
theorem items_of_split {items : List QuotedString} {is after : List Token}
    (h : SpellsItems items is) (item : QuotedString) (rightParen : Span) {token : Token}
    {contents : String} (hstring : token.lexeme = .string contents)
    (hsplit : is ++ [item.token, ⟨.rightParen, rightParen⟩] = before ++ token :: after) :
    ∃ others, SpellsItems others before := by
  induction h generalizing before with
  | nil =>
      cases before with
      | nil => exact ⟨[], .nil⟩
      | cons _ before =>
          obtain ⟨front, -, hnil⟩ := eq_append_of_cons (List.cons.inj hsplit).2 hstring (by simp)
          simp at hnil
  | @cons first comma items is _ ih =>
      cases before with
      | nil => exact ⟨[], .nil⟩
      | cons _ before =>
          obtain ⟨rfl, hrest⟩ := List.cons.inj hsplit
          obtain ⟨front, rfl, hfront⟩ := eq_append_of_cons hrest hstring (by simp)
          obtain ⟨others, hothers⟩ := ih hfront
          exact ⟨first :: others, .cons first comma hothers⟩

/-- In front of a string of a pattern test there is an opening of the test. -/
theorem opening_of_pattern {pattern : QuotedString} {escape : Option QuotedString}
    {negated : Bool} {ns es after : List Token} {token : Token} {contents : String} (word : Span)
    (hnegation : SpellsNegation negated ns) (hescape : SpellsEscape escape es)
    (hstring : token.lexeme = .string contents)
    (hsplit : pattern.token :: es = before ++ token :: after) :
    SpellsOpening (ns ++ ⟨.keyword .like, word⟩ :: before) := by
  cases before with
  | nil => exact .pattern word hnegation
  | cons _ before =>
      obtain ⟨rfl, hes⟩ := List.cons.inj hsplit
      cases hescape with
      | absent => simp at hes
      | present mark escape =>
          obtain ⟨front, rfl, hfront⟩ := eq_append_of_cons hes hstring (by simp)
          obtain ⟨rfl, -⟩ := eq_nil_of_singleton hfront
          exact .escape word pattern mark hnegation

/-- A string literal in a phrase with a binary operator is in one of the operands. What ends the
left one ends a phrase, and what ends the right one ends the whole. -/
theorem LeavesOrEnds.of_operator {left right : Phrase} {rs after : List Token}
    {joint token : Token} {contents : String} {demanded : Binding} {e : Expr}
    (make : Phrase → Phrase) {combine : Expr → Expr → Expr}
    (hmeans : ∀ operand, (make operand).meaning text = do
      let left ← left.meaning text
      let right ← operand.meaning text
      return combine left right)
    (hmeaning : (make right).meaning text = .ok e) (hspells : Spells left ls)
    (hsplit : ls ++ joint :: rs = before ++ token :: after)
    (hstring : token.lexeme = .string contents) (hne : joint.lexeme ≠ .string contents)
    (hleft : ∀ {a rest}, left.meaning text = .ok a → ls = before ++ token :: rest →
      LeavesOrEnds text left.binding awaited before unclosed)
    (hright : ∀ {b front}, right.meaning text = .ok b → rs = front ++ token :: after →
      LeavesOrEnds text right.binding awaited front unclosed)
    (hadmits : Awaited.Admits awaited left.binding)
    (hleftRank : loose.rank ≤ left.binding.rank) (hrightRank : demanded.rank ≤ right.binding.rank)
    (hjoint : Awaited.after awaited joint.lexeme = awaited)
    (hmake : ∀ operand tokens, Spells operand tokens → demanded.rank ≤ operand.binding.rank →
      Spells (make operand) (ls ++ joint :: tokens))
    (hbinding : ∀ operand, loose.rank ≤ (make operand).binding.rank) :
    LeavesOrEnds text loose awaited before unclosed := by
  rw [hmeans] at hmeaning
  simp only [bind_ok_iff] at hmeaning
  obtain ⟨a, ha, b, hb, -⟩ := hmeaning
  have hls := Awaited.after_spells hspells (hspells.all_proper ha) hadmits
  obtain ⟨rest, hrest⟩ | ⟨front, rfl, hfront⟩ := eq_append_of_joined hsplit hstring hne
  · exact (hleft ha hrest).loosen hleftRank
  · refine (hright hb hfront).joined hrightRank hls hjoint make hmake hbinding fun operand h => ?_
    rw [hmeans, ha, h]
    rfl

/-- A string literal in a range test is in one of its three operands. Only what ends the last one
ends the test: in front of the word that joins the bounds, that word is still to come. -/
theorem LeavesOrEnds.of_between {tested low high : Phrase} {negated : Bool}
    {ns lows highs after : List Token} {word joint : Span} {token : Token} {contents : String}
    {e : Expr} (hspells : Spells tested ls) (hnegation : SpellsNegation negated ns)
    (hlowSpells : Spells low lows)
    (hmeaning : (Phrase.between tested low high negated).meaning text = .ok e)
    (hsplit : ls ++ ns ++ ⟨.keyword .between, word⟩ :: lows ++ ⟨.keyword .and, joint⟩ :: highs =
      before ++ token :: after)
    (hstring : token.lexeme = .string contents)
    (htested : ∀ {a rest}, tested.meaning text = .ok a → ls = before ++ token :: rest →
      LeavesOrEnds text tested.binding awaited before unclosed)
    (hlow : ∀ {b front rest}, low.meaning text = .ok b → lows = front ++ token :: rest →
      LeavesOrEnds text low.binding (.joint :: awaited) front unclosed)
    (hhigh : ∀ {b front}, high.meaning text = .ok b → highs = front ++ token :: after →
      LeavesOrEnds text high.binding awaited front unclosed)
    (hadmits : Awaited.Admits awaited .condition)
    (hrank : Binding.additive.rank ≤ tested.binding.rank)
    (hlowRank : Binding.additive.rank ≤ low.binding.rank)
    (hhighRank : Binding.additive.rank ≤ high.binding.rank) :
    LeavesOrEnds text .condition awaited before unclosed := by
  rw [Phrase.meaning] at hmeaning
  simp only [bind_ok_iff] at hmeaning
  obtain ⟨a, ha, b, hb, c, hc, -⟩ := hmeaning
  have hls := Awaited.after_spells hspells (hspells.all_proper ha) (hadmits.operand hrank)
  have hlowProper := hlowSpells.all_proper hb
  have hinside (binding : Binding) (h : Binding.additive.rank ≤ binding.rank) :=
    Awaited.admits_joint awaited h
  obtain ⟨rest, hrest⟩ | ⟨front, rfl, hfront⟩ := eq_append_of_joined hsplit hstring (by simp)
  · obtain ⟨rest, hrest⟩ | ⟨front, rfl, rfl⟩ := eq_append_of_joined hrest hstring (by simp)
    · obtain ⟨rest, hrest⟩ := eq_append_of_negation hnegation hrest hstring
      exact (htested ha hrest).loosen (Nat.le_trans (by decide) hrank)
    · rw [all_proper_append] at hlowProper
      have hnot : Awaited.afterTokens awaited (ls ++ ns) = awaited := by
        rw [Awaited.after_tokens_append, hls, Awaited.after_negation hnegation]
      exact (hlow hb rfl).inside hlowProper.1
        (fun binding h => hinside binding (Nat.le_trans hlowRank h)) hnot rfl (by decide)
  · have hbound := Awaited.after_bound hnegation hls word
      (Awaited.after_spells hlowSpells hlowProper (hinside _ hlowRank))
    refine (hhigh hc hfront).joined hhighRank hbound rfl (.between _ _ · _)
      (fun _ _ hoperand h => .between word joint hspells hnegation hlowSpells hoperand hrank
        hlowRank h)
      (fun _ => Nat.le_refl _) fun operand h => ?_
    rw [Phrase.meaning, ha, hb, h]
    rfl

/-- A number has no string literal in it. -/
theorem Spells.ne_integer {span : Span} {literal : String} {token : Token} {contents : String}
    {after : List Token} (h : Spells (.integer span literal) (before ++ token :: after)) :
    token.lexeme ≠ .string contents := by
  generalize htokens : before ++ token :: after = tokens at h
  cases h
  obtain ⟨-, rfl⟩ := eq_nil_of_singleton htokens.symm
  simp

/-- A string literal in a phrase that has a meaning either comes where something other than the end
of a list is awaited, or one in its place that is not closed ends the phrase. -/
theorem leaves_or_ends {phrase : Phrase} {tokens : List Token} (h : Spells phrase tokens)
    {e : Expr} (hmeaning : phrase.meaning text = .ok e) {token : Token} {contents : String}
    {after : List Token} (hsplit : tokens = before ++ token :: after)
    (hstring : token.lexeme = .string contents) (unclosed : Span)
    (hadmits : Awaited.Admits awaited phrase.binding) :
    LeavesOrEnds text phrase.binding awaited before unclosed := by
  have hcondition : Binding.condition.rank ≤ Binding.additive.rank := by decide
  -- The literal is in an operand of the phrase, or it is one of a test's own. An operand with other
  -- things behind it is cut short together with them.
  induction h generalizing e before after awaited with
  | string =>
      obtain ⟨rfl, -⟩ := eq_nil_of_singleton hsplit
      exact .inr ⟨.unclosedString unclosed, .unclosedString unclosed, Nat.le_refl _, rfl⟩
  | identifier | unclosedString | float | integer | boolean =>
      obtain ⟨-, rfl⟩ := eq_nil_of_singleton hsplit
      cases hstring
  | group _ _ hspells ih =>
      obtain ⟨rest, hrest⟩ | ⟨front, -, hfront⟩ := eq_append_of_append hsplit
      · obtain ⟨front, rfl, rfl⟩ := eq_append_of_cons hrest hstring (by simp)
        have hproper := hspells.all_proper hmeaning
        rw [all_proper_append] at hproper
        -- Even if the inner phrase ends there, its parenthesis is still to come.
        have hinner := Awaited.admits_right_paren awaited
        rw [← List.nil_append (_ :: front)]
        exact (ih hmeaning rfl (hinner _)).inside hproper.1 (fun _ _ => hinner _) rfl
          hadmits.after_left_paren (by decide)
      · obtain ⟨-, rfl⟩ := eq_nil_of_singleton hfront
        cases hstring
  | signed mark sign hspells hrank ih =>
      obtain ⟨front, rfl, rfl⟩ :=
        eq_append_of_cons hsplit hstring (by cases sign <;> simp [Sign.lexeme])
      obtain ⟨inner, hinner, -⟩ | ⟨_, _, -, rfl, -⟩ := Phrase.meaning_signed_ok hmeaning
      · rw [← List.nil_append (_ :: front)]
        exact (ih hinner rfl (hadmits.tighten hrank)).joined hrank rfl
          (Awaited.after_sign awaited sign) (.signed mark sign)
          (fun _ _ => .signed mark sign) (fun _ => Nat.le_refl _)
          fun _ h => meaning_signed_of_unterminated h mark sign
      · exact absurd hstring hspells.ne_integer
  | arithmetic op span hl hr hleft hright ihLeft ihRight =>
      exact .of_operator (.arithmetic op _) (fun _ => rfl) hmeaning hl hsplit hstring
        (by cases op <;> simp [Arithmetic.lexeme])
        (fun h hrest => ihLeft h hrest (hadmits.tighten hleft))
        (fun h hfront => ihRight h hfront (hadmits.right_of_arithmetic hright))
        (hadmits.tighten hleft) hleft hright (Awaited.after_arithmetic awaited op)
        (fun _ _ hoperand hrank => .arithmetic op span hl hoperand hleft hrank)
        fun _ => Nat.le_refl _
  | comparison op span hl hr hleft hright ihLeft ihRight =>
      exact .of_operator (.comparison op _) (fun _ => rfl) hmeaning hl hsplit hstring (by simp)
        (fun h hrest => ihLeft h hrest (hadmits.operand hleft))
        (fun h hfront => ihRight h hfront (hadmits.operand hright))
        (hadmits.operand hleft) (Nat.le_trans hcondition hleft) hright rfl
        (fun _ _ hoperand hrank => .comparison op span hl hoperand hleft hrank)
        fun _ => Nat.le_refl _
  | between word joint ho hnegation hl hh hrank hlow hhigh ih ihLow ihHigh =>
      exact .of_between ho hnegation hl hmeaning hsplit hstring
        (fun h hrest => ih h hrest (hadmits.operand hrank))
        (fun h hfront => ihLow h hfront (Awaited.admits_joint awaited hlow))
        (fun h hfront => ihHigh h hfront (hadmits.operand hhigh)) hadmits hrank hlow hhigh
  | inList inside leftParen rightParen item ho hnegation hitems hrank ih =>
      rw [Phrase.meaning, bind_ok_iff] at hmeaning
      obtain ⟨tested, htested, -⟩ := hmeaning
      rw [List.append_assoc, List.cons_append, List.cons_append] at hsplit
      obtain ⟨rest, hrest⟩ | ⟨front, rfl, hfront⟩ := eq_append_of_joined hsplit hstring (by simp)
      · obtain ⟨rest, hrest⟩ := eq_append_of_negation hnegation hrest hstring
        exact (ih htested hrest (hadmits.operand hrank)).loosen (Nat.le_trans hcondition hrank)
      · obtain ⟨front, rfl, hitem⟩ := eq_append_of_cons hfront hstring (by simp)
        obtain ⟨others, hothers⟩ := items_of_split hitems item rightParen hstring hitem
        rw [List.append_assoc]
        exact .inr (ends_at_opening ho htested (.inList inside leftParen hnegation hothers) hrank)
  | like word pattern ho hnegation hescape hrank ih =>
      rw [Phrase.meaning, bind_ok_iff] at hmeaning
      obtain ⟨tested, htested, -⟩ := hmeaning
      obtain ⟨rest, hrest⟩ | ⟨front, rfl, hfront⟩ := eq_append_of_joined hsplit hstring (by simp)
      · obtain ⟨rest, hrest⟩ := eq_append_of_negation hnegation hrest hstring
        exact (ih htested hrest (hadmits.operand hrank)).loosen (Nat.le_trans hcondition hrank)
      · rw [List.append_assoc]
        refine .inr (ends_at_opening ho htested ?_ hrank)
        exact opening_of_pattern word hnegation hescape hstring hfront
  | @isNull _ _ _ _ _ ns ho hnegation hrank ih =>
      rw [Phrase.meaning, bind_ok_iff] at hmeaning
      obtain ⟨tested, htested, -⟩ := hmeaning
      obtain ⟨rest, hrest⟩ | ⟨front, -, hfront⟩ := eq_append_of_append hsplit
      · obtain ⟨rest, hrest⟩ | ⟨front, -, hfront⟩ := eq_append_of_joined hrest hstring (by simp)
        · exact (ih htested hrest (hadmits.operand hrank)).loosen (Nat.le_trans hcondition hrank)
        · rw [← List.nil_append ns] at hfront
          obtain ⟨rest, hnil⟩ := eq_append_of_negation hnegation hfront hstring
          simp at hnil
      · obtain ⟨-, rfl⟩ := eq_nil_of_singleton hfront
        cases hstring
  | cutShort => exact absurd hmeaning (Phrase.meaning_cut_short _ _ _ e)
  | not word hspells hrank ih =>
      obtain ⟨front, rfl, rfl⟩ := eq_append_of_cons hsplit hstring (by simp)
      rw [Phrase.meaning, bind_ok_iff] at hmeaning
      obtain ⟨inner, hinner, -⟩ := hmeaning
      rw [← List.nil_append (_ :: front)]
      refine (ih hinner rfl (hadmits.tighten hrank)).joined hrank rfl rfl (.not word)
        (fun _ _ => .not word) (fun _ => Nat.le_refl _) fun operand h => ?_
      rw [Phrase.meaning, h]
      rfl
  | and word hl hr hleft hright ihLeft ihRight =>
      exact .of_operator (.and _) (fun _ => rfl) hmeaning hl hsplit hstring (by simp)
        (fun h hrest => ihLeft h hrest (hadmits.tighten hleft))
        (fun h hfront => ihRight h hfront (hadmits.right_of_and hright))
        (hadmits.tighten hleft) hleft hright hadmits.after_and
        (fun _ _ hoperand hrank => .and word hl hoperand hleft hrank)
        fun _ => Nat.le_refl _
  | or word hl hr hleft hright ihLeft ihRight =>
      exact .of_operator (.or _) (fun _ => rfl) hmeaning hl hsplit hstring (by simp)
        (fun h hrest => ihLeft h hrest (hadmits.tighten hleft))
        (fun h hfront => ihRight h hfront (hadmits.right_of_or hright))
        (hadmits.tighten hleft) hleft hright rfl
        (fun _ _ hoperand hrank => .or word hl hoperand hleft hrank)
        fun _ => Nat.le_refl _

end MessageSelector
