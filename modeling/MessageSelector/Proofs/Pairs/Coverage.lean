import MessageSelector.Proofs.Pairs.Signs

/-!
# Every text is answered

Whatever pairs the grammar leaves, the expression that is made of them is the meaning of the phrase
they stand for. `Build.of_chars_eq` says it of whole texts. So no branch for pairs out of place is
ever taken, and no row of operands is ever given up.
-/

namespace MessageSelector

namespace Build

variable {α β : Type}

/-- What a phrase means, as it is made of pairs. -/
def meant (outcome : Except Fault α) : Build α :=
  settled (outcome.mapError .fault)

/-- What is made in steps is meant if every step is. -/
theorem meant_bind {outcome : Except Fault α} {next : α → Build β} {next' : α → Except Fault β}
    (h : ∀ value, outcome = .ok value → next value = meant (next' value)) :
    (meant outcome >>= next) = meant (outcome >>= next') := by
  cases outcome with
  | error fault => rfl
  | ok value => exact h value rfl

end Build

open Build (meant meant_bind)

/-- What is made of the pairs of phrases in the tokens is what the phrases mean. -/
def Means (text : List Char) (tokens : List Token) (Shape : Phrase → Pair → Prop)
    (build : Pair → Build Expr) : Prop :=
  ∀ phrase pair ts, Shape phrase pair → Spells phrase ts → ts <:+: tokens →
    build pair = meant (phrase.meaning text)

section Coverage

variable {text : List Char} {tokens ts : List Token} {Nested : Phrase → Pair → Prop}
  {expr : Pair → Build Expr} {phrase : Phrase}

/-- Both operands of a phrase in the tokens are in the tokens. -/
theorem infix_of_joined {ls rs : List Token} {token : Token} (h : ls ++ token :: rs <:+: tokens) :
    ls <:+: tokens ∧ rs <:+: tokens :=
  ⟨(List.prefix_append _ _).isInfix.trans h,
    ((List.suffix_cons _ _).trans (List.suffix_append _ _)).isInfix.trans h⟩

/-! ## Sums -/

/-- An operand without a sign means what its pair makes. -/
theorem primary_means (h : Scanned text tokens) (hexpr : Means text tokens Nested expr) :
    Means text tokens (Shape.Primary Nested) (Building.primary text expr) := by
  intro phrase pair ts hshape hspells hts
  cases hshape with
  | group leftParen rightParen hinner hrule =>
      -- Parentheses leave no pair, so the pair is that of the expression inside.
      cases hspells with
      | group _ _ hinnerSpells =>
          simp only [Building.primary, hrule, Phrase.meaning]
          exact hexpr _ _ _ hinner hinnerSpells ((List.infix_append [_] _ [_]).trans hts)
  | string literal =>
      cases hspells
      rw [Phrase.meaning, ← h.unquoted (hts.subset List.mem_cons_self)]
      rfl
  | unclosedString span => rfl
  | float span literal =>
      cases hspells
      have hwritten := h.written (hts.subset List.mem_cons_self) (by simp)
      obtain rfl := String.toList_inj.mp (written_float hwritten).1
      rfl
  | integer span literal =>
      cases hspells
      have hwritten := h.written (hts.subset List.mem_cons_self) (by simp)
      obtain ⟨hliteral, hinteger⟩ := written_integer hwritten
      rw [hliteral] at hinteger
      exact congrArg Build.settled (Building.integer_eq (String.toList_inj.mp hliteral) hinteger)
  | boolean span flag =>
      cases hspells
      have hwritten := h.written (hts.subset List.mem_cons_self) (by simp)
      rw [Phrase.meaning, ← written_boolean hwritten, String.ofList_toList]
      rfl
  | identifier span name =>
      cases hspells
      have hwritten := h.written (hts.subset List.mem_cons_self) (by simp)
      obtain rfl := String.toList_inj.mp (written_identifier hwritten)
      rfl

/-- Two operands with an operator between them fail as the first of them does that fails. -/
theorem calculated_eq (op : Arithmetic) (span : Span) (left right : Except Fault Expr) :
    Building.calculated (left.mapError .fault) (.mk op.rule span []) (right.mapError .fault) =
      (do return .arithmetic op (← left) (← right) : Except Fault Expr).mapError .fault := by
  cases op <;> cases left <;> cases right <;> rfl

/-- A tree of operands amounts to what its phrase means. -/
theorem sum_tree_amounts (h : Scanned text tokens) (hexpr : Means text tokens Nested expr)
    {tree : Grouped} (htree : Shape.SumTree Nested phrase tree) (hspells : Spells phrase ts)
    (hts : ts <:+: tokens) :
    tree.Amounts (fun operand => (Building.primary text expr operand).run) (Building.underSign text)
      Building.calculated ((phrase.meaning text).mapError .fault) := by
  induction htree generalizing ts with
  | primary hprimary =>
      exact .operand (congrArg ExceptT.run (primary_means h hexpr _ _ _ hprimary hspells hts))
  | signed mark sign _ ih =>
      cases hspells with
      | signed _ _ hoperand hrank =>
          rw [← under_sign_eq h hoperand hrank hts]
          exact .under (ih hoperand ((List.suffix_cons _ _).isInfix.trans hts))
  | arithmetic op span _ _ ihLeft ihRight =>
      cases hspells with
      | arithmetic _ _ hleft hright =>
          rw [Phrase.meaning, ← calculated_eq op span]
          exact .joined (ihLeft hleft (infix_of_joined hts).1)
            (ihRight hright (infix_of_joined hts).2)

/-- Signs are stronger than arithmetic operators. -/
theorem sum_operators_front_first : Building.sumOperators.FrontFirst := by
  intro first second strong weak hfirst hsecond
  cases first <;> cases hfirst <;> cases second <;> cases hsecond <;> decide

/-- A sum means what its pair makes. -/
theorem sum_means (h : Scanned text tokens) (hexpr : Means text tokens Nested expr) :
    Means text tokens (Shape.Sum Nested) (Building.sum text expr) := by
  rintro phrase _ ts ⟨tree, htree, rfl⟩ hspells hts
  exact congrArg ExceptT.mk (climb_all_flat sum_operators_front_first htree.fits
    (sum_tree_amounts h hexpr htree.isTree hspells hts)
    (htree.bound.mono fun _ hle => Nat.lt_of_lt_of_le (by decide) hle))

/-! ## Conditions -/

/-- What the operand of a test is checked for does not depend on its pair. -/
theorem require_identifier_eq (test : NameTest) (operand : Phrase) (value : Expr) :
    Building.requireIdentifier text test operand.span value =
      meant (Phrase.requireIdentifier text test operand value) := by
  cases value <;> rfl

/-- String literals mean the pattern that their pairs make. -/
theorem compiled_eq (h : Scanned text tokens) {pattern : QuotedString}
    {escape : Option QuotedString} (hpattern : pattern.token ∈ tokens)
    (hescape : ∀ literal, escape = some literal → literal.token ∈ tokens) :
    Building.compiled text pattern.pair (escape.map QuotedString.pair) =
      meant (Phrase.patternMeaning pattern escape) := by
  have hunquoted : (escape.map QuotedString.pair).map (·.unquoted text) =
      escape.map (·.contents) := by
    cases escape with
    | none => rfl
    | some literal => exact congrArg some (h.unquoted (hescape literal rfl))
  have hspan : ((escape.map QuotedString.pair).getD pattern.pair).span =
      (escape.getD pattern).span := by
    cases escape <;> rfl
  rw [Building.compiled, Phrase.patternMeaning, h.unquoted hpattern, hunquoted, hspan]
  cases Like.Pattern.ofText pattern.contents (escape.map (·.contents)) with
  | ok compiled => rfl
  | error fault => cases fault <;> rfl

/-- Every item of a list is a token in it. -/
theorem SpellsItems.token_mem {items : List QuotedString} (h : SpellsItems items ts) :
    ∀ item ∈ items, item.token ∈ ts := by
  induction h with
  | nil => exact nofun
  | cons item comma _ ih =>
      refine List.forall_mem_cons.mpr ⟨List.mem_cons_self, fun other hother => ?_⟩
      exact List.mem_cons_of_mem _ (List.mem_cons_of_mem _ (ih other hother))

/-- An escape literal is a token of its clause. -/
theorem SpellsEscape.token_mem {escape : Option QuotedString} (h : SpellsEscape escape ts) :
    ∀ literal, escape = some literal → literal.token ∈ ts := by
  rintro literal rfl
  cases h
  exact List.mem_cons_of_mem _ List.mem_cons_self

variable {operand : Phrase} {tail : Pair}

/-- The operand of a test is spelled by the tokens in front of it. -/
theorem Shape.Tail.spells_operand {whole : List Token}
    (h : Shape.Tail whole Nested operand phrase tail) (hspells : Spells phrase ts) :
    ∃ os, Spells operand os ∧ os <+: ts := by
  cases h with
  | comparison =>
      cases hspells with
      | comparison _ _ hoperand => exact ⟨_, hoperand, List.prefix_append _ _⟩
  | between | inList | like | isNull | cutShort =>
      cases hspells
      refine ⟨_, ‹Spells operand _›, ?_⟩
      simp only [List.append_assoc]
      exact List.prefix_append _ _

/-- The pair of a sum has its rule. -/
theorem Shape.Sum.rule_eq {pair : Pair} (h : Shape.Sum Nested phrase pair) : pair.rule = .sum := by
  obtain ⟨_, -, rfl⟩ := h
  rfl

/-- The pair of a sum is over the whole of its phrase. -/
theorem Shape.Sum.span_eq {pair : Pair} (h : Shape.Sum Nested phrase pair) :
    pair.span = phrase.span := by
  obtain ⟨_, -, rfl⟩ := h
  rfl

section Tested

variable {value : Expr} {place span : Span} {negated : Bool} {ns : List Pair}

/-- What is made of the pair of a comparison. -/
theorem tested_comparison {symbol : Span} {op : Comparison} {pair : Pair}
    (hsymbol : symbol.slice text = op.symbol) (hrule : pair.rule = .sum) :
    Building.tested text expr place value
        (.mk .comparison span [.mk .comparisonOp symbol [], pair]) =
      (do return .comparison op value (← Building.sum text expr pair)) := by
  simp [Building.tested, Building.compared, Pair.source, hrule, hsymbol]

/-- What is made of the pair of a range test. -/
theorem tested_between (hns : Shape.Negation negated ns) {word joint : Span} {low high : Pair}
    (hlow : low.rule = .sum) (hhigh : high.rule = .sum) :
    Building.tested text expr place value
        (.mk .between span (ns ++ [.mk .betweenKw word [], low, .mk .and joint [], high])) =
      (do
        let low ← Building.sum text expr low
        let high ← Building.sum text expr high
        return .between value low high negated) := by
  cases hns <;> simp [Building.tested, hlow, hhigh]

/-- What is made of the pair of a list test. -/
theorem tested_in_list (hns : Shape.Negation negated ns) {word : Span}
    {items : List QuotedString} :
    Building.tested text expr place value
        (.mk .inList span (ns ++ .mk .inKw word [] :: items.map QuotedString.pair)) =
      (do
        Building.requireIdentifier text .inList place value
        return .inList value (items.map (·.pair.unquoted text)) negated) := by
  have hopen : (items.map QuotedString.pair).find? (·.rule = .unterminatedString) = none := by
    simp
  have hplain : (items.map QuotedString.pair).any (·.rule = .notKw) = false := by
    simp
  have hstrings : (items.map QuotedString.pair).filter (·.rule = .stringLiteral) =
      items.map QuotedString.pair :=
    List.filter_eq_self.mpr (by simp)
  cases hns <;> simp [Building.tested, hopen, hplain, hstrings, Function.comp_def]

/-- What is made of the pair of a pattern test. -/
theorem tested_like (hns : Shape.Negation negated ns) {word : Span} {pattern : QuotedString}
    {escape : Option QuotedString} {es : List Pair} (hes : Shape.Escape escape es) :
    Building.tested text expr place value
        (.mk .like span (ns ++ .mk .likeKw word [] :: pattern.pair :: es)) =
      (do
        Building.requireIdentifier text .like place value
        let pattern ← Building.compiled text pattern.pair (escape.map QuotedString.pair)
        return .like value pattern negated) := by
  cases hns <;> cases hes <;> simp [Building.tested]

/-- What is made of the pair of a presence test. -/
theorem tested_is_null (hns : Shape.Negation negated ns) {word nullKeyword : Span} :
    Building.tested text expr place value
        (.mk .isNull span (.mk .isKw word [] :: ns ++ [.mk .nullKw nullKeyword []])) =
      (do
        Building.requireIdentifier text .isNull place value
        return .isNull value negated) := by
  cases hns <;> simp [Building.tested]

/-- What is made of the pair of any test that ends with an open string. -/
theorem tested_cut_short {name : Rule} {unclosed : Span} {opening : List Pair}
    (h : ∀ pair ∈ opening, pair.rule ≠ .unterminatedString) :
    Building.tested text expr place value
        (.mk name span (opening ++ [.mk .unterminatedString unclosed []])) =
      .refuse (.unterminatedString unclosed) := by
  have hnone : opening.find? (·.rule = .unterminatedString) = none :=
    List.find?_eq_none.mpr fun pair hpair => by simpa using h pair hpair
  simp only [Building.tested, Pair.inner_mk, List.find?_append, hnone]
  rfl

end Tested

/-- A test means what its pair makes of the operand. -/
theorem tested_means (h : Scanned text tokens) (hexpr : Means text tokens Nested expr)
    (htail : Shape.Tail (Token.scan text) Nested operand phrase tail) (hspells : Spells phrase ts)
    (hts : ts <:+: tokens) :
    (meant (operand.meaning text) >>= fun value =>
      Building.tested text expr operand.span value tail) = meant (phrase.meaning text) := by
  have hsum := sum_means h hexpr
  cases htail with
  | comparison span hplace hright =>
      cases hspells with
      | comparison _ _ _ hrightSpells =>
          have hsymbol := written_comparison (h.written (h.mem hplace nofun) nofun)
          have hmeant := hsum _ _ _ hright hrightSpells
            (infix_of_joined hts).2
          rw [Phrase.meaning]
          refine meant_bind fun value _ => ?_
          rw [tested_comparison (String.toList_inj.mp hsymbol) hright.rule_eq, hmeant]
          exact meant_bind fun _ _ => rfl
  | between span word joint hns hlow hhigh =>
      cases hspells with
      | between _ _ _ _ hlowSpells hhighSpells =>
          have hmeantLow := hsum _ _ _ hlow hlowSpells
            (infix_of_joined (infix_of_joined hts).1).2
          have hmeantHigh := hsum _ _ _ hhigh hhighSpells
            (infix_of_joined hts).2
          rw [Phrase.meaning]
          refine meant_bind fun value _ => ?_
          rw [tested_between hns hlow.rule_eq hhigh.rule_eq, hmeantLow, hmeantHigh]
          exact meant_bind fun _ _ => meant_bind fun _ _ => rfl
  | inList span word items rightParen hns =>
      have hcontents : ∀ item ∈ items, item.pair.unquoted text = item.contents := by
        cases hspells with
        | inList _ _ _ last _ _ his =>
            intro item hitem
            refine h.unquoted (hts.subset ?_)
            rcases List.mem_append.mp hitem with hitem | hitem
            · simp [his.token_mem item hitem]
            · simp [List.mem_singleton.mp hitem]
      rw [Phrase.meaning]
      refine meant_bind fun value _ => ?_
      rw [tested_in_list hns, require_identifier_eq, List.map_congr_left hcontents]
      exact meant_bind fun _ _ => rfl
  | @like span word pattern escape _ _ _ hns hes =>
      cases hspells with
      | like _ _ _ _ hescape =>
          have hpattern : pattern.token ∈ tokens := hts.subset (by simp)
          have hliteral : ∀ literal, escape = some literal → literal.token ∈ tokens :=
            fun literal hliteral => hts.subset (by simp [hescape.token_mem literal hliteral])
          rw [Phrase.meaning]
          refine meant_bind fun value _ => ?_
          rw [tested_like hns hes, require_identifier_eq, compiled_eq h hpattern hliteral]
          exact meant_bind fun _ _ => meant_bind fun _ _ => rfl
  | isNull span word nullKeyword hns =>
      rw [Phrase.meaning]
      refine meant_bind fun value _ => ?_
      rw [tested_is_null hns, require_identifier_eq]
      exact meant_bind fun _ _ => rfl
  | cutShort name span unclosed hopening =>
      rw [Phrase.meaning]
      refine meant_bind fun value _ => ?_
      rw [tested_cut_short hopening]
      rfl

/-- A condition means what its pair makes. -/
theorem condition_means (h : Scanned text tokens) (hexpr : Means text tokens Nested expr) :
    Means text tokens (Shape.Condition (Token.scan text) Nested)
      (Building.condition text expr) := by
  intro phrase pair ts hshape hspells hts
  have hsum := sum_means h hexpr
  cases hshape with
  | sum span hoperand =>
      have hmeant := hsum _ _ _ hoperand hspells hts
      rw [Building.condition, Pair.rule_mk, if_pos rfl, Pair.inner_mk]
      dsimp only
      rw [hmeant]
      cases phrase.meaning text <;> rfl
  | tested span hoperand htail =>
      obtain ⟨os, hos, hfront⟩ := htail.spells_operand hspells
      have hmeant := hsum _ _ _ hoperand hos (hfront.isInfix.trans hts)
      rw [Building.condition, Pair.rule_mk, if_pos rfl, Pair.inner_mk]
      dsimp only
      rw [hmeant, hoperand.span_eq]
      exact tested_means h hexpr htail hspells hts

/-! ## Connectives -/

/-- A negation fails as its operand does. -/
theorem under_negation_eq (word : Span) (operand : Except Fault Expr) :
    Building.underNegation (.mk .neg word []) (operand.mapError .fault) =
      (do return .not (← operand) : Except Fault Expr).mapError .fault := by
  cases operand <;> rfl

/-- Two conditions with a connective between them fail as the first of them does that fails. -/
theorem connected_eq (word : Span) (left right : Except Fault Expr) :
    Building.connected (left.mapError .fault) (.mk .and word []) (right.mapError .fault) =
        (do return .and (← left) (← right) : Except Fault Expr).mapError .fault ∧
      Building.connected (left.mapError .fault) (.mk .or word []) (right.mapError .fault) =
        (do return .or (← left) (← right) : Except Fault Expr).mapError .fault := by
  cases left <;> cases right <;> exact ⟨rfl, rfl⟩

/-- A tree of conditions amounts to what its phrase means. -/
theorem expr_tree_amounts (h : Scanned text tokens) (hexpr : Means text tokens Nested expr)
    {tree : Grouped} (htree : Shape.ExprTree (Token.scan text) Nested phrase tree)
    (hspells : Spells phrase ts) (hts : ts <:+: tokens) :
    tree.Amounts (fun operand => (Building.condition text expr operand).run) Building.underNegation
      Building.connected ((phrase.meaning text).mapError .fault) := by
  induction htree generalizing ts with
  | condition hcondition =>
      exact .operand (congrArg ExceptT.run (condition_means h hexpr _ _ _ hcondition hspells hts))
  | not word _ ih =>
      cases hspells with
      | not _ hoperand =>
          rw [Phrase.meaning, ← under_negation_eq word]
          exact .under (ih hoperand ((List.suffix_cons _ _).isInfix.trans hts))
  | and word _ _ ihLeft ihRight =>
      cases hspells with
      | and _ hleft hright =>
          rw [Phrase.meaning, ← (connected_eq word _ _).1]
          exact .joined (ihLeft hleft (infix_of_joined hts).1)
            (ihRight hright (infix_of_joined hts).2)
  | or word _ _ ihLeft ihRight =>
      cases hspells with
      | or _ hleft hright =>
          rw [Phrase.meaning, ← (connected_eq word _ _).2]
          exact .joined (ihLeft hleft (infix_of_joined hts).1)
            (ihRight hright (infix_of_joined hts).2)

/-- Negations are stronger than connectives. -/
theorem expr_operators_front_first : Building.exprOperators.FrontFirst := by
  intro first second strong weak hfirst hsecond
  cases first <;> cases hfirst
  cases second <;> cases hsecond <;> decide

/-- An expression means what its pair makes, if the clock is long enough. -/
theorem expr_means (h : Scanned text tokens) {clock : List Token} {steps : Nat}
    (hclock : clock.length ≤ steps) :
    Means text tokens (Shape.Within (Token.scan text) clock) (Building.exprWithin text steps) := by
  -- The pairs inside parentheses have a clock shorter by one, and one step less for it.
  induction clock generalizing steps with
  | nil => exact nofun
  | cons _ clock ih =>
      obtain ⟨steps, rfl⟩ := Nat.exists_eq_add_of_le' (Nat.le_trans (Nat.succ_pos _) hclock)
      have hnested := ih (Nat.le_of_succ_le_succ hclock)
      rintro phrase _ ts ⟨tree, span, htree, rfl⟩ hspells hts
      exact congrArg ExceptT.mk (climb_all_flat expr_operators_front_first htree.fits
        (expr_tree_amounts h hnested htree.isTree hspells hts)
        (htree.bound.mono fun _ hle => Nat.lt_of_lt_of_le (by decide) hle))

end Coverage

/-! ## Whole texts -/

/-- The tokens of a phrase that is a whole text are cut from it, and none of them is stray. -/
theorem scanned_of_tokens {text : List Char} {phrase : Phrase}
    (h : Phrase.ofTokens (Token.scan text) = .ok (some phrase)) :
    ∃ tokens, Spells phrase tokens ∧ Scanned text tokens := by
  obtain ⟨tokens, stop, hscan, hspells⟩ := Phrase.scan_of_some h
  exact ⟨tokens, hspells, ⟨stop, hscan⟩, no_stray_of_spells hspells⟩

/-- What is made of the pair of a whole text is what its phrase means, if there is one. -/
theorem program_means {text : List Char} {found : Option Phrase} {pair : Pair}
    (hfound : Phrase.ofTokens (Token.scan text) = .ok found)
    (hshape : Shape.Program (Token.scan text) found pair.inner) :
    Building.program text (Token.scan text).length pair =
      meant (match found with
        | some phrase => (phrase.meaning text).map some
        | none => .ok none) := by
  generalize hinner : pair.inner = pairs at hshape
  cases hshape with
  | nothing stop => rw [Building.program, hinner]; rfl
  | @expr stop clock phrase first hclock hwithin hrule =>
      obtain ⟨tokens, hspells, hscanned⟩ := scanned_of_tokens hfound
      have hmeant := expr_means hscanned hclock phrase first tokens hwithin hspells
        (List.infix_refl tokens)
      rw [Building.program, hinner]
      dsimp only
      rw [if_pos hrule, hmeant]
      cases phrase.meaning text <;> rfl

/-- A text has the expression by way of its pairs that it has by way of its phrase, or the fault. -/
theorem Build.of_chars_eq (text : List Char) : Build.ofChars text = meant (Expr.ofChars text) := by
  unfold Build.ofChars Expr.ofChars
  cases Nesting.tooDeep? text with
  | some span => rfl
  | none =>
      -- What is not read leaves no pairs, and both ways blame what was asked for furthest on.
      obtain ⟨hmisses, hfinds⟩ :=
        agrees_selector (Token.scan text) (Token.scan text) (List.suffix_refl _)
      obtain ⟨found, rest, hfound⟩ | hmiss :=
        Reader.finds_or_misses Phrase.selector (Token.scan text)
      · obtain ⟨-, _, hmatch, pair, rfl, hshape⟩ := hfinds found rest hfound
        have hphrase : Phrase.ofTokens (Token.scan text) = .ok found := by
          unfold Phrase.ofTokens
          dsimp only
          rw [hfound]
        dsimp only
        rw [hmatch, hphrase]
        dsimp only
        rw [program_means hphrase hshape]
        cases found <;> rfl
      · have hphrase : Phrase.ofTokens (Token.scan text) =
            .error ((Phrase.selector (Token.scan text)).furthest.notFound .selector 0) := by
          unfold Phrase.ofTokens
          dsimp only
          rw [hmiss]
        dsimp only
        rw [hmisses hmiss, hphrase]
        rfl

/-- Every text is answered by way of its pairs. The row of them is never given up, and no pair in it
is out of place: a text has the expression that it is parsed to, or none, or it is rejected for a
fault that has a place in it. -/
theorem answers_of_text (text : String) :
    (∃ found, Expr.parse text = .ok found ∧
      (Build.ofChars text.toList).run = .ok (.ok found)) ∨
    ∃ fault offset, Expr.parse text = .error ⟨text, fault⟩ ∧
      (Build.ofChars text.toList).run = .ok (.error (.fault fault)) ∧
      (Refusal.fault fault).offset? text = some offset := by
  rw [Build.of_chars_eq, Expr.parse]
  cases Expr.ofChars text.toList with
  | ok found => exact .inl ⟨found, rfl, rfl⟩
  | error fault => exact .inr ⟨fault, _, rfl, rfl, rfl⟩

end MessageSelector
