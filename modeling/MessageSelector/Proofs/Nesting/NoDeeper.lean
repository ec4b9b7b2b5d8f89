import MessageSelector.Proofs.Nesting.Fits
import MessageSelector.Proofs.RoundTrip

/-!
# Canonical text nests no deeper

A text may have parentheses and signs that the canonical text of its expression drops, and the
canonical text has none that the text has not. `NoDeeper` compares the lexemes of a phrase with
those of its expression in any place, and it is kept by every rule of the grammar.
-/

namespace MessageSelector.Nesting

open MessageSelector.Expr (Binding encloseLexemes notLexemes itemLexemes patternLexemes)

variable {ls ms os rs ts : List Lexeme} {binding left right : Binding} {e operand : Expr}

/-! ## Comparing lexemes -/

/-- An operand is behind, whether it passes for one or not, and what follows nests within the
limit. -/
def Rests (parens : List Nat) (more : List Lexeme) : Prop :=
  ∃ ended, (⟨parens, 0, ended⟩ : Depth).Within more

/-- Where the lexemes of an operand nest within the limit, the expression fits instead of them, with
parentheses where its place demands them. -/
def NoDeeper (ls : List Lexeme) (binding : Binding) (e : Expr) : Prop :=
  ∀ parens operators more, (⟨parens, operators, false⟩ : Depth).Within (ls ++ more) →
    Rests parens more ∧ ∀ demanded : Binding, demanded.rank ≤ binding.rank →
      Fits (parens.headD 0) operators (encloseLexemes demanded e.binding e.lexemes)

/-- Where lexemes nest within the limit after an operand, others fit there instead of them. -/
def FollowsNoDeeper (ts ms : List Lexeme) : Prop :=
  ∀ parens ended more, (⟨parens, 0, ended⟩ : Depth).Within (ts ++ more) →
    Rests parens more ∧ Follows (parens.headD 0) ms

/-- An expression that binds tightly enough is not in parentheses. -/
theorem fits_enclosed {around operators : Nat} {demanded : Binding}
    (hdemanded : demanded.rank ≤ e.binding.rank) (h : Fits around operators e.lexemes) :
    Fits around operators (encloseLexemes demanded e.binding e.lexemes) := by
  unfold encloseLexemes
  rw [if_neg (Nat.not_lt.mpr hdemanded)]
  exact h

/-- An operand goes on with what follows it. -/
theorem NoDeeper.followed (whole : Expr) (hoperand : NoDeeper os left operand) {demanded : Binding}
    (hdemanded : demanded.rank ≤ left.rank) (hfollows : FollowsNoDeeper ts ms)
    (hlexemes : whole.lexemes = encloseLexemes demanded operand.binding operand.lexemes ++ ms) :
    NoDeeper (os ++ ts) whole.binding whole := by
  intro parens operators more hwithin
  rw [List.append_assoc] at hwithin
  obtain ⟨⟨ended, hended⟩, hfits⟩ := hoperand parens operators _ hwithin
  obtain ⟨hrests, hmore⟩ := hfollows parens ended more hended
  refine ⟨hrests, fun demanded hwhole => fits_enclosed hwhole ?_⟩
  rw [hlexemes]
  exact (hfits _ hdemanded).append hmore

/-- A joint and an operand follow an operand. -/
theorem NoDeeper.joined (hright : NoDeeper rs right operand) {demanded : Binding}
    (hdemanded : demanded.rank ≤ right.rank) {lexeme : Lexeme} (hjoint : IsJoint lexeme) :
    FollowsNoDeeper (lexeme :: rs)
      (lexeme :: encloseLexemes demanded operand.binding operand.lexemes) := by
  intro parens ended more hwithin
  obtain ⟨operators, hafter⟩ := hjoint.after_any ⟨parens, 0, ended⟩
  have hoperand := hwithin.2
  rw [hafter] at hoperand
  obtain ⟨hrests, hfits⟩ := hright parens operators more hoperand
  refine ⟨hrests, Fits.joined hjoint ((hfits _ hdemanded).shallower (Nat.le_refl _) ?_)⟩
  exact Nat.le_add_right _ _

/-- One thing after the other follows an operand. -/
theorem FollowsNoDeeper.append {ts' ms' : List Lexeme} (h : FollowsNoDeeper ts ms)
    (hfollows : FollowsNoDeeper ts' ms') : FollowsNoDeeper (ts ++ ts') (ms ++ ms') := by
  intro parens ended more hwithin
  rw [List.append_assoc] at hwithin
  obtain ⟨⟨ended', hended⟩, hfirst⟩ := h parens ended _ hwithin
  obtain ⟨hrests, hsecond⟩ := hfollows parens ended' more hended
  exact ⟨hrests, hfirst.append hsecond⟩

/-- A negation stands in front of a test that expects an operand. -/
theorem FollowsNoDeeper.negated {negated : Bool} {ns : List Token}
    (hspells : SpellsNegation negated ns) {lexeme : Lexeme}
    (hexpected : ∀ depth : Depth, depth.afterLexeme lexeme = depth.operandExpected)
    (h : FollowsNoDeeper (lexeme :: ts) (lexeme :: ms)) :
    FollowsNoDeeper (ns.map (·.lexeme) ++ lexeme :: ts) (notLexemes negated ++ lexeme :: ms) := by
  intro parens ended more hwithin
  cases hspells with
  | plain =>
      obtain ⟨hrests, hfollows⟩ := h parens ended more hwithin
      exact ⟨hrests, hfollows.negated nofun hexpected⟩
  | negated span =>
      -- The keyword of the test gives the level of the negation back.
      obtain ⟨hlimit, htest⟩ := hwithin
      have hplain : (⟨parens, 0, ended⟩ : Depth).Within (lexeme :: ts ++ more) := by
        rw [List.cons_append, Depth.Within, hexpected]
        change (⟨parens, 1, false⟩ : Depth).Within (lexeme :: (ts ++ more)) at htest
        rw [Depth.Within, hexpected] at htest
        exact htest
      obtain ⟨hrests, hfollows⟩ := h parens ended more hplain
      exact ⟨hrests, hfollows.negated (fun _ => hlimit) hexpected⟩

/-- An operand of one lexeme is a literal or name without a sign. -/
theorem no_deeper_leaf {lexeme written : Lexeme} (hlexemes : e.lexemes = [written])
    (hwritten : EndsOperand written) (hbinding : e.binding = .primary)
    (hlexeme : ∀ depth : Depth, ∃ ended,
      depth.afterLexeme lexeme = ⟨depth.insideParens, 0, ended⟩) :
    NoDeeper [lexeme] .primary e := by
  intro parens operators more hwithin
  obtain ⟨ended, hafter⟩ := hlexeme ⟨parens, operators, false⟩
  have hended := hwithin.2
  rw [hafter] at hended
  refine ⟨⟨ended, hended⟩, fun demanded hdemanded => fits_enclosed (by rwa [hbinding]) ?_⟩
  rw [hlexemes]
  exact fits_of_ends_operand hwritten

/-- What stands in parentheses fits without them, and with them wherever it needs them. -/
theorem NoDeeper.group (h : NoDeeper ls binding e) :
    NoDeeper (.leftParen :: ls ++ [.rightParen]) .primary e := by
  intro parens operators more hwithin
  rw [List.cons_append, List.cons_append, List.append_assoc] at hwithin
  obtain ⟨hlimit, hinner⟩ := hwithin
  obtain ⟨⟨ended, -, hclosed⟩, hfits⟩ := h _ 0 _ hinner
  -- Inside, the operators in front of the parentheses are levels like the parentheses themselves.
  have hbare : Fits (parens.headD 0 + operators + 1) 0 e.lexemes :=
    hfits .or (Nat.zero_le _)
  refine ⟨⟨true, hclosed⟩, fun demanded _ => ?_⟩
  unfold encloseLexemes
  split
  · exact Fits.group hlimit hbare
  · exact hbare.shallower (by omega) (by omega)

/-! ## Literals -/

/-- What ends in digits ends in a letter of a number. -/
theorem last_letter_append (before : List Char) {ds : List Char} (hne : ds ≠ [])
    (hds : ds.all Char.isDigit = true) :
    (before ++ ds).getLast?.any isNumberLetter = true := by
  have hlast : ds.getLast?.any isNumberLetter = true := by
    rw [List.getLast?_eq_some_getLast hne]
    exact number_letter_of_digit (List.all_eq_true.mp hds _ (List.getLast_mem _))
  rw [List.getLast?_append, List.getLast?_eq_some_getLast hne] at *
  exact hlast

/-- A number that ends in a letter passes for an operand. -/
theorem ends_operand_number {text : String}
    (h : text.toList.getLast?.any isNumberLetter = true) :
    EndsOperand (.integer text) ∧ EndsOperand (.float text) :=
  ⟨fun depth => congrArg (Depth.mk depth.insideParens 0) h,
    fun depth => congrArg (Depth.mk depth.insideParens 0) h⟩

/-- The digits of an integer pass for an operand. -/
theorem ends_operand_integer (n : Nat) : EndsOperand (.integer (toString n)) := by
  refine (ends_operand_number ?_).1
  rw [Nat.toString_eq_repr, Nat.toList_repr]
  exact last_letter_append [] Nat.toDigits_ne_nil (Integer.to_digits_all n)

/-- A canonical literal ends in a digit. -/
theorem numeral_last_letter (numeral : Numeral) :
    numeral.text.getLast?.any isNumberLetter = true := by
  unfold Numeral.text
  rcases hexponent : numeral.exponent with _ | ⟨negative, ds⟩
  · have hne : numeral.fraction ≠ [] := fun hnil => numeral.is_float hnil hexponent
    obtain ⟨d, ds, hfraction⟩ := List.exists_cons_of_ne_nil hne
    have hpoint : Numeral.pointText numeral.fraction = ['.'] ++ numeral.fraction := by
      rw [hfraction]
      rfl
    rw [hpoint, Numeral.exponentText, List.append_nil, ← List.append_assoc]
    exact last_letter_append _ hne numeral.fraction_digits
  · obtain ⟨hne, hds⟩ := numeral.exponent_digits negative ds hexponent
    have hmark : ∃ mark, Numeral.exponentText (some (negative, ds)) = mark ++ ds := by
      cases negative with
      | false => exact ⟨['e'], rfl⟩
      | true => exact ⟨['e', '-'], rfl⟩
    obtain ⟨mark, hmark⟩ := hmark
    rw [hmark, ← List.append_assoc]
    exact last_letter_append _ hne hds

/-- The digits of a floating-point number pass for an operand. -/
theorem ends_operand_float {x : Float} (h : x.isFinite = true) :
    EndsOperand (.float (Value.floatDigits x)) := by
  obtain ⟨numeral, hdigits, -⟩ := Value.float_digits_numeral h
  refine (ends_operand_number ?_).2
  rw [hdigits]
  exact numeral_last_letter numeral

/-- A number fits where a sign does. -/
theorem fits_value {value : Value} (h : (Expr.literal value).WellFormed) {around operators : Nat}
    (hlimit : around + operators + 1 ≤ limit) : Fits around operators value.lexemes := by
  have hsign (negative : Prop) [Decidable negative] {lexeme : Lexeme}
      (hlexeme : EndsOperand lexeme) :
      Fits around operators ((if negative then [.minus] else []) ++ [lexeme]) := by
    split
    · exact Fits.operator (is_operator_sign .minus) hlimit (fits_of_ends_operand hlexeme)
    · exact fits_of_ends_operand hlexeme
  cases value with
  | string | boolean => exact fits_of_ends_operand fun _ => rfl
  | integer number => exact hsign _ (ends_operand_integer _)
  | float number => exact hsign _ (ends_operand_float h)

/-- An integer without a sign is written without one. -/
theorem integer_no_deeper {span : Span} {literal : String}
    (h : Phrase.integerMeaning span literal (Token.integerValue literal) = .ok e) :
    NoDeeper [.integer literal] .primary e := by
  obtain ⟨number, hvalue, rfl⟩ := (Phrase.integer_meaning_ok_iff _ _ _ _).mp h
  refine no_deeper_leaf ?_ (ends_operand_integer number.toInt.natAbs) rfl fun _ => ⟨_, rfl⟩
  rw [Expr.lexemes, Value.lexemes, if_neg (by omega)]
  rfl

/-- A floating-point number without a sign is written without one. -/
theorem float_no_deeper {span : Span} {literal : String}
    (h : Phrase.floatMeaning span literal = .ok e) : NoDeeper [.float literal] .primary e := by
  obtain ⟨number, hvalue, rfl⟩ := (Phrase.float_meaning_ok_iff _ _ _).mp h
  refine no_deeper_leaf ?_ (ends_operand_float (Phrase.float_value_finite hvalue)) rfl
    fun _ => ⟨_, rfl⟩
  rw [Expr.lexemes, Value.lexemes,
    if_neg (Nat.not_le.mpr (Value.float_value_nonnegative hvalue))]
  rfl

/-- An operator in front of an operand takes a level. -/
theorem NoDeeper.operator (whole : Expr) (h : NoDeeper ls binding operand) {lexeme : Lexeme}
    (hlexeme : IsOperator lexeme) {demanded : Binding} (hdemanded : demanded.rank ≤ binding.rank)
    (hlexemes : whole.lexemes =
      lexeme :: encloseLexemes demanded operand.binding operand.lexemes) :
    NoDeeper (lexeme :: ls) whole.binding whole := by
  intro parens operators more hwithin
  rw [List.cons_append, Depth.Within, hlexeme] at hwithin
  obtain ⟨hlimit, hwithin⟩ := hwithin
  obtain ⟨hrests, hfits⟩ := h parens (operators + 1) more hwithin
  refine ⟨hrests, fun demanded hwhole => fits_enclosed hwhole ?_⟩
  rw [hlexemes]
  exact Fits.operator hlexeme hlimit (hfits _ hdemanded)

/-- A number under a sign takes the level of the sign, which is enough for its own. -/
theorem number_no_deeper (sign : Sign) {value : Value} (h : (Expr.literal value).WellFormed)
    (hrests : ∀ parens operators more, (⟨parens, operators, false⟩ : Depth).Within (ls ++ more) →
      Rests parens more) : NoDeeper (sign.lexeme :: ls) .sign (.literal value) := by
  intro parens operators more hwithin
  rw [List.cons_append, Depth.Within, is_operator_sign] at hwithin
  obtain ⟨hlimit, hwithin⟩ := hwithin
  refine ⟨hrests _ _ _ hwithin, fun demanded _ => ?_⟩
  exact fits_enclosed (e := .literal value) (Binding.rank_le_primary demanded)
    (fits_value h hlimit)

/-- A sign in front of an operand is taken up by it or stays. -/
theorem NoDeeper.signed (h : NoDeeper ls binding operand)
    (hbinding : Binding.sign.rank ≤ binding.rank) {sign : Sign}
    (hoperand : (operand.withSign sign).WellFormed) :
    NoDeeper (sign.lexeme :: ls) .sign (operand.withSign sign) := by
  have hkept : NoDeeper (sign.lexeme :: ls) .sign (.signed sign operand) :=
    h.operator (.signed sign operand) (is_operator_sign sign) hbinding rfl
  cases operand with
  | literal value =>
      cases hsigned : value.signed? sign with
      | none =>
          rw [Expr.with_sign_of_none hsigned]
          exact hkept
      | some number =>
          rw [Expr.with_sign_of_some hsigned] at hoperand ⊢
          exact number_no_deeper sign hoperand fun _ _ _ hwithin => (h _ _ _ hwithin).1
  | _ => exact hkept

/-- A sign makes no number finite that was not. -/
theorem well_formed_of_with_sign {sign : Sign} (h : (operand.withSign sign).WellFormed) :
    operand.WellFormed := by
  cases operand with
  | literal value =>
      cases hsigned : value.signed? sign with
      | none =>
          rw [Expr.with_sign_of_none hsigned] at h
          exact h.1
      | some number =>
          rw [Expr.with_sign_of_some hsigned] at h
          cases value with
          | string | boolean | integer => trivial
          | float x =>
              cases sign with
              | plus =>
                  cases hsigned
                  exact h
              | minus =>
                  cases hsigned
                  exact (Double.is_finite_neg x).symm.trans h
  | _ => exact h.1

/-! ## Tests -/

/-- Items with commas after them leave the list as it was. -/
theorem rests_of_items {items : List QuotedString} {is : List Token} (h : SpellsItems items is)
    {parens : List Nat} {ended : Bool} {more : List Lexeme}
    (hwithin : (⟨parens, 0, ended⟩ : Depth).Within (is.map (·.lexeme) ++ more)) :
    Rests parens more := by
  induction h generalizing ended with
  | nil => exact ⟨ended, hwithin⟩
  | cons item comma _ ih => exact ih hwithin.2.2

/-- Items with commas between them add no levels. -/
theorem within_items (parens : List Nat) (items : List String) {more : List Lexeme}
    (hlimit : parens.headD 0 ≤ limit) (ended : Bool)
    (hmore : ∀ ended, (⟨parens, 0, ended⟩ : Depth).Within more) :
    (⟨parens, 0, ended⟩ : Depth).Within (itemLexemes items ++ more) := by
  induction items generalizing ended with
  | nil => exact hmore ended
  | cons item items ih =>
      cases items with
      | nil => exact ⟨hlimit, hmore true⟩
      | cons next items => exact ⟨hlimit, hlimit, ih false⟩

/-- A list takes the level of its parentheses. -/
theorem follows_list {around : Nat} (items : List String) (hlimit : around + 1 ≤ limit) :
    Follows around (.keyword .inside :: .leftParen :: itemLexemes items ++ [.rightParen]) := by
  intro parens more hparens hplace hmore
  have hdeeper : parens.headD 0 + 1 ≤ limit := by omega
  rw [List.cons_append, List.cons_append, List.cons_append, List.cons_append, List.append_assoc]
  refine ⟨hplace, hdeeper, ?_⟩
  exact within_items ((parens.headD 0 + 1) :: parens) items hdeeper false
    fun _ => ⟨hplace, hmore⟩

/-- A pattern with its escape clause adds no levels. -/
theorem follows_pattern (around : Nat) (pattern : Like.Pattern) :
    Follows around (.keyword .like :: patternLexemes pattern) := by
  intro parens more _ hplace hmore
  obtain ⟨contents, escape, hcomplete⟩ := pattern
  cases escape with
  | none => exact ⟨hplace, hplace, hmore⟩
  | some c => exact ⟨hplace, hplace, hplace, hplace, hmore⟩

/-- A list test is no deeper in canonical text. -/
theorem list_no_deeper {items : List QuotedString} {is : List Token} (h : SpellsItems items is)
    (item : QuotedString) (written : List String) :
    FollowsNoDeeper
      (.keyword .inside :: .leftParen :: is.map (·.lexeme) ++ [item.token.lexeme, .rightParen])
      (.keyword .inside :: .leftParen :: itemLexemes written ++ [.rightParen]) := by
  intro parens ended more hwithin
  rw [List.cons_append, List.cons_append, List.cons_append, List.cons_append,
    List.append_assoc] at hwithin
  obtain ⟨-, hlimit, hitems⟩ := hwithin
  obtain ⟨_, -, -, hclosed⟩ := rests_of_items h hitems
  exact ⟨⟨true, hclosed⟩, follows_list written hlimit⟩

/-- A pattern test is no deeper in canonical text. -/
theorem pattern_no_deeper {escape : Option QuotedString} {es : List Token}
    (h : SpellsEscape escape es) (literal : QuotedString) (pattern : Like.Pattern) :
    FollowsNoDeeper (.keyword .like :: literal.token.lexeme :: es.map (·.lexeme))
      (.keyword .like :: patternLexemes pattern) := by
  intro parens ended more hwithin
  refine ⟨?_, follows_pattern _ pattern⟩
  cases h with
  | absent => exact ⟨true, hwithin.2.2⟩
  | present => exact ⟨true, hwithin.2.2.2.2⟩

/-- A test for nothing is no deeper in canonical text. -/
theorem null_no_deeper {negated : Bool} {ns : List Token} (h : SpellsNegation negated ns) :
    FollowsNoDeeper (.keyword .is :: ns.map (·.lexeme) ++ [.keyword .null])
      (.keyword .is :: notLexemes negated ++ [.keyword .null]) := by
  intro parens ended more hwithin
  cases h with
  | plain =>
      exact ⟨⟨true, hwithin.2.2⟩, fun _ _ _ hplace hmore => ⟨hplace, hplace, hmore⟩⟩
  | negated span =>
      obtain ⟨-, hlimit, hnull⟩ := hwithin
      refine ⟨⟨true, hnull.2⟩, fun inner more hinner hplace hmore => ?_⟩
      exact ⟨hplace, Nat.le_trans (Nat.succ_le_succ hinner) hlimit, hplace, hmore⟩

/-! ## Phrases -/

/-- The expression that a phrase means nests no deeper than the phrase. -/
theorem no_deeper_of_spells {text : List Char} {phrase : Phrase} {tokens : List Token}
    (hspells : Spells phrase tokens) (h : phrase.meaning text = .ok e)
    (hwellFormed : e.WellFormed) :
    NoDeeper (tokens.map (·.lexeme)) phrase.binding e := by
  induction hspells generalizing e with
  | identifier | string | boolean =>
      cases h
      exact no_deeper_leaf rfl (fun _ => rfl) rfl fun _ => ⟨_, rfl⟩
  | unclosedString => cases h
  | float => exact float_no_deeper h
  | integer => exact integer_no_deeper h
  | group _ _ _ ih =>
      rw [List.map_append, List.map_cons]
      exact (ih h hwellFormed).group
  | signed mark sign hspells hrank ih =>
      obtain ⟨inner, hmeaning, rfl⟩ | ⟨span, literal, rfl, rfl, hinteger⟩ :=
        Phrase.meaning_signed_ok h
      · exact (ih hmeaning (well_formed_of_with_sign hwellFormed)).signed hrank hwellFormed
      · obtain ⟨number, -, rfl⟩ := (Phrase.integer_meaning_ok_iff _ _ _ _).mp hinteger
        cases hspells
        exact number_no_deeper .minus trivial fun _ _ _ hwithin => ⟨_, hwithin.2⟩
  | arithmetic op span _ _ hleft hright ihLeft ihRight =>
      rw [Phrase.meaning] at h
      simp only [bind_ok_iff] at h
      obtain ⟨l, hl, r, hr, heq⟩ := h
      cases heq
      rw [List.map_append, List.map_cons]
      exact (ihLeft hl hwellFormed.1).followed (.arithmetic op l r) hleft
        ((ihRight hr hwellFormed.2).joined hright (is_joint_arithmetic op)) rfl
  | comparison op span _ _ hleft hright ihLeft ihRight =>
      rw [Phrase.meaning] at h
      simp only [bind_ok_iff] at h
      obtain ⟨l, hl, r, hr, heq⟩ := h
      cases heq
      rw [List.map_append, List.map_cons]
      exact (ihLeft hl hwellFormed.1).followed (.comparison op l r) hleft
        ((ihRight hr hwellFormed.2).joined hright (is_joint_of_expected fun _ => rfl)) rfl
  | and word _ _ hleft hright ihLeft ihRight =>
      rw [Phrase.meaning] at h
      simp only [bind_ok_iff] at h
      obtain ⟨l, hl, r, hr, heq⟩ := h
      cases heq
      rw [List.map_append, List.map_cons]
      exact (ihLeft hl hwellFormed.1).followed (.and l r) hleft
        ((ihRight hr hwellFormed.2).joined hright (is_joint_of_expected fun _ => rfl)) rfl
  | or word _ _ hleft hright ihLeft ihRight =>
      rw [Phrase.meaning] at h
      simp only [bind_ok_iff] at h
      obtain ⟨l, hl, r, hr, heq⟩ := h
      cases heq
      rw [List.map_append, List.map_cons]
      exact (ihLeft hl hwellFormed.1).followed (.or l r) hleft
        ((ihRight hr hwellFormed.2).joined hright (is_joint_of_expected fun _ => rfl)) rfl
  | @between word joint _ _ _ negated _ _ _ _ _ hnegation _ _ hrank hlowRank hhighRank ih ihLow
      ihHigh =>
      rw [Phrase.meaning] at h
      simp only [bind_ok_iff] at h
      obtain ⟨operand, hoperand, low, hlow, high, hhigh, heq⟩ := h
      cases heq
      have hlowJoined := (ihLow hlow hwellFormed.2.1).joined hlowRank
        (is_joint_of_expected fun _ => (rfl : Depth.afterLexeme _ (.keyword .between) = _))
      have hhighJoined := (ihHigh hhigh hwellFormed.2.2).joined hhighRank
        (is_joint_of_expected fun _ => (rfl : Depth.afterLexeme _ (.keyword .and) = _))
      have htest := (hlowJoined.append hhighJoined).negated hnegation fun _ => rfl
      have hwhole :=
        (ih hoperand hwellFormed.1).followed (.between operand low high negated) hrank htest
        (by simp [Expr.lexemes])
      simpa [Phrase.binding, Expr.binding] using hwhole
  | @inList inside leftParen rightParen item _ items negated _ _ _ _ hnegation hitems hrank ih =>
      rw [Phrase.meaning] at h
      simp only [bind_ok_iff, Phrase.require_identifier_ok_iff] at h
      obtain ⟨operand, hoperand, _, -, heq⟩ := h
      cases heq
      have htest := (list_no_deeper hitems item ((items ++ [item]).map (·.contents))).negated
        hnegation fun _ => rfl
      have hwhole := (ih hoperand hwellFormed.2.1).followed
        (.inList operand ((items ++ [item]).map (·.contents)) negated) hrank htest
        (by simp [Expr.lexemes])
      simpa [Phrase.binding, Expr.binding] using hwhole
  | @like word pattern _ _ negated _ _ _ _ hnegation hescape hrank ih =>
      rw [Phrase.meaning] at h
      simp only [bind_ok_iff, Phrase.require_identifier_ok_iff] at h
      obtain ⟨operand, hoperand, _, -, compiled, -, heq⟩ := h
      cases heq
      have htest := (pattern_no_deeper hescape pattern compiled).negated hnegation fun _ => rfl
      have hwhole :=
        (ih hoperand hwellFormed.2.1).followed (.like operand compiled negated) hrank htest
        (by simp [Expr.lexemes])
      simpa [Phrase.binding, Expr.binding] using hwhole
  | @isNull word nullKeyword _ negated _ _ _ hnegation hrank ih =>
      rw [Phrase.meaning] at h
      simp only [bind_ok_iff, Phrase.require_identifier_ok_iff] at h
      obtain ⟨operand, hoperand, _, -, heq⟩ := h
      cases heq
      have hwhole := (ih hoperand hwellFormed.2).followed (.isNull operand negated) hrank
        (null_no_deeper hnegation) (by simp [Expr.lexemes])
      simpa [Phrase.binding, Expr.binding] using hwhole
  | cutShort =>
      rw [Phrase.meaning, bind_ok_iff] at h
      obtain ⟨_, _, heq⟩ := h
      cases heq
  | not word _ hrank ih =>
      rw [Phrase.meaning, bind_ok_iff] at h
      obtain ⟨operand, hoperand, heq⟩ := h
      cases heq
      exact (ih hoperand hwellFormed).operator (.not operand) is_operator_not hrank rfl

/-! ## Texts -/

/-- The canonical text of an expression that a text has nests no deeper than that text. -/
theorem too_deep_render {text : List Char} {phrase : Phrase} {tokens : List Token} {stop : Span}
    (htext : tooDeep? text = none) (htokens : Token.scan text = tokens ++ [⟨.endOfText, stop⟩])
    (hspells : Spells phrase tokens) (hmeaning : phrase.meaning text = .ok e) :
    tooDeep? e.render.toList = none := by
  -- The lexemes of both texts measure their depth.
  have hwellFormed := Expr.well_formed_of_scan htokens hspells hmeaning
  obtain ⟨-, hfits⟩ := no_deeper_of_spells hspells hmeaning hwellFormed [] 0 [.endOfText]
    ((too_deep_eq_none_iff htokens hspells).mp htext)
  obtain ⟨canonical, written, stop', hscan, hwritten, hspelled, -⟩ := hwellFormed.scan_render
  rw [too_deep_eq_none_iff hscan hspelled, hwritten]
  exact hfits .or (Nat.zero_le _) [] 0 [.endOfText] (Nat.zero_le _) (Nat.zero_le _) (Nat.zero_le _)
    ⟨Nat.zero_le _, trivial⟩

end MessageSelector.Nesting
