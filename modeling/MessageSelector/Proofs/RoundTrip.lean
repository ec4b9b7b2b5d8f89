import MessageSelector.Proofs.Canonical
import MessageSelector.Proofs.Texts

/-!
# Canonical text is read back

The canonical lexemes of a well-formed expression are spelled by a phrase that means the expression,
wherever in a text they stand. The phrase binds as tightly as the expression, but for a negative
number, which is written as a sign and a number; no place demands more than a sign does.
-/

namespace MessageSelector.Expr

open Phrase

variable {text : List Char}

/-- Whatever tokens have the canonical lexemes of the expression spell a phrase for it, which binds
as tightly as the expression wherever no more than a sign is demanded. -/
def Spelled (text : List Char) (e : Expr) : Prop :=
  ∀ tokens : List Token, tokens.map (·.lexeme) = e.lexemes →
    ∃ phrase, Spells phrase tokens ∧ phrase.meaning text = .ok e ∧
      ∀ demanded : Binding, demanded.rank ≤ Binding.sign.rank → demanded.rank ≤ e.binding.rank →
        demanded.rank ≤ phrase.binding.rank

/-- An operand is spelled in its place, in parentheses where it needs them. -/
theorem Spelled.enclosed {e : Expr} (h : Spelled text e) {demanded : Binding}
    (hdemanded : demanded.rank ≤ Binding.sign.rank) {tokens : List Token}
    (htokens : tokens.map (·.lexeme) = encloseLexemes demanded e.binding e.lexemes) :
    ∃ phrase, Spells phrase tokens ∧ phrase.meaning text = .ok e ∧
      demanded.rank ≤ phrase.binding.rank := by
  unfold encloseLexemes at htokens
  split at htokens
  · obtain ⟨leftParen, rest, rfl, hrest⟩ := eq_token_cons htokens
    obtain ⟨inner, closing, rfl, hinner, hclosing⟩ := List.map_eq_append_iff.mp hrest
    obtain ⟨rightParen, rfl⟩ := eq_token_singleton hclosing
    obtain ⟨phrase, hspells, hmeaning, -⟩ := h inner hinner
    exact ⟨.group leftParen phrase rightParen, .group leftParen rightParen hspells, hmeaning,
      Binding.rank_le_primary demanded⟩
  · next hge =>
      obtain ⟨phrase, hspells, hmeaning, hrank⟩ := h tokens htokens
      exact ⟨phrase, hspells, hmeaning, hrank demanded hdemanded (Nat.le_of_not_lt hge)⟩

/-- Two operands are spelled in their places, before and after the lexeme that joins them. -/
theorem Spelled.joined {left right : Expr} (hleft : Spelled text left) (hright : Spelled text right)
    {wanted demanded : Binding} (hwanted : wanted.rank ≤ Binding.sign.rank)
    (hdemanded : demanded.rank ≤ Binding.sign.rank) {lexeme : Lexeme} {tokens : List Token}
    (htokens : tokens.map (·.lexeme) = encloseLexemes wanted left.binding left.lexemes ++
      lexeme :: encloseLexemes demanded right.binding right.lexemes) :
    ∃ l ls span r rs, tokens = ls ++ ⟨lexeme, span⟩ :: rs ∧ Spells l ls ∧ Spells r rs ∧
      l.meaning text = .ok left ∧ r.meaning text = .ok right ∧
      wanted.rank ≤ l.binding.rank ∧ demanded.rank ≤ r.binding.rank := by
  obtain ⟨ls, rest, rfl, hls, hrest⟩ := List.map_eq_append_iff.mp htokens
  obtain ⟨span, rs, rfl, hrs⟩ := eq_token_cons hrest
  obtain ⟨l, hl, hlMeaning, hlRank⟩ := hleft.enclosed hwanted hls
  obtain ⟨r, hr, hrMeaning, hrRank⟩ := hright.enclosed hdemanded hrs
  exact ⟨l, ls, span, r, rs, rfl, hl, hr, hlMeaning, hrMeaning, hlRank, hrRank⟩

/-! ## Literals -/

/-- A literal without a sign is spelled by a token of its own. -/
theorem spelled_of_token {e : Expr} {lexeme : Lexeme} {leaf : Span → Phrase}
    (hlexemes : e.lexemes = [lexeme]) (hspells : ∀ span, Spells (leaf span) [⟨lexeme, span⟩])
    (hmeaning : ∀ span, (leaf span).meaning text = .ok e)
    (hprimary : ∀ span, (leaf span).binding = .primary) : Spelled text e := by
  intro tokens htokens
  rw [hlexemes] at htokens
  obtain ⟨span, rfl⟩ := eq_token_singleton htokens
  refine ⟨leaf span, hspells span, hmeaning span, fun demanded _ _ => ?_⟩
  rw [hprimary]
  exact Binding.rank_le_primary demanded

/-- An integer is spelled by its digits, after a minus where it is negative. -/
theorem spelled_integer (number : Int64) : Spelled text (literal (.integer number)) := by
  have hdigits : Token.integerValue (toString number.toInt.natAbs) = number.toInt.natAbs := by
    rw [Nat.toString_eq_ofList_toDigits, Token.integer_value_to_digits]
  by_cases hsign : number.toInt < 0
  · intro tokens htokens
    rw [lexemes, Value.lexemes, if_pos hsign] at htokens
    obtain ⟨mark, rest, rfl, hrest⟩ := eq_token_cons htokens
    obtain ⟨span, rfl⟩ := eq_token_singleton hrest
    refine ⟨.signed mark .minus (.integer span _),
      .signed mark .minus (.integer span _) (Binding.rank_le_primary .sign),
      ?_, fun demanded hdemanded _ => hdemanded⟩
    rw [meaning, integer_meaning_ok_iff, hdigits]
    exact ⟨number, by omega, rfl⟩
  · refine spelled_of_token ?_ (fun span => .integer span (toString number.toInt.natAbs))
      (fun span => ?_) fun span => rfl
    · rw [lexemes, Value.lexemes, if_neg hsign]
      rfl
    · rw [meaning, integer_meaning_ok_iff, hdigits]
      exact ⟨number, by omega, rfl⟩

/-- A finite floating-point number is spelled by its numeral, after a minus where it is negative. -/
theorem spelled_float {number : Float} (h : number.isFinite = true) :
    Spelled text (literal (.float number)) := by
  have hdigits := Value.float_value_digits h
  -- The first bit decides and not the order, so that a negative zero keeps its minus.
  by_cases hsign : 2 ^ 63 ≤ number.toBits.toNat
  · rw [Double.magnitude, if_pos hsign] at hdigits
    intro tokens htokens
    rw [lexemes, Value.lexemes, if_pos hsign] at htokens
    obtain ⟨mark, rest, rfl, hrest⟩ := eq_token_cons htokens
    obtain ⟨span, rfl⟩ := eq_token_singleton hrest
    refine ⟨.signed mark .minus (.float span _),
      .signed mark .minus (.float span _) (Binding.rank_le_primary .sign),
      ?_, fun demanded hdemanded _ => hdemanded⟩
    have hfloat : floatMeaning span (Value.floatDigits number) = .ok (literal (.float (-number))) :=
      (float_meaning_ok_iff _ _ _).mpr ⟨_, hdigits, rfl⟩
    have hsigned : (Value.float (-number)).signed? .minus = some (.float number) := by
      simp [Value.signed?, Value.negate?, Double.neg_neg]
    rw [meaning, bind_ok_iff]
    · exact ⟨_, hfloat, congrArg Except.ok (with_sign_of_some hsigned)⟩
    · intro _ _ _ heq
      cases heq
  · rw [Double.magnitude, if_neg hsign] at hdigits
    refine spelled_of_token ?_ (fun span => .float span (Value.floatDigits number))
      (fun span => ?_) fun span => rfl
    · rw [lexemes, Value.lexemes, if_neg hsign]
      rfl
    · exact (float_meaning_ok_iff _ _ _).mpr ⟨_, hdigits, rfl⟩

/-- The items of a list are spelled with a comma after each but the last. -/
theorem spelled_items {items : List String} (hne : items ≠ []) {tokens : List Token}
    (htokens : tokens.map (·.lexeme) = itemLexemes items) :
    ∃ quoted is last, tokens = is ++ [QuotedString.token last] ∧ SpellsItems quoted is ∧
      (quoted ++ [last]).map (·.contents) = items := by
  induction items generalizing tokens with
  | nil => exact absurd rfl hne
  | cons item items ih =>
      cases items with
      | nil =>
          obtain ⟨span, rfl⟩ := eq_token_singleton htokens
          exact ⟨[], [], ⟨span, item⟩, rfl, .nil, rfl⟩
      | cons next items =>
          obtain ⟨span, rest, rfl, hrest⟩ := eq_token_cons htokens
          obtain ⟨comma, following, rfl, hfollowing⟩ := eq_token_cons hrest
          obtain ⟨quoted, is, last, rfl, hspells, hcontents⟩ := ih (by simp) hfollowing
          refine ⟨⟨span, item⟩ :: quoted, _, last, rfl, .cons ⟨span, item⟩ comma hspells, ?_⟩
          rw [List.cons_append, List.map_cons, hcontents]

/-- A pattern is spelled with its escape clause and means itself. -/
theorem spelled_pattern {pattern : Like.Pattern} {tokens : List Token}
    (htokens : tokens.map (·.lexeme) = patternLexemes pattern) :
    ∃ quoted escape es, tokens = QuotedString.token quoted :: es ∧ SpellsEscape escape es ∧
      patternMeaning quoted escape = .ok pattern := by
  obtain ⟨contents, escape, hcomplete⟩ := pattern
  have hcompiles (written : Option String) (hwritten : written = escape.map String.singleton) :
      Like.Pattern.ofText contents written = .ok ⟨contents, escape, hcomplete⟩ := by
    have hescape : Like.escapeChar? written = .ok escape := by
      cases escape <;> simp [hwritten, Like.escapeChar?]
    unfold Like.Pattern.ofText
    rw [hescape]
    exact dif_pos hcomplete
  obtain ⟨span, rest, rfl, hrest⟩ := eq_token_cons htokens
  cases escape with
  | none =>
      rw [List.map_eq_nil_iff] at hrest
      refine ⟨⟨span, contents⟩, none, [], by rw [hrest]; rfl, .absent, ?_⟩
      simp only [patternMeaning, Option.map_none, hcompiles none rfl]
  | some c =>
      obtain ⟨mark, following, rfl, hfollowing⟩ := eq_token_cons hrest
      obtain ⟨literal, rfl⟩ := eq_token_singleton hfollowing
      refine ⟨⟨span, contents⟩, some ⟨literal, String.singleton c⟩, _, rfl,
        .present mark ⟨literal, String.singleton c⟩, ?_⟩
      simp only [patternMeaning, Option.map_some, hcompiles (some (String.singleton c)) rfl]

/-- A negation is spelled by its keyword. -/
theorem spelled_negation {negated : Bool} {tokens : List Token}
    (htokens : tokens.map (·.lexeme) = notLexemes negated) : SpellsNegation negated tokens := by
  cases negated with
  | false =>
      rw [notLexemes, if_neg (by decide), List.map_eq_nil_iff] at htokens
      rw [htokens]
      exact .plain
  | true =>
      obtain ⟨span, rfl⟩ := eq_token_singleton htokens
      exact .negated span

/-! ## Expressions -/

/-- A sign that stays in front of an operand makes no number of it. -/
theorem with_sign_of_keeps {sign : Sign} {operand : Expr} (h : operand.KeepsSign sign) :
    operand.withSign sign = signed sign operand := by
  cases operand with
  | literal value =>
      refine with_sign_of_none ?_
      cases value with
      | string | boolean => cases sign <;> rfl
      | integer number =>
          obtain ⟨rfl, hleast⟩ := h rfl
          cases hleast
          decide +kernel
      | float number => cases (h rfl).2
  | _ => rfl

/-- Every well-formed expression is spelled by its canonical lexemes. -/
theorem WellFormed.spelled {e : Expr} (h : e.WellFormed) : Spelled text e := by
  -- The tokens come apart where the lexemes do, and each operand has a phrase by induction.
  induction e with
  | identifier name =>
      exact spelled_of_token rfl (fun span => .identifier span name) (fun _ => rfl) fun _ => rfl
  | literal value =>
      cases value with
      | string contents =>
          exact spelled_of_token rfl (fun span => .string ⟨span, contents⟩) (fun _ => rfl)
            fun _ => rfl
      | boolean flag =>
          exact spelled_of_token rfl (fun span => .boolean span flag) (fun _ => rfl) fun _ => rfl
      | integer number => exact spelled_integer number
      | float number => exact spelled_float h
  | not operand ih =>
      intro tokens htokens
      obtain ⟨word, rest, rfl, hrest⟩ := eq_token_cons htokens
      obtain ⟨phrase, hspells, hmeaning, hrank⟩ := (ih h).enclosed (by decide) hrest
      refine ⟨.not word phrase, .not word hspells hrank, ?_, fun _ _ hdemanded => hdemanded⟩
      rw [meaning, hmeaning]
      rfl
  | and left right ihLeft ihRight =>
      intro tokens htokens
      obtain ⟨l, ls, word, r, rs, rfl, hl, hr, hlMeaning, hrMeaning, hlRank, hrRank⟩ :=
        (ihLeft h.1).joined (ihRight h.2) (by decide) (by decide) htokens
      refine ⟨.and l r, .and word hl hr hlRank hrRank, ?_, fun _ _ hdemanded => hdemanded⟩
      rw [meaning, hlMeaning, hrMeaning]
      rfl
  | or left right ihLeft ihRight =>
      intro tokens htokens
      obtain ⟨l, ls, word, r, rs, rfl, hl, hr, hlMeaning, hrMeaning, hlRank, hrRank⟩ :=
        (ihLeft h.1).joined (ihRight h.2) (by decide) (by decide) htokens
      refine ⟨.or l r, .or word hl hr hlRank hrRank, ?_, fun _ _ hdemanded => hdemanded⟩
      rw [meaning, hlMeaning, hrMeaning]
      rfl
  | comparison op left right ihLeft ihRight =>
      intro tokens htokens
      obtain ⟨l, ls, span, r, rs, rfl, hl, hr, hlMeaning, hrMeaning, hlRank, hrRank⟩ :=
        (ihLeft h.1).joined (ihRight h.2) (by decide) (by decide) htokens
      refine ⟨.comparison op l r, .comparison op span hl hr hlRank hrRank, ?_,
        fun _ _ hdemanded => hdemanded⟩
      rw [meaning, hlMeaning, hrMeaning]
      rfl
  | arithmetic op left right ihLeft ihRight =>
      intro tokens htokens
      obtain ⟨l, ls, span, r, rs, rfl, hl, hr, hlMeaning, hrMeaning, hlRank, hrRank⟩ :=
        (ihLeft h.1).joined (ihRight h.2) (by cases op <;> decide) (by cases op <;> decide) htokens
      refine ⟨.arithmetic op l r, .arithmetic op span hl hr hlRank hrRank, ?_,
        fun _ _ hdemanded => hdemanded⟩
      rw [meaning, hlMeaning, hrMeaning]
      rfl
  | signed sign operand ih =>
      intro tokens htokens
      obtain ⟨mark, rest, rfl, hrest⟩ := eq_token_cons htokens
      obtain ⟨phrase, hspells, hmeaning, hrank⟩ := (ih h.1).enclosed (by decide) hrest
      refine ⟨.signed mark sign phrase, .signed mark sign hspells hrank, ?_,
        fun _ _ hdemanded => hdemanded⟩
      rw [meaning, hmeaning]
      · exact congrArg Except.ok (with_sign_of_keeps h.2)
      · -- An integer literal without a sign is not negative, so no minus stays in front of it.
        rintro span digits rfl rfl
        rw [meaning, integer_meaning_ok_iff] at hmeaning
        obtain ⟨number, hnumber, rfl⟩ := hmeaning
        obtain ⟨-, hleast⟩ := h.2 rfl
        cases hleast
        rw [Int64.toInt_minValue] at hnumber
        omega
  | between operand low high negated ih ihLow ihHigh =>
      intro tokens htokens
      obtain ⟨front, back, rfl, hfront, hback⟩ := List.map_eq_append_iff.mp htokens
      obtain ⟨joint, hs, rfl, hhs⟩ := eq_token_cons hback
      obtain ⟨front, back, rfl, hfront, hback⟩ := List.map_eq_append_iff.mp hfront
      obtain ⟨os, ns, rfl, hos, hns⟩ := List.map_eq_append_iff.mp hfront
      obtain ⟨word, ls, rfl, hls⟩ := eq_token_cons hback
      obtain ⟨o, ho, hoMeaning, hoRank⟩ := (ih h.1).enclosed (by decide) hos
      obtain ⟨l, hl, hlMeaning, hlRank⟩ := (ihLow h.2.1).enclosed (by decide) hls
      obtain ⟨u, hu, huMeaning, huRank⟩ := (ihHigh h.2.2).enclosed (by decide) hhs
      refine ⟨.between o l u negated,
        .between word joint ho (spelled_negation hns) hl hu hoRank hlRank huRank, ?_,
        fun _ _ hdemanded => hdemanded⟩
      rw [meaning, hoMeaning, hlMeaning, huMeaning]
      rfl
  | inList operand items negated ih =>
      intro tokens htokens
      obtain ⟨⟨name, rfl⟩, hoperand, hne⟩ := h
      obtain ⟨front, back, rfl, hfront, hback⟩ := List.map_eq_append_iff.mp htokens
      obtain ⟨rightParen, rfl⟩ := eq_token_singleton hback
      obtain ⟨front, back, rfl, hfront, hback⟩ := List.map_eq_append_iff.mp hfront
      obtain ⟨os, ns, rfl, hos, hns⟩ := List.map_eq_append_iff.mp hfront
      obtain ⟨inside, rest, rfl, hrest⟩ := eq_token_cons hback
      obtain ⟨leftParen, more, rfl, hmore⟩ := eq_token_cons hrest
      obtain ⟨quoted, is, last, rfl, his, hcontents⟩ := spelled_items hne hmore
      obtain ⟨o, ho, hoMeaning, hoRank⟩ := (ih hoperand).enclosed (by decide) hos
      refine ⟨.inList o (quoted ++ [last]) rightParen negated, ?_, ?_,
        fun _ _ hdemanded => hdemanded⟩
      · simpa using
          Spells.inList inside leftParen rightParen last ho (spelled_negation hns) his hoRank
      · rw [meaning, hoMeaning, ← hcontents]
        rfl
  | like operand pattern negated ih =>
      intro tokens htokens
      obtain ⟨⟨name, rfl⟩, hoperand, -⟩ := h
      obtain ⟨front, back, rfl, hfront, hback⟩ := List.map_eq_append_iff.mp htokens
      obtain ⟨os, ns, rfl, hos, hns⟩ := List.map_eq_append_iff.mp hfront
      obtain ⟨word, rest, rfl, hrest⟩ := eq_token_cons hback
      obtain ⟨quoted, escape, es, rfl, hes, hpattern⟩ := spelled_pattern hrest
      obtain ⟨o, ho, hoMeaning, hoRank⟩ := (ih hoperand).enclosed (by decide) hos
      refine ⟨.like o quoted escape negated,
        .like word quoted ho (spelled_negation hns) hes hoRank, ?_, fun _ _ hdemanded => hdemanded⟩
      rw [meaning, hoMeaning]
      change (patternMeaning quoted escape >>= fun pattern => _) = _
      rw [hpattern]
      rfl
  | isNull operand negated ih =>
      intro tokens htokens
      obtain ⟨⟨name, rfl⟩, hoperand⟩ := h
      obtain ⟨front, back, rfl, hfront, hback⟩ := List.map_eq_append_iff.mp htokens
      obtain ⟨nullKeyword, rfl⟩ := eq_token_singleton hback
      obtain ⟨os, rest, rfl, hos, hrest⟩ := List.map_eq_append_iff.mp hfront
      obtain ⟨word, ns, rfl, hns⟩ := eq_token_cons hrest
      obtain ⟨o, ho, hoMeaning, hoRank⟩ := (ih hoperand).enclosed (by decide) hos
      refine ⟨.isNull o nullKeyword negated,
        .isNull word nullKeyword ho (spelled_negation hns) hoRank, ?_,
        fun _ _ hdemanded => hdemanded⟩
      rw [meaning, hoMeaning]
      rfl

/-- The canonical text of a well-formed expression is scanned to its canonical lexemes, which spell
a phrase for it. -/
theorem WellFormed.scan_render {e : Expr} (h : e.WellFormed) :
    ∃ phrase tokens stop, Token.scan e.render.toList = tokens ++ [⟨.endOfText, stop⟩] ∧
      tokens.map (·.lexeme) = e.lexemes ∧ Spells phrase tokens ∧
        phrase.meaning e.render.toList = .ok e := by
  have hlexemes := writes_render h [] trivial
  rw [List.append_nil] at hlexemes
  obtain ⟨tokens, stop, htokens, hts⟩ := Token.scan_of_lexemes hlexemes
  obtain ⟨phrase, hspells, hmeaning, -⟩ := h.spelled tokens hts
  exact ⟨phrase, tokens, stop, htokens, hts, hspells, hmeaning⟩

/-- The canonical text of a well-formed expression has the expression, if it does not nest too
deep. -/
theorem of_chars_render {e : Expr} (h : e.WellFormed)
    (hnesting : Nesting.tooDeep? e.render.toList = none) :
    ofChars e.render.toList = .ok (some e) := by
  obtain ⟨phrase, tokens, stop, htokens, -, hspells, hmeaning⟩ := h.scan_render
  exact Says.of_chars ⟨phrase, tokens, stop, htokens, hspells, hmeaning⟩ hnesting

/-- The canonical text of every well-formed expression is read back as that expression, unless it
nests deeper than any text may. -/
theorem parse_render {e : Expr} (h : e.WellFormed)
    (hnesting : Nesting.tooDeep? e.render.toList = none) : parse e.render = .ok (some e) := by
  unfold parse
  rw [of_chars_render h hnesting]
  rfl

/-- The least integer under a sign and a negative zero are read back. -/
theorem parse_render_signs :
    (comparison .less (.signed .minus (.literal (.integer Int64.minValue)))
        (.literal (.float (-0)))).WellFormed ∧
      parse (comparison .less (.signed .minus (.literal (.integer Int64.minValue)))
          (.literal (.float (-0)))).render =
        .ok (some (.comparison .less (.signed .minus (.literal (.integer Int64.minValue)))
          (.literal (.float (-0))))) := by
  have h : (comparison .less (.signed .minus (.literal (.integer Int64.minValue)))
      (.literal (.float (-0)))).WellFormed :=
    ⟨⟨trivial, fun _ => ⟨rfl, rfl⟩⟩, show (-0 : Float).isFinite = true by decide +kernel⟩
  exact ⟨h, parse_render h (by decide +kernel)⟩

end MessageSelector.Expr
