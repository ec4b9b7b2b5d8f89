import MessageSelector.Proofs.Equality
import MessageSelector.Proofs.Unclosed

/-!
# Canonical text has the fewest parentheses

No text that means an expression has fewer parentheses than its canonical text, `opened_le`. The
canonical text is well spaced, so without a pair of its parentheses it is scanned to the lexemes
that are left, and these are too few. Read `parse_without_parentheses` for what follows: such a text
is rejected or means something else.
-/

namespace MessageSelector

open MessageSelector.Expr (Binding encloseLexemes notLexemes itemLexemes patternLexemes)

/-! ## Counting parentheses -/

/-- How many parentheses are opened. -/
def opened (lexemes : List Lexeme) : Nat :=
  lexemes.count .leftParen

@[simp] theorem opened_nil : opened [] = 0 :=
  rfl

@[simp] theorem opened_append (ls ms : List Lexeme) :
    opened (ls ++ ms) = opened ls + opened ms :=
  List.count_append

@[simp] theorem opened_open (ls : List Lexeme) :
    opened (.leftParen :: ls) = opened ls + 1 :=
  List.count_cons_self

/-- Every other lexeme opens nothing. -/
theorem opened_cons {lexeme : Lexeme} (h : lexeme ≠ .leftParen) (ls : List Lexeme) :
    opened (lexeme :: ls) = opened ls :=
  List.count_cons_of_ne h

/-- A negation opens nothing. -/
@[simp] theorem opened_not (negated : Bool) : opened (notLexemes negated) = 0 := by
  cases negated <;> rfl

/-- The items of a list open nothing. -/
@[simp] theorem opened_items (items : List String) : opened (itemLexemes items) = 0 := by
  induction items with
  | nil => rfl
  | cons item items ih =>
      cases items with
      | nil => rfl
      | cons next items => simpa [itemLexemes, opened_cons] using ih

/-- A pattern opens nothing. -/
@[simp] theorem opened_pattern (pattern : Like.Pattern) :
    opened (patternLexemes pattern) = 0 := by
  unfold patternLexemes
  cases pattern.escape <;> rfl

/-- A literal opens nothing. -/
@[simp] theorem opened_value (value : Value) : opened value.lexemes = 0 := by
  cases value with
  | string | boolean => rfl
  | integer number =>
      change opened ((if number.toInt < 0 then [Lexeme.minus] else []) ++ [_]) = 0
      split <;> rfl
  | float number =>
      change opened ((if 2 ^ 63 ≤ number.toBits.toNat then [Lexeme.minus] else []) ++ [_]) = 0
      split <;> rfl

/-- The tokens of a negation open nothing. -/
theorem opened_of_negation {negated : Bool} {ns : List Token} (h : SpellsNegation negated ns) :
    opened (ns.map (·.lexeme)) = 0 := by
  cases h <;> rfl

namespace Expr

/-- The parentheses of an expression in its place. -/
def openedIn (demanded : Binding) (e : Expr) : Nat :=
  opened (encloseLexemes demanded e.binding e.lexemes)

/-- An expression that binds tightly enough has only its own parentheses. -/
theorem opened_in_of_le {demanded : Binding} {e : Expr} (h : demanded.rank ≤ e.binding.rank) :
    e.openedIn demanded = opened e.lexemes := by
  unfold openedIn encloseLexemes
  rw [if_neg (Nat.not_lt.mpr h)]

/-- A place adds at most one pair of parentheses. -/
theorem opened_in_le (demanded : Binding) (e : Expr) :
    e.openedIn demanded ≤ opened e.lexemes + 1 := by
  unfold openedIn encloseLexemes
  split
  · rw [opened_append, opened_open]
    rfl
  · exact Nat.le_succ _

/-- The parentheses of the operands in their places, and those of a list. -/
def innerOpened : Expr → Nat
  | identifier _ | literal _ => 0
  | not operand => operand.openedIn .not
  | signed _ operand => operand.openedIn .sign
  | and left right => left.openedIn .and + right.openedIn .not
  | or left right => left.openedIn .or + right.openedIn .and
  | comparison _ left right => left.openedIn .additive + right.openedIn .additive
  | arithmetic op left right =>
    left.openedIn (.ofArithmetic op) + right.openedIn (.aboveArithmetic op)
  | between operand low high _ =>
    operand.openedIn .additive + (low.openedIn .additive + high.openedIn .additive)
  | inList operand _ _ => operand.openedIn .additive + 1
  | like operand _ _ | isNull operand _ => operand.openedIn .additive

/-- Parentheses are opened by operands and by lists alone. -/
theorem opened_lexemes (e : Expr) : opened e.lexemes = e.innerOpened := by
  cases e with
  | identifier => rfl
  | literal value => exact opened_value value
  | not => exact opened_cons (by simp) _
  | signed sign => exact opened_cons (by cases sign <;> decide) _
  | and | or | comparison =>
      rw [lexemes, opened_append, opened_cons (by simp)]
      rfl
  | arithmetic op =>
      rw [lexemes, opened_append, opened_cons (by cases op <;> decide)]
      rfl
  | between | inList | like | isNull =>
      simp [lexemes, innerOpened, openedIn, opened_cons]

/-- A sign that is taken up by a number saves the parentheses, and one that stays keeps them. -/
theorem opened_in_with_sign {demanded : Binding} (hdemanded : demanded.rank ≤ Binding.sign.rank)
    (operand : Expr) (sign : Sign) :
    (operand.withSign sign).openedIn demanded ≤ operand.openedIn .sign := by
  have hkept : (signed sign operand).openedIn demanded = operand.openedIn .sign := by
    rw [opened_in_of_le hdemanded, opened_lexemes]
    rfl
  cases operand with
  | literal value =>
      cases hsigned : value.signed? sign with
      | none => rw [with_sign_of_none hsigned, hkept]
      | some number =>
          rw [with_sign_of_some hsigned, opened_in_of_le (Binding.rank_le_primary demanded),
            opened_lexemes]
          exact Nat.zero_le _
  | _ => exact Nat.le_of_eq hkept

end Expr

/-! ## The fewest parentheses -/

variable {text : List Char}

/-- A phrase has at least the parentheses that its expression has in the canonical text, in every
place that the phrase may stand in. -/
theorem opened_le {phrase : Phrase} {tokens : List Token} (h : Spells phrase tokens) {e : Expr}
    (hmeaning : phrase.meaning text = .ok e) {demanded : Binding}
    (hdemanded : demanded.rank ≤ phrase.binding.rank) :
    e.openedIn demanded ≤ opened (tokens.map (·.lexeme)) := by
  -- Without parentheses of its own a phrase binds no more tightly than its expression.
  induction h generalizing e demanded with
  | identifier | string | boolean =>
      cases hmeaning
      exact Nat.le_of_eq (Expr.opened_in_of_le hdemanded)
  | unclosedString => cases hmeaning
  | cutShort => exact absurd hmeaning (Phrase.meaning_cut_short _ _ _ e)
  | float =>
      obtain ⟨number, -, rfl⟩ := (Phrase.float_meaning_ok_iff _ _ _).mp hmeaning
      rw [Expr.opened_in_of_le hdemanded, Expr.opened_lexemes]
      exact Nat.zero_le _
  | integer =>
      obtain ⟨number, -, rfl⟩ := (Phrase.integer_meaning_ok_iff _ _ _ _).mp hmeaning
      rw [Expr.opened_in_of_le hdemanded, Expr.opened_lexemes]
      exact Nat.zero_le _
  | group leftParen rightParen _ ih =>
      have hinner := @ih e hmeaning .or (Nat.zero_le _)
      rw [Expr.opened_in_of_le (Nat.zero_le _)] at hinner
      have hplace := Expr.opened_in_le demanded e
      simp only [List.map_cons, List.map_append, List.cons_append, opened_open, opened_append]
      omega
  | signed mark sign _ hrank ih =>
      rw [List.map_cons, opened_cons (by cases sign <;> simp [Sign.lexeme])]
      obtain ⟨inner, hinner, rfl⟩ | ⟨span, literal, rfl, rfl, hinteger⟩ :=
        Phrase.meaning_signed_ok hmeaning
      · exact Nat.le_trans (Expr.opened_in_with_sign hdemanded inner sign) (ih hinner hrank)
      · obtain ⟨number, -, rfl⟩ := (Phrase.integer_meaning_ok_iff _ _ _ _).mp hinteger
        rw [Expr.opened_in_of_le (Binding.rank_le_primary demanded), Expr.opened_lexemes]
        exact Nat.zero_le _
  | arithmetic op _ _ _ hleftRank hrightRank ihLeft ihRight =>
      rw [Phrase.meaning] at hmeaning
      simp only [bind_ok_iff] at hmeaning
      obtain ⟨left, hleft, right, hright, heq⟩ := hmeaning
      cases heq
      rw [Expr.opened_in_of_le hdemanded, Expr.opened_lexemes, List.map_append, List.map_cons,
        opened_append, opened_cons (by cases op <;> simp [Arithmetic.lexeme])]
      exact Nat.add_le_add (ihLeft hleft hleftRank) (ihRight hright hrightRank)
  | comparison _ _ _ _ hleftRank hrightRank ihLeft ihRight
  | and _ _ _ hleftRank hrightRank ihLeft ihRight | or _ _ _ hleftRank hrightRank ihLeft ihRight =>
      rw [Phrase.meaning] at hmeaning
      simp only [bind_ok_iff] at hmeaning
      obtain ⟨left, hleft, right, hright, heq⟩ := hmeaning
      cases heq
      rw [Expr.opened_in_of_le hdemanded, Expr.opened_lexemes, List.map_append, List.map_cons,
        opened_append, opened_cons (by simp)]
      exact Nat.add_le_add (ihLeft hleft hleftRank) (ihRight hright hrightRank)
  | between _ _ _ hnegation _ _ hrank hlowRank hhighRank ih ihLow ihHigh =>
      rw [Phrase.meaning] at hmeaning
      simp only [bind_ok_iff] at hmeaning
      obtain ⟨operand, hoperand, low, hlow, high, hhigh, heq⟩ := hmeaning
      cases heq
      have hbounds := Nat.add_le_add (ihLow hlow hlowRank) (ihHigh hhigh hhighRank)
      rw [Expr.opened_in_of_le hdemanded, Expr.opened_lexemes, Expr.innerOpened]
      simpa [opened_cons, opened_of_negation hnegation, Nat.add_assoc] using
        Nat.add_le_add (ih hoperand hrank) hbounds
  | inList _ _ _ _ _ hnegation _ hrank ih =>
      rw [Phrase.meaning, bind_ok_iff] at hmeaning
      obtain ⟨operand, hoperand, htest⟩ := hmeaning
      rw [bind_ok_iff] at htest
      obtain ⟨-, -, heq⟩ := htest
      cases heq
      rw [Expr.opened_in_of_le hdemanded, Expr.opened_lexemes]
      refine Nat.le_trans (Nat.add_le_add_right (ih hoperand hrank) 1) ?_
      simp [opened_cons, opened_of_negation hnegation]
  | like _ _ _ hnegation _ hrank ih =>
      rw [Phrase.meaning, bind_ok_iff] at hmeaning
      obtain ⟨operand, hoperand, htest⟩ := hmeaning
      simp only [bind_ok_iff] at htest
      obtain ⟨-, -, pattern, -, heq⟩ := htest
      cases heq
      rw [Expr.opened_in_of_le hdemanded, Expr.opened_lexemes, List.map_append,
        opened_append, List.map_append, opened_append]
      exact Nat.le_trans (ih hoperand hrank) (by omega)
  | isNull _ _ _ _ hrank ih =>
      rw [Phrase.meaning, bind_ok_iff] at hmeaning
      obtain ⟨operand, hoperand, htest⟩ := hmeaning
      rw [bind_ok_iff] at htest
      obtain ⟨-, -, heq⟩ := htest
      cases heq
      rw [Expr.opened_in_of_le hdemanded, Expr.opened_lexemes, List.map_append,
        opened_append, List.map_append, opened_append]
      exact Nat.le_trans (ih hoperand hrank) (by omega)
  | not _ _ hrank ih =>
      rw [Phrase.meaning, bind_ok_iff] at hmeaning
      obtain ⟨operand, hoperand, heq⟩ := hmeaning
      cases heq
      rw [Expr.opened_in_of_le hdemanded, Expr.opened_lexemes, List.map_cons,
        opened_cons (by simp)]
      exact ih hoperand hrank

/-! ## Sameness -/

namespace Expr

variable {e f : Expr}

/-- Expressions that agree have equally many parentheses in every place. -/
theorem Alike.opened_in_eq (h : Alike e f) (demanded : Binding) :
    e.openedIn demanded = f.openedIn demanded := by
  -- The place adds parentheses to both or to neither, since the two bind equally tightly.
  have hplace {a b : Expr} {demanded : Binding} (hbinding : a.binding = b.binding)
      (hinner : a.innerOpened = b.innerOpened) :
      a.openedIn demanded = b.openedIn demanded := by
    unfold openedIn encloseLexemes
    rw [hbinding]
    split
    · rw [opened_append, opened_append, opened_open, opened_open, opened_lexemes,
        opened_lexemes, hinner]
    · rw [opened_lexemes, opened_lexemes, hinner]
  induction h generalizing demanded with
  | identifier => rfl
  | literal => exact hplace rfl rfl
  | not _ ih | signed _ _ ih | like _ _ _ ih | isNull _ _ ih => exact hplace rfl (ih _)
  | inList _ _ _ ih => exact hplace rfl (congrArg (· + 1) (ih _))
  | and _ _ ih ih' | or _ _ ih ih' | comparison _ _ _ ih ih' | arithmetic _ _ _ ih ih' =>
      exact hplace rfl (congrArg₂ (· + ·) (ih _) (ih' _))
  | between _ _ _ _ ih ihLow ihHigh =>
      exact hplace rfl (congrArg₂ (· + ·) (ih _) (congrArg₂ (· + ·) (ihLow _) (ihHigh _)))

end Expr

/-! ## Without a pair of parentheses -/

/-- A token of a text that is accepted begins where the tokens in front of it have been cut off. -/
theorem cut_in_front_of_mem {phrase : Phrase} {tokens : List Token} {stop : Span} {e : Expr}
    {front behind : List Char} {lexeme : Lexeme} {length : Nat}
    (hscan : Token.scan (front ++ behind) = tokens ++ [⟨.endOfText, stop⟩])
    (hspells : Spells phrase tokens) (hmeaning : phrase.meaning text = .ok e)
    (hlexeme : lexeme ≠ .endOfText)
    (hmem : ⟨lexeme, ⟨byteCount front, length⟩⟩ ∈ Token.scan (front ++ behind)) :
    ∃ ls, Cut front ls behind := by
  rw [hscan, List.mem_append] at hmem
  have htoken := hmem.resolve_right fun hend => by
    cases List.mem_singleton.mp hend
    exact hlexeme rfl
  obtain ⟨earlier, later, rfl⟩ := List.append_of_mem htoken
  have hproper := hspells.all_proper hmeaning
  have hstray := no_stray_of_spells hspells
  rw [all_proper_append] at hproper
  rw [no_stray_append] at hstray
  rw [List.append_assoc, List.cons_append] at hscan
  exact ⟨_, cut_in_front hscan hproper.1 (by simpa using hstray.2) rfl⟩

namespace Expr

/-- Without an opening and a closing parenthesis the canonical text has the other lexemes. -/
theorem WellFormed.laid_without {e : Expr} (h : e.WellFormed) (before inner after : List Char)
    (hrender : e.render.toList = before ++ '(' :: (inner ++ ')' :: after))
    (hopens : ⟨.leftParen, ⟨byteCount before, 1⟩⟩ ∈ Token.scan e.render.toList)
    (hcloses : ⟨.rightParen, ⟨byteCount (before ++ '(' :: inner), 1⟩⟩ ∈
      Token.scan e.render.toList) :
    ∃ ls, Laid (before ++ (inner ++ after)) ls [] ∧ opened ls + 1 = opened e.lexemes := by
  obtain ⟨phrase, tokens, stop, hscan, -, hspells, hmeaning⟩ := h.scan_render
  have hlaid := lays_out_render h [] trivial
  have hclosing : e.render.toList = (before ++ '(' :: inner) ++ ')' :: after := by
    simp [hrender]
  -- The closing parenthesis goes first, so that the place of the opening one is still the same.
  obtain ⟨front, hfront⟩ : ∃ ls, Cut (before ++ '(' :: inner) ls (')' :: after) := by
    rw [hclosing] at hscan hcloses
    exact cut_in_front_of_mem hscan hspells hmeaning (by simp) hcloses
  obtain ⟨start, hstart⟩ : ∃ ls, Cut before ls ('(' :: (inner ++ ')' :: after)) := by
    rw [hrender] at hscan hopens
    exact cut_in_front_of_mem hscan hspells hmeaning (by simp) hopens
  rw [hclosing] at hlaid
  obtain ⟨back, hlexemes, hlaid⟩ := hlaid.without (.inr ⟨rfl, rfl⟩) hfront
  rw [List.append_assoc, List.cons_append] at hlaid
  obtain ⟨rest, hrest, hlaid⟩ :=
    hlaid.without (.inl ⟨rfl, rfl⟩) (hstart.followed fun _ _ hends => hends)
  refine ⟨_, hlaid, ?_⟩
  have hcount := congrArg opened hrest
  rw [opened_append, opened_append, opened_open] at hcount
  rw [hlexemes, opened_append, opened_append, opened_cons (by simp)]
  omega

/-- No pair of parentheses of canonical text can be left out: whichever opening and closing one are
deleted, the text is rejected or means an expression that is not the same. -/
theorem parse_without_parentheses {text before inner after : String} {e : Expr}
    (haccepted : parse text = .ok (some e))
    (hrender : e.render = before ++ "(" ++ inner ++ ")" ++ after)
    (hopens : ⟨.leftParen, ⟨byteCount before.toList, 1⟩⟩ ∈ Token.scan e.render.toList)
    (hcloses : ⟨.rightParen, ⟨byteCount (before ++ "(" ++ inner).toList, 1⟩⟩ ∈
      Token.scan e.render.toList) :
    parse (before ++ inner ++ after) ≠ .ok (some e) ∧
      ∀ other, parse (before ++ inner ++ after) = .ok (some other) → (other == e) = false := by
  obtain ⟨ls, hlaid, hcount⟩ := (parse_well_formed haccepted).laid_without
    before.toList inner.toList after.toList (by simp [hrender]) hopens (by simpa using hcloses)
  -- What the text means has no more parentheses than the text, which is one short.
  have hfewer {other : Expr} (hother : parse (before ++ inner ++ after) = .ok (some other)) :
      opened other.lexemes < opened e.lexemes := by
    obtain ⟨-, phrase, tokens, stop, hscan, hspells, hmeaning⟩ := of_chars_ok (of_parse_ok hother)
    have htokens : tokens.map (·.lexeme) = ls := by
      obtain ⟨tokens', stop', hscan', rfl⟩ := hlaid.cut.scanned
      rw [String.toList_append, String.toList_append, List.append_assoc, hscan'] at hscan
      rw [(List.append_inj' hscan rfl).1]
    have hle := @opened_le _ _ _ hspells _ hmeaning .or (Nat.zero_le _)
    rw [opened_in_of_le (Nat.zero_le _), htokens] at hle
    omega
  refine ⟨fun hsame => Nat.lt_irrefl _ (hfewer hsame), fun other hother => ?_⟩
  cases hbeq : other == e with
  | false => rfl
  | true =>
      have hequal := (alike_of_same hbeq).opened_in_eq .or
      rw [opened_in_of_le (Nat.zero_le _), opened_in_of_le (Nat.zero_le _)] at hequal
      exact absurd hequal (Nat.ne_of_lt (hfewer hother))

/-- Without its parentheses the opposite of a sum is a sum that begins with an opposite. -/
theorem parse_without_parentheses_sum :
    let e := comparison .greater
      (.signed .minus (.arithmetic .add (.identifier "a") (.identifier "b")))
      (.literal (.integer 0))
    parse "-(a+b) > 0" = .ok (some e) ∧ e.render = "-(a + b) > 0" ∧
      ∃ other, parse "-a + b > 0" = .ok (some other) ∧ (other == e) = false := by
  intro e
  have haccepted : parse "-(a+b) > 0" = .ok (some e) := by cbv
  have hrender : e.render = "-" ++ "(" ++ "a + b" ++ ")" ++ " > 0" := by decide +kernel
  have hopens : ⟨.leftParen, ⟨byteCount "-".toList, 1⟩⟩ ∈ Token.scan e.render.toList := by
    decide +kernel
  have hcloses : ⟨.rightParen, ⟨byteCount ("-" ++ "(" ++ "a + b").toList, 1⟩⟩ ∈
      Token.scan e.render.toList := by
    decide +kernel
  have hother : parse "-a + b > 0" = .ok (some (.comparison .greater
      (.arithmetic .add (.signed .minus (.identifier "a")) (.identifier "b"))
      (.literal (.integer 0)))) := by
    cbv
  exact ⟨haccepted, hrender, _, hother,
    (parse_without_parentheses haccepted hrender hopens hcloses).2 _ hother⟩

end Expr

end MessageSelector
