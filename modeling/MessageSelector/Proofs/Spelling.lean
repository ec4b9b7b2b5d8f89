import MessageSelector.Expr.Rendering
import MessageSelector.Phrase
import MessageSelector.Token

/-!
# The grammar as a relation

`Spells phrase tokens` says that the tokens spell the phrase. There is one rule for each kind of
phrase, and a rule asks of every operand only that it binds tightly enough for its place; a phrase
in parentheses fits anywhere. No rule mentions an order of reading, so the relation is what the
readers are judged by.
-/

namespace MessageSelector

open MessageSelector.Expr (Binding)

/-! ## Bindings -/

namespace Expr.Binding

/-- The place of a binding among the others, counted from the loosest. -/
def rank : Binding → Nat
  | or => 0
  | and => 1
  | not => 2
  | condition => 3
  | additive => 4
  | multiplicative => 5
  | sign => 6
  | primary => 7

/-- The next tighter binding. A primary is the tightest. -/
def tighter : Binding → Binding
  | or => and
  | and => not
  | not => condition
  | condition => additive
  | additive => multiplicative
  | multiplicative => sign
  | sign | primary => primary

/-- Nothing binds more tightly than a primary. -/
theorem rank_le_primary (binding : Binding) : binding.rank ≤ primary.rank := by
  cases binding <;> decide

/-- Parentheses are written around an operand of too low a rank. -/
theorem enclose_of_lt {demanded actual : Binding} (h : actual.rank < demanded.rank)
    (text : String) : enclose demanded actual text = "(" ++ text ++ ")" := by
  cases demanded <;> cases actual <;> first | rfl | exact absurd h (by decide)

/-- An operand of sufficient rank is written as it is. -/
theorem enclose_of_le {demanded actual : Binding} (h : demanded.rank ≤ actual.rank)
    (text : String) : enclose demanded actual text = text := by
  cases demanded <;> cases actual <;> first | rfl | exact absurd h (by decide)

end Expr.Binding

/-- How tightly the outermost operator of a phrase binds. Parentheses make a primary. -/
def Phrase.binding : Phrase → Binding
  | identifier .. | string _ | unclosedString _ | float .. | integer .. | boolean .. | group .. =>
    .primary
  | signed .. => .sign
  | arithmetic op _ _ => .ofArithmetic op
  | comparison .. | between .. | inList .. | like .. | isNull .. | cutShort .. => .condition
  | not .. => .not
  | and .. => .and
  | or .. => .or

/-! ## Lexemes of operators -/

/-- The lexeme of a sign. -/
def Sign.lexeme : Sign → Lexeme
  | plus => .plus
  | minus => .minus

/-- The lexeme of an arithmetic operator. -/
def Arithmetic.lexeme : Arithmetic → Lexeme
  | add => .plus
  | subtract => .minus
  | multiply => .star
  | divide => .slash

/-- A string literal as a token. -/
def QuotedString.token (literal : QuotedString) : Token :=
  ⟨.string literal.contents, literal.span⟩

/-- The binding of the operator or test with which a lexeme would continue a phrase, if any. -/
def Lexeme.joins : Lexeme → Option Binding
  | keyword .or => some .or
  | keyword .and => some .and
  | comparison _ | keyword .not | keyword .between | keyword .like | keyword .inside | keyword .is
  | keyword .escape => some .condition
  | plus | minus => some .additive
  | star | slash => some .multiplicative
  | _ => none

/-- The tokens do not begin with anything that continues a phrase of the given binding or a tighter
one. -/
def Stops (demanded : Binding) (tokens : List Token) : Prop :=
  ∃ next rest, tokens = next :: rest ∧
    ∀ level, next.lexeme.joins = some level → level.rank < demanded.rank

/-- What does not continue a looser phrase does not continue a tighter one. -/
theorem Stops.tighten {loose tight : Binding} {tokens : List Token} (h : Stops loose tokens)
    (hle : loose.rank ≤ tight.rank) : Stops tight tokens := by
  obtain ⟨next, rest, rfl, hnext⟩ := h
  exact ⟨next, rest, rfl, fun level hlevel => Nat.lt_of_lt_of_le (hnext level hlevel) hle⟩

/-- A lexeme that joins nothing continues nothing. -/
theorem stops_of_joins_none {next : Token} (h : next.lexeme.joins = none) (demanded : Binding)
    (rest : List Token) : Stops demanded (next :: rest) :=
  ⟨next, rest, rfl, fun level hlevel => by rw [h] at hlevel; cases hlevel⟩

/-- An operator continues only phrases that bind at least as loosely as itself. -/
theorem stops_of_joins {next : Token} {level demanded : Binding}
    (h : next.lexeme.joins = some level) (hlt : level.rank < demanded.rank) (rest : List Token) :
    Stops demanded (next :: rest) :=
  ⟨next, rest, rfl, fun other hother => by rw [h] at hother; cases hother; exact hlt⟩

/-- Where a phrase stops, no operator follows that binds at least as tightly. -/
theorem Stops.head_ne {demanded level : Binding} {tokens : List Token} {lexeme : Lexeme}
    (h : Stops demanded tokens) (hjoins : lexeme.joins = some level)
    (hle : demanded.rank ≤ level.rank) :
    ∃ next rest, tokens = next :: rest ∧ next.lexeme ≠ lexeme := by
  obtain ⟨next, rest, rfl, hnext⟩ := h
  refine ⟨next, rest, rfl, ?_⟩
  rintro rfl
  have hlt := hnext level hjoins
  omega

/-! ## Spelling -/

/-- How a test says whether it is negated. -/
inductive SpellsNegation : Bool → List Token → Prop where
  | plain : SpellsNegation false []
  | negated (span) : SpellsNegation true [⟨.keyword .not, span⟩]

/-- Items of a list, each with the comma after it. -/
inductive SpellsItems : List QuotedString → List Token → Prop where
  | nil : SpellsItems [] []
  | cons (item comma) {items tokens} :
      SpellsItems items tokens →
        SpellsItems (item :: items) (item.token :: ⟨.comma, comma⟩ :: tokens)

/-- The tokens of a list or pattern test in front of a string literal that is not closed. -/
inductive SpellsOpening : List Token → Prop where
  | inList (inside leftParen) {negated ns items is} :
      SpellsNegation negated ns → SpellsItems items is →
      SpellsOpening (ns ++ ⟨.keyword .inside, inside⟩ :: ⟨.leftParen, leftParen⟩ :: is)
  | pattern (word) {negated ns} :
      SpellsNegation negated ns → SpellsOpening (ns ++ [⟨.keyword .like, word⟩])
  | escape (word literal mark) {negated ns} :
      SpellsNegation negated ns →
      SpellsOpening (ns ++
        [⟨.keyword .like, word⟩, QuotedString.token literal, ⟨.keyword .escape, mark⟩])

/-- The escape clause of a pattern test. -/
inductive SpellsEscape : Option QuotedString → List Token → Prop where
  | absent : SpellsEscape none []
  | present (mark escape) :
      SpellsEscape (some escape) [⟨.keyword .escape, mark⟩, escape.token]

/-- `Spells phrase tokens` says that the tokens spell the phrase. -/
inductive Spells : Phrase → List Token → Prop where
  | identifier (span name) : Spells (.identifier span name) [⟨.identifier name, span⟩]
  | string (literal) : Spells (.string literal) [literal.token]
  | unclosedString (span) : Spells (.unclosedString span) [⟨.unclosedString, span⟩]
  | float (span literal) : Spells (.float span literal) [⟨.float literal, span⟩]
  | integer (span literal) : Spells (.integer span literal) [⟨.integer literal, span⟩]
  | boolean (span flag) : Spells (.boolean span flag) [⟨.boolean flag, span⟩]
  | group (leftParen rightParen) {inner tokens} :
      Spells inner tokens →
      Spells (.group leftParen inner rightParen)
        (⟨.leftParen, leftParen⟩ :: tokens ++ [⟨.rightParen, rightParen⟩])
  | signed (mark sign) {operand tokens} :
      Spells operand tokens → Binding.sign.rank ≤ operand.binding.rank →
      Spells (.signed mark sign operand) (⟨sign.lexeme, mark⟩ :: tokens)
  | arithmetic (op span) {left right ls rs} :
      Spells left ls → Spells right rs →
      (Binding.ofArithmetic op).rank ≤ left.binding.rank →
      (Binding.aboveArithmetic op).rank ≤ right.binding.rank →
      Spells (.arithmetic op left right) (ls ++ ⟨op.lexeme, span⟩ :: rs)
  | comparison (op span) {left right ls rs} :
      Spells left ls → Spells right rs →
      Binding.additive.rank ≤ left.binding.rank → Binding.additive.rank ≤ right.binding.rank →
      Spells (.comparison op left right) (ls ++ ⟨.comparison op, span⟩ :: rs)
  | between (word joint) {operand low high negated os ns ls hs} :
      Spells operand os → SpellsNegation negated ns → Spells low ls → Spells high hs →
      Binding.additive.rank ≤ operand.binding.rank → Binding.additive.rank ≤ low.binding.rank →
      Binding.additive.rank ≤ high.binding.rank →
      Spells (.between operand low high negated)
        (os ++ ns ++ ⟨.keyword .between, word⟩ :: ls ++ ⟨.keyword .and, joint⟩ :: hs)
  | inList (inside leftParen rightParen item) {operand items negated os ns is} :
      Spells operand os → SpellsNegation negated ns → SpellsItems items is →
      Binding.additive.rank ≤ operand.binding.rank →
      Spells (.inList operand (items ++ [item]) rightParen negated)
        (os ++ ns ++ ⟨.keyword .inside, inside⟩ :: ⟨.leftParen, leftParen⟩ :: is ++
          [item.token, ⟨.rightParen, rightParen⟩])
  | like (word pattern) {operand escape negated os ns es} :
      Spells operand os → SpellsNegation negated ns → SpellsEscape escape es →
      Binding.additive.rank ≤ operand.binding.rank →
      Spells (.like operand pattern escape negated)
        (os ++ ns ++ ⟨.keyword .like, word⟩ :: pattern.token :: es)
  | isNull (word nullKeyword) {operand negated os ns} :
      Spells operand os → SpellsNegation negated ns →
      Binding.additive.rank ≤ operand.binding.rank →
      Spells (.isNull operand nullKeyword negated)
        (os ++ ⟨.keyword .is, word⟩ :: ns ++ [⟨.keyword .null, nullKeyword⟩])
  | cutShort (unclosed) {operand os opening} :
      Spells operand os → SpellsOpening opening → Binding.additive.rank ≤ operand.binding.rank →
      Spells (.cutShort operand unclosed) (os ++ opening ++ [⟨.unclosedString, unclosed⟩])
  | not (word) {operand tokens} :
      Spells operand tokens → Binding.not.rank ≤ operand.binding.rank →
      Spells (.not word operand) (⟨.keyword .not, word⟩ :: tokens)
  | and (word) {left right ls rs} :
      Spells left ls → Spells right rs →
      Binding.and.rank ≤ left.binding.rank → Binding.not.rank ≤ right.binding.rank →
      Spells (.and left right) (ls ++ ⟨.keyword .and, word⟩ :: rs)
  | or (word) {left right ls rs} :
      Spells left ls → Spells right rs →
      Binding.or.rank ≤ left.binding.rank → Binding.and.rank ≤ right.binding.rank →
      Spells (.or left right) (ls ++ ⟨.keyword .or, word⟩ :: rs)

/-- Nothing is spelled by no tokens. -/
theorem Spells.length_pos {phrase : Phrase} {tokens : List Token} (h : Spells phrase tokens) :
    0 < tokens.length := by
  cases h <;> simp only [List.length_append, List.length_cons, List.length_nil] <;> omega

/-- What begins the left operand begins the whole. -/
theorem head_of_left {tokens : List Token} {unwanted : Lexeme}
    (h : ∃ next rest, tokens = next :: rest ∧ next.lexeme ≠ unwanted) (more : List Token) :
    ∃ next rest, tokens ++ more = next :: rest ∧ next.lexeme ≠ unwanted := by
  obtain ⟨next, rest, rfl, hnext⟩ := h
  exact ⟨next, rest ++ more, rfl, hnext⟩

/-- A phrase that binds at least as tightly as a condition does not begin with `NOT`. -/
theorem Spells.head_ne_not {phrase : Phrase} {tokens : List Token} (h : Spells phrase tokens)
    (hrank : Binding.condition.rank ≤ phrase.binding.rank) :
    ∃ next rest, tokens = next :: rest ∧ next.lexeme ≠ .keyword .not := by
  have hoperand {operand : Phrase} (h : Binding.additive.rank ≤ operand.binding.rank) :
      Binding.condition.rank ≤ operand.binding.rank := Nat.le_trans (by decide) h
  induction h with
  | signed mark sign => exact ⟨_, _, rfl, by cases sign <;> nofun⟩
  | arithmetic op _ _ _ hleft _ ihLeft =>
      have hop : Binding.condition.rank ≤ (Binding.ofArithmetic op).rank := by
        cases op <;> decide
      exact head_of_left (ihLeft (Nat.le_trans hop hleft)) _
  | comparison _ _ _ _ hleft _ ihLeft => exact head_of_left (ihLeft (hoperand hleft)) _
  | between _ _ _ _ _ _ htight _ _ ihOperand =>
      exact head_of_left (head_of_left (head_of_left (ihOperand (hoperand htight)) _) _) _
  | inList _ _ _ _ _ _ _ htight ihOperand =>
      exact head_of_left (head_of_left (head_of_left (ihOperand (hoperand htight)) _) _) _
  | like _ _ _ _ _ htight ihOperand =>
      exact head_of_left (head_of_left (ihOperand (hoperand htight)) _) _
  | isNull _ _ _ _ htight ihOperand =>
      exact head_of_left (head_of_left (ihOperand (hoperand htight)) _) _
  | cutShort _ _ _ htight ihOperand =>
      exact head_of_left (head_of_left (ihOperand (hoperand htight)) _) _
  | not | and | or => simp [Phrase.binding, Binding.rank] at hrank
  | _ => exact ⟨_, _, rfl, nofun⟩

/-- A primary does not begin with a sign. -/
theorem Spells.head_ne_sign {phrase : Phrase} {tokens : List Token} (h : Spells phrase tokens)
    (hprimary : phrase.binding = .primary) :
    ∃ next rest, tokens = next :: rest ∧ next.lexeme ≠ .plus ∧ next.lexeme ≠ .minus := by
  cases h with
  | arithmetic op => cases op <;> cases hprimary
  | identifier | string | unclosedString | float | integer | boolean | group =>
      exact ⟨_, _, rfl, nofun, nofun⟩
  | _ => cases hprimary

/-! ## Stray characters -/

/-- None of the tokens is a stray character. -/
def NoStray (tokens : List Token) : Prop :=
  ∀ token ∈ tokens, ∀ c, token.lexeme ≠ .stray c

@[simp] theorem no_stray_nil : NoStray [] :=
  nofun

@[simp] theorem no_stray_cons (token : Token) (tokens : List Token) :
    NoStray (token :: tokens) ↔ (∀ c, token.lexeme ≠ .stray c) ∧ NoStray tokens :=
  List.forall_mem_cons

@[simp] theorem no_stray_append (before after : List Token) :
    NoStray (before ++ after) ↔ NoStray before ∧ NoStray after :=
  List.forall_mem_append

/-- A string literal is no stray character. -/
@[simp] theorem string_token_lexeme (literal : QuotedString) :
    literal.token.lexeme = .string literal.contents :=
  rfl

/-- No negation has a stray character. -/
theorem no_stray_of_negation {negated : Bool} {ns : List Token} (h : SpellsNegation negated ns) :
    NoStray ns := by
  cases h <;> simp

/-- No items of a list have a stray character. -/
theorem no_stray_of_items {items : List QuotedString} {is : List Token}
    (h : SpellsItems items is) : NoStray is := by
  induction h with
  | nil => simp
  | cons _ _ _ ih => simp [ih]

/-- No phrase is spelled with a stray character. -/
theorem no_stray_of_spells {phrase : Phrase} {tokens : List Token} (h : Spells phrase tokens) :
    NoStray tokens := by
  induction h with
  | identifier | string | unclosedString | float | integer | boolean => simp
  | group _ _ _ ih | not _ _ _ ih => simp [ih]
  | signed _ sign _ _ ih => cases sign <;> simp [Sign.lexeme, ih]
  | arithmetic op _ _ _ _ _ ihLeft ihRight =>
      cases op <;> simp [Arithmetic.lexeme, ihLeft, ihRight]
  | comparison _ _ _ _ _ _ ihLeft ihRight | and _ _ _ _ _ ihLeft ihRight
  | or _ _ _ _ _ ihLeft ihRight => simp [ihLeft, ihRight]
  | between _ _ _ hnegation _ _ _ _ _ ih ihLow ihHigh =>
      simp [ih, ihLow, ihHigh, no_stray_of_negation hnegation]
  | inList _ _ _ _ _ hnegation hitems _ ih =>
      simp [ih, no_stray_of_negation hnegation, no_stray_of_items hitems]
  | like _ _ _ hnegation hescape _ ih =>
      cases hescape <;> simp [ih, no_stray_of_negation hnegation]
  | isNull _ _ _ hnegation _ ih => simp [ih, no_stray_of_negation hnegation]
  | cutShort _ _ hopening _ ih =>
      cases hopening with
      | inList _ _ hnegation hitems =>
          simp [ih, no_stray_of_negation hnegation, no_stray_of_items hitems]
      | pattern _ hnegation | escape _ _ _ hnegation =>
          simp [ih, no_stray_of_negation hnegation]

end MessageSelector
