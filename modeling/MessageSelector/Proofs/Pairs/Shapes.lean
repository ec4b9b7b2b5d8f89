import MessageSelector.Proofs.Grammar.Soundness
import MessageSelector.Proofs.Pairs.Building
import MessageSelector.Proofs.Pairs.Operands
import MessageSelector.Proofs.Parts

/-!
# The pairs of a phrase

Which pairs the grammar leaves for which phrase, level by level, with the pairs of the expressions
inside parentheses as a parameter that `Within` closes off. `agrees_selector` says that these are
the pairs a text has, and that it has none where nothing is read.
-/

namespace MessageSelector

open Reader (Finds Misses)

/-- The rule of a sign. -/
def Sign.rule : Sign → Rule
  | plus => .plus
  | minus => .minus

/-- The rule of an arithmetic operator. -/
def Arithmetic.rule : Arithmetic → Rule
  | add => .add
  | subtract => .subtract
  | multiply => .multiply
  | divide => .divide

/-- The pair of a string literal, with the one for what stands between its quotes. -/
def QuotedString.pair (literal : QuotedString) : Pair :=
  .mk .stringLiteral literal.span
    [.mk .stringInner ⟨literal.span.start + 1, literal.span.length - 2⟩ []]

@[simp] theorem QuotedString.rule_pair (literal : QuotedString) :
    literal.pair.rule = .stringLiteral :=
  rfl

/-! ## Shapes -/

namespace Shape

section Nested

variable (whole : List Token) (Nested : Phrase → Pair → Prop)

/-- The pair of an operand without a sign. Parentheses leave none of their own. -/
inductive Primary : Phrase → Pair → Prop where
  | group (leftParen rightParen) {inner pair} :
      Nested inner pair → pair.rule = .expr → Primary (.group leftParen inner rightParen) pair
  | string (literal) : Primary (.string literal) literal.pair
  | unclosedString (span) : Primary (.unclosedString span) (.mk .unterminatedString span [])
  | float (span literal) : Primary (.float span literal) (.mk .floatLiteral span [])
  | integer (span literal) : Primary (.integer span literal) (.mk .integerLiteral span [])
  | boolean (span flag) : Primary (.boolean span flag) (.mk .booleanLiteral span [])
  | identifier (span name) : Primary (.identifier span name) (.mk .identifier span [])

/-- The pairs of operands under signs and arithmetic operators, grouped as the phrase is. -/
inductive SumTree : Phrase → Grouped → Prop where
  | primary {phrase pair} : Primary Nested phrase pair → SumTree phrase (.operand pair)
  | signed (mark sign) {operand tree} :
      SumTree operand tree →
      SumTree (.signed mark sign operand) (.under (.mk (Sign.rule sign) mark []) tree)
  | arithmetic (op span) {left right leftTree rightTree} :
      SumTree left leftTree → SumTree right rightTree →
      SumTree (.arithmetic op left right)
        (.joined leftTree (.mk (Arithmetic.rule op) span []) rightTree)

/-- The pair of a sum is over the whole of its phrase. -/
def Sum (phrase : Phrase) (pair : Pair) : Prop :=
  ∃ tree, TreeOf Building.sumOperators (SumTree Nested) 10 phrase tree ∧
    pair = .mk .sum phrase.span tree.flat

/-- The pairs that say whether a test is negated. -/
inductive Negation : Bool → List Pair → Prop where
  | plain : Negation false []
  | negated (span) : Negation true [.mk .notKw span []]

/-- The pairs of an escape clause. -/
inductive Escape : Option QuotedString → List Pair → Prop where
  | absent : Escape none []
  | present (word escape) : Escape (some escape) [.mk .escapeKw word [], escape.pair]

/-- The pair of a test of an operand. -/
inductive Tail (operand : Phrase) : Phrase → Pair → Prop where
  | comparison (span) {op place right pair} :
      ⟨.comparison op, place⟩ ∈ whole → Sum Nested right pair →
      Tail operand (.comparison op operand right)
        (.mk .comparison span [.mk .comparisonOp place [], pair])
  | between (span word joint) {negated ns low high lowPair highPair} :
      Negation negated ns → Sum Nested low lowPair → Sum Nested high highPair →
      Tail operand (.between operand low high negated)
        (.mk .between span (ns ++ [.mk .betweenKw word [], lowPair, .mk .and joint [], highPair]))
  | inList (span word items rightParen) {negated ns} :
      Negation negated ns →
      Tail operand (.inList operand items rightParen negated)
        (.mk .inList span (ns ++ .mk .inKw word [] :: items.map QuotedString.pair))
  | like (span word pattern) {escape negated ns es} :
      Negation negated ns → Escape escape es →
      Tail operand (.like operand pattern escape negated)
        (.mk .like span (ns ++ .mk .likeKw word [] :: pattern.pair :: es))
  | isNull (span word nullKeyword) {negated ns} :
      Negation negated ns →
      Tail operand (.isNull operand nullKeyword negated)
        (.mk .isNull span (.mk .isKw word [] :: ns ++ [.mk .nullKw nullKeyword []]))
  | cutShort (name span unclosed) {opening} :
      (∀ pair ∈ opening, pair.rule ≠ .unterminatedString) →
      Tail operand (.cutShort operand unclosed)
        (.mk name span (opening ++ [.mk .unterminatedString unclosed []]))

/-- The pair of a sum, alone or with one test of it. -/
inductive Condition : Phrase → Pair → Prop where
  | sum (span) {operand pair} :
      Sum Nested operand pair → Condition operand (.mk .condition span [pair])
  | tested (span) {operand phrase pair tail} :
      Sum Nested operand pair → Tail whole Nested operand phrase tail →
      Condition phrase (.mk .condition span [pair, tail])

/-- The pairs of conditions under connectives, grouped as the phrase is. -/
inductive ExprTree : Phrase → Grouped → Prop where
  | condition {phrase pair} : Condition whole Nested phrase pair → ExprTree phrase (.operand pair)
  | not (word) {operand tree} :
      ExprTree operand tree → ExprTree (.not word operand) (.under (.mk .neg word []) tree)
  | and (word) {left right leftTree rightTree} :
      ExprTree left leftTree → ExprTree right rightTree →
      ExprTree (.and left right) (.joined leftTree (.mk .and word []) rightTree)
  | or (word) {left right leftTree rightTree} :
      ExprTree left leftTree → ExprTree right rightTree →
      ExprTree (.or left right) (.joined leftTree (.mk .or word []) rightTree)

/-- The pair of an expression. -/
def Expr (phrase : Phrase) (pair : Pair) : Prop :=
  ∃ tree span, TreeOf Building.exprOperators (ExprTree whole Nested) 10 phrase tree ∧
    pair = .mk .expr span tree.flat

end Nested

/-- The pair of an expression in which parentheses nest no deeper than the clock has tokens. -/
def Within (whole : List Token) : (clock : List Token) → Phrase → Pair → Prop
  | [] => fun _ _ => False
  | _ :: clock => Expr whole (Within whole clock)

end Shape

/-! ## Words and literals -/

section Words

variable {whole : List Token}

/-- A keyword leaves its pair. -/
theorem agrees_keyword (word : Keyword) (part : Expectation) (name : Rule) :
    Agrees whole (fun span pairs => pairs = [.mk name span []]) (Phrase.keyword word part)
      (Matcher.keyword name word) :=
  (Agrees.lexeme _ name).expecting part

/-- A negation leaves its pair if there is one. -/
theorem agrees_negation : Agrees whole Shape.Negation Phrase.negation Matcher.negation := by
  refine ((agrees_keyword .not .notKeyword .notKw).optional.map Option.isSome).imp ?_
  rintro _ _ ⟨_, ⟨span, rfl, rfl⟩ | ⟨rfl, rfl⟩, rfl⟩
  · exact .negated span
  · exact .plain

/-- A closed string literal leaves its pair. -/
theorem agrees_quoted_string :
    Agrees whole (fun literal pairs => pairs = [literal.pair]) Phrase.quotedString
      Matcher.stringLiteral := by
  have htoken : Agrees whole
      (fun literal pairs => pairs =
        [.mk .stringInner ⟨literal.span.start + 1, literal.span.length - 2⟩ []])
      Phrase.quotedString Matcher.quoted := by
    refine (Agrees.token (fun next hnext => ?_) fun next literal _ hnext => ?_).expecting _
    · obtain ⟨lexeme, span⟩ := next
      cases lexeme with
      | string contents => cases hnext
      | _ => rfl
    · obtain ⟨lexeme, span⟩ := next
      cases lexeme with
      | string contents =>
          cases hnext
          exact ⟨_, rfl, rfl⟩
      | _ => cases hnext
  refine (htoken.rule .stringLiteral).imp ?_
  rintro literal _ ⟨tokens, rest, _, hfinds, rfl, -, rfl⟩
  obtain rfl : tokens = [literal.token] :=
    List.append_cancel_right ((Phrase.finds_quoted_string _ _ _).mp hfinds)
  rw [Matcher.coverage_singleton]
  rfl

/-- An open string literal leaves its pair. -/
theorem agrees_unclosed :
    Agrees whole (fun span pairs => pairs = [.mk .unterminatedString span []]) Phrase.unclosed
      Matcher.unterminatedString :=
  (Agrees.lexeme _ .unterminatedString).expecting _

/-- A sign leaves its pair. -/
theorem agrees_sign :
    Agrees whole (fun (mark, sign) pairs => pairs = [.mk (Sign.rule sign) mark []]) Phrase.sign
      Matcher.unary := by
  have hlexeme (sign : Sign) (part : Expectation) (wanted : Lexeme) :
      Agrees whole (fun (mark, sign) pairs => pairs = [.mk (Sign.rule sign) mark []])
        (do return (← Reader.expecting part (Reader.lexeme wanted), sign))
        (Matcher.word sign.rule (· = wanted)) := by
    refine (((Agrees.lexeme wanted sign.rule).expecting part).map (·, sign)).imp ?_
    rintro _ _ ⟨mark, rfl, rfl⟩
    rfl
  exact (hlexeme .plus _ _).or_else (hlexeme .minus _ _)

end Words

/-! ## Sums -/

section Grammar

variable {whole : List Token} {Nested : Phrase → Pair → Prop} {expression : Reader Phrase}
  {nested : Matcher}

/-- A word that is an operand leaves its pair. -/
theorem agrees_literal {wanted : Token → Option Phrase} {accepted : Lexeme → Bool} {name : Rule}
    (part : Expectation) (haccepted : ∀ next, accepted next.lexeme = (wanted next).isSome)
    (hshape : ∀ next phrase, wanted next = some phrase →
      Shape.Primary Nested phrase (.mk name next.span [])) :
    Agrees whole (Single (Shape.Primary Nested)) (Reader.expecting part (Reader.token wanted))
      (Matcher.word name accepted) :=
  ((Agrees.word haccepted name).expecting part).imp fun phrase _ ⟨next, _, hnext, hpairs⟩ =>
    ⟨_, hpairs, hshape next phrase hnext⟩

/-- An operand without a sign leaves its pair. -/
theorem agrees_primary
    (h : Agrees whole (Single fun phrase pair => Nested phrase pair ∧ pair.rule = .expr) expression
      nested) :
    Agrees whole (Single (Shape.Primary Nested)) (Phrase.primary expression)
      (Matcher.primary nested) := by
  have hgroup : Agrees whole (Single (Shape.Primary Nested)) (Phrase.parenthesized expression)
      (Matcher.seq (Matcher.symbol (· = .leftParen))
        (Matcher.seq nested (Matcher.symbol (· = .rightParen)))) := by
    refine ((Agrees.symbol .leftParen).bind fun leftParen => h.bind fun inner =>
      (Agrees.symbol .rightParen).map fun rightParen =>
        Phrase.group leftParen inner rightParen).imp ?_
    rintro _ _ ⟨leftParen, _, _, rfl, ⟨inner, _, _, ⟨pair, rfl, hpair, hrule⟩,
      ⟨rightParen, rfl, rfl⟩, rfl⟩, rfl⟩
    exact ⟨pair, rfl, .group leftParen rightParen hpair hrule⟩
  have hstring : Agrees whole (Single (Shape.Primary Nested))
      (do return Phrase.string (← Phrase.quotedString)) Matcher.stringLiteral := by
    refine (agrees_quoted_string.map Phrase.string).imp ?_
    rintro _ _ ⟨literal, rfl, rfl⟩
    exact ⟨_, rfl, .string literal⟩
  have hunclosed : Agrees whole (Single (Shape.Primary Nested))
      (do return Phrase.unclosedString (← Phrase.unclosed)) Matcher.unterminatedString := by
    refine (agrees_unclosed.map Phrase.unclosedString).imp ?_
    rintro _ _ ⟨span, rfl, rfl⟩
    exact ⟨_, rfl, .unclosedString span⟩
  have hfloat : Agrees whole (Single (Shape.Primary Nested)) Phrase.floatLiteral
      Matcher.floatLiteral := by
    refine agrees_literal _ (fun next => by cases next.lexeme <;> rfl) fun next phrase hnext => ?_
    split at hnext <;> cases hnext
    exact .float _ _
  have hinteger : Agrees whole (Single (Shape.Primary Nested)) Phrase.integerLiteral
      Matcher.integerLiteral := by
    refine agrees_literal _ (fun next => by cases next.lexeme <;> rfl) fun next phrase hnext => ?_
    split at hnext <;> cases hnext
    exact .integer _ _
  have hboolean : Agrees whole (Single (Shape.Primary Nested)) Phrase.booleanLiteral
      Matcher.booleanLiteral := by
    refine agrees_literal _ (fun next => by cases next.lexeme <;> rfl) fun next phrase hnext => ?_
    split at hnext <;> cases hnext
    exact .boolean _ _
  have hidentifier : Agrees whole (Single (Shape.Primary Nested)) Phrase.identifierWord
      Matcher.identifier := by
    refine agrees_literal _ (fun next => by cases next.lexeme <;> rfl) fun next phrase hnext => ?_
    split at hnext <;> cases hnext
    exact .identifier _ _
  exact hgroup.or_else <| hstring.or_else <| hunclosed.or_else <| hfloat.or_else <|
    hinteger.or_else <| hboolean.or_else hidentifier

/-- The pair of an operand without a sign is none of an operator. -/
theorem Shape.Primary.operators_eq_none {phrase : Phrase} {pair : Pair}
    (h : Shape.Primary Nested phrase pair) : Building.sumOperators pair.rule = none := by
  cases h with
  | group _ _ _ hrule => rw [hrule]; rfl
  | _ => rfl

/-- A phrase covers what its tokens do. -/
theorem coverage_of_spells {phrase : Phrase} {tokens : List Token} (h : Spells phrase tokens) :
    Matcher.coverage tokens = phrase.span := by
  rw [Matcher.coverage, h.start_eq, h.stop_eq]
  rfl

/-- An arithmetic operator leaves its pair, which joins operands as it is strong. -/
theorem agrees_arithmetic {strength : Nat} (op : Arithmetic)
    (hstrength : Building.sumOperators op.rule = some (.middle, strength)) (part : Expectation)
    (wanted : Lexeme) :
    Agrees whole
      (Single fun op => JoinsAt Building.sumOperators (Shape.SumTree Nested) strength
        (Phrase.arithmetic op))
      (do let _ ← Reader.expecting part (Reader.lexeme wanted); return op)
      (Matcher.word op.rule (· = wanted)) := by
  refine (((Agrees.lexeme wanted op.rule).expecting part).map fun _ => op).imp ?_
  rintro _ _ ⟨span, rfl, rfl⟩
  exact ⟨_, rfl, hstrength, fun hleft hright => .arithmetic _ span hleft hright⟩

/-- A sum leaves its pair, over the whole of it. -/
theorem agrees_sum
    (h : Agrees whole (Single fun phrase pair => Nested phrase pair ∧ pair.rule = .expr) expression
      nested)
    (hsound : Phrase.SoundAt .or expression) :
    Agrees whole (Single (Shape.Sum Nested)) (Phrase.sum expression) (Matcher.sum nested) := by
  have hsign : Agrees whole
      (Single fun op => FrontsWith Building.sumOperators (Shape.SumTree Nested)
        (fun operand => Phrase.signed op.1 op.2 operand)) Phrase.sign Matcher.unary := by
    refine agrees_sign.imp ?_
    rintro ⟨mark, sign⟩ _ rfl
    exact ⟨_, rfl, ⟨30, by cases sign <;> rfl⟩, fun htree => .signed mark sign htree⟩
  have hmultiplicative : Agrees whole
      (Single fun op => JoinsAt Building.sumOperators (Shape.SumTree Nested) 20
        (Phrase.arithmetic op))
      Phrase.multiplicative _ :=
    (agrees_arithmetic .multiply rfl _ .star).or_else (agrees_arithmetic .divide rfl _ .slash)
  have hadditive : Agrees whole
      (Single fun op => JoinsAt Building.sumOperators (Shape.SumTree Nested) 10
        (Phrase.arithmetic op))
      Phrase.additive _ :=
    (agrees_arithmetic .add rfl _ .plus).or_else (agrees_arithmetic .subtract rfl _ .minus)
  have hrow := agrees_operands hsign
    ((agrees_primary h).imp fun _ _ ⟨pair, hpairs, hpair⟩ =>
      ⟨pair, hpairs, hpair.operators_eq_none, .primary hpair⟩)
    hmultiplicative hadditive (by decide)
    (by
      intro tokens op rest hop
      obtain ⟨span, rfl, hkind⟩ := (Phrase.finds_multiplicative _ _ _).mp hop
      refine ⟨Nat.lt_succ_self _, (Phrase.misses_additive _ _).mpr ?_⟩
      cases op <;> cases hkind <;> exact ⟨nofun, nofun⟩)
    (by
      intro tokens op rest hop
      obtain ⟨span, rfl, -⟩ := (Phrase.finds_additive _ _ _).mp hop
      exact Nat.lt_succ_self _)
  rw [Matcher.choice_assoc] at hrow
  refine ((hrow.expecting .sum).rule .sum).imp ?_
  rintro phrase _ ⟨tokens, rest, _, hfinds, ⟨tree, htree, rfl⟩, -, rfl⟩
  obtain ⟨ts, hsplit, hspells, -⟩ := Phrase.sum_sound hsound _ _ _ hfinds
  obtain rfl := List.append_cancel_right hsplit
  exact ⟨_, rfl, tree, htree, by rw [coverage_of_spells hspells]⟩

/-! ## Tests -/

/-- No negation is an open string. -/
theorem Shape.Negation.rule_ne {negated : Bool} {pairs : List Pair}
    (h : Shape.Negation negated pairs) : ∀ pair ∈ pairs, pair.rule ≠ .unterminatedString := by
  cases h with
  | plain => exact nofun
  | negated span => exact List.forall_mem_singleton.mpr nofun

/-- A comparison leaves its pair, with one for its operator. -/
theorem agrees_comparison {sum : Reader Phrase} {row : Matcher} (operand : Phrase)
    (hsum : Agrees whole (Single (Shape.Sum Nested)) sum row) :
    Agrees whole (Single (Shape.Tail whole Nested operand)) (Phrase.comparisonTest sum operand)
      (Matcher.comparison row) := by
  have hoperator : Agrees whole
      (fun op pairs => ∃ place, ⟨.comparison op, place⟩ ∈ whole ∧
        pairs = [.mk .comparisonOp place []])
      Phrase.comparisonOperator Matcher.comparisonOp := by
    refine ((Agrees.word (fun next => ?_) .comparisonOp).expecting _).imp ?_
    · cases next.lexeme <;> rfl
    · rintro op _ ⟨next, hmem, hnext, rfl⟩
      split at hnext <;> cases hnext
      next heq => exact ⟨next.span, heq ▸ hmem, rfl⟩
  refine (((hoperator.bind fun op => hsum.map fun right =>
    Phrase.comparison op operand right).expecting _).rule .comparison).imp ?_
  rintro _ _ ⟨tokens, _, _, -, ⟨op, _, _, ⟨place, hplace, rfl⟩, ⟨right, ⟨pair, rfl, hpair⟩, rfl⟩,
    rfl⟩, -, rfl⟩
  exact ⟨_, rfl, .comparison _ hplace hpair⟩

/-- A range test leaves its pair, with one for each bound. -/
theorem agrees_between {sum : Reader Phrase} {row : Matcher} (operand : Phrase)
    (hsum : Agrees whole (Single (Shape.Sum Nested)) sum row) :
    Agrees whole (Single (Shape.Tail whole Nested operand)) (Phrase.betweenTest sum operand)
      (Matcher.between row) := by
  refine (((agrees_negation.bind fun negated => (agrees_keyword .between _ .betweenKw).bind fun _ =>
    hsum.bind fun low => (agrees_keyword .and _ .and).bind fun _ => hsum.map fun high =>
      Phrase.between operand low high negated).expecting _).rule .between).imp ?_
  rintro _ _ ⟨tokens, _, _, -, ⟨negated, ns, _, hns, ⟨word, _, _, rfl, ⟨low, _, _,
    ⟨lowPair, rfl, hlow⟩, ⟨joint, _, _, rfl, ⟨high, ⟨highPair, rfl, hhigh⟩, rfl⟩, rfl⟩, rfl⟩, rfl⟩,
    rfl⟩, -, rfl⟩
  exact ⟨_, rfl, .between _ word joint hns hlow hhigh⟩

/-- The last item of a list leaves its pair with the parenthesis behind it, and so does an open
string. -/
theorem agrees_list_end (operand : Phrase) (negated : Bool) (items : List QuotedString) :
    Agrees whole
    (fun phrase pairs =>
      (∃ unclosed, phrase = .cutShort operand unclosed ∧
        pairs = [.mk .unterminatedString unclosed []]) ∨
      ∃ item rightParen, phrase = .inList operand (items ++ [item]) rightParen negated ∧
        pairs = [item.pair])
    ((do return Phrase.cutShort operand (← Phrase.unclosed)) <|> (do
      let item ← Phrase.quotedString
      let rightParen ← Reader.lexeme .rightParen
      return .inList operand (items ++ [item]) rightParen negated))
    (Matcher.choice Matcher.unterminatedString
      (Matcher.seq Matcher.stringLiteral (Matcher.symbol (· = .rightParen)))) := by
  refine ((agrees_unclosed.map (Phrase.cutShort operand)).imp ?_).or_else
    ((agrees_quoted_string.bind fun item => (Agrees.symbol .rightParen).map fun rightParen =>
      Phrase.inList operand (items ++ [item]) rightParen negated).imp ?_)
  · rintro _ _ ⟨unclosed, rfl, rfl⟩
    exact .inl ⟨unclosed, rfl, rfl⟩
  · rintro _ _ ⟨item, _, _, rfl, ⟨rightParen, rfl, rfl⟩, rfl⟩
    exact .inr ⟨item, rightParen, rfl, rfl⟩

/-- A list test leaves its pair, with one for each string. -/
theorem agrees_in_list (operand : Phrase) :
    Agrees whole (Single (Shape.Tail whole Nested operand)) (Phrase.inTest operand)
      Matcher.inList := by
  have hitem : Agrees whole (fun literal pairs => pairs = [QuotedString.pair literal])
      Phrase.itemBeforeComma (Matcher.seq Matcher.stringLiteral (Matcher.symbol (· = .comma))) := by
    refine (agrees_quoted_string.bind fun item => (Agrees.symbol .comma).map fun _ => item).imp ?_
    rintro _ _ ⟨item, _, _, rfl, ⟨_, rfl, rfl⟩, rfl⟩
    rfl
  refine (((agrees_negation.bind fun negated => (agrees_keyword .inside _ .inKw).bind fun _ =>
    (Agrees.symbol .leftParen).bind fun _ => hitem.many.bind fun items =>
      agrees_list_end operand negated items).expecting _).rule .inList).imp ?_
  rintro _ _ ⟨tokens, _, _, -, ⟨negated, ns, _, hns, ⟨word, _, _, rfl, ⟨_, _, _, rfl, ⟨items, _, _,
    rfl, hlast, rfl⟩, rfl⟩, rfl⟩, rfl⟩, -, rfl⟩
  rw [← List.map_eq_flatMap]
  obtain ⟨unclosed, rfl, rfl⟩ | ⟨item, rightParen, rfl, rfl⟩ := hlast
  · have hopening : ∀ pair ∈ ns ++ .mk .inKw word [] :: items.map QuotedString.pair,
        pair.rule ≠ .unterminatedString := by
      refine List.forall_mem_append.mpr ⟨hns.rule_ne, List.forall_mem_cons.mpr ⟨nofun, ?_⟩⟩
      rintro _ hmem
      obtain ⟨item, -, rfl⟩ := List.mem_map.mp hmem
      exact nofun
    have htail : Shape.Tail whole Nested operand _ _ :=
      .cutShort .inList (Matcher.coverage tokens) unclosed hopening
    rw [List.append_assoc] at htail
    exact ⟨_, rfl, htail⟩
  · refine ⟨_, rfl, ?_⟩
    have htail : Shape.Tail whole Nested operand _ _ :=
      .inList (Matcher.coverage tokens) word (items ++ [item]) rightParen hns
    rw [List.map_append] at htail
    exact htail

/-- The string of an escape clause leaves its pair, whether it is closed or open. -/
theorem agrees_escape_clause :
    Agrees whole
      (fun clause pairs => ∃ word,
        (∃ unclosed, clause = .inl unclosed ∧
          pairs = [.mk .escapeKw word [], .mk .unterminatedString unclosed []]) ∨
        ∃ literal, clause = .inr literal ∧ pairs = [.mk .escapeKw word [], literal.pair])
      Phrase.escapeClause
      (Matcher.seq (Matcher.keyword .escapeKw .escape)
        (Matcher.choice Matcher.unterminatedString Matcher.stringLiteral)) := by
  have hstring : Agrees whole
      (fun (clause : Span ⊕ QuotedString) pairs =>
        (∃ unclosed, clause = .inl unclosed ∧ pairs = [.mk .unterminatedString unclosed []]) ∨
          ∃ literal, clause = .inr literal ∧ pairs = [literal.pair])
      ((do return .inl (← Phrase.unclosed)) <|> (do return .inr (← Phrase.quotedString)))
      (Matcher.choice Matcher.unterminatedString Matcher.stringLiteral) := by
    refine ((agrees_unclosed.map Sum.inl).imp ?_).or_else
      ((agrees_quoted_string.map Sum.inr).imp ?_)
    · rintro _ _ ⟨unclosed, rfl, rfl⟩
      exact .inl ⟨unclosed, rfl, rfl⟩
    · rintro _ _ ⟨literal, rfl, rfl⟩
      exact .inr ⟨literal, rfl, rfl⟩
  refine ((agrees_keyword .escape _ .escapeKw).bind fun _ => hstring).imp ?_
  rintro _ _ ⟨word, _, _, rfl, ⟨unclosed, rfl, rfl⟩ | ⟨literal, rfl, rfl⟩, rfl⟩
  · exact ⟨word, .inl ⟨unclosed, rfl, rfl⟩⟩
  · exact ⟨word, .inr ⟨literal, rfl, rfl⟩⟩

/-- What a pattern with its escape clause makes of an operand. -/
def likeOutcome (operand : Phrase) (negated : Bool) (pattern : QuotedString) :
    Option (Span ⊕ QuotedString) → Phrase
  | none => .like operand pattern none negated
  | some (.inl unclosed) => .cutShort operand unclosed
  | some (.inr escape) => .like operand pattern (some escape) negated

/-- A pattern with its escape clause leaves the pairs of both, and what is open the last one. -/
theorem agrees_pattern (operand : Phrase) (negated : Bool) :
    Agrees whole
    (fun (phrase : Phrase) pairs =>
      (∃ opening unclosed, phrase = .cutShort operand unclosed ∧
        (∀ pair ∈ opening, pair.rule ≠ .unterminatedString) ∧
        pairs = opening ++ [.mk .unterminatedString unclosed []]) ∨
      ∃ pattern escape more, phrase = .like operand pattern escape negated ∧
        Shape.Escape escape more ∧ pairs = pattern.pair :: more)
    ((do return Phrase.cutShort operand (← Phrase.unclosed)) <|> (do
      let pattern ← Phrase.quotedString
      match ← Reader.optional Phrase.escapeClause with
      | none => return .like operand pattern none negated
      | some (.inl unclosed) => return .cutShort operand unclosed
      | some (.inr escape) => return .like operand pattern (some escape) negated))
    (Matcher.choice Matcher.unterminatedString <| Matcher.seq Matcher.stringLiteral <|
      Matcher.optional (Matcher.seq (Matcher.keyword .escapeKw .escape)
        (Matcher.choice Matcher.unterminatedString Matcher.stringLiteral))) := by
  refine ((agrees_unclosed.map (Phrase.cutShort operand)).imp ?_).or_else
    ((agrees_quoted_string.bind fun pattern => agrees_escape_clause.optional.map_of_eq
      (likeOutcome operand negated pattern) (by rintro (_ | _ | _) <;> rfl)).imp ?_)
  · rintro _ _ ⟨unclosed, rfl, rfl⟩
    exact .inl ⟨[], unclosed, rfl, nofun, rfl⟩
  · rintro _ _ ⟨pattern, _, _, rfl, ⟨_, ⟨clause, rfl, word, ⟨unclosed, rfl, rfl⟩ |
      ⟨literal, rfl, rfl⟩⟩ | ⟨rfl, rfl⟩, rfl⟩, rfl⟩
    · refine .inl ⟨[pattern.pair, .mk .escapeKw word []], unclosed, rfl, ?_, rfl⟩
      simp [QuotedString.pair]
    · exact .inr ⟨pattern, some literal, _, rfl, .present word literal, rfl⟩
    · exact .inr ⟨pattern, none, _, rfl, .absent, rfl⟩

/-- A pattern test leaves its pair, with one for each string. -/
theorem agrees_like (operand : Phrase) :
    Agrees whole (Single (Shape.Tail whole Nested operand)) (Phrase.likeTest operand)
      Matcher.like := by
  refine (((agrees_negation.bind fun negated => (agrees_keyword .like _ .likeKw).bind fun _ =>
    agrees_pattern operand negated).expecting _).rule .like).imp ?_
  rintro _ _ ⟨tokens, _, _, -, ⟨negated, ns, _, hns, ⟨word, _, _, rfl, hlast, rfl⟩, rfl⟩, -, rfl⟩
  obtain ⟨opening, unclosed, rfl, hopening, rfl⟩ | ⟨pattern, escape, more, rfl, hescape, rfl⟩ :=
    hlast
  · have hclosed : ∀ pair ∈ ns ++ .mk .likeKw word [] :: opening,
        pair.rule ≠ .unterminatedString :=
      List.forall_mem_append.mpr ⟨hns.rule_ne, List.forall_mem_cons.mpr ⟨nofun, hopening⟩⟩
    have htail : Shape.Tail whole Nested operand _ _ :=
      .cutShort .like (Matcher.coverage tokens) unclosed hclosed
    rw [List.append_assoc] at htail
    exact ⟨_, rfl, htail⟩
  · exact ⟨_, rfl, .like _ word pattern hns hescape⟩

/-- A presence test leaves its pair. -/
theorem agrees_is_null (operand : Phrase) :
    Agrees whole (Single (Shape.Tail whole Nested operand)) (Phrase.nullTest operand)
      Matcher.isNull := by
  refine (((agrees_keyword .is _ .isKw).bind fun _ => agrees_negation.bind fun negated =>
    (agrees_keyword .null _ .nullKw).map fun nullKeyword =>
      Phrase.isNull operand nullKeyword negated).expecting _).rule .isNull |>.imp ?_
  rintro _ _ ⟨tokens, _, _, -, ⟨word, _, _, rfl, ⟨negated, ns, _, hns, ⟨nullKeyword, rfl, rfl⟩,
    rfl⟩, rfl⟩, -, rfl⟩
  exact ⟨_, rfl, .isNull _ word nullKeyword hns⟩

/-! ## Conditions and connectives -/

/-- A condition leaves its pair, around those of its sum and its test. -/
theorem agrees_condition
    (h : Agrees whole (Single fun phrase pair => Nested phrase pair ∧ pair.rule = .expr) expression
      nested)
    (hsound : Phrase.SoundAt .or expression) :
    Agrees whole (Single (Shape.Condition whole Nested)) (Phrase.condition expression)
      (Matcher.condition nested) := by
  have hsum := agrees_sum h hsound
  have htest (operand : Phrase) : Agrees whole
      (fun phrase pairs => Single (Shape.Tail whole Nested operand) phrase pairs ∨
        phrase = operand ∧ pairs = [])
      (Phrase.comparisonTest (Phrase.sum expression) operand <|>
        Phrase.betweenTest (Phrase.sum expression) operand <|>
        Phrase.inTest operand <|> Phrase.likeTest operand <|> Phrase.nullTest operand <|>
        return operand)
      (Matcher.optional <| Matcher.choice (Matcher.comparison (Matcher.sum nested)) <|
        Matcher.choice (Matcher.between (Matcher.sum nested)) <|
        Matcher.choice Matcher.inList <| Matcher.choice Matcher.like Matcher.isNull) := by
    have hor {reader : Reader Phrase} {matcher : Matcher}
        (h : Agrees whole (Single (Shape.Tail whole Nested operand)) reader matcher) :
        Agrees whole (fun phrase pairs => Single (Shape.Tail whole Nested operand) phrase pairs ∨
          phrase = operand ∧ pairs = []) reader matcher :=
      h.imp fun _ _ => .inl
    rw [Matcher.optional, Matcher.choice_assoc, Matcher.choice_assoc, Matcher.choice_assoc,
      Matcher.choice_assoc]
    exact (hor (agrees_comparison operand hsum)).or_else <|
      (hor (agrees_between operand hsum)).or_else <| (hor (agrees_in_list operand)).or_else <|
      (hor (agrees_like operand)).or_else <| (hor (agrees_is_null operand)).or_else <|
      (Agrees.pure operand).imp fun _ _ => .inr
  refine (((hsum.bind htest).expecting _).rule .condition).imp ?_
  rintro phrase _ ⟨tokens, _, _, -, ⟨operand, _, _, ⟨pair, rfl, hpair⟩,
    ⟨tail, rfl, htail⟩ | ⟨rfl, rfl⟩, rfl⟩, -, rfl⟩
  · exact ⟨_, rfl, .tested _ hpair htail⟩
  · exact ⟨_, rfl, .sum _ hpair⟩

/-- An expression leaves its pair, around those of its conditions and connectives. -/
theorem agrees_disjunction
    (h : Agrees whole (Single fun phrase pair => Nested phrase pair ∧ pair.rule = .expr) expression
      nested)
    (hsound : Phrase.SoundAt .or expression) :
    Agrees whole
      (fun phrase pairs => ∃ tree,
        TreeOf Building.exprOperators (Shape.ExprTree whole Nested) 10 phrase tree ∧
          pairs = tree.flat)
      (Phrase.disjunction expression)
      (Matcher.operands (Matcher.keyword .neg .not) Matcher.connective
        (Matcher.condition nested)) := by
  have hnot : Agrees whole
      (Single fun word => FrontsWith Building.exprOperators (Shape.ExprTree whole Nested)
        (Phrase.not word)) (Phrase.keyword .not .negation) (Matcher.keyword .neg .not) :=
    (agrees_keyword .not _ .neg).imp fun word _ hpairs =>
      ⟨_, hpairs, ⟨30, rfl⟩, fun htree => .not word htree⟩
  have hand : Agrees whole
      (Single fun (_ : Span) => JoinsAt Building.exprOperators (Shape.ExprTree whole Nested) 20
        Phrase.and) (Phrase.keyword .and .and) (Matcher.keyword .and .and) :=
    (agrees_keyword .and _ .and).imp fun word _ hpairs =>
      ⟨_, hpairs, rfl, fun hleft hright => .and word hleft hright⟩
  have hor : Agrees whole
      (Single fun (_ : Span) => JoinsAt Building.exprOperators (Shape.ExprTree whole Nested) 10
        Phrase.or) (Phrase.keyword .or .or) (Matcher.keyword .or .or) :=
    (agrees_keyword .or _ .or).imp fun word _ hpairs =>
      ⟨_, hpairs, rfl, fun hleft hright => .or word hleft hright⟩
  refine agrees_operands hnot ((agrees_condition h hsound).imp ?_) hand hor (by decide) ?_ ?_
  · rintro phrase _ ⟨pair, rfl, hpair⟩
    refine ⟨pair, rfl, ?_, .condition hpair⟩
    cases hpair <;> rfl
  · intro tokens word rest hword
    obtain rfl := (Phrase.finds_keyword _ _ _ _ _).mp hword
    exact ⟨Nat.lt_succ_self _, (Phrase.misses_keyword _ _ _ _).mpr nofun⟩
  · intro tokens word rest hword
    obtain rfl := (Phrase.finds_keyword _ _ _ _ _).mp hword
    exact Nat.lt_succ_self _

end Grammar

/-! ## Whole texts -/

/-- An expression leaves its pair, however long the clock. -/
theorem agrees_expression (whole clock : List Token) :
    Agrees whole
      (Single fun phrase pair => Shape.Within whole clock phrase pair ∧ pair.rule = .expr)
      (Phrase.expressionWithin clock) (Matcher.exprWithin clock) := by
  induction clock with
  | nil => exact fun tokens _ => ⟨fun _ => rfl, nofun⟩
  | cons _ clock ih =>
      refine (((agrees_disjunction ih (Phrase.expression_sound clock)).expecting .expression).rule
        .expr).imp ?_
      rintro phrase _ ⟨tokens, _, _, -, ⟨tree, htree, rfl⟩, -, rfl⟩
      exact ⟨_, rfl, ⟨tree, _, htree, rfl⟩, rfl⟩

/-- The pairs inside the pair of a whole text. -/
inductive Shape.Program (whole : List Token) : Option Phrase → List Pair → Prop where
  | nothing (stop) : Program whole none [.mk .endOfText stop []]
  | expr (stop) {clock phrase pair} :
      clock.length ≤ whole.length → Shape.Within whole clock phrase pair → pair.rule = .expr →
      Program whole (some phrase) [pair, .mk .endOfText stop []]

/-- A whole text leaves one pair, around that of its expression if it has one. -/
theorem agrees_selector (whole : List Token) :
    Agrees whole (Single fun found pair => Shape.Program whole found pair.inner) Phrase.selector
      Matcher.program := by
  have hexpression : Agrees whole
      (Single fun phrase pair => (∃ clock : List Token, clock.length ≤ whole.length ∧
        Shape.Within whole clock phrase pair) ∧ pair.rule = .expr)
      Phrase.expression Matcher.expr := by
    intro tokens htokens
    refine ((agrees_expression whole tokens).imp ?_) tokens htokens
    rintro phrase _ ⟨pair, rfl, hpair, hrule⟩
    exact ⟨pair, rfl, ⟨tokens, htokens.length_le, hpair⟩, hrule⟩
  have hend : Agrees whole _ _ _ := (Agrees.lexeme .endOfText .endOfText).expecting .endOfText
  refine ((hexpression.optional.bind fun found => hend.map fun _ => found).rule .program).imp ?_
  rintro _ _ ⟨tokens, _, _, -, ⟨_, _, _, ⟨phrase, rfl, pair, rfl, ⟨clock, hclock, hpair⟩, hrule⟩ |
    ⟨rfl, rfl⟩, ⟨stop, rfl, rfl⟩, rfl⟩, -, rfl⟩
  · exact ⟨_, rfl, .expr stop hclock hpair hrule⟩
  · exact ⟨_, rfl, .nothing stop⟩

end MessageSelector
