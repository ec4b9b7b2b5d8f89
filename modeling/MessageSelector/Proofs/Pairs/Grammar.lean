import MessageSelector.Token

/-!
# The grammar in pairs

A text is matched by rules, and a rule that is not silent leaves a pair: its name, the stretch of
text it matched, and the pairs that were left inside it. Nothing in a pair says how many pairs there
are inside it, or of which rules. That is decided here, rule by rule: a sequence leaves the pairs of
its parts one after another, a choice those of its first part that matches, and a symbol none.

The rules match tokens, so the span of a rule ends with its last token, without the blanks behind.
-/

namespace MessageSelector

/-- The rules that leave pairs. -/
inductive Rule where
  | program
  | endOfText
  | expr
  | or
  | and
  | neg
  | condition
  | comparison
  | comparisonOp
  | between
  | inList
  | like
  | isNull
  | sum
  | add
  | subtract
  | multiply
  | divide
  | plus
  | minus
  | stringLiteral
  | stringInner
  | unterminatedString
  | floatLiteral
  | integerLiteral
  | booleanLiteral
  | identifier
  | notKw
  | betweenKw
  | inKw
  | likeKw
  | escapeKw
  | isKw
  | nullKw
  deriving DecidableEq, Repr

/-- The name of a rule in the grammar. -/
def Rule.name : Rule → String
  | program => "program"
  | endOfText => "EOI"
  | expr => "expr"
  | or => "or"
  | and => "and"
  | neg => "neg"
  | condition => "condition"
  | comparison => "comparison"
  | comparisonOp => "comparison_op"
  | between => "between"
  | inList => "in_list"
  | like => "like"
  | isNull => "is_null"
  | sum => "sum"
  | add => "add"
  | subtract => "subtract"
  | multiply => "multiply"
  | divide => "divide"
  | plus => "plus"
  | minus => "minus"
  | stringLiteral => "string_literal"
  | stringInner => "string_inner"
  | unterminatedString => "unterminated_string"
  | floatLiteral => "float_literal"
  | integerLiteral => "integer_literal"
  | booleanLiteral => "boolean_literal"
  | identifier => "identifier"
  | notKw => "not_kw"
  | betweenKw => "between_kw"
  | inKw => "in_kw"
  | likeKw => "like_kw"
  | escapeKw => "escape_kw"
  | isKw => "is_kw"
  | nullKw => "null_kw"

/-- A rule with the stretch of text it matched, and the pairs left inside it. -/
inductive Pair where
  | mk (rule : Rule) (span : Span) (inner : List Pair)

namespace Pair

/-- The rule of a pair. -/
def rule : Pair → Rule
  | mk rule _ _ => rule

/-- The stretch of text that the rule matched. -/
def span : Pair → Span
  | mk _ span _ => span

/-- The pairs inside a pair, in the order of the text. -/
def inner : Pair → List Pair
  | mk _ _ inner => inner

@[simp] theorem rule_mk (rule : Rule) (span : Span) (inner : List Pair) :
    (mk rule span inner).rule = rule :=
  rfl

@[simp] theorem span_mk (rule : Rule) (span : Span) (inner : List Pair) :
    (mk rule span inner).span = span :=
  rfl

@[simp] theorem inner_mk (rule : Rule) (span : Span) (inner : List Pair) :
    (mk rule span inner).inner = inner :=
  rfl

end Pair

/-- Matches the front of the tokens, and leaves pairs and the tokens behind. -/
def Matcher := List Token → Option (List Pair × List Token)

namespace Matcher

/-- Nothing at all. -/
def nothing : Matcher :=
  fun tokens => some ([], tokens)

/-- One part and then another. -/
def seq (first second : Matcher) : Matcher :=
  fun tokens =>
    match first tokens with
    | none => none
    | some (pairs, mid) => (second mid).map fun (more, rest) => (pairs ++ more, rest)

/-- One part or, where it does not match, another. -/
def choice (first second : Matcher) : Matcher :=
  fun tokens =>
    match first tokens with
    | some found => some found
    | none => second tokens

/-- A part, if it matches. -/
def optional (part : Matcher) : Matcher :=
  choice part nothing

/-- A part as often as it matches. Every time takes at least one of the tokens, so the tokens at
hand bound their number. -/
def manyFrom (part : Matcher) : (clock : List Token) → Matcher
  | [], tokens => some ([], tokens)
  | _ :: clock, tokens =>
    match part tokens with
    | none => some ([], tokens)
    | some (pairs, mid) =>
      (manyFrom part clock mid).map fun (more, rest) => (pairs ++ more, rest)

/-- A part as often as it matches. -/
def many (part : Matcher) : Matcher :=
  fun tokens => manyFrom part tokens tokens

/-- A token, which leaves pairs of its own. -/
def token (wanted : Token → Option (List Pair)) : Matcher
  | next :: rest => (wanted next).map (·, rest)
  | [] => none

/-- A symbol, which leaves no pair. -/
def symbol (wanted : Lexeme → Bool) : Matcher :=
  token fun next => if wanted next.lexeme then some [] else none

/-- The stretch of text that tokens cover, from the first to the last. -/
def coverage (tokens : List Token) : Span :=
  .between ((tokens.head?.map (·.span.start)).getD 0) ((tokens.getLast?.map (·.span.stop)).getD 0)

/-- A rule that leaves a pair. -/
def rule (name : Rule) (part : Matcher) : Matcher :=
  fun tokens =>
    (part tokens).map fun (inner, rest) =>
      ([.mk name (coverage (tokens.take (tokens.length - rest.length))) inner], rest)

/-- A rule of a single token. -/
def word (name : Rule) (wanted : Lexeme → Bool) : Matcher :=
  rule name (symbol wanted)

/-- A keyword. -/
def keyword (name : Rule) (keyword : Keyword) : Matcher :=
  word name (· = .keyword keyword)

/-! ## Literals -/

/-- What stands between the quotes of a string literal. -/
def quoted : Matcher :=
  token fun next =>
    match next.lexeme with
    | .string _ => some [.mk .stringInner ⟨next.span.start + 1, next.span.length - 2⟩ []]
    | _ => none

/-- A string literal, with a pair for what stands between its quotes. -/
def stringLiteral : Matcher :=
  rule .stringLiteral quoted

/-- A string literal that is not closed. -/
def unterminatedString : Matcher :=
  word .unterminatedString (· = .unclosedString)

/-- A floating-point literal. -/
def floatLiteral : Matcher :=
  word .floatLiteral fun
    | .float _ => true
    | _ => false

/-- An integer literal. -/
def integerLiteral : Matcher :=
  word .integerLiteral fun
    | .integer _ => true
    | _ => false

/-- A boolean literal. -/
def booleanLiteral : Matcher :=
  word .booleanLiteral fun
    | .boolean _ => true
    | _ => false

/-- An identifier. -/
def identifier : Matcher :=
  word .identifier fun
    | .identifier _ => true
    | _ => false

/-! ## Sums -/

/-- Operands under operators in front of them, with operators between them. -/
def operands (front between operand : Matcher) : Matcher :=
  let signed := seq (many front) operand
  seq signed (many (seq between signed))

/-- An operand without a sign. -/
def primary (expr : Matcher) : Matcher :=
  choice (seq (symbol (· = .leftParen)) (seq expr (symbol (· = .rightParen)))) <|
  choice stringLiteral <|
  choice unterminatedString <|
  choice floatLiteral <|
  choice integerLiteral <|
  choice booleanLiteral identifier

/-- A sign. -/
def unary : Matcher :=
  choice (word .plus (· = .plus)) (word .minus (· = .minus))

/-- An arithmetic operator. -/
def arithmetic : Matcher :=
  choice (word .add (· = .plus)) <|
  choice (word .subtract (· = .minus)) <|
  choice (word .multiply (· = .star)) (word .divide (· = .slash))

/-- A sum. -/
def sum (expr : Matcher) : Matcher :=
  rule .sum (operands unary arithmetic (primary expr))

/-! ## Conditions -/

/-- The negation of a test, if there is one. -/
def negation : Matcher :=
  optional (keyword .notKw .not)

/-- The symbol of a comparison. -/
def comparisonOp : Matcher :=
  word .comparisonOp fun
    | .comparison _ => true
    | _ => false

/-- A comparison with a sum. -/
def comparison (sum : Matcher) : Matcher :=
  rule .comparison (seq comparisonOp sum)

/-- A range test. -/
def between (sum : Matcher) : Matcher :=
  rule .between <|
    seq negation <| seq (keyword .betweenKw .between) <| seq sum <| seq (keyword .and .and) sum

/-- A list test, in which a string may be unclosed. -/
def inList : Matcher :=
  rule .inList <|
    seq negation <| seq (keyword .inKw .inside) <| seq (symbol (· = .leftParen)) <|
    seq (many (seq stringLiteral (symbol (· = .comma)))) <|
    choice unterminatedString (seq stringLiteral (symbol (· = .rightParen)))

/-- A pattern test, in which a string may be unclosed. -/
def like : Matcher :=
  rule .like <|
    seq negation <| seq (keyword .likeKw .like) <|
    choice unterminatedString <| seq stringLiteral <|
    optional (seq (keyword .escapeKw .escape) (choice unterminatedString stringLiteral))

/-- A presence test. -/
def isNull : Matcher :=
  rule .isNull <| seq (keyword .isKw .is) <| seq negation (keyword .nullKw .null)

/-- A sum and at most one test of it. -/
def condition (expr : Matcher) : Matcher :=
  rule .condition <|
    seq (sum expr) <| optional <|
      choice (comparison (sum expr)) <| choice (between (sum expr)) <|
      choice inList <| choice like isNull

/-! ## Connectives -/

/-- A connective. -/
def connective : Matcher :=
  choice (keyword .or .or) (keyword .and .and)

/-- An expression in which parentheses nest no deeper than the clock has tokens. -/
def exprWithin : (clock : List Token) → Matcher
  | [], _ => none
  | _ :: clock, tokens =>
    rule .expr (operands (keyword .neg .not) connective (condition (exprWithin clock))) tokens

/-- An expression. -/
def expr : Matcher :=
  fun tokens => exprWithin tokens tokens

/-- A whole text: an expression or nothing, and then its end. -/
def program : Matcher :=
  rule .program <| seq (optional expr) (word .endOfText (· = .endOfText))

end Matcher

end MessageSelector
