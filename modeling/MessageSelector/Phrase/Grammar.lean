import MessageSelector.Phrase
import MessageSelector.Reader

/-!
# The grammar

From the loosest to the tightest, a selector is made of OR, AND, NOT, conditions, sums, products,
signs and primaries. A condition is a sum with at most one test after it, and the tests do not
chain. Binary operators group to the left. A primary is a literal, an identifier, or an expression
in parentheses.

The readers are parametrised by the reader of the expression inside parentheses, which
`expressionWithin` closes off.
-/

namespace MessageSelector.Phrase

open Reader

/-! ## Words, signs and literals -/

/-- A keyword, reported under a name. -/
def keyword (word : Keyword) (part : Expectation) : Reader Span :=
  expecting part (lexeme (.keyword word))

/-- Whether a test begins with `NOT`. -/
def negation : Reader Bool := do
  let word ← optional (keyword .not .notKeyword)
  return word.isSome

/-- A closed string literal. -/
def quotedString : Reader QuotedString :=
  expecting .string <| token fun next =>
    match next.lexeme with
    | .string contents => some ⟨next.span, contents⟩
    | _ => none

/-- A string literal that is not closed. -/
def unclosed : Reader Span :=
  expecting .unclosedString (lexeme .unclosedString)

/-- A floating-point literal. -/
def floatLiteral : Reader Phrase :=
  expecting .float <| token fun next =>
    match next.lexeme with
    | .float literal => some (.float next.span literal)
    | _ => none

/-- An integer literal. -/
def integerLiteral : Reader Phrase :=
  expecting .integer <| token fun next =>
    match next.lexeme with
    | .integer literal => some (.integer next.span literal)
    | _ => none

/-- A boolean literal. -/
def booleanLiteral : Reader Phrase :=
  expecting .boolean <| token fun next =>
    match next.lexeme with
    | .boolean flag => some (.boolean next.span flag)
    | _ => none

/-- An identifier. -/
def identifierWord : Reader Phrase :=
  expecting .identifier <| token fun next =>
    match next.lexeme with
    | .identifier name => some (.identifier next.span name)
    | _ => none

/-- A sign in front of an operand. -/
def sign : Reader (Span × Sign) :=
  (do return (← expecting .plus (lexeme .plus), .plus)) <|>
  (do return (← expecting .minus (lexeme .minus), .minus))

/-- An operator between the operands of a sum. -/
def additive : Reader Arithmetic :=
  (do let _ ← expecting .add (lexeme .plus); return .add) <|>
  (do let _ ← expecting .subtract (lexeme .minus); return .subtract)

/-- An operator between the operands of a product. -/
def multiplicative : Reader Arithmetic :=
  (do let _ ← expecting .multiply (lexeme .star); return .multiply) <|>
  (do let _ ← expecting .divide (lexeme .slash); return .divide)

/-- An operator between the operands of a comparison. -/
def comparisonOperator : Reader Comparison :=
  expecting .comparisonOperator <| token fun next =>
    match next.lexeme with
    | .comparison op => some op
    | _ => none

/-! ## Sums -/

/-- An expression in parentheses. -/
def parenthesized (expression : Reader Phrase) : Reader Phrase := do
  let leftParen ← lexeme .leftParen
  let inner ← expression
  let rightParen ← lexeme .rightParen
  return .group leftParen inner rightParen

/-- An operand without a sign. -/
def primary (expression : Reader Phrase) : Reader Phrase :=
  parenthesized expression <|>
  (do return .string (← quotedString)) <|>
  (do return .unclosedString (← unclosed)) <|>
  floatLiteral <|>
  integerLiteral <|>
  booleanLiteral <|>
  identifierWord

/-- An operand under its signs. -/
def signedPrimary (expression : Reader Phrase) : Reader Phrase :=
  prefixed sign (primary expression) fun (mark, sign) operand => .signed mark sign operand

/-- A product of signed operands. -/
def product (expression : Reader Phrase) : Reader Phrase :=
  chain multiplicative (signedPrimary expression) .arithmetic

/-- A sum of products. -/
def sum (expression : Reader Phrase) : Reader Phrase :=
  expecting .sum (chain additive (product expression) .arithmetic)

/-! ## Conditions -/

/-- A comparison of an operand with another sum. -/
def comparisonTest (sum : Reader Phrase) (operand : Phrase) : Reader Phrase :=
  expecting .comparison do
    let op ← comparisonOperator
    let right ← sum
    return .comparison op operand right

/-- A range test of an operand. -/
def betweenTest (sum : Reader Phrase) (operand : Phrase) : Reader Phrase :=
  expecting .between do
    let negated ← negation
    let _ ← keyword .between .betweenKeyword
    let low ← sum
    let _ ← keyword .and .and
    let high ← sum
    return .between operand low high negated

/-- An item of a list with the comma after it. -/
def itemBeforeComma : Reader QuotedString := do
  let item ← quotedString
  let _ ← lexeme .comma
  return item

/-- A list test of an operand. -/
def inTest (operand : Phrase) : Reader Phrase :=
  expecting .inList do
    let negated ← negation
    let _ ← keyword .inside .inKeyword
    let _ ← lexeme .leftParen
    let items ← many itemBeforeComma
    (do return .cutShort operand (← unclosed)) <|> (do
      let item ← quotedString
      let rightParen ← lexeme .rightParen
      return .inList operand (items ++ [item]) rightParen negated)

/-- The escape character of a pattern test, as a string literal that may be unclosed. -/
def escapeClause : Reader (Span ⊕ QuotedString) := do
  let _ ← keyword .escape .escapeKeyword
  (do return .inl (← unclosed)) <|> (do return .inr (← quotedString))

/-- A pattern test of an operand. -/
def likeTest (operand : Phrase) : Reader Phrase :=
  expecting .like do
    let negated ← negation
    let _ ← keyword .like .likeKeyword
    (do return .cutShort operand (← unclosed)) <|> (do
      let pattern ← quotedString
      match ← optional escapeClause with
      | none => return .like operand pattern none negated
      | some (.inl span) => return .cutShort operand span
      | some (.inr escape) => return .like operand pattern (some escape) negated)

/-- A presence test of an operand. -/
def nullTest (operand : Phrase) : Reader Phrase :=
  expecting .isNull do
    let _ ← keyword .is .isKeyword
    let negated ← negation
    let nullKeyword ← keyword .null .nullKeyword
    return .isNull operand nullKeyword negated

/-- A sum with the test that follows it, if one does. -/
def condition (expression : Reader Phrase) : Reader Phrase :=
  expecting .condition do
    let operand ← sum expression
    comparisonTest (sum expression) operand <|>
      betweenTest (sum expression) operand <|>
      inTest operand <|>
      likeTest operand <|>
      nullTest operand <|>
      return operand

/-! ## Connectives -/

/-- A condition under its NOTs. -/
def negatedCondition (expression : Reader Phrase) : Reader Phrase :=
  prefixed (keyword .not .negation) (condition expression) .not

/-- Conditions joined by AND. -/
def conjunction (expression : Reader Phrase) : Reader Phrase :=
  chain (keyword .and .and) (negatedCondition expression) fun _ left right => .and left right

/-- Conjunctions joined by OR. -/
def disjunction (expression : Reader Phrase) : Reader Phrase :=
  chain (keyword .or .or) (conjunction expression) fun _ left right => .or left right

/-- An expression in which parentheses nest no deeper than the clock has tokens. Every parenthesis
is a token, so the tokens at hand are clock enough. -/
def expressionWithin (clock tokens : List Token) : Reading Phrase :=
  match clock with
  | [] => ⟨.start, none⟩
  | _ :: clock => expecting .expression (disjunction (expressionWithin clock)) tokens

/-- An expression. -/
def expression : Reader Phrase :=
  fun tokens => expressionWithin tokens tokens

/-- A whole selector: an expression or nothing, and then the end of the text. -/
def selector : Reader (Option Phrase) := do
  let phrase ← optional expression
  let _ ← expecting .endOfText (lexeme .endOfText)
  return phrase

/-- The phrase that the tokens of a text make up, if there are any, or what was asked for in vain.
The selector as a whole begins at the first byte, before any layout. -/
def ofTokens (tokens : List Token) : Except Furthest (Option Phrase) :=
  let reading := selector tokens
  match reading.found with
  | some (phrase, _) => .ok phrase
  | none => .error (reading.furthest.notFound .selector 0)

end MessageSelector.Phrase
