import Mathlib.Algebra.Group.Nat.Defs
import MessageSelector.Expr.Parsing
import MessageSelector.Proofs.Pairs.Climbing

/-!
# From pairs to expressions

The pairs of a selector text are made into its expression. Pairs come without a promise of how many
there are or of which rules, so what is taken from them may be missing or wrong. Most such gaps are
answered with an internal error, and precedence climbing gives up on the others. A pair knows its
place, and what is written there is read from the text.
-/

namespace MessageSelector

/-- What is answered instead of an expression. -/
inductive Refusal where
  /-- The text is no selector. -/
  | fault (fault : Fault)
  /-- The pairs are not as the grammar leaves them. -/
  | internal (message : String)
  deriving DecidableEq, Repr

/-- The byte at which a label begins. An internal error has none. -/
def Refusal.offset? (text : String) : Refusal → Option Nat
  | .fault found => some (Rejection.span ⟨text, found⟩).start
  | .internal _ => none

/-- Making something of pairs, which may be refused, and may panic. -/
abbrev Build := ExceptT Refusal (Except Panic)

namespace Build

variable {α : Type}

/-- What is made without a panic. -/
def settled (outcome : Except Refusal α) : Build α :=
  ExceptT.mk (.ok outcome)

/-- A text is refused for a fault. -/
def refuse (fault : Fault) : Build α :=
  throw (.fault fault)

/-- Pairs are not as the grammar leaves them. -/
def internal (message : String) : Build α :=
  throw (.internal message)

end Build

/-! ## Literals -/

/-- What a pair covers of a text. -/
def Pair.source (text : List Char) (pair : Pair) : String :=
  pair.span.slice text

/-- The contents of a string literal, with doubled quotes collapsed. -/
def Pair.unquoted (text : List Char) (pair : Pair) : String :=
  match pair.inner with
  | inner :: _ => String.ofList (Text.collapseQuotes (inner.source text).toList)
  | [] => ""

/-- An unsigned number of 64 bits, after at most one plus. -/
def readUnsigned? (isDigit : Char → Bool) (base : Nat) (text : List Char) : Option Nat :=
  let digits := match text with
    | '+' :: rest => rest
    | _ => text
  if digits.isEmpty || !digits.all isDigit then none
  else if Integer.ofDigits base digits < 2 ^ 64 then some (Integer.ofDigits base digits)
  else none

/-- The value of an integer literal without a sign, in either base and with any suffix. -/
def magnitude? (literal : String) : Option Nat :=
  match (literal.toList.reverse.dropWhile Token.isIntegerSuffix).reverse with
  | '0' :: 'x' :: digits | '0' :: 'X' :: digits => readUnsigned? Integer.isHexDigit 16 digits
  | digits => readUnsigned? Char.isDigit 10 digits

namespace Building

variable (text : List Char)

/-- An integer literal, if its value fits a word. -/
def integer (pair : Pair) : Except Refusal Expr :=
  match (magnitude? (pair.source text)).bind fun value => Integer.narrow value with
  | some number => .ok (.literal (.integer number))
  | none => .error (.fault (.numberOutOfRange (pair.source text) pair.span))

/-- A floating-point literal, if its value is finite. -/
def float (pair : Pair) : Except Refusal Expr :=
  (Phrase.floatMeaning pair.span (pair.source text)).mapError .fault

/-- An operand without a sign. -/
def primary (expr : Pair → Build Expr) (pair : Pair) : Build Expr :=
  match pair.rule with
  | .expr => expr pair
  | .identifier => return .identifier (pair.source text)
  | .stringLiteral => return .literal (.string (pair.unquoted text))
  | .unterminatedString => .refuse (.unterminatedString pair.span)
  | .integerLiteral => .settled (integer text pair)
  | .floatLiteral => .settled (float text pair)
  | .booleanLiteral => return .literal (.boolean ((pair.source text).toLower == "true"))
  | rule => .internal ("Unexpected primary rule: " ++ rule.name)

/-! ## Sums -/

/-- The strengths of signs and of arithmetic operators. -/
def sumOperators : Operators
  | .add | .subtract => some (.middle, 10)
  | .multiply | .divide => some (.middle, 20)
  | .plus | .minus => some (.front, 30)
  | _ => none

/-- Whether nothing but blanks is written between a sign and a position. -/
def directlyFollows (pair : Pair) (position : Nat) : Bool :=
  pair.span.stop ≤ position &&
    ((Span.between pair.span.stop position).slice text).toList.all Text.isBlank

/-- An operand under a sign. A number is taken up by the sign, and the least integer is a number
only under its minus. -/
def underSign (pair : Pair) (operand : Except Refusal Expr) : Except Refusal Expr := do
  let sign ← match pair.rule with
    | .plus => Except.ok Sign.plus
    | .minus => Except.ok Sign.minus
    | rule => .error (.internal ("Unexpected prefix rule: " ++ rule.name))
  match operand with
  | .error (.fault (.numberOutOfRange literal span)) =>
    if sign = .minus ∧ directlyFollows text pair span.start = true ∧
        magnitude? literal = some (2 ^ 63) then
      .ok (.literal (.integer Int64.minValue))
    else operand
  | .error _ => operand
  | .ok operand => .ok (operand.withSign sign)

/-- Two operands with an arithmetic operator between them. -/
def calculated (left : Except Refusal Expr) (pair : Pair) (right : Except Refusal Expr) :
    Except Refusal Expr := do
  let op ← match pair.rule with
    | .add => Except.ok Arithmetic.add
    | .subtract => Except.ok Arithmetic.subtract
    | .multiply => Except.ok Arithmetic.multiply
    | .divide => Except.ok Arithmetic.divide
    | rule => .error (.internal ("Unexpected arithmetic rule: " ++ rule.name))
  let left ← left
  let right ← right
  return .arithmetic op left right

/-- A sum. -/
def sum (expr : Pair → Build Expr) (pair : Pair) : Build Expr :=
  ExceptT.mk (climbAll sumOperators (fun operand => (primary text expr operand).run)
    (underSign text) calculated pair.inner)

/-! ## Conditions -/

/-- The operand of a test that applies only to identifiers, which is covered by a span. -/
def requireIdentifier (test : NameTest) (span : Span) : Expr → Build Unit
  | .identifier _ => return ()
  | _ => .refuse (.identifierRequired test (span.slice text) span)

/-- The pattern that two string literals denote. -/
def compiled (pattern : Pair) (escape : Option Pair) : Build Like.Pattern :=
  match Like.Pattern.ofText (pattern.unquoted text) (escape.map (·.unquoted text)) with
  | .ok compiled => return compiled
  | .error (.escapeLength wrong) => .refuse (.invalidEscape wrong (escape.getD pattern).span)
  | .error .danglingEscape => .refuse (.danglingEscape pattern.span)

/-- A comparison of an operand with what the pairs of the comparison tell. -/
def compared (expr : Pair → Build Expr) (operand : Expr) : List Pair → Build Expr
  | [] => .internal "Grammar guarantees comparison has operator"
  | symbol :: parts =>
    match Comparison.ofSymbol? (symbol.source text) with
    | none => .internal ("Unknown comparison: " ++ symbol.source text)
    | some op =>
      match parts with
      | [] => .internal "Grammar guarantees comparison has operand"
      | right :: _ => return .comparison op operand (← sum text expr right)

/-- A test of an operand that is covered by a span. -/
def tested (expr : Pair → Build Expr) (span : Span) (operand : Expr) (tail : Pair) : Build Expr :=
  let negated := tail.inner.any (·.rule = .notKw)
  let strings := tail.inner.filter (·.rule = .stringLiteral)
  match tail.inner.find? (·.rule = .unterminatedString) with
  | some unclosed => .refuse (.unterminatedString unclosed.span)
  | none =>
    match tail.rule with
    | .comparison => compared text expr operand tail.inner
    | .between =>
      match tail.inner.filter (·.rule = .sum) with
      | low :: high :: _ => do
        let low ← sum text expr low
        let high ← sum text expr high
        return .between operand low high negated
      | _ => .internal "Grammar guarantees between has two bounds"
    | .inList => do
      requireIdentifier text .inList span operand
      return .inList operand (strings.map (·.unquoted text)) negated
    | .like => do
      requireIdentifier text .like span operand
      match strings with
      | [] => .internal "Grammar guarantees like has a pattern"
      | pattern :: more =>
        let pattern ← compiled text pattern more.head?
        return .like operand pattern negated
    | .isNull => do
      requireIdentifier text .isNull span operand
      return .isNull operand negated
    | rule => .internal ("Unexpected condition rule: " ++ rule.name)

/-- A sum and at most one test of it. -/
def condition (expr : Pair → Build Expr) (pair : Pair) : Build Expr :=
  if pair.rule = .condition then
    match pair.inner with
    | [] => .internal "Grammar guarantees condition has operand"
    | operand :: tails => do
      let value ← sum text expr operand
      match tails with
      | [] => return value
      | tail :: _ => tested text expr operand.span value tail
  else .internal ("Unexpected primary rule: " ++ pair.rule.name)

/-! ## Connectives -/

/-- The strengths of the connectives. -/
def exprOperators : Operators
  | .or => some (.middle, 10)
  | .and => some (.middle, 20)
  | .neg => some (.front, 30)
  | _ => none

/-- A condition under a negation. -/
def underNegation (pair : Pair) (operand : Except Refusal Expr) : Except Refusal Expr :=
  match pair.rule with
  | .neg => do return .not (← operand)
  | rule => .error (.internal ("Unexpected prefix rule: " ++ rule.name))

/-- Two conditions with a connective between them. -/
def connected (left : Except Refusal Expr) (pair : Pair) (right : Except Refusal Expr) :
    Except Refusal Expr :=
  match pair.rule with
  | .and => do return .and (← left) (← right)
  | .or => do return .or (← left) (← right)
  | rule => .error (.internal ("Unexpected infix rule: " ++ rule.name))

/-- An expression in which pairs nest no deeper than the clock allows. -/
def exprWithin : (clock : Nat) → Pair → Build Expr
  | 0, _ => ExceptT.mk (.error .outOfTime)
  | clock + 1, pair =>
    ExceptT.mk (climbAll exprOperators
      (fun operand => (condition text (exprWithin clock) operand).run) underNegation connected
      pair.inner)

/-- What the pair of a whole text tells: an expression, or nothing. -/
def program (clock : Nat) (pair : Pair) : Build (Option Expr) :=
  match pair.inner with
  | first :: _ =>
    if first.rule = .expr then some <$> exprWithin text clock first else return none
  | [] => return none

/-- A row of pairs that begins with a connective is given up. -/
example : (exprWithin [] 1 (.mk .expr ⟨0, 3⟩ [.mk .and ⟨0, 3⟩ []])).run =
    .error (.notAnOperand .and) :=
  rfl

/-- A condition without pairs inside is answered with an internal error. -/
example : (exprWithin [] 1 (.mk .expr ⟨0, 0⟩ [.mk .condition ⟨0, 0⟩ []])).run =
    .ok (.error (.internal "Grammar guarantees condition has operand")) :=
  rfl

end Building

/-- The expression of a selector text by way of its pairs, if it has one. Pairs nest no deeper than
the text has tokens. -/
def Build.ofChars (text : List Char) : Build (Option Expr) :=
  match Nesting.tooDeep? text with
  | some span => refuse (.nestingTooDeep span)
  | none =>
    let tokens := Token.scan text
    match Matcher.program tokens with
    | none =>
      let furthest := (Phrase.selector tokens).furthest.notFound .selector 0
      refuse (.unexpected furthest.position (Expectation.inOrder furthest.expected))
    | some (pairs, _) =>
      match pairs with
      | [] => internal "Grammar guarantees program exists"
      | program :: _ => Building.program text tokens.length program

end MessageSelector
