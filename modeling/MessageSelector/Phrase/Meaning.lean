import MessageSelector.Expr
import MessageSelector.Fault
import MessageSelector.Phrase
import MessageSelector.Token.Number
import MessageSelector.Value.Arithmetic

/-!
# The meaning of phrases

A phrase means an expression unless something in it has no meaning: an unclosed string, a number
out of range, a pattern or escape that is refused, or a test of something other than an identifier.
The fault reported is the first one in the order of the text. A sign in front of a number is part
of the number.
-/

namespace MessageSelector

/-- An expression under a sign: a number takes the sign up where the result is a number. -/
def Expr.withSign (sign : Sign) (operand : Expr) : Expr :=
  match operand with
  | literal value =>
    match value.signed? sign with
    | some number => literal number
    | none => signed sign operand
  | _ => signed sign operand

namespace Phrase

/-- The integer with the given value, which a literal denotes under the sign in front of it. -/
def integerMeaning (span : Span) (text : String) (value : Int) : Except Fault Expr :=
  match Integer.narrow value with
  | some number => .ok (.literal (.integer number))
  | none => .error (.numberOutOfRange text span)

/-- The number that a floating-point literal denotes. -/
def floatMeaning (span : Span) (text : String) : Except Fault Expr :=
  match Token.floatValue? text with
  | some number => .ok (.literal (.float number))
  | none => .error (.numberOutOfRange text span)

/-- The operand of a test that applies only to identifiers. -/
def requireIdentifier (text : List Char) (test : NameTest) (phrase : Phrase) (operand : Expr) :
    Except Fault Unit :=
  match operand with
  | .identifier _ => .ok ()
  | _ => .error (.identifierRequired test (phrase.span.slice text) phrase.span)

/-- The pattern that two string literals denote. -/
def patternMeaning (pattern : QuotedString) (escape : Option QuotedString) :
    Except Fault Like.Pattern :=
  match Like.Pattern.ofText pattern.contents (escape.map (·.contents)) with
  | .ok compiled => .ok compiled
  | .error (.escapeLength text) => .error (.invalidEscape text (escape.getD pattern).span)
  | .error .danglingEscape => .error (.danglingEscape pattern.span)

/-- The expression that a phrase of the given text means. A minus directly in front of an integer
literal belongs to it, so that the least integer can be written. -/
def meaning (text : List Char) : Phrase → Except Fault Expr
  | identifier _ name => .ok (.identifier name)
  | string literal => .ok (.literal (.string literal.contents))
  | unclosedString span => .error (.unterminatedString span)
  | float span literal => floatMeaning span literal
  | integer span literal => integerMeaning span literal (Token.integerValue literal)
  | boolean _ flag => .ok (.literal (.boolean flag))
  | group _ inner _ => inner.meaning text
  | signed _ .minus (integer span literal) =>
    integerMeaning span literal (-Token.integerValue literal)
  | signed _ sign operand => do
    let operand ← operand.meaning text
    return operand.withSign sign
  | arithmetic op left right => do
    let left ← left.meaning text
    let right ← right.meaning text
    return .arithmetic op left right
  | comparison op left right => do
    let left ← left.meaning text
    let right ← right.meaning text
    return .comparison op left right
  | between operand low high negated => do
    let operand ← operand.meaning text
    let low ← low.meaning text
    let high ← high.meaning text
    return .between operand low high negated
  | inList phrase items _ negated => do
    let operand ← phrase.meaning text
    requireIdentifier text .inList phrase operand
    return .inList operand (items.map (·.contents)) negated
  | like phrase pattern escape negated => do
    let operand ← phrase.meaning text
    requireIdentifier text .like phrase operand
    let pattern ← patternMeaning pattern escape
    return .like operand pattern negated
  | isNull phrase _ negated => do
    let operand ← phrase.meaning text
    requireIdentifier text .isNull phrase operand
    return .isNull operand negated
  | cutShort phrase unclosed => do
    let _ ← phrase.meaning text
    .error (.unterminatedString unclosed)
  | not _ operand => do
    let operand ← operand.meaning text
    return .not operand
  | and left right => do
    let left ← left.meaning text
    let right ← right.meaning text
    return .and left right
  | or left right => do
    let left ← left.meaning text
    let right ← right.meaning text
    return .or left right

end Phrase

end MessageSelector
