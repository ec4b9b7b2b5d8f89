import MessageSelector.Text.Blank
import MessageSelector.Text.Number
import MessageSelector.Token.Scanning

/-!
# Nesting

Parentheses and operators in front of an operand may nest only so deep; chains of binary operators
may be of any length. The depth is measured on the text before anything else is done with it, by
marks coarser than tokens: a mark is a string, a parenthesis, a sign, a word, or any other
character. A sign is in front of an operand unless an operand has just ended, and `NOT` always
counts. The operators in front of an operand count until it begins.
-/

namespace MessageSelector.Nesting

/-- The deepest nesting that is accepted. -/
def limit : Nat := 32

/-- What is told apart in a text to measure its depth. -/
inductive Mark where
  | string
  | leftParen
  | rightParen
  | sign
  | word (text : String)
  | blank
  | other
  deriving DecidableEq, Repr

/-- The characters of the words that are told apart. -/
def isWordMark (c : Char) : Bool :=
  Text.isAlphabetic c || Text.isNumber c || c = '_' || c = '$'

/-- The mark at the front of a text that begins with `first`, and how many characters it takes
after that one. -/
def Mark.atFront (first : Char) (rest : List Char) : Mark × Nat :=
  if first = '\'' then
    match Lexeme.stringContents? [] 0 rest with
    | some (_, taken) => (string, taken)
    | none => (string, rest.length)
  else if first = '(' then (leftParen, 0)
  else if first = ')' then (rightParen, 0)
  else if first = '+' || first = '-' then (sign, 0)
  else if isWordMark first then
    let following := rest.takeWhile isWordMark
    (word (String.ofList (first :: following)), following.length)
  else if Text.isBlank first then (blank, 0)
  else (other, 0)

/-- The words after which an operand is still to come. -/
def operatorWords : List String :=
  ["and", "or", "between", "like", "in", "is", "escape"]

/-- How deep a position is: the depth inside each open parenthesis, the innermost first, the
operators in front of the operand that is to come, and whether an operand has just ended. -/
structure Depth where
  insideParens : List Nat
  operators : Nat
  afterOperand : Bool
  deriving DecidableEq, Repr

namespace Depth

/-- The beginning of a text. -/
def start : Depth :=
  ⟨[], 0, false⟩

/-- The levels around a position. -/
def levels (depth : Depth) : Nat :=
  depth.insideParens.headD 0 + depth.operators

/-- An operand has ended. -/
def operandEnded (depth : Depth) : Depth :=
  { depth with operators := 0, afterOperand := true }

/-- An operand is to come. -/
def operandExpected (depth : Depth) : Depth :=
  { depth with operators := 0, afterOperand := false }

/-- The depth after a mark. -/
def after (depth : Depth) : Mark → Depth
  | .string => depth.operandEnded
  | .leftParen => { depth.operandExpected with
      insideParens := (depth.levels + 1) :: depth.insideParens }
  | .rightParen => { depth.operandEnded with insideParens := depth.insideParens.tail }
  | .sign =>
    if depth.afterOperand then depth.operandExpected
    else { depth with operators := depth.operators + 1 }
  | .word text =>
    let text := text.toLower
    if text = "not" then { depth with operators := depth.operators + 1, afterOperand := false }
    else if operatorWords.contains text then depth.operandExpected
    else depth.operandEnded
  | .blank => depth
  | .other => depth.operandExpected

end Depth

/-- The first character of the first mark that nests too deep, in a text of which `skip` characters
belong to a mark already counted. The text begins at byte `position`. -/
def tooDeepFrom (depth : Depth) (position skip : Nat) : List Char → Option Span
  | [] => none
  | c :: rest =>
    match skip with
    | skip + 1 => tooDeepFrom depth (position + c.utf8Size) skip rest
    | 0 =>
      let (mark, taken) := Mark.atFront c rest
      let depth := depth.after mark
      if limit < depth.levels then some ⟨position, c.utf8Size⟩
      else tooDeepFrom depth (position + c.utf8Size) taken rest

/-- The first character of the first mark of a text that nests too deep, if one does. -/
def tooDeep? (text : List Char) : Option Span :=
  tooDeepFrom .start 0 0 text

end MessageSelector.Nesting
