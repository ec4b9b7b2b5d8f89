import MessageSelector.Expectation
import MessageSelector.Token

/-!
# Readers of tokens

A reader takes a part of a selector from the front of a list of tokens. It either finds the part
and leaves the rest, or finds nothing; in both cases it tells the furthest position at which it
asked for something in vain. What a reader finds never depends on those positions.
-/

namespace MessageSelector

/-- What reading led to: the part found with the tokens after it, if any, and how far the reading
got. -/
structure Reading (α : Type) where
  furthest : Furthest
  found : Option (α × List Token)

/-- A reader of a part of type `α`. -/
def Reader (α : Type) := List Token → Reading α

namespace Reader

variable {α β γ : Type}

/-- The byte position of the next token. -/
def position : List Token → Nat
  | token :: _ => token.span.start
  | [] => 0

/-- Finds a part without taking a token. -/
def pure (part : α) : Reader α :=
  fun tokens => ⟨.start, some (part, tokens)⟩

/-- Reads a part and then, from the tokens after it, a further part that may depend on it. -/
def bind (first : Reader α) (next : α → Reader β) : Reader β :=
  fun tokens =>
    let reading := first tokens
    match reading.found with
    | none => ⟨reading.furthest, none⟩
    | some (part, rest) =>
      let following := next part rest
      ⟨reading.furthest.merge following.furthest, following.found⟩

instance : Monad Reader where
  pure := pure
  bind := bind

/-- Reads a part in one way or, where that finds nothing, in another way from the same tokens. -/
def orElse (first second : Reader α) : Reader α :=
  fun tokens =>
    let reading := first tokens
    match reading.found with
    | some _ => reading
    | none =>
      let alternative := second tokens
      ⟨reading.furthest.merge alternative.furthest, alternative.found⟩

instance : OrElse (Reader α) where
  orElse first second := orElse first (second ())

/-- Takes the next token if it is of the wanted kind. -/
def token (wanted : Token → Option α) : Reader α
  | next :: rest => ⟨.start, (wanted next).map (·, rest)⟩
  | [] => ⟨.start, none⟩

/-- Reads a part that is reported under a name where it is not found. -/
def expecting (part : Expectation) (reader : Reader α) : Reader α :=
  fun tokens =>
    let reading := reader tokens
    match reading.found with
    | some _ => reading
    | none => ⟨reading.furthest.notFound part (position tokens), none⟩

/-- Takes the next token if it is the given lexeme, and answers with its place. -/
def lexeme (wanted : Lexeme) : Reader Span :=
  token fun next => if next.lexeme = wanted then some next.span else none

/-- Reads a part if it is there. -/
def optional (reader : Reader α) : Reader (Option α) :=
  orElse (bind reader fun part => pure (some part)) (pure none)

/-- Reads as many parts as follow one another, after those given in reverse. Every part takes at
least one of the tokens, so the tokens at hand at the beginning bound the number of parts: `clock`
holds those not yet accounted for. -/
def manyFrom (reader : Reader α) :
    (clock : List Token) → List α → Furthest → Reader (List α)
  | [], parts, furthest, tokens => ⟨furthest, some (parts.reverse, tokens)⟩
  | _ :: clock, parts, furthest, tokens =>
    let reading := reader tokens
    let furthest := furthest.merge reading.furthest
    match reading.found with
    | none => ⟨furthest, some (parts.reverse, tokens)⟩
    | some (part, rest) => manyFrom reader clock (part :: parts) furthest rest

/-- Reads as many parts as follow one another. -/
def many (reader : Reader α) : Reader (List α) :=
  fun tokens => manyFrom reader tokens [] .start tokens

/-- Reads as many pairs of an operator and an operand as follow, and groups each with all that is
to the left of it. The clock bounds the number of pairs as in `manyFrom`. -/
def chainFrom (operator : Reader β) (operand : Reader α) (group : β → α → α → α) :
    (clock : List Token) → α → Furthest → Reader α
  | [], left, furthest, tokens => ⟨furthest, some (left, tokens)⟩
  | _ :: clock, left, furthest, tokens =>
    let reading := (bind operator fun op => bind operand fun right => pure (op, right)) tokens
    let furthest := furthest.merge reading.furthest
    match reading.found with
    | none => ⟨furthest, some (left, tokens)⟩
    | some ((op, right), rest) =>
      chainFrom operator operand group clock (group op left right) furthest rest

/-- Reads operands with operators between them, grouped to the left. -/
def chain (operator : Reader β) (operand : Reader α) (group : β → α → α → α) : Reader α :=
  bind operand fun first tokens =>
    chainFrom operator operand group tokens first .start tokens

/-- Reads an operand under as many operators in front of it as there are. Once an operator is read,
an operand has to follow. The clock bounds the number of operators as in `manyFrom`. -/
def prefixedFrom (operator : Reader β) (operand : Reader α) (wrap : β → α → α) :
    (clock : List Token) → Reader α
  | [], tokens => operand tokens
  | _ :: clock, tokens =>
    let reading := operator tokens
    match reading.found with
    | none =>
      let reading' := operand tokens
      ⟨reading.furthest.merge reading'.furthest, reading'.found⟩
    | some (op, rest) =>
      let reading' := prefixedFrom operator operand wrap clock rest
      ⟨reading.furthest.merge reading'.furthest,
        reading'.found.map fun (part, rest) => (wrap op part, rest)⟩

/-- Reads an operand under as many operators in front of it as there are. -/
def prefixed (operator : Reader β) (operand : Reader α) (wrap : β → α → α) : Reader α :=
  fun tokens => prefixedFrom operator operand wrap tokens tokens

end Reader

end MessageSelector
