import MessageSelector.Token.Number

/-!
# From text to tokens

A text is cut into tokens from the left. The first character of a token settles its kind, and each
token is as long as its kind allows. Layout between tokens is skipped, and a token for the end of
the text closes the list.
-/

namespace MessageSelector

namespace Lexeme

/-- The contents of a string literal, given the text after its opening quote, and how many
characters they take with the closing quote; nothing if no quote closes it. The arguments gather
the contents in reverse and the count. -/
def stringContents? (contents : List Char) (taken : Nat) : List Char → Option (String × Nat)
  | [] => none
  | '\'' :: '\'' :: rest => stringContents? ('\'' :: contents) (taken + 2) rest
  | '\'' :: _ => some (String.ofList contents.reverse, taken + 1)
  | c :: rest => stringContents? (c :: contents) (taken + 1) rest

/-- A word from its first character on, and how many characters it takes after that one. -/
def wordAt (first : Char) (rest : List Char) : Lexeme × Nat :=
  let following := rest.takeWhile isWordChar
  (ofWord (String.ofList (first :: following)), following.length)

/-- A string literal from its opening quote on, and how many characters it takes after that. -/
def stringAt (rest : List Char) : Lexeme × Nat :=
  match stringContents? [] 0 rest with
  | some (contents, taken) => (string contents, taken)
  | none => (unclosedString, rest.length)

/-- A number from its first character on, and how many characters it takes after that one. -/
def numberAt (first : Char) (rest : List Char) : Lexeme × Nat :=
  match Token.float? (first :: rest) with
  | some (literal, _) => (float (String.ofList literal), literal.length - 1)
  | none =>
    match Token.integer? (first :: rest) with
    | some (literal, _) => (integer (String.ofList literal), literal.length - 1)
    | none => (stray first, 0)

/-- A symbol from its first character on, and how many characters it takes after that one. -/
def symbolAt : Char → List Char → Lexeme × Nat
  | '<', '>' :: _ => (comparison .notEqual, 1)
  | '<', '=' :: _ => (comparison .lessOrEqual, 1)
  | '>', '=' :: _ => (comparison .greaterOrEqual, 1)
  | '=', _ => (comparison .equal, 0)
  | '<', _ => (comparison .less, 0)
  | '>', _ => (comparison .greater, 0)
  | '+', _ => (plus, 0)
  | '-', _ => (minus, 0)
  | '*', _ => (star, 0)
  | '/', _ => (slash, 0)
  | '(', _ => (leftParen, 0)
  | ')', _ => (rightParen, 0)
  | ',', _ => (comma, 0)
  | first, _ => (stray first, 0)

/-- The lexeme at the front of a text that begins with `first`, and how many characters it takes
after that one. -/
def atFront (first : Char) (rest : List Char) : Lexeme × Nat :=
  if isWordStart first then wordAt first rest
  else if first = '\'' then stringAt rest
  else if first.isDigit || first = '.' then numberAt first rest
  else symbolAt first rest

end Lexeme

namespace Token

/-- The tokens of a text of which `skip` characters belong to a token already found. The text
begins at byte `position`, and the tokens before it are given in reverse. -/
def scanFrom (found : List Token) (position skip : Nat) : List Char → List Token
  | [] => (⟨.endOfText, ⟨position, 0⟩⟩ :: found).reverse
  | c :: rest =>
    match skip with
    | skip + 1 => scanFrom found (position + c.utf8Size) skip rest
    | 0 =>
      if isLayout c then scanFrom found (position + c.utf8Size) 0 rest
      else
        let (lexeme, taken) := Lexeme.atFront c rest
        let span := ⟨position, c.utf8Size + byteCount (rest.take taken)⟩
        scanFrom (⟨lexeme, span⟩ :: found) (position + c.utf8Size) taken rest

/-- The tokens of a text, closed by a token for its end. -/
def scan (text : List Char) : List Token :=
  scanFrom [] 0 0 text

end Token

end MessageSelector
