import MessageSelector.Text.Escaped
import MessageSelector.Text.Quoted

/-!
# LIKE patterns

In a pattern `%` stands for any run of characters, `_` for any single one, and every other
character for itself. An escape character makes the character after it stand for itself. A pattern
that ends with its escape character is refused.
-/

namespace MessageSelector.Like

/-- One item of a pattern: any run of characters, any one character, or a given character. -/
inductive Item where
  | run
  | one
  | char (c : Char)
  deriving DecidableEq, Repr

/-- The item an unescaped character stands for. -/
def Item.ofChar : Char → Item
  | '%' => run
  | '_' => one
  | c => char c

/-- The items of a pattern, unless it ends with its escape character. -/
def items? (escape : Option Char) : List Char → Option (List Item)
  | [] => some []
  | c :: rest =>
    if escape = some c then
      match rest with
      | [] => none
      | literal :: rest => (items? escape rest).map (Item.char literal :: ·)
    else (items? escape rest).map (Item.ofChar c :: ·)

/-- A pattern that does not end with its escape character. -/
structure Pattern where
  /-- The pattern as written. -/
  text : String
  /-- The escape character, if there is one. -/
  escape : Option Char
  /-- No escape character is left without a character after it. -/
  complete : (items? escape text.toList).isSome
  deriving DecidableEq

/-- Why a pattern is refused. -/
inductive Fault where
  /-- The text given as the escape is not exactly one character. -/
  | escapeLength (escape : String)
  /-- The pattern ends with its escape character. -/
  | danglingEscape
  deriving DecidableEq, Repr

/-- What is wrong, in a clause. -/
def Fault.message : Fault → String
  | escapeLength escape => "ESCAPE must be a single character, found " ++ Text.escape escape
  | danglingEscape => "pattern ends with the escape character"

/-- The escape character in an escape text. -/
def escapeChar? : Option String → Except Fault (Option Char)
  | none => .ok none
  | some escape =>
    match escape.toList with
    | [c] => .ok (some c)
    | _ => .error (.escapeLength escape)

namespace Pattern

/-- The pattern with a given text and escape text. -/
def ofText (text : String) (escape : Option String) : Except Fault Pattern := do
  let escape ← escapeChar? escape
  if complete : (items? escape text.toList).isSome then .ok ⟨text, escape, complete⟩
  else .error .danglingEscape

/-- The items of a pattern. -/
def items (pattern : Pattern) : List Item :=
  (items? pattern.escape pattern.text.toList).get pattern.complete

/-- The pattern as written after `LIKE`. -/
def literal (pattern : Pattern) : String :=
  match pattern.escape with
  | none => Text.quote pattern.text
  | some c => Text.quote pattern.text ++ " ESCAPE " ++ Text.quote (String.singleton c)

end Pattern

/-- For every suffix of a list of outcomes, whether one of them is true. -/
def anyLater (outcomes : List Bool) : List Bool :=
  outcomes.foldr (fun outcome later => (outcome || later.headD false) :: later) []

/-- The outcomes for the suffixes of a subject when one accepted character comes before what the
outcomes `next` tell of. -/
def afterOne (accepts : Char → Bool) (subject : List Char) (next : List Bool) : List Bool :=
  subject.zipWith (fun c outcome => accepts c && outcome) next.tail ++ [false]

/-- For every suffix of the subject, the whole one first and the empty one last, whether the items
match it. Each item takes one pass over the subject. -/
def outcomes (subject : List Char) : List Item → List Bool
  | [] => subject.map (fun _ => false) ++ [true]
  | .run :: items => anyLater (outcomes subject items)
  | .one :: items => afterOne (fun _ => true) subject (outcomes subject items)
  | .char c :: items => afterOne (· == c) subject (outcomes subject items)

/-- Whether a pattern matches the whole of a subject. -/
def Pattern.accepts (pattern : Pattern) (subject : String) : Bool :=
  (outcomes subject.toList pattern.items).headD false

end MessageSelector.Like
