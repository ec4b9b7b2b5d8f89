import MessageSelector.Decimal.Layout

/-!
# JSON documents

The values of JSON and their two written forms: a compact one without blanks, and one with a line
for every member and item. Objects keep their members in the order given.
-/

namespace MessageSelector

/-- A JSON value. Whole numbers within 64 bits, with or without a sign, are exact. -/
inductive Json where
  | null
  | boolean (flag : Bool)
  | integer (number : Int)
  | float (number : Float)
  | string (text : String)
  | array (items : List Json)
  | object (members : List (String × Json))
  deriving Inhabited

namespace Json

/-- Numbers are positional from `0.00001` up to below `10 ^ 16`, and of two equally near decimals
the even one is written. -/
def floatLayout : Decimal.Layout where
  leastPositional := -5
  greatestPositional := 15
  positiveMark := "e+"
  negativeMark := "e-"
  tie := .even

/-- The way a character stands in a string. -/
def escapeChar (c : Char) : List Char :=
  match c with
  | '"' => ['\\', '"']
  | '\\' => ['\\', '\\']
  | '\n' => ['\\', 'n']
  | '\r' => ['\\', 'r']
  | '\t' => ['\\', 't']
  | '\x08' => ['\\', 'b']
  | '\x0c' => ['\\', 'f']
  | c =>
    if c.toNat < 0x20 then
      ['\\', 'u', '0', '0', Nat.digitChar (c.toNat / 16), Nat.digitChar (c.toNat % 16)]
    else [c]

/-- A string between its quotes. -/
def quote (text : String) : String :=
  String.ofList ('"' :: text.toList.flatMap escapeChar ++ ['"'])

/-- The text of a number, a string or a name; nothing for arrays and objects. -/
def scalarText : Json → String
  | null => "null"
  | boolean flag => if flag then "true" else "false"
  | integer number => toString number
  | float number => floatLayout.write number
  | string text => quote text
  | array _ | object _ => ""

/-- A new line with two spaces for every level. -/
def newLine (level : Nat) : String :=
  String.ofList ('\n' :: List.replicate (2 * level) ' ')

mutual

/-- The compact text. -/
def compact : Json → String
  | array items => "[" ++ compactItems items ++ "]"
  | object members => "\x7b" ++ compactMembers members ++ "\x7d"
  | scalar => scalarText scalar

/-- The compact texts of items, with commas between them. -/
def compactItems : List Json → String
  | [] => ""
  | [item] => item.compact
  | item :: rest => item.compact ++ "," ++ compactItems rest

/-- The compact texts of members, with commas between them. -/
def compactMembers : List (String × Json) → String
  | [] => ""
  | [(name, value)] => quote name ++ ":" ++ value.compact
  | (name, value) :: rest => quote name ++ ":" ++ value.compact ++ "," ++ compactMembers rest

end

mutual

/-- The text with a line for every member and item, at a level of indentation. -/
def spread (level : Nat) : Json → String
  | array [] => "[]"
  | array items => "[" ++ spreadItems (level + 1) items ++ newLine level ++ "]"
  | object [] => "\x7b\x7d"
  | object members => "\x7b" ++ spreadMembers (level + 1) members ++ newLine level ++ "\x7d"
  | scalar => scalarText scalar

/-- The lines of items, with commas between them. -/
def spreadItems (level : Nat) : List Json → String
  | [] => ""
  | [item] => newLine level ++ item.spread level
  | item :: rest => newLine level ++ item.spread level ++ "," ++ spreadItems level rest

/-- The lines of members, with commas between them. -/
def spreadMembers (level : Nat) : List (String × Json) → String
  | [] => ""
  | [(name, value)] => newLine level ++ quote name ++ ": " ++ value.spread level
  | (name, value) :: rest =>
    newLine level ++ quote name ++ ": " ++ value.spread level ++ "," ++ spreadMembers level rest

end

/-- The text with a line for every member and item. -/
def pretty (json : Json) : String :=
  json.spread 0

end Json

end MessageSelector
