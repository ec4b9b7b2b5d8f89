import MessageSelector.Json.Number
import MessageSelector.Text.Scan

/-!
# Reading JSON

A document is read from the front. Members of an object are kept in the order of their names, the
last one of a name counts, and values may nest only so deep.
-/

namespace MessageSelector.Json

open Text (Scan)
open Text.Scan (next expect hexDigit)

/-- Blanks: spaces, tabs, line feeds and carriage returns. -/
def skipBlanks : Scan Unit := fun text =>
  some ((), text.dropWhile fun c => c = ' ' || c = '\t' || c = '\n' || c = '\r')

/-- Four hexadecimal digits. -/
def hexUnit : Scan Nat := do
  let a ← hexDigit
  let b ← hexDigit
  let c ← hexDigit
  let d ← hexDigit
  return ((a * 16 + b) * 16 + c) * 16 + d

/-- A character given by one unit of UTF-16, or by the two units of a surrogate pair. -/
def unitChar : Scan Char := do
  let high ← hexUnit
  if high < 0xD800 || 0xDFFF < high then return Char.ofNat high
  guard (high < 0xDC00)
  expect '\\'
  expect 'u'
  let low ← hexUnit
  guard (0xDC00 ≤ low && low ≤ 0xDFFF)
  return Char.ofNat (0x10000 + (high - 0xD800) * 0x400 + (low - 0xDC00))

/-- An escaped character after its backslash. -/
def escapedChar : Scan Char := do
  match ← next with
  | '"' => return '"'
  | '\\' => return '\\'
  | '/' => return '/'
  | 'b' => return '\x08'
  | 'f' => return '\x0c'
  | 'n' => return '\n'
  | 'r' => return '\r'
  | 't' => return '\t'
  | 'u' => unitChar
  | _ => failure

/-- The characters of a string up to and with its closing quote, after those given in reverse. Every
character takes at least one of the text, so the text at hand bounds their number. -/
def stringTail : (clock : List Char) → List Char → Scan String
  | [], _ => failure
  | _ :: clock, read => do
    match ← next with
    | '"' => return String.ofList read.reverse
    | '\\' => do
      let c ← escapedChar
      stringTail clock (c :: read)
    | c => do
      guard (0x20 ≤ c.toNat)
      stringTail clock (c :: read)

/-- A string. -/
def stringText : Scan String := do
  expect '"'
  let clock ← get
  stringTail clock []

/-- A word that stands for a value. -/
def word (letters : String) (value : Json) : Scan Json := fun text =>
  if letters.toList.isPrefixOf text then some (value, text.drop letters.length) else none

/-- Members in the order of their names, with one more; it replaces a member of its name. -/
def insertMember (name : String) (value : Json) : List (String × Json) → List (String × Json)
  | [] => [(name, value)]
  | (other, old) :: rest =>
    if name < other then (name, value) :: (other, old) :: rest
    else if name = other then (name, value) :: rest
    else (other, old) :: insertMember name value rest

/-- The items of an array up to and with its closing bracket, after those given in reverse. Every
item takes at least one character, so the text at hand bounds their number. -/
def itemsTail (value : Scan Json) : (clock : List Char) → List Json → Scan (List Json)
  | [], _ => failure
  | _ :: clock, items => do
    let item ← value
    skipBlanks
    match ← next with
    | ',' => itemsTail value clock (item :: items)
    | ']' => return (item :: items).reverse
    | _ => failure

/-- The members of an object up to and with its closing brace, added to those given. Every member
takes at least one character, so the text at hand bounds their number. -/
def membersTail (value : Scan Json) :
    (clock : List Char) → List (String × Json) → Scan (List (String × Json))
  | [], _ => failure
  | _ :: clock, members => do
    skipBlanks
    let name ← stringText
    skipBlanks
    expect ':'
    let members := insertMember name (← value) members
    skipBlanks
    match ← next with
    | ',' => membersTail value clock members
    | '\x7d' => return members
    | _ => failure

/-- The items of an array after its opening bracket. -/
def arrayItems (value : Scan Json) : Scan (List Json) := do
  skipBlanks
  match ← get with
  | ']' :: rest => set rest; return []
  | clock => itemsTail value clock []

/-- The members of an object after its opening brace. -/
def objectMembers (value : Scan Json) : Scan (List (String × Json)) := do
  skipBlanks
  match ← get with
  | '\x7d' :: rest => set rest; return []
  | clock => membersTail value clock []

/-- A value after any blanks, given the reader of the values inside it, unless it may hold none. -/
def valueOf (inner : Option (Scan Json)) : Scan Json := do
  skipBlanks
  match ← get with
  | '"' :: _ => string <$> stringText
  | 't' :: _ => word "true" (boolean true)
  | 'f' :: _ => word "false" (boolean false)
  | 'n' :: _ => word "null" null
  | '[' :: rest =>
    set rest
    match inner with
    | some inner => array <$> arrayItems inner
    | none => failure
  | '\x7b' :: rest =>
    set rest
    match inner with
    | some inner => object <$> objectMembers inner
    | none => failure
  | text => StateT.lift (number? text) >>= fun (number, rest) => do set rest; return number

/-- A value in which arrays and objects nest at most `depth` deep. -/
def valueWithin (depth : Nat) (text : List Char) : Option (Json × List Char) :=
  match depth with
  | 0 => valueOf none text
  | depth + 1 => valueOf (some (valueWithin depth)) text

/-- How deep arrays and objects may nest inside a document that is an object. -/
def innerDepth : Nat := 126

/-- A document that is an object, as its members in the order of their names. -/
def document : Scan (List (String × Json)) := do
  skipBlanks
  expect '\x7b'
  let members ← objectMembers (valueWithin innerDepth)
  skipBlanks
  guard (← get).isEmpty
  return members

/-- The members of a document that is an object. -/
def readObject? (text : String) : Option (List (String × Json)) :=
  (document text.toList).map (·.1)

end MessageSelector.Json
