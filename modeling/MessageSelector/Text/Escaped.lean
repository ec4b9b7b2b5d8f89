import MessageSelector.Text.Visible

/-!
# Escaped text

A text shown inside a message stands between double quotes. Backslashes and double quotes are
escaped, the common control characters have letters of their own, and any other character without
a graphic of its own is shown by its code point in hexadecimal.
-/

namespace MessageSelector.Text

/-- The way a character is shown. -/
def escapeChar (c : Char) : List Char :=
  match c with
  | '"' => ['\\', '"']
  | '\\' => ['\\', '\\']
  | '\n' => ['\\', 'n']
  | '\r' => ['\\', 'r']
  | '\t' => ['\\', 't']
  | '\x00' => ['\\', '0']
  | c =>
    if isVisible c then [c]
    else '\\' :: 'u' :: '\x7b' :: Nat.toDigits 16 c.toNat ++ ['\x7d']

/-- A text between double quotes with every character in the way it is shown. -/
def escape (text : String) : String :=
  String.ofList ('"' :: text.toList.flatMap escapeChar ++ ['"'])

end MessageSelector.Text
