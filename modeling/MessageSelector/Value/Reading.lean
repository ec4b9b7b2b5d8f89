import MessageSelector.Value

/-!
# Values in text

Outside a selector a value is typed the way a literal of a selector would be, and anything that is
no literal is a string as it stands.
-/

namespace MessageSelector.Value

/-- A boolean in text, in any ASCII case. -/
def readFlag? (text : String) : Option Bool :=
  match text.toLower with
  | "true" => some true
  | "false" => some false
  | _ => none

/-- The value that a text stands for: a quoted string, an integer, a finite floating-point number,
a boolean, or else the text itself. -/
def ofText (text : String) : Value :=
  (string <$> Text.unquote? text <|>
    integer <$> Integer.readWord? text <|>
    float <$> Decimal.readFinite? text <|>
    boolean <$> readFlag? text).getD (string text)

end MessageSelector.Value
