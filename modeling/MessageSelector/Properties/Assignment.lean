import MessageSelector.Text.Blank
import MessageSelector.Value.Reading

/-!
# Assignments

Outside a selector a property is given as `NAME=VALUE`.
-/

namespace MessageSelector

/-- A name with the value assigned to it. -/
structure Assignment where
  name : String
  value : Value
  deriving Inhabited

/-- The assignment in a text: what stands before the first equals sign, without the blanks around
it, is the name and must not be empty; what stands after the sign is the value. -/
def Assignment.read (text : String) : Except String Assignment :=
  let (front, rest) := text.toList.span (· ≠ '=')
  let name := Text.trimBlanks (String.ofList front)
  if rest.isEmpty || name.isEmpty then .error ("expected NAME=VALUE, found '" ++ text ++ "'")
  else .ok ⟨name, .ofText (String.ofList rest.tail)⟩

end MessageSelector
