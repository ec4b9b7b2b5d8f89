/-!
# Quoted strings

A string literal stands between single quotes, and a quote inside it is written twice.
-/

namespace MessageSelector.Text

/-- Every quote written twice. -/
def doubleQuotes : List Char → List Char :=
  List.flatMap fun c => if c = '\'' then ['\'', '\''] else [c]

/-- Every pair of quotes read as one, from the left. -/
def collapseQuotes : List Char → List Char
  | '\'' :: '\'' :: rest => '\'' :: collapseQuotes rest
  | c :: rest => c :: collapseQuotes rest
  | [] => []

/-- Reading every pair of quotes as one undoes writing every quote twice. -/
@[simp] theorem collapse_double_quotes (text : List Char) :
    collapseQuotes (doubleQuotes text) = text := by
  induction text with
  | nil => rfl
  | cons c rest ih =>
    unfold doubleQuotes at ih ⊢
    by_cases h : c = '\'' <;> simp [h, collapseQuotes, ih]

/-- The string literal that denotes a text. -/
def quote (text : String) : String :=
  String.ofList ('\'' :: doubleQuotes text.toList ++ ['\''])

/-- The contents of a text that stands between two single quotes, with doubled quotes collapsed. -/
def unquote? (text : String) : Option String :=
  match text.toList with
  | '\'' :: rest =>
    match rest.reverse with
    | '\'' :: reversed => some (String.ofList (collapseQuotes reversed.reverse))
    | _ => none
  | _ => none

end MessageSelector.Text
