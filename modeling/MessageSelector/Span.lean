/-!
# Spans

A span is a stretch of a text, measured in bytes of UTF-8.
-/

namespace MessageSelector

/-- The number of bytes that characters take in UTF-8. -/
def byteCount (text : List Char) : Nat :=
  text.foldl (fun count c => count + c.utf8Size) 0

@[simp] theorem byte_count_nil : byteCount [] = 0 := rfl

@[simp] theorem byte_count_cons (c : Char) (rest : List Char) :
    byteCount (c :: rest) = c.utf8Size + byteCount rest := by
  change rest.foldl (fun count c => count + c.utf8Size) (0 + c.utf8Size) = _
  have shift (text : List Char) (start : Nat) :
      text.foldl (fun count c => count + c.utf8Size) start = start + byteCount text := by
    unfold byteCount
    induction text generalizing start with
    | nil => rfl
    | cons c rest ih =>
      rw [List.foldl_cons, List.foldl_cons, ih, ih (0 + c.utf8Size)]
      omega
  simpa using shift rest (0 + c.utf8Size)

@[simp] theorem byte_count_append (front back : List Char) :
    byteCount (front ++ back) = byteCount front + byteCount back := by
  induction front with
  | nil => simp
  | cons c rest ih => simp [ih, Nat.add_assoc]

/-- A stretch of a text. -/
structure Span where
  start : Nat
  length : Nat
  deriving DecidableEq, Repr, Inhabited

namespace Span

/-- Where the stretch ends: the first byte after it. -/
def stop (span : Span) : Nat :=
  span.start + span.length

/-- The stretch from one position to another. -/
def between (start stop : Nat) : Span :=
  ⟨start, stop - start⟩

/-- The characters of a text from a byte position on. -/
def dropBytes : List Char → Nat → List Char
  | [], _ => []
  | text, 0 => text
  | c :: rest, count + 1 => dropBytes rest (count + 1 - c.utf8Size)

/-- The characters of a text that begin before a byte position, put before reversed ones. -/
def takeBytes : List Char → Nat → List Char → List Char
  | [], _, taken => taken.reverse
  | _, 0, taken => taken.reverse
  | c :: rest, count + 1, taken => takeBytes rest (count + 1 - c.utf8Size) (c :: taken)

/-- What a span covers of a text. -/
def slice (span : Span) (text : List Char) : String :=
  String.ofList (takeBytes (dropBytes text span.start) span.length [])

end Span

end MessageSelector
