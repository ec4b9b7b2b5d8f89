import MessageSelector.Text.Block

/-!
# Blank characters

The Unicode property White_Space, and the stripping of blanks from the ends of a text.
-/

namespace MessageSelector.Text

/-- The blank code points beyond ASCII, as ascending blocks. -/
def blankBlocks : List Block := [
  (0x85, 0x85), (0xA0, 0xA0), (0x1680, 0x1680), (0x2000, 0x200A), (0x2028, 0x2029),
  (0x202F, 0x202F), (0x205F, 0x205F), (0x3000, 0x3000)]

/-- Blanks of any script, after the Unicode property White_Space. -/
def isBlank (c : Char) : Bool :=
  if c.toNat < 0x80 then c = ' ' || (0x09 ≤ c.toNat && c.toNat ≤ 0x0D) else inBlocks blankBlocks c

/-- A text without the blanks at its two ends. -/
def trimBlanks (text : String) : String :=
  let front := text.toList.dropWhile isBlank
  String.ofList (front.reverse.dropWhile isBlank).reverse

end MessageSelector.Text
