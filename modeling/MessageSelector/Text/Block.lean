/-!
# Blocks of code points

Character properties are data: ascending blocks of code points with both ends included.
-/

namespace MessageSelector.Text

/-- Consecutive code points, from the first to the last. -/
abbrev Block := Nat × Nat

/-- Whether one of the blocks holds the character. -/
def inBlocks (blocks : List Block) (c : Char) : Bool :=
  blocks.any fun (first, last) => first ≤ c.toNat && c.toNat ≤ last

end MessageSelector.Text
