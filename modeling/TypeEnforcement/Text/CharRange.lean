/-
Sets of characters given as tables of code point ranges.

Properties of the Unicode standard that the library consults are stored as sorted lists of closed
ranges, one module per property.  This file holds the look-up, the same for all of them.

* `inRanges` — membership of a character in a table.
-/

namespace TypeEnforcement.Text

/-- Whether the code point of `c` lies in one of the closed ranges of `table`. -/
def inRanges (table : List (Nat × Nat)) (c : Char) : Bool :=
  table.any fun row => row.1 ≤ c.toNat && c.toNat ≤ row.2

end TypeEnforcement.Text
