/-
Case mappings given as tables of strided ranges.

A row `⟨lo, hi, step, delta⟩` moves each of the code points `lo`, `lo + step`, ... up to `hi` by
`delta`.  The tables of lower case and of case folding are lists of such rows.

* `CaseRow.image?` — what one row does to a character;
* `mapCase` — the first row that applies, or the character itself.
-/

namespace TypeEnforcement.Text

/-- A run of code points that move by the same distance. -/
structure CaseRow where
  lo : Nat
  hi : Nat
  step : Nat
  delta : Int

/-- Where the row sends `c`, if it covers it. -/
def CaseRow.image? (row : CaseRow) (c : Char) : Option Char :=
  if row.lo ≤ c.toNat ∧ c.toNat ≤ row.hi ∧ (c.toNat - row.lo) % row.step = 0 then
    some (Char.ofNat (c.toNat + row.delta).toNat)
  else
    none

/-- The image of `c` under a table: by the first row that covers it, else `c` itself. -/
def mapCase (table : List CaseRow) (c : Char) : Char :=
  (table.findSome? (CaseRow.image? · c)).getD c

end TypeEnforcement.Text
