/-
White space: the characters with the Unicode property `White_Space`.

* `isBlank` — the property, by an explicit case list.
-/

namespace TypeEnforcement.Text

/-- Whether `c` is white space: the ASCII blanks, next line, the no-break space and the spaces and
separators of the general punctuation block and beyond. -/
def isBlank (c : Char) : Bool :=
  let n := c.toNat
  (9 ≤ n && n ≤ 13) || n == 0x20 || n == 0x85 || n == 0xa0 || n == 0x1680 ||
    (0x2000 ≤ n && n ≤ 0x200a) || n == 0x2028 || n == 0x2029 || n == 0x202f || n == 0x205f ||
    n == 0x3000

end TypeEnforcement.Text
