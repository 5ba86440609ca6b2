/-
Reading hexadecimal digits.

* `hexDigit?` — the value of a digit, in either case;
* `hexNumber?` — the value of one or more digits;
* `charOfHex?` — the character with a code point.
-/

namespace TypeEnforcement.Text

/-- The value of a hexadecimal digit. -/
def hexDigit? (c : Char) : Option Nat :=
  if c.isDigit then some (c.toNat - '0'.toNat)
  else if 'a' ≤ c ∧ c ≤ 'f' then some (c.toNat - 'a'.toNat + 10)
  else if 'A' ≤ c ∧ c ≤ 'F' then some (c.toNat - 'A'.toNat + 10)
  else none

/-- The value of one or more hexadecimal digits. -/
def hexNumber? (digits : List Char) : Option Nat :=
  if digits.isEmpty then none
  else (digits.mapM hexDigit?).map (·.foldl (fun value d => value * 16 + d) 0)

/-- The character whose code point has given hexadecimal digits; the surrogates are none. -/
def charOfHex? (digits : List Char) : Option Char :=
  (hexNumber? digits).bind fun n => if n.isValidChar then some (Char.ofNat n) else none

end TypeEnforcement.Text
