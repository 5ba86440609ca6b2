/-
Decimal numerals of bounded size.

A numeral is one or more ASCII digits, after an optional plus sign; leading zeros are allowed.  A
reader of a bounded number refuses what exceeds its bound.

* `digitsValue` — the value of a list of digits;
* `readBounded` — the value of a numeral, if the text is one and it keeps to the bound.
-/

namespace TypeEnforcement.Text

/-- The value of a list of decimal digits, most significant first. -/
def digitsValue (digits : List Char) : Nat :=
  digits.foldl (fun value c => value * 10 + (c.toNat - '0'.toNat)) 0

/-- The digits of a numeral: all of the text but one leading plus sign. -/
def numeralDigits : List Char → List Char
  | '+' :: rest => rest
  | all => all

/-- The value of a decimal numeral that is at most `bound`. -/
def readBounded (bound : Nat) (text : String) : Option Nat :=
  let digits := numeralDigits text.toList
  if digits ≠ [] ∧ digits.all Char.isDigit ∧ digitsValue digits ≤ bound then
    some (digitsValue digits)
  else
    none

end TypeEnforcement.Text
