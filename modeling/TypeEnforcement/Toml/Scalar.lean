/-
Words and numbers of configuration documents.

A value that is neither quoted nor bracketed is one run of letters, digits and signs; only a date
may be followed by a blank and a time.

* `integer?`, `isFloat`, `isDateTime` — the kinds of runs;
* `scalarOf?` — the value of a run;
* `scalar` — the reader.
-/
import TypeEnforcement.Text.Numeral
import TypeEnforcement.Toml.Quote
import TypeEnforcement.Toml.Value

namespace TypeEnforcement.Toml

/-- Whether a character may stand in a run. -/
def isRunChar (c : Char) : Bool :=
  c.isAlphanum || c == '+' || c == '-' || c == '_' || c == '.' || c == ':'

/-! ### Integers -/

/-- Digits without the underscores between them; an underscore stands between two digits. -/
def plainDigits? (isDigit : Char → Bool) (text : List Char) : Option (List Char) :=
  let groups := Text.pieces (· == '_') text
  if groups.all fun group => !group.isEmpty && group.all isDigit then some groups.flatten else none

def valueToBase (base : Nat) (digits : List Char) : Nat :=
  digits.foldl (fun value c => value * base + (Text.hexDigit? c).getD 0) 0

/-- The sign of a number and the rest of its text. -/
def splitSign : List Char → Bool × List Char
  | '-' :: rest => (true, rest)
  | '+' :: rest => (false, rest)
  | text => (false, text)

/-- A decimal whole number without a sign: no zero stands before other digits. -/
def wholeDigits? (text : List Char) : Option (List Char) :=
  (plainDigits? Char.isDigit text).filter fun digits => digits.head? ≠ some '0' || text.length = 1

/-- Half the number of the integers that can be held. -/
def integerBound : Nat := Nat.pow 2 63

/-- The value of an integer: decimal with an optional sign, or with the mark of another base and no
sign. -/
def integer? : List Char → Option Int
  | '0' :: 'x' :: digits => unsigned 16 (fun c => (Text.hexDigit? c).isSome) digits
  | '0' :: 'o' :: digits => unsigned 8 (fun c => '0' ≤ c && c ≤ '7') digits
  | '0' :: 'b' :: digits => unsigned 2 (fun c => c == '0' || c == '1') digits
  | text => do
    let (negative, rest) := splitSign text
    let value := valueToBase 10 (← wholeDigits? rest)
    if negative then
      if value ≤ integerBound then some (-(value : Int)) else none
    else if value < integerBound then some value else none
where
  /-- The value of digits to a base, if it can be held. -/
  unsigned (base : Nat) (isDigit : Char → Bool) (text : List Char) : Option Int := do
    let value := valueToBase base (← plainDigits? isDigit text)
    if value < integerBound then some value else none

/-! ### Numbers with a fraction -/

/-- The parts of a decimal number: the digits before and after the point, and the exponent. -/
structure Decimal where
  negative : Bool
  whole : List Char
  fraction : List Char
  exponent : Int

/-- Read a decimal number with a fraction, an exponent or both. -/
def decimal? (text : List Char) : Option Decimal := do
  let (negative, rest) := splitSign text
  let marked := rest.map fun c => if c = 'E' then 'e' else c
  let (mantissa, exponent) := match Text.splitFirst 'e' marked with
    | some (mantissa, exponent) => (mantissa, some exponent)
    | none => (rest, none)
  let (whole, fraction) := match Text.splitFirst '.' mantissa with
    | some (whole, fraction) => (whole, some fraction)
    | none => (mantissa, none)
  if fraction.isNone && exponent.isNone then none
  let whole ← wholeDigits? whole
  let fraction ← match fraction with
    | some digits => plainDigits? Char.isDigit digits
    | none => some []
  let exponent ← match exponent with
    | none => some 0
    | some text =>
      let (down, digits) := splitSign text
      (plainDigits? Char.isDigit digits).map fun digits =>
        if down then -(valueToBase 10 digits : Int) else (valueToBase 10 digits : Int)
  some { negative, whole, fraction, exponent }

/-- The least number that rounds to infinity: the greatest finite one and half a step. -/
def overflowBound : Nat := Nat.pow 2 1024 - Nat.pow 2 970

/-- Whether a decimal number is so great that it rounds to infinity.  The decimal exponent of the
first digit decides all but the numbers near the bound. -/
def Decimal.overflows (d : Decimal) : Bool :=
  let digits := (d.whole ++ d.fraction).dropWhile (· == '0')
  let scale := d.exponent - d.fraction.length
  let size := scale + digits.length
  if digits.isEmpty || size < 300 then false
  else if 400 < size then true
  else if 0 ≤ scale then overflowBound ≤ valueToBase 10 digits * Nat.pow 10 scale.toNat
  else overflowBound * Nat.pow 10 (-scale).toNat ≤ valueToBase 10 digits

/-- Whether a run is a number with a fraction, an infinity or no number.  Numbers below the range
are as good as the negative infinity, numbers above it are refused. -/
def isFloat (text : List Char) : Bool :=
  let unsigned := (splitSign text).2
  unsigned = ['i', 'n', 'f'] || unsigned = ['n', 'a', 'n'] ||
    (decimal? text).any fun d => d.negative || !d.overflows

/-! ### Points in time -/

def fieldValue? (text : List Char) : Option Nat :=
  if text.all Char.isDigit then some (Text.digitsValue text) else none

/-- The number of days of a month. -/
def daysOf (year month : Nat) : Nat :=
  if month = 2 then if year % 4 = 0 ∧ (year % 100 ≠ 0 ∨ year % 400 = 0) then 29 else 28
  else if month = 4 ∨ month = 6 ∨ month = 9 ∨ month = 11 then 30
  else 31

/-- Whether a text is a date, year first. -/
def isDate : List Char → Bool
  | [y₁, y₂, y₃, y₄, '-', m₁, m₂, '-', d₁, d₂] =>
    match fieldValue? [y₁, y₂, y₃, y₄], fieldValue? [m₁, m₂], fieldValue? [d₁, d₂] with
    | some year, some month, some day =>
      1 ≤ month && month ≤ 12 && 1 ≤ day && day ≤ daysOf year month
    | _, _, _ => false
  | _ => false

/-- Whether a text is the distance from universal time. -/
def isOffset : List Char → Bool
  | ['Z'] | ['z'] => true
  | [sign, h₁, h₂, ':', m₁, m₂] =>
    (sign == '+' || sign == '-') &&
      (fieldValue? [h₁, h₂]).any (· ≤ 23) && (fieldValue? [m₁, m₂]).any (· ≤ 59)
  | _ => false

/-- Whether a text is a time of day, with an offset or without one. -/
def isTime (withOffset : Bool) : List Char → Bool
  | h₁ :: h₂ :: ':' :: m₁ :: m₂ :: ':' :: s₁ :: s₂ :: rest =>
    let afterFraction := match rest with
      | '.' :: c :: tail => if c.isDigit then some (tail.dropWhile Char.isDigit) else none
      | '.' :: [] => none
      | other => some other
    (fieldValue? [h₁, h₂]).any (· ≤ 23) && (fieldValue? [m₁, m₂]).any (· ≤ 59) &&
      (fieldValue? [s₁, s₂]).any (· ≤ 60) &&
      afterFraction.any fun tail => tail.isEmpty || (withOffset && isOffset tail)
  | _ => false

/-- Whether a run is a date, a time, or both with a mark between them. -/
def isDateTime (text : List Char) : Bool :=
  isDate text || isTime false text ||
    match text.drop 10 with
    | 'T' :: time | 't' :: time => isDate (text.take 10) && isTime true time
    | _ => false

/-! ### Any of them -/

/-- The value of a run. -/
def scalarOf? (text : List Char) : Option Value :=
  if text = "true".toList then some (.boolean true)
  else if text = "false".toList then some (.boolean false)
  else if isDateTime text then some .dateTime
  else if isFloat text then some .float
  else (integer? text).map .integer

/-- Read a value that is neither quoted nor bracketed. -/
def scalar : Reader Value := do
  let first ← Reader.takeWhile1 isRunChar
  let time ← if isDate first then
      Reader.maybe do
        Reader.char ' '
        let time ← Reader.takeWhile1 isRunChar
        if isTime true time then pure () else failure
    else pure none
  if time.isSome then pure .dateTime
  else match scalarOf? first with
    | some value => pure value
    | none => failure

end TypeEnforcement.Toml
