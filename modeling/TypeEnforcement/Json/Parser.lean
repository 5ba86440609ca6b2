/-
Reading values of project documents.

The grammar is taken strictly: no comments, no commas at the end, no zeros in front of a number, no
control characters in texts, and nothing but blanks around the value.

* `unitsOf` — the code units of a text;
* `value` — the reader of values;
* `parse?` — the value of a document.
-/
import TypeEnforcement.Json.Value
import TypeEnforcement.Text.Hexadecimal
import TypeEnforcement.Text.Reader

namespace TypeEnforcement.Json

/-- The blanks between tokens. -/
def isBlank (c : Char) : Bool :=
  c == ' ' || c == '\n' || c == '\t' || c == '\r'

def skipBlanks : Reader Unit :=
  Reader.skipWhile isBlank

/-! ### Texts -/

/-- The character that a letter after a backslash stands for. -/
def escapeOf? : Char → Option Char
  | '"' => some '"'
  | '\\' => some '\\'
  | '/' => some '/'
  | 'b' => some '\x08'
  | 'f' => some '\x0c'
  | 'n' => some '\n'
  | 'r' => some '\r'
  | 't' => some '\t'
  | _ => none

/-- Put a code unit, if there is one, in front of a reading. -/
def emit (unit : Option Nat) (reading : Option (List Nat × List Char)) :
    Option (List Nat × List Char) :=
  unit.bind fun unit => reading.map fun (units, rest) => (unit :: units, rest)

/-- The code units up to the closing quote, and what follows the quote.  A character is one unit;
escapes may also name the halves of a surrogate pair. -/
def unitsOf : List Char → Option (List Nat × List Char)
  | [] => none
  | '"' :: rest => some ([], rest)
  | '\\' :: 'u' :: a :: b :: c :: d :: rest => emit (Text.hexNumber? [a, b, c, d]) (unitsOf rest)
  | '\\' :: c :: rest => emit ((escapeOf? c).map Char.toNat) (unitsOf rest)
  | c :: rest => if c.toNat < 0x20 || c == '\\' then none else emit (some c.toNat) (unitsOf rest)

/-- Whether a code unit is the first half of a surrogate pair. -/
def isHighHalf (unit : Nat) : Bool :=
  0xd800 ≤ unit && unit ≤ 0xdbff

/-- Whether a code unit is the second half of a surrogate pair. -/
def isLowHalf (unit : Nat) : Bool :=
  0xdc00 ≤ unit && unit ≤ 0xdfff

/-- The characters of code units, unless a half of a pair stands alone. -/
def charsOf? : List Nat → Option (List Char)
  | [] => some []
  | high :: low :: rest =>
    if isHighHalf high then
      if isLowHalf low then
        (charsOf? rest).map
          (Char.ofNat (0x10000 + (high - 0xd800) * 0x400 + (low - 0xdc00)) :: ·)
      else none
    else if isLowHalf high then none
    else (charsOf? (low :: rest)).map (Char.ofNat high :: ·)
  | [unit] => if isHighHalf unit || isLowHalf unit then none else some [Char.ofNat unit]

def text : Reader (Option String) := fun input =>
  match input with
  | '"' :: rest => (unitsOf rest).map fun (units, rest) =>
    ((charsOf? units).map String.ofList, rest)
  | _ => none

/-! ### Values -/

/-- Read one or more digits. -/
def digits : Reader (List Char) :=
  Reader.takeWhile1 Char.isDigit

def number : Reader Value := do
  let _ ← Reader.maybe (Reader.char '-')
  let whole ← digits
  if whole.head? = some '0' && whole.length ≠ 1 then failure
  if (← Reader.peek) = some '.' then
    Reader.char '.'
    let _ ← digits
  if (← Reader.peek).any fun c => c == 'e' || c == 'E' then
    let _ ← Reader.char 'e' <|> Reader.char 'E'
    let _ ← Reader.maybe (Reader.char '+' <|> Reader.char '-')
    let _ ← digits
  pure .number

/-- Read the rest of a bracketed list after its opening bracket. -/
def listRest {α : Type} (item : Reader α) (close : Char) : Reader (List α) := do
  skipBlanks
  if (← Reader.peek) = some close then
    Reader.char close
    pure []
  else
    let items ← Reader.sepBy1 (do
      skipBlanks
      let read ← item
      skipBlanks
      pure read) (Reader.char ',')
    Reader.char close
    pure items

/-- Read a member of an object. -/
def member (value : Reader Value) : Reader (Option String × Value) := do
  let key ← text
  skipBlanks
  Reader.char ':'
  skipBlanks
  let read ← value
  pure (key, read)

/-- Read a value that nests no deeper than `depth`. -/
def value : Nat → Reader Value
  | 0 => failure
  | depth + 1 => do
    match ← Reader.peek with
    | some '"' => .string <$> text
    | some '[' =>
      Reader.char '['
      .array <$> listRest (value depth) ']'
    | some '\x7b' =>
      Reader.char '\x7b'
      .object <$> listRest (member (value depth)) '\x7d'
    | some 'n' =>
      Reader.literal "null"
      pure .null
    | some 't' =>
      Reader.literal "true"
      pure (.boolean true)
    | some 'f' =>
      Reader.literal "false"
      pure (.boolean false)
    | _ => number

/-- The value of a document.  Its length bounds the depth of its values. -/
def parse? (document : String) : Option Value :=
  let chars := document.toList
  Reader.whole (do
    skipBlanks
    let read ← value (chars.length + 1)
    skipBlanks
    pure read) chars

end TypeEnforcement.Json
