/-
Escapes and bracketed sets of the pattern syntax.

After a backslash stands a punctuation sign taken literally, a letter for a control character, a set
or an anchor, or a code point in hexadecimal.  Between brackets stand characters, ranges, escapes,
named ASCII classes and further brackets, joined by `&&`, `--` and `~~`.

* `Escape.read` — what follows a backslash;
* `CharSet.readBracket` — what follows an opening bracket, up to its closing one.
-/
import TypeEnforcement.Pattern.Basic
import TypeEnforcement.Text.Hexadecimal

namespace TypeEnforcement

inductive Escape where
  | literal (c : Char)
  | set (s : CharSet)
  | anchor (a : Anchor)

/-- A code point in braces, or of exactly `count` digits. -/
def readCodePoint (count : Nat) : List Char → Option (Char × List Char)
  | '{' :: rest =>
    match rest.dropWhile (· ≠ '}') with
    | [] => none
    | _ :: after => (Text.charOfHex? (rest.takeWhile (· ≠ '}'))).map (·, after)
  | text =>
    if text.length < count then none
    else (Text.charOfHex? (text.take count)).map (·, text.drop count)

def readCodePointEscape (count : Nat) (text : List Char) : Option (Escape × List Char) :=
  (readCodePoint count text).map fun (d, after) => (.literal d, after)

/-- What follows a backslash, and the rest of the text.  Digits, letters without a meaning here,
angle brackets and characters beyond ASCII cannot be escaped. -/
def Escape.read : List Char → Option (Escape × List Char)
  | [] => none
  | c :: rest =>
    match c with
    | 'd' => some (.set .decimal, rest)
    | 'D' => some (.set (.compl .decimal), rest)
    | 'w' => some (.set .word, rest)
    | 'W' => some (.set (.compl .word), rest)
    | 's' => some (.set .blank, rest)
    | 'S' => some (.set (.compl .blank), rest)
    | 'a' => some (.literal '\x07', rest)
    | 'f' => some (.literal '\x0c', rest)
    | 't' => some (.literal '\t', rest)
    | 'n' => some (.literal '\n', rest)
    | 'r' => some (.literal '\r', rest)
    | 'v' => some (.literal '\x0b', rest)
    | 'A' => some (.anchor .textStart, rest)
    | 'z' => some (.anchor .textEnd, rest)
    | 'b' => some (.anchor .wordEdge, rest)
    | 'B' => some (.anchor .noWordEdge, rest)
    | 'x' => readCodePointEscape 2 rest
    | 'u' => readCodePointEscape 4 rest
    | 'U' => readCodePointEscape 8 rest
    | c =>
      if c.toNat < 128 ∧ ¬c.isAlphanum ∧ c ≠ '<' ∧ c ≠ '>' then some (.literal c, rest) else none

namespace CharSet

/-- The ASCII classes that have names. -/
def named? (name : String) : Option CharSet :=
  let lower := range 'a' 'z'
  let upper := range 'A' 'Z'
  let digit := range '0' '9'
  match name with
  | "alnum" => some (union digit (union upper lower))
  | "alpha" => some (union upper lower)
  | "ascii" => some (range '\x00' '\x7f')
  | "blank" => some (union (single '\t') (single ' '))
  | "cntrl" => some (union (range '\x00' '\x1f') (single '\x7f'))
  | "digit" => some digit
  | "graph" => some (range '!' '~')
  | "lower" => some lower
  | "print" => some (range ' ' '~')
  | "punct" => some (union (range '!' '/') (union (range ':' '@')
      (union (range '[' (Char.ofNat 0x60)) (range '\x7b' '~'))))
  | "space" => some (union (range '\t' '\r') (single ' '))
  | "upper" => some upper
  | "word" => some (union digit (union upper (union lower (single '_'))))
  | "xdigit" => some (union digit (union (range 'A' 'F') (range 'a' 'f')))
  | _ => none

/-- The name of a class up to the colon and bracket that end it. -/
def readName? (text : List Char) : Option (CharSet × List Char) :=
  let colon := text.dropWhile (· ≠ ':')
  if colon.tail.head? = some ']' then
    (named? (String.ofList (text.takeWhile (· ≠ ':')))).map (·, colon.tail.tail)
  else none

/-- A named class after its opening bracket, such as `:digit:]` or `:^digit:]`. -/
def readNamed? (text : List Char) : Option (CharSet × List Char) :=
  if text.head? = some ':' then
    if text.tail.head? = some '^' then
      (readName? text.tail.tail).map fun (s, after) => (compl s, after)
    else readName? text.tail
  else none

/-- How two bracketed sets are joined. -/
inductive JoinOp where
  | inter
  | diff
  | symmDiff

/-- The set joined so far with the one after the sign. -/
def join (left : Option (CharSet × JoinOp)) (right : CharSet) : CharSet :=
  match left with
  | none => right
  | some (s, .inter) => inter s right
  | some (s, .diff) => diff s right
  | some (s, .symmDiff) => symmDiff s right

/-- The join that a doubled character stands for. -/
def JoinOp.ofSign? : Char → Option JoinOp
  | '&' => some .inter
  | '-' => some .diff
  | '~' => some .symmDiff
  | _ => none

/-- A join sign, and the text after it. -/
def readJoin? : List Char → Option (JoinOp × List Char)
  | c :: d :: rest => if c = d then (JoinOp.ofSign? c).map (·, rest) else none
  | _ => none

/-- The signs that are literal only at the start of a bracket: any number of dashes or one closing
bracket. -/
def readLeading (text : List Char) : CharSet × List Char :=
  if text.head? = some '-' then (single '-', text.dropWhile (· == '-'))
  else if text.head? = some ']' then (single ']', text.tail)
  else (empty, text)

/-- The start of a bracket: whether it is negated, and the signs that are literal only there. -/
def readOpening (text : List Char) : Bool × CharSet × List Char :=
  if text.head? = some '^' then (true, readLeading text.tail) else (false, readLeading text)

/-- One character or escape of a bracket. -/
def readMember : List Char → Option (Escape × List Char)
  | [] => none
  | '\\' :: rest => Escape.read rest
  | c :: rest => some (.literal c, rest)

/-- The set of one member; anchors belong to no bracket. -/
def ofMember : Escape → Option CharSet
  | .literal c => some (single c)
  | .set s => some s
  | .anchor _ => none

/-- Whether a dash that makes a range is next; before a closing bracket or before a second dash it
makes none. -/
def dashIsNext (text : List Char) : Bool :=
  text.head? == some '-' && text.tail.head? != some ']' && text.tail.head? != some '-'

/-- One member or one range of a bracket. -/
def readItem (text : List Char) : Option (CharSet × List Char) := do
  let (first, rest) ← readMember text
  if dashIsNext rest then
    let (second, rest) ← readMember rest.tail
    match first, second with
    | .literal lo, .literal hi => if lo ≤ hi then some (range lo hi, rest) else none
    | _, _ => none
  else (ofMember first).map (·, rest)

/-- The members of a bracket up to its end.  `left` is what a join sign stands after, `sofar` the
union of the members since. -/
def readMembers (fuel : Nat) (left : Option (CharSet × JoinOp)) (sofar : CharSet)
    (text : List Char) : Option (CharSet × List Char) :=
  match fuel, text with
  | 0, _ | _, [] => none
  | fuel + 1, c :: rest =>
    if c = ']' then some (join left sofar, rest)
    else if c = '[' then
      match readNamed? rest with
      | some (s, after) => readMembers fuel left (union sofar s) after
      | none =>
        let (negated, opening, more) := readOpening rest
        match readMembers fuel none opening more with
        | none => none
        | some (s, after) =>
          readMembers fuel left (union sofar (if negated then compl s else s)) after
    else match readJoin? (c :: rest) with
      | some (op, after) => readMembers fuel (some (join left sofar, op)) empty after
      | none =>
        match readItem (c :: rest) with
        | none => none
        | some (s, after) => readMembers fuel left (union sofar s) after

/-- What follows an opening bracket up to its closing one, and the rest of the text. -/
def readBracket (text : List Char) : Option (CharSet × List Char) :=
  let (negated, opening, rest) := readOpening text
  (readMembers (text.length + 1) none opening rest).map fun (s, after) =>
    (if negated then compl s else s, after)

end CharSet

end TypeEnforcement
