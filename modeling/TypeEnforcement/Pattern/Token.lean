/-
The tokens of the pattern syntax.

* `Token` — what the syntax is made of: characters, sets, anchors, repetitions and group signs;
* `Token.read` — the first token of a text, and the rest;
* `Token.readAll` — the tokens of a text, or nothing where one cannot be read.

Design notes.  A group sign carries the flags that it sets, and a literal or a dot is a token of its
own because its meaning depends on the flags at its place.

The syntax is idealised where patterns of paths have no use for it.  Verbose mode, carriage returns
as line ends, classes cut down to ASCII by a flag, classes of Unicode properties and the word edges
`\<`, `\>` and `\b{start}` with its kin are not read: a text that asks for them is no pattern here.
Names of groups are read and forgotten, so that two groups may have one name.
-/
import TypeEnforcement.Pattern.Bracket
import TypeEnforcement.Text.Numeral

namespace TypeEnforcement

/-- What a pattern says about flags at one place; a flag that is not mentioned keeps its value. -/
structure FlagChange where
  ignoreCase : Option Bool := none
  multiLine : Option Bool := none
  dotAll : Option Bool := none
deriving DecidableEq

/-- The change with one more flag turned on or off, by its letter.  Two letters make no difference
to what a pattern matches here, and the second of them cannot be turned off. -/
def FlagChange.set? (flags : FlagChange) (on : Bool) : Char → Option FlagChange
  | 'i' => some { flags with ignoreCase := some on }
  | 'm' => some { flags with multiLine := some on }
  | 's' => some { flags with dotAll := some on }
  | 'U' => some flags
  | 'u' => if on then some flags else none
  | _ => none

/-- A token of the pattern syntax. -/
inductive Token where
  | literal (c : Char)
  | dot
  | set (s : CharSet)
  | caret
  | dollar
  | anchor (a : Anchor)
  | repetition (lo : Nat) (hi : Option Nat)
  | openGroup (flags : FlagChange)
  | setFlags (flags : FlagChange)
  | closeGroup
  | bar
deriving DecidableEq

namespace Token

/-- The text after a repetition sign: a question mark there only asks for a short match, which
makes no difference to whether there is one. -/
def skipLazyMark : List Char → List Char
  | '?' :: rest => rest
  | text => text

/-- The greatest repetition count. -/
def maxCount : Nat := 4294967295

/-- A repetition count with blanks around it. -/
def readCount (text : List Char) : Option (Nat × List Char) :=
  let text := text.dropWhile Text.isBlank
  let digits := text.takeWhile Char.isDigit
  let rest := (text.dropWhile Char.isDigit).dropWhile Text.isBlank
  let value := Text.digitsValue digits
  if digits.isEmpty ∨ value > maxCount then none else some (value, rest)

/-- A counted repetition from at least `lo` copies, after the comma. -/
def readUpperCount (lo : Nat) (text : List Char) : Option (Token × List Char) :=
  if text.head? = some '}' then some (repetition lo none, skipLazyMark text.tail)
  else do
    let (hi, rest) ← readCount text
    match rest with
    | '}' :: rest => if lo ≤ hi then some (repetition lo (some hi), skipLazyMark rest) else none
    | _ => none

/-- A counted repetition after its opening brace. -/
def readCounts (text : List Char) : Option (Token × List Char) := do
  let (lo, rest) ← readCount text
  match rest with
  | '}' :: rest => some (repetition lo (some lo), skipLazyMark rest)
  | ',' :: rest => readUpperCount lo rest
  | _ => none

/-- The flags of a group sign, up to the colon or parenthesis that ends them.  A minus sign turns
the flags after it off; no flag may be written twice. -/
def readFlags (seen : List Char) (negated : Bool) (flags : FlagChange) :
    List Char → Option (Token × List Char)
  | [] => none
  | c :: rest =>
    if c = ':' then
      if negated ∧ seen.head? = some '-' then none else some (openGroup flags, rest)
    else if c = ')' then
      if seen.isEmpty ∨ seen.head? = some '-' then none else some (setFlags flags, rest)
    else if c ∈ seen then none
    else if c = '-' then readFlags (c :: seen) true flags rest
    else match flags.set? (!negated) c with
      | some flags => readFlags (c :: seen) negated flags rest
      | none => none

/-- The name of a group up to its closing angle bracket: a letter or underscore, then letters,
digits, underscores, dots and brackets. -/
def readGroupName (text : List Char) : Option (Token × List Char) :=
  let name := text.takeWhile (· ≠ '>')
  match name, text.dropWhile (· ≠ '>') with
  | c :: more, _ :: rest =>
    if (c = '_' ∨ (Text.isWord c ∧ ¬Text.isDecimal c)) ∧
        more.all (fun d => Text.isWord d || d ∈ ['.', '[', ']']) then
      some (openGroup {}, rest)
    else none
  | _, _ => none

/-- The sign that opens a group, after its parenthesis and question mark: a name or flags.  What
stands behind a place cannot be looked at. -/
def readGroupKind (text : List Char) : Option (Token × List Char) :=
  if text.head? = some '<' then
    if text.tail.head? = some '=' ∨ text.tail.head? = some '!' then none
    else readGroupName text.tail
  else if text.head? = some 'P' ∧ text.tail.head? = some '<' then readGroupName text.tail.tail
  else readFlags [] false {} text

/-- The sign that opens a group, after its parenthesis. -/
def readGroup (text : List Char) : Option (Token × List Char) :=
  if text.head? = some '?' then readGroupKind text.tail else some (openGroup {}, text)

/-- The first token of a text, given by its first character and the others. -/
def read (c : Char) (rest : List Char) : Option (Token × List Char) :=
  match c with
  | '.' => some (dot, rest)
  | '^' => some (caret, rest)
  | '$' => some (dollar, rest)
  | '|' => some (bar, rest)
  | ')' => some (closeGroup, rest)
  | '(' => readGroup rest
  | '[' => (CharSet.readBracket rest).map fun (s, after) => (set s, after)
  | '*' => some (repetition 0 none, skipLazyMark rest)
  | '+' => some (repetition 1 none, skipLazyMark rest)
  | '?' => some (repetition 0 (some 1), skipLazyMark rest)
  | '{' => readCounts rest
  | '\\' =>
    match Escape.read rest with
    | some (.literal d, after) => some (literal d, after)
    | some (.set s, after) => some (set s, after)
    | some (.anchor a, after) => some (anchor a, after)
    | none => none
  | c => some (literal c, rest)

/-- The tokens of a text.  Every token takes its first character at least, which the length test
records. -/
def readAll : List Char → Option (List Token)
  | [] => some []
  | c :: rest =>
    match read c rest with
    | none => none
    | some (token, after) =>
      if after.length ≤ rest.length then (readAll after).map (token :: ·) else none
termination_by text => text.length
decreasing_by
  simp only [List.length_cons]
  omega

end Token

end TypeEnforcement
