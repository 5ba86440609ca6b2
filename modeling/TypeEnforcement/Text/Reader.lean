/-
Readers: functions that take something off the front of a text.

A reader answers what it read and the rest of the text, or nothing if the text does not begin with
what it looks for.  A reader that fails takes nothing, so another one may try the same text.

* `Reader.literal`, `Reader.takeWhile` — the leaves;
* `Reader.many` — one thing as often as it comes;
* `Reader.findAll` — one thing wherever it comes;
* `Reader.whole` — the reading of a text from end to end.
-/
import TypeEnforcement.Text.Split

namespace TypeEnforcement

/-- A function that takes something off the front of a text. -/
abbrev Reader (α : Type) := StateT (List Char) Option α

namespace Reader

variable {α : Type}

/-- The next character, which stays where it is. -/
def peek : Reader (Option Char) := fun input =>
  some (input.head?, input)

/-- Take a known text. -/
def literal (text : String) : Reader Unit := fun input =>
  (Text.dropStart? text.toList input).map ((), ·)

/-- Take one known character. -/
def char (c : Char) : Reader Unit
  | [] => none
  | d :: rest => if d = c then some ((), rest) else none

/-- Take the characters up to the first that does not satisfy `p`. -/
def takeWhile (p : Char → Bool) : Reader (List Char) := fun input =>
  some (input.takeWhile p, input.dropWhile p)

/-- Take at least one character that satisfies `p`, and all of the kind that follow. -/
def takeWhile1 (p : Char → Bool) : Reader (List Char) := do
  let taken ← takeWhile p
  if taken.isEmpty then failure else pure taken

/-- Drop the characters up to the first that does not satisfy `p`. -/
def skipWhile (p : Char → Bool) : Reader Unit := fun input =>
  some ((), input.dropWhile p)

/-- Read something if it comes. -/
def maybe (item : Reader α) : Reader (Option α) := fun input =>
  match item input with
  | some (value, rest) => some (some value, rest)
  | none => some (none, input)

/-- Read something at most `bound` times, until it does not come. -/
def manyUpTo (item : Reader α) : Nat → Reader (List α)
  | 0 => pure []
  | bound + 1 => fun input =>
    match item input with
    | none => some ([], input)
    | some (value, rest) => (manyUpTo item bound rest).map fun (values, rest) =>
        (value :: values, rest)

/-- Read something as often as it comes.  What is read takes at least one character each time, so
the length of the text bounds the number. -/
def many (item : Reader α) : Reader (List α) := fun input =>
  manyUpTo item input.length input

/-- Read one or more things with something between each two. -/
def sepBy1 (item : Reader α) (separator : Reader Unit) : Reader (List α) := do
  let first ← item
  let others ← many (do separator; item)
  pure (first :: others)

/-- What is read where it comes in the first `bound` places of a text; what is read is skipped. -/
def findUpTo (item : Reader α) : Nat → List Char → List α
  | 0, _ => []
  | _, [] => []
  | bound + 1, c :: rest =>
    match item (c :: rest) with
    | some (value, after) => value :: findUpTo item bound after
    | none => findUpTo item bound rest

/-- Everything that is read somewhere in a text, from left to right without overlaps. -/
def findAll (item : Reader α) (text : List Char) : List α :=
  findUpTo item text.length text

/-- The reading of a text from end to end. -/
def whole (item : Reader α) (text : List Char) : Option α :=
  match item text with
  | some (value, []) => some value
  | _ => none

end Reader

end TypeEnforcement
