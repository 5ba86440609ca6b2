/-
Reading configuration documents.

A document is a list of statements, one a line: a key with its value, the header of a table, or the
header of one more table of an array.  The value of a document is the table that its statements
build.

* `value` — the reader of values;
* `Statement`, `statement` — the lines;
* `Statement.apply` — what a line adds to the document;
* `parse?` — the table of a document.
-/
import TypeEnforcement.Toml.Scalar
import TypeEnforcement.Toml.Table

namespace TypeEnforcement.Toml

/-! ### Blanks and keys -/

def skipBlanks : Reader Unit :=
  Reader.skipWhile isBlank

/-- Take the end of a line. -/
def lineEnd : Reader Unit := fun input =>
  match input with
  | '\n' :: rest | '\r' :: '\n' :: rest => some ((), rest)
  | _ => none

/-- Take the end of a line or of the document. -/
def lineEndOrEnd : Reader Unit := fun input =>
  if input.isEmpty then some ((), []) else lineEnd input

/-- Take a comment up to the end of the line. -/
def comment : Reader Unit := do
  Reader.char '#'
  Reader.skipWhile isPlain

/-- Skip blanks, line ends and comments that end with a line. -/
def skipSpace : Reader Unit := do
  skipBlanks
  let _ ← Reader.many do
    let _ ← Reader.maybe comment
    lineEnd
    skipBlanks

/-- Whether a character may stand in a key without quotes. -/
def isBareKeyChar (c : Char) : Bool :=
  c.isAlphanum || c == '_' || c == '-'

/-- Read one part of a key, with the blanks around it. -/
def keyPart : Reader String := do
  skipBlanks
  let next ← Reader.peek
  let part ← if next = some '"' || next = some '\'' then quotedKey
    else (String.ofList ·) <$> Reader.takeWhile1 isBareKeyChar
  skipBlanks
  pure part

/-- The most parts that a key may have, and the depth to which values may nest. -/
def maxDepth : Nat := 79

/-- Read a key: its path and its last part. -/
def key : Reader (List String × String) := do
  let parts ← Reader.sepBy1 keyPart (Reader.char '.')
  match parts.getLast? with
  | some last => if parts.length ≤ maxDepth then pure (parts.dropLast, last) else failure
  | none => failure

/-! ### Values -/

/-- Read the rest of an array after its opening bracket. -/
def arrayRest (value : Reader Value) : Reader Value := do
  let items ← Reader.maybe (Reader.sepBy1 (do
    skipSpace
    let item ← value
    skipSpace
    pure item) (Reader.char ','))
  if items.isSome then
    let _ ← Reader.maybe (Reader.char ',')
  skipSpace
  Reader.char ']'
  pure (.array (items.getD []))

/-- Read the rest of a table after its opening brace. -/
def inlineTableRest (value : Reader Value) : Reader Value := do
  let pairs ← Reader.maybe (Reader.sepBy1 (do
    let (path, last) ← key
    Reader.char '='
    skipBlanks
    let item ← value
    skipBlanks
    pure (path, last, item)) (Reader.char ','))
  skipBlanks
  Reader.char '\x7d'
  let built := (pairs.getD []).foldlM (fun (entries : Entries) (path, last, item) =>
    entries.assign path last item .inline) []
  match built with
  | some entries => pure (.table .inline entries)
  | none => failure

/-- Read a value without brackets or braces. -/
def leaf : Reader Value :=
  (.string <$> quotedText) <|> scalar

/-- Read a value that nests no deeper than `depth`. -/
def value : Nat → Reader Value
  | 0 => leaf
  | depth + 1 => do
    match ← Reader.peek with
    | some '[' =>
      Reader.char '['
      arrayRest (value depth)
    | some '\x7b' =>
      Reader.char '\x7b'
      inlineTableRest (value depth)
    | _ => leaf

/-! ### Statements -/

/-- A line of a document. -/
inductive Statement where
  | assign (path : List String) (key : String) (value : Value)
  | openTable (path : List String) (key : String)
  | pushTable (path : List String) (key : String)

/-- Read a statement up to the end of its line. -/
def statement : Reader Statement := do
  let read ← (do
    Reader.literal "[["
    let (path, last) ← key
    Reader.literal "]]"
    pure (.pushTable path last)) <|> (do
    Reader.char '['
    let (path, last) ← key
    Reader.char ']'
    pure (.openTable path last)) <|> (do
    let (path, last) ← key
    Reader.char '='
    skipBlanks
    let item ← value maxDepth
    pure (.assign path last item))
  skipBlanks
  let _ ← Reader.maybe comment
  lineEndOrEnd
  pure read

/-- Read all statements of a document. -/
def statements : Reader (List Statement) := do
  let _ ← Reader.maybe (Reader.char '\ufeff')
  skipSpace
  let read ← Reader.many (do
    let read ← statement
    skipSpace
    pure read)
  let _ ← Reader.maybe comment
  pure read

/-- A document under construction: its table, and the path of the table whose header came last. -/
structure Draft where
  entries : Entries := []
  opened : List String := []

/-- Add a statement to a document. -/
def Statement.apply (draft : Draft) : Statement → Option Draft
  | .assign path key value =>
    (Entries.descend false (fun form inner => Entries.assign path key value inner form)
      draft.opened .header draft.entries).map ({ draft with entries := · })
  | .openTable path key =>
    (draft.entries.openTable path key).map (⟨·, path ++ [key]⟩)
  | .pushTable path key =>
    (draft.entries.pushTable path key).map (⟨·, path ++ [key]⟩)

/-- The table of a document. -/
def parse? (text : String) : Option Value := do
  let read ← Reader.whole statements text.toList
  let draft ← read.foldlM Statement.apply {}
  some (.table .header draft.entries)

end TypeEnforcement.Toml
