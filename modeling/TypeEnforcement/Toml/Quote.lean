/-
Quoted texts of configuration documents.

A text stands between quotes or apostrophes.  Between quotes a backslash begins an escape; between
apostrophes every character stands for itself.  Three opening marks begin a text that may run over
lines.

* `basicBody`, `literalBody` — texts on one line;
* `multilineBasicBody`, `multilineLiteralBody` — texts that may run over lines;
* `quotedKey`, `quotedText` — the readers that choose among them.
-/
import TypeEnforcement.Text.Hexadecimal
import TypeEnforcement.Text.Reader

namespace TypeEnforcement.Toml

/-- The blanks inside a line. -/
def isBlank (c : Char) : Bool :=
  c == ' ' || c == '\t'

/-- The characters that may stand in a text or a comment: all but the controls; a tab may. -/
def isPlain (c : Char) : Bool :=
  c == '\t' || (0x20 ≤ c.toNat && c.toNat ≠ 0x7f)

/-- The character that a letter after a backslash stands for. -/
def escapeOf? : Char → Option Char
  | 'b' => some '\x08'
  | 't' => some '\t'
  | 'n' => some '\n'
  | 'f' => some '\x0c'
  | 'r' => some '\r'
  | '"' => some '"'
  | '\\' => some '\\'
  | _ => none

/-- Put a character, if there is one, in front of a reading. -/
def emit (c : Option Char) (reading : Option (List Char × List Char)) :
    Option (List Char × List Char) :=
  c.bind fun c => reading.map fun (text, rest) => (c :: text, rest)

/-- The text up to the closing quote of a line, and what follows the quote. -/
def basicBody : List Char → Option (List Char × List Char)
  | [] => none
  | '"' :: rest => some ([], rest)
  | '\\' :: 'u' :: a :: b :: c :: d :: rest => emit (Text.charOfHex? [a, b, c, d]) (basicBody rest)
  | '\\' :: 'U' :: a :: b :: c :: d :: e :: f :: g :: h :: rest =>
    emit (Text.charOfHex? [a, b, c, d, e, f, g, h]) (basicBody rest)
  | '\\' :: c :: rest => emit (escapeOf? c) (basicBody rest)
  | c :: rest => if isPlain c && c != '\\' then emit (some c) (basicBody rest) else none

/-- The text up to the closing apostrophe of a line, and what follows the apostrophe. -/
def literalBody : List Char → Option (List Char × List Char)
  | [] => none
  | '\'' :: rest => some ([], rest)
  | c :: rest => if isPlain c then emit (some c) (literalBody rest) else none

/-- Whether only blanks stand before the end of a line. -/
def isLineRest (text : List Char) : Bool :=
  match text.dropWhile isBlank with
  | '\n' :: _ | '\r' :: '\n' :: _ => true
  | _ => false

/-- The text up to three closing quotes, and what follows them; one or two further quotes before
them belong to the text.  A backslash at the end of a line takes all blanks and line ends that
follow; while it does, `skip` is set. -/
def multilineBasicBody : Bool → List Char → Option (List Char × List Char)
  | _, [] => none
  | true, '\r' :: '\n' :: rest => multilineBasicBody true rest
  | _, '"' :: '"' :: '"' :: '"' :: '"' :: rest => some (['"', '"'], rest)
  | _, '"' :: '"' :: '"' :: '"' :: rest => some (['"'], rest)
  | _, '"' :: '"' :: '"' :: rest => some ([], rest)
  | false, '\r' :: '\n' :: rest => emit (some '\n') (multilineBasicBody false rest)
  | _, '\\' :: 'u' :: a :: b :: c :: d :: rest =>
    emit (Text.charOfHex? [a, b, c, d]) (multilineBasicBody false rest)
  | _, '\\' :: 'U' :: a :: b :: c :: d :: e :: f :: g :: h :: rest =>
    emit (Text.charOfHex? [a, b, c, d, e, f, g, h]) (multilineBasicBody false rest)
  | _, '\\' :: c :: rest =>
    if isLineRest (c :: rest) then multilineBasicBody true (c :: rest)
    else emit (escapeOf? c) (multilineBasicBody false rest)
  | skip, c :: rest =>
    if skip && (isBlank c || c == '\n') then multilineBasicBody true rest
    else if (isPlain c && c != '\\') || c == '\n' then
      emit (some c) (multilineBasicBody false rest)
    else none

/-- The text up to three closing apostrophes, and what follows them; one or two further
apostrophes before them belong to the text. -/
def multilineLiteralBody : List Char → Option (List Char × List Char)
  | [] => none
  | '\'' :: '\'' :: '\'' :: '\'' :: '\'' :: rest => some (['\'', '\''], rest)
  | '\'' :: '\'' :: '\'' :: '\'' :: rest => some (['\''], rest)
  | '\'' :: '\'' :: '\'' :: rest => some ([], rest)
  | '\r' :: '\n' :: rest => emit (some '\n') (multilineLiteralBody rest)
  | c :: rest =>
    if isPlain c || c == '\n' then emit (some c) (multilineLiteralBody rest) else none

/-- A text without the line end that it begins with. -/
def dropLineEnd : List Char → List Char
  | '\n' :: rest | '\r' :: '\n' :: rest => rest
  | text => text

/-- Read a text in quotes or apostrophes on one line. -/
def quotedKey : Reader String := fun input =>
  let reading := match input with
    | '"' :: rest => basicBody rest
    | '\'' :: rest => literalBody rest
    | _ => none
  reading.map fun (text, rest) => (String.ofList text, rest)

/-- Read a text in quotes or apostrophes of any kind. -/
def quotedText : Reader String := fun input =>
  match input with
  | '"' :: '"' :: '"' :: rest =>
    (multilineBasicBody false (dropLineEnd rest)).map fun (text, rest) => (String.ofList text, rest)
  | '\'' :: '\'' :: '\'' :: rest =>
    (multilineLiteralBody (dropLineEnd rest)).map fun (text, rest) => (String.ofList text, rest)
  | _ => quotedKey input

end TypeEnforcement.Toml
