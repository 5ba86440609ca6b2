/-
Texts quoted for messages.

A quoted text stands between double quotes.  Quotes and backslashes inside it carry a backslash,
the common controls have letters, and every other hidden character is written by its code point.

* `quoteChar` — the written form of one character;
* `quoted` — the written form of a text.
-/
import TypeEnforcement.Text.Printable

namespace TypeEnforcement.Text

/-- The code point of a character between braces, in lower-case hexadecimal without padding. -/
def codePointEscape (c : Char) : List Char :=
  "\\u\x7b".toList ++ Nat.toDigits 16 c.toNat ++ ['\x7d']

/-- The form of a character inside quotes. -/
def quoteChar (c : Char) : List Char :=
  match c with
  | '\x00' => "\\0".toList
  | '\t' => "\\t".toList
  | '\n' => "\\n".toList
  | '\r' => "\\r".toList
  | '"' => "\\\"".toList
  | '\\' => "\\\\".toList
  | c => if isHidden c then codePointEscape c else [c]

/-- A text between quotes, with the characters that need it escaped. -/
def quoted (text : String) : String :=
  String.ofList ('"' :: text.toList.flatMap quoteChar ++ ['"'])

end TypeEnforcement.Text
