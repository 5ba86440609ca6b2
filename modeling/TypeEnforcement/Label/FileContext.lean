/-
File contexts: which paths get which label.

An entry binds a pattern and a class to a label.  It answers for the paths that its pattern matches
from end to end, unless it was made without a label or masked since.

* `FileContext` — an entry, with its pattern compiled once;
* `FileContext.covers` — whether an entry labels a path;
* `FileContext.line`, `FileContext.parse?` — the line of an entry in a file-context file;
* `FileContext.parseAll` — the entries of such a file.
-/
import TypeEnforcement.Label.Basic
import TypeEnforcement.Label.FileClass
import TypeEnforcement.Path.Glob
import TypeEnforcement.Pattern.Parser

namespace TypeEnforcement

/-- A pattern and a class bound to a label. -/
structure FileContext where
  pattern : String
  fileClass : FileClass
  label : Label
  /-- Whether the entry may label anything. -/
  valid : Bool
  /-- The compiled pattern. -/
  matcher : Option Pattern
  matcher_eq : matcher = Pattern.compile pattern

namespace FileContext

/-- An entry.  It is valid if its pattern can be read and it has a label. -/
def bind (pattern : String) (fileClass : FileClass) (label : Label) : FileContext :=
  let matcher := Pattern.compile pattern
  { pattern, fileClass, label, valid := matcher.isSome && label ≠ {}, matcher, matcher_eq := rfl }

/-- An entry that labels nothing; it is kept because it has its pattern. -/
def unlabelled (pattern : String) (fileClass : FileClass) : FileContext :=
  { bind pattern fileClass {} with valid := false }

/-- The entry made unable to label anything. -/
def mask (entry : FileContext) : FileContext :=
  { entry with valid := false }

/-- The part of the pattern before its first special character. -/
def literalStart (entry : FileContext) : List Char :=
  Path.fixedStart entry.pattern.toList

/-- Whether the pattern has special characters. -/
def isWildcard (entry : FileContext) : Bool :=
  entry.literalStart.length ≠ entry.pattern.toList.length

/-- The number of bytes before the first special character of a pattern that has one. -/
def specificity (entry : FileContext) : Nat :=
  if entry.isWildcard then (String.ofList entry.literalStart).utf8ByteSize else 0

/-- Whether the entry labels a path that is asked for as an object of a class. -/
def covers (entry : FileContext) (path : String) (fileClass : FileClass) : Bool :=
  entry.valid && decide (entry.fileClass.Compatible fileClass) &&
    entry.matcher.any (·.search path.toList)

/-! ### Lines of file-context files -/

/-- The line of an entry, with its line feed. -/
def line (entry : FileContext) : String :=
  let sign := match entry.fileClass with
    | .any => "  "
    | c => c.sign
  entry.pattern ++ "\t" ++ sign ++ "\t" ++ entry.label.text ++ "\n"

/-- Read an entry from the words of a line: a pattern, perhaps a class, and a label.  Any text
stands for a label; one that is none makes an entry that labels nothing. -/
def parse? (line : String) : Option FileContext :=
  let make (pattern : String) (fileClass : FileClass) (text : String) : FileContext :=
    match Label.parse? text with
    | some label => bind pattern fileClass label
    | none => unlabelled pattern fileClass
  match Text.words line with
  | [pattern, text] => some (make pattern .any text)
  | [pattern, sign, text] => (FileClass.ofSign? sign).map fun c => make pattern c text
  | _ => none

/-- The entries of a file-context file.  Comments, empty lines and lines that are no entry are
skipped. -/
def parseAll (text : String) : List FileContext :=
  ((Text.lines text).filter fun line => !line.isEmpty && line.front != '#').filterMap parse?

/-- The entry with one type in place of another in its label. -/
def renameType (entry : FileContext) (source target : String) : FileContext :=
  { entry with label := entry.label.renameType source target }

@[simp] theorem pattern_mask (entry : FileContext) : entry.mask.pattern = entry.pattern := rfl

@[simp] theorem covers_mask (entry : FileContext) (path : String) (fileClass : FileClass) :
    entry.mask.covers path fileClass = false := by
  simp [covers, mask]

end FileContext

end TypeEnforcement
