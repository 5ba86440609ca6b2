/-
What an installed module declares.

The store keeps each module in the intermediate language of the policy compiler, whose statements
stand between parentheses.

* `Installed.parse` — the types and the file contexts of a module.
-/
import TypeEnforcement.Text.Reader
import TypeEnforcement.Text.WordChar

namespace TypeEnforcement

/-- What an installed module declares. -/
structure Installed where
  /-- The types that it defines. -/
  types : List String := []
  /-- The patterns of its file contexts. -/
  patterns : List String := []
deriving DecidableEq

namespace Installed

/-- Read the start of a statement up to its first argument. -/
def statementHead (keyword : String) : Reader Unit := do
  Reader.char '('
  Reader.literal keyword
  let _ ← Reader.takeWhile1 Text.isBlank

/-- Read the declaration of a type, whose name ends in `_t` as every type of a module does. -/
def typeDeclaration : Reader String := do
  statementHead "type"
  let name ← Reader.takeWhile Text.isWord
  Reader.char ')'
  match Text.dropEnd? ['_', 't'] name with
  | some (_ :: _) => pure (String.ofList name)
  | _ => failure

def fileContextPattern : Reader String := do
  statementHead "filecon"
  Reader.char '"'
  let pattern ← Reader.takeWhile (· != '"')
  Reader.char '"'
  pure (String.ofList pattern)

/-- The types and the patterns that the text of a module declares. -/
def parse (text : String) : Installed :=
  let chars := text.toList
  { types := Reader.findAll typeDeclaration chars,
    patterns := Reader.findAll fileContextPattern chars }

end Installed

end TypeEnforcement
