/-
The machine: files and tools, as far as the program uses them.

The program is written over this interface, so that it can be run on a real machine and reasoned
about on a model of one.

* `Machine` — what the program may ask of a machine, in a monad `m`;
* `Machine.readText` — the text of a file.
-/
import TypeEnforcement.Text.Utf8

namespace TypeEnforcement

inductive DirectoryListing where
  | entries (names : List String)
  /-- There is nothing at the path. -/
  | missing
  /-- There is something at the path that cannot be listed. -/
  | unreadable

/-- What a tool that was run has written, and whether it was content. -/
structure ToolResult where
  succeeded : Bool
  output : ByteArray
  errors : ByteArray

namespace ToolResult

def outputText (result : ToolResult) : String :=
  Text.decodeLossy result.output

def errorText (result : ToolResult) : String :=
  Text.decodeLossy result.errors

end ToolResult

/-- What the program may ask of a machine. -/
structure Machine (m : Type → Type) where
  /-- The content of a file, if it can be read. -/
  readFile : (path : String) → m (Option ByteArray)
  listDirectory : (path : String) → m DirectoryListing
  isDirectory : (path : String) → m Bool
  isFile : (path : String) → m Bool
  pathExists : (path : String) → m Bool
  /-- Make a directory and those that it lies in; whether it is there now. -/
  createDirectories : (path : String) → m Bool
  /-- Give a file a content; whether that was possible. -/
  writeFile : (path content : String) → m Bool
  /-- Remove a directory with everything in it, if that is possible. -/
  removeTree : (path : String) → m Unit
  /-- Run a tool, if it can be started. -/
  runTool : (program : String) → (arguments : List String) → m (Option ToolResult)

namespace Machine

variable {m : Type → Type} [Monad m]

/-- The text of a file, if it can be read and is a text. -/
def readText (machine : Machine m) (path : String) : m (Option String) := do
  pure ((← machine.readFile path).bind Text.decodeStrict)

end Machine

end TypeEnforcement
