/-
The program on a real machine.

* `realMachine` — the files of the machine that the program runs on;
* `main` — the program.
-/
import TypeEnforcement.CommandLine.Basic

namespace TypeEnforcement

def succeeds {α : Type} (action : IO α) : IO Bool := do
  try
    let _ ← action
    pure true
  catch _ => pure false

/-- Whether there is something at a path. -/
def existsOnDisk (path : String) : IO Bool :=
  succeeds (IO.FS.realPath path)

/-- Whether there is a directory at a path: only a directory holds an entry that is itself. -/
def isDirectoryOnDisk (path : String) : IO Bool :=
  existsOnDisk (path ++ "/.")

def listOnDisk (path : String) : IO DirectoryListing := do
  try
    let entries ← (← IO.FS.realPath path).readDir
    pure (.entries (entries.toList.map (·.fileName)))
  catch
    | .noFileOrDirectory .. => pure .missing
    | _ => pure .unreadable

/-- The files of the machine that the program runs on.  No tools are started from here, so that
modules are written in source form only. -/
def realMachine : Machine IO where
  readFile path := do
    try
      pure (some (← IO.FS.readBinFile path))
    catch _ => pure none
  listDirectory := listOnDisk
  isDirectory := isDirectoryOnDisk
  isFile path := return (← existsOnDisk path) && !(← isDirectoryOnDisk path)
  pathExists := existsOnDisk
  createDirectories path := succeeds (IO.FS.createDirAll path)
  writeFile path content := succeeds (IO.FS.writeFile path content)
  removeTree path := do
    let _ ← succeeds (IO.FS.removeDirAll path)
  runTool _ _ := pure none

/-- The variables that the program looks at, on the machine that it runs on. -/
def realEnvironment : IO Environment := do
  pure {
    settingsFile := ← IO.getEnv "CONFINE_SETTINGS"
    configurationHome := ← IO.getEnv "XDG_CONFIG_HOME"
    home := ← IO.getEnv "HOME" }

end TypeEnforcement

open TypeEnforcement in
def main (arguments : List String) : IO UInt32 := do
  let outcome ← runProgram realMachine (← realEnvironment) arguments
  for line in outcome.output do
    IO.println line
  match outcome.failure with
  | some reason => IO.eprintln ("Error: " ++ reason)
  | none => pure ()
  pure outcome.exitCode
