/-
The commands of the program.

* `Environment` — the variables that the program looks at;
* `Outcome` — the lines that the program writes, and how it ends;
* `Invocation.run` — a command carried out;
* `runProgram` — the program.
-/
import TypeEnforcement.Build
import TypeEnforcement.CommandLine.Arguments
import TypeEnforcement.Engine
import TypeEnforcement.Project.Document

namespace TypeEnforcement

/-- The variables that the program looks at. -/
structure Environment where
  /-- The file of the settings. -/
  settingsFile : Option String := none
  /-- The directory for the configuration of the user. -/
  configurationHome : Option String := none
  /-- The home directory of the user. -/
  home : Option String := none

/-- What the program writes, and how it ends. -/
structure Outcome where
  /-- The lines of the output. -/
  output : List String := []
  /-- Why the program failed, if it did. -/
  failure : Option String := none
  exitCode : UInt32 := 0

namespace Outcome

/-- The program has done what it was asked to do. -/
def done (output : List String) : Outcome :=
  { output }

def failed (output : List String) (reason : String) : Outcome :=
  { output, failure := some reason, exitCode := 1 }

end Outcome

namespace Invocation

def programName : String := "confine"

def programVersion : String := "0.1.0"

def systemSettingsPath : String := "/etc/confine/confine.toml"

variable {m : Type → Type} [Monad m] (machine : Machine m)

def loadSettings (path : String) : m (Option Settings) := do
  pure ((← machine.readText path).bind Settings.parse?)

def userSettingsPath (environment : Environment) : Option String :=
  let home := environment.home.filter (· ≠ "")
  let directory := (environment.configurationHome.filter Path.isAbsolute).or
    (home.map (Path.join · ".config"))
  directory.map (Path.joinAll · ["confine", "confine.toml"])

/-- The settings where they are usually found: in the file that the environment names, in the file
of the system, or in that of the user.  Without any of them the defaults hold. -/
def discoverSettings (environment : Environment) : m (Option Settings) := do
  match environment.settingsFile with
  | some path => loadSettings machine path
  | none =>
    if ← machine.isFile systemSettingsPath then loadSettings machine systemSettingsPath
    else match userSettingsPath environment with
      | none => pure (some {})
      | some path =>
        if ← machine.isFile path then loadSettings machine path else pure (some {})

/-- Build the project of a file: the lines to write, and whether every module has been written. -/
def buildProject (settings : Settings) (out path : String) : m (List String × Bool) := do
  match (← machine.readText path).map Project.parse with
  | some (.ok project) =>
    let (diagnostics, result) ← Build.run machine settings project out
    let succeeded := match result with
      | .ok report => report.isSuccess
      | .error _ => false
    pure (diagnostics.map Diagnostic.text, succeeded)
  | some (.error _) | none => pure ([], false)

/-- Build projects one after another. -/
def runBuild (settings : Settings) (projects : List String) (out : String) : m Outcome := do
  if !(← machine.createDirectories out) then
    pure (.failed [] ("failed to create " ++ out))
  else
    let results ← projects.mapM (buildProject machine settings out)
    let output := results.flatMap Prod.fst
    let failures := results.countP fun result => !result.2
    if failures = 0 then pure (.done output)
    else pure (.failed output (toString failures ++ " project(s) failed to build"))

/-- Show the entry that labels a path. -/
def runLookup (settings : Settings) (path classWord : String) : m Outcome := do
  match FileClass.ofKeyword? classWord with
  | none => pure (.failed [] ("unknown file class " ++ classWord))
  | some (fileClass, _) =>
    match ← (Host.loadCatalog machine settings.system).run with
    | .error _ => pure (.failed [] "failed to load system catalog")
    | .ok catalog =>
      match catalog.lookup (LabelledFile.lookupPath path) fileClass with
      | some (tier, entry) =>
        pure (.done [tier.word ++ "\t" ++ entry.pattern ++ "\t" ++ entry.label.text])
      | none => pure (.failed [] ("no label covers " ++ path))

/-- Show whether a module is installed. -/
def runStatus (settings : Settings) (name : String) : m Outcome := do
  let policyType ← Host.policyType machine settings.system
  match ← ((settings.moduleStore policyType).status machine name).run with
  | .ok status => pure (.done [name ++ ": " ++ status.text])
  | .error _ => pure (.failed [] ("failed to query module " ++ name))

def runCommand (settings : Settings) : Command → m Outcome
  | .build projects out packaging engine =>
    if (Engine.find? engine).isNone then pure (.failed [] ("unknown engine " ++ engine))
    else
      let tools := { settings.tools with enabled := settings.tools.enabled && packaging }
      runBuild machine { settings with tools } projects out
  | .lookup path classWord => runLookup machine settings path classWord
  | .engines =>
    pure (.done (Engine.all.map fun engine => engine.name ++ "\t" ++ engine.description))
  | .status name engine =>
    if (Engine.find? engine).isNone then pure (.failed [] ("unknown engine " ++ engine))
    else runStatus machine settings name

/-- Carry out what the program is asked to do. -/
def run (environment : Environment) (invocation : Invocation) : m Outcome := do
  let logsReady ← match invocation.logDirectory with
    | some path => machine.createDirectories path
    | none => pure true
  if !logsReady then
    pure (.failed [] ("failed to create logs directory " ++ invocation.logDirectory.getD ""))
  else
    match invocation.settings with
    | some path =>
      match ← loadSettings machine path with
      | some settings => runCommand machine settings invocation.command
      | none => pure (.failed [] ("failed to load settings " ++ path))
    | none =>
      match ← discoverSettings machine environment with
      | some settings => runCommand machine settings invocation.command
      | none => pure (.failed [] "failed to discover settings")

end Invocation

/-- The program: its arguments read and carried out. -/
def runProgram {m : Type → Type} [Monad m] (machine : Machine m) (environment : Environment)
    (arguments : List String) : m Outcome :=
  match Invocation.parse arguments with
  | .ok invocation => invocation.run machine environment
  | .error .version => pure (.done [Invocation.programName ++ " " ++ Invocation.programVersion])
  | .error .help => pure (.done [])
  | .error .misuse => pure { exitCode := 2 }

end TypeEnforcement
