/-
Building a project: its modules written to files and packaged.

Each module gets a directory of its own.  A module that cannot be written or packaged leaves no
directory behind, and the others are built all the same.

* `Build.writeModule` — the files of one module;
* `Build.packageModule` — the tools run on them;
* `Build.run` — a project built, with a report on each module.
-/
import TypeEnforcement.Assembly
import TypeEnforcement.Host.Load
import TypeEnforcement.Module.Artifact
import TypeEnforcement.Module.Source
import TypeEnforcement.Store.Basic

namespace TypeEnforcement

/-- A module that has been written. -/
structure BuiltModule where
  name : String
  /-- The directory that has its files. -/
  directory : String
  /-- Whether it has been packaged. -/
  packaged : Bool
deriving DecidableEq

/-- What became of the modules of a project. -/
structure BuildReport where
  modules : List BuiltModule := []
  /-- The modules that failed, with the reason. -/
  failures : List (String × Fault) := []
deriving DecidableEq

/-- Whether every module has been written. -/
def BuildReport.isSuccess (report : BuildReport) : Bool :=
  report.failures.isEmpty

/-- The store of installed modules that the settings name. -/
def Settings.moduleStore (settings : Settings) (policyType : String) : ModuleStore :=
  { root := settings.store.root, policyType }

namespace Build

variable {m : Type → Type} [Monad m] (machine : Machine m)

def writeFile (path content : String) : ExceptT Fault m Unit := do
  if !(← machine.writeFile path content) then throw (.io path)

/-- Run a tool; what it writes explains its failure. -/
def runTool (tool : String) (arguments : List String) : ExceptT Fault m Unit := do
  match ← machine.runTool tool arguments with
  | none => throw (.toolNotRun tool)
  | some result =>
    if !result.succeeded then
      throw (.toolFailed tool (Text.trim (result.outputText ++ result.errorText)))

def modulePath (directory name extension : String) : String :=
  Path.join directory (name ++ extension)

/-- Compile and package the sources of a module. -/
def packageModule (tools : ToolSettings) (directory name : String) : ExceptT Fault m Unit := do
  let compiled := modulePath directory name ".mod"
  runTool machine tools.compiler ["-mMo", compiled, modulePath directory name ".te"]
  runTool machine tools.packager
    ["-o", modulePath directory name ".pp", "-m", compiled, "-f", modulePath directory name ".fc"]

/-- The files of a module: names and contents. -/
def artifacts (relabelList : List String) (built : PolicyModule) : List (String × String) := [
  (built.name ++ ".te", built.typeEnforcement),
  (built.name ++ ".fc", built.fileContextText),
  ("resourcelist", Text.unlines relabelList),
  ("config", built.configText),
  ("restorecon.sh", built.relabelScript)]

/-- Write a module into its directory, in place of what was there; whether it has been packaged. -/
def writeModule (tools : ToolSettings) (relabelList : List String) (directory : String)
    (built : PolicyModule) : ExceptT Fault m Bool := do
  machine.removeTree directory
  if !(← machine.createDirectories directory) then throw (.io directory)
  (artifacts relabelList built).forM fun (name, content) =>
    writeFile machine (Path.join directory name) content
  if tools.enabled then packageModule machine tools directory built.name
  pure tools.enabled

/-- Write a module, and report what became of it. -/
def addModule (tools : ToolSettings) (relabelList : List String) (origin out : String)
    (state : List Diagnostic × BuildReport) (built : PolicyModule) :
    m (List Diagnostic × BuildReport) := do
  let (diagnostics, report) := state
  let directory := Path.join out built.name
  match ← (writeModule machine tools relabelList directory built).run with
  | .ok packaged =>
    let message := "module " ++ built.name ++ " written to " ++ directory
    pure (diagnostics ++ [⟨.info, origin, message⟩],
      { report with modules := report.modules ++ [⟨built.name, directory, packaged⟩] })
  | .error fault =>
    machine.removeTree directory
    let message := "module " ++ built.name ++ " failed: " ++ fault.text
    pure (diagnostics ++ [⟨.error, origin, message⟩],
      { report with failures := report.failures ++ [(built.name, fault)] })

/-- The installed modules of an earlier build of a project. -/
def ownModules (settings : Settings) (project : Project) : m (Except Fault (List Installed)) := do
  if settings.store.enabled then
    let policyType ← Host.policyType machine settings.system
    ((settings.moduleStore policyType).installedAmong machine
      (Allocation.ownModules project.name)).run
  else pure (.ok [])

/-- Build a project against a catalog, into directories inside `out`. -/
def runWith (settings : Settings) (project : Project) (catalog : Catalog) (out : String) :
    m (List Diagnostic × Except Fault BuildReport) := do
  let own ← ownModules machine settings project
  let begun : Diagnostic := ⟨.info, project.name, "building project " ++ project.name⟩
  let assembled := Assembly.ofProject project catalog own settings.fallbackDomain
  let diagnostics := begun :: assembled.diagnostics
  match assembled.result with
  | .error fault => pure (diagnostics, .error fault)
  | .ok assembly =>
    -- What an earlier build left of a module that fails now would be out of date.
    assembly.failures.forM fun (name, _) => machine.removeTree (Path.join out name)
    let (diagnostics, report) ← assembly.modules.foldlM
      (addModule machine settings.tools project.relabelList project.name out)
      (diagnostics, { failures := assembly.failures })
    pure (diagnostics, .ok report)

/-- Build a project against the host's policy. -/
def run (settings : Settings) (project : Project) (out : String) :
    m (List Diagnostic × Except Fault BuildReport) := do
  match ← (Host.loadCatalog machine settings.system).run with
  | .error fault => pure ([], .error (.within .systemCatalog fault))
  | .ok catalog => runWith machine settings project catalog out

end Build

end TypeEnforcement
