/-
The policy modules of a project.

A monolithic project becomes one module.  Any other project becomes a base module, which has all
definitions, and one module for each spec, which has the rules of its applications.  A module of a
spec that cannot be assembled is left out and reported; without its base a project has no modules.

* `Project.baseName`, `Project.specName` — the names of the modules;
* `Assembly.fillBase` — hand-written rules and definitions;
* `Assembly.addSpec` — the rules of the applications of a spec;
* `Assembly.collect` — the modules of a project, before their conflicts are resolved;
* `Assembly.make` — the modules of a project.
-/
import TypeEnforcement.Grant.Basic
import TypeEnforcement.Grant.Domain
import TypeEnforcement.Module.Conflict

namespace TypeEnforcement

/-! ### Names of modules -/

namespace Project

/-- The name of the module that has the definitions of a project. -/
def baseName (project : Project) : String :=
  if project.monolithic then project.name else project.name ++ "_public"

def specName (project : Project) (spec : Spec) : String :=
  project.name ++ "_" ++ spec.stem

end Project

/-- The modules of a project, and those that failed with the reason. -/
structure Assembly where
  modules : List PolicyModule := []
  failures : List (String × Fault) := []

namespace Assembly

/-! ### The base module -/

/-- Add a hand-written rule. -/
def addExtraRule (policy : SystemPolicy) (m : PolicyModule) (text : String) :
    Except Fault PolicyModule :=
  Scope.extraRules.wrap do
    let rule ← Rule.parse text
    m.addRule policy rule

/-- Add the type of a resource, and its file context unless the system labels it. -/
def addFile (policy : SystemPolicy) (m : PolicyModule) (file : LabelledFile) :
    Except Fault PolicyModule :=
  let m := if file.isSystem then m else m.addFileContext file.fileContext
  if file.typeExists then .ok (m.requireType file.typeName)
  else if file.isPrivate then
    (Scope.privateFile file.path).wrap
      ((m.defineType file.typeName).addRules policy
        (Bundle.privateType file.typeName file.fileClass))
  else .ok (m.defineTypeWith file.typeName Grant.fileAttribute)

def addApplication (policy : SystemPolicy) (m : PolicyModule) (app : ConfinedApplication) :
    PolicyModule :=
  let m := m.defineTypeWith app.domain Grant.domainAttribute
  let m := if app.isUnconfined then
      Grant.unconfinedAttributes.foldl (·.defineTypeWith app.domain ·) m
    else m
  let m := if app.isPermissive then m.addPermissive app.domain else m
  policy.roles.foldl (·.defineRoleType · app.domain) m

/-- Add the hand-written rules, and the types and domains of a project. -/
def fillBase (policy : SystemPolicy) (project : Project) (allocation : Allocation)
    (m : PolicyModule) : Except Fault PolicyModule := do
  let m ← project.extraRules.foldlM (addExtraRule policy) m
  let m ← allocation.files.foldlM (addFile policy) m
  pure (allocation.applications.foldl (addApplication policy) m)

/-! ### The rules of specs -/

/-- The rules of an entry of a spec: those of its domain, then those of its permissions. -/
def entryRules (context : Grant.Context) (origin : String) (entry : ApplicationEntry)
    (app : ConfinedApplication) (file : LabelledFile) : Report (List Rule) := do
  let permissions ← entry.permissions.mapM fun permission =>
    (Grant.ofPermission context origin app permission).inScope
      (.permission permission.kindWord entry.path)
  let unconfined := if entry.isUnconfined then
      Grant.unconfined app.domain (context.policy.hasClass "capability2")
    else []
  pure (Grant.base app.domain ++ unconfined ++ Grant.entry app.domain file.typeName ++
    permissions.flatten)

/-- Add the rules of an entry of a spec. -/
def addEntry (context : Grant.Context) (m : PolicyModule) (entry : ApplicationEntry) :
    Report PolicyModule :=
  match context.allocation.application? entry.path, context.allocation.file? entry.path with
  | some app, some file => do
    let rules ← entryRules context m.name entry app file
    Report.ofExcept ((Scope.application entry.path).wrap (m.addRules context.policy rules))
  | _, _ => Report.fail (.undefined .application entry.path)

def addSpec (context : Grant.Context) (m : PolicyModule) (spec : Spec) : Report PolicyModule :=
  spec.applications.foldlM (addEntry context) m

/-! ### All modules -/

/-- The module of a spec on its own. -/
def specModule (context : Grant.Context) (project : Project) (spec : Spec) : Report PolicyModule :=
  (do
    let m ← Report.ofExcept (PolicyModule.make (project.specName spec) project.version)
    addSpec context m spec).inScope (.module (project.specName spec))

/-- Add the module of a spec to an assembly; if it fails, its failure. -/
def addSpecModule (context : Grant.Context) (project : Project) (assembly : Assembly)
    (spec : Spec) : Report Assembly := do
  let name := project.specName spec
  match ← (specModule context project spec).attempt with
  | .ok m => pure { assembly with modules := assembly.modules ++ [m] }
  | .error fault =>
    if fault.stopsAll then Report.fail fault
    else
      Report.note .error name ("module " ++ name ++ " failed: " ++ fault.text)
      pure { assembly with failures := assembly.failures ++ [(name, fault)] }

/-- Resolve the conflicts of a module, and report the types that give way. -/
def resolveModule (m : PolicyModule) : Report PolicyModule :=
  let (resolved, replacements) := m.resolve
  { diagnostics := replacements.map fun r =>
      { severity := .warning, origin := m.name,
        message := "type " ++ r.source ++ " will be replaced by " ++ r.target ++
          " due to type_transition rule conflict" },
    result := .ok resolved }

/-- The modules of a project that has been allocated, with the conflicts that they may have. -/
def collect (context : Grant.Context) (project : Project) : Report Assembly := do
  let name := project.baseName
  let empty ← Report.ofExcept (PolicyModule.make name project.version)
  let base ← Report.ofExcept ((Scope.module name).wrap
    (fillBase context.policy project context.allocation empty))
  if project.monolithic then do
    let full ← project.specs.foldlM (fun m spec =>
      (addSpec context m spec).inScope (.moduleSpec name spec.name)) base
    pure { modules := [full] }
  else project.specs.foldlM (addSpecModule context project) { modules := [base] }

/-- The modules of a project that has been allocated. -/
def make (context : Grant.Context) (project : Project) : Report Assembly := do
  let assembly ← collect context project
  let modules ← assembly.modules.mapM resolveModule
  pure { assembly with modules }

/-- Allocate a project, so that its modules can be assembled.  `own` are the installed modules of an
earlier build. -/
def allocate (project : Project) (catalog : Catalog) (own : Except Fault (List Installed))
    (fallbackDomain : String) : Except Fault Grant.Context :=
  (Scope.project project.name).wrap do
    let (allocation, catalog) ← Allocation.make project catalog (← own)
    pure { allocation, policy := catalog.policy, fallbackDomain }

/-- Allocate a project and assemble its modules. -/
def ofProject (project : Project) (catalog : Catalog) (own : Except Fault (List Installed))
    (fallbackDomain : String) : Report Assembly := do
  let context ← Report.ofExcept (allocate project catalog own fallbackDomain)
  make context project

end Assembly

end TypeEnforcement
