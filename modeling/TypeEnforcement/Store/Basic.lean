/-
The module store: the policy modules that are installed on the host.

The store has a directory for each priority, and in it one for each module installed with this
priority.  The greatest priority counts.  Modules with an entry in the directory `disabled` are not
in use.

* `ModuleStore` — where a store is;
* `ModuleStore.priority` — the priority of a module;
* `ModuleStore.status` — whether a module is installed and in use;
* `ModuleStore.installed` — what an installed module declares.
-/
import TypeEnforcement.Bzip2.Stream
import TypeEnforcement.Fault
import TypeEnforcement.Machine.Basic
import TypeEnforcement.Path.Join
import TypeEnforcement.Store.Installed
import TypeEnforcement.Text.Numeral

namespace TypeEnforcement

/-- Whether a module is installed and in use. -/
inductive ModuleStatus where
  | enabled
  | disabled
  | notInstalled
deriving DecidableEq

def ModuleStatus.text : ModuleStatus → String
  | enabled => "enabled"
  | disabled => "disabled"
  | notInstalled => "not installed"

/-- A module store. -/
structure ModuleStore where
  root : String
  /-- The type of policy whose modules are looked at. -/
  policyType : String
deriving DecidableEq

namespace ModuleStore

/-- The greatest priority that a directory may stand for. -/
def maxPriority : Nat := 4294967295

/-- The directory of a store that has the priorities. -/
def modulesPath (store : ModuleStore) : String :=
  Path.joinAll store.root [store.policyType, "active", "modules"]

variable {m : Type → Type} [Monad m] (machine : Machine m)

/-- The priorities with which a module is installed, given the names inside the store. -/
def prioritiesAmong (store : ModuleStore) (name : String) (names : List String) :
    m (List Nat) := do
  let found ← (names.filterMap fun entry =>
      (Text.readBounded maxPriority entry).map (entry, ·)).filterMapM fun (entry, priority) => do
    let present ← machine.isDirectory (Path.joinAll store.modulesPath [entry, name])
    pure (if present then some priority else none)
  pure found

/-- The greatest priority with which a module is installed, if it is. -/
def priority (store : ModuleStore) (name : String) : ExceptT Fault m (Option Nat) := do
  match ← machine.listDirectory store.modulesPath with
  | .missing => pure none
  | .unreadable => throw (.io store.modulesPath)
  | .entries names =>
    let found ← (store.prioritiesAmong machine name names : m (List Nat))
    pure found.max?

/-- Whether a module is installed and in use. -/
def status (store : ModuleStore) (name : String) : ExceptT Fault m ModuleStatus := do
  if (← store.priority machine name).isNone then pure .notInstalled
  else if ← machine.pathExists (Path.joinAll store.modulesPath ["disabled", name]) then
    pure .disabled
  else pure .enabled

/-- The text of a file in the language of the store, which may be compressed. -/
def readDeclarations (path : String) : ExceptT Fault m String := do
  match ← machine.readFile path with
  | none => throw (.io path)
  | some bytes =>
    if Bzip2.isCompressed bytes then
      match (Bzip2.decompress bytes).bind Text.decodeStrict with
      | some text => pure text
      | none => throw (.io path)
    else pure (Text.decodeLossy bytes)

def installed (store : ModuleStore) (name : String) : ExceptT Fault m (Option Installed) := do
  match ← store.priority machine name with
  | none => pure none
  | some priority =>
    let path := Path.joinAll store.modulesPath [toString priority, name, "cil"]
    pure (some (Installed.parse (← readDeclarations machine path)))

/-- What the installed ones among some modules declare. -/
def installedAmong (store : ModuleStore) (names : List String) :
    ExceptT Fault m (List Installed) := do
  let found ← names.mapM fun name =>
    ExceptT.mk do
      pure ((Scope.installedModule name).wrap (← (store.installed machine name).run))
  pure (found.filterMap id)

end ModuleStore

end TypeEnforcement
