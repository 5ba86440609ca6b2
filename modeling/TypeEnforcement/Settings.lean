/-
Settings: what is known about the host before its policy is read.

The settings are a configuration document with the tables `system`, `modules`, `toolchain` and
`compiler`.  Every setting has a default, so an empty document describes an ordinary host.

* `Settings` — the settings;
* `Settings.parse?` — the settings of a document;
* `Settings.policyTypeOf?` — the type of policy that the host's configuration names;
* `Settings.contextsPath` — where the host keeps its file contexts.
-/
import TypeEnforcement.Path.Join
import TypeEnforcement.Text.Split
import TypeEnforcement.Toml.Decode
import TypeEnforcement.Toml.Document

namespace TypeEnforcement

open Toml (Value)

/-- Where the facts about the host's policy come from. -/
inductive PolicySource where
  /-- The query tool and the tree of classes of the running system. -/
  | live
  /-- A snapshot file. -/
  | snapshot
deriving DecidableEq

namespace PolicySource

def word : PolicySource → String
  | live => "live"
  | snapshot => "snapshot"

def ofWord? : String → Option PolicySource
  | "live" => some live
  | "snapshot" => some snapshot
  | _ => none

end PolicySource

/-- Where the host's policy is described. -/
structure SystemSettings where
  source : PolicySource := .live
  /-- The snapshot file. -/
  snapshot : Option String := none
  /-- The query tool. -/
  queryTool : String := "seinfo"
  /-- The tree of object classes. -/
  classRoot : String := "/sys/fs/selinux/class"
  /-- The type of policy, if it is not read from the host's configuration. -/
  policyType : Option String := none
  /-- The host's configuration. -/
  configuration : String := "/etc/selinux/config"
  /-- The file contexts of the policy, if they are not where hosts keep them. -/
  systemContexts : Option String := none
  /-- The file contexts of the home directories. -/
  homeContexts : Option String := none
  /-- The file contexts of the host's customisations. -/
  customContexts : Option String := none
deriving DecidableEq

/-- How installed modules are inspected. -/
structure StoreSettings where
  enabled : Bool := true
  /-- The root of the module store. -/
  root : String := "/var/lib/selinux"
deriving DecidableEq

/-- The tools that package modules. -/
structure ToolSettings where
  enabled : Bool := true
  compiler : String := "checkmodule"
  packager : String := "semodule_package"
deriving DecidableEq

/-- The settings. -/
structure Settings where
  system : SystemSettings := {}
  store : StoreSettings := {}
  tools : ToolSettings := {}
  /-- The domain that executables without one lead into. -/
  fallbackDomain : String := "unconfined_t"
deriving DecidableEq

/-! ### Documents -/

/-- Read where the host's policy is described. -/
def SystemSettings.decode? (value : Value) : Option SystemSettings := do
  let fields ← value.fields? ["source", "snapshot", "seinfo", "class_root", "policy_type",
    "selinux_config", "file_contexts", "file_contexts_homedirs", "file_contexts_local"]
  let defaults : SystemSettings := {}
  let source ← fields.withDefault "source"
    (fun value => value.choice?.bind PolicySource.ofWord?) defaults.source
  let snapshot ← fields.optional "snapshot" Value.string?
  let queryTool ← fields.withDefault "seinfo" Value.string? defaults.queryTool
  let classRoot ← fields.withDefault "class_root" Value.string? defaults.classRoot
  let policyType ← fields.optional "policy_type" Value.string?
  let configuration ← fields.withDefault "selinux_config" Value.string? defaults.configuration
  let systemContexts ← fields.optional "file_contexts" Value.string?
  let homeContexts ← fields.optional "file_contexts_homedirs" Value.string?
  let customContexts ← fields.optional "file_contexts_local" Value.string?
  some { source, snapshot, queryTool, classRoot, policyType, configuration, systemContexts,
         homeContexts, customContexts }

/-- Read how installed modules are inspected. -/
def StoreSettings.decode? (value : Value) : Option StoreSettings := do
  let fields ← value.fields? ["enabled", "store_root"]
  let defaults : StoreSettings := {}
  let enabled ← fields.withDefault "enabled" Value.boolean? defaults.enabled
  let root ← fields.withDefault "store_root" Value.string? defaults.root
  some { enabled, root }

/-- Read which tools package modules. -/
def ToolSettings.decode? (value : Value) : Option ToolSettings := do
  let fields ← value.fields? ["enabled", "checkmodule", "semodule_package"]
  let defaults : ToolSettings := {}
  let enabled ← fields.withDefault "enabled" Value.boolean? defaults.enabled
  let compiler ← fields.withDefault "checkmodule" Value.string? defaults.compiler
  let packager ← fields.withDefault "semodule_package" Value.string? defaults.packager
  some { enabled, compiler, packager }

namespace Settings

def decodeFallback? (value : Value) : Option String := do
  let fields ← value.fields? ["fallback_exec_domain"]
  let defaults : Settings := {}
  fields.withDefault "fallback_exec_domain" Value.string? defaults.fallbackDomain

def decode? (value : Value) : Option Settings := do
  let fields ← value.fields? ["system", "modules", "toolchain", "compiler"]
  let defaults : Settings := {}
  let system ← fields.withDefault "system" SystemSettings.decode? defaults.system
  let store ← fields.withDefault "modules" StoreSettings.decode? defaults.store
  let tools ← fields.withDefault "toolchain" ToolSettings.decode? defaults.tools
  let fallbackDomain ← fields.withDefault "compiler" decodeFallback? defaults.fallbackDomain
  some { system, store, tools, fallbackDomain }

def parse? (text : String) : Option Settings :=
  (Toml.parse? text).bind decode?

/-! ### The host's configuration -/

/-- The type of policy of a host that does not say. -/
def defaultPolicyType : String := "targeted"

/-- The type of policy that a host's configuration names.  The first line that sets it counts. -/
def policyTypeOf? (configuration : String) : Option String := do
  let lines := (Text.lines configuration).map Text.trim
  let value ← (lines.filter fun line => line.toList.head? ≠ some '#').findSome?
    (Text.afterStart? "SELINUXTYPE=")
  let name := Text.trimChar '"' (Text.trim value)
  if name = "" then none else some name

/-- Where a host keeps a file of file contexts. -/
def contextsPath (policyType file : String) : String :=
  Path.joinAll "/etc/selinux" [policyType, "contexts/files", file]

end Settings

end TypeEnforcement
