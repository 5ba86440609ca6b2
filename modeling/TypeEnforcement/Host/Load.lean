/-
Reading the host's policy and file contexts from a machine.

* `Host.classTree` — the classes and permissions of a tree of directories;
* `Host.queryPolicy`, `Host.readSnapshot` — the two sources of a policy;
* `Host.loadCatalog` — the catalog that the settings describe.
-/
import TypeEnforcement.Host.Catalog
import TypeEnforcement.Host.Listing
import TypeEnforcement.Host.Snapshot
import TypeEnforcement.Machine.Basic
import TypeEnforcement.Settings

namespace TypeEnforcement.Host

variable {m : Type → Type} [Monad m] (machine : Machine m)

/-- The names inside a directory of the tree of classes. -/
def classNames (path : String) : ExceptT Fault m (List String) := do
  match ← machine.listDirectory path with
  | .entries names => pure names
  | .missing | .unreadable => throw (.systemState (.unreadableClasses path))

/-- The permissions of a class in the tree of classes; none if the entry is no class. -/
def classEntry (root name : String) : ExceptT Fault m (Option (String × NameSet)) := do
  let path := Path.joinAll root [name, "perms"]
  if ← machine.isDirectory path then
    pure (some (name, NameSet.ofList (← classNames machine path)))
  else pure none

/-- The classes of a tree, which has the permissions of each class as names in a directory. -/
def classTree (root : String) : ExceptT Fault m ClassTable := do
  let entries ← (← classNames machine root).filterMapM (classEntry machine root)
  if entries.isEmpty then throw (.systemState (.noClasses root))
  pure (NameMap.ofList entries)

def query (tool flag : String) : ExceptT Fault m String := do
  match ← machine.runTool tool [flag] with
  | none => throw (.systemState (.queryNotRun tool))
  | some result =>
    if result.succeeded then pure result.outputText
    else throw (.systemState (.queryFailed tool flag (Text.trim result.errorText)))

def queryPolicy (tool classRoot : String) : ExceptT Fault m SystemPolicy := do
  let types := Listing.items (← query machine tool "-t")
  let attributes := Listing.items (← query machine tool "-a")
  let roles := Listing.items (← query machine tool "-r")
  let ports := (Listing.items (← query machine tool "--portcon")).filterMap Listing.portRange?
  let classes ← classTree machine classRoot
  pure (.make types attributes roles ports classes)

def readSnapshot (path : String) : ExceptT Fault m SystemPolicy := do
  match ← (machine.readText path : m (Option String)) with
  | none => throw (.systemState (.unreadableSnapshot path))
  | some text => ExceptT.mk (pure (Snapshot.parse text))

/-- The policy of a snapshot file with the classes of a tree in place of its own. -/
def readSnapshotWithClasses (path classRoot : String) : ExceptT Fault m SystemPolicy := do
  let policy ← readSnapshot machine path
  pure { policy with classes := ← classTree machine classRoot }

/-- The policy from the source that the settings name. -/
def loadPolicy (settings : SystemSettings) : ExceptT Fault m SystemPolicy := do
  match settings.source, settings.snapshot with
  | .live, _ => queryPolicy machine settings.queryTool settings.classRoot
  | .snapshot, some path => readSnapshot machine path
  | .snapshot, none => throw (.config .noSnapshotPath)

/-- The type of policy: from the settings, from the host's configuration, or the usual one. -/
def policyType (settings : SystemSettings) : m String := do
  match settings.policyType with
  | some name => pure name
  | none =>
    let text ← machine.readText settings.configuration
    pure ((text.bind Settings.policyTypeOf?).getD Settings.defaultPolicyType)

/-- Where a file of file contexts is: where the settings say, or where hosts keep it. -/
def contextsPath (settings : SystemSettings) (chosen : Option String) (file : String) :
    m String := do
  match chosen with
  | some path => pure path
  | none => pure (Settings.contextsPath (← policyType machine settings) file)

/-- Where the file contexts of the policy are. -/
def systemContextsPath (settings : SystemSettings) : m String :=
  contextsPath machine settings settings.systemContexts "file_contexts"

/-- Where the file contexts of the home directories are. -/
def homeContextsPath (settings : SystemSettings) : m String :=
  contextsPath machine settings settings.homeContexts "file_contexts.homedirs"

/-- Where the file contexts of the host's customisations are. -/
def customContextsPath (settings : SystemSettings) : m String :=
  contextsPath machine settings settings.customContexts "file_contexts.local"

/-- The entries of a file of file contexts, which must be there. -/
def readContexts (path : String) : ExceptT Fault m (List FileContext) := do
  match ← (machine.readText path : m (Option String)) with
  | some text => pure (FileContext.parseAll text)
  | none => throw (.systemState (.unreadableFileContexts path))

/-- The catalog that the settings describe.  A host without customisations is an ordinary one. -/
def loadCatalog (settings : SystemSettings) : ExceptT Fault m Catalog := do
  let policy ← loadPolicy machine settings
  let systemPath ← (systemContextsPath machine settings : m String)
  let system ← readContexts machine systemPath
  let homesPath ← (homeContextsPath machine settings : m String)
  let homes ← readContexts machine homesPath
  let customPath ← (customContextsPath machine settings : m String)
  let custom ← (machine.readText customPath : m (Option String))
  pure (.make policy system homes ((custom.map FileContext.parseAll).getD []))

end TypeEnforcement.Host
