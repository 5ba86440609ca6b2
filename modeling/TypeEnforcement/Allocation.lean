/-
Allocation: the labels of the resources and the domains of the applications of a project.

A resource keeps the label that the system gives it, or gets a type that the project chooses, or
one made of its path.  New labels join the catalog at once, so that later resources see them.  What
an earlier build of the project installed is masked first, because it would look like labels of the
system.

* `LabelledFile`, `ConfinedApplication` — what is decided for a resource and for an application;
* `LabelledFile.make` — the decision for one resource;
* `Allocation.make` — the decisions for a project, and the catalog with its new labels.
-/
import TypeEnforcement.Host.Catalog
import TypeEnforcement.Label.TypeName
import TypeEnforcement.Names.Distinct
import TypeEnforcement.Path.Resource
import TypeEnforcement.Project.Basic
import TypeEnforcement.Store.Installed

namespace TypeEnforcement

/-- A resource with its label. -/
structure LabelledFile where
  path : String
  /-- The pattern that labels the resource. -/
  pattern : String
  fileClass : FileClass
  label : Label
  /-- The label of the directory that the resource lives in. -/
  parentLabel : Label := {}
  /-- The domain that a process enters by executing the file, if that is known. -/
  domain : Option String := none
  /-- Whether the type stays outside the attribute of ordinary files. -/
  isPrivate : Bool := false
  isExecutable : Bool := false
  /-- Whether the type exists, so that it is required and not defined. -/
  typeExists : Bool := false
  /-- Whether the system labels the path, so that no file context is needed. -/
  isSystem : Bool := false
deriving DecidableEq

structure ConfinedApplication where
  path : String
  domain : String
  /-- Whether denials are only recorded. -/
  isPermissive : Bool
  isUnconfined : Bool
deriving DecidableEq

namespace LabelledFile

def typeName (file : LabelledFile) : String :=
  file.label.typeName

/-- The type of the directory that a resource lives in. -/
def parentType (file : LabelledFile) : String :=
  file.parentLabel.typeName

/-- The entry that labels a resource. -/
def fileContext (file : LabelledFile) : FileContext :=
  .bind file.pattern file.fileClass file.label

/-- The domain of the processes that execute a resource: the configured one, or one named after the
type. -/
def processDomain (file : LabelledFile) : String :=
  file.domain.getD (TypeName.domainOf file.typeName)

/-- The path under which a resource is looked up. -/
def lookupPath (path : String) : String :=
  String.ofList (Path.fold path.toList)

def keepLabel (resource : Resource) (found : Option FileContext) (file : LabelledFile) :
    Except Fault LabelledFile :=
  if resource.isPrivate then .error (.config .systemAndPrivate)
  else if (resource.typeName.filter (· ≠ "")).isSome then .error (.config .systemAndType)
  else match found with
    | none => .error (.config (.notLabelled resource.path))
    | some entry => .ok { file with label := entry.label, typeExists := true, isSystem := true }

/-- The label of a resource with a type that the project chooses.  A type that an earlier build of
the project installed is defined again. -/
def chooseType (policy : SystemPolicy) (ownTypes : List String) (name : String)
    (file : LabelledFile) : Except Fault LabelledFile :=
  let file := { file with label := .object name }
  if ¬TypeName.IsValid name then .error (.config (.typeName name))
  else if name ∈ ownTypes then .ok file
  else if policy.definesAttribute name then .error (.config (.typeIsAttribute name))
  else .ok { file with typeExists := policy.definesType name }

def make (catalog : Catalog) (ownTypes : List String) (resource : Resource) :
    Except Fault LabelledFile := do
  let (fileClass, isExecutable) ← match FileClass.ofKeyword? resource.classWord with
    | some found => .ok found
    | none => .error (.config (.resourceClass resource.classWord))
  -- An empty domain is no domain.
  let domain := resource.domain.filter (· ≠ "")
  if let some name := domain then
    if ¬TypeName.IsValid name then throw (.config (.domainName name))
  let pattern := String.ofList (Path.labelPattern resource.path.toList)
  let found := (catalog.lookup (lookupPath resource.path) fileClass).map Prod.snd
  let file : LabelledFile :=
    { path := resource.path, pattern, fileClass, label := {}, domain,
      isPrivate := resource.isPrivate, isExecutable }
  if resource.isSystem then keepLabel resource found file
  else if found.any (·.pattern = pattern) then throw (.config .alreadyLabelled)
  else match resource.typeName.filter (· ≠ "") with
    | some name => chooseType catalog.policy ownTypes name file
    | none =>
      pure { file with
        label := .object (TypeName.synthesize resource.path fileClass isExecutable) }

/-- Give a resource the label of the directory that it lives in. -/
def inherit (catalog : Catalog) (file : LabelledFile) : Except Fault LabelledFile :=
  let directory := String.ofList (Path.fold (Path.directory file.path.toList))
  match catalog.lookup directory .directory with
  | some (_, entry) => .ok { file with parentLabel := entry.label }
  | none => .error (.config (.parentNotLabelled directory file.path))

/-- Label resources one after another; each new label joins the catalog. -/
def makeAll (ownTypes : List String) (catalog : Catalog) :
    List Resource → Except Fault (List LabelledFile × Catalog)
  | [] => .ok ([], catalog)
  | resource :: rest => do
    let file ← (Scope.resource resource.path).wrap (make catalog ownTypes resource)
    let catalog := if file.isSystem then catalog else catalog.allocate file.fileContext
    let (files, catalog) ← makeAll ownTypes catalog rest
    pure (file :: files, catalog)

end LabelledFile

/-- The labels of the resources and the domains of the applications of a project. -/
structure Allocation where
  /-- The resources, in the order of their declaration. -/
  files : List LabelledFile := []
  /-- The applications, in the order in which they are first named. -/
  applications : List ConfinedApplication := []
  /-- The types that an earlier build of the project installed. -/
  ownTypes : List String := []
  /-- The patterns that an earlier build of the project installed. -/
  ownPatterns : List String := []
deriving DecidableEq

namespace Allocation

def file? (allocation : Allocation) (path : String) : Option LabelledFile :=
  allocation.files.find? (·.path = path)

def application? (allocation : Allocation) (path : String) : Option ConfinedApplication :=
  allocation.applications.find? (·.path = path)

/-- The modules that an earlier build of a project may have installed. -/
def ownModules (projectName : String) : List String :=
  [projectName, projectName ++ "_public"]

/-- The catalog with the patterns of an earlier build masked. -/
def maskAll (catalog : Catalog) (patterns : List String) : Catalog :=
  patterns.foldl Catalog.mask catalog

/-! ### Applications -/

/-- The paths of entries, each once, in the order in which they are first named. -/
def entryPaths (entries : List ApplicationEntry) : List String :=
  distinct (entries.map ApplicationEntry.path)

/-- The application of a path: it is permissive or unconfined if any entry says so. -/
def applicationOf? (files : List LabelledFile) (entries : List ApplicationEntry) (path : String) :
    Option ConfinedApplication :=
  (files.find? (·.path = path)).map fun file =>
    let own := entries.filter (·.path = path)
    { path, domain := file.processDomain,
      isPermissive := own.any (·.isPermissive), isUnconfined := own.any (·.isUnconfined) }

/-- The applications of entries.  Each must be declared as a resource. -/
def applicationsOf (files : List LabelledFile) (entries : List ApplicationEntry) :
    Except Fault (List ConfinedApplication) :=
  (entryPaths entries).mapM fun path =>
    match applicationOf? files entries path with
    | some app => .ok app
    | none => .error (.undefined .application path)

/-- The resources with the domains of the applications among them settled. -/
def settleDomains (entries : List ApplicationEntry) (files : List LabelledFile) :
    List LabelledFile :=
  files.map fun file =>
    if entries.any (·.path = file.path) then { file with domain := some file.processDomain }
    else file

/-! ### Projects -/

/-- The labels and domains of a project, and the catalog with the new labels.  `own` are the
installed modules of an earlier build. -/
def make (project : Project) (catalog : Catalog) (own : List Installed) :
    Except Fault (Allocation × Catalog) := do
  let ownTypes := own.flatMap Installed.types
  let ownPatterns := own.flatMap Installed.patterns
  -- Directories are looked up when all labels are known, so that their order does not matter.
  let (files, catalog) ←
    LabelledFile.makeAll ownTypes (maskAll catalog ownPatterns) project.resources
  let files ← files.mapM (LabelledFile.inherit catalog)
  let applications ← applicationsOf files project.entries
  let files := settleDomains project.entries files
  pure ({ files, applications, ownTypes, ownPatterns }, catalog)

end Allocation

end TypeEnforcement
