/-
Projects: the files of a system, and the applications with what they may do.

* `Resource` — a declared file, directory or tree, and how it is labelled;
* `Permission`, `ApplicationEntry`, `Spec` — what applications may do;
* `Project` — resources and specs together;
* `Project.check` — the rules that every project keeps to;
* `Spec.stem` — the part of a spec's file name that names its module.
-/
import TypeEnforcement.Project.Name
import TypeEnforcement.Text.Split

namespace TypeEnforcement

/-- A declared file, directory or tree. -/
structure Resource where
  /-- An absolute path, which may be a glob. -/
  path : String
  /-- The word for its class. -/
  classWord : String := ""
  /-- Whether it keeps the label that the system gives it. -/
  isSystem : Bool := false
  /-- Whether its type stays outside the attribute of ordinary files. -/
  isPrivate : Bool := false
  /-- The type that it is given, if the project chooses one. -/
  typeName : Option String := none
  /-- The domain that a process enters by executing it, if the project chooses one. -/
  domain : Option String := none
deriving DecidableEq

inductive PermissionKind where
  | filesystem
  | capability
  | network
deriving DecidableEq

namespace PermissionKind

def keyword : PermissionKind → String
  | filesystem => "filesystem"
  | capability => "capability"
  | network => "network"

def ofKeyword? : String → Option PermissionKind
  | "filesystem" => some filesystem
  | "capability" => some capability
  | "network" => some network
  | _ => none

end PermissionKind

/-- A declaration of what an application may do. -/
structure Permission where
  /-- The word for its kind. -/
  kindWord : String
  /-- Paths of resources, or network resources. -/
  resources : List String := []
  actions : List String := []
deriving DecidableEq

/-- An application, named by its executable, with its permissions. -/
structure ApplicationEntry where
  path : String
  /-- Whether denials are only recorded. -/
  isPermissive : Bool := false
  isUnconfined : Bool := false
  permissions : List Permission := []
deriving DecidableEq

/-- A group of applications that are compiled into one module. -/
structure Spec where
  /-- The name of the file that the spec comes from. -/
  name : String
  applications : List ApplicationEntry := []
deriving DecidableEq

/-- The last component of the name of a spec, without its extension; a name that is all extension
stays as it is. -/
def Spec.stem (spec : Spec) : String :=
  let file := match Text.cutLast '/' spec.name with
    | some (_, file) => file
    | none => spec.name
  match Text.cutLast '.' file with
  | some (stem, _) => if stem = "" then file else stem
  | none => file

/-- A project. -/
structure Project where
  name : String
  version : String := ModuleVersion.default
  resources : List Resource := []
  specs : List Spec := []
  /-- Whether the project is compiled into one module. -/
  monolithic : Bool := false
  /-- Hand-written rules. -/
  extraRules : List String := []
deriving DecidableEq

namespace Project

def entries (project : Project) : List ApplicationEntry :=
  project.specs.flatMap Spec.applications

/-- Refuse relative paths and paths that are declared twice; `seen` has the paths before. -/
def checkPaths (seen : List String) : List Resource → Except Fault Unit
  | [] => .ok ()
  | resource :: rest =>
    if resource.path.toList.head? ≠ some '/' then .error (.config (.relativePath resource.path))
    else if resource.path ∈ seen then .error (.config (.repeatedPath resource.path))
    else checkPaths (resource.path :: seen) rest

/-- Refuse specs without a name or without applications. -/
def checkSpecs : List Spec → Except Fault Unit
  | [] => .ok ()
  | spec :: rest =>
    if spec.stem = "" then .error (.config .unnamedSpec)
    else if spec.applications = [] then .error (.config (.emptySpec spec.name))
    else checkSpecs rest

/-- Refuse a project that breaks a rule: the names, then the resources, the specs, and the number
of hand-written rules. -/
def check (project : Project) : Except Fault Unit := do
  ModuleName.check project.name
  ModuleVersion.check project.version
  if project.resources = [] then throw (.config .noResources)
  checkPaths [] project.resources
  if project.specs = [] then throw (.config .noSpecs)
  checkSpecs project.specs
  if maxExtraRules < project.extraRules.length then throw (.config .tooManyRules)

theorem checkPaths_eq_ok_iff {seen : List String} {resources : List Resource} :
    checkPaths seen resources = .ok () ↔
      (∀ r ∈ resources, r.path.toList.head? = some '/' ∧ r.path ∉ seen) ∧
        (resources.map Resource.path).Nodup := by
  induction resources generalizing seen with
  | nil => simp [checkPaths]
  | cons r rest ih =>
    rw [checkPaths]
    by_cases habs : r.path.toList.head? = some '/'
    · by_cases hseen : r.path ∈ seen
      · simp [habs, hseen]
      · simp only [habs, hseen, ne_eq, not_true_eq_false, if_false, ih, List.mem_cons, not_or,
          List.map_cons, List.nodup_cons, List.mem_map, not_exists, not_and]
        constructor
        · rintro ⟨h, hnodup⟩
          exact ⟨by
            rintro s (rfl | hs)
            · exact ⟨habs, hseen⟩
            · exact ⟨(h s hs).1, (h s hs).2.2⟩,
            fun s hs => (h s hs).2.1, hnodup⟩
        · rintro ⟨h, hne, hnodup⟩
          exact ⟨fun s hs => ⟨(h s (.inr hs)).1, hne s hs, (h s (.inr hs)).2⟩, hnodup⟩
    · simp [habs]

/-- The rules that a project keeps to if it is not refused. -/
theorem check_cases {project : Project} (h : project.check = .ok ()) :
    ModuleName.check project.name = .ok () ∧ ModuleVersion.check project.version = .ok () ∧
      project.resources ≠ [] ∧ checkPaths [] project.resources = .ok () ∧ project.specs ≠ [] ∧
      checkSpecs project.specs = .ok () ∧ project.extraRules.length ≤ maxExtraRules := by
  rw [check, bind_eq_ok_iff] at h
  obtain ⟨_, hname, h⟩ := h
  rw [bind_eq_ok_iff] at h
  obtain ⟨_, hversion, h⟩ := h
  dsimp only at h
  split at h
  · cases h
  · rename_i hresources
    rw [bind_eq_ok_iff] at h
    obtain ⟨_, hpaths, h⟩ := h
    split at h
    · cases h
    · rename_i hspecs
      rw [bind_eq_ok_iff] at h
      obtain ⟨_, hchecked, h⟩ := h
      split at h
      · cases h
      · rename_i hrules
        exact ⟨hname, hversion, hresources, hpaths, hspecs, hchecked, Nat.le_of_not_lt hrules⟩

/-- A project that keeps to the rules declares no path twice. -/
theorem nodup_paths {project : Project} (h : project.check = .ok ()) :
    (project.resources.map Resource.path).Nodup := by
  obtain ⟨-, -, -, hpaths, -⟩ := check_cases h
  exact (checkPaths_eq_ok_iff.1 hpaths).2

end Project

end TypeEnforcement
