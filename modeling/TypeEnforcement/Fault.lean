/-
What can go wrong, and the messages for it.

A `Fault` is a cause, wrapped in the scopes that it passed on its way out.  Each cause has one
message, and a scope is written in front of the message of what it wraps.

* `ConfigFault`, `StateFault`, `RuleFault`, `PermissionFault` — the causes by their field;
* `Scope` — the places that a fault may be reported from;
* `Fault.text` — the message;
* `Fault.root` — the cause inside the scopes.
-/
import TypeEnforcement.Text.Quoted

namespace TypeEnforcement

/-- The most hand-written rules that a project may carry. -/
def maxExtraRules : Nat := 5000

inductive ConfigFault where
  | malformedProject
  | moduleName (name : String)
  | reservedModuleName (name : String)
  | moduleVersion (version : String)
  | noResources
  | relativePath (path : String)
  | repeatedPath (path : String)
  | noSpecs
  | unnamedSpec
  | emptySpec (name : String)
  | tooManyRules
  | resourceClass (keyword : String)
  | domainName (name : String)
  | systemAndPrivate
  | systemAndType
  | notLabelled (path : String)
  | alreadyLabelled
  | typeName (name : String)
  | typeIsAttribute (name : String)
  | parentNotLabelled (directory path : String)
  | noSnapshotPath
deriving DecidableEq

/-- The message of a configuration fault. -/
def ConfigFault.text : ConfigFault → String
  | malformedProject => "malformed project"
  | moduleName name => "invalid module name " ++ Text.quoted name
  | reservedModuleName name => "module name " ++ Text.quoted name ++ " is a reserved word"
  | moduleVersion version => "invalid module version " ++ Text.quoted version
  | noResources => "project declares no resources"
  | relativePath path => "resource path " ++ path ++ " must be absolute"
  | repeatedPath path => "resource " ++ path ++ " declared twice"
  | noSpecs => "project declares no specs"
  | unnamedSpec => "spec without a name"
  | emptySpec name => "spec " ++ name ++ " lists no applications"
  | tooManyRules => "at most " ++ toString maxExtraRules ++ " extra rules are allowed"
  | resourceClass keyword => "unknown resource type " ++ Text.quoted keyword
  | domainName name => "invalid domain name " ++ name
  | systemAndPrivate => "isSysFile and isPrivateFile can't both be set"
  | systemAndType => "isSysFile and type can't both be set"
  | notLabelled path => "the system does not label " ++ path
  | alreadyLabelled => "the path is already labeled; set isSysFile to keep its label"
  | typeName name => "invalid type name " ++ name
  | typeIsAttribute name => "type " ++ name ++ " is already an attribute in the system policy"
  | parentNotLabelled directory path =>
    "no file context labels " ++ directory ++ ", parent of " ++ path
  | noSnapshotPath => "snapshot source selected without a snapshot path"

/-- Faults of the sources that describe the host's policy. -/
inductive StateFault where
  | malformedSnapshot
  | portLabel (text : String)
  | unreadableSnapshot (path : String)
  | unreadableFileContexts (path : String)
  | unreadableClasses (path : String)
  | noClasses (path : String)
  | queryNotRun (program : String)
  | queryFailed (program flag output : String)
deriving DecidableEq

/-- The message of a fault of the host's policy. -/
def StateFault.text : StateFault → String
  | malformedSnapshot => "malformed policy snapshot"
  | portLabel text => "malformed port context " ++ text
  | unreadableSnapshot path => "cannot read policy snapshot " ++ path
  | unreadableFileContexts path => "cannot read file contexts " ++ path
  | unreadableClasses path => "cannot read class tree " ++ path
  | noClasses path => "no object classes under " ++ path
  | queryNotRun program => "failed to run " ++ program
  | queryFailed program flag output => program ++ " " ++ flag ++ " failed: " ++ output

/-- Why a rule is refused. -/
inductive RuleFault where
  | malformedAccess
  | malformedTransition
  | unknownKeyword
  | unknownClass (name : String)
  | noPermissions
  | unknownPermission (className permission : String)
  | undefinedClass (name : String)
deriving DecidableEq

/-- The reason for refusing a rule. -/
def RuleFault.text : RuleFault → String
  | malformedAccess => "malformed access vector rule"
  | malformedTransition => "malformed type rule"
  | unknownKeyword => "unknown rule keyword"
  | unknownClass name => "unknown class " ++ name
  | noPermissions => "no permissions"
  | unknownPermission className permission =>
    "class " ++ className ++ " has no permission " ++ permission
  | undefinedClass name => "class " ++ name ++ " is not defined by the system policy"

/-- Faults of a permission that a project declares. -/
inductive PermissionFault where
  | needsActions (kind : String)
  | needsResourcesAndActions (kind : String)
  | capability (name : String)
  | socketAction (name : String)
  | tooManyFields (line : String)
  | malformedField (line : String)
  | port (value : String)
  | unknownField (key line : String)
  | nothingNamed (line : String)
deriving DecidableEq

def PermissionFault.text : PermissionFault → String
  | needsActions kind => kind ++ " permission needs actions"
  | needsResourcesAndActions kind => kind ++ " permission needs resources and actions"
  | capability name => "invalid capability " ++ name
  | socketAction name => "invalid socket action " ++ name
  | tooManyFields line => "too many fields in network resource " ++ line
  | malformedField line => "invalid network resource " ++ line
  | port value => value ++ " is an invalid port"
  | unknownField key line => "invalid network field " ++ key ++ " in " ++ line
  | nothingNamed line =>
    "network resource " ++ line ++ " leaves domain, type and protocol blank"

/-- What a reference to something undeclared refers to. -/
inductive ReferenceKind where
  | resource
  | application
deriving DecidableEq

def ReferenceKind.word : ReferenceKind → String
  | resource => "resource"
  | application => "application"

/-- A place that a fault is reported from. -/
inductive Scope where
  | systemCatalog
  | project (name : String)
  | resource (path : String)
  | installedModule (name : String)
  | module (name : String)
  | moduleSpec (name spec : String)
  | extraRules
  | privateFile (path : String)
  | application (path : String)
  | permission (kind path : String)
  | networkResource (line : String)
deriving DecidableEq

def Scope.text : Scope → String
  | systemCatalog => "system catalog"
  | project name => "project " ++ name
  | resource path => "resource " ++ path
  | installedModule name => "installed module " ++ name
  | module name => "module " ++ name
  | moduleSpec name spec => "module " ++ name ++ ", spec " ++ spec
  | extraRules => "extra rules"
  | privateFile path => "private file " ++ path
  | application path => "application " ++ path
  | permission kind path => kind ++ " permission of " ++ path
  | networkResource line => "network resource " ++ line

/-- Something that went wrong. -/
inductive Fault where
  | config (cause : ConfigFault)
  | undefined (kind : ReferenceKind) (name : String)
  | systemState (cause : StateFault)
  | rule (text : String) (reason : RuleFault)
  | permission (cause : PermissionFault)
  | toolNotRun (tool : String)
  | toolFailed (tool output : String)
  | io (path : String)
  | within (scope : Scope) (fault : Fault)
deriving DecidableEq

namespace Fault

/-- The message of a fault, with its scopes from the outside in. -/
def text : Fault → String
  | config cause => "invalid configuration: " ++ cause.text
  | undefined kind name => "undefined " ++ kind.word ++ " " ++ name
  | systemState cause => "system policy state unavailable: " ++ cause.text
  | rule text reason => "invalid rule `" ++ text ++ "`: " ++ reason.text
  | permission cause => "invalid permission: " ++ cause.text
  | toolNotRun tool => tool ++ " failed"
  | toolFailed tool output => tool ++ " failed: " ++ output
  | io path => "i/o error on " ++ path
  | within scope fault => scope.text ++ ": " ++ fault.text

/-- The cause inside all scopes. -/
def root : Fault → Fault
  | within _ fault => fault.root
  | fault => fault

/-- Whether a fault stops every module of a build, not only the one it arose in. -/
def stopsAll (fault : Fault) : Bool :=
  match fault.root with
  | systemState _ => true
  | _ => false

end Fault

/-- Report the fault of a result from a scope. -/
def Scope.wrap {α : Type} (scope : Scope) : Except Fault α → Except Fault α
  | .ok value => .ok value
  | .error fault => .error (.within scope fault)

@[simp] theorem Scope.wrap_eq_ok_iff {α : Type} {scope : Scope} {result : Except Fault α}
    {value : α} : scope.wrap result = .ok value ↔ result = .ok value := by
  cases result <;> simp [wrap]

/-- Two steps give a value if the first gives one with which the second gives it. -/
theorem bind_eq_ok_iff {α β : Type} {first : Except Fault α} {next : α → Except Fault β}
    {value : β} : first >>= next = .ok value ↔ ∃ a, first = .ok a ∧ next a = .ok value := by
  cases first with
  | ok a => exact ⟨fun h => ⟨a, rfl, h⟩, fun ⟨_, ha, h⟩ => Except.ok.inj ha ▸ h⟩
  | error fault =>
    constructor
    · intro h
      cases h
    · rintro ⟨_, ha, -⟩
      cases ha

theorem toOption_eq_some_iff {α : Type} {result : Except Fault α} {value : α} :
    result.toOption = some value ↔ result = .ok value := by
  cases result <;> simp [Except.toOption]

theorem exists_of_isSome_toOption {α : Type} {result : Except Fault α}
    (h : result.toOption.isSome = true) : ∃ value, result = .ok value := by
  obtain ⟨value, hvalue⟩ := Option.isSome_iff_exists.1 h
  exact ⟨value, toOption_eq_some_iff.1 hvalue⟩

/-- A test of the value, if there is one, finds a value with the property. -/
theorem exists_of_any_toOption {α : Type} {result : Except Fault α} {P : α → Prop}
    [DecidablePred P] (h : result.toOption.any (fun value => decide (P value)) = true) :
    ∃ value, result = .ok value ∧ P value := by
  obtain ⟨value, hvalue, hP⟩ := (Option.any_eq_true _ _).1 h
  exact ⟨value, toOption_eq_some_iff.1 hvalue, of_decide_eq_true hP⟩

/-- The items of a list all have values if the first one has, and all others. -/
theorem mapM_cons_eq_ok_iff {α β : Type} {f : α → Except Fault β} {item : α} {rest : List α}
    {values : List β} : (item :: rest).mapM f = .ok values ↔ ∃ value others,
      f item = .ok value ∧ rest.mapM f = .ok others ∧ values = value :: others := by
  rw [List.mapM_cons, bind_eq_ok_iff]
  constructor
  · rintro ⟨value, hvalue, h⟩
    obtain ⟨others, hothers, h⟩ := bind_eq_ok_iff.1 h
    cases h
    exact ⟨value, others, hvalue, hothers, rfl⟩
  · rintro ⟨value, others, hvalue, hothers, rfl⟩
    exact ⟨value, hvalue, bind_eq_ok_iff.2 ⟨others, hothers, rfl⟩⟩

/-- If the items of a list all have values, then each of them has one among these. -/
theorem exists_of_mapM_eq_ok {α β : Type} {f : α → Except Fault β} {items : List α}
    {values : List β} (h : items.mapM f = .ok values) :
    ∀ item ∈ items, ∃ value ∈ values, f item = .ok value := by
  induction items generalizing values with
  | nil => exact fun _ hitem => absurd hitem List.not_mem_nil
  | cons item rest ih =>
    obtain ⟨value, others, hvalue, hothers, rfl⟩ := mapM_cons_eq_ok_iff.1 h
    refine List.forall_mem_cons.2 ⟨⟨value, List.mem_cons_self, hvalue⟩, fun other hother => ?_⟩
    obtain ⟨found, hfound, heq⟩ := ih hothers other hother
    exact ⟨found, List.mem_cons_of_mem _ hfound, heq⟩

/-- If the items of a list all have values, then these are values of some of them. -/
theorem exists_item_of_mapM_eq_ok {α β : Type} {f : α → Except Fault β} {items : List α}
    {values : List β} (h : items.mapM f = .ok values) :
    ∀ value ∈ values, ∃ item ∈ items, f item = .ok value := by
  induction items generalizing values with
  | nil =>
    cases h
    exact fun _ hvalue => absurd hvalue List.not_mem_nil
  | cons item rest ih =>
    obtain ⟨value, others, hvalue, hothers, rfl⟩ := mapM_cons_eq_ok_iff.1 h
    refine List.forall_mem_cons.2 ⟨⟨item, List.mem_cons_self, hvalue⟩, fun other hother => ?_⟩
    obtain ⟨found, hfound, heq⟩ := ih hothers other hother
    exact ⟨found, List.mem_cons_of_mem _ hfound, heq⟩

/-- What a step needs holds for every item of a list, if the steps all succeed. -/
theorem forall_of_foldlM_eq_ok {α β : Type} {P : α → Prop} (step : β → α → Except Fault β)
    (hstep : ∀ before item after, step before item = .ok after → P item) {items : List α}
    {init last : β} (h : items.foldlM step init = .ok last) : ∀ item ∈ items, P item := by
  induction items generalizing init with
  | nil => exact fun _ hitem => absurd hitem List.not_mem_nil
  | cons item rest ih =>
    rw [List.foldlM_cons, bind_eq_ok_iff] at h
    obtain ⟨next, hnext, hlast⟩ := h
    exact List.forall_mem_cons.2 ⟨hstep init item next hnext, ih hlast⟩

/-- Steps that succeed one after another may be replaced by steps that succeed whenever they do. -/
theorem foldlM_eq_ok_mono {α β : Type} {step other : β → α → Except Fault β}
    (hstep : ∀ before item after, step before item = .ok after → other before item = .ok after)
    {items : List α} {init last : β} (h : items.foldlM step init = .ok last) :
    items.foldlM other init = .ok last := by
  induction items generalizing init with
  | nil => exact h
  | cons item rest ih =>
    rw [List.foldlM_cons, bind_eq_ok_iff] at h ⊢
    obtain ⟨next, hnext, hlast⟩ := h
    exact ⟨next, hstep init item next hnext, ih hlast⟩

end TypeEnforcement
