/-
The operations that make the modules of a project.

In either layout each module is a history of an empty module, and its operations can be read off the
project and its allocation.  No rule among them is refused, and no operation among them is a
resolution.  So what is known of histories is known of the modules of every project.

* `rulesOfEntry`, `Accepts` — the rules of an entry of a spec, and whether it has them all;
* `Assembly.baseOperations`, `Assembly.specOperations` — what is done to a module for the
  definitions of a project and for one of its specs.

Main statements:
* `addRules_of_addEntry` — adding an entry is adding its rules;
* `makes_fillBase`, `makes_addSpec` — the definitions and the rules of a spec as operations;
* `makes_collect`, `makes_specModule` — the modules of a project as histories.
-/
import TypeEnforcement.Proofs.Collection
import TypeEnforcement.Proofs.History

namespace TypeEnforcement

namespace Assembly

open PolicyModule (Operation Makes)

/-! ### The rules of entries -/

/-- The rules of a permission of an application; a permission that is refused has none. -/
def permissionRules (context : Grant.Context) (app : ConfinedApplication)
    (permission : Permission) : List Rule :=
  match (Grant.ofPermission context app.path app permission).result with
  | .ok rules => rules
  | .error _ => []

/-- The rules of an entry of a spec. -/
def rulesOfEntry (context : Grant.Context) (entry : ApplicationEntry) : List Rule :=
  match context.allocation.application? entry.path, context.allocation.file? entry.path with
  | some app, some file =>
    Grant.base app.domain ++
      (if entry.isUnconfined then
        Grant.unconfined app.domain (context.policy.hasClass "capability2") else []) ++
      Grant.entry app.domain file.typeName ++
      entry.permissions.flatMap (permissionRules context app)
  | _, _ => []

/-- An entry of a spec has an application, and none of its permissions is refused. -/
def Accepts (context : Grant.Context) (entry : ApplicationEntry) : Prop :=
  ∃ app file, context.allocation.application? entry.path = some app ∧
    context.allocation.file? entry.path = some file ∧
    ∀ permission ∈ entry.permissions, ∃ rules,
      (Grant.ofPermission context app.path app permission).result = .ok rules

variable {context : Grant.Context} {policy : SystemPolicy} {project : Project}
  {m next : PolicyModule}

theorem result_readNetResource (origin line : String) :
    (Grant.readNetResource origin line).result =
      (Scope.networkResource line).wrap (NetResource.parse line) := by
  rw [Grant.readNetResource, Report.result_bind, Report.result_ofExcept]
  -- Only the warnings tell the origin.
  cases (Scope.networkResource line).wrap (NetResource.parse line) with
  | error fault => rfl
  | ok resource =>
    show Report.result _ = _
    split
    · rfl
    · rfl

theorem result_network (policy : SystemPolicy) (a b domain : String) (permission : Permission) :
    (Grant.network policy a domain permission).result =
      (Grant.network policy b domain permission).result := by
  have hresources : (permission.resources.mapM (Grant.readNetResource a)).result =
      (permission.resources.mapM (Grant.readNetResource b)).result := by
    simp only [Report.result_mapM, result_readNetResource]
  rw [Grant.network, Grant.network]
  cases permission.actions.find? (· ∉ Socket.actions) with
  | none => simp only [Report.result_bind, hresources]
  | some action => simp only [Report.result_bind, hresources]

/-- What a permission stands for does not depend on where it is reported. -/
theorem result_ofPermission (origin : String) (app : ConfinedApplication)
    (permission : Permission) :
    (Grant.ofPermission context origin app permission).result =
      (Grant.ofPermission context app.path app permission).result := by
  unfold Grant.ofPermission
  split
  · rfl
  · rfl
  · exact result_network context.policy origin app.path app.domain permission
  · rfl

/-- Permissions that are all accepted have the rules of each of them. -/
theorem flatten_mapM_ofPermission {origin path : String} {app : ConfinedApplication}
    {permissions : List Permission} {rules : List (List Rule)}
    (h : (permissions.mapM fun permission =>
      (Scope.permission permission.kindWord path).wrap
        (Grant.ofPermission context origin app permission).result) = .ok rules) :
    rules.flatten = permissions.flatMap (permissionRules context app) := by
  induction permissions generalizing rules with
  | nil =>
    cases h
    rfl
  | cons permission rest ih =>
    obtain ⟨first, others, hfirst, hothers, rfl⟩ := mapM_cons_eq_ok_iff.1 h
    rw [Scope.wrap_eq_ok_iff, result_ofPermission] at hfirst
    rw [List.flatten_cons, List.flatMap_cons, ih hothers, permissionRules, hfirst]

/-- An entry whose rules are added has an application, and its permissions are all accepted. -/
theorem addRules_of_addEntry {entry : ApplicationEntry}
    (h : (addEntry context m entry).result = .ok next) : Accepts context entry ∧
      m.addRules context.policy (rulesOfEntry context entry) = .ok next := by
  unfold addEntry at h
  split at h
  · rename_i app file happ hfile
    rw [Report.result_bind, bind_eq_ok_iff] at h
    obtain ⟨rules, hrules, hadd⟩ := h
    rw [Report.result_ofExcept, Scope.wrap_eq_ok_iff] at hadd
    rw [entryRules, Report.result_bind, bind_eq_ok_iff] at hrules
    obtain ⟨permissions, hpermissions, hrules⟩ := hrules
    cases hrules
    simp only [Report.result_mapM, Report.result_inScope] at hpermissions
    refine ⟨⟨app, file, happ, hfile, fun permission hpermission => ?_⟩, ?_⟩
    · obtain ⟨rules, -, hrules⟩ := exists_of_mapM_eq_ok hpermissions permission hpermission
      rw [Scope.wrap_eq_ok_iff, result_ofPermission] at hrules
      exact ⟨rules, hrules⟩
    · rw [rulesOfEntry, happ, hfile]
      dsimp only
      rw [← flatten_mapM_ofPermission hpermissions]
      exact hadd
  · cases h

/-! ### The definitions -/

/-- What is done to a module for a resource. -/
def fileOperations (file : LabelledFile) : List Operation :=
  (if file.isSystem then [] else [.addFileContext file.fileContext]) ++
  if file.typeExists then [.requireType file.typeName]
  else if file.isPrivate then
    [.defineType file.typeName, .addRules (Bundle.privateType file.typeName file.fileClass)]
  else [.defineTypeWith file.typeName Grant.fileAttribute]

/-- What is done to a module for an application, apart from its rules. -/
def applicationOperations (policy : SystemPolicy) (app : ConfinedApplication) : List Operation :=
  [.defineTypeWith app.domain Grant.domainAttribute] ++
  (if app.isUnconfined then Grant.unconfinedAttributes.map (.defineTypeWith app.domain ·)
    else []) ++
  (if app.isPermissive then [.addPermissive app.domain] else []) ++
  policy.roles.map (.defineRoleType · app.domain)

/-- What is done to the module that has the definitions. -/
def baseOperations (context : Grant.Context) (project : Project) : List Operation :=
  project.extraRules.map (fun text => .addRules (Rule.parse text).toOption.toList) ++
  context.allocation.files.flatMap fileOperations ++
  context.allocation.applications.flatMap (applicationOperations context.policy)

/-- What is done to a module for a spec. -/
def specOperations (context : Grant.Context) (spec : Spec) : List Operation :=
  spec.applications.map fun entry => .addRules (rulesOfEntry context entry)

theorem makes_addExtraRule {text : String} (h : addExtraRule policy m text = .ok next) :
    m.Makes policy [.addRules (Rule.parse text).toOption.toList] next := by
  rw [addExtraRule, Scope.wrap_eq_ok_iff, bind_eq_ok_iff] at h
  obtain ⟨rule, hparse, hadd⟩ := h
  rw [hparse]
  exact PolicyModule.makes_addRules hadd

theorem makes_addFile {file : LabelledFile} (h : addFile policy m file = .ok next) :
    m.Makes policy (fileOperations file) next := by
  unfold addFile at h
  have hlabelled : m.Makes policy
      (if file.isSystem then [] else [.addFileContext file.fileContext])
      (if file.isSystem then m else m.addFileContext file.fileContext) := by
    split
    · exact .nil policy m
    · exact PolicyModule.makes_apply policy m (by simp) (by simp)
  generalize (if file.isSystem then m else m.addFileContext file.fileContext) = labelled
    at h hlabelled
  dsimp only at h
  refine hlabelled.trans ?_
  split at h
  · cases h
    rw [if_pos ‹_›]
    exact PolicyModule.makes_apply policy labelled (by simp) (by simp)
  · rw [if_neg ‹_›]
    split at h
    · rw [Scope.wrap_eq_ok_iff] at h
      rw [if_pos ‹_›]
      have hdefined : labelled.Makes policy [.defineType file.typeName]
          (labelled.defineType file.typeName) :=
        PolicyModule.makes_apply policy labelled (by simp) (by simp)
      exact hdefined.trans (PolicyModule.makes_addRules h)
    · cases h
      rw [if_neg ‹_›]
      exact PolicyModule.makes_apply policy labelled (by simp) (by simp)

theorem makes_addApplication (policy : SystemPolicy) (m : PolicyModule)
    (app : ConfinedApplication) :
    m.Makes policy (applicationOperations policy app) (addApplication policy m app) := by
  have hdefine (attr : String) (m : PolicyModule) : m.Makes policy
      [.defineTypeWith app.domain attr] (m.defineTypeWith app.domain attr) :=
    PolicyModule.makes_apply policy m (by simp) (by simp)
  have hattributes (m : PolicyModule) : m.Makes policy
      (if app.isUnconfined then Grant.unconfinedAttributes.map (.defineTypeWith app.domain ·)
        else [])
      (if app.isUnconfined then Grant.unconfinedAttributes.foldl (·.defineTypeWith app.domain ·) m
        else m) := by
    split
    · rw [List.map_eq_flatMap]
      exact PolicyModule.makes_foldl (fun m attr => hdefine attr m) _ m
    · exact .nil policy m
  have hpermissive (m : PolicyModule) : m.Makes policy
      (if app.isPermissive then [.addPermissive app.domain] else [])
      (if app.isPermissive then m.addPermissive app.domain else m) := by
    split
    · exact PolicyModule.makes_apply policy m (by simp) (by simp)
    · exact .nil policy m
  have hroles (m : PolicyModule) : m.Makes policy
      (policy.roles.map (.defineRoleType · app.domain))
      (policy.roles.foldl (·.defineRoleType · app.domain) m) := by
    rw [List.map_eq_flatMap]
    exact PolicyModule.makes_foldl (fun m role =>
      PolicyModule.makes_apply policy m (by simp) (by simp)) _ m
  exact (((hdefine _ m).trans (hattributes _)).trans (hpermissive _)).trans (hroles _)

/-- Filling a module with the definitions of a project comes down to operations. -/
theorem makes_fillBase
    (h : fillBase context.policy project context.allocation m = .ok next) :
    m.Makes context.policy (baseOperations context project) next := by
  rw [fillBase, bind_eq_ok_iff] at h
  obtain ⟨m₁, hextra, h⟩ := h
  rw [bind_eq_ok_iff] at h
  obtain ⟨m₂, hfiles, h⟩ := h
  cases h
  have hextra := PolicyModule.makes_foldlM (addExtraRule context.policy)
    (fun _ _ _ => makes_addExtraRule) hextra
  have hfiles := PolicyModule.makes_foldlM (addFile context.policy)
    (fun _ _ _ => makes_addFile) hfiles
  rw [← List.map_eq_flatMap] at hextra
  exact (hextra.trans hfiles).trans
    (PolicyModule.makes_foldl (makes_addApplication context.policy) _ m₂)

theorem name_fillBase {version : String}
    (hempty : PolicyModule.make project.baseName version = .ok m)
    (h : fillBase context.policy project context.allocation m = .ok next) :
    next.name = project.baseName := by
  rw [(makes_fillBase h).name, PolicyModule.eq_of_make hempty]

/-! ### The rules of specs -/

theorem makes_addEntry {entry : ApplicationEntry}
    (h : (addEntry context m entry).result = .ok next) :
    m.Makes context.policy [.addRules (rulesOfEntry context entry)] next :=
  PolicyModule.makes_addRules (addRules_of_addEntry h).2

/-- Adding the rules of a spec comes down to operations. -/
theorem makes_addSpec {spec : Spec} (h : (addSpec context m spec).result = .ok next) :
    m.Makes context.policy (specOperations context spec) next := by
  rw [addSpec, Report.result_foldlM] at h
  have hall := PolicyModule.makes_foldlM (fun m entry => (addEntry context m entry).result)
    (fun _ _ _ => makes_addEntry) h
  rwa [← List.map_eq_flatMap] at hall

theorem makes_addSpecs {specs : List Spec}
    (h : specs.foldlM (fun m spec => (addSpec context m spec).result) m = .ok next) :
    m.Makes context.policy (specs.flatMap (specOperations context)) next :=
  PolicyModule.makes_foldlM (fun m spec => (addSpec context m spec).result)
    (fun _ _ _ => makes_addSpec) h

/-! ### The modules of a project -/

/-- The operations that make the module with the definitions: in a monolithic project they have the
rules of the specs among them. -/
def definingOperations (context : Grant.Context) (project : Project) : List Operation :=
  baseOperations context project ++
    if project.monolithic then project.specs.flatMap (specOperations context) else []

theorem makes_specModule {spec : Spec} (h : (specModule context project spec).result = .ok m) :
    ∃ empty, PolicyModule.make (project.specName spec) project.version = .ok empty ∧
      empty.Makes context.policy (specOperations context spec) m := by
  obtain ⟨empty, hempty, hspec⟩ := specModule_cases h
  exact ⟨empty, hempty, makes_addSpec hspec⟩

theorem name_specModule {spec : Spec} (h : (specModule context project spec).result = .ok m) :
    m.name = project.specName spec := by
  obtain ⟨empty, hempty, hspec⟩ := makes_specModule h
  rw [hspec.name, PolicyModule.eq_of_make hempty]

/-- The first module of a project has the definitions, and all others are modules of specs. -/
theorem makes_collect {collected : Assembly}
    (h : (collect context project).result = .ok collected) :
    ∃ empty base others, PolicyModule.make project.baseName project.version = .ok empty ∧
      empty.Makes context.policy (definingOperations context project) base ∧
      collected.modules = base :: others ∧
      ∀ m ∈ others, ∃ spec ∈ project.specs, (specModule context project spec).result = .ok m := by
  obtain ⟨empty, base, hempty, hbase, hlayout⟩ := collect_cases h
  have hbase := makes_fillBase hbase
  obtain ⟨hmonolithic, full, hfull, rfl⟩ | ⟨hsplit, rfl⟩ := hlayout
  · refine ⟨empty, full, [], hempty, ?_, rfl, fun _ hm => absurd hm List.not_mem_nil⟩
    rw [definingOperations, if_pos hmonolithic]
    exact hbase.trans (makes_addSpecs hfull)
  · refine ⟨empty, base, _, hempty, ?_, rfl, fun m hm => mem_specModules.1 hm⟩
    rw [definingOperations, if_neg (by simp [hsplit]), List.append_nil]
    exact hbase

end Assembly

end TypeEnforcement
