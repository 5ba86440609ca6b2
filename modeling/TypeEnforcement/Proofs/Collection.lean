/-
How the modules of a project come about.

The modules are collected one after another and then resolved one by one.  There is one of them, or
one for each spec beside the one that has the definitions.

* `specModules`, `specFailures` — the modules of specs, and those that are left out;
* `resolved` — an assembly with the conflicts of its modules resolved.

Main statements:
* `collect_cases` — the modules of either layout;
* `exists_of_ofProject` — an assembled project was allocated, collected and resolved.
-/
import TypeEnforcement.Assembly
import TypeEnforcement.Proofs.Resolution

namespace TypeEnforcement

namespace Assembly

variable {context : Grant.Context} {project : Project} {m : PolicyModule}

/-! ### The modules of specs -/

/-- The modules of specs, as far as they can be assembled. -/
def specModules (context : Grant.Context) (project : Project) (specs : List Spec) :
    List PolicyModule :=
  specs.filterMap fun spec => (specModule context project spec).result.toOption

/-- The modules of specs that cannot be assembled, with the reason. -/
def specFailures (context : Grant.Context) (project : Project) (specs : List Spec) :
    List (String × Fault) :=
  specs.filterMap fun spec => match (specModule context project spec).result with
    | .ok _ => none
    | .error fault => some (project.specName spec, fault)

theorem specModule_cases {spec : Spec} (h : (specModule context project spec).result = .ok m) :
    ∃ empty, PolicyModule.make (project.specName spec) project.version = .ok empty ∧
      (addSpec context empty spec).result = .ok m := by
  rwa [specModule, Report.result_inScope, Scope.wrap_eq_ok_iff, Report.result_bind,
    bind_eq_ok_iff] at h

theorem mem_specModules {specs : List Spec} : m ∈ specModules context project specs ↔
    ∃ spec ∈ specs, (specModule context project spec).result = .ok m := by
  simp only [specModules, List.mem_filterMap, toOption_eq_some_iff]

theorem exists_of_specFailures_eq_nil {specs : List Spec}
    (h : specFailures context project specs = []) :
    ∀ spec ∈ specs, ∃ m, (specModule context project spec).result = .ok m := by
  intro spec hspec
  have hnone := List.filterMap_eq_nil_iff.1 h spec hspec
  split at hnone
  · rename_i m hm
    exact ⟨m, hm⟩
  · cases hnone

theorem specModules_cons (context : Grant.Context) (project : Project) (spec : Spec)
    (rest : List Spec) : specModules context project (spec :: rest) =
      specModules context project [spec] ++ specModules context project rest :=
  List.filterMap_append (l := [spec])

theorem specFailures_cons (context : Grant.Context) (project : Project) (spec : Spec)
    (rest : List Spec) : specFailures context project (spec :: rest) =
      specFailures context project [spec] ++ specFailures context project rest :=
  List.filterMap_append (l := [spec])

/-- The module of a spec joins the others, or there is one failure more. -/
theorem result_addSpecModule {assembly after : Assembly} {spec : Spec}
    (h : (addSpecModule context project assembly spec).result = .ok after) :
    after = { modules := assembly.modules ++ specModules context project [spec]
              failures := assembly.failures ++ specFailures context project [spec] } := by
  rw [addSpecModule, Report.result_bind, Report.result_attempt] at h
  cases hspec : (specModule context project spec).result with
  | ok m =>
    rw [hspec] at h
    cases h
    simp [specModules, specFailures, hspec, Except.toOption]
  | error fault =>
    rw [hspec] at h
    obtain ⟨result, hresult, h⟩ := bind_eq_ok_iff.1 h
    cases hresult
    dsimp only at h
    split at h
    · -- A fault that stops all leaves no assembly.
      cases h
    · cases h
      simp [specModules, specFailures, hspec, Except.toOption]

theorem result_addSpecModules {assembly after : Assembly} {specs : List Spec}
    (h : (specs.foldlM (addSpecModule context project) assembly).result = .ok after) :
    after = { modules := assembly.modules ++ specModules context project specs
              failures := assembly.failures ++ specFailures context project specs } := by
  rw [Report.result_foldlM] at h
  induction specs generalizing assembly with
  | nil =>
    cases h
    simp [specModules, specFailures]
  | cons spec rest ih =>
    rw [List.foldlM_cons, bind_eq_ok_iff] at h
    obtain ⟨next, hnext, h⟩ := h
    obtain rfl := result_addSpecModule hnext
    rw [ih h, specModules_cons _ _ spec rest, specFailures_cons _ _ spec rest, List.append_assoc,
      List.append_assoc]

/-! ### The modules of a project -/

/-- The first module has the definitions.  It takes in the rules of all specs, or every spec has a
module of its own. -/
theorem collect_cases {collected : Assembly}
    (h : (collect context project).result = .ok collected) :
    ∃ empty base, PolicyModule.make project.baseName project.version = .ok empty ∧
      fillBase context.policy project context.allocation empty = .ok base ∧
      ((project.monolithic = true ∧ ∃ full,
          project.specs.foldlM (fun m spec => (addSpec context m spec).result) base = .ok full ∧
          collected = { modules := [full] }) ∨
        project.monolithic = false ∧
          collected = { modules := base :: specModules context project project.specs
                        failures := specFailures context project project.specs }) := by
  rw [collect, Report.result_bind, bind_eq_ok_iff] at h
  obtain ⟨empty, hempty, h⟩ := h
  rw [Report.result_bind, bind_eq_ok_iff] at h
  obtain ⟨base, hbase, h⟩ := h
  rw [Report.result_ofExcept, Scope.wrap_eq_ok_iff] at hbase
  refine ⟨empty, base, hempty, hbase, ?_⟩
  split at h
  · rename_i hmonolithic
    rw [Report.result_bind, bind_eq_ok_iff] at h
    obtain ⟨full, hfull, h⟩ := h
    cases h
    rw [Report.result_foldlM] at hfull
    refine .inl ⟨hmonolithic, full, ?_, rfl⟩
    exact foldlM_eq_ok_mono (fun _ _ _ hspec => Scope.wrap_eq_ok_iff.1 hspec) hfull
  · rename_i hsplit
    exact .inr ⟨by simpa using hsplit, result_addSpecModules h⟩

/-- An assembly with the conflicts of its modules resolved. -/
def resolved (collected : Assembly) : Assembly :=
  { collected with modules := collected.modules.map fun m => m.resolve.1 }

theorem resolved_eq_self {collected : Assembly} (h : ∀ m ∈ collected.modules, m.resolve.2 = []) :
    collected.resolved = collected := by
  have hmodules : collected.modules.map (fun m => m.resolve.1) = collected.modules.map id :=
    List.map_congr_left fun m hm => resolve_of_no_replacement (h m hm)
  rw [resolved, hmodules, List.map_id]

theorem result_mapM_resolveModule (modules : List PolicyModule) :
    (modules.mapM resolveModule).result = .ok (modules.map fun m => m.resolve.1) := by
  rw [Report.result_mapM]
  induction modules with
  | nil => rfl
  | cons m rest ih =>
    rw [List.mapM_cons, ih]
    rfl

theorem result_make (context : Grant.Context) (project : Project) :
    (make context project).result = (collect context project).result.map resolved := by
  rw [make, Report.result_bind]
  cases (collect context project).result with
  | error fault => rfl
  | ok collected =>
    show (collected.modules.mapM resolveModule >>= fun modules => _).result = _
    rw [Report.result_bind, result_mapM_resolveModule]
    rfl

/-- A project that is assembled was allocated; its modules were collected and resolved. -/
theorem exists_of_ofProject {catalog : Catalog} {own : Except Fault (List Installed)}
    {fallbackDomain : String} {assembly : Assembly}
    (h : (ofProject project catalog own fallbackDomain).result = .ok assembly) :
    ∃ context collected, allocate project catalog own fallbackDomain = .ok context ∧
      (collect context project).result = .ok collected ∧ assembly = collected.resolved := by
  rw [ofProject, Report.result_bind, Report.result_ofExcept, bind_eq_ok_iff] at h
  obtain ⟨context, hallocated, h⟩ := h
  rw [result_make] at h
  cases hcollected : (collect context project).result with
  | error fault =>
    rw [hcollected] at h
    cases h
  | ok collected =>
    rw [hcollected] at h
    cases h
    exact ⟨context, collected, hallocated, hcollected, rfl⟩

end Assembly

end TypeEnforcement
