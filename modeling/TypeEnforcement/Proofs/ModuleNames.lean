/-
The names of the modules of a project.

A module is named after its project.  In a split project an ending follows, which is the stem of the
name of a spec, or `public` for the module that has the definitions.

* `Project.endings` — the endings of the names of the modules of a split project;
* `Assembly.builtSpecs` — the specs that have a module.

Main statements:
* `isPlain_of_check` — files and directories may be named after modules;
* `nodup_names_iff` — the names of the modules of a project differ unless two have one ending.
-/
import Mathlib.Data.List.Nodup
import TypeEnforcement.Proofs.Footprint
import TypeEnforcement.Proofs.ModuleHistory

namespace TypeEnforcement

/-! ### Modules as names of files -/

/-- A name that a module may have is one component of a path, and so is a file named after it. -/
theorem isPlain_of_check {name ending : String} (h : ModuleName.check name = .ok ())
    (hending : '/' ∉ ending.toList) : FileTree.IsPlain (name ++ ending) := by
  obtain ⟨hwell, -⟩ := ModuleName.check_eq_ok_iff.1 h
  obtain ⟨hform, -⟩ := Bool.and_eq_true_iff.1 hwell
  cases hname : name.toList with
  | nil => simp [hname] at hform
  | cons c rest =>
    rw [hname] at hform
    obtain ⟨hfirst, hrest⟩ := Bool.and_eq_true_iff.1 hform
    have hchars : (name ++ ending).toList = c :: (rest ++ ending.toList) := by
      rw [String.toList_append, hname, List.cons_append]
    -- The first character keeps the name from being a step up or none at all.
    refine FileTree.isPlain_of_toList hchars ?_ ?_
    · rintro rfl
      exact absurd hfirst (by decide)
    · rw [hchars]
      intro hslash
      rcases List.mem_cons.1 hslash with rfl | hslash
      · exact absurd hfirst (by decide)
      · rcases List.mem_append.1 hslash with hslash | hslash
        · exact absurd (List.all_eq_true.1 hrest _ hslash) (by decide)
        · exact hending hslash

theorem isPlain_name {name : String} (h : ModuleName.check name = .ok ()) :
    FileTree.IsPlain name := by
  have hempty : '/' ∉ "".toList := by decide
  simpa using isPlain_of_check h hempty

/-! ### Endings -/

namespace Project

/-- What the names of the modules of a split project end in. -/
def endings (specs : List Spec) : List String :=
  "public" :: specs.map Spec.stem

theorem injective_append (front : String) : Function.Injective (front ++ ·) := by
  intro text other h
  have hchars := congrArg String.toList h
  rw [String.toList_append, String.toList_append, List.append_cancel_left_eq] at hchars
  exact String.toList_inj.1 hchars

theorem baseName_cons_specNames {project : Project} (hsplit : project.monolithic = false)
    (specs : List Spec) : project.baseName :: specs.map project.specName =
      (endings specs).map (project.name ++ "_" ++ ·) := by
  have hbase : project.baseName = project.name ++ "_" ++ "public" := by
    rw [baseName, if_neg (by simp [hsplit]), String.append_assoc]
    rfl
  rw [endings, List.map_cons, hbase, List.map_map]
  rfl

end Project

namespace Assembly

variable {context : Grant.Context} {project : Project} {collected : Assembly}

/-- The specs that have a module. -/
def builtSpecs (context : Grant.Context) (project : Project) : List Spec :=
  project.specs.filter fun spec => (specModule context project spec).result.isOk

theorem names_specModules (context : Grant.Context) (project : Project) (specs : List Spec) :
    (specModules context project specs).map PolicyModule.name =
      (specs.filter fun spec => (specModule context project spec).result.isOk).map
        project.specName := by
  induction specs with
  | nil => rfl
  | cons spec rest ih =>
    rw [specModules_cons, List.map_append, ih, List.filter_cons]
    cases hspec : (specModule context project spec).result with
    | ok m =>
      have hname := name_specModule hspec
      simp [specModules, hspec, Except.toOption, Except.isOk, Except.toBool, hname]
    | error fault => simp [specModules, hspec, Except.toOption, Except.isOk, Except.toBool]

theorem builtSpecs_eq_self (h : specFailures context project project.specs = []) :
    builtSpecs context project = project.specs := by
  refine List.filter_eq_self.2 fun spec hspec => ?_
  obtain ⟨m, hm⟩ := exists_of_specFailures_eq_nil h spec hspec
  rw [hm]
  rfl

/-- Each module of a project has a name that modules may have. -/
theorem check_name_of_collect (h : (collect context project).result = .ok collected) :
    ∀ m ∈ collected.modules, ModuleName.check m.name = .ok () := by
  obtain ⟨empty, base, hempty, hbase, hlayout⟩ := collect_cases h
  have hname := name_fillBase hempty hbase
  have hchecked : ModuleName.check base.name = .ok () := by
    rw [hname]
    exact PolicyModule.check_name_of_make hempty
  obtain ⟨-, full, hfull, rfl⟩ | ⟨-, rfl⟩ := hlayout
  · refine List.forall_mem_singleton.2 ?_
    rwa [(makes_addSpecs hfull).name]
  · refine List.forall_mem_cons.2 ⟨hchecked, fun m hm => ?_⟩
    obtain ⟨spec, -, hspec⟩ := mem_specModules.1 hm
    obtain ⟨empty, hempty, -⟩ := specModule_cases hspec
    rw [name_specModule hspec]
    exact PolicyModule.check_name_of_make hempty

/-- The names of modules differ if there is one of them only, or their endings differ. -/
theorem nodup_names_iff (h : (collect context project).result = .ok collected) :
    (collected.modules.map PolicyModule.name).Nodup ↔
      project.monolithic = true ∨ (Project.endings (builtSpecs context project)).Nodup := by
  obtain ⟨empty, base, hempty, hbase, hlayout⟩ := collect_cases h
  have hname := name_fillBase hempty hbase
  obtain ⟨hmonolithic, full, -, rfl⟩ | ⟨hsplit, rfl⟩ := hlayout
  · simp [hmonolithic]
  · have hnames : ((base :: specModules context project project.specs).map PolicyModule.name) =
        (Project.endings (builtSpecs context project)).map (project.name ++ "_" ++ ·) := by
      rw [List.map_cons, hname, names_specModules, ← builtSpecs,
        Project.baseName_cons_specNames hsplit]
    rw [hnames, List.nodup_map_iff (Project.injective_append _)]
    simp [hsplit]

variable {catalog : Catalog} {own : Except Fault (List Installed)} {fallbackDomain : String}
  {assembly : Assembly}

theorem names_resolved (collected : Assembly) :
    collected.resolved.modules.map PolicyModule.name =
      collected.modules.map PolicyModule.name := by
  rw [resolved, List.map_map]
  exact List.map_congr_left fun m _ => PolicyModule.name_resolve m

theorem check_name_of_ofProject
    (h : (ofProject project catalog own fallbackDomain).result = .ok assembly) :
    ∀ m ∈ assembly.modules, ModuleName.check m.name = .ok () := by
  obtain ⟨context, collected, -, hcollected, rfl⟩ := exists_of_ofProject h
  refine List.forall_mem_map.2 fun m hm => ?_
  rw [PolicyModule.name_resolve]
  exact check_name_of_collect hcollected m hm

/-- The specs that have a module decide whether the names of the modules differ, and every spec has
one unless there are failures. -/
theorem nodup_names_of_ofProject
    (h : (ofProject project catalog own fallbackDomain).result = .ok assembly) :
    ∃ context, allocate project catalog own fallbackDomain = .ok context ∧
      ((assembly.modules.map PolicyModule.name).Nodup ↔
        project.monolithic = true ∨ (Project.endings (builtSpecs context project)).Nodup) ∧
      (project.monolithic = false → assembly.failures = [] →
        builtSpecs context project = project.specs) := by
  obtain ⟨context, collected, hallocated, hcollected, rfl⟩ := exists_of_ofProject h
  refine ⟨context, hallocated, ?_, fun hmodules hwhole => ?_⟩
  · rw [names_resolved, nodup_names_iff hcollected]
  · obtain ⟨_, _, -, -, ⟨hmonolithic, -⟩ | ⟨-, hsplit⟩⟩ := collect_cases hcollected
    · rw [hmonolithic] at hmodules
      cases hmodules
    · rw [hsplit] at hwhole
      exact builtSpecs_eq_self hwhole

end Assembly

end TypeEnforcement
