/-
Which type a new object gets.

Rules that conflict leave the type of a new object open.  Resolution settles that for each module by
itself, so a module never conflicts with itself.  The modules of a project are loaded together, and
two of them may still conflict with each other, unless the rules that the project calls for do not
conflict in the first place.

* `Consistent` — no two rules of a list conflict;
* `transitionsOf` — the transition rules among rules.

Main statements:
* `transitions_consistent` — what holds of the modules of every project;
* `twoDirectories_inconsistent` — modules that conflict with each other.
-/
import TypeEnforcement.Proofs.Layout

namespace TypeEnforcement

/-- No two rules of a list conflict. -/
def Consistent (rules : List TransitionRule) : Prop :=
  ∀ a ∈ rules, ∀ b ∈ rules, ¬a.ConflictsWith b

instance (rules : List TransitionRule) : Decidable (Consistent rules) :=
  inferInstanceAs (Decidable (∀ a ∈ rules, ∀ b ∈ rules, ¬a.ConflictsWith b))

theorem Consistent.mono {rules others : List TransitionRule} (h : Consistent rules)
    (hsubset : ∀ rule ∈ others, rule ∈ rules) : Consistent others :=
  fun a ha b hb => h a (hsubset a ha) b (hsubset b hb)

/-- The transition rules among some rules. -/
def transitionsOf (rules : List Rule) : List TransitionRule :=
  rules.filterMap fun rule => match rule with
    | .transition rule => some rule
    | .access _ => none

theorem mem_transitionsOf {rules : List Rule} {rule : TransitionRule} :
    rule ∈ transitionsOf rules ↔ .transition rule ∈ rules := by
  rw [transitionsOf, List.mem_filterMap]
  constructor
  · rintro ⟨other, hother, heq⟩
    split at heq
    · cases heq
      exact hother
    · cases heq
  · exact fun h => ⟨_, h, rfl⟩

/-- There is nothing to settle in a module without conflicts. -/
theorem resolve_of_consistent {m : PolicyModule} (h : Consistent m.transitionRules) :
    m.resolve.2 = [] := by
  have hnone : firstConflict m.transitionRules = none :=
    firstConflict_eq_none_iff.2 (List.pairwise_of_forall_mem_list h)
  rw [resolve_eq_self hnone]

namespace Assembly

variable {context : Grant.Context} {project : Project} {catalog : Catalog}
  {own : Except Fault (List Installed)} {fallbackDomain : String} {collected assembly : Assembly}

/-- A module holds nothing that the project does not call for, whether other modules fail or not. -/
theorem transition_mem_calledFor (h : (collect context project).result = .ok collected)
    {m : PolicyModule} (hm : m ∈ collected.modules) {rule : TransitionRule}
    (hrule : rule ∈ m.transitionRules) : .transition rule ∈ calledFor context project := by
  have hcalled {content : Content} (hholds : Holds [m] content)
      (hsubset : ∀ r ∈ content.rules, r ∈ (projectContent context project).rules) :
      .transition rule ∈ calledFor context project := by
    rw [← rules_projectContent]
    exact hsubset _ ((hholds.transitions rule).1 ⟨m, List.mem_singleton_self m, hrule⟩)
  obtain ⟨-, full, -, hfull, rfl⟩ | ⟨-, base, -, hbase, rfl⟩ := layout_cases h
  · obtain rfl := List.mem_singleton.1 hm
    exact hcalled hfull fun _ hr => hr
  · obtain rfl | hm := List.mem_cons.1 hm
    · exact hcalled hbase fun r hr => List.mem_append_left _ hr
    · obtain ⟨spec, hspec, hm⟩ := mem_specModules.1 hm
      exact hcalled (holds_specModule hm) fun r hr =>
        List.mem_append_right _ (List.mem_flatMap.2 ⟨spec, hspec, hr⟩)

/-- No module of a project conflicts with itself, so a project that becomes one module leaves no
type open.  The modules of any project leave none open together, if the rules that the project calls
for do not. -/
theorem transitions_consistent
    (h : (ofProject project catalog own fallbackDomain).result = .ok assembly) :
    (∀ m ∈ assembly.modules, Consistent m.transitionRules) ∧
    (project.monolithic = true →
      Consistent (assembly.modules.flatMap PolicyModule.transitionRules)) ∧
    ∀ context, allocate project catalog own fallbackDomain = .ok context →
      Consistent (transitionsOf (calledFor context project)) →
      Consistent (assembly.modules.flatMap PolicyModule.transitionRules) := by
  obtain ⟨context, collected, hallocated, hcollected, rfl⟩ := exists_of_ofProject h
  have heach : ∀ m ∈ collected.resolved.modules, Consistent m.transitionRules := by
    intro m hm
    obtain ⟨before, -, rfl⟩ := List.mem_map.1 hm
    exact before.not_conflictsWith_of_resolve
  refine ⟨heach, fun hmonolithic => ?_, fun context' hallocated' hcalled => ?_⟩
  · obtain ⟨-, full, -, -, rfl⟩ | ⟨hsplit, -⟩ := layout_cases hcollected
    · simpa [resolved] using heach
    · rw [hmonolithic] at hsplit
      cases hsplit
  · obtain rfl : context = context' := Except.ok.inj (hallocated.symm.trans hallocated')
    -- Rules that are called for do not conflict, so no module makes a replacement.
    have hmem : ∀ m ∈ collected.modules, ∀ rule ∈ m.transitionRules,
        rule ∈ transitionsOf (calledFor context project) := fun m hm rule hrule =>
      mem_transitionsOf.2 (transition_mem_calledFor hcollected hm hrule)
    have hplain : ∀ m ∈ collected.modules, m.resolve.2 = [] := fun m hm =>
      resolve_of_consistent (hcalled.mono (hmem m hm))
    rw [resolved_eq_self hplain]
    refine hcalled.mono fun rule hrule => ?_
    obtain ⟨m, hm, hrule⟩ := List.mem_flatMap.1 hrule
    exact hmem m hm rule hrule

/-- Two directories of one type, each with a file of the same name.  The one file is labelled by the
system, the other by the project. -/
def twoDirectories (specs : List Spec) : Project where
  name := "demo"
  resources := [
    { path := "/app", classWord := "exec_file", isSystem := true },
    { path := "/a/x", classWord := "file", isSystem := true },
    { path := "/b/x", classWord := "file", typeName := some "two_t" }]
  specs := specs

/-- A spec whose application creates files. -/
def creator (name : String) (paths : List String) : Spec where
  name := name
  applications := [{ path := "/app", permissions := [
    { kindWord := "filesystem", resources := paths, actions := ["create"] }] }]

/-- A catalog with the classes that creating files needs. -/
def fileCatalog : Catalog :=
  let classes := [
    ("dir", ["open", "getattr", "setattr", "write", "create", "add_name", "remove_name", "rmdir",
      "search"]),
    ("chr_file", ["append", "read", "write", "getattr", "ioctl"]),
    ("file", ["open", "getattr", "setattr", "write", "create", "execute", "read", "map",
      "entrypoint"]),
    ("process", ["sigchld", "rlimitinh", "siginh", "transition"])]
  .make { classes := .ofList (classes.map fun (name, names) => (name, .ofList names)) }
    [.bind "/(a|b)?" .directory (.object "dir_t")] [.bind "/app" .file (.object "app_exec_t")]
    [.bind "/a/x" .file (.object "one_t")]

/-- Two specs that make files of one name in directories of one type, each in a module of its own,
do not agree on the type of such a file. -/
theorem twoDirectories_inconsistent :
    let project := twoDirectories [creator "one.json" ["/a/x"], creator "two.json" ["/b/x"]]
    project.check = .ok () ∧ ∃ assembly,
      (ofProject project fileCatalog (.ok []) "init_t").result = .ok assembly ∧
      ¬Consistent (assembly.modules.flatMap PolicyModule.transitionRules) := by
  intro project
  have hanswer : (ofProject project fileCatalog (.ok []) "init_t").result.toOption.any
      fun assembly => ¬Consistent (assembly.modules.flatMap PolicyModule.transitionRules) := by
    decide +kernel
  exact ⟨by decide +kernel, exists_of_any_toOption hanswer⟩

theorem twoDirectories_transitions_consistent :
    let specs := [creator "one.json" ["/a/x"], creator "two.json" ["/b/x"]]
    let one := { twoDirectories specs with monolithic := true }
    let few := twoDirectories (specs.take 1)
    (∃ assembly, (ofProject one fileCatalog (.ok []) "init_t").result = .ok assembly ∧
      Consistent (assembly.modules.flatMap PolicyModule.transitionRules)) ∧
    ∃ context assembly, allocate few fileCatalog (.ok []) "init_t" = .ok context ∧
      (ofProject few fileCatalog (.ok []) "init_t").result = .ok assembly ∧
      Consistent (transitionsOf (calledFor context few)) ∧
      Consistent (assembly.modules.flatMap PolicyModule.transitionRules) := by
  intro specs one few
  have hone : (ofProject one fileCatalog (.ok []) "init_t").result.toOption.isSome := by
    decide +kernel
  have hfew : (ofProject few fileCatalog (.ok []) "init_t").result.toOption.isSome := by
    decide +kernel
  have hcalled : (allocate few fileCatalog (.ok []) "init_t").toOption.any
      fun context => decide (Consistent (transitionsOf (calledFor context few))) := by
    decide +kernel
  obtain ⟨assembly, hone⟩ := exists_of_isSome_toOption hone
  obtain ⟨assembly', hfew⟩ := exists_of_isSome_toOption hfew
  obtain ⟨context, hallocated, hcalled⟩ := exists_of_any_toOption hcalled
  obtain ⟨-, hmonolithic, -⟩ := transitions_consistent hone
  obtain ⟨-, -, hcalledFor⟩ := transitions_consistent hfew
  exact ⟨⟨assembly, hone, hmonolithic rfl⟩, context, assembly', hallocated, hfew, hcalled,
    hcalledFor context hallocated hcalled⟩

end Assembly

end TypeEnforcement
