/-
Which types a resolution makes one.

Two transitions that conflict ask for one target where they name two.  A resolution makes one what
must be one and nothing else: its renaming is a most general one among those that leave no conflict.
What it can rename at all are the targets of transitions.  In a project without hand-written rules
these are the domains of applications and of executables, and the types of created files, whether
they are types of the host or of the project.

* `Settles` — a function on names leaves no conflict among rules;
* `Directs` — the transitions that an entry of a spec calls for.

Main statements:
* `Rounds.absorbs` — a function that settles the rules takes a replaced name where it takes the
  other one;
* `renameAll_eq_iff` — which names a resolution makes one;
* `renamed_types_directed` — which types are renamed in the modules of a project;
* `twoHelpers_fallback_renamed` — the fallback domain can be among them.
-/
import TypeEnforcement.Proofs.Discarded
import TypeEnforcement.Proofs.Support

namespace TypeEnforcement

/-! ### Settling conflicts -/

/-- A function on names leaves no conflict among rules. -/
def Settles (f : String → String) (rules : List TransitionRule) : Prop :=
  Consistent (rules.map (·.mapNames f))

namespace Settles

variable {f : String → String} {m next : PolicyModule} {r : Replacement}

/-- The rules of a conflict get one target. -/
theorem eq_of_round (hf : Settles f m.transitionRules) (h : Round m r next) :
    f r.source = f r.target := by
  obtain ⟨a, ha, b, hb, ⟨hsubject, hobject, hclass, hname, -⟩, rfl⟩ := firstConflict_eq_some h.1
  by_contra hne
  refine hf _ (List.mem_map_of_mem ha) _ (List.mem_map_of_mem hb) ?_
  exact ⟨congrArg f hsubject, congrArg f hobject, hclass, hname, fun heq => hne heq.symm⟩

/-- A round makes no difference. -/
theorem absorbs_round (hf : Settles f m.transitionRules) (h : Round m r next) (name : String) :
    f (r.rename name) = f name := by
  by_cases hname : name = r.source
  · rw [hname, r.rename_source]
    exact (hf.eq_of_round h).symm
  · rw [Replacement.rename_of_ne hname]

theorem of_round (hf : Settles f m.transitionRules) (h : Round m r next) :
    Settles f next.transitionRules := by
  refine Consistent.mono hf fun rule hrule => ?_
  obtain ⟨-, rfl⟩ := id h
  obtain ⟨middle, hmiddle, rfl⟩ := List.mem_map.1 hrule
  obtain ⟨old, hold, rfl⟩ := mem_replaceTransitions.1 hmiddle
  refine List.mem_map.2 ⟨old, hold, ?_⟩
  simp only [TransitionRule.mapNames, TransitionRule.replace, hf.absorbs_round h]

end Settles

/-- A name is the target of a transition rule of a module. -/
def PolicyModule.HasTarget (m : PolicyModule) (name : String) : Prop :=
  ∃ rule ∈ m.transitionRules, rule.target = name

/-- A target after a round was one before, or is the one that the round kept. -/
theorem Round.hasTarget_of_next {m next : PolicyModule} {r : Replacement} (h : Round m r next)
    {name : String} (hname : next.HasTarget name) : m.HasTarget name := by
  obtain ⟨-, htarget, -⟩ := h.exists_targets
  obtain ⟨-, rfl⟩ := h
  obtain ⟨rule, hrule, rfl⟩ := hname
  obtain ⟨old, hold, rfl⟩ := mem_replaceTransitions.1 hrule
  show m.HasTarget (r.rename old.target)
  unfold Replacement.rename
  split
  · exact htarget
  · exact ⟨old, hold, rfl⟩

namespace Rounds

variable {m last : PolicyModule} {replacements : List Replacement}

/-- Whatever settles the rules does not tell a name from what it is renamed to. -/
theorem absorbs (h : Rounds m replacements last) {f : String → String}
    (hf : Settles f m.transitionRules) (name : String) :
    f (renameAll replacements name) = f name := by
  induction h generalizing name with
  | done m => rfl
  | step hround _ ih => rw [renameAll_cons, ih (hf.of_round hround), hf.absorbs_round hround]

theorem mapNames_mem (h : Rounds m replacements last) {rule : TransitionRule}
    (hrule : rule ∈ m.transitionRules) :
    rule.mapNames (renameAll replacements) ∈ last.transitionRules := by
  induction h generalizing rule with
  | done m => exact hrule
  | @step m next last r rest hround _ ih =>
    obtain ⟨-, rfl⟩ := hround
    exact ih (mem_replaceTransitions.2 ⟨rule, hrule, rfl⟩)

/-- A target after rounds was one before. -/
theorem hasTarget_of_last (h : Rounds m replacements last) {name : String}
    (hname : last.HasTarget name) : m.HasTarget name := by
  induction h with
  | done m => exact hname
  | step hround _ ih => exact hround.hasTarget_of_next (ih hname)

/-- Replacements are about targets. -/
theorem hasTarget_of_mem (h : Rounds m replacements last) {r : Replacement}
    (hr : r ∈ replacements) : m.HasTarget r.source ∧ m.HasTarget r.target := by
  induction h with
  | done m => cases hr
  | step hround _ ih =>
    rcases List.mem_cons.1 hr with rfl | hr
    · obtain ⟨hsource, htarget, -⟩ := hround.exists_targets
      exact ⟨hsource, htarget⟩
    · obtain ⟨hsource, htarget⟩ := ih hr
      exact ⟨hround.hasTarget_of_next hsource, hround.hasTarget_of_next htarget⟩

/-- Targets are renamed to targets. -/
theorem hasTarget_renameAll (h : Rounds m replacements last) {name : String}
    (hname : m.HasTarget name) : m.HasTarget (renameAll replacements name) := by
  obtain ⟨rule, hrule, rfl⟩ := hname
  exact h.hasTarget_of_last ⟨_, h.mapNames_mem hrule, rfl⟩

end Rounds

theorem settles_renameAll (m : PolicyModule) :
    Settles (renameAll m.resolve.2) m.transitionRules := by
  have hconsistent : Consistent m.resolve.1.transitionRules := m.not_conflictsWith_of_resolve
  refine hconsistent.mono fun rule hrule => ?_
  obtain ⟨old, hold, rfl⟩ := List.mem_map.1 hrule
  exact (rounds_resolve m).mapNames_mem hold

/-- A resolution makes two names one exactly if everything does that settles the rules. -/
theorem renameAll_eq_iff (m : PolicyModule) (a b : String) :
    renameAll m.resolve.2 a = renameAll m.resolve.2 b ↔
      ∀ f, Settles f m.transitionRules → f a = f b := by
  constructor
  · intro heq f hf
    rw [← (rounds_resolve m).absorbs hf a, heq, (rounds_resolve m).absorbs hf b]
  · exact fun h => h _ (settles_renameAll m)

/-- The names that a resolution changes are those that it discards. -/
theorem renameAll_ne_self_iff (m : PolicyModule) (name : String) :
    renameAll m.resolve.2 name ≠ name ↔ ∃ r ∈ m.resolve.2, r.source = name := by
  constructor
  · intro hne
    by_contra hnone
    exact hne (renameAll_eq_self fun r hr heq => hnone ⟨r, hr, heq.symm⟩)
  · rintro ⟨r, hr, rfl⟩
    exact (rounds_resolve m).renameAll_ne_source hr r.source

/-- A name that a resolution changes was a target, and becomes one. -/
theorem hasTarget_of_renameAll_ne {m : PolicyModule} {name : String}
    (h : renameAll m.resolve.2 name ≠ name) :
    m.HasTarget name ∧ m.HasTarget (renameAll m.resolve.2 name) := by
  obtain ⟨r, hr, rfl⟩ := (renameAll_ne_self_iff m name).1 h
  obtain ⟨hsource, -⟩ := (rounds_resolve m).hasTarget_of_mem hr
  exact ⟨hsource, (rounds_resolve m).hasTarget_renameAll hsource⟩

/-! ### The transitions of a project -/

/-- The transitions that an entry of a spec calls for: whoever executes the application enters its
domain, the application enters the domains of the files that it executes, and the files that it
creates get their types. -/
inductive Directs (context : Grant.Context) (entry : ApplicationEntry) : TransitionRule → Prop
  | enter {app : ConfinedApplication} {file : LabelledFile}
      (happ : context.allocation.application? entry.path = some app)
      (hfile : context.allocation.file? entry.path = some file) :
      Directs context entry
        (.make Grant.domainAttribute file.typeName "process" app.domain none)
  | execute {app : ConfinedApplication} {permission : Permission} {path : String}
      {file : LabelledFile} (happ : context.allocation.application? entry.path = some app)
      (hpermission : permission ∈ entry.permissions)
      (hkind : PermissionKind.ofKeyword? permission.kindWord = some .filesystem)
      (hexec : "exec" ∈ permission.actions) (hpath : path ∈ permission.resources)
      (hfile : context.allocation.file? path = some file) :
      Directs context entry (.make app.domain file.typeName "process"
        (file.domain.getD context.fallbackDomain) none)
  | create {app : ConfinedApplication} {permission : Permission} {path : String}
      {file : LabelledFile} {c : FileClass}
      (happ : context.allocation.application? entry.path = some app)
      (hpermission : permission ∈ entry.permissions)
      (hkind : PermissionKind.ofKeyword? permission.kindWord = some .filesystem)
      (hcreate : "create" ∈ permission.actions) (hpath : path ∈ permission.resources)
      (hfile : context.allocation.file? path = some file) (hc : c ∈ file.fileClass.members) :
      Directs context entry (.make app.domain file.parentType c.kernelClass file.typeName
        (some (String.ofList (Path.fileName file.path.toList))))

namespace Grant

theorem exists_of_transition_mem_domainTransition {subject entry target : String}
    {rule : TransitionRule} (h : .transition rule ∈ Bundle.domainTransition subject entry target) :
    rule = .make subject entry "process" target none := by
  simpa [Bundle.domainTransition, Bundle.allow] using h

/-- The transitions of a permission on files are those of executing and creating them. -/
theorem exists_of_transition_mem_fileActions {fallback domain : String} {actions : List String}
    {file : LabelledFile} {rule : TransitionRule}
    (h : .transition rule ∈ fileActions fallback domain actions file) :
    "exec" ∈ actions ∧
        rule = .make domain file.typeName "process" (file.domain.getD fallback) none ∨
      "create" ∈ actions ∧ ∃ c ∈ file.fileClass.members,
        rule = .make domain file.parentType c.kernelClass file.typeName
          (some (String.ofList (Path.fileName file.path.toList))) := by
  simp only [fileActions, List.mem_append, or_assoc] at h
  rcases h with h | h | h | h | h
  · exact absurd h (accessOnly_fileItself _ _ _ rule)
  · split at h
    · exact .inl ⟨‹_›, exists_of_transition_mem_domainTransition h⟩
    · cases h
  · split at h
    · exact .inr ⟨‹_›, exists_of_transition_mem_fileCreation h⟩
    · cases h
  · exact absurd h (accessOnly_ite (accessOnly_directoryChange _ _) accessOnly_nil rule)
  · exact absurd h (accessOnly_ite accessOnly_nil.cons accessOnly_nil rule)

theorem exists_of_transition_mem_filesystem {allocation : Allocation} {fallback domain : String}
    {permission : Permission} {rules : List Rule} {rule : TransitionRule}
    (h : filesystem allocation fallback domain permission = .ok rules)
    (hrule : .transition rule ∈ rules) :
    ∃ path ∈ permission.resources, ∃ file, allocation.file? path = some file ∧
      .transition rule ∈ fileActions fallback domain permission.actions file := by
  obtain ⟨files, rfl, -, hfiles⟩ := exists_of_filesystem h
  obtain ⟨file, hfile, hrule⟩ := List.mem_flatMap.1 hrule
  obtain ⟨path, hpath, hfound⟩ := hfiles file hfile
  exact ⟨path, hpath, file, hfound, hrule⟩

end Grant

namespace Assembly

variable {context : Grant.Context} {project : Project} {catalog : Catalog}
  {own : Except Fault (List Installed)} {fallbackDomain : String} {collected assembly : Assembly}

theorem directs_of_mem_rulesOfEntry {entry : ApplicationEntry} {rule : TransitionRule}
    (h : .transition rule ∈ rulesOfEntry context entry) : Directs context entry rule := by
  unfold rulesOfEntry at h
  split at h
  · rename_i app file happ hfile
    simp only [List.mem_append, or_assoc] at h
    rcases h with h | h | h | h
    · exact absurd h (Grant.accessOnly_base _ rule)
    · exact absurd h (accessOnly_ite (Grant.accessOnly_unconfined _ _) accessOnly_nil rule)
    · rw [Grant.exists_of_transition_mem_domainTransition h]
      exact .enter happ hfile
    · obtain ⟨permission, hpermission, h⟩ := List.mem_flatMap.1 h
      unfold permissionRules Grant.ofPermission at h
      split at h
      · rename_i rules hrules
        split at hrules
        · rename_i hkind
          obtain ⟨path, hpath, found, hfound, h⟩ :=
            Grant.exists_of_transition_mem_filesystem hrules h
          obtain ⟨hexec, rfl⟩ | ⟨hcreate, c, hc, rfl⟩ :=
            Grant.exists_of_transition_mem_fileActions h
          · exact .execute happ hpermission hkind hexec hpath hfound
          · exact .create happ hpermission hkind hcreate hpath hfound hc
        · exact absurd h (Grant.accessOnly_capability hrules rule)
        · exact absurd h (Grant.accessOnly_network hrules rule)
        · cases hrules
          cases h
      · cases h
  · cases h

/-- The transitions in the modules of a project that are not hand-written are those that its entries
call for. -/
theorem directs_of_collect (h : (collect context project).result = .ok collected)
    (hextra : ∀ text ∈ project.extraRules, ∀ rule, Rule.parse text ≠ .ok (.transition rule))
    {m : PolicyModule} (hm : m ∈ collected.modules) {rule : TransitionRule}
    (hrule : rule ∈ m.transitionRules) :
    ∃ entry ∈ project.entries, Directs context entry rule := by
  have hcalled := transition_mem_calledFor h hm hrule
  rw [← rules_projectContent, projectContent, Content.rules_append] at hcalled
  rcases List.mem_append.1 hcalled with hbase | hspecs
  · exact absurd hbase (accessOnly_baseContent hextra rule)
  · obtain ⟨spec, hspec, hrule⟩ := List.mem_flatMap.1 hspecs
    obtain ⟨entry, hentry, hrule⟩ := List.mem_flatMap.1 hrule
    exact ⟨entry, List.mem_flatMap.2 ⟨spec, hspec, hentry⟩, directs_of_mem_rulesOfEntry hrule⟩

/-- Which types are renamed in the modules of a project without hand-written transitions, whether
they are types of the host or not.  A type gives way to another one only if both are targets of
transitions that entries of the project call for, and only if every function on names that leaves no
conflict among the transitions of the module makes the two one.  All other types stay.  Accesses are
renamed as the types are. -/
theorem renamed_types_directed
    (h : (ofProject project catalog own fallbackDomain).result = .ok assembly)
    (hextra : ∀ text ∈ project.extraRules, ∀ rule, Rule.parse text ≠ .ok (.transition rule)) :
    ∃ context collected, allocate project catalog own fallbackDomain = .ok context ∧
      (collect context project).result = .ok collected ∧ assembly = collected.resolved ∧
      ∀ m ∈ collected.modules,
        let s := renameAll m.resolve.2
        (∀ rule ∈ m.transitionRules, ∃ entry ∈ project.entries, Directs context entry rule) ∧
        (∀ r ∈ m.resolve.2, r.source ≠ r.target ∧ m.HasTarget r.source ∧ m.HasTarget r.target) ∧
        (∀ name, (∃ r ∈ m.resolve.2, r.source = name) ↔ s name ≠ name) ∧
        (∀ a b, s a = s b ↔ ∀ f, Settles f m.transitionRules → f a = f b) ∧
        (∀ name, ¬m.HasTarget name → s name = name) ∧
        ∀ target permission, m.resolve.1.Grants target permission ↔
          ∃ old, old.mapNames s = target ∧ m.Grants old permission := by
  obtain ⟨context, collected, hallocated, hcollected, rfl⟩ := exists_of_ofProject h
  refine ⟨context, collected, hallocated, hcollected, rfl, fun m hm => ?_⟩
  have hrounds := rounds_resolve m
  refine ⟨fun rule hrule => directs_of_collect hcollected hextra hm hrule,
    fun r hr => ⟨hrounds.source_ne_target hr, hrounds.hasTarget_of_mem hr⟩,
    fun name => (renameAll_ne_self_iff m name).symm, renameAll_eq_iff m, fun name hnone => ?_,
    fun _ _ => hrounds.grants_mapNames_iff⟩
  by_contra hne
  exact hnone (hasTarget_of_renameAll_ne hne).1

/-- An application that executes two files of one type, of which only the first has a domain. -/
def twoHelpers : Project where
  name := "demo"
  resources := [
    { path := "/app", classWord := "exec_file", isSystem := true },
    { path := "/opt/one", classWord := "exec_file", isSystem := true, domain := some "helper_t" },
    { path := "/opt/two", classWord := "exec_file", isSystem := true }]
  specs := [{ name := "app.json", applications := [{ path := "/app", permissions := [
    { kindWord := "filesystem", resources := ["/opt/one", "/opt/two"], actions := ["exec"] }] }] }]

/-- A host with the fallback domain, and with the classes that executing files needs. -/
def helperCatalog : Catalog :=
  let classes := [
    ("dir", ["search", "getattr"]), ("chr_file", ["append", "read", "write", "getattr", "ioctl"]),
    ("file", ["open", "read", "getattr", "execute", "execute_no_trans", "map", "entrypoint"]),
    ("process", ["sigchld", "rlimitinh", "siginh", "transition"])]
  .make { types := .ofList ["unconfined_t"]
          classes := .ofList (classes.map fun (name, names) => (name, .ofList names)) }
    [.bind "/(opt)?" .directory (.object "root_t")] [.bind "/app" .file (.object "app_exec_t")]
    [.bind "/opt/.*" .file (.object "tool_t")]

theorem twoHelpers_renamed_types_directed :
    (∃ assembly,
      (ofProject twoHelpers helperCatalog (.ok []) "unconfined_t").result = .ok assembly) ∧
    (∀ text ∈ twoHelpers.extraRules, ∀ rule, Rule.parse text ≠ .ok (.transition rule)) ∧
    ∃ context collected, (collect context twoHelpers).result = .ok collected ∧
      ∀ m ∈ collected.modules,
        (∀ rule ∈ m.transitionRules, ∃ entry ∈ twoHelpers.entries, Directs context entry rule) ∧
        ∀ name, ¬m.HasTarget name → renameAll m.resolve.2 name = name := by
  have hextra : ∀ text ∈ twoHelpers.extraRules, ∀ rule, Rule.parse text ≠ .ok (.transition rule) :=
    fun _ htext => absurd htext List.not_mem_nil
  have hanswer : (ofProject twoHelpers helperCatalog (.ok []) "unconfined_t").result.toOption.isSome
      := by decide +kernel
  obtain ⟨assembly, hassembly⟩ := exists_of_isSome_toOption hanswer
  obtain ⟨context, collected, -, hcollected, -, hmodules⟩ :=
    renamed_types_directed hassembly hextra
  refine ⟨⟨assembly, hassembly⟩, hextra, context, collected, hcollected, fun m hm => ?_⟩
  obtain ⟨hdirects, -, -, -, hstays, -⟩ := hmodules m hm
  exact ⟨hdirects, hstays⟩

/-- The second file leads into the fallback domain, which the host defines.  The domain of the first
one takes its place, and its accesses. -/
theorem twoHelpers_fallback_renamed :
    twoHelpers.check = .ok () ∧ twoHelpers.extraRules = [] ∧
    helperCatalog.policy.definesType "unconfined_t" = true ∧
    (ofProject twoHelpers helperCatalog (.ok []) "unconfined_t").result.toOption.isSome ∧
    ∃ context collected,
      allocate twoHelpers helperCatalog (.ok []) "unconfined_t" = .ok context ∧
      (collect context twoHelpers).result = .ok collected ∧
      ∃ m ∈ collected.modules, ⟨"unconfined_t", "helper_t"⟩ ∈ m.resolve.2 ∧
        (∃ rule ∈ m.accessRules, rule.subject = "unconfined_t") ∧
        ¬∃ rule ∈ m.resolve.1.accessRules, rule.subject = "unconfined_t" := by
  have hanswer : (allocate twoHelpers helperCatalog (.ok []) "unconfined_t").toOption.any
      fun context => (collect context twoHelpers).result.toOption.any fun collected =>
        decide (∃ m ∈ collected.modules, ⟨"unconfined_t", "helper_t"⟩ ∈ m.resolve.2 ∧
          (∃ rule ∈ m.accessRules, rule.subject = "unconfined_t") ∧
          ¬∃ rule ∈ m.resolve.1.accessRules, rule.subject = "unconfined_t") := by
    decide +kernel
  obtain ⟨context, hallocated, hanswer⟩ := (Option.any_eq_true _ _).1 hanswer
  obtain ⟨collected, hcollected, hanswer⟩ := exists_of_any_toOption hanswer
  rw [toOption_eq_some_iff] at hallocated
  exact ⟨by decide +kernel, rfl, by decide, by decide +kernel, context, collected, hallocated,
    hcollected, hanswer⟩

end Assembly

end TypeEnforcement
