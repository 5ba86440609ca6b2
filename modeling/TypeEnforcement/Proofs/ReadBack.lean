/-
Reading back the artifacts of a project.

All names in the artifacts of a project are words, apart from the paths of its resources: a path
goes into a pattern, and its last component into the name of an object, as it stands.  So the
artifacts say what the modules hold just if the paths are words too.

* `AllQuotable` — rules whose objects have names that statements can quote.

Main statements:
* `allQuotable_calledFor` — the objects of a project have the names of its files;
* `artifacts_read_back` — when the artifacts of a project are read back;
* `spacedFile_not_read_back` — a file with a blank in its name.
-/
import TypeEnforcement.Proofs.DeclaredAccess
import TypeEnforcement.Proofs.NamedModules
import TypeEnforcement.Proofs.PathPatterns
import TypeEnforcement.Proofs.Support

namespace TypeEnforcement

/-! ### Names of objects -/

open Rule (IsQuotable)

/-- The names of objects in rules can be quoted in statements. -/
def AllQuotable (rules : List Rule) : Prop :=
  ∀ rule, .transition rule ∈ rules → ∀ name ∈ rule.name, IsQuotable name

theorem AccessOnly.allQuotable {rules : List Rule} (h : AccessOnly rules) : AllQuotable rules :=
  fun rule hrule => absurd hrule (h rule)

theorem AllQuotable.append {a b : List Rule} (ha : AllQuotable a) (hb : AllQuotable b) :
    AllQuotable (a ++ b) := by
  intro rule hrule
  exact (List.mem_append.1 hrule).elim (ha rule) (hb rule)

theorem AllQuotable.flatMap {α : Type} {items : List α} {f : α → List Rule}
    (h : ∀ item ∈ items, AllQuotable (f item)) : AllQuotable (items.flatMap f) := by
  intro rule hrule
  obtain ⟨item, hitem, hrule⟩ := List.mem_flatMap.1 hrule
  exact h item hitem rule hrule

theorem allQuotable_ite {c : Prop} [Decidable c] {a b : List Rule} (ha : AllQuotable a)
    (hb : AllQuotable b) : AllQuotable (if c then a else b) := by
  split
  · exact ha
  · exact hb

theorem allQuotable_domainTransition (subject entry target : String) :
    AllQuotable (Bundle.domainTransition subject entry target) := by
  intro rule hrule name hname
  have heq : rule = .make subject entry "process" target none := by
    simpa [Bundle.domainTransition, Bundle.allow] using hrule
  rw [heq] at hname
  cases (Rule.mem_name_make.1 hname).1

/-- Files whose names can be quoted, if they have any. -/
def Path.HasQuotableName (path : String) : Prop :=
  fileName path.toList = [] ∨ IsQuotable (String.ofList (fileName path.toList))

instance (path : String) : Decidable (Path.HasQuotableName path) :=
  inferInstanceAs (Decidable (_ ∨ _))

namespace Grant

variable {domain fallback : String} {actions : List String}

theorem allQuotable_fileCreation {file : LabelledFile} (h : Path.HasQuotableName file.path) :
    AllQuotable (fileCreation domain file) := by
  intro rule hrule name hname
  obtain ⟨c, -, rfl⟩ := exists_of_transition_mem_fileCreation hrule
  obtain ⟨hname, hne⟩ := Rule.mem_name_make.1 hname
  obtain rfl := Option.mem_some_iff.1 hname
  exact h.resolve_left fun hnil => hne (by rw [hnil])

theorem allQuotable_fileActions {file : LabelledFile} (h : Path.HasQuotableName file.path) :
    AllQuotable (fileActions fallback domain actions file) := by
  have hnone : AllQuotable [] := accessOnly_nil.allQuotable
  refine .append (.append (.append (.append ?_ ?_) ?_) ?_) ?_
  · exact (accessOnly_fileItself _ _ _).allQuotable
  · exact allQuotable_ite (allQuotable_domainTransition _ _ _) hnone
  · exact allQuotable_ite (allQuotable_fileCreation h) hnone
  · exact allQuotable_ite (accessOnly_directoryChange _ _).allQuotable hnone
  · exact allQuotable_ite accessOnly_nil.cons.allQuotable hnone

theorem allQuotable_filesystem {allocation : Allocation} {permission : Permission}
    {rules : List Rule} (hfiles : ∀ file ∈ allocation.files, Path.HasQuotableName file.path)
    (h : filesystem allocation fallback domain permission = .ok rules) : AllQuotable rules := by
  obtain ⟨files, rfl, -, hfound⟩ := exists_of_filesystem h
  refine .flatMap fun file hfile => ?_
  obtain ⟨path, -, hpath⟩ := hfound file hfile
  exact allQuotable_fileActions (hfiles file (List.mem_of_find?_eq_some hpath))

/-- Only filesystem permissions are about named objects. -/
theorem allQuotable_ofPermission {context : Context} {origin : String}
    {app : ConfinedApplication} {permission : Permission} {rules : List Rule}
    (hfiles : ∀ file ∈ context.allocation.files, Path.HasQuotableName file.path)
    (h : (ofPermission context origin app permission).result = .ok rules) : AllQuotable rules := by
  unfold ofPermission at h
  split at h
  · exact allQuotable_filesystem hfiles h
  · exact (accessOnly_capability h).allQuotable
  · exact (accessOnly_network h).allQuotable
  · cases h
    exact accessOnly_nil.allQuotable

end Grant

namespace Assembly

variable {context : Grant.Context} {project : Project} {catalog : Catalog}
  {own : Except Fault (List Installed)} {fallbackDomain : String} {collected assembly : Assembly}

theorem allQuotable_rulesOfEntry
    (hfiles : ∀ file ∈ context.allocation.files, Path.HasQuotableName file.path)
    (entry : ApplicationEntry) : AllQuotable (rulesOfEntry context entry) := by
  have hnone : AllQuotable [] := accessOnly_nil.allQuotable
  unfold rulesOfEntry
  split
  · refine .append (.append (.append ?_ ?_) ?_) (.flatMap fun permission _ => ?_)
    · exact (Grant.accessOnly_base _).allQuotable
    · exact allQuotable_ite (Grant.accessOnly_unconfined _ _).allQuotable hnone
    · exact allQuotable_domainTransition _ _ _
    · unfold permissionRules
      split
      · rename_i rules hrules
        exact Grant.allQuotable_ofPermission hfiles hrules
      · exact hnone
  · exact hnone

/-- The names of objects in the rules of a project are those of its files, and those in hand-written
rules, which were read from statements. -/
theorem allQuotable_calledFor
    (hfiles : ∀ file ∈ context.allocation.files, Path.HasQuotableName file.path) :
    AllQuotable (calledFor context project) := by
  have hwritten : AllQuotable (handWrittenRules project) := by
    refine .flatMap fun text _ rule hrule => ?_
    rw [Option.mem_toList, toOption_eq_some_iff] at hrule
    exact (Rule.isReadable_of_parse hrule).name
  have hprivate : AllQuotable (context.allocation.files.flatMap privateRules) :=
    .flatMap fun file _ => (accessOnly_ite (accessOnly_privateType _ _) accessOnly_nil).allQuotable
  unfold calledFor
  exact .append (.append hwritten hprivate) (.flatMap fun entry _ =>
    allQuotable_rulesOfEntry hfiles entry)

/-! ### Patterns of a project -/

/-- The patterns in the modules of a project are those of the resources that it labels. -/
theorem forall_patterns_iff {P : String → Prop}
    (h : (ofProject project catalog own fallbackDomain).result = .ok assembly) :
    (∀ m ∈ assembly.modules, ∀ entry ∈ m.fileContexts, P entry.pattern) ↔
      ∀ resource ∈ project.resources, resource.isSystem = false →
        P (String.ofList (Path.labelPattern resource.path.toList)) := by
  obtain ⟨context, collected, hallocated, hcollected, rfl⟩ := exists_of_ofProject h
  obtain ⟨labels, rest, hmodules, hlabels, hrest⟩ := exists_labels hcollected
  have hdescribes := describes_of_allocate hallocated
  -- A resolution changes no pattern.
  have hpatterns : (∀ m ∈ collected.resolved.modules, ∀ entry ∈ m.fileContexts, P entry.pattern) ↔
      ∀ file ∈ context.allocation.files, file.isSystem = false → P file.pattern := by
    rw [← List.forall_mem_flatMap (p := fun entry : FileContext => P entry.pattern),
      fileContexts_resolved hmodules hlabels hrest, List.forall_mem_map, newFileContexts,
      List.forall_mem_map]
    simp only [List.mem_filter, Bool.not_eq_true', and_imp]
    rfl
  rw [hpatterns]
  generalize context.allocation.files = files, project.resources = resources at hdescribes ⊢
  induction hdescribes with
  | nil => simp
  | cons hfile _ ih =>
    rw [List.forall_mem_cons, List.forall_mem_cons, hfile.isSystem, hfile.pattern]
    exact and_congr_right fun _ => ih

/-- The files of a project have the paths of its resources. -/
theorem forall_paths {P : String → Prop} {resources : List Resource} {files : List LabelledFile}
    (h : List.Forall₂ LabelledFile.Describes resources files)
    (hpaths : ∀ resource ∈ resources, P resource.path) : ∀ file ∈ files, P file.path := by
  induction h with
  | nil => simp
  | cons hfile _ ih =>
    obtain ⟨hfirst, hrest⟩ := List.forall_mem_cons.1 hpaths
    exact List.forall_mem_cons.2 ⟨hfile.path ▸ hfirst, ih hrest⟩

end Assembly

/-! ### Artifacts -/

theorem FileContext.IsNamed.isReadable_label {entry : FileContext} (h : entry.IsNamed) :
    entry.label.IsReadable := by
  obtain ⟨typeName, hname, heq⟩ := h
  rw [heq]
  have hfixed : ∀ field ∈ ["system_u", "object_r", "s0", ""], ∀ c ∈ field.toList,
      Text.isBlank c = false ∧ c ≠ ':' := by decide
  simp only [List.forall_mem_cons] at hfixed
  obtain ⟨huser, hrole, hsensitivity, hcategories, -⟩ := hfixed
  have htype : ∀ c ∈ typeName.toList, Text.isBlank c = false ∧ c ≠ ':' := fun c hc =>
    ⟨hname.1.2 c hc, fun heq => hname.2 (heq ▸ hc)⟩
  constructor
  · simp only [List.forall_mem_cons]
    exact ⟨huser, hrole, htype, hsensitivity, hcategories, by simp⟩
  · exact fun _ => rfl

theorem FileContext.IsNamed.valid_eq {entry : FileContext} (h : entry.IsNamed) :
    entry.valid = (entry.matcher.isSome && decide (entry.label ≠ {})) := by
  obtain ⟨typeName, -, heq⟩ := h
  rw [heq]
  rfl

namespace Assembly

/-- The file contexts of a project are read back just if the paths that it labels have no blanks.
The rules of a module are read back just if the names of objects in them can be quoted, as they can
if the names of all files can. -/
theorem artifacts_read_back (hcheck : project.check = .ok ()) (hcatalog : catalog.IsReadable)
    (hfallback : Rule.IsName fallbackDomain)
    (h : (ofProject project catalog own fallbackDomain).result = .ok assembly) :
    ((∀ m ∈ assembly.modules, FileContext.parseAll m.fileContextText = m.fileContexts) ↔
      ∀ resource ∈ project.resources, resource.isSystem = false →
        ∀ c ∈ resource.path.toList, Text.isBlank c = false) ∧
    (∀ m ∈ assembly.modules, Rule.parseAll m.typeEnforcement = .ok m.rulesInOrder ↔
      ∀ rule ∈ m.transitionRules, ∀ name ∈ rule.name, IsQuotable name) ∧
    ((∀ resource ∈ project.resources, Path.HasQuotableName resource.path) →
      ∀ m ∈ assembly.modules, Rule.parseAll m.typeEnforcement = .ok m.rulesInOrder) := by
  obtain ⟨policy, hpolicy, hmodules⟩ := isNamed_of_ofProject hcatalog hfallback h
  have habsolute : ∀ resource ∈ project.resources, resource.path.toList.head? = some '/' := by
    obtain ⟨-, -, -, hpaths, -⟩ := Project.check_cases hcheck
    exact fun resource hresource => ((Project.checkPaths_eq_ok_iff.1 hpaths).1 resource hresource).1
  have hslash : ∀ m ∈ assembly.modules, ∀ entry ∈ m.fileContexts,
      entry.pattern.toList.head? = some '/' := by
    refine (forall_patterns_iff (P := fun pattern => pattern.toList.head? = some '/') h).2
      fun resource hresource _ => ?_
    rw [String.toList_ofList]
    exact Path.head?_labelPattern (habsolute resource hresource)
  have hfileContexts : ∀ m ∈ assembly.modules,
      (FileContext.parseAll m.fileContextText = m.fileContexts ↔
        ∀ entry ∈ m.fileContexts, ∀ c ∈ entry.pattern.toList, Text.isBlank c = false) := by
    intro m hm
    have hentries := (hmodules m hm).1.entries
    rw [PolicyModule.parseAll_fileContextText_iff (fun entry hentry =>
      (hentries entry hentry).isReadable_label) (fun entry hentry =>
      (hentries entry hentry).valid_eq) fun entry hentry => ?_]
    · refine forall₂_congr fun entry hentry => and_iff_right fun hempty => ?_
      have hfirst := hslash m hm entry hentry
      rw [hempty] at hfirst
      cases hfirst
    · rw [String.front_eq, String.front?_eq, hslash m hm entry hentry]
      decide
  have hrules : ∀ m ∈ assembly.modules, (Rule.parseAll m.typeEnforcement = .ok m.rulesInOrder ↔
      ∀ rule ∈ m.transitionRules, ∀ name ∈ rule.name, IsQuotable name) := by
    intro m hm
    obtain ⟨hnamed, hmerged⟩ := hmodules m hm
    have hline : ∀ name ∈ m.headerNames, '\n' ∉ name.toList := fun name hname hmem =>
      absurd ((hnamed.header name hname).1.2 '\n' hmem) (by decide)
    rw [PolicyModule.parseAll_typeEnforcement_iff hline, PolicyModule.rulesInOrder,
      List.forall_mem_append, List.forall_mem_map, List.forall_mem_map]
    refine (and_iff_right (hnamed.isReadable_access hpolicy hmerged)).trans ?_
    exact forall₂_congr fun rule hrule => hnamed.isReadable_transition_iff hrule
  refine ⟨?_, hrules, fun hnames m hm => (hrules m hm).2 ?_⟩
  · rw [forall₂_congr hfileContexts, forall_patterns_iff
      (P := fun pattern => ∀ c ∈ pattern.toList, Text.isBlank c = false) h]
    simp only [String.toList_ofList, Path.forall_mem_labelPattern_iff]
  · obtain ⟨context, collected, hallocated, hcollected, rfl⟩ := exists_of_ofProject h
    have hquotable : AllQuotable (calledFor context project) :=
      allQuotable_calledFor (forall_paths (describes_of_allocate hallocated) hnames)
    obtain ⟨before, hbefore, rfl⟩ := List.mem_map.1 hm
    intro rule hrule
    obtain ⟨old, hold, rfl⟩ := exists_of_mem_transitionRules_rounds (rounds_resolve before) hrule
    exact hquotable old (transition_mem_calledFor hcollected hbefore hold)

/-- A project with an application that creates a file at a path. -/
def fileMaker (path : String) : Project where
  name := "demo"
  resources := [
    { path := "/app", classWord := "exec_file", isSystem := true },
    { path := path, classWord := "file", typeName := some "two_t" }]
  specs := [creator "app.json" [path]]

/-- The line of a file with a blank in its path is no entry, and the rule that names the file is
read as a rule for another one. -/
theorem spacedFile_not_read_back : (fileMaker "/a/my file").check = .ok () ∧ ∃ assembly,
    (ofProject (fileMaker "/a/my file") fileCatalog (.ok []) "init_t").result = .ok assembly ∧
    (∃ m ∈ assembly.modules, FileContext.parseAll m.fileContextText ≠ m.fileContexts) ∧
    ∃ m ∈ assembly.modules, Rule.parseAll m.typeEnforcement ≠ .ok m.rulesInOrder := by
  have hanswer : (ofProject (fileMaker "/a/my file") fileCatalog (.ok [])
      "init_t").result.toOption.any fun assembly =>
        (∃ m ∈ assembly.modules, ∃ entry ∈ m.fileContexts, ¬Text.IsWord entry.pattern) ∧
        ∃ m ∈ assembly.modules, ∃ rule ∈ m.transitionRules, ∃ name ∈ rule.name.toList,
          ¬IsQuotable name := by
    decide +kernel
  obtain ⟨assembly, hassembly, ⟨m, hm, entry, hentry, hpattern⟩,
    m', hm', rule, hrule, name, hname, hquote⟩ := exists_of_any_toOption hanswer
  refine ⟨by decide +kernel, assembly, hassembly, ⟨m, hm, fun hread => ?_⟩,
    m', hm', fun hread => ?_⟩
  · rw [← hread] at hentry
    exact hpattern (FileContext.isWord_pattern_of_mem_parseAll hentry)
  · have hreadable := Rule.isReadable_of_parseAll hread (.transition rule)
      (List.mem_append_right _ (List.mem_map_of_mem hrule))
    exact hquote (hreadable.name name (Option.mem_toList.1 hname))

theorem isReadable_fileCatalog : fileCatalog.IsReadable := by
  refine Catalog.isReadable_make ⟨?_, ?_, ?_⟩ (by decide +kernel)
  · exact fun role hrole => absurd hrole List.not_mem_nil
  · decide +kernel
  · exact fun range hrange => absurd hrange List.not_mem_nil

theorem plainFile_read_back : ∃ assembly,
    (ofProject (fileMaker "/a/y") fileCatalog (.ok []) "init_t").result = .ok assembly ∧
    ∀ m ∈ assembly.modules, FileContext.parseAll m.fileContextText = m.fileContexts ∧
      Rule.parseAll m.typeEnforcement = .ok m.rulesInOrder := by
  have hanswer : (ofProject (fileMaker "/a/y") fileCatalog (.ok [])
      "init_t").result.toOption.isSome := by decide +kernel
  obtain ⟨assembly, hassembly⟩ := exists_of_isSome_toOption hanswer
  obtain ⟨hfileContexts, -, hrules⟩ := artifacts_read_back (by decide +kernel)
    isReadable_fileCatalog (by decide) hassembly
  have hunblank : ∀ resource ∈ (fileMaker "/a/y").resources, resource.isSystem = false →
      ∀ c ∈ resource.path.toList, Text.isBlank c = false := by decide
  have hnames : ∀ resource ∈ (fileMaker "/a/y").resources,
      Path.HasQuotableName resource.path := by
    decide +kernel
  exact ⟨assembly, hassembly, fun m hm => ⟨hfileContexts.2 hunblank m hm, hrules hnames m hm⟩⟩

end Assembly

end TypeEnforcement
