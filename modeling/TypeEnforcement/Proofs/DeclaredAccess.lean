/-
Whether applications may do with files what their permissions say.

The rules for a file name the type that the file was allocated, and the file context that labels it
names that type too.  Resolution may rename the type, but it renames it module by module, and only
a monolithic project has the rules and the labels in one module.

* `Allows` — a domain is granted what some actions mean on the files of a type;
* `Assembly.newFileContexts` — the file contexts that a project calls for;
* `Assembly.HasSpec` — a module has the rules of a spec.

Main statements:
* `allows_filesystem` — the rules of a permission grant what it asks for;
* `declared_access` — what is granted on the label that a file gets;
* `twoDirectories_label_without_rules` — a label that no rule speaks of.
-/
import TypeEnforcement.Proofs.Ambiguity
import TypeEnforcement.Proofs.Labelling

namespace TypeEnforcement

/-! ### The rules of a permission -/

theorem FileClass.members_eq_singleton {a c : FileClass} (h : c ∈ a.members) : c.members = [c] := by
  cases a with
  | any =>
    have hconcrete : ∀ c ∈ concrete, c.members = [c] := by decide
    exact hconcrete c h
  | _ =>
    obtain rfl := List.mem_singleton.1 h
    rfl

/-- The permissions of several actions are those of each of them. -/
theorem FileAction.mem_permissionsOf {c : FileClass} {actions : List String} {permission : String} :
    permission ∈ permissionsOf c actions ↔
      ∃ action ∈ actions, action ≠ mount ∧
        permission ∈ (permissions? c action).getD [action] := by
  simp [permissionsOf, and_assoc]

/-- Some rules allow a domain what actions mean on the files of a type, for every kind of object
that a class stands for. -/
def Allows (Grants : AccessTarget → String → Prop) (domain typeName : String)
    (fileClass : FileClass) (actions : List String) : Prop :=
  ∀ action ∈ actions, action ≠ FileAction.mount → ∀ c ∈ fileClass.members,
    ∀ permission ∈ FileAction.permissionsOf c [action],
      Grants ⟨.allow, domain, typeName, c.kernelClass⟩ permission

namespace Grant

theorem allows_fileItself (domain : String) (file : LabelledFile) (actions : List String) :
    Allows (fun target permission => ∃ rule, .access rule ∈ fileItself domain file actions ∧
      rule.Grants target permission) domain file.typeName file.fileClass actions := by
  intro action haction hmount c hc permission hpermission
  have hpermission : permission ∈ FileAction.permissionsOf c actions := by
    rw [FileAction.mem_permissionsOf] at hpermission ⊢
    obtain ⟨other, hother, hne, hpermission⟩ := hpermission
    obtain rfl := List.mem_singleton.1 hother
    exact ⟨other, haction, hne, hpermission⟩
  refine ⟨.allow domain file.typeName c.kernelClass (FileAction.permissionsOf c actions), ?_, rfl,
    Actions.covers_ofList.2 (.inr hpermission)⟩
  refine List.mem_flatMap.2 ⟨c, hc, ?_⟩
  have hsome : (FileAction.permissionsOf c actions).isEmpty = false := by
    simpa using List.ne_nil_of_mem hpermission
  simp [hsome, Bundle.fileAccess, Bundle.allow, FileClass.kernelClasses,
    FileClass.members_eq_singleton hc]

/-- The rules of a filesystem permission allow its actions on each file that it names. -/
theorem allows_filesystem {allocation : Allocation} {fallback domain : String}
    {permission : Permission} {rules : List Rule} {path : String} {file : LabelledFile}
    (h : filesystem allocation fallback domain permission = .ok rules)
    (hpath : path ∈ permission.resources) (hfile : allocation.file? path = some file) :
    Allows (fun target permission => ∃ rule, .access rule ∈ rules ∧ rule.Grants target permission)
      domain file.typeName file.fileClass permission.actions := by
  obtain ⟨files, rfl, hfiles, -⟩ := exists_of_filesystem h
  obtain ⟨found, hfound, heq⟩ := hfiles path hpath
  obtain rfl := Option.some.inj (hfile.symm.trans heq)
  intro action haction hmount c hc permission hpermission
  obtain ⟨rule, hrule, hgrants⟩ :=
    allows_fileItself domain file _ action haction hmount c hc permission hpermission
  refine ⟨rule, List.mem_flatMap.2 ⟨file, hfound, ?_⟩, hgrants⟩
  simp only [fileActions, List.append_assoc]
  exact List.mem_append_left _ hrule

end Grant

namespace Assembly

variable {context : Grant.Context} {project : Project} {catalog : Catalog}
  {own : Except Fault (List Installed)} {fallbackDomain : String} {collected assembly : Assembly}

theorem allows_permissionRules {app : ConfinedApplication} {permission : Permission} {path : String}
    {file : LabelledFile} (hkind : PermissionKind.ofKeyword? permission.kindWord = some .filesystem)
    (haccepted : ∃ rules, (Grant.ofPermission context app.path app permission).result = .ok rules)
    (hpath : path ∈ permission.resources) (hfile : context.allocation.file? path = some file) :
    Allows (fun target name => ∃ rule, .access rule ∈ permissionRules context app permission ∧
      rule.Grants target name) app.domain file.typeName file.fileClass permission.actions := by
  obtain ⟨rules, hrules⟩ := haccepted
  rw [permissionRules, hrules]
  have hfilesystem : Grant.filesystem context.allocation context.fallbackDomain app.domain
      permission = .ok rules := by
    rw [← hrules, Grant.ofPermission, hkind]
    rfl
  exact Grant.allows_filesystem hfilesystem hpath hfile

/-! ### The labels of a project -/

/-- The file contexts that a project calls for. -/
def newFileContexts (allocation : Allocation) : List FileContext :=
  (allocation.files.filter fun file => !file.isSystem).map LabelledFile.fileContext

theorem fileContexts_applicationContent (policy : SystemPolicy) (app : ConfinedApplication) :
    (applicationContent policy app).fileContexts = [] := by
  unfold applicationContent
  split <;> split <;> simp [Content.ofAll]

theorem fileContexts_baseContent (context : Grant.Context) (project : Project) :
    (baseContent context project).fileContexts = newFileContexts context.allocation := by
  have hfiles (files : List LabelledFile) :
      (files.flatMap fun file => (fileContent file).fileContexts) =
        (files.filter fun file => !file.isSystem).map LabelledFile.fileContext := by
    induction files with
    | nil => rfl
    | cons file rest ih =>
      rw [List.flatMap_cons, ih, fileContent]
      cases hsystem : file.isSystem <;> simp [hsystem]
  simp [baseContent, Content.ofAll, fileContexts_applicationContent, hfiles, newFileContexts]

/-- The labels of a project are all in its first module. -/
theorem exists_labels (h : (collect context project).result = .ok collected) :
    ∃ labels rest, collected.modules = labels :: rest ∧
      labels.fileContexts = newFileContexts context.allocation ∧
      ∀ m ∈ rest, m.fileContexts = [] := by
  have hcontexts {m : PolicyModule} {content : Content} (hholds : Holds [m] content) :
      m.fileContexts = content.fileContexts := by
    simpa using hholds.fileContexts
  obtain ⟨-, full, -, hfull, rfl⟩ | ⟨-, base, -, hbase, rfl⟩ := layout_cases h
  · refine ⟨full, [], rfl, ?_, fun _ hm => absurd hm List.not_mem_nil⟩
    rw [hcontexts hfull, projectContent, Content.fileContexts_append, fileContexts_baseContent]
    simp [Content.ofAll, specContent]
  · refine ⟨base, _, rfl, ?_, fun m hm => ?_⟩
    · rw [hcontexts hbase, fileContexts_baseContent]
    · obtain ⟨spec, -, hm⟩ := mem_specModules.1 hm
      exact hcontexts (holds_specModule hm)

/-- Resolution renames labels as the module that has them renames types. -/
theorem fileContexts_resolved {labels : PolicyModule} {rest : List PolicyModule}
    {entries : List FileContext} (hmodules : collected.modules = labels :: rest)
    (hlabels : labels.fileContexts = entries) (hrest : ∀ m ∈ rest, m.fileContexts = []) :
    collected.resolved.modules.flatMap PolicyModule.fileContexts =
      entries.map (·.mapType (renameAll labels.resolve.2)) := by
  have hresolve (m : PolicyModule) : m.resolve.1.fileContexts =
      m.fileContexts.map (·.mapType (renameAll m.resolve.2)) := (rounds_resolve m).fileContexts_eq
  have hnone : rest.flatMap (fun m => m.resolve.1.fileContexts) = [] :=
    List.flatMap_eq_nil_iff.2 fun m hm => by rw [hresolve, hrest m hm, List.map_nil]
  rw [resolved, hmodules, List.map_cons, List.flatMap_cons, List.flatMap_map, hnone,
    List.append_nil, hresolve, hlabels]

/-! ### The module of a spec -/

/-- A module has the rules of a spec: the one module of a monolithic project, or a module with a
name of its own. -/
structure HasSpec (context : Grant.Context) (project : Project) (collected : Assembly) (spec : Spec)
    (m : PolicyModule) : Prop where
  mem : m ∈ collected.modules
  name : m.name = if project.monolithic then project.name else project.specName spec
  alone : project.monolithic = true → collected.modules = [m]
  grants : ∀ rule target permission, .access rule ∈ (specContent context spec).rules →
    rule.Grants target permission → m.Grants target permission

theorem exists_hasSpec (h : (collect context project).result = .ok collected)
    (hwhole : collected.failures = []) {spec : Spec} (hspec : spec ∈ project.specs) :
    ∃ m, HasSpec context project collected spec m := by
  have hgrants {m : PolicyModule} {content : Content} (hholds : Holds [m] content)
      (hsubset : ∀ r ∈ (specContent context spec).rules, r ∈ content.rules) (rule : AccessRule)
      (target : AccessTarget) (permission : String)
      (hrule : .access rule ∈ (specContent context spec).rules)
      (hrequest : rule.Grants target permission) : m.Grants target permission := by
    simpa using (hholds.grants target permission).2 ⟨rule, hsubset _ hrule, hrequest⟩
  -- The one module has more rules than those of the spec; the module of the spec has no others.
  obtain ⟨hmonolithic, full, hname, hfull, rfl⟩ | ⟨hsplit, base, -, -, rfl⟩ := layout_cases h
  · refine ⟨full, List.mem_singleton_self full, ?_, fun _ => rfl, hgrants hfull fun r hr => ?_⟩
    · rw [hname, Project.baseName]
      simp [hmonolithic]
    · exact List.mem_append_right _ (List.mem_flatMap.2 ⟨spec, hspec, hr⟩)
  · obtain ⟨m, hm⟩ := exists_of_specFailures_eq_nil hwhole spec hspec
    refine ⟨m, List.mem_cons_of_mem _ (mem_specModules.2 ⟨spec, hspec, hm⟩), ?_,
      fun hmonolithic => ?_, hgrants (holds_specModule hm) fun _ hr => hr⟩
    · rw [name_specModule hm]
      simp [hsplit]
    · rw [hsplit] at hmonolithic
      cases hmonolithic

/-- The module of a spec allows what the permissions of its entries ask for. -/
theorem HasSpec.allows {spec : Spec} {m : PolicyModule}
    (h : HasSpec context project collected spec m)
    {entry : ApplicationEntry} (hentry : entry ∈ spec.applications)
    (haccepts : Accepts context entry) {app : ConfinedApplication}
    (happ : context.allocation.application? entry.path = some app)
    {permission : Permission} (hpermission : permission ∈ entry.permissions)
    (hkind : PermissionKind.ofKeyword? permission.kindWord = some .filesystem)
    {path : String} (hpath : path ∈ permission.resources) {file : LabelledFile}
    (hfile : context.allocation.file? path = some file) :
    Allows m.Grants app.domain file.typeName file.fileClass permission.actions := by
  obtain ⟨app', entryFile, happ', hentryFile, hpermissions⟩ := haccepts
  obtain rfl : app = app' := Option.some.inj (happ.symm.trans happ')
  have hallows := allows_permissionRules hkind (hpermissions permission hpermission) hpath hfile
  intro action haction hmount c hc name hname
  obtain ⟨rule, hrule, hgrants⟩ := hallows action haction hmount c hc name hname
  refine h.grants rule _ _ (List.mem_flatMap.2 ⟨entry, hentry, ?_⟩) hgrants
  rw [rulesOfEntry, happ, hentryFile]
  exact List.mem_append_right _ (List.mem_flatMap.2 ⟨permission, hpermission, hrule⟩)

/-- Resolution renames what is allowed. -/
theorem allows_resolve {m : PolicyModule} {domain typeName : String} {fileClass : FileClass}
    {actions : List String} (h : Allows m.Grants domain typeName fileClass actions) :
    Allows m.resolve.1.Grants (renameAll m.resolve.2 domain) (renameAll m.resolve.2 typeName)
      fileClass actions := fun action haction hmount c hc permission hpermission =>
  (rounds_resolve m).grants_iff.2
    ⟨domain, typeName, rfl, rfl, h action haction hmount c hc permission hpermission⟩

/-- The files that a project labels get the labels that were allocated, under the names that the
first module leaves.  Every spec has a module that allows its applications what they ask for on
these files, under the names that this module leaves.  These are the names on the labels if the two
modules rename the type alike, and always if they are one module. -/
theorem declared_access (hcheck : project.check = .ok ())
    (h : (ofProject project catalog own fallbackDomain).result = .ok assembly)
    (hwhole : assembly.failures = []) :
    ∃ (context : Grant.Context) (labels : PolicyModule),
      allocate project catalog own fallbackDomain = .ok context ∧
      labels.resolve.1 ∈ assembly.modules ∧
      let s := renameAll labels.resolve.2
      assembly.modules.flatMap PolicyModule.fileContexts =
        (newFileContexts context.allocation).map (·.mapType s) ∧
      ∀ spec ∈ project.specs, ∃ m : PolicyModule, m.resolve.1 ∈ assembly.modules ∧
        m.name = (if project.monolithic then project.name else project.specName spec) ∧
        let t := renameAll m.resolve.2
        ∀ entry ∈ spec.applications, ∃ app,
          context.allocation.application? entry.path = some app ∧
          ∀ permission ∈ entry.permissions,
            PermissionKind.ofKeyword? permission.kindWord = some .filesystem →
            ∀ resource ∈ project.resources, resource.isSystem = false →
            resource.path ∈ permission.resources →
            ∃ file ∈ context.allocation.files, LabelledFile.Describes resource file ∧
              Allows m.resolve.1.Grants (t app.domain) (t file.typeName) file.fileClass
                permission.actions ∧
              (project.monolithic = true ∨ t file.typeName = s file.typeName →
                Allows m.resolve.1.Grants (t app.domain)
                  (file.fileContext.mapType s).label.typeName file.fileClass
                  permission.actions) := by
  obtain ⟨context, collected, hallocated, hcollected, rfl⟩ := exists_of_ofProject h
  obtain ⟨labels, rest, hmodules, hlabels, hrest⟩ := exists_labels hcollected
  have hresolved {m : PolicyModule} (hm : m ∈ collected.modules) :
      m.resolve.1 ∈ collected.resolved.modules := List.mem_map.2 ⟨m, hm, rfl⟩
  -- The labels are all in the first module, so the names on them are those that it leaves.
  refine ⟨context, labels, hallocated, hresolved (hmodules ▸ List.mem_cons_self), ?_⟩
  intro s
  constructor
  · exact fileContexts_resolved hmodules hlabels hrest
  · intro spec hspec
    obtain ⟨m, hm⟩ := exists_hasSpec hcollected hwhole hspec
    refine ⟨m, hresolved hm.mem, hm.name, ?_⟩
    intro t entry hentry
    have haccepts : Accepts context entry :=
      (holds_collect hcollected hwhole).2.entries entry (List.mem_flatMap.2 ⟨spec, hspec, hentry⟩)
    obtain ⟨app, -, happ, -, -⟩ := id haccepts
    refine ⟨app, happ, fun permission hpermission hkind resource hresource hnew hpath => ?_⟩
    obtain ⟨file, hfile, hdescribes⟩ := Allocation.exists_file?_of_mem
      (describes_of_allocate hallocated) (Project.nodup_paths hcheck) hresource
    have hallows := allows_resolve
      (hm.allows hentry haccepts happ hpermission hkind hpath hfile)
    refine ⟨file, List.mem_of_find?_eq_some hfile, hdescribes, hallows, fun halike => ?_⟩
    have hname : t file.typeName = s file.typeName := by
      refine halike.elim (fun hmonolithic => ?_) id
      have hsame : labels = m := (List.cons.inj (hmodules.symm.trans (hm.alone hmonolithic))).1
      show renameAll m.resolve.2 _ = renameAll labels.resolve.2 _
      rw [hsame]
    have hlabel : t file.typeName = (file.fileContext.mapType s).label.typeName := hname
    rwa [← hlabel]

/-- In one module, the file that was allocated the type `two_t` is labelled with the type that took
its place, and the application may create files of that type. -/
theorem twoDirectories_declared_access :
    let project := { twoDirectories [creator "app.json" ["/a/x", "/b/x"]] with monolithic := true }
    project.check = .ok () ∧ ∃ assembly,
      (ofProject project fileCatalog (.ok []) "init_t").result = .ok assembly ∧
      assembly.failures = [] ∧
      ∃ entry ∈ assembly.modules.flatMap PolicyModule.fileContexts, entry.pattern = "/b/x" ∧
        ∃ m ∈ assembly.modules, ∃ domain,
          m.Grants ⟨.allow, domain, entry.label.typeName, "file"⟩ "create" := by
  intro project
  have hcheck : project.check = .ok () := by decide +kernel
  have hanswer : (ofProject project fileCatalog (.ok []) "init_t").result.toOption.any
      fun assembly => assembly.failures = [] := by
    decide +kernel
  obtain ⟨assembly, hassembly, hwhole⟩ := exists_of_any_toOption hanswer
  refine ⟨hcheck, assembly, hassembly, hwhole, ?_⟩
  obtain ⟨context, labels, -, -, hlabels, hspecs⟩ := declared_access hcheck hassembly hwhole
  obtain ⟨m, hm, -, hentries⟩ := hspecs _ List.mem_cons_self
  obtain ⟨app, -, hpermissions⟩ := hentries _ List.mem_cons_self
  obtain ⟨file, hfile, hdescribes, -, hallows⟩ := hpermissions _ List.mem_cons_self rfl
    { path := "/b/x", classWord := "file", typeName := some "two_t" } (by decide) rfl (by decide)
  have hclass : file.fileClass = .file :=
    congrArg Prod.fst (Option.some.inj hdescribes.fileClass).symm
  have hpattern : file.pattern = "/b/x" := hdescribes.pattern.trans (by decide +kernel)
  have hnew : file.isSystem = false := hdescribes.isSystem
  refine ⟨file.fileContext.mapType (renameAll labels.resolve.2), ?_, hpattern, _, hm, _,
    hallows (.inl rfl) "create" (by decide) (by decide) .file ?_ "create" (by decide)⟩
  · rw [hlabels]
    exact List.mem_map_of_mem (List.mem_map_of_mem (List.mem_filter.2 ⟨hfile, by simp [hnew]⟩))
  · rw [hclass]
    decide

/-- In two modules, the same file keeps the label `two_t`, and no rule of any module speaks of it.
-/
theorem twoDirectories_label_without_rules :
    let project := twoDirectories [creator "app.json" ["/a/x", "/b/x"]]
    project.check = .ok () ∧ ∃ assembly,
      (ofProject project fileCatalog (.ok []) "init_t").result = .ok assembly ∧
      assembly.failures = [] ∧
      (∃ entry ∈ assembly.modules.flatMap PolicyModule.fileContexts,
        entry.pattern = "/b/x" ∧ entry.label.typeName = "two_t") ∧
      ∀ m ∈ assembly.modules, ∀ rule ∈ m.accessRules, rule.object ≠ "two_t" := by
  intro project
  have hanswer : (ofProject project fileCatalog (.ok []) "init_t").result.toOption.any
      fun assembly => decide (assembly.failures = [] ∧
        (∃ entry ∈ assembly.modules.flatMap PolicyModule.fileContexts,
          entry.pattern = "/b/x" ∧ entry.label.typeName = "two_t") ∧
        ∀ m ∈ assembly.modules, ∀ rule ∈ m.accessRules, rule.object ≠ "two_t") := by
    decide +kernel
  exact ⟨by decide +kernel, exists_of_any_toOption hanswer⟩

end Assembly

end TypeEnforcement
