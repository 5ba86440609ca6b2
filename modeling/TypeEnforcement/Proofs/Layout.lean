/-
What the modules of a project hold together.

A project calls for rules, declarations and file contexts.  The modules of either layout hold them
all and nothing else: the one module of a monolithic project by itself, the modules of any other
project taken together.

* `handWrittenRules`, `privateRules` — the rules that parts of a project call for;
* `calledFor` — the rules that a project calls for;
* `AcceptsAll` — no hand-written rule, entry or permission of a project is refused;
* `AssemblesPlainly` — a project is assembled whole, and no type gives way to another.

Main statements:
* `holds_collect` — the modules of a project hold what the project calls for;
* `layouts_agree` — so the layout of a project does not matter for what its modules do.
-/
import TypeEnforcement.Proofs.Content
import TypeEnforcement.Proofs.ModuleHistory

namespace TypeEnforcement

namespace Assembly

/-! ### What a project calls for -/

/-- The hand-written rules of a project. -/
def handWrittenRules (project : Project) : List Rule :=
  project.extraRules.flatMap fun text => (Rule.parse text).toOption.toList

/-- The rules that a new private type needs. -/
def privateRules (file : LabelledFile) : List Rule :=
  if file.isPrivate ∧ ¬file.typeExists then Bundle.privateType file.typeName file.fileClass else []

/-- The rules that a project calls for. -/
def calledFor (context : Grant.Context) (project : Project) : List Rule :=
  handWrittenRules project ++ context.allocation.files.flatMap privateRules ++
    project.entries.flatMap (rulesOfEntry context)

/-- No part of a project is left out of what the project calls for. -/
structure AcceptsAll (context : Grant.Context) (project : Project) : Prop where
  handWritten : ∀ text ∈ project.extraRules, ∃ rule, Rule.parse text = .ok rule
  entries : ∀ entry ∈ project.entries, Accepts context entry

/-- What a resource calls for. -/
def fileContent (file : LabelledFile) : Content where
  rules := privateRules file
  declarations := if file.typeExists then [] else
    Declaration.ofType file.typeName (if file.isPrivate then [] else [Grant.fileAttribute])
  fileContexts := if file.isSystem then [] else [file.fileContext]

/-- What an application calls for, apart from its rules. -/
def applicationContent (policy : SystemPolicy) (app : ConfinedApplication) : Content :=
  { declarations := Declaration.ofType app.domain [Grant.domainAttribute] } ++
  (if app.isUnconfined then
    .ofAll (fun attr => { declarations := Declaration.ofType app.domain [attr] })
      Grant.unconfinedAttributes
  else {}) ++
  (if app.isPermissive then { declarations := [.permissive app.domain] } else {}) ++
  .ofAll (fun role => { declarations := Declaration.ofRole role app.domain }) policy.roles

/-- What goes into the module that has the definitions. -/
def baseContent (context : Grant.Context) (project : Project) : Content :=
  { rules := handWrittenRules project } ++ .ofAll fileContent context.allocation.files ++
    .ofAll (applicationContent context.policy) context.allocation.applications

/-- What a spec calls for. -/
def specContent (context : Grant.Context) (spec : Spec) : Content where
  rules := spec.applications.flatMap (rulesOfEntry context)

/-- What a project calls for. -/
def projectContent (context : Grant.Context) (project : Project) : Content :=
  baseContent context project ++ .ofAll (specContent context) project.specs

theorem rules_applicationContent (policy : SystemPolicy) (app : ConfinedApplication) :
    (applicationContent policy app).rules = [] := by
  unfold applicationContent
  split <;> split <;> simp [Content.ofAll]

theorem rules_projectContent (context : Grant.Context) (project : Project) :
    (projectContent context project).rules = calledFor context project := by
  simp [projectContent, baseContent, calledFor, Content.ofAll, rules_applicationContent,
    fileContent, specContent, Project.entries, List.flatMap_assoc]

/-! ### The contents of operations -/

open PolicyModule (Operation)

theorem rules_fileOperations (file : LabelledFile) :
    (fileOperations file).flatMap Operation.rules = privateRules file := by
  unfold fileOperations privateRules
  cases file.isSystem <;> cases file.typeExists <;> cases file.isPrivate <;> simp [Operation.rules]

theorem rules_applicationOperations (policy : SystemPolicy) (app : ConfinedApplication) :
    (applicationOperations policy app).flatMap Operation.rules = [] := by
  unfold applicationOperations
  split <;> split <;> simp [Operation.rules, List.flatMap_map]

/-- The rules of the definitions are the hand-written ones and those of private types. -/
theorem rules_baseOperations (context : Grant.Context) (project : Project) :
    (baseOperations context project).flatMap Operation.rules =
      (baseContent context project).rules := by
  simp [baseOperations, baseContent, handWrittenRules, Content.ofAll, fileContent,
    List.flatMap_assoc, List.flatMap_map, rules_fileOperations, rules_applicationOperations,
    rules_applicationContent, Operation.rules]

theorem rules_specOperations (context : Grant.Context) (spec : Spec) :
    (specOperations context spec).flatMap Operation.rules = (specContent context spec).rules := by
  simp [specOperations, specContent, List.flatMap_map, Operation.rules]

theorem declarations_fileOperations (policy : SystemPolicy) (file : LabelledFile) :
    ((fileOperations file).flatMap fun operation => (operation.content policy).declarations) =
      (fileContent file).declarations := by
  have hattribute : Grant.fileAttribute ≠ "" := by decide
  unfold fileOperations fileContent
  cases file.isSystem <;> cases file.typeExists <;> cases file.isPrivate <;>
    simp [Operation.content, hattribute]

theorem declarations_applicationOperations (policy : SystemPolicy) (app : ConfinedApplication) :
    ((applicationOperations policy app).flatMap fun operation =>
      (operation.content policy).declarations) = (applicationContent policy app).declarations := by
  have hattribute : Grant.domainAttribute ≠ "" := by decide
  have hattributes : ∀ attr ∈ Grant.unconfinedAttributes, attr ≠ "" := by decide
  have hunconfined : (Grant.unconfinedAttributes.flatMap fun attr =>
      if attr = "" then [] else Declaration.ofType app.domain [attr]) =
        Grant.unconfinedAttributes.flatMap fun attr => Declaration.ofType app.domain [attr] :=
    List.flatMap_congr fun attr hattr => if_neg (hattributes attr hattr)
  unfold applicationOperations applicationContent
  cases app.isUnconfined <;> cases app.isPermissive <;>
    simp [List.flatMap_map, hunconfined, Operation.content, Content.ofAll, hattribute]

/-- Of the operations for the definitions, those for resources and applications declare something.
-/
theorem declarations_baseOperations (context : Grant.Context) (project : Project) :
    ((baseOperations context project).flatMap fun operation =>
      (operation.content context.policy).declarations) =
        (baseContent context project).declarations := by
  simp [baseOperations, baseContent, Content.ofAll, List.flatMap_assoc, List.flatMap_map,
    declarations_fileOperations, declarations_applicationOperations]

theorem fileContexts_fileOperations (policy : SystemPolicy) (file : LabelledFile) :
    ((fileOperations file).flatMap fun operation => (operation.content policy).fileContexts) =
      (fileContent file).fileContexts := by
  unfold fileOperations fileContent
  cases file.isSystem <;> cases file.typeExists <;> cases file.isPrivate <;>
    simp [Operation.content]

theorem fileContexts_applicationOperations (policy : SystemPolicy) (app : ConfinedApplication) :
    ((applicationOperations policy app).flatMap fun operation =>
      (operation.content policy).fileContexts) = (applicationContent policy app).fileContexts := by
  unfold applicationOperations applicationContent
  cases app.isUnconfined <;> cases app.isPermissive <;>
    simp [List.flatMap_map, Operation.content, Content.ofAll]

/-- Of the operations for the definitions, those for resources add file contexts. -/
theorem fileContexts_baseOperations (context : Grant.Context) (project : Project) :
    ((baseOperations context project).flatMap fun operation =>
      (operation.content context.policy).fileContexts) =
        (baseContent context project).fileContexts := by
  simp [baseOperations, baseContent, Content.ofAll, List.flatMap_assoc, List.flatMap_map,
    fileContexts_fileOperations, fileContexts_applicationOperations]

theorem declarations_specOperations (context : Grant.Context) (spec : Spec) :
    ((specOperations context spec).flatMap fun operation =>
      (operation.content context.policy).declarations) = (specContent context spec).declarations :=
  by simp [specOperations, specContent, List.flatMap_map]

theorem fileContexts_specOperations (context : Grant.Context) (spec : Spec) :
    ((specOperations context spec).flatMap fun operation =>
      (operation.content context.policy).fileContexts) = (specContent context spec).fileContexts :=
  by simp [specOperations, specContent, List.flatMap_map]

/-! ### What is put into modules -/

variable {context : Grant.Context} {policy : SystemPolicy} {project : Project}
  {m next : PolicyModule}

theorem adds_fillBase
    (h : fillBase context.policy project context.allocation m = .ok next) :
    m.Adds (baseContent context project) next :=
  (makes_fillBase h).adds (rules_baseOperations context project)
    (declarations_baseOperations context project) (fileContexts_baseOperations context project)

theorem adds_addSpec {spec : Spec} (h : (addSpec context m spec).result = .ok next) :
    m.Adds (specContent context spec) next :=
  (makes_addSpec h).adds (rules_specOperations context spec)
    (declarations_specOperations context spec) (fileContexts_specOperations context spec)

theorem adds_addSpecs {specs : List Spec}
    (h : specs.foldlM (fun m spec => (addSpec context m spec).result) m = .ok next) :
    m.Adds (.ofAll (specContent context) specs) next := by
  refine (makes_addSpecs h).adds ?_ ?_ ?_
  · rw [List.flatMap_assoc]
    exact List.flatMap_congr fun spec _ => rules_specOperations context spec
  · rw [List.flatMap_assoc]
    exact List.flatMap_congr fun spec _ => declarations_specOperations context spec
  · rw [List.flatMap_assoc]
    exact List.flatMap_congr fun spec _ => fileContexts_specOperations context spec

theorem parses_of_addExtraRule {text : String} (h : addExtraRule policy m text = .ok next) :
    ∃ rule, Rule.parse text = .ok rule := by
  rw [addExtraRule, Scope.wrap_eq_ok_iff, bind_eq_ok_iff] at h
  obtain ⟨rule, hparse, -⟩ := h
  exact ⟨rule, hparse⟩

theorem parses_of_fillBase {allocation : Allocation}
    (h : fillBase policy project allocation m = .ok next) :
    ∀ text ∈ project.extraRules, ∃ rule, Rule.parse text = .ok rule := by
  rw [fillBase, bind_eq_ok_iff] at h
  obtain ⟨m₁, hextra, -⟩ := h
  exact forall_of_foldlM_eq_ok (addExtraRule policy) (fun _ _ _ => parses_of_addExtraRule) hextra

theorem accepts_of_addSpec {spec : Spec} (h : (addSpec context m spec).result = .ok next) :
    ∀ entry ∈ spec.applications, Accepts context entry := by
  rw [addSpec, Report.result_foldlM] at h
  exact forall_of_foldlM_eq_ok (fun m entry => (addEntry context m entry).result)
    (fun _ _ _ hentry => (addRules_of_addEntry hentry).1) h

/-! ### Modules together -/

/-- Some modules hold a content together, and nothing else. -/
structure Holds (modules : List PolicyModule) (content : Content) : Prop where
  grants (target : AccessTarget) (permission : String) :
    (∃ m ∈ modules, m.Grants target permission) ↔
      ∃ rule, .access rule ∈ content.rules ∧ rule.Grants target permission
  transitions (rule : TransitionRule) :
    (∃ m ∈ modules, rule ∈ m.transitionRules) ↔ .transition rule ∈ content.rules
  declares (d : Declaration) : (∃ m ∈ modules, m.Declares d) ↔ d ∈ content.declarations
  fileContexts : modules.flatMap PolicyModule.fileContexts = content.fileContexts

/-- A module that is made and then filled holds what was added. -/
theorem holds_of_adds {name version : String} {content : Content}
    (hempty : PolicyModule.make name version = .ok m) (h : m.Adds content next) :
    Holds [next] content := by
  obtain rfl := PolicyModule.eq_of_make hempty
  refine ⟨fun target permission => ?_, fun rule => ?_, fun d => ?_, ?_⟩
  · have hnone : ¬({ name, version } : PolicyModule).Grants target permission := by
      simp [PolicyModule.Grants]
    simp [h.grants, hnone]
  · simp [h.transitions]
  · simp [h.declares, PolicyModule.not_declares_make name version d]
  · simp [h.fileContexts]

theorem holds_nil : Holds [] {} :=
  ⟨by simp, by simp, by simp, rfl⟩

theorem Holds.append {a b : List PolicyModule} {content more : Content} (ha : Holds a content)
    (hb : Holds b more) : Holds (a ++ b) (content ++ more) where
  grants target permission := by
    simp only [List.mem_append, or_and_right, exists_or, ha.grants, hb.grants,
      Content.rules_append]
  transitions rule := by
    simp only [List.mem_append, or_and_right, exists_or, ha.transitions, hb.transitions,
      Content.rules_append]
  declares d := by
    simp only [List.mem_append, or_and_right, exists_or, ha.declares, hb.declares,
      Content.declarations_append]
  fileContexts := by
    rw [List.flatMap_append, ha.fileContexts, hb.fileContexts, Content.fileContexts_append]

theorem holds_specModule {spec : Spec} (h : (specModule context project spec).result = .ok m) :
    Holds [m] (specContent context spec) := by
  obtain ⟨empty, hempty, hspec⟩ := specModule_cases h
  exact holds_of_adds hempty (adds_addSpec hspec)

theorem holds_specModules {specs : List Spec} (h : specFailures context project specs = []) :
    Holds (specModules context project specs) (.ofAll (specContent context) specs) := by
  induction specs with
  | nil => exact holds_nil
  | cons spec rest ih =>
    rw [specFailures_cons, List.append_eq_nil_iff] at h
    obtain ⟨m, hm⟩ := exists_of_specFailures_eq_nil h.1 spec List.mem_cons_self
    have hone : specModules context project [spec] = [m] := by
      simp [specModules, hm, Except.toOption]
    rw [specModules_cons, Content.ofAll_cons, hone]
    exact (holds_specModule hm).append (ih h.2)

/-- What each module of a project holds: all that the project calls for, or the definitions and the
rules of one spec each. -/
theorem layout_cases {collected : Assembly}
    (h : (collect context project).result = .ok collected) :
    (project.monolithic = true ∧ ∃ full, full.name = project.baseName ∧
      Holds [full] (projectContent context project) ∧ collected = { modules := [full] }) ∨
    project.monolithic = false ∧ ∃ base, base.name = project.baseName ∧
      Holds [base] (baseContent context project) ∧
      collected = { modules := base :: specModules context project project.specs
                    failures := specFailures context project project.specs } := by
  obtain ⟨empty, base, hempty, hbase, hlayout⟩ := collect_cases h
  have hadds : empty.Adds (baseContent context project) base := adds_fillBase hbase
  have hname := name_fillBase hempty hbase
  obtain ⟨hmonolithic, full, hfull, rfl⟩ | ⟨hsplit, rfl⟩ := hlayout
  · exact .inl ⟨hmonolithic, full, (makes_addSpecs hfull).name.trans hname,
      holds_of_adds hempty (hadds.trans (adds_addSpecs hfull)), rfl⟩
  · exact .inr ⟨hsplit, base, hname, holds_of_adds hempty hadds, rfl⟩

/-- Nothing is refused in a project that is assembled without failures. -/
theorem acceptsAll_of_collect {collected : Assembly}
    (h : (collect context project).result = .ok collected) (hwhole : collected.failures = []) :
    AcceptsAll context project := by
  obtain ⟨empty, base, -, hbase, hlayout⟩ := collect_cases h
  have hentries : ∀ spec ∈ project.specs, ∀ entry ∈ spec.applications, Accepts context entry := by
    obtain ⟨-, full, hfull, rfl⟩ | ⟨-, rfl⟩ := hlayout
    · exact forall_of_foldlM_eq_ok (fun m spec => (addSpec context m spec).result)
        (fun _ _ _ => accepts_of_addSpec) hfull
    · intro spec hspec
      obtain ⟨m, hm⟩ := exists_of_specFailures_eq_nil hwhole spec hspec
      obtain ⟨_, -, hadd⟩ := specModule_cases hm
      exact accepts_of_addSpec hadd
  refine ⟨parses_of_fillBase hbase, fun entry hentry => ?_⟩
  obtain ⟨spec, hspec, hentry⟩ := List.mem_flatMap.1 hentry
  exact hentries spec hspec entry hentry

/-- The modules of either layout hold what the project calls for, if none of them fails. -/
theorem holds_collect {assembly : Assembly} (h : (collect context project).result = .ok assembly)
    (hwhole : assembly.failures = []) :
    Holds assembly.modules (projectContent context project) ∧ AcceptsAll context project := by
  refine ⟨?_, acceptsAll_of_collect h hwhole⟩
  obtain ⟨-, full, -, hfull, rfl⟩ | ⟨-, base, -, hbase, rfl⟩ := layout_cases h
  · exact hfull
  · exact hbase.append (holds_specModules hwhole)

/-! ### The two layouts -/

section Layouts

variable (project : Project) (catalog : Catalog) (own : Except Fault (List Installed))
  (fallbackDomain : String)

/-- A project is assembled without failures, and no type of any module gives way to another. -/
structure AssemblesPlainly (context : Grant.Context) (assembly : Assembly) : Prop where
  allocated : allocate project catalog own fallbackDomain = .ok context
  assembled : (ofProject project catalog own fallbackDomain).result = .ok assembly
  whole : assembly.failures = []
  plain : ∀ collected, (collect context project).result = .ok collected →
    ∀ m ∈ collected.modules, m.resolve.2 = []

/-- The modules of a project that assembles plainly, with what they depend on. -/
def assemblePlainly? : Option (Grant.Context × Assembly) :=
  match allocate project catalog own fallbackDomain with
  | .error _ => none
  | .ok context =>
    match (collect context project).result with
    | .error _ => none
    | .ok assembly =>
      if assembly.failures = [] ∧ ∀ m ∈ assembly.modules, m.resolve.2 = [] then
        some (context, assembly)
      else none

variable {project catalog own fallbackDomain} {assembly : Assembly}

/-- If no type gives way to another, the modules are those that were collected. -/
theorem collect_eq_of_plain (hallocated : allocate project catalog own fallbackDomain = .ok context)
    (hassembled : (ofProject project catalog own fallbackDomain).result = .ok assembly)
    (hplain : ∀ collected, (collect context project).result = .ok collected →
      ∀ m ∈ collected.modules, m.resolve.2 = []) :
    (collect context project).result = .ok assembly := by
  obtain ⟨context', collected, hallocated', hcollected, rfl⟩ := exists_of_ofProject hassembled
  obtain rfl : context' = context := Except.ok.inj (hallocated'.symm.trans hallocated)
  rwa [resolved_eq_self (hplain collected hcollected)]

theorem AssemblesPlainly.collected
    (h : AssemblesPlainly project catalog own fallbackDomain context assembly) :
    (collect context project).result = .ok assembly :=
  collect_eq_of_plain h.allocated h.assembled h.plain

theorem AssemblesPlainly.holds
    (h : AssemblesPlainly project catalog own fallbackDomain context assembly) :
    Holds assembly.modules (projectContent context project) ∧ AcceptsAll context project :=
  holds_collect h.collected h.whole

theorem assemblesPlainly_of_eq_some
    (h : assemblePlainly? project catalog own fallbackDomain = some (context, assembly)) :
    AssemblesPlainly project catalog own fallbackDomain context assembly := by
  unfold assemblePlainly? at h
  split at h
  · cases h
  · rename_i hallocated
    split at h
    · cases h
    · rename_i hcollected
      split at h
      · rename_i hplain
        cases h
        refine ⟨hallocated, ?_, hplain.1, fun collected hcollect => ?_⟩
        · rw [ofProject, Report.result_bind, Report.result_ofExcept, hallocated]
          show (make context project).result = .ok assembly
          rw [result_make, hcollected]
          exact congrArg Except.ok (resolved_eq_self hplain.2)
        · obtain rfl : assembly = collected := Except.ok.inj (hcollected.symm.trans hcollect)
          exact hplain.2
      · cases h

/-- A project that assembles plainly in whatever layout has all its parts accepted, and modules that
grant and contain exactly what these call for.  So if it does in both layouts, the modules of the
one do what those of the other do: accesses, transitions, types with their attributes and roles,
permissive domains and file contexts. -/
theorem layouts_agree (project : Project) (catalog : Catalog) (own : Except Fault (List Installed))
    (fallbackDomain : String) :
    (∀ context assembly, AssemblesPlainly project catalog own fallbackDomain context assembly →
      AcceptsAll context project ∧
      (∀ target permission, (∃ m ∈ assembly.modules, m.Grants target permission) ↔
        ∃ rule, .access rule ∈ calledFor context project ∧ rule.Grants target permission) ∧
      ∀ rule, (∃ m ∈ assembly.modules, rule ∈ m.transitionRules) ↔
        .transition rule ∈ calledFor context project) ∧
    ∀ context one context' many,
      AssemblesPlainly { project with monolithic := true } catalog own fallbackDomain context one →
      AssemblesPlainly { project with monolithic := false } catalog own fallbackDomain context'
        many →
      (∀ target permission, (∃ m ∈ one.modules, m.Grants target permission) ↔
        ∃ m ∈ many.modules, m.Grants target permission) ∧
      (∀ rule, (∃ m ∈ one.modules, rule ∈ m.transitionRules) ↔
        ∃ m ∈ many.modules, rule ∈ m.transitionRules) ∧
      (∀ d : Declaration, (∃ m ∈ one.modules, m.Declares d) ↔ ∃ m ∈ many.modules, m.Declares d) ∧
      one.modules.flatMap PolicyModule.fileContexts =
        many.modules.flatMap PolicyModule.fileContexts := by
  constructor
  · intro context assembly h
    obtain ⟨hholds, haccepts⟩ := h.holds
    simp only [← rules_projectContent]
    exact ⟨haccepts, hholds.grants, hholds.transitions⟩
  · intro context one context' many hone hmany
    -- The layout has no part in the allocation, nor in what a project calls for.
    obtain rfl : context = context' :=
      Except.ok.inj (hone.allocated.symm.trans hmany.allocated)
    have h : Holds one.modules (projectContent context project) := hone.holds.1
    have h' : Holds many.modules (projectContent context project) := hmany.holds.1
    exact ⟨fun target permission => (h.grants target permission).trans
      (h'.grants target permission).symm, fun rule => (h.transitions rule).trans
      (h'.transitions rule).symm, fun d => (h.declares d).trans (h'.declares d).symm,
      h.fileContexts.trans h'.fileContexts.symm⟩

end Layouts

/-- A project with an application that the system labels and that reads a private file. -/
def keyReader : Project where
  name := "demo"
  resources := [
    { path := "/app", classWord := "exec_file", isSystem := true },
    { path := "/key", classWord := "file", isPrivate := true, typeName := some "key_t" }]
  specs := [{ name := "app.json", applications := [{ path := "/app", permissions := [
    { kindWord := "filesystem", resources := ["/key"], actions := ["read"] }] }] }]
  extraRules := ["allow init_t key_t:file read;"]

/-- A catalog with the classes that the project needs. -/
def keyCatalog : Catalog :=
  let classes := [
    ("dir", ["search", "getattr"]), ("chr_file", ["append", "read", "write", "getattr", "ioctl"]),
    ("file", ["read", "open", "getattr", "execute", "map", "entrypoint", "relabelto",
      "relabelfrom"]),
    ("filesystem", ["associate"]),
    ("process", ["sigchld", "rlimitinh", "siginh", "transition"])]
  .make { classes := .ofList (classes.map fun (name, names) => (name, .ofList names)) }
    [.bind "/" .directory (.object "root_t")] [] [.bind "/app" .file (.object "app_exec_t")]

theorem keyReader_layouts_agree : ∃ context one context' many,
    AssemblesPlainly { keyReader with monolithic := true } keyCatalog (.ok []) "init_t" context
      one ∧
    AssemblesPlainly { keyReader with monolithic := false } keyCatalog (.ok []) "init_t" context'
      many ∧
    ((∃ m ∈ one.modules, m.Grants ⟨.allow, "app_t", "key_t", "file"⟩ "read") ↔
      ∃ rule, .access rule ∈ calledFor context keyReader ∧
        rule.Grants ⟨.allow, "app_t", "key_t", "file"⟩ "read") ∧
    one.modules.flatMap PolicyModule.fileContexts =
      many.modules.flatMap PolicyModule.fileContexts := by
  have hone : (assemblePlainly? { keyReader with monolithic := true } keyCatalog (.ok [])
      "init_t").isSome := by decide +kernel
  have hmany : (assemblePlainly? { keyReader with monolithic := false } keyCatalog (.ok [])
      "init_t").isSome := by decide +kernel
  obtain ⟨⟨context, one⟩, hone⟩ := Option.isSome_iff_exists.1 hone
  obtain ⟨⟨context', many⟩, hmany⟩ := Option.isSome_iff_exists.1 hmany
  have hone := assemblesPlainly_of_eq_some hone
  have hmany := assemblesPlainly_of_eq_some hmany
  obtain ⟨heach, hboth⟩ :=
    layouts_agree { keyReader with monolithic := true } keyCatalog (.ok []) "init_t"
  obtain ⟨-, hgrants, -⟩ := heach context one hone
  obtain ⟨-, -, -, hfileContexts⟩ := hboth context one context' many hone hmany
  exact ⟨context, one, context', many, hone, hmany, hgrants _ _, hfileContexts⟩

end Assembly

end TypeEnforcement
