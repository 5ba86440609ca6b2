/-
Types of a project that the host knows already.

A type that the project chooses for a resource is looked up: an attribute of the host is refused,
and a type of the host is required instead of defined.  Domains of applications and names that are
made of paths are not looked up, so they are defined whether the host knows them or not.

* `SystemPolicy.Knows` — the policy of a host has a name, as a type or as an attribute;
* `Resource.Synthesizes` — a resource gets a type whose name is made of its path.

Main statements:
* `mem_definedTypes_iff_of_knows` — which of the types that a project defines the host knows;
* `redeclared_types` — which types of the host the modules of a project define;
* `derivedDomain_redeclared` — a domain that is derived from a label of the host can be among them.
-/
import TypeEnforcement.Proofs.Overlap
import TypeEnforcement.Proofs.Rebuild

namespace TypeEnforcement

/-- The policy of a host has a name, as a type or as an attribute. -/
def SystemPolicy.Knows (policy : SystemPolicy) (name : String) : Prop :=
  policy.definesType name = true ∨ policy.definesAttribute name = true

instance (policy : SystemPolicy) (name : String) : Decidable (policy.Knows name) :=
  inferInstanceAs (Decidable (_ ∨ _))

/-- A resource that neither keeps its label nor chooses a type gets one with a name made of its
path. -/
def Resource.Synthesizes (resource : Resource) (name : String) : Prop :=
  resource.isSystem = false ∧ resource.typeName.filter (· ≠ "") = none ∧
    ∃ fileClass isExecutable,
      FileClass.ofKeyword? resource.classWord = some (fileClass, isExecutable) ∧
      TypeName.synthesize resource.path fileClass isExecutable = name

/-- The name of a derived domain is not empty. -/
theorem TypeName.domainOf_ne_empty (fileType : String) : domainOf fileType ≠ "" := by
  unfold domainOf
  split
  · simp
  · split <;> simp

/-! ### Types of resources -/

namespace LabelledFile

variable {catalog : Catalog} {ownTypes : List String} {resource : Resource} {file : LabelledFile}

/-- A file defines a type that the host knows just if the name is made of its path. -/
theorem defines_known_iff (h : make catalog [] resource = .ok file) {name : String}
    (hknows : catalog.policy.Knows name) :
    file.typeExists = false ∧ file.typeName = name ↔ resource.Synthesizes name := by
  obtain ⟨fileClass, isExecutable, hclass, -, hcases⟩ := make_eq_ok_iff.1 h
  obtain ⟨hsystem, hkeep⟩ | ⟨hsystem, -, hlabelled⟩ := hcases
  · -- A label of the system has a type that exists.
    obtain ⟨-, hexists⟩ := known_of_keepLabel hkeep
    simp [hexists, Resource.Synthesizes, hsystem]
  · unfold newlyLabelled at hlabelled
    cases hchosen : resource.typeName.filter (· ≠ "") with
    | some chosen =>
      simp only [hchosen] at hlabelled
      obtain ⟨-, hattribute, rfl⟩ := chooseType_nil_eq_ok_iff.1 hlabelled
      -- The host would have to know the type, and not to know it.
      have hnone : ¬(catalog.policy.definesType chosen = false ∧ chosen = name) := by
        rintro ⟨htype, rfl⟩
        rcases hknows with hknows | hknows
        · exact Bool.false_ne_true (htype.symm.trans hknows)
        · exact Bool.false_ne_true (hattribute.symm.trans hknows)
      simp only [Resource.Synthesizes, hchosen, reduceCtorEq, false_and, and_false, iff_false]
      exact hnone
    | none =>
      simp only [hchosen] at hlabelled
      cases hlabelled
      constructor
      · rintro ⟨-, rfl⟩
        exact ⟨hsystem, hchosen, fileClass, isExecutable, hclass, rfl⟩
      · rintro ⟨-, -, fileClass', isExecutable', hclass', rfl⟩
        obtain ⟨rfl, rfl⟩ := Prod.mk.inj (Option.some.inj (hclass.symm.trans hclass'))
        exact ⟨rfl, rfl⟩

/-- A file has the domain that its resource chooses. -/
theorem domain_of_make (h : make catalog ownTypes resource = .ok file) :
    file.domain = resource.domain.filter (· ≠ "") := by
  obtain ⟨fileClass, isExecutable, -, hcases⟩ := make_cases h
  obtain ⟨-, hkeep⟩ | ⟨-, -, ⟨name, hchoose⟩ | rfl⟩ := hcases
  · obtain ⟨entry, -, rfl⟩ := exists_of_keepLabel hkeep
    rfl
  · obtain ⟨-, typeExists, rfl⟩ := exists_of_chooseType hchoose
    rfl
  · rfl

/-- A domain is configured, and then it is not empty, or it is made of the name of a type. -/
theorem processDomain_ne_empty (h : make catalog ownTypes resource = .ok file) :
    file.processDomain ≠ "" := by
  unfold processDomain
  cases hdomain : file.domain with
  | none => exact TypeName.domainOf_ne_empty file.typeName
  | some domain =>
    have hmem : domain ∈ resource.domain.filter (· ≠ "") := (domain_of_make h).symm.trans hdomain
    simpa using (Option.filter_eq_some_iff.1 hmem).2

theorem processDomain_of_inherit {last : Catalog} {next : LabelledFile}
    (h : inherit last file = .ok next) : next.processDomain = file.processDomain := by
  obtain ⟨t, entry, -, rfl⟩ := exists_of_inherit h
  rfl

end LabelledFile

/-! ### Types of a project -/

namespace Allocation

variable {project : Project} {catalog last : Catalog} {own : List Installed}
  {allocation : Allocation}

/-- The types that a project defines have names. -/
theorem ne_empty_of_mem_definedTypes (h : make project catalog own = .ok (allocation, last))
    {name : String} (hname : name ∈ allocation.definedTypes) : name ≠ "" := by
  obtain ⟨files, inherited, applications, hfiles, hinherited, happlications, rfl⟩ :=
    make_eq_ok_iff.1 h
  rw [definedTypes, mem_distinct, List.mem_append, List.mem_map, List.mem_map] at hname
  obtain ⟨settled, hsettled, rfl⟩ | ⟨app, happ, rfl⟩ := hname
  · obtain ⟨hsettled, hnew⟩ := List.mem_filter.1 hsettled
    obtain ⟨file, hfile, parentLabel, domain, rfl⟩ := exists_of_settled hinherited hsettled
    obtain ⟨before, resource, hmake⟩ := LabelledFile.exists_make_of_mem hfiles hfile
    have hsymbol : Installed.IsSymbol file.typeName :=
      LabelledFile.isSymbol_typeName_of_make hmake (.inr (by simpa using hnew))
    exact hsymbol.1.1
  · obtain ⟨next, hnext, hdomain⟩ := exists_of_mem_applications happlications happ
    obtain ⟨file, hfile, hinherit⟩ := exists_item_of_mapM_eq_ok hinherited next hnext
    obtain ⟨before, resource, hmake⟩ := LabelledFile.exists_make_of_mem hfiles hfile
    rw [← hdomain, LabelledFile.processDomain_of_inherit hinherit]
    exact LabelledFile.processDomain_ne_empty hmake

/-- Of the names that the host knows, a project defines the domains of its applications and those
that are made of paths. -/
theorem mem_definedTypes_iff_of_knows (h : make project catalog [] = .ok (allocation, last))
    {name : String} (hknows : catalog.policy.Knows name) :
    name ∈ allocation.definedTypes ↔
      (∃ app ∈ allocation.applications, app.domain = name) ∨
        ∃ resource ∈ project.resources, resource.Synthesizes name := by
  obtain ⟨files, inherited, applications, hfiles, hinherited, -, rfl⟩ := make_eq_ok_iff.1 h
  have hall : List.Forall₂ (fun resource file => ∃ before : Catalog,
      before.policy = catalog.policy ∧ LabelledFile.make before [] resource = .ok file)
      project.resources files := LabelledFile.forall₂_makeAll hfiles
  have hdefines {resource : Resource} {file : LabelledFile}
      (hmade : ∃ before : Catalog, before.policy = catalog.policy ∧
        LabelledFile.make before [] resource = .ok file) :
      file.typeExists = false ∧ file.typeName = name ↔ resource.Synthesizes name := by
    obtain ⟨before, hpolicy, hmake⟩ := hmade
    exact LabelledFile.defines_known_iff hmake (hpolicy ▸ hknows)
  rw [definedTypes, mem_distinct, List.mem_append, List.mem_map, List.mem_map, or_comm]
  refine or_congr_right ⟨?_, ?_⟩
  · rintro ⟨settled, hsettled, hname⟩
    obtain ⟨hsettled, hnew⟩ := List.mem_filter.1 hsettled
    obtain ⟨file, hfile, parentLabel, domain, rfl⟩ := exists_of_settled hinherited hsettled
    obtain ⟨resource, hresource, hmade⟩ := exists_of_forall₂_of_mem_right hall hfile
    exact ⟨resource, hresource, (hdefines hmade).1 ⟨by simpa using hnew, hname⟩⟩
  · rintro ⟨resource, hresource, hsynthesizes⟩
    obtain ⟨file, hfile, hmade⟩ := exists_of_forall₂_of_mem_left hall hresource
    obtain ⟨hnew, hname⟩ := (hdefines hmade).2 hsynthesizes
    have hexists : ∃ settled ∈ settleDomains project.entries inherited, IsSettled file settled :=
      exists_settled hinherited hfile
    obtain ⟨settled, hsettled, parentLabel, domain, rfl⟩ := hexists
    exact ⟨_, List.mem_filter.2 ⟨hsettled, by simpa using hnew⟩, hname⟩

end Allocation

/-! ### Modules of a project -/

namespace Assembly

variable {context : Grant.Context} {project : Project} {catalog : Catalog}
  {fallbackDomain : String} {assembly collected : Assembly}

/-- The modules of a project define the types of the project, and no others. -/
theorem exists_contains_types_iff (h : (collect context project).result = .ok collected)
    (name : String) :
    (∃ m ∈ collected.resolved.modules, m.definitions.types.contains name = true) ↔
      name ≠ "" ∧ name ∈ context.allocation.definedTypes := by
  obtain ⟨empty, base, others, hempty, hbase, hmodules, hothers⟩ := makes_collect h
  obtain rfl := PolicyModule.eq_of_make hempty
  have hdefines : base.definitions.types.contains name = true ↔
      name ≠ "" ∧ name ∈ context.allocation.definedTypes := by
    have hdeclares := PolicyModule.declares_of_makes hbase (.type name)
    rw [declarations_definingOperations, type_mem_baseContent_iff] at hdeclares
    exact hdeclares
  -- A resolution leaves the definitions as they are.
  have hresolved (m : PolicyModule) : m.resolve.1.definitions = m.definitions :=
    (PolicyModule.requirements_rounds (rounds_resolve m)).2.1
  rw [← hdefines]
  constructor
  · rintro ⟨m, hm, hcontains⟩
    obtain ⟨before, hbefore, rfl⟩ := List.mem_map.1 hm
    rw [hresolved] at hcontains
    rw [hmodules] at hbefore
    rcases List.mem_cons.1 hbefore with rfl | hbefore
    · exact hcontains
    · obtain ⟨spec, -, hspec⟩ := hothers before hbefore
      rw [contains_types_specModule hspec] at hcontains
      cases hcontains
  · intro hcontains
    refine ⟨base.resolve.1, List.mem_map_of_mem (hmodules ▸ List.mem_cons_self), ?_⟩
    rwa [hresolved]

/-- Which names that the host knows, as types or as attributes, are defined in the modules of a
project that has no earlier build: the domains of its applications, configured or derived, and the
names that are made of paths.  The types that a project chooses for its resources are never among
them. -/
theorem redeclared_types
    (h : (ofProject project catalog (.ok []) fallbackDomain).result = .ok assembly) :
    ∃ context, allocate project catalog (.ok []) fallbackDomain = .ok context ∧
      (∀ name, (∃ m ∈ assembly.modules, m.definitions.types.contains name = true) ↔
        name ∈ context.allocation.definedTypes) ∧
      ∀ name, catalog.policy.Knows name →
        ((∃ m ∈ assembly.modules, m.definitions.types.contains name = true) ↔
          (∃ app ∈ context.allocation.applications, app.domain = name) ∨
            ∃ resource ∈ project.resources, resource.Synthesizes name) := by
  obtain ⟨context, collected, hallocated, hcollected, rfl⟩ := exists_of_ofProject h
  obtain ⟨installed, allocation, last, hown, hallocation, rfl⟩ := exists_of_allocate hallocated
  obtain rfl : [] = installed := Except.ok.inj hown
  have hdefines (name : String) :
      (∃ m ∈ collected.resolved.modules, m.definitions.types.contains name = true) ↔
        name ∈ allocation.definedTypes := by
    rw [exists_contains_types_iff hcollected name]
    exact and_iff_right_of_imp (Allocation.ne_empty_of_mem_definedTypes hallocation)
  refine ⟨_, hallocated, hdefines, fun name hknows => ?_⟩
  rw [hdefines name, Allocation.mem_definedTypes_iff_of_knows hallocation hknows]

/-- A catalog with two types: one has the name of a derived domain, the other one is chosen for a
file. -/
def domainTypeCatalog : Catalog :=
  { fileCatalog with policy := { fileCatalog.policy with types := .ofList ["app_t", "two_t"] } }

/-- An application without a configured domain. -/
def plainCreator : Project :=
  twoDirectories [creator "app.json" ["/a/x"]]

/-- The domain is defined, and the chosen type is not. -/
theorem plainCreator_redeclared_types :
    domainTypeCatalog.policy.Knows "app_t" ∧ domainTypeCatalog.policy.Knows "two_t" ∧
    ∃ assembly,
      (ofProject plainCreator domainTypeCatalog (.ok []) "init_t").result = .ok assembly ∧
      (∃ m ∈ assembly.modules, m.definitions.types.contains "app_t" = true) ∧
      ¬∃ m ∈ assembly.modules, m.definitions.types.contains "two_t" = true := by
  have hdomain : domainTypeCatalog.policy.Knows "app_t" := by decide
  have htype : domainTypeCatalog.policy.Knows "two_t" := by decide
  have hanswer :
      (ofProject plainCreator domainTypeCatalog (.ok []) "init_t").result.toOption.isSome := by
    decide +kernel
  have happlications : (allocate plainCreator domainTypeCatalog (.ok []) "init_t").toOption.any
      fun context =>
        context.allocation.applications.map ConfinedApplication.domain = ["app_t"] := by
    decide +kernel
  obtain ⟨assembly, hassembly⟩ := exists_of_isSome_toOption hanswer
  obtain ⟨context, hcontext, hdomains⟩ := exists_of_any_toOption happlications
  obtain ⟨context', hcontext', -, hknown⟩ := redeclared_types hassembly
  obtain rfl : context = context' := Except.ok.inj (hcontext.symm.trans hcontext')
  refine ⟨hdomain, htype, assembly, hassembly, (hknown _ hdomain).2 (.inl ?_), fun hdefined => ?_⟩
  · exact List.mem_map.1 (hdomains ▸ List.mem_singleton_self "app_t")
  · rcases (hknown _ htype).1 hdefined with happ | ⟨resource, hresource, hsystem, hnone, -⟩
    · rw [← List.mem_map, hdomains] at happ
      simp at happ
    · -- Every resource keeps its label or has a type.
      simp only [plainCreator, twoDirectories, List.mem_cons, List.not_mem_nil, or_false]
        at hresource
      rcases hresource with rfl | rfl | rfl
      · cases hsystem
      · cases hsystem
      · simp at hnone

/-- The domain of the application is derived from the label that the system gives it.  It is a type
of the host, and it is defined. -/
theorem derivedDomain_redeclared :
    plainCreator.check = .ok () ∧ domainTypeCatalog.policy.definesType "app_t" = true ∧
    ∃ assembly,
      (ofProject plainCreator domainTypeCatalog (.ok []) "init_t").result = .ok assembly ∧
      ∃ m ∈ assembly.modules, m.definitions.types.contains "app_t" = true := by
  have hanswer : (ofProject plainCreator domainTypeCatalog (.ok []) "init_t").result.toOption.any
      fun assembly => decide (∃ m ∈ assembly.modules,
        m.definitions.types.contains "app_t" = true) := by
    decide +kernel
  exact ⟨by decide +kernel, by decide, exists_of_any_toOption hanswer⟩

end Assembly

end TypeEnforcement
