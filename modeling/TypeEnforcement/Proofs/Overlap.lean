/-
Names that a module both defines and requires.

Defining a type takes back the requirement of a type, and requiring a type passes over the types
that are defined.  Attributes are required without a look at the definitions, so a type that has the
name of an attribute may end up defined and required.

* `Assembly.definingRules` — the rules of the module that has the definitions.

Main statements:
* `attributes_of_makes` — the attributes that a module requires are those that its types have and
  those of the policy that its rules name;
* `defined_and_required` — which names are defined and required in a module of a project;
* `domainNamedDomain_overlap` — a domain with the name of the attribute of domains.
-/
import TypeEnforcement.Proofs.Ambiguity
import TypeEnforcement.Proofs.Order

namespace TypeEnforcement

namespace PolicyModule

/-! ### References to attributes -/

variable {policy : SystemPolicy} {m : PolicyModule} {operations : List Operation}

/-- An operation refers to the attributes that it gives to types, to those of the policy that its
rules name, and to one that it requires. -/
theorem Operation.attr_mem_references_iff {name : String} (operation : Operation) :
    .attr name ∈ operation.references policy ↔
      (∃ typeName, .membership typeName name ∈ (operation.content policy).declarations) ∨
      (name ≠ "" ∧ policy.definesAttribute name = true ∧
        ∃ rule ∈ operation.accepted policy, name ∈ rule.names) ∨
      name ≠ "" ∧ operation = .requireAttribute name := by
  cases operation with
  | addRules rules =>
    simp only [references, accepted, content, List.mem_flatMap, Rule.attr_mem_references_iff]
    constructor
    · rintro ⟨rule, hrule, hne, hname, hdefines⟩
      exact .inr (.inl ⟨hne, hdefines, rule, hrule, hname⟩)
    · rintro (⟨_, hmem⟩ | ⟨hne, hdefines, rule, hrule, hname⟩ | ⟨-, heq⟩)
      · exact absurd hmem List.not_mem_nil
      · exact ⟨rule, hrule, hne, hname, hdefines⟩
      · cases heq
  | requireAttribute other =>
    simp only [references, accepted, content, Reference.mem_named, Reference.attr.injEq,
      List.not_mem_nil, exists_false, false_and, and_false, false_or, requireAttribute.injEq]
    constructor
    · rintro ⟨hne, rfl⟩
      exact ⟨hne, rfl⟩
    · rintro ⟨hne, rfl⟩
      exact ⟨hne, rfl⟩
  | defineTypeWith other attr =>
    by_cases hattr : attr = ""
    · simp [references, accepted, content, Reference.ofMembership, hattr]
    · by_cases hother : other = ""
      · simp [references, accepted, content, Reference.ofMembership, Declaration.ofType, hother]
      · simp [references, accepted, content, Reference.ofMembership, Declaration.ofType, hother,
          hattr]
  | requireType other | addPermissive other | defineType other =>
    simp [references, accepted, content, Reference.mem_named, Declaration.ofType]
  | requireRole other => simp [references, accepted, content, Reference.mem_named]
  | defineRoleType role other =>
    by_cases hnone : role = "" ∨ other = ""
    · simp [references, accepted, content, Reference.ofRoleType, Declaration.ofRole, hnone]
    · simp [references, accepted, content, Reference.ofRoleType, Declaration.ofRole, hnone]
  | addFileContext _ | resolve => simp [references, accepted, content]

/-- The types that operations declare have a name. -/
theorem Operation.ne_empty_of_type_mem {name : String} {operation : Operation}
    (h : .type name ∈ (operation.content policy).declarations) : name ≠ "" := by
  have htype {other : String} {attributes : List String}
      (hmem : .type name ∈ Declaration.ofType other attributes) : name ≠ "" := by
    unfold Declaration.ofType at hmem
    split at hmem
    · exact absurd hmem List.not_mem_nil
    · rename_i hother
      simp only [List.mem_cons, Declaration.type.injEq, List.mem_map, reduceCtorEq, and_false,
        exists_false, or_false] at hmem
      exact hmem ▸ hother
  cases operation with
  | defineType other => exact htype h
  | defineTypeWith other attr =>
    simp only [content] at h
    split at h
    · exact absurd h List.not_mem_nil
    · exact htype h
  | _ => simp [content, Declaration.ofRole] at h

theorem declares_of_makes {name version : String} (h : Makes policy { name, version } operations m)
    (d : Declaration) : m.Declares d ↔
      d ∈ operations.flatMap fun operation => (operation.content policy).declarations := by
  rw [← h.run, declares_run_iff h.settled, List.mem_flatMap]

theorem orderly_of_makes {name version : String} (h : Makes policy { name, version } operations m) :
    m.Orderly :=
  h.run ▸ orderly_run operations (orderly_make name version)

/-- A module that no attribute is required of otherwise requires the attributes that its types have
and those of the policy that its rules name. -/
theorem attributes_of_makes {name version : String}
    (h : Makes policy { name, version } operations m)
    (hplain : ∀ attr, .requireAttribute attr ∉ operations) (attr : String) :
    attr ∈ m.requirements.attributes ↔
      (∃ typeName, m.Declares (.membership typeName attr)) ∨
      attr ≠ "" ∧ policy.definesAttribute attr = true ∧
        ∃ rule ∈ operations.flatMap Operation.rules, attr ∈ rule.names := by
  have hintroduced : m.Introduces (.attr attr) ↔
      ∃ operation ∈ operations, .attr attr ∈ operation.references policy := by
    rw [← h.run]
    exact introduces_run_iff (not_introduces_make name version _)
  show m.Introduces (.attr attr) ↔ _
  simp only [hintroduced, Operation.attr_mem_references_iff, declares_of_makes h, List.mem_flatMap,
    ← h.accepted_eq]
  constructor
  · rintro ⟨operation, hoperation, ⟨typeName, hmem⟩ | ⟨hne, hdefines, rule, hrule, hname⟩ |
      ⟨-, rfl⟩⟩
    · exact .inl ⟨typeName, operation, hoperation, hmem⟩
    · exact .inr ⟨hne, hdefines, rule, List.mem_flatMap.2 ⟨operation, hoperation, hrule⟩, hname⟩
    · exact absurd hoperation (hplain attr)
  · rintro (⟨typeName, operation, hoperation, hmem⟩ | ⟨hne, hdefines, rule, hrule, hname⟩)
    · exact ⟨operation, hoperation, .inl ⟨typeName, hmem⟩⟩
    · obtain ⟨operation, hoperation, hrule⟩ := List.mem_flatMap.1 hrule
      exact ⟨operation, hoperation, .inr (.inl ⟨hne, hdefines, rule, hrule, hname⟩)⟩

end PolicyModule

namespace Assembly

open PolicyModule (Operation Makes)

/-! ### The module that has the definitions -/

variable {context : Grant.Context} {project : Project} {catalog : Catalog}
  {own : Except Fault (List Installed)} {fallbackDomain : String} {assembly collected : Assembly}
  {m : PolicyModule}

/-- The rules of the module that has the definitions. -/
def definingRules (context : Grant.Context) (project : Project) : List Rule :=
  if project.monolithic then calledFor context project else (baseContent context project).rules

theorem rules_definingOperations (context : Grant.Context) (project : Project) :
    (definingOperations context project).flatMap Operation.rules =
      definingRules context project := by
  unfold definingOperations definingRules
  split
  · rw [List.flatMap_append, rules_baseOperations, ← rules_projectContent, List.flatMap_assoc]
    simp only [rules_specOperations]
    rfl
  · rw [List.append_nil, rules_baseOperations]

/-- Only the definitions declare something. -/
theorem declarations_definingOperations (context : Grant.Context) (project : Project) :
    ((definingOperations context project).flatMap fun operation =>
      (operation.content context.policy).declarations) =
        (baseContent context project).declarations := by
  have hspecs : ((if project.monolithic then project.specs.flatMap (specOperations context)
      else []).flatMap fun operation => (operation.content context.policy).declarations) = [] := by
    split
    · simp only [List.flatMap_assoc, declarations_specOperations]
      exact List.flatMap_eq_nil_iff.2 fun _ _ => rfl
    · rfl
  rw [definingOperations, List.flatMap_append, hspecs, List.append_nil,
    declarations_baseOperations]

/-- No operation requires an attribute of its own accord. -/
theorem requireAttribute_not_mem (context : Grant.Context) (project : Project) (attr : String) :
    .requireAttribute attr ∉ definingOperations context project := by
  have hspec (spec : Spec) : .requireAttribute attr ∉ specOperations context spec := by
    simp [specOperations]
  have hfile (file : LabelledFile) : .requireAttribute attr ∉ fileOperations file := by
    unfold fileOperations
    cases file.isSystem <;> cases file.typeExists <;> cases file.isPrivate <;> simp
  have happ (app : ConfinedApplication) :
      .requireAttribute attr ∉ applicationOperations context.policy app := by
    unfold applicationOperations
    cases app.isUnconfined <;> cases app.isPermissive <;> simp
  unfold definingOperations baseOperations
  cases project.monolithic <;> simp [hspec, hfile, happ]

/-- The modules of specs define no types. -/
theorem contains_types_specModule {spec : Spec}
    (h : (specModule context project spec).result = .ok m) (name : String) :
    m.definitions.types.contains name = false := by
  obtain ⟨empty, hempty, hmakes⟩ := makes_specModule h
  obtain rfl := PolicyModule.eq_of_make hempty
  refine Bool.eq_false_iff.2 fun hdefined => ?_
  have hdeclared := (PolicyModule.declares_of_makes hmakes (.type name)).1 hdefined
  rw [declarations_specOperations] at hdeclared
  exact List.not_mem_nil hdeclared

/-- A name of the module with the definitions that is a type and a required attribute. -/
theorem defining_overlap_iff {name version : String}
    (h : Makes context.policy { name, version } (definingOperations context project) m)
    (typeName : String) :
    m.definitions.types.contains typeName = true ∧ typeName ∈ m.requirements.attributes ↔
      .type typeName ∈ (baseContent context project).declarations ∧
        ((∃ member, .membership member typeName ∈ (baseContent context project).declarations) ∨
          context.policy.definesAttribute typeName = true ∧
            ∃ rule ∈ definingRules context project, typeName ∈ rule.names) := by
  have hdeclares (d : Declaration) :
      m.Declares d ↔ d ∈ (baseContent context project).declarations := by
    rw [PolicyModule.declares_of_makes h, declarations_definingOperations]
  have hattributes := PolicyModule.attributes_of_makes h
    (requireAttribute_not_mem context project) typeName
  simp only [rules_definingOperations, hdeclares] at hattributes
  rw [hattributes, ← hdeclares (.type typeName)]
  refine and_congr_right fun htype => or_congr_right (and_iff_right ?_)
  -- The rules may name the empty name, but no operation declares it.
  obtain ⟨operation, -, hmem⟩ :=
    List.mem_flatMap.1 ((PolicyModule.declares_of_makes h (.type typeName)).1 htype)
  exact Operation.ne_empty_of_type_mem hmem

/-! ### Defined and required names -/

/-- No type that a module defines is required as a type.  As an attribute it is required just if a
type is given it, or it is an attribute of the policy that a rule of the module with the definitions
names. -/
theorem defined_and_required
    (h : (ofProject project catalog own fallbackDomain).result = .ok assembly) :
    ∃ context, allocate project catalog own fallbackDomain = .ok context ∧
      (∀ m ∈ assembly.modules, ∀ name, m.definitions.types.contains name = true →
        name ∉ m.requirements.types) ∧
      ∀ name, (∃ m ∈ assembly.modules, m.definitions.types.contains name = true ∧
          name ∈ m.requirements.attributes) ↔
        .type name ∈ (baseContent context project).declarations ∧
          ((∃ typeName, .membership typeName name ∈ (baseContent context project).declarations) ∨
            context.policy.definesAttribute name = true ∧
              ∃ rule ∈ definingRules context project, name ∈ rule.names) := by
  obtain ⟨context, collected, hallocated, hcollected, rfl⟩ := exists_of_ofProject h
  obtain ⟨empty, base, others, hempty, hbase, hmodules, hothers⟩ := makes_collect hcollected
  obtain rfl := PolicyModule.eq_of_make hempty
  -- A resolution changes neither the definitions nor the requirements.
  have hresolved (m : PolicyModule) :=
    PolicyModule.requirements_rounds (rounds_resolve m)
  refine ⟨context, hallocated, List.forall_mem_map.2 fun m hm name hdefined hrequired => ?_,
    fun name => ?_⟩
  · rw [(hresolved m).2.1] at hdefined
    rw [(hresolved m).1] at hrequired
    have horderly : m.Orderly := by
      rw [hmodules] at hm
      rcases List.mem_cons.1 hm with rfl | hm
      · exact PolicyModule.orderly_of_makes hbase
      · obtain ⟨spec, -, hspec⟩ := hothers m hm
        obtain ⟨empty, hempty, hmakes⟩ := makes_specModule hspec
        obtain rfl := PolicyModule.eq_of_make hempty
        exact PolicyModule.orderly_of_makes hmakes
    exact absurd hdefined (Bool.eq_false_iff.1 (horderly.apart name hrequired))
  · rw [← defining_overlap_iff hbase]
    constructor
    · rintro ⟨m, hm, hboth⟩
      obtain ⟨before, hbefore, rfl⟩ := List.mem_map.1 hm
      rw [(hresolved before).1, (hresolved before).2.1] at hboth
      rw [hmodules] at hbefore
      rcases List.mem_cons.1 hbefore with rfl | hbefore
      · exact hboth
      · obtain ⟨spec, -, hspec⟩ := hothers before hbefore
        rw [contains_types_specModule hspec] at hboth
        exact absurd hboth.1 Bool.false_ne_true
    · intro hboth
      refine ⟨base.resolve.1, List.mem_map_of_mem (hmodules ▸ List.mem_cons_self), ?_⟩
      rw [(hresolved base).1, (hresolved base).2.1]
      exact hboth

/-- A project whose application runs in the domain with the given name. -/
def namedDomain (domain : String) : Project :=
  { twoDirectories [creator "app.json" ["/a/x"]] with
    resources := [
      { path := "/app", classWord := "exec_file", isSystem := true, domain := some domain },
      { path := "/a/x", classWord := "file", isSystem := true }] }

/-- A catalog with the attribute of domains. -/
def domainCatalog : Catalog :=
  { fileCatalog with
    policy := { fileCatalog.policy with attributes := .ofList [Grant.domainAttribute] } }

/-- A domain with the name of the attribute of domains is defined as a type and required as an
attribute. -/
theorem domainNamedDomain_overlap :
    let project := namedDomain Grant.domainAttribute
    project.check = .ok () ∧ ∃ assembly,
      (ofProject project domainCatalog (.ok []) "init_t").result = .ok assembly ∧
      ∃ m ∈ assembly.modules, m.definitions.types.contains Grant.domainAttribute = true ∧
        Grant.domainAttribute ∈ m.requirements.attributes := by
  intro project
  have hanswer : (ofProject project domainCatalog (.ok []) "init_t").result.toOption.any
      fun assembly => decide (∃ m ∈ assembly.modules,
        m.definitions.types.contains Grant.domainAttribute = true ∧
          Grant.domainAttribute ∈ m.requirements.attributes) := by
    decide +kernel
  exact ⟨by decide +kernel, exists_of_any_toOption hanswer⟩

/-- With a domain of another name nothing is both defined and required. -/
theorem plainDomain_defined_and_required : ∃ assembly,
    (ofProject (namedDomain "app_t") domainCatalog (.ok []) "init_t").result = .ok assembly ∧
    (∀ m ∈ assembly.modules, ∀ name, m.definitions.types.contains name = true →
      name ∉ m.requirements.types) ∧
    ¬∃ m ∈ assembly.modules, m.definitions.types.contains Grant.domainAttribute = true ∧
      Grant.domainAttribute ∈ m.requirements.attributes := by
  have hanswer :
      (ofProject (namedDomain "app_t") domainCatalog (.ok []) "init_t").result.toOption.isSome := by
    decide +kernel
  have hplain : (allocate (namedDomain "app_t") domainCatalog (.ok []) "init_t").toOption.any
      fun context => decide (.type Grant.domainAttribute ∉
        (baseContent context (namedDomain "app_t")).declarations) := by
    decide +kernel
  obtain ⟨assembly, hassembly⟩ := exists_of_isSome_toOption hanswer
  obtain ⟨context, hcontext, hplain⟩ := exists_of_any_toOption hplain
  obtain ⟨context', hcontext', htypes, hattributes⟩ := defined_and_required hassembly
  obtain rfl : context = context' := Except.ok.inj (hcontext.symm.trans hcontext')
  refine ⟨assembly, hassembly, htypes, fun hboth => ?_⟩
  exact hplain ((hattributes _).1 hboth).1

end Assembly

end TypeEnforcement
