/-
Modules whose names are words.

What a module refers to and declares comes with the operations that make it.  So the names in its
texts are words if those of the operations are, and a resolution of conflicts keeps them so, because
it only puts one name of the rules in the place of another.

* `Reference.names`, `Declaration.names` — the names of references and declarations;
* `PolicyModule.Operation.IsNamed` — an operation whose names are words;
* `PolicyModule.IsNamed` — a module whose names are words.

Main statements:
* `isNamed_of_makes` — named operations make named modules;
* `IsNamed.rounds` — rounds of resolution leave a module named;
* `isNamed_of_ofProject` — the modules of a project are named.
-/
import TypeEnforcement.Proofs.Artifacts
import TypeEnforcement.Proofs.Closure
import TypeEnforcement.Proofs.Naming
import TypeEnforcement.Proofs.Overlap

namespace TypeEnforcement

open Rule (IsName IsPermission AllNamed)

/-! ### References and declarations -/

/-- The names of a reference. -/
def Reference.names : Reference → List String
  | type name | attr name | role name | objectClass name => [name]
  | permission className name => [className, name]

/-- The names of a declaration. -/
def Declaration.names : Declaration → List String
  | type name | permissive name => [name]
  | membership typeName attr => [typeName, attr]
  | role roleName typeName => [roleName, typeName]

theorem TransitionRule.forall_names_iff {P : String → Prop} {rule : TransitionRule} :
    (∀ name ∈ rule.names, P name) ↔ P rule.subject ∧ P rule.object ∧ P rule.target := by
  simp [TransitionRule.names]

theorem AccessRule.forall_names_iff {P : String → Prop} {rule : AccessRule} :
    (∀ name ∈ rule.names, P name) ↔ P rule.subject ∧ P rule.object := by
  simp [AccessRule.names]

namespace Rule

theorem IsNamed.forall_names {rule : Rule} (h : rule.IsNamed) :
    ∀ name ∈ rule.names, IsName name := by
  cases rule with
  | access rule => exact AccessRule.forall_names_iff.2 h
  | transition rule =>
    obtain ⟨hsubject, hobject, -, htarget⟩ := h
    exact TransitionRule.forall_names_iff.2 ⟨hsubject, hobject, htarget⟩

/-- A rule that keeps to a policy refers to names of its own and to names of the policy. -/
theorem isName_of_mem_references {policy : SystemPolicy} (hpolicy : policy.IsReadable)
    {rule : Rule} (hrule : rule.IsNamed) (hcheck : (rule.check policy).isOk = true)
    {reference : Reference} (h : reference ∈ rule.references policy) :
    ∀ name ∈ reference.names, IsName name := by
  have hnames (hmem : reference ∈ rule.names.flatMap (Reference.ofName policy)) :
      ∀ name ∈ reference.names, IsName name := by
    obtain ⟨name, hname, hreference⟩ := List.mem_flatMap.1 hmem
    obtain ⟨-, rfl⟩ := Reference.mem_named.1 hreference
    split
    · exact List.forall_mem_singleton.2 (hrule.forall_names name hname)
    · exact List.forall_mem_singleton.2 (hrule.forall_names name hname)
  cases rule with
  | transition rule => exact hnames h
  | access rule =>
    obtain hmem | hmem := List.mem_append.1 h
    · -- A rule that passes its check has a class of the policy, whose permissions are names.
      obtain ⟨permissions, hfound⟩ :
          ∃ permissions, policy.permissions? rule.className = some permissions := by
        cases hanswer : (access rule).check policy with
        | ok permissions => exact ⟨permissions, PolicyModule.permissions?_of_check hanswer⟩
        | error fault =>
          rw [hanswer] at hcheck
          cases hcheck
      obtain ⟨hclass, hpermissions⟩ := hpolicy.class_of_eq_some hfound
      rw [Reference.mem_ofActions, hfound, Option.getD_some] at hmem
      obtain rfl | ⟨name, hname, -, rfl⟩ := hmem
      · exact List.forall_mem_singleton.2 hclass
      · exact List.forall_mem_cons.2
          ⟨hclass, List.forall_mem_singleton.2 (hpermissions name hname).1⟩
    · exact hnames hmem

end Rule

/-- An entry that gives files a type whose name is a word. -/
def FileContext.IsNamed (entry : FileContext) : Prop :=
  ∃ typeName, IsName typeName ∧ entry = .bind entry.pattern entry.fileClass (.object typeName)

/-! ### Operations -/

namespace PolicyModule

/-- An operation whose names are words. -/
def Operation.IsNamed : Operation → Prop
  | .addRules rules => AllNamed rules
  | .requireType name | .requireAttribute name | .requireRole name | .defineType name
  | .addPermissive name => IsName name
  | .defineTypeWith name attr => IsName name ∧ IsName attr
  | .defineRoleType role name => IsName role ∧ IsName name
  | .addFileContext entry => entry.IsNamed
  | .resolve => True

variable {policy : SystemPolicy} {empty m next last : PolicyModule} {operations : List Operation}

theorem Operation.IsNamed.forall_references {operation : Operation} (h : operation.IsNamed)
    (hpolicy : policy.IsReadable) : ∀ reference ∈ operation.references policy,
      ∀ name ∈ reference.names, IsName name := by
  have hone {reference other : Reference} {name : String}
      (hmem : reference ∈ Reference.named name other) (hnames : ∀ name ∈ other.names, IsName name) :
      ∀ name ∈ reference.names, IsName name := by
    obtain ⟨-, rfl⟩ := Reference.mem_named.1 hmem
    exact hnames
  intro reference hmem
  cases operation with
  | addRules rules =>
    obtain ⟨rule, hrule, hmem⟩ := List.mem_flatMap.1 hmem
    have hcheck : (rule.check policy).isOk = true :=
      List.mem_takeWhile_imp (p := fun rule => (Rule.check policy rule).isOk) hrule
    exact Rule.isName_of_mem_references hpolicy
      (h rule ((List.takeWhile_sublist _).subset hrule)) hcheck hmem
  | requireType name | requireAttribute name | requireRole name | defineType name
  | addPermissive name =>
    have hname : IsName name := h
    exact hone hmem (List.forall_mem_singleton.2 hname)
  | defineTypeWith name attr =>
    simp only [references, Reference.ofMembership] at hmem
    split at hmem
    · cases hmem
    · rcases List.mem_pair.1 hmem with rfl | rfl
      · exact List.forall_mem_singleton.2 h.2
      · exact List.forall_mem_singleton.2 h.1
  | defineRoleType role name =>
    simp only [references, Reference.ofRoleType] at hmem
    split at hmem
    · cases hmem
    · obtain rfl := List.mem_singleton.1 hmem
      exact List.forall_mem_singleton.2 h.1
  | addFileContext _ | resolve => cases hmem

theorem Operation.IsNamed.forall_declarations {operation : Operation} (h : operation.IsNamed) :
    ∀ d ∈ (operation.content policy).declarations, ∀ name ∈ d.names, IsName name := by
  have htype {name : String} {attributes : List String} (hname : IsName name)
      (hattributes : ∀ attr ∈ attributes, IsName attr) :
      ∀ d ∈ Declaration.ofType name attributes, ∀ name ∈ d.names, IsName name := by
    unfold Declaration.ofType
    split
    · simp
    · refine List.forall_mem_cons.2 ⟨List.forall_mem_singleton.2 hname, ?_⟩
      refine List.forall_mem_map.2 fun attr hattr => ?_
      exact List.forall_mem_cons.2 ⟨hname, List.forall_mem_singleton.2 (hattributes attr hattr)⟩
  cases operation with
  | defineType name => exact htype h (by simp)
  | defineTypeWith name attr =>
    simp only [content]
    split
    · simp
    · exact htype h.1 (List.forall_mem_singleton.2 h.2)
  | defineRoleType role name =>
    simp only [content, Declaration.ofRole]
    split
    · simp
    · refine List.forall_mem_singleton.2 (List.forall_mem_cons.2 ⟨h.1, ?_⟩)
      exact List.forall_mem_singleton.2 h.2
  | addPermissive domain =>
    exact List.forall_mem_singleton.2 (List.forall_mem_singleton.2 h)
  | _ => simp [content]

/-! ### The names and versions of modules -/

theorem isName_of_chars {name : String} (hne : name.toList ≠ [])
    (h : ∀ c ∈ name.toList, TypeName.isNameChar c = true ∨ c = '.' ∨ c = '-') : IsName name := by
  refine ⟨⟨fun hempty => hne (String.toList_eq_nil_iff.2 hempty), fun c hc => ?_⟩, fun hcolon => ?_⟩
  · rcases h c hc with hchar | rfl | rfl
    · exact TypeName.isBlank_of_isNameChar hchar
    · rfl
    · rfl
  · exact absurd (h ':' hcolon) (by decide)

theorem isName_of_checkName {name : String} (h : ModuleName.check name = .ok ()) :
    IsName name := by
  obtain ⟨hwell, -⟩ := ModuleName.check_eq_ok_iff.1 h
  obtain ⟨hform, -⟩ := Bool.and_eq_true_iff.1 hwell
  split at hform
  · cases hform
  · rename_i c rest hname
    obtain ⟨hfirst, hrest⟩ := Bool.and_eq_true_iff.1 hform
    rw [List.all_eq_true] at hrest
    refine isName_of_chars (by simp [hname]) (hname ▸ List.forall_mem_cons.2 ⟨.inl ?_, ?_⟩)
    · rcases Bool.or_eq_true_iff.1 hfirst with hfirst | hfirst
      · simp [TypeName.isNameChar, Char.isAlphanum, hfirst]
      · simp [TypeName.isNameChar, hfirst]
    · intro d hd
      simpa [ModuleName.isNameChar, TypeName.isNameChar, or_assoc] using hrest d hd

theorem isName_of_checkVersion {version : String} (h : ModuleVersion.check version = .ok ()) :
    IsName version := by
  have hdigit {c : Char} (hc : c.isDigit = true) : TypeName.isNameChar c = true := by
    simp [TypeName.isNameChar, Char.isAlphanum, hc]
  unfold ModuleVersion.check at h
  split at h
  · rename_i hwell
    obtain ⟨hform, -⟩ := Bool.and_eq_true_iff.1 hwell
    split at hform
    · cases hform
    · rename_i c rest hversion
      obtain ⟨hfirst, hrest⟩ := Bool.and_eq_true_iff.1 hform
      rw [List.all_eq_true] at hrest
      refine isName_of_chars (by simp [hversion])
        (hversion ▸ List.forall_mem_cons.2 ⟨.inl (hdigit hfirst), fun d hd => ?_⟩)
      rcases Bool.or_eq_true_iff.1 (hrest d hd) with hd | hd
      · exact .inl (hdigit hd)
      · exact .inr (.inl (beq_iff_eq.1 hd))
  · cases h

/-! ### Modules -/

/-- A module whose names are words.  The classes of its access rules are left to the policy. -/
structure IsNamed (m : PolicyModule) : Prop where
  header : ∀ name ∈ m.headerNames, IsName name
  rules : ∀ name ∈ m.ruleNames, IsName name
  classes : ∀ rule ∈ m.transitionRules, IsName rule.className
  entries : ∀ entry ∈ m.fileContexts, entry.IsNamed

/-- The names before the rules are those of what a module introduces and declares, and its own. -/
theorem forall_headerNames {P : String → Prop} (hname : P m.name) (hversion : P m.version)
    (hintroduced : ∀ reference, m.Introduces reference → ∀ name ∈ reference.names, P name)
    (hdeclared : ∀ d, m.Declares d → ∀ name ∈ d.names, P name) :
    ∀ name ∈ m.headerNames, P name := by
  simp only [headerNames, List.forall_mem_cons, List.forall_mem_append, List.forall_mem_flatMap,
    List.not_mem_nil, false_imp_iff, implies_true, and_true, NameSet.mem_toList]
  refine ⟨hname, hversion, ⟨⟨⟨⟨⟨fun role hrole => ?_, fun name hname => ?_⟩, fun attr hattr => ?_⟩,
    fun entry hentry => ⟨?_, fun permission hpermission => ?_⟩⟩, fun entry hentry name hname => ?_⟩,
    fun entry hentry => ⟨?_, fun attr hattr => ?_⟩⟩, fun domain hdomain => ?_⟩
  · exact hintroduced (.role role) hrole role (by simp [Reference.names])
  · exact hintroduced (.type name) (.inl hname) name (by simp [Reference.names])
  · exact hintroduced (.attr attr) hattr attr (by simp [Reference.names])
  · have hclass : m.Introduces (.objectClass entry.1) := by
      simp [Introduces, NameMap.contains, NameMap.mem_entries_iff.1 hentry]
    exact hintroduced _ hclass entry.1 (by simp [Reference.names])
  · have hrelates : m.Introduces (.permission entry.1 permission) :=
      ⟨entry.2, NameMap.mem_entries_iff.1 hentry, hpermission⟩
    exact hintroduced _ hrelates permission (by simp [Reference.names])
  · have hrelates : m.Declares (.role entry.1 name) :=
      ⟨entry.2, NameMap.mem_entries_iff.1 hentry, hname⟩
    exact ⟨hdeclared _ hrelates entry.1 (by simp [Declaration.names]),
      hdeclared _ hrelates name (by simp [Declaration.names])⟩
  · have htype : m.Declares (.type entry.1) := by
      simp [Declares, NameMap.contains, NameMap.mem_entries_iff.1 hentry]
    exact hdeclared _ htype entry.1 (by simp [Declaration.names])
  · have hrelates : m.Declares (.membership entry.1 attr) :=
      ⟨entry.2, NameMap.mem_entries_iff.1 hentry, hattr⟩
    exact hdeclared _ hrelates attr (by simp [Declaration.names])
  · exact hdeclared (.permissive domain) hdomain domain (by simp [Declaration.names])

/-- The rules of named operations are named. -/
theorem isNamed_of_accepted (hoperations : ∀ operation ∈ operations, operation.IsNamed)
    (h : empty.Makes policy operations m) : ∀ rule ∈ accepted policy operations, rule.IsNamed := by
  rw [h.accepted_eq]
  refine List.forall_mem_flatMap.2 fun operation hoperation rule hrule => ?_
  cases operation with
  | addRules rules => exact hoperations _ hoperation rule hrule
  | _ => cases hrule

/-- Named operations make named modules. -/
theorem isNamed_of_makes {name version : String} (hpolicy : policy.IsReadable)
    (hempty : make name version = .ok empty) (h : empty.Makes policy operations m)
    (hoperations : ∀ operation ∈ operations, operation.IsNamed) : m.IsNamed := by
  have hadded := isNamed_of_accepted hoperations h
  obtain ⟨hname, hversion, rfl⟩ := make_eq_ok_iff.1 hempty
  obtain ⟨hmodule, hmoduleVersion⟩ : m.name = name ∧ m.version = version :=
    Prod.mk.inj (h.run ▸ heading_run policy { name, version } operations)
  -- What is added to an empty module is what it has.
  have hadds : Adds { name, version } (.ofAll (·.content policy) operations) m :=
    h.run ▸ adds_run policy h.settled { name, version }
  refine ⟨forall_headerNames (hmodule ▸ isName_of_checkName hname)
    (hmoduleVersion ▸ isName_of_checkVersion hversion) (fun reference hreference => ?_)
    fun d hd => ?_, fun name hname => ?_, fun rule hrule => ?_, fun entry hentry => ?_⟩
  · rw [← h.run, introduces_run_iff (not_introduces_make name version reference)] at hreference
    obtain ⟨operation, hoperation, hmem⟩ := hreference
    exact (hoperations operation hoperation).forall_references hpolicy reference hmem
  · rw [declares_of_makes h, List.mem_flatMap] at hd
    obtain ⟨operation, hoperation, hmem⟩ := hd
    exact (hoperations operation hoperation).forall_declarations d hmem
  · rw [← h.run] at hname
    obtain ⟨rule, hrule, hname⟩ := ruleNames_run rfl name hname
    exact (hadded rule hrule).forall_names name hname
  · obtain hmem | hmem := (hadds.transitions rule).1 hrule
    · exact absurd hmem List.not_mem_nil
    · obtain ⟨operation, hoperation, hmem⟩ := List.mem_flatMap.1 hmem
      rw [Operation.rules_content] at hmem
      exact (hadded _ (List.mem_flatMap.2 ⟨operation, hoperation, hmem⟩)).2.2.1
  · rw [hadds.fileContexts] at hentry
    obtain ⟨operation, hoperation, hmem⟩ := List.mem_flatMap.1 hentry
    cases operation with
    | addFileContext other =>
      obtain rfl := List.mem_singleton.1 hmem
      exact hoperations _ hoperation
    | _ => cases hmem

/-! ### Resolution -/

theorem IsNamed.round {r : Replacement} (h : m.IsNamed) (hround : Round m r next) :
    next.IsNamed := by
  have htarget : IsName r.target := by
    obtain ⟨rule, hrule, hname⟩ := mem_transitionNames.1 hround.target_mem
    exact (forall_ruleNames_iff.1 h.rules).2 rule hrule r.target hname
  have hrules := forall_ruleNames_round hround h.rules
  obtain ⟨-, rfl⟩ := hround
  refine ⟨h.header, hrules, fun rule hrule => ?_, List.forall_mem_map.2 fun entry hentry => ?_⟩
  · obtain ⟨old, hold, rfl⟩ := mem_replaceTransitions.1 hrule
    exact h.classes old hold
  · obtain ⟨typeName, hname, heq⟩ := h.entries entry hentry
    rw [renameType_eq, heq]
    refine ⟨r.rename typeName, ?_, rfl⟩
    unfold Replacement.rename
    split
    · exact htarget
    · exact hname

/-- Rounds of resolution leave a module named. -/
theorem IsNamed.rounds {replacements : List Replacement} (h : m.IsNamed)
    (hrounds : Rounds m replacements last) : last.IsNamed := by
  induction hrounds with
  | done m => exact h
  | step hround _ ih => exact ih (h.round hround)

/-- The access rules of a named module that keep to a policy are readable. -/
theorem IsNamed.isReadable_access (h : m.IsNamed) (hpolicy : policy.IsReadable)
    (hmerged : m.Merged policy) : ∀ rule ∈ m.accessRules, rule.IsReadable := by
  intro rule hrule
  obtain ⟨hsubject, hobject⟩ := AccessRule.forall_names_iff.1
    ((forall_ruleNames_iff.1 h.rules).1 rule hrule)
  obtain ⟨permissions, hfound, hwithin⟩ := hmerged.kept rule hrule
  obtain ⟨hclass, hpermissions⟩ := hpolicy.class_of_eq_some hfound
  obtain ⟨hne, hlisted⟩ := hwithin.toList
  refine ⟨hsubject, hobject, hclass, hne, fun permission hpermission => ?_⟩
  obtain hstar | ⟨-, hlisted⟩ := hlisted
  · rw [hstar, List.mem_singleton] at hpermission
    rw [hpermission]
    decide
  · exact hpermissions permission (hlisted permission hpermission)

/-- A transition rule of a named module is readable just if its name can be quoted. -/
theorem IsNamed.isReadable_transition_iff (h : m.IsNamed) {rule : TransitionRule}
    (hrule : rule ∈ m.transitionRules) :
    rule.IsReadable ↔ ∀ name ∈ rule.name, Rule.IsQuotable name := by
  obtain ⟨hsubject, hobject, htarget⟩ := TransitionRule.forall_names_iff.1
    ((forall_ruleNames_iff.1 h.rules).2 rule hrule)
  exact ⟨fun h => h.name, fun hname => ⟨hsubject, hobject, h.classes rule hrule, htarget, hname⟩⟩

end PolicyModule

namespace Assembly

open PolicyModule (Operation Makes)

/-! ### Projects -/

variable {context : Grant.Context} {project : Project} {catalog : Catalog}
  {own : Except Fault (List Installed)} {fallbackDomain : String} {assembly collected : Assembly}

theorem isNamed_fileOperations {file : LabelledFile} (h : file.IsNamed) :
    ∀ operation ∈ fileOperations file, operation.IsNamed := by
  have hattribute : IsName Grant.fileAttribute := by decide
  have hlabel : ∀ operation ∈ (if file.isSystem then [] else
      [Operation.addFileContext file.fileContext]), operation.IsNamed := by
    split
    · simp
    · rename_i hnew
      refine List.forall_mem_singleton.2 ⟨file.typeName, h.typeName, ?_⟩
      unfold LabelledFile.fileContext
      rw [h.label (by simpa using hnew)]
      rfl
  unfold fileOperations
  refine List.forall_mem_append.2 ⟨hlabel, ?_⟩
  split
  · exact List.forall_mem_singleton.2 h.typeName
  · split
    · exact List.forall_mem_cons.2 ⟨h.typeName, List.forall_mem_singleton.2
        (Bundle.allNamed_privateType h.typeName file.fileClass)⟩
    · exact List.forall_mem_singleton.2 ⟨h.typeName, hattribute⟩

theorem isNamed_applicationOperations {policy : SystemPolicy} (hpolicy : policy.IsReadable)
    {app : ConfinedApplication} (h : IsName app.domain) :
    ∀ operation ∈ applicationOperations policy app, operation.IsNamed := by
  have hattribute : IsName Grant.domainAttribute := by decide
  have hattributes : ∀ attr ∈ Grant.unconfinedAttributes, IsName attr := by decide
  unfold applicationOperations
  simp only [List.forall_mem_append]
  refine ⟨⟨⟨List.forall_mem_singleton.2 ⟨h, hattribute⟩, ?_⟩, ?_⟩, ?_⟩
  · split
    · exact List.forall_mem_map.2 fun attr hattr => ⟨h, hattributes attr hattr⟩
    · simp
  · split
    · exact List.forall_mem_singleton.2 h
    · simp
  · exact List.forall_mem_map.2 fun role hrole => ⟨hpolicy.roles role hrole, h⟩

theorem allNamed_rulesOfEntry (hcontext : context.IsNamed) (entry : ApplicationEntry) :
    AllNamed (rulesOfEntry context entry) := by
  unfold rulesOfEntry
  split
  · rename_i app file happ hfile
    have hdomain : IsName app.domain :=
      hcontext.applications app (List.mem_of_find?_eq_some happ)
    have htype : IsName file.typeName :=
      (hcontext.files file (List.mem_of_find?_eq_some hfile)).1.typeName
    refine .append (.append (.append ?_ ?_) ?_) (.flatMap fun permission _ => ?_)
    · exact Grant.allNamed_base hdomain
    · exact Rule.allNamed_ite (Grant.allNamed_unconfined hdomain _) Rule.allNamed_nil
    · exact Grant.allNamed_entry hdomain htype
    · unfold permissionRules
      split
      · rename_i rules hrules
        exact Grant.allNamed_ofPermission hcontext hdomain hrules
      · exact Rule.allNamed_nil
  · exact Rule.allNamed_nil

theorem isNamed_specOperations (hcontext : context.IsNamed) (spec : Spec) :
    ∀ operation ∈ specOperations context spec, operation.IsNamed :=
  List.forall_mem_map.2 fun entry _ => allNamed_rulesOfEntry hcontext entry

theorem isNamed_definingOperations (hcontext : context.IsNamed) (project : Project) :
    ∀ operation ∈ definingOperations context project, operation.IsNamed := by
  have hextra (text : String) : AllNamed (Rule.parse text).toOption.toList := by
    intro rule hrule
    rw [Option.mem_toList, toOption_eq_some_iff] at hrule
    exact (Rule.isReadable_of_parse hrule).isNamed
  unfold definingOperations baseOperations
  simp only [List.forall_mem_append]
  refine ⟨⟨⟨List.forall_mem_map.2 fun text _ => hextra text, ?_⟩, ?_⟩, ?_⟩
  · exact List.forall_mem_flatMap.2 fun file hfile =>
      isNamed_fileOperations (hcontext.files file hfile).1
  · exact List.forall_mem_flatMap.2 fun app happ =>
      isNamed_applicationOperations hcontext.policy (hcontext.applications app happ)
  · split
    · exact List.forall_mem_flatMap.2 fun spec _ => isNamed_specOperations hcontext spec
    · simp

/-- The modules of a project on a host whose names are words. -/
theorem isNamed_of_ofProject (hcatalog : catalog.IsReadable) (hfallback : IsName fallbackDomain)
    (h : (ofProject project catalog own fallbackDomain).result = .ok assembly) :
    ∃ policy : SystemPolicy, policy.IsReadable ∧
      ∀ m ∈ assembly.modules, m.IsNamed ∧ m.Merged policy := by
  obtain ⟨context, collected, hallocated, hcollected, rfl⟩ := exists_of_ofProject h
  have hcontext := isNamed_of_allocate hcatalog hfallback hallocated
  have hmade {name version : String} {empty m : PolicyModule} {operations : List Operation}
      (hempty : PolicyModule.make name version = .ok empty)
      (hmakes : empty.Makes context.policy operations m)
      (hoperations : ∀ operation ∈ operations, operation.IsNamed) :
      m.IsNamed ∧ m.Merged context.policy := by
    refine ⟨PolicyModule.isNamed_of_makes hcontext.policy hempty hmakes hoperations, ?_⟩
    obtain rfl := PolicyModule.eq_of_make hempty
    exact hmakes.run ▸ PolicyModule.merged_run operations (PolicyModule.merged_make _ _ _)
  obtain ⟨empty, base, others, hempty, hbase, hmodules, hothers⟩ := makes_collect hcollected
  refine ⟨context.policy, hcontext.policy, List.forall_mem_map.2 fun m hm => ?_⟩
  obtain ⟨hnamed, hmerged⟩ : m.IsNamed ∧ m.Merged context.policy := by
    rw [hmodules] at hm
    rcases List.mem_cons.1 hm with rfl | hm
    · exact hmade hempty hbase (isNamed_definingOperations hcontext project)
    · obtain ⟨spec, -, hspec⟩ := hothers m hm
      obtain ⟨empty, hempty, hmakes⟩ := makes_specModule hspec
      exact hmade hempty hmakes (isNamed_specOperations hcontext spec)
  exact ⟨hnamed.rounds (rounds_resolve m), PolicyModule.merged_rounds (rounds_resolve m) hmerged⟩

end Assembly

end TypeEnforcement
