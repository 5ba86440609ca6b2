/-
Whether modules introduce what their rules use.

Rules come from the outside and are then renamed, but no operation makes up a name or a class: what
stands in the rules of a module came with a rule that was added to it, and that rule was the
occasion to introduce it.  Classes are introduced by access rules only.

* `PolicyModule.ruleNames` — the names that the rules of a module use;
* `PolicyModule.SumsByClass` — the access rules of a module are the sums of some rules, class by
  class;
* `PolicyModule.RequiresClass` — the source text of a module requires a class.

Main statements:
* `ruleNames_run`, `sumsByClass_run` — where the names and classes of the rules of a module come
  from;
* `names_of_history` — the names that rules use are introduced;
* `classes_of_history` — the classes that access rules use are introduced, and no others;
* `loneTransition_class_not_required` — a class that only a transition rule uses.
-/
import TypeEnforcement.Module.Source
import TypeEnforcement.Proofs.References

namespace TypeEnforcement

namespace PolicyModule

variable {policy : SystemPolicy} {m next last : PolicyModule}

/-! ### Names -/

/-- The names that occur in the rules of a module. -/
def ruleNames (m : PolicyModule) : List String :=
  m.accessRules.flatMap AccessRule.names ++ m.transitionRules.flatMap TransitionRule.names

theorem forall_ruleNames_iff {P : String → Prop} :
    (∀ name ∈ m.ruleNames, P name) ↔ (∀ rule ∈ m.accessRules, ∀ name ∈ rule.names, P name) ∧
      ∀ rule ∈ m.transitionRules, ∀ name ∈ rule.names, P name := by
  rw [ruleNames, List.forall_mem_append, List.forall_mem_flatMap, List.forall_mem_flatMap]

/-- Merging rules brings no names. -/
theorem forall_names_insertAccess {P : String → Prop} {rule : AccessRule} {rules : List AccessRule}
    (hrule : ∀ name ∈ rule.names, P name) (hrules : ∀ r ∈ rules, ∀ name ∈ r.names, P name) :
    ∀ r ∈ insertAccess rule rules, ∀ name ∈ r.names, P name :=
  forall_mem_insertAccess (P := fun r => ∀ name ∈ r.names, P name) (fun _ _ _ ha _ => ha) hrule
    hrules

/-- What is true of the names that a module uses, and of those of a rule that is added to it, is
true of the names that the module uses afterwards. -/
theorem forall_ruleNames_addChecked {P : String → Prop} {permissions : NameSet} {rule : Rule}
    (h : ∀ name ∈ m.ruleNames, P name) (hrule : ∀ name ∈ rule.names, P name) :
    ∀ name ∈ (m.addChecked policy permissions rule).ruleNames, P name := by
  obtain ⟨haccess, htransition⟩ := forall_ruleNames_iff.1 h
  rw [forall_ruleNames_iff, accessRules_addChecked, transitionRules_addChecked]
  cases rule with
  | access rule => exact ⟨forall_names_insertAccess hrule haccess, htransition⟩
  | transition rule =>
    refine ⟨haccess, fun other hother => ?_⟩
    rcases mem_insertTransition.1 hother with rfl | hother
    · exact hrule
    · exact htransition other hother

/-- A round puts a name in the place of another one, and both are there before. -/
theorem forall_ruleNames_round {P : String → Prop} {r : Replacement} (hround : Round m r next)
    (h : ∀ name ∈ m.ruleNames, P name) : ∀ name ∈ next.ruleNames, P name := by
  obtain ⟨haccess, htransition⟩ := forall_ruleNames_iff.1 h
  have htarget : P r.target := by
    obtain ⟨rule, hrule, hname⟩ := mem_transitionNames.1 hround.target_mem
    exact htransition rule hrule r.target hname
  have hrename : ∀ name, P name → P (r.rename name) := by
    intro name hname
    unfold Replacement.rename
    split
    · exact htarget
    · exact hname
  obtain ⟨-, rfl⟩ := hround
  refine forall_ruleNames_iff.2 ⟨?_, fun rule hrule => ?_⟩
  · refine List.foldlRecOn (motive := fun kept : List AccessRule =>
      ∀ rule ∈ kept, ∀ name ∈ rule.names, P name) m.accessRules _ (by simp)
      fun kept hkept rule hrule => ?_
    refine forall_names_insertAccess (fun name hname => ?_) hkept
    obtain ⟨old, hold, rfl⟩ := List.mem_map.1
      (show name ∈ rule.names.map r.rename from hname)
    exact hrename old (haccess rule hrule old hold)
  · intro name hname
    obtain ⟨before, hbefore, rfl⟩ := mem_replaceTransitions.1 hrule
    rw [names_replace] at hname
    obtain ⟨old, hold, rfl⟩ := List.mem_map.1 hname
    exact hrename old (htransition before hbefore old hold)

theorem forall_ruleNames_resolve {P : String → Prop} (h : ∀ name ∈ m.ruleNames, P name) :
    ∀ name ∈ m.resolve.1.ruleNames, P name := by
  have hrounds := rounds_resolve m
  generalize m.resolve.1 = last, m.resolve.2 = replacements at hrounds
  induction hrounds with
  | done m => exact h
  | step hround _ ih => exact ih (forall_ruleNames_round hround h)

/-- The names in the rules of a module come from the rules that were added to it. -/
theorem ruleNames_run {operations : List Operation} (h : m.ruleNames = []) :
    ∀ name ∈ (m.run policy operations).ruleNames,
      ∃ rule ∈ accepted policy operations, name ∈ rule.names := by
  refine run_induction
    (P := fun m added => ∀ name ∈ m.ruleNames, ∃ rule ∈ added, name ∈ rule.names)
    (fun operation _ m added hm => ?_) [] (by simp [h])
  have hmore (more : List Rule) :
      ∀ name ∈ m.ruleNames, ∃ rule ∈ added ++ more, name ∈ rule.names := by
    intro name hname
    obtain ⟨rule, hrule, hname⟩ := hm name hname
    exact ⟨rule, List.mem_append_left _ hrule, hname⟩
  obtain ⟨rules, rfl⟩ | rfl | ⟨-, hsame⟩ := sameRules_apply policy m operation
  · refine addUpTo_induction
      (P := fun m added => ∀ name ∈ m.ruleNames, ∃ rule ∈ added, name ∈ rule.names)
      (fun m added rule permissions _ hm => ?_) added hm rules
    refine forall_ruleNames_addChecked (fun name hname => ?_) fun name hname => ?_
    · obtain ⟨other, hother, hname⟩ := hm name hname
      exact ⟨other, List.mem_append_left _ hother, hname⟩
    · exact ⟨rule, List.mem_append_right _ (List.mem_singleton_self rule), hname⟩
  · exact forall_ruleNames_resolve (hmore _)
  · have hnames : (m.apply policy operation).ruleNames = m.ruleNames := by
      rw [ruleNames, hsame.accessRules, hsame.transitionRules, ruleNames]
    rw [hnames]
    exact hmore _

/-- A domain is permissive because an operation made it so. -/
theorem permissive_run {operations : List Operation} (h : m.permissive = []) :
    ∀ domain ∈ (m.run policy operations).permissive, .addPermissive domain ∈ operations := by
  have hstart : ∀ domain ∈ m.permissive, Operation.addPermissive domain ∈ operations := by
    simp [h]
  refine run_induction
    (P := fun m _ => ∀ domain ∈ m.permissive, .addPermissive domain ∈ operations)
    (fun operation hoperation m _ hm domain hdomain => ?_) [] hstart
  -- Resolution is no addition: it may drop requirements, and it keeps the permissive domains.
  by_cases hresolve : operation = .resolve
  · subst hresolve
    obtain ⟨-, -, hsame⟩ := requirements_rounds (rounds_resolve m)
    exact hm domain (hsame ▸ hdomain)
  · have hdeclares := (adds_apply policy m hresolve).declares (.permissive domain)
    rcases hdeclares.1 hdomain with hold | hnew
    · exact hm domain hold
    · rwa [eq_of_permissive_mem hnew] at hoperation

/-- After any history, every name in the rules of a module and every permissive domain is a type
that the module defines or requires, or an attribute that it requires, unless the name is empty; and
the attributes of the policy among the names in rules are required as attributes. -/
theorem names_of_history (policy : SystemPolicy) {name version : String} {empty : PolicyModule}
    (hempty : make name version = .ok empty) (operations : List Operation) :
    let m := empty.run policy operations
    (∀ name, name ≠ "" → name ∈ m.ruleNames ∨ name ∈ m.permissive →
      m.definitions.types.contains name = true ∨ name ∈ m.requirements.types ∨
        name ∈ m.requirements.attributes) ∧
    (∀ name, name ≠ "" → name ∈ m.ruleNames → policy.definesAttribute name = true →
      name ∈ m.requirements.attributes) := by
  obtain rfl := eq_of_make hempty
  intro m
  -- A name in a rule came with a rule that was added, and was introduced then.
  have hrules : ∀ name ∈ m.ruleNames, ∀ reference ∈ Reference.ofName policy name,
      m.Introduces reference := by
    intro name hname reference hreference
    obtain ⟨rule, hrule, hmem⟩ := ruleNames_run rfl name hname
    exact introduces_of_accepted hrule (Rule.mem_references_of_name hmem hreference)
  have hpermissive : ∀ domain ∈ m.permissive, domain ≠ "" → m.Introduces (.type domain) := by
    intro domain hdomain hne
    have hoperation : .addPermissive domain ∈ operations := permissive_run rfl domain hdomain
    exact (introduces_run_iff (not_introduces_make name version _)).2
      ⟨_, hoperation, Reference.mem_named.2 ⟨hne, rfl⟩⟩
  have hattr : ∀ name, name ≠ "" → name ∈ m.ruleNames → policy.definesAttribute name = true →
      name ∈ m.requirements.attributes := by
    intro name hne hname hdefines
    refine hrules name hname (.attr name) (Reference.mem_named.2 ⟨hne, ?_⟩)
    rw [if_pos hdefines]
  refine ⟨fun name hne hname => ?_, hattr⟩
  rcases hname with hname | hname
  · by_cases hdefines : policy.definesAttribute name = true
    · exact .inr (.inr (hattr name hne hname hdefines))
    · have htype : m.Introduces (.type name) := by
        refine hrules name hname (.type name) (Reference.mem_named.2 ⟨hne, ?_⟩)
        rw [if_neg hdefines]
      exact htype.elim (fun h => .inr (.inl h)) .inl
  · exact (hpermissive name hname hne).elim (fun h => .inr (.inl h)) .inl

/-- A policy with one attribute and two classes. -/
def domainsOnly : SystemPolicy where
  attributes := .ofList ["domain"]
  classes := .ofList [("file", .ofList ["open", "read"]), ("process", .ofList ["signal"])]

/-- Rules whose names are defined before and after, an attribute, a conflict that renames a type,
and a permissive domain. -/
def renamedTypes : List Operation := [
  .defineType "app_t",
  .addRules [.access (.allow "domain" "app_t" "file" ["read"]),
    .transition (.make "app_t" "var_t" "file" "one_t" none),
    .transition (.make "app_t" "var_t" "file" "two_t" none),
    .access (.allow "app_t" "two_t" "file" ["*"])],
  .addPermissive "app_t", .resolve, .defineTypeWith "one_t" "domain"]

theorem renamedTypes_names_of_history : ∃ empty, make "demo" "1.0" = .ok empty ∧
    let m := empty.run domainsOnly renamedTypes
    m.permissive = ["app_t"] ∧ (∀ name ∈ m.permissive,
      m.definitions.types.contains name = true ∨ name ∈ m.requirements.types ∨
        name ∈ m.requirements.attributes) ∧
    "domain" ∈ m.ruleNames ∧ "domain" ∈ m.requirements.attributes := by
  have hempty : make "demo" "1.0" = .ok { name := "demo", version := "1.0" } := by rfl
  obtain ⟨hnames, hattributes⟩ := names_of_history domainsOnly hempty renamedTypes
  have hpermissive : (run domainsOnly { name := "demo", version := "1.0" }
      renamedTypes).permissive = ["app_t"] := by decide +kernel
  have hdomain : "domain" ∈ (run domainsOnly { name := "demo", version := "1.0" }
      renamedTypes).ruleNames := by decide +kernel
  refine ⟨_, hempty, hpermissive, fun name hname => ?_, hdomain,
    hattributes "domain" (by decide) hdomain (by decide +kernel)⟩
  have hne : name ≠ "" := by
    rw [hpermissive, List.mem_singleton] at hname
    simp [hname]
  exact hnames name hne (.inr hname)

/-- The empty name is required by nothing, also where the policy has it as an attribute. -/
theorem emptyName_not_required : ∃ empty, make "demo" "1.0" = .ok empty ∧
    let policy : SystemPolicy :=
      { attributes := .ofList [""], classes := .ofList [("file", .ofList ["read"])] }
    let m := empty.run policy [.addRules [.access (.allow "" "log_t" "file" ["read"])]]
    "" ∈ m.ruleNames ∧ policy.definesAttribute "" = true ∧ "" ∉ m.requirements.attributes := by
  have hempty : make "demo" "1.0" = .ok { name := "demo", version := "1.0" } := by rfl
  refine ⟨_, hempty, ?_, ?_, ?_⟩
  · decide +kernel
  · decide +kernel
  · decide +kernel

/-! ### Classes -/

/-- The access rules of a module are the sums of some rules, class by class. -/
def SumsByClass (m : PolicyModule) (added : List Rule) : Prop :=
  ∀ Q : Actions → Prop, (∀ a b, Q (a.union b) ↔ Q a ∨ Q b) → ∀ className,
    (∃ rule ∈ m.accessRules, rule.className = className ∧ Q rule.actions) ↔
      ∃ rule, .access rule ∈ added ∧ rule.className = className ∧ Q rule.actions

theorem exists_className_iff {Q : Actions → Prop} {rules : List AccessRule} {className : String} :
    (∃ r ∈ rules, r.className = className ∧ Q r.actions) ↔
      ∃ target : AccessTarget, target.className = className ∧
        ∃ r ∈ rules, r.toAccessTarget = target ∧ Q r.actions := by
  constructor
  · rintro ⟨r, hr, hclass, hq⟩
    exact ⟨r.toAccessTarget, hclass, r, hr, rfl, hq⟩
  · rintro ⟨target, hclass, r, hr, rfl, hq⟩
    exact ⟨r, hr, hclass, hq⟩

/-- Merging adds up the actions of a class as it does those of a target. -/
theorem exists_className_insertAccess {Q : Actions → Prop}
    (hQ : ∀ a b, Q (a.union b) ↔ Q a ∨ Q b) {rule : AccessRule} {rules : List AccessRule}
    {className : String} :
    (∃ r ∈ insertAccess rule rules, r.className = className ∧ Q r.actions) ↔
      (rule.className = className ∧ Q rule.actions) ∨
        ∃ r ∈ rules, r.className = className ∧ Q r.actions := by
  rw [exists_className_iff, @exists_className_iff Q rules]
  simp only [exists_mem_insertAccess hQ, and_or_left, exists_or]
  refine or_congr_left ?_
  constructor
  · rintro ⟨target, hclass, rfl, hq⟩
    exact ⟨hclass, hq⟩
  · rintro ⟨hclass, hq⟩
    exact ⟨rule.toAccessTarget, hclass, rfl, hq⟩

theorem sumsByClass_addChecked {permissions : NameSet} {added : List Rule} (rule : Rule)
    (h : m.SumsByClass added) :
    (m.addChecked policy permissions rule).SumsByClass (added ++ [rule]) := by
  intro Q hQ className
  rw [accessRules_addChecked]
  cases rule with
  | access rule =>
    simp only [exists_className_insertAccess hQ, h Q hQ className, List.mem_append,
      List.mem_singleton, Rule.access.injEq, or_and_right, exists_or, exists_eq_left, or_comm]
  | transition rule =>
    simp only [h Q hQ className, List.mem_append, List.mem_singleton, reduceCtorEq, or_false]

/-- A replacement changes neither classes nor actions. -/
theorem exists_className_replaceAccesses {Q : Actions → Prop}
    (hQ : ∀ a b, Q (a.union b) ↔ Q a ∨ Q b) (r : Replacement) {rules kept : List AccessRule}
    {className : String} :
    (∃ rule ∈ rules.foldl (fun kept rule => insertAccess (rule.replace r) kept) kept,
        rule.className = className ∧ Q rule.actions) ↔
      (∃ rule ∈ kept, rule.className = className ∧ Q rule.actions) ∨
        ∃ rule ∈ rules, rule.className = className ∧ Q rule.actions := by
  induction rules generalizing kept with
  | nil => simp
  | cons first rest ih =>
    rw [List.foldl_cons, ih, exists_className_insertAccess hQ]
    show ((first.className = className ∧ Q first.actions) ∨ _) ∨ _ ↔ _
    simp only [List.mem_cons, or_and_right, exists_or, exists_eq_left]
    rw [or_comm (a := first.className = className ∧ Q first.actions), or_assoc]

theorem sumsByClass_rounds {replacements : List Replacement} {added : List Rule}
    (hrounds : Rounds m replacements last) (h : m.SumsByClass added) : last.SumsByClass added := by
  induction hrounds with
  | done m => exact h
  | step hround _ ih =>
    obtain ⟨-, rfl⟩ := hround
    refine ih fun Q hQ className => ?_
    rw [← h Q hQ className]
    exact (exists_className_replaceAccesses hQ _).trans (by simp)

/-- The access rules of a module are the sums of the added rules, class by class: resolutions change
the other parts of a target only. -/
theorem sumsByClass_run {operations : List Operation} (h : m.SumsByClass []) :
    (m.run policy operations).SumsByClass (accepted policy operations) := by
  refine run_induction (P := SumsByClass) (fun operation _ m added hm => ?_) [] h
  obtain ⟨rules, rfl⟩ | rfl | ⟨hnone, hsame⟩ := sameRules_apply policy m operation
  · exact addUpTo_induction (P := SumsByClass)
      (fun _ _ rule _ _ hm => sumsByClass_addChecked rule hm) added hm rules
  · have hnext := sumsByClass_rounds (rounds_resolve m) hm
    rwa [← List.append_nil added] at hnext
  · intro Q hQ className
    rw [hnone, List.append_nil, hsame.accessRules]
    exact hm Q hQ className

theorem contains_classes_run {operations : List Operation} {className : String}
    (hclasses : m.requirements.classes = ∅) (hrules : m.accessRules = []) :
    (m.run policy operations).requirements.classes.contains className = true ↔
      ∃ rule ∈ (m.run policy operations).accessRules, rule.className = className := by
  have hnone : ¬m.Introduces (.objectClass className) := by
    simp [Introduces, hclasses]
  have hsums : (m.run policy operations).SumsByClass (accepted policy operations) :=
    sumsByClass_run fun Q _ className => by simp [hrules]
  have hadded := hsums (fun _ => True) (by simp) className
  simp only [and_true] at hadded
  rw [hadded]
  refine (introduces_class_run_iff rfl hnone).trans ?_
  simp [Reference.mem_ofActions, eq_comm]

theorem relates_classes_run {operations : List Operation} {className permission : String}
    (hclasses : m.requirements.classes = ∅) (hrules : m.accessRules = []) :
    (m.run policy operations).requirements.classes.Relates className permission ↔
      (∃ permissions, policy.permissions? className = some permissions ∧
        permission ∈ permissions) ∧
      ∃ rule ∈ (m.run policy operations).accessRules, rule.className = className ∧
        rule.actions.Covers permission := by
  have hnone : ¬m.Introduces (.permission className permission) := by
    simp [Introduces, hclasses]
  have hsums : (m.run policy operations).SumsByClass (accepted policy operations) :=
    sumsByClass_run fun Q _ className => by simp [hrules]
  -- Merging joins the actions of rules, so the sum over a class is that of the accepted rules.
  rw [hsums _ (fun _ _ => Actions.covers_union) className]
  refine (introduces_class_run_iff rfl hnone).trans ?_
  simp only [Reference.mem_ofActions, reduceCtorEq, false_or, Reference.permission.injEq]
  constructor
  · rintro ⟨rule, hrule, name, hname, hcovers, rfl, rfl⟩
    refine ⟨?_, rule, hrule, rfl, hcovers⟩
    cases hfound : policy.permissions? rule.className with
    | none => simp [hfound] at hname
    | some permissions =>
      rw [hfound] at hname
      exact ⟨permissions, rfl, hname⟩
  · rintro ⟨⟨permissions, hfound, hname⟩, rule, hrule, rfl, hcovers⟩
    refine ⟨rule, hrule, permission, ?_, hcovers, rfl, rfl⟩
    rwa [hfound]

/-- A module requires some permissions of a class, and its source text says so. -/
def RequiresClass (m : PolicyModule) (className : String) (permissions : NameSet) : Prop :=
  m.requirements.classes.find? className = some permissions ∧
    ("\tclass " ++ className ++ " \x7b " ++ " ".intercalate permissions.toList ++ " \x7d;\n") ∈
      requirementLines m.requirements

/-- What is required of a class is written down, if there is any. -/
theorem requiresClass_of_mem {className permission : String} {permissions : NameSet}
    (hfound : m.requirements.classes.find? className = some permissions)
    (hmem : permission ∈ permissions) : m.RequiresClass className permissions := by
  refine ⟨hfound, List.mem_append_right _ (List.mem_map.2 ⟨(className, permissions), ?_, rfl⟩)⟩
  have hentry : (className, permissions) ∈ m.requirements.classes.entries := by
    obtain ⟨before, after, hentries, -⟩ := List.lookup_eq_some_iff.1 hfound
    simp [hentries]
  have hsome : permissions.isEmpty = false := NameSet.isEmpty_eq_false_iff.2 ⟨permission, hmem⟩
  simp [hentry, hsome]

/-- The class of an access rule is required with all actions of the rule, if it has permissions. -/
theorem exists_requiresClass_run {operations : List Operation} (hempty : m.Merged policy)
    (hclasses : m.requirements.classes = ∅) (hrules : m.accessRules = []) {rule : AccessRule}
    (hrule : rule ∈ (m.run policy operations).accessRules) {permissions : NameSet}
    (hfound : policy.permissions? rule.className = some permissions)
    (hsome : permissions.isEmpty = false) :
    ∃ listed, (m.run policy operations).RequiresClass rule.className listed ∧
      listed.isEmpty = false ∧
      ∀ permission ∈ rule.actions.used permissions, permission ∈ listed := by
  have hwithin : rule.actions.Within permissions := by
    obtain ⟨others, hothers, hwithin⟩ := (merged_run operations hempty).kept rule hrule
    obtain rfl : permissions = others := Option.some.inj (hfound.symm.trans hothers)
    exact hwithin
  obtain ⟨listed, hlisted⟩ := Option.isSome_iff_exists.1
    ((contains_classes_run hclasses hrules).2 ⟨rule, hrule, rfl⟩)
  have hused : ∀ permission ∈ rule.actions.used permissions, permission ∈ listed := by
    intro permission hmem
    obtain ⟨hpermission, hcovers⟩ := hwithin.mem_used.1 hmem
    obtain ⟨found, hentry, hmem⟩ := (relates_classes_run hclasses hrules).2
      ⟨⟨permissions, hfound, hpermission⟩, rule, hrule, rfl, hcovers⟩
    obtain rfl : listed = found := Option.some.inj (hlisted.symm.trans hentry)
    exact hmem
  -- A rule names some permission, or it has a star and the class has some.
  obtain ⟨permission, hmem⟩ := hwithin.exists_mem_used (NameSet.isEmpty_eq_false_iff.1 hsome)
  have hlistedMem : permission ∈ listed := hused permission hmem
  exact ⟨listed, requiresClass_of_mem hlisted hlistedMem,
    NameSet.isEmpty_eq_false_iff.2 ⟨permission, hlistedMem⟩, hused⟩

/-- After any history, the required classes are those of the access rules, and what is required of
a class are its permissions that access rules of the class cover.  So the class of an access rule is
required with all actions of the rule, and the source text says so; but a transition rule requires
no class, and its class is required just if there is an access rule of the class. -/
theorem classes_of_history (policy : SystemPolicy) {name version : String} {empty : PolicyModule}
    (hempty : make name version = .ok empty) (operations : List Operation) :
    let m := empty.run policy operations
    (∀ className, m.requirements.classes.contains className = true ↔
      ∃ rule ∈ m.accessRules, rule.className = className) ∧
    (∀ className permission, m.requirements.classes.Relates className permission ↔
      (∃ permissions, policy.permissions? className = some permissions ∧
        permission ∈ permissions) ∧
      ∃ rule ∈ m.accessRules, rule.className = className ∧ rule.actions.Covers permission) ∧
    (∀ rule ∈ m.accessRules, ∀ permissions,
      policy.permissions? rule.className = some permissions → permissions.isEmpty = false →
      ∃ listed, m.RequiresClass rule.className listed ∧ listed.isEmpty = false ∧
        ∀ permission ∈ rule.actions.used permissions, permission ∈ listed) ∧
    (∀ rule ∈ m.transitionRules, ∀ permissions,
      policy.permissions? rule.className = some permissions → permissions.isEmpty = false →
      ((∃ listed, m.RequiresClass rule.className listed) ↔
        ∃ access ∈ m.accessRules, access.className = rule.className)) := by
  obtain rfl := eq_of_make hempty
  intro m
  have hcontains (className : String) : m.requirements.classes.contains className = true ↔
      ∃ rule ∈ m.accessRules, rule.className = className := contains_classes_run rfl rfl
  have haccess : ∀ rule ∈ m.accessRules, ∀ permissions,
      policy.permissions? rule.className = some permissions → permissions.isEmpty = false →
      ∃ listed, m.RequiresClass rule.className listed ∧ listed.isEmpty = false ∧
        ∀ permission ∈ rule.actions.used permissions, permission ∈ listed :=
    fun rule hrule permissions hfound hsome =>
      exists_requiresClass_run (merged_make policy name version) rfl rfl hrule hfound hsome
  refine ⟨hcontains, fun _ _ => relates_classes_run rfl rfl, haccess,
    fun rule _ permissions hfound hsome => ?_⟩
  constructor
  · rintro ⟨listed, hlisted, -⟩
    exact (hcontains rule.className).1 (Option.isSome_iff_exists.2 ⟨listed, hlisted⟩)
  · rintro ⟨access, hmem, hclass⟩
    obtain ⟨listed, hlisted, -, -⟩ := haccess access hmem permissions (hclass ▸ hfound) hsome
    exact ⟨listed, hclass ▸ hlisted⟩

theorem renamedTypes_classes_of_history : ∃ empty, make "demo" "1.0" = .ok empty ∧
    let m := empty.run domainsOnly renamedTypes
    .allow "app_t" "one_t" "file" ["*"] ∈ m.accessRules ∧
    (∃ listed, m.RequiresClass "file" listed ∧ "open" ∈ listed ∧ "read" ∈ listed) ∧
    m.requirements.classes.contains "process" = false := by
  have hempty : make "demo" "1.0" = .ok { name := "demo", version := "1.0" } := by rfl
  obtain ⟨hcontains, -, haccess, -⟩ := classes_of_history domainsOnly hempty renamedTypes
  have hrule : .allow "app_t" "one_t" "file" ["*"] ∈
      (run domainsOnly { name := "demo", version := "1.0" } renamedTypes).accessRules := by
    decide +kernel
  obtain ⟨listed, hlisted, -, hall⟩ := haccess _ hrule (.ofList ["open", "read"])
    (by decide +kernel) (by decide +kernel)
  refine ⟨_, hempty, hrule, ⟨listed, hlisted, hall "open" (by decide +kernel),
    hall "read" (by decide +kernel)⟩, ?_⟩
  rw [Bool.eq_false_iff, Ne, hcontains]
  decide +kernel

/-- A policy that has links. -/
def linksOnly : SystemPolicy where
  classes := .ofList [("lnk_file", .ofList ["read"])]

/-- A transition rule that stands alone introduces its names, and its class is not required. -/
theorem loneTransition_class_not_required : ∃ empty, make "demo" "1.0" = .ok empty ∧
    let rule : TransitionRule := .make "app_t" "etc_t" "lnk_file" "conf_t" none
    let m := empty.run linksOnly [.addRules [.transition rule]]
    rule ∈ m.transitionRules ∧ linksOnly.permissions? "lnk_file" = some (.ofList ["read"]) ∧
    m.requirements.types = .ofList ["app_t", "conf_t", "etc_t"] ∧
    m.requirements.classes.contains "lnk_file" = false ∧
    requirementLines m.requirements =
      ["\ttype app_t;\n", "\ttype conf_t;\n", "\ttype etc_t;\n"] := by
  have hempty : make "demo" "1.0" = .ok { name := "demo", version := "1.0" } := by rfl
  refine ⟨_, hempty, ?_, ?_, ?_, ?_, ?_⟩
  · decide +kernel
  · decide +kernel
  · decide +kernel
  · decide +kernel
  · decide +kernel

end PolicyModule

end TypeEnforcement
