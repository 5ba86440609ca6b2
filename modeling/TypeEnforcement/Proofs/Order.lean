/-
Whether it matters in which order a module is built.

Requiring a type looks at what is defined, and defining a type takes the requirement back, so two
operations may have to do with each other.  But a type is required just if something asked for it
and nothing defined it, and rules with one target are the sum of the rules added for it.  Operations
in another order therefore make the same module, up to the order of its rules, its permissive
domains and its file contexts.

* `PolicyModule.Operation.typesAsked` — the names that an operation asks for as types;
* `PolicyModule.Orderly` — what the requirements and definitions of every module are like.

Main statements:
* `orderly_run` — modules stay orderly;
* `mem_types_run` — which types are required in the end;
* `permuted_histories_agree` — operations in another order.
-/
import TypeEnforcement.Proofs.References

namespace TypeEnforcement

namespace NameMap

/-- Maps to sets with the same keys are equal if they relate the same names. -/
theorem ext_relates {a b : NameMap NameSet} (hcontains : ∀ key, a.contains key = b.contains key)
    (hrelates : ∀ key name, a.Relates key name ↔ b.Relates key name) : a = b := by
  refine ext fun key => ?_
  have hkey := hcontains key
  have hnames := hrelates key
  simp only [contains, Relates] at hkey hnames
  cases ha : a.find? key with
  | none =>
    cases hb : b.find? key with
    | none => rfl
    | some other => simp [ha, hb] at hkey
  | some set =>
    cases hb : b.find? key with
    | none => simp [ha, hb] at hkey
    | some other =>
      have hset : set = other := NameSet.ext fun name => by simpa [ha, hb] using hnames name
      rw [hset]

end NameMap

/-- Actions are equal if both are all actions or neither is, and they cover the same permissions. -/
theorem Actions.ext_covers {a b : Actions} (hall : a = all ↔ b = all)
    (hcovers : ∀ permission, a.Covers permission ↔ b.Covers permission) : a = b := by
  cases a with
  | all => exact (hall.1 rfl).symm
  | only names hstar =>
    cases b with
    | all => exact hall.2 rfl
    | only others hother =>
      obtain rfl : names = others := NameSet.ext hcovers
      rfl

namespace PolicyModule

variable {policy : SystemPolicy} {m next : PolicyModule}

/-! ### Requirements and definitions -/

/-- What the requirements and definitions of a module are like: no type is both required and
defined, and a role is only there with types. -/
structure Orderly (m : PolicyModule) : Prop where
  apart : ∀ name, name ∈ m.requirements.types → m.definitions.types.contains name = false
  inhabited : ∀ role, m.definitions.roles.contains role = true →
    ∃ name, m.definitions.roles.Relates role name

theorem Orderly.of_eq (h : m.Orderly) (htypes : next.requirements.types = m.requirements.types)
    (hdefinitions : next.definitions = m.definitions) : next.Orderly := by
  constructor
  · rw [htypes, hdefinitions]
    exact h.apart
  · rw [hdefinitions]
    exact h.inhabited

theorem orderly_requireType (name : String) (h : m.Orderly) : (m.requireType name).Orderly := by
  unfold requireType
  split
  · exact h
  · rename_i hnew
    refine ⟨fun other hother => ?_, h.inhabited⟩
    rcases NameSet.mem_insert.1 hother with rfl | hother
    · rw [not_or] at hnew
      exact Bool.eq_false_iff.2 hnew.2
    · exact h.apart other hother

theorem orderly_requireAttribute (name : String) (h : m.Orderly) :
    (m.requireAttribute name).Orderly := by
  unfold requireAttribute
  split
  · exact h
  · exact h.of_eq rfl rfl

theorem orderly_requireRole (name : String) (h : m.Orderly) : (m.requireRole name).Orderly := by
  unfold requireRole
  split
  · exact h
  · exact h.of_eq rfl rfl

theorem orderly_requireName (name : String) (h : m.Orderly) :
    (requireName policy m name).Orderly := by
  unfold requireName
  split
  · exact orderly_requireAttribute name h
  · exact orderly_requireType name h

theorem orderly_requireNames (policy : SystemPolicy) (names : List String) (h : m.Orderly) :
    (names.foldl (requireName policy) m).Orderly := by
  induction names generalizing m with
  | nil => exact h
  | cons name rest ih => exact ih (orderly_requireName name h)

theorem orderly_addChecked {permissions : NameSet} (rule : Rule) (h : m.Orderly) :
    (m.addChecked policy permissions rule).Orderly := by
  cases rule with
  | access rule =>
    have hclass : (m.requireClass rule.className rule.actions permissions).Orderly :=
      h.of_eq rfl rfl
    have hnames := orderly_requireNames policy rule.names hclass
    exact hnames.of_eq rfl rfl
  | transition rule =>
    have hnames := orderly_requireNames policy rule.names h
    exact hnames.of_eq rfl rfl

/-- Defining a type takes the requirement back. -/
theorem orderly_of_alter {name : String} {f : Option NameSet → NameSet} (h : m.Orderly) :
    Orderly { m with
      definitions.types := m.definitions.types.alter name f
      requirements.types := m.requirements.types.erase name } := by
  refine ⟨fun other hother => ?_, h.inhabited⟩
  obtain ⟨hother, hne⟩ := NameSet.mem_erase.1 hother
  rw [Bool.eq_false_iff, Ne, NameMap.contains_alter, not_or]
  exact ⟨hne, Bool.eq_false_iff.1 (h.apart other hother)⟩

theorem orderly_defineType (name : String) (h : m.Orderly) : (m.defineType name).Orderly := by
  unfold defineType
  split
  · exact h
  · exact orderly_of_alter h

theorem orderly_defineTypeWith (name attr : String) (h : m.Orderly) :
    (m.defineTypeWith name attr).Orderly := by
  unfold defineTypeWith
  split
  · exact h
  · exact orderly_of_alter (orderly_requireAttribute attr h)

theorem orderly_defineRoleType (role name : String) (h : m.Orderly) :
    (m.defineRoleType role name).Orderly := by
  unfold defineRoleType
  split
  · exact h
  · have hrequired := orderly_requireRole role h
    generalize m.requireRole role = m at hrequired
    refine ⟨hrequired.apart, fun other hother => ?_⟩
    have hrelates (typeName : String) :
        (m.definitions.roles.alter role fun old => (old.getD ∅).insert name).Relates other
          typeName ↔ m.definitions.roles.Relates other typeName ∨ other = role ∧ typeName = name :=
      NameMap.relates_alter (· = name) (by simp [or_comm])
    -- The role has the new type, or it was there before.
    rcases NameMap.contains_alter.1 hother with rfl | hother
    · exact ⟨name, (hrelates name).2 (.inr ⟨rfl, rfl⟩)⟩
    · obtain ⟨typeName, hold⟩ := hrequired.inhabited other hother
      exact ⟨typeName, (hrelates typeName).2 (.inl hold)⟩

theorem orderly_addPermissive (domain : String) (h : m.Orderly) :
    (m.addPermissive domain).Orderly := by
  have hrequired := orderly_requireType domain h
  unfold addPermissive
  dsimp only
  split
  · exact hrequired
  · exact hrequired.of_eq rfl rfl

theorem orderly_apply (operation : Operation) (h : m.Orderly) :
    (m.apply policy operation).Orderly := by
  cases operation with
  | addRules rules =>
    exact addUpTo_induction (P := fun m _ => m.Orderly)
      (fun _ _ rule _ _ hm => orderly_addChecked rule hm) [] h rules
  | requireType name => exact orderly_requireType name h
  | requireAttribute name => exact orderly_requireAttribute name h
  | requireRole name => exact orderly_requireRole name h
  | defineType name => exact orderly_defineType name h
  | defineTypeWith name attr => exact orderly_defineTypeWith name attr h
  | defineRoleType role name => exact orderly_defineRoleType role name h
  | addPermissive domain => exact orderly_addPermissive domain h
  | addFileContext entry => exact h.of_eq rfl rfl
  | resolve =>
    obtain ⟨hrequirements, hdefinitions, -⟩ := requirements_rounds (rounds_resolve m)
    exact h.of_eq (congrArg Requirements.types hrequirements) hdefinitions

/-- Whatever happens to a module, it stays orderly. -/
theorem orderly_run (operations : List Operation) (h : m.Orderly) :
    (m.run policy operations).Orderly :=
  run_induction (P := fun m _ => m.Orderly) (fun operation _ _ _ hm => orderly_apply operation hm)
    [] h

/-! ### Required types -/

/-- The names that an operation asks for as types: those of its rules that are no attributes of the
policy, and those that it requires. -/
def Operation.typesAsked (policy : SystemPolicy) : Operation → List String
  | .addRules rules => ((acceptedAmong policy rules).flatMap Rule.names).filter fun name =>
      !policy.definesAttribute name
  | .requireType name | .addPermissive name => [name]
  | _ => []

/-- An operation refers to the types that it asks for and to those that it defines. -/
theorem Operation.type_mem_references_iff {name : String} (operation : Operation) :
    .type name ∈ operation.references policy ↔
      (name ≠ "" ∧ name ∈ operation.typesAsked policy) ∨
        .type name ∈ (operation.content policy).declarations := by
  cases operation with
  | addRules rules =>
    simp only [references, typesAsked, content, List.mem_flatMap, List.mem_filter,
      Rule.type_mem_references_iff, List.not_mem_nil, or_false, Bool.not_eq_eq_eq_not,
      Bool.not_true]
    constructor
    · rintro ⟨rule, hrule, hne, hname, hdefines⟩
      exact ⟨hne, ⟨rule, hrule, hname⟩, hdefines⟩
    · rintro ⟨hne, ⟨rule, hrule, hname⟩, hdefines⟩
      exact ⟨rule, hrule, hne, hname, hdefines⟩
  | requireType other | addPermissive other =>
    simp only [references, typesAsked, content, Reference.mem_named, Reference.type.injEq,
      List.mem_singleton, List.not_mem_nil, reduceCtorEq, or_false]
    constructor
    · rintro ⟨hne, rfl⟩
      exact ⟨hne, rfl⟩
    · rintro ⟨hne, rfl⟩
      exact ⟨hne, rfl⟩
  | defineType other =>
    by_cases hother : other = ""
    · simp [references, typesAsked, content, Reference.named, Declaration.ofType, hother]
    · simp [references, typesAsked, content, Reference.named, Declaration.ofType, hother]
  | defineTypeWith other attr =>
    by_cases hother : other = ""
    · simp [references, typesAsked, content, Reference.ofMembership, Declaration.ofType, hother]
    · by_cases hattr : attr = ""
      · simp [references, typesAsked, content, Reference.ofMembership, hattr]
      · simp [references, typesAsked, content, Reference.ofMembership, Declaration.ofType, hother,
          hattr]
  | defineRoleType role other =>
    by_cases hnone : role = "" ∨ other = ""
    · simp [references, typesAsked, content, Reference.ofRoleType, Declaration.ofRole, hnone]
    · simp [references, typesAsked, content, Reference.ofRoleType, Declaration.ofRole, hnone]
  | requireAttribute _ | requireRole _ =>
    simp [references, typesAsked, content, Reference.mem_named]
  | addFileContext _ | resolve => simp [references, typesAsked, content]

/-- What a module declares that began without content. -/
theorem declares_run_iff {name version : String} {operations : List Operation}
    (hresolve : .resolve ∉ operations) (d : Declaration) :
    (run policy { name, version } operations).Declares d ↔
      ∃ operation ∈ operations, d ∈ (operation.content policy).declarations := by
  rw [(adds_run policy hresolve _).declares d, or_iff_right (not_declares_make name version d)]
  exact List.mem_flatMap

theorem orderly_make (name version : String) : Orderly { name, version } :=
  ⟨by simp, by simp⟩

/-- The required types are those that are introduced and not defined. -/
theorem Orderly.mem_types_iff (h : m.Orderly) (name : String) :
    name ∈ m.requirements.types ↔
      m.Introduces (.type name) ∧ m.definitions.types.contains name = false := by
  constructor
  · exact fun hname => ⟨.inl hname, h.apart name hname⟩
  · rintro ⟨hname | hname, hnew⟩
    · exact hname
    · rw [hnew] at hname
      cases hname

/-- A type is required in the end just if something asked for it and nothing defined it. -/
theorem mem_types_run {name version : String} {operations : List Operation}
    (hresolve : .resolve ∉ operations) (typeName : String) :
    let m := run policy { name, version } operations
    typeName ∈ m.requirements.types ↔
      typeName ≠ "" ∧ (∃ operation ∈ operations, typeName ∈ operation.typesAsked policy) ∧
        m.definitions.types.contains typeName = false := by
  intro m
  have horderly : m.Orderly := orderly_run operations (orderly_make name version)
  have hdefined : m.definitions.types.contains typeName = true ↔ _ :=
    declares_run_iff hresolve (.type typeName)
  rw [horderly.mem_types_iff, introduces_run_iff (not_introduces_make name version _)]
  simp only [Operation.type_mem_references_iff]
  constructor
  · -- A definition refers to its type as well, but then the type is defined.
    rintro ⟨⟨operation, hoperation, hasked | hdefines⟩, hnew⟩
    · exact ⟨hasked.1, ⟨operation, hoperation, hasked.2⟩, hnew⟩
    · rw [hdefined.2 ⟨operation, hoperation, hdefines⟩] at hnew
      cases hnew
  · rintro ⟨hne, ⟨operation, hoperation, hasked⟩, hnew⟩
    exact ⟨⟨operation, hoperation, .inl ⟨hne, hasked⟩⟩, hnew⟩

/-! ### Modules that agree -/

theorem Orderly.contains_roles_iff (h : m.Orderly) (role : String) :
    m.definitions.roles.contains role = true ↔ ∃ name, m.definitions.roles.Relates role name := by
  constructor
  · exact h.inhabited role
  · rintro ⟨name, set, hset, -⟩
    exact Option.isSome_iff_exists.2 ⟨set, hset⟩

/-- Orderly modules that declare the same have the same definitions. -/
theorem Orderly.definitions_eq (hm : m.Orderly) (hnext : next.Orderly)
    (h : ∀ d, m.Declares d ↔ next.Declares d) : m.definitions = next.definitions := by
  have htypes : m.definitions.types = next.definitions.types :=
    NameMap.ext_relates (fun name => Bool.eq_iff_iff.2 (h (.type name)))
      fun name attr => h (.membership name attr)
  have hroles : m.definitions.roles = next.definitions.roles := by
    refine NameMap.ext_relates (fun role => ?_) fun role name => h (.role role name)
    rw [Bool.eq_iff_iff, hm.contains_roles_iff, hnext.contains_roles_iff]
    exact exists_congr fun name => h (.role role name)
  generalize m.definitions = a, next.definitions = b at htypes hroles
  cases a
  cases b
  cases htypes
  cases hroles
  rfl

/-- Orderly modules that introduce the same and define the same types require the same. -/
theorem Orderly.requirements_eq (hm : m.Orderly) (hnext : next.Orderly)
    (h : ∀ reference, m.Introduces reference ↔ next.Introduces reference)
    (hdefinitions : m.definitions = next.definitions) : m.requirements = next.requirements := by
  have htypes : m.requirements.types = next.requirements.types := by
    refine NameSet.ext fun name => ?_
    rw [hm.mem_types_iff, hnext.mem_types_iff, h, hdefinitions]
  have hroles : m.requirements.roles = next.requirements.roles :=
    NameSet.ext fun name => h (.role name)
  have hattributes : m.requirements.attributes = next.requirements.attributes :=
    NameSet.ext fun name => h (.attr name)
  have hclasses : m.requirements.classes = next.requirements.classes :=
    NameMap.ext_relates (fun className => Bool.eq_iff_iff.2 (h (.objectClass className)))
      fun className name => h (.permission className name)
  generalize m.requirements = a, next.requirements = b at htypes hroles hattributes hclasses
  cases a
  cases b
  cases htypes
  cases hroles
  cases hattributes
  cases hclasses
  rfl

theorem Sums.of_mem_iff {added others : List Rule} (h : m.Sums added)
    (hmem : ∀ rule, rule ∈ added ↔ rule ∈ others) : m.Sums others := by
  intro Q hQ target
  rw [h Q hQ target]
  simp only [hmem]

/-- The access rules of a module are settled by the rules that they are the sums of. -/
theorem Sums.mem_accessRules {added : List Rule} (hm : m.Sums added) (hnext : next.Sums added)
    (hmerged : m.Merged policy) (hnextMerged : next.Merged policy) {rule : AccessRule}
    (hrule : rule ∈ m.accessRules) : rule ∈ next.accessRules := by
  -- The other module has a rule with the same target, as something was added for it.
  obtain ⟨other, hother, htarget, -⟩ := (hnext (fun _ => True) (by simp) rule.toAccessTarget).2
    ((hm (fun _ => True) (by simp) rule.toAccessTarget).1 ⟨rule, hrule, rfl, trivial⟩)
  have hiff {Q : Actions → Prop} (hQ : ∀ a b, Q (a.union b) ↔ Q a ∨ Q b) :
      Q rule.actions ↔ Q other.actions := by
    rw [hm.actions_iff hmerged.targets hQ hrule, hnext.actions_iff hnextMerged.targets hQ hother,
      htarget]
  have hall : rule.actions = .all ↔ other.actions = .all :=
    hiff (Q := (· = .all)) fun _ _ => Actions.union_eq_all_iff
  have hequal : rule.actions = other.actions :=
    Actions.ext_covers hall fun permission => hiff fun _ _ => Actions.covers_union
  have heq : rule = other := by
    cases rule
    cases other
    cases htarget
    cases hequal
    rfl
  exact heq ▸ hother

/-! ### Histories in another order -/

/-- What some operations have in common does not depend on their order. -/
theorem exists_mem_iff_of_perm {first second : List Operation} (hperm : first.Perm second)
    {P : Operation → Prop} :
    (∃ operation ∈ first, P operation) ↔ ∃ operation ∈ second, P operation :=
  exists_congr fun _ => and_congr_left' hperm.mem_iff

/-- Operations other than resolutions, in whatever order, make the same module: the same
requirements and definitions, and the same transition rules, access rules, permissive domains and
file contexts in another order.  The types that it requires are the names that were asked for as
types and that it does not define. -/
theorem permuted_histories_agree (policy : SystemPolicy) {name version : String}
    {empty : PolicyModule} (hempty : make name version = .ok empty) {first second : List Operation}
    (hperm : first.Perm second) (hresolve : .resolve ∉ first) :
    let a := empty.run policy first
    let b := empty.run policy second
    a.requirements = b.requirements ∧
    a.definitions = b.definitions ∧
    (∀ domain, domain ∈ a.permissive ↔ domain ∈ b.permissive) ∧
    (∀ rule, rule ∈ a.transitionRules ↔ rule ∈ b.transitionRules) ∧
    (∀ rule, rule ∈ a.accessRules ↔ rule ∈ b.accessRules) ∧
    a.fileContexts.Perm b.fileContexts ∧
    ∀ typeName, typeName ∈ a.requirements.types ↔
      typeName ≠ "" ∧ (∃ operation ∈ first, typeName ∈ operation.typesAsked policy) ∧
        a.definitions.types.contains typeName = false := by
  obtain rfl := eq_of_make hempty
  intro a b
  have hresolve' : .resolve ∉ second := fun hmem => hresolve (hperm.mem_iff.2 hmem)
  have hdeclares (d : Declaration) : a.Declares d ↔ b.Declares d := by
    rw [declares_run_iff hresolve, declares_run_iff hresolve', exists_mem_iff_of_perm hperm]
  have hintroduces (reference : Reference) : a.Introduces reference ↔ b.Introduces reference := by
    have hnone := not_introduces_make name version reference
    rw [introduces_run_iff hnone, introduces_run_iff hnone, exists_mem_iff_of_perm hperm]
  have horderly : a.Orderly := orderly_run first (orderly_make name version)
  have horderly' : b.Orderly := orderly_run second (orderly_make name version)
  have hdefinitions : a.definitions = b.definitions := horderly.definitions_eq horderly' hdeclares
  have hrequirements : a.requirements = b.requirements :=
    horderly.requirements_eq horderly' hintroduces hdefinitions
  have hadds := adds_run policy hresolve { name, version }
  have hadds' := adds_run policy hresolve' { name, version }
  have htransitions (rule : TransitionRule) :
      rule ∈ a.transitionRules ↔ rule ∈ b.transitionRules := by
    rw [hadds.transitions, hadds'.transitions]
    exact or_congr_right (hperm.flatMap_right _).mem_iff
  have hfileContexts : a.fileContexts.Perm b.fileContexts := by
    rw [hadds.fileContexts, hadds'.fileContexts]
    exact (hperm.flatMap_right _).append_left _
  -- The rules that are added are the same, and the access rules are their sums.
  have hmerged : a.Merged policy := merged_run first (merged_make policy name version)
  have hmerged' : b.Merged policy := merged_run second (merged_make policy name version)
  have hsums : a.Sums (accepted policy first) := sums_run hresolve fun _ _ _ => by simp
  have hsums' : b.Sums (accepted policy first) :=
    (sums_run hresolve' fun _ _ _ => by simp).of_mem_iff fun rule =>
      (hperm.flatMap_right _).mem_iff.symm
  refine ⟨hrequirements, hdefinitions, fun domain => hdeclares (.permissive domain), htransitions,
    fun rule => ⟨?_, ?_⟩, hfileContexts, mem_types_run hresolve⟩
  · exact hsums.mem_accessRules hsums' hmerged hmerged'
  · exact hsums'.mem_accessRules hsums hmerged' hmerged

/-- Types that are asked for before and after they are defined, and rules with one target. -/
def definedBetween : List Operation := [
  .requireType "app_t", .addRules [.access (.allow "app_t" "log_t" "file" ["read"])],
  .defineTypeWith "app_t" "domain", .defineRoleType "system_r" "app_t",
  .addRules [.access (.allow "app_t" "log_t" "file" ["open"]),
    .transition (.make "app_t" "var_t" "file" "log_t" none)], .addPermissive "app_t"]

theorem definedBetween_permuted_histories_agree : ∃ empty, make "demo" "1.0" = .ok empty ∧
    definedBetween.Perm definedBetween.reverse ∧ .resolve ∉ definedBetween ∧
    let a := empty.run filesOnly definedBetween
    let b := empty.run filesOnly definedBetween.reverse
    a.requirements = b.requirements ∧ a.definitions = b.definitions ∧
    "app_t" ∉ b.requirements.types ∧ "log_t" ∈ b.requirements.types ∧
    .allow "app_t" "log_t" "file" ["open", "read"] ∈ b.accessRules := by
  have hempty : make "demo" "1.0" = .ok { name := "demo", version := "1.0" } := by rfl
  have hperm : definedBetween.Perm definedBetween.reverse := (List.reverse_perm _).symm
  have hresolve : .resolve ∉ definedBetween := by simp [definedBetween]
  obtain ⟨hrequirements, hdefinitions, -, -, haccess, -, htypes⟩ :=
    permuted_histories_agree filesOnly hempty hperm hresolve
  have hdefined : (run filesOnly { name := "demo", version := "1.0" }
      definedBetween).definitions.types = .ofList [("app_t", .ofList ["domain"])] := by
    decide +kernel
  have hmerged : .allow "app_t" "log_t" "file" ["open", "read"] ∈
      (run filesOnly { name := "demo", version := "1.0" } definedBetween).accessRules := by
    decide +kernel
  refine ⟨_, hempty, hperm, hresolve, hrequirements, hdefinitions, ?_, ?_, (haccess _).1 hmerged⟩
  · rw [← hrequirements, htypes, hdefined]
    decide +kernel
  · rw [← hrequirements, htypes, hdefined]
    refine ⟨by decide, ⟨_, .tail _ (.head _), ?_⟩, by decide +kernel⟩
    decide +kernel

end PolicyModule

end TypeEnforcement
