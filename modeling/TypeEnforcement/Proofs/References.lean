/-
What a module refers to.

The source text of a module introduces every name before its rules use it: types are defined or
required, attributes, roles and classes are required, and a class comes with the permissions that
are used of it.  Each operation introduces some names, and none takes a name back: a type that is
no longer required has been defined.

* `Reference` — a name with what it stands for;
* `PolicyModule.Introduces` — whether a module defines or requires what a reference is to;
* `Rule.references`, `PolicyModule.Operation.references` — what rules and operations refer to;
* `PolicyModule.Brings` — a step that introduces some references and no others.

Main statements:
* `brings_addChecked` — a rule introduces its names, and its class with the permissions it covers;
* `brings_apply` — what each operation introduces;
* `brings_run`, `introduces_run_iff`, `introduces_class_run_iff` — what a history introduces, and
  what it introduces of classes.
-/
import TypeEnforcement.Proofs.Content
import TypeEnforcement.Proofs.Merging

namespace TypeEnforcement

/-- A name with what it stands for. -/
inductive Reference where
  | type (name : String)
  | attr (name : String)
  | role (name : String)
  | objectClass (name : String)
  | permission (className name : String)

namespace Reference

/-- A reference by a name; nothing is referred to by the empty name. -/
def named (name : String) (reference : Reference) : List Reference :=
  if name = "" then [] else [reference]

/-- The references of a type that has an attribute. -/
def ofMembership (name attr : String) : List Reference :=
  if name = "" ∨ attr = "" then [] else [.attr attr, type name]

/-- The reference to the role that a type is associated with. -/
def ofRoleType (roleName name : String) : List Reference :=
  if roleName = "" ∨ name = "" then [] else [role roleName]

/-- The reference to an attribute or a type, as the policy has the name. -/
def ofName (policy : SystemPolicy) (name : String) : List Reference :=
  named name (if policy.definesAttribute name then attr name else type name)

/-- The references to a class and to those of its permissions that actions cover. -/
def ofActions (policy : SystemPolicy) (className : String) (actions : Actions) : List Reference :=
  objectClass className ::
    (((policy.permissions? className).getD ∅).toList.filter fun name =>
      actions.Covers name).map (permission className)

theorem mem_ofActions {policy : SystemPolicy} {reference : Reference} {className : String}
    {actions : Actions} : reference ∈ ofActions policy className actions ↔
      reference = .objectClass className ∨
        ∃ name, name ∈ (policy.permissions? className).getD ∅ ∧ actions.Covers name ∧
          reference = .permission className name := by
  have heq (name : String) : permission className name = reference ↔
      reference = .permission className name := eq_comm
  simp only [ofActions, List.mem_cons, List.mem_map, List.mem_filter, NameSet.mem_toList,
    decide_eq_true_eq, and_assoc, heq]

theorem mem_named {reference other : Reference} {name : String} :
    reference ∈ named name other ↔ name ≠ "" ∧ reference = other := by
  unfold named
  split
  · rename_i h
    simp [h]
  · rename_i h
    simp [h]

/-- The class that a reference is to, or to a permission of. -/
def className? : Reference → Option String
  | objectClass name => some name
  | permission className _ => some className
  | _ => none

/-- Names stand for no classes. -/
theorem className?_of_mem_named {name : String} {reference other : Reference}
    (h : other ∈ named name reference) : other.className? = reference.className? := by
  rw [(mem_named.1 h).2]

theorem className?_of_mem_ofName {policy : SystemPolicy} {name : String} {reference : Reference}
    (h : reference ∈ ofName policy name) : reference.className? = none := by
  rw [className?_of_mem_named h]
  split
  · rfl
  · rfl

theorem type_mem_ofName_iff {policy : SystemPolicy} {name other : String} :
    type name ∈ ofName policy other ↔
      name ≠ "" ∧ name = other ∧ policy.definesAttribute other = false := by
  rw [ofName, mem_named]
  cases hdefines : policy.definesAttribute other with
  | true => simp
  | false =>
    simp only [Bool.false_eq_true, if_false, type.injEq, and_true]
    exact and_congr_left fun heq => heq ▸ Iff.rfl

theorem attr_mem_ofName_iff {policy : SystemPolicy} {name other : String} :
    attr name ∈ ofName policy other ↔
      name ≠ "" ∧ name = other ∧ policy.definesAttribute other = true := by
  rw [ofName, mem_named]
  cases hdefines : policy.definesAttribute other with
  | true =>
    simp only [if_true, attr.injEq, and_true]
    exact and_congr_left fun heq => heq ▸ Iff.rfl
  | false => simp

end Reference

/-- The names that occur in an access rule. -/
def AccessRule.names (rule : AccessRule) : List String :=
  [rule.subject, rule.object]

/-- The names that occur in a rule. -/
def Rule.names : Rule → List String
  | .access rule => rule.names
  | .transition rule => rule.names

/-- What a rule refers to.  A transition rule refers to its names only, and not to its class. -/
def Rule.references (policy : SystemPolicy) : Rule → List Reference
  | .access rule => Reference.ofActions policy rule.className rule.actions ++
      rule.names.flatMap (Reference.ofName policy)
  | .transition rule => rule.names.flatMap (Reference.ofName policy)

theorem Rule.mem_references_of_name {policy : SystemPolicy} {rule : Rule} {name : String}
    {reference : Reference} (hname : name ∈ rule.names)
    (h : reference ∈ Reference.ofName policy name) : reference ∈ rule.references policy := by
  have hnames : reference ∈ rule.names.flatMap (Reference.ofName policy) :=
    List.mem_flatMap.2 ⟨name, hname, h⟩
  cases rule with
  | access rule => exact List.mem_append_right _ hnames
  | transition rule => exact hnames

/-- Anything else than a class or a permission is referred to by a name. -/
theorem Rule.mem_references_of_className_eq_none {policy : SystemPolicy} {rule : Rule}
    {reference : Reference} (hclass : reference.className? = none) :
    reference ∈ rule.references policy ↔
      ∃ name ∈ rule.names, reference ∈ Reference.ofName policy name := by
  constructor
  · intro h
    cases rule with
    | access rule =>
      rcases List.mem_append.1 h with hactions | hnames
      · obtain rfl | ⟨_, -, -, rfl⟩ := Reference.mem_ofActions.1 hactions <;> cases hclass
      · exact List.mem_flatMap.1 hnames
    | transition rule => exact List.mem_flatMap.1 h
  · rintro ⟨name, hname, hmem⟩
    exact mem_references_of_name hname hmem

theorem Rule.type_mem_references_iff {policy : SystemPolicy} {name : String} {rule : Rule} :
    .type name ∈ rule.references policy ↔
      name ≠ "" ∧ name ∈ rule.names ∧ policy.definesAttribute name = false := by
  rw [mem_references_of_className_eq_none rfl]
  constructor
  · rintro ⟨other, hother, hmem⟩
    obtain ⟨hne, rfl, hdefines⟩ := Reference.type_mem_ofName_iff.1 hmem
    exact ⟨hne, hother, hdefines⟩
  · rintro ⟨hne, hname, hdefines⟩
    exact ⟨name, hname, Reference.type_mem_ofName_iff.2 ⟨hne, rfl, hdefines⟩⟩

theorem Rule.attr_mem_references_iff {policy : SystemPolicy} {name : String} {rule : Rule} :
    .attr name ∈ rule.references policy ↔
      name ≠ "" ∧ name ∈ rule.names ∧ policy.definesAttribute name = true := by
  rw [mem_references_of_className_eq_none rfl]
  constructor
  · rintro ⟨other, hother, hmem⟩
    obtain ⟨hne, rfl, hdefines⟩ := Reference.attr_mem_ofName_iff.1 hmem
    exact ⟨hne, hother, hdefines⟩
  · rintro ⟨hne, hname, hdefines⟩
    exact ⟨name, hname, Reference.attr_mem_ofName_iff.2 ⟨hne, rfl, hdefines⟩⟩

/-- Access rules are what refers to classes. -/
theorem Rule.mem_references_of_className {policy : SystemPolicy} {rule : Rule}
    {reference : Reference} {className : String} (hclass : reference.className? = some className) :
    reference ∈ rule.references policy ↔
      ∃ r, rule = .access r ∧ reference ∈ Reference.ofActions policy r.className r.actions := by
  have hnames (names : List String) : reference ∉ names.flatMap (Reference.ofName policy) := by
    intro hmem
    obtain ⟨name, -, hname⟩ := List.mem_flatMap.1 hmem
    rw [Reference.className?_of_mem_ofName hname] at hclass
    cases hclass
  cases rule with
  | access rule => simp [references, hnames]
  | transition rule => simp [references, hnames]

namespace Actions

/-- The permissions that actions are, in a class with the given permissions. -/
def used (permissions : NameSet) : Actions → NameSet
  | all => permissions
  | only names _ => names

theorem Within.mem_used {permissions : NameSet} {actions : Actions} (h : actions.Within permissions)
    {name : String} :
    name ∈ actions.used permissions ↔ name ∈ permissions ∧ actions.Covers name := by
  cases actions with
  | all => simp [used, Covers]
  | only names hstar =>
    -- The names are permissions of the class.
    exact ⟨fun hname => ⟨h.2 name hname, hname⟩, fun hname => hname.2⟩

theorem Within.exists_mem_used {permissions : NameSet} {actions : Actions}
    (h : actions.Within permissions) (hsome : ∃ name, name ∈ permissions) :
    ∃ name, name ∈ actions.used permissions := by
  cases actions with
  | all => exact hsome
  | only names hstar => exact h.1

end Actions

namespace PolicyModule

/-- What an operation refers to.  A type that is associated with a role is not among it. -/
def Operation.references (policy : SystemPolicy) : Operation → List Reference
  | .addRules rules => (acceptedAmong policy rules).flatMap (Rule.references policy)
  | .requireType name | .defineType name | .addPermissive name => Reference.named name (.type name)
  | .requireAttribute name => Reference.named name (.attr name)
  | .requireRole name => Reference.named name (.role name)
  | .defineTypeWith name attr => Reference.ofMembership name attr
  | .defineRoleType role name => Reference.ofRoleType role name
  | .addFileContext _ | .resolve => []

/-- Whether a module defines or requires what a reference is to. -/
def Introduces (m : PolicyModule) : Reference → Prop
  | .type name => name ∈ m.requirements.types ∨ m.definitions.types.contains name = true
  | .attr name => name ∈ m.requirements.attributes
  | .role name => name ∈ m.requirements.roles
  | .objectClass name => m.requirements.classes.contains name = true
  | .permission className name => m.requirements.classes.Relates className name

/-- The step from `m` to `next` introduces some references and no others. -/
def Brings (m : PolicyModule) (references : List Reference) (next : PolicyModule) : Prop :=
  ∀ reference, next.Introduces reference ↔ m.Introduces reference ∨ reference ∈ references

variable {policy : SystemPolicy} {m next last : PolicyModule}

theorem Brings.refl (m : PolicyModule) : m.Brings [] m := by
  intro reference
  simp

theorem Brings.trans {a b : List Reference} (h : m.Brings a next) (hs : next.Brings b last) :
    m.Brings (a ++ b) last := by
  intro reference
  rw [hs reference, h reference, List.mem_append, or_assoc]

/-- Only what a module requires and which types it defines decides what it introduces. -/
theorem Brings.of_eq {a : List Reference} (h : m.Brings a next)
    (hrequirements : last.requirements = next.requirements)
    (htypes : last.definitions.types = next.definitions.types) : m.Brings a last := by
  intro reference
  rw [← h reference]
  cases reference <;> simp only [Introduces, hrequirements, htypes]

theorem brings_foldl {α : Type} {step : PolicyModule → α → PolicyModule}
    {references : α → List Reference}
    (hstep : ∀ (m : PolicyModule) (item : α), m.Brings (references item) (step m item))
    (items : List α) (m : PolicyModule) :
    m.Brings (items.flatMap references) (items.foldl step m) := by
  induction items generalizing m with
  | nil => exact .refl m
  | cons item rest ih => exact (hstep m item).trans (ih (step m item))

/-! ### Required names -/

theorem brings_requireType (m : PolicyModule) (name : String) :
    m.Brings (Reference.named name (.type name)) (m.requireType name) := by
  intro reference
  rw [Reference.mem_named, requireType]
  split
  · rename_i h
    -- The name is empty, or the type is introduced by its definition.
    refine (or_iff_left_of_imp ?_).symm
    rintro ⟨hname, rfl⟩
    exact .inr (h.resolve_left hname)
  · rename_i h
    have hname : name ≠ "" := fun heq => h (.inl heq)
    cases reference <;> simp [Introduces, hname, or_comm, or_assoc]

theorem brings_requireAttribute (m : PolicyModule) (name : String) :
    m.Brings (Reference.named name (.attr name)) (m.requireAttribute name) := by
  intro reference
  rw [Reference.mem_named, requireAttribute]
  split
  · rename_i hname
    simp [hname]
  · rename_i hname
    cases reference <;> simp [Introduces, hname, or_comm]

theorem brings_requireRole (m : PolicyModule) (name : String) :
    m.Brings (Reference.named name (.role name)) (m.requireRole name) := by
  intro reference
  rw [Reference.mem_named, requireRole]
  split
  · rename_i hname
    simp [hname]
  · rename_i hname
    cases reference <;> simp [Introduces, hname, or_comm]

theorem brings_requireName (policy : SystemPolicy) (m : PolicyModule) (name : String) :
    m.Brings (Reference.ofName policy name) (requireName policy m name) := by
  unfold requireName Reference.ofName
  split
  · exact brings_requireAttribute m name
  · exact brings_requireType m name

/-! ### Rules -/

theorem requireClass_eq (m : PolicyModule) (className : String) (actions : Actions)
    (permissions : NameSet) : m.requireClass className actions permissions =
      { m with requirements.classes := m.requirements.classes.alter className fun old =>
          (old.getD ∅).union (actions.used permissions) } := by
  cases actions <;> rfl

/-- An access rule that keeps to the policy introduces its class with what it covers of it. -/
theorem brings_requireClass {rule : AccessRule} {permissions : NameSet}
    (hcheck : (Rule.access rule).check policy = .ok permissions) (m : PolicyModule) :
    m.Brings (Reference.ofActions policy rule.className rule.actions)
      (m.requireClass rule.className rule.actions permissions) := by
  have hfound : policy.permissions? rule.className = some permissions :=
    permissions?_of_check hcheck
  have hwithin : rule.actions.Within permissions := by
    obtain ⟨others, hothers, hwithin⟩ := keepsTo_of_check hcheck
    obtain rfl : permissions = others := Option.some.inj (hfound.symm.trans hothers)
    exact hwithin
  intro reference
  rw [Reference.mem_ofActions, hfound, Option.getD_some, requireClass_eq]
  cases reference with
  | objectClass name => simp [Introduces, or_comm]
  | permission className name =>
    simp only [Introduces]
    rw [NameMap.relates_alter (fun name => name ∈ permissions ∧ rule.actions.Covers name)
      fun old => by rw [NameSet.mem_union, hwithin.mem_used]]
    simp [and_left_comm, eq_comm]
  | _ => simp [Introduces]

theorem brings_addChecked {rule : Rule} {permissions : NameSet}
    (hcheck : rule.check policy = .ok permissions) (m : PolicyModule) :
    m.Brings (rule.references policy) (m.addChecked policy permissions rule) := by
  cases rule with
  | access rule =>
    have hnames := brings_foldl (brings_requireName policy) rule.names
      (m.requireClass rule.className rule.actions permissions)
    exact ((brings_requireClass hcheck m).trans hnames).of_eq rfl rfl
  | transition rule =>
    have hnames := brings_foldl (brings_requireName policy) rule.names m
    exact hnames.of_eq rfl rfl

theorem brings_addUpTo (m : PolicyModule) (rules : List Rule) :
    m.Brings ((acceptedAmong policy rules).flatMap (Rule.references policy))
      (m.addUpTo policy rules).1 := by
  refine addUpTo_induction
    (P := fun next added => m.Brings (added.flatMap (Rule.references policy)) next)
    (fun next added rule permissions hcheck h => ?_) [] (.refl m) rules
  have hrule := h.trans (brings_addChecked hcheck next)
  simpa using hrule

/-! ### Definitions -/

theorem brings_defineType (m : PolicyModule) (name : String) :
    m.Brings (Reference.named name (.type name)) (m.defineType name) := by
  intro reference
  rw [Reference.mem_named, defineType]
  split
  · rename_i hname
    simp [hname]
  · rename_i hname
    cases reference with
    | type other =>
      -- The type leaves the requirements and joins the definitions.
      by_cases hother : other = name
      · simp [Introduces, hother, hname]
      · simp [Introduces, hother]
    | _ => simp [Introduces]

theorem brings_defineTypeWith (m : PolicyModule) (name attr : String) :
    m.Brings (Reference.ofMembership name attr) (m.defineTypeWith name attr) := by
  unfold defineTypeWith Reference.ofMembership
  split
  · exact .refl m
  · rename_i h
    have hattr : attr ≠ "" := fun heq => h (.inr heq)
    have hattribute := brings_requireAttribute m attr
    rw [Reference.named, if_neg hattr] at hattribute
    refine hattribute.trans (b := [.type name]) fun reference => ?_
    generalize m.requireAttribute attr = m
    cases reference with
    | type other =>
      by_cases hother : other = name
      · simp [Introduces, hother]
      · simp [Introduces, hother]
    | _ => simp [Introduces]

theorem brings_defineRoleType (m : PolicyModule) (role name : String) :
    m.Brings (Reference.ofRoleType role name) (m.defineRoleType role name) := by
  unfold defineRoleType Reference.ofRoleType
  split
  · exact .refl m
  · rename_i h
    have hrole : role ≠ "" := fun heq => h (.inl heq)
    have hrequired := brings_requireRole m role
    rw [Reference.named, if_neg hrole] at hrequired
    exact hrequired.of_eq rfl rfl

theorem brings_addPermissive (m : PolicyModule) (domain : String) :
    m.Brings (Reference.named domain (.type domain)) (m.addPermissive domain) := by
  have hrequired := brings_requireType m domain
  unfold addPermissive
  dsimp only
  split
  · exact hrequired
  · exact hrequired.of_eq rfl rfl

/-! ### Histories -/

/-- Rounds rename types in rules and labels; they change nothing else. -/
theorem requirements_rounds {replacements : List Replacement} (h : Rounds m replacements last) :
    last.requirements = m.requirements ∧ last.definitions = m.definitions ∧
      last.permissive = m.permissive := by
  induction h with
  | done m => exact ⟨rfl, rfl, rfl⟩
  | step hround _ ih =>
    obtain ⟨-, rfl⟩ := hround
    exact ih

theorem brings_apply (policy : SystemPolicy) (m : PolicyModule) (operation : Operation) :
    m.Brings (operation.references policy) (m.apply policy operation) := by
  cases operation with
  | addRules rules => exact brings_addUpTo m rules
  | requireType name => exact brings_requireType m name
  | requireAttribute name => exact brings_requireAttribute m name
  | requireRole name => exact brings_requireRole m name
  | defineType name => exact brings_defineType m name
  | defineTypeWith name attr => exact brings_defineTypeWith m name attr
  | defineRoleType role name => exact brings_defineRoleType m role name
  | addPermissive domain => exact brings_addPermissive m domain
  | addFileContext entry => exact (Brings.refl m).of_eq rfl rfl
  | resolve =>
    obtain ⟨hrequirements, hdefinitions, -⟩ := requirements_rounds (rounds_resolve m)
    exact (Brings.refl m).of_eq hrequirements (congrArg Definitions.types hdefinitions)

/-- A history introduces what its operations refer to, and nothing else. -/
theorem brings_run (policy : SystemPolicy) (m : PolicyModule) (operations : List Operation) :
    m.Brings (operations.flatMap (·.references policy)) (m.run policy operations) :=
  brings_foldl (brings_apply policy) operations m

/-- What a history introduces anew is what its operations refer to. -/
theorem introduces_run_iff {operations : List Operation} {reference : Reference}
    (h : ¬m.Introduces reference) : (m.run policy operations).Introduces reference ↔
      ∃ operation ∈ operations, reference ∈ operation.references policy := by
  rw [brings_run policy m operations reference, or_iff_right h]
  exact List.mem_flatMap

theorem not_introduces_make (name version : String) (reference : Reference) :
    ¬({ name, version } : PolicyModule).Introduces reference := by
  cases reference <;> simp [Introduces]

/-- What is referred to by one of the rules that operations add is introduced. -/
theorem introduces_of_accepted {operations : List Operation} {rule : Rule} {reference : Reference}
    (hrule : rule ∈ accepted policy operations) (h : reference ∈ rule.references policy) :
    (m.run policy operations).Introduces reference := by
  obtain ⟨operation, hoperation, hrule⟩ := List.mem_flatMap.1 hrule
  have hmem : reference ∈ operation.references policy := by
    cases operation with
    | addRules rules => exact List.mem_flatMap.2 ⟨rule, hrule, h⟩
    | _ => cases hrule
  exact (brings_run policy m operations reference).2
    (.inr (List.mem_flatMap.2 ⟨operation, hoperation, hmem⟩))

/-- Rules are the only operations that refer to classes. -/
theorem Operation.exists_accepted {operation : Operation} {reference : Reference}
    {className : String} (hclass : reference.className? = some className)
    (h : reference ∈ operation.references policy) :
    ∃ rule ∈ operation.accepted policy, reference ∈ rule.references policy := by
  cases operation with
  | addRules rules => exact List.mem_flatMap.1 h
  | requireType _ | requireAttribute _ | requireRole _ | defineType _ | addPermissive _ =>
    rw [Reference.className?_of_mem_named h] at hclass
    cases hclass
  | defineTypeWith name attr =>
    simp only [references, Reference.ofMembership] at h
    split at h
    · cases h
    · rcases List.mem_pair.1 h with rfl | rfl
      · cases hclass
      · cases hclass
  | defineRoleType role name =>
    simp only [references, Reference.ofRoleType] at h
    split at h
    · cases h
    · rw [List.mem_singleton.1 h] at hclass
      cases hclass
  | addFileContext _ | resolve => cases h

/-- What a history introduces of classes comes from the access rules that are added. -/
theorem introduces_class_run_iff {operations : List Operation} {reference : Reference}
    {className : String} (hclass : reference.className? = some className)
    (h : ¬m.Introduces reference) :
    (m.run policy operations).Introduces reference ↔
      ∃ rule, .access rule ∈ accepted policy operations ∧
        reference ∈ Reference.ofActions policy rule.className rule.actions := by
  constructor
  · intro hintroduces
    obtain ⟨operation, hoperation, hasked⟩ := (introduces_run_iff h).1 hintroduces
    obtain ⟨rule, hrule, hreference⟩ := Operation.exists_accepted hclass hasked
    obtain ⟨access, rfl, hactions⟩ := (Rule.mem_references_of_className hclass).1 hreference
    exact ⟨access, List.mem_flatMap.2 ⟨operation, hoperation, hrule⟩, hactions⟩
  · rintro ⟨rule, hrule, hmem⟩
    exact introduces_of_accepted hrule
      ((Rule.mem_references_of_className hclass).2 ⟨rule, rfl, hmem⟩)

end PolicyModule

end TypeEnforcement
