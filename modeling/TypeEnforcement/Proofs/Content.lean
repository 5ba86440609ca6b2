/-
What goes into a module.

A module holds rules, declarations and file contexts, and it requires the names that these use.
Requirements follow from the rest, so what an operation does is said by what it adds to the rest.

* `Content` — rules, declarations and file contexts that are put into a module together;
* `PolicyModule.Declares` — what a module declares;
* `PolicyModule.Adds` — a step that puts some content into a module, and nothing else;
* `Adds.trans`, `foldl_adds` — steps one after another add their contents;
* `PolicyModule.Operation.content` — what an operation puts into a module.

Main statements:
* `adds_addChecked` — adding a rule adds this rule, however it is merged;
* `adds_defineTypeWith` and its kin — what the other operations add;
* `adds_run`, `Makes.adds` — a history without a resolution adds the contents of its operations.
-/
import TypeEnforcement.Proofs.History

namespace TypeEnforcement

/-- A statement that declares something about a name. -/
inductive Declaration where
  /-- The name is a type. -/
  | type (name : String)
  /-- The type has an attribute. -/
  | membership (typeName attr : String)
  /-- The type is associated with a role. -/
  | role (role typeName : String)
  /-- Denials are only recorded in the domain. -/
  | permissive (domain : String)
deriving DecidableEq

namespace Declaration

/-- What defining a type declares, with the attributes that it gets; the empty name is no type. -/
def ofType (name : String) (attributes : List String) : List Declaration :=
  if name = "" then [] else type name :: attributes.map (membership name)

/-- What associating a type with a role declares. -/
def ofRole (roleName name : String) : List Declaration :=
  if roleName = "" ∨ name = "" then [] else [role roleName name]

end Declaration

/-- What is put into a module. -/
@[ext]
structure Content where
  rules : List Rule := []
  declarations : List Declaration := []
  fileContexts : List FileContext := []

namespace Content

instance : Append Content :=
  ⟨fun a b => ⟨a.rules ++ b.rules, a.declarations ++ b.declarations,
    a.fileContexts ++ b.fileContexts⟩⟩

/-- The contents of the items of a list, one after another. -/
def ofAll {α : Type} (f : α → Content) (items : List α) : Content where
  rules := items.flatMap fun item => (f item).rules
  declarations := items.flatMap fun item => (f item).declarations
  fileContexts := items.flatMap fun item => (f item).fileContexts

@[simp] theorem rules_append (a b : Content) : (a ++ b).rules = a.rules ++ b.rules := rfl

@[simp] theorem declarations_append (a b : Content) :
    (a ++ b).declarations = a.declarations ++ b.declarations := rfl

@[simp] theorem fileContexts_append (a b : Content) :
    (a ++ b).fileContexts = a.fileContexts ++ b.fileContexts := rfl

theorem ofAll_cons {α : Type} (f : α → Content) (item : α) (rest : List α) :
    ofAll f (item :: rest) = f item ++ ofAll f rest := rfl

end Content

namespace PolicyModule

/-- What a module declares. -/
def Declares (m : PolicyModule) : Declaration → Prop
  | .type name => m.definitions.types.contains name = true
  | .membership typeName attr => m.definitions.types.Relates typeName attr
  | .role role typeName => m.definitions.roles.Relates role typeName
  | .permissive domain => domain ∈ m.permissive

theorem not_declares_make (name version : String) (d : Declaration) :
    ¬({ name, version } : PolicyModule).Declares d := by
  cases d <;> simp [Declares]

/-- The step from `m` to `next` adds a content and nothing else. -/
structure Adds (m : PolicyModule) (content : Content) (next : PolicyModule) : Prop where
  grants (target : AccessTarget) (permission : String) : next.Grants target permission ↔
    m.Grants target permission ∨
      ∃ rule, .access rule ∈ content.rules ∧ rule.Grants target permission
  transitions (rule : TransitionRule) : rule ∈ next.transitionRules ↔
    rule ∈ m.transitionRules ∨ .transition rule ∈ content.rules
  declares (d : Declaration) : next.Declares d ↔ m.Declares d ∨ d ∈ content.declarations
  fileContexts : next.fileContexts = m.fileContexts ++ content.fileContexts

variable {m next last : PolicyModule}

/-- The requirements are not part of the content. -/
theorem adds_requirements (m : PolicyModule) (requirements : Requirements) :
    Adds m {} { m with requirements } where
  grants target permission := by simp [Grants]
  transitions rule := by simp
  declares d := by cases d <;> simp [Declares]
  fileContexts := by simp

theorem Adds.refl (m : PolicyModule) : Adds m {} m :=
  adds_requirements m m.requirements

theorem Adds.trans {a b : Content} (h : Adds m a next) (hs : Adds next b last) :
    Adds m (a ++ b) last where
  grants target permission := by
    rw [hs.grants, h.grants]
    simp only [Content.rules_append, List.mem_append, or_and_right, exists_or, or_assoc]
  transitions rule := by
    rw [hs.transitions, h.transitions]
    simp only [Content.rules_append, List.mem_append, or_assoc]
  declares d := by
    rw [hs.declares, h.declares]
    simp only [Content.declarations_append, List.mem_append, or_assoc]
  fileContexts := by
    rw [hs.fileContexts, h.fileContexts, Content.fileContexts_append, List.append_assoc]

theorem Adds.of_nothing {content : Content} (h : Adds m {} next) (hs : Adds next content last) :
    Adds m content last :=
  h.trans hs

theorem foldl_adds {α : Type} {step : PolicyModule → α → PolicyModule} {content : α → Content}
    (items : List α) (hstep : ∀ item ∈ items, ∀ m, Adds m (content item) (step m item))
    (m : PolicyModule) : Adds m (.ofAll content items) (items.foldl step m) := by
  induction items generalizing m with
  | nil => exact .refl m
  | cons item rest ih =>
    obtain ⟨hitem, hrest⟩ := List.forall_mem_cons.1 hstep
    exact (hitem m).trans (ih hrest (step m item))

/-! ### Required names -/

theorem adds_requireType (m : PolicyModule) (name : String) : Adds m {} (m.requireType name) := by
  unfold requireType
  split
  · exact .refl m
  · exact adds_requirements m _

theorem adds_requireAttribute (m : PolicyModule) (name : String) :
    Adds m {} (m.requireAttribute name) := by
  unfold requireAttribute
  split
  · exact .refl m
  · exact adds_requirements m _

theorem adds_requireRole (m : PolicyModule) (name : String) : Adds m {} (m.requireRole name) := by
  unfold requireRole
  split
  · exact .refl m
  · exact adds_requirements m _

theorem adds_requireName (policy : SystemPolicy) (m : PolicyModule) (name : String) :
    Adds m {} (requireName policy m name) := by
  unfold requireName
  split
  · exact adds_requireAttribute m name
  · exact adds_requireType m name

theorem adds_requireNames (policy : SystemPolicy) (m : PolicyModule) (names : List String) :
    Adds m {} (names.foldl (requireName policy) m) := by
  induction names generalizing m with
  | nil => exact .refl m
  | cons name rest ih => exact (adds_requireName policy m name).trans (ih _)

/-! ### Rules -/

theorem adds_insertAccess (m : PolicyModule) (rule : AccessRule) :
    Adds m { rules := [.access rule] }
      { m with accessRules := insertAccess rule m.accessRules } where
  grants target permission := by
    show (∃ r ∈ insertAccess rule m.accessRules, r.Grants target permission) ↔ _
    rw [insertAccess_grants, or_comm]
    simp [Grants]
  transitions rule := by simp
  declares d := by cases d <;> simp [Declares]
  fileContexts := by simp

theorem adds_insertTransition (m : PolicyModule) (rule : TransitionRule) :
    Adds m { rules := [.transition rule] }
      { m with transitionRules := insertTransition rule m.transitionRules } where
  grants target permission := by simp [Grants]
  transitions other := by simp [or_comm]
  declares d := by cases d <;> simp [Declares]
  fileContexts := by simp

theorem adds_addChecked (policy : SystemPolicy) (permissions : NameSet) (m : PolicyModule)
    (rule : Rule) : Adds m { rules := [rule] } (m.addChecked policy permissions rule) := by
  cases rule with
  | access rule =>
    have hclass : Adds m {} (m.requireClass rule.className rule.actions permissions) :=
      adds_requirements m _
    exact (hclass.trans (adds_requireNames policy _ [rule.subject, rule.object])).trans
      (adds_insertAccess _ rule)
  | transition rule =>
    exact (adds_requireNames policy m [rule.subject, rule.object, rule.target]).trans
      (adds_insertTransition _ rule)

/-! ### Definitions -/

theorem adds_defineType (m : PolicyModule) (name : String) :
    Adds m { declarations := Declaration.ofType name [] } (m.defineType name) := by
  unfold defineType Declaration.ofType
  split
  · exact .refl m
  · refine ⟨fun _ _ => by simp [Grants], fun _ => by simp, fun d => ?_, by simp⟩
    cases d with
    | type other => simp [Declares, or_comm]
    | membership typeName attr =>
      -- The attributes that the type has already stay.
      simp only [Declares]
      rw [NameMap.relates_alter (fun _ => False) (by simp)]
      simp
    | role role typeName => simp [Declares]
    | permissive domain => simp [Declares]

theorem adds_defineTypeWith (m : PolicyModule) (name attr : String) (hattr : attr ≠ "") :
    Adds m { declarations := Declaration.ofType name [attr] } (m.defineTypeWith name attr) := by
  by_cases hname : name = ""
  · rw [defineTypeWith, Declaration.ofType, if_pos hname, if_pos (.inl hname)]
    exact .refl m
  · rw [defineTypeWith, Declaration.ofType, if_neg hname, if_neg (not_or.2 ⟨hname, hattr⟩)]
    refine Adds.of_nothing (adds_requireAttribute m attr) ?_
    generalize m.requireAttribute attr = m
    refine ⟨fun _ _ => by simp [Grants], fun _ => by simp, fun d => ?_, by simp⟩
    cases d with
    | type other => simp [Declares, or_comm]
    | membership typeName other =>
      simp only [Declares]
      rw [NameMap.relates_alter (· = attr) (by simp [or_comm])]
      simp
    | role role typeName => simp [Declares]
    | permissive domain => simp [Declares]

theorem adds_defineRoleType (m : PolicyModule) (role name : String) :
    Adds m { declarations := Declaration.ofRole role name } (m.defineRoleType role name) := by
  unfold defineRoleType Declaration.ofRole
  split
  · exact .refl m
  · refine Adds.of_nothing (adds_requireRole m role) ?_
    generalize m.requireRole role = m
    refine ⟨fun _ _ => by simp [Grants], fun _ => by simp, fun d => ?_, by simp⟩
    cases d with
    | type other => simp [Declares]
    | membership typeName other => simp [Declares]
    | role other typeName =>
      simp only [Declares]
      rw [NameMap.relates_alter (· = name) (by simp [or_comm])]
      simp
    | permissive domain => simp [Declares]

theorem adds_addPermissive (m : PolicyModule) (domain : String) :
    Adds m { declarations := [.permissive domain] } (m.addPermissive domain) := by
  unfold addPermissive
  refine Adds.of_nothing (adds_requireType m domain) ?_
  generalize m.requireType domain = m
  dsimp only
  split
  · -- The domain is permissive already.
    rename_i hmem
    refine ⟨fun _ _ => by simp, fun _ => by simp, fun d => ?_, by simp⟩
    simp only [List.mem_singleton]
    refine (or_iff_left_of_imp ?_).symm
    rintro rfl
    exact hmem
  · refine ⟨fun _ _ => by simp [Grants], fun _ => by simp, fun d => ?_, by simp⟩
    cases d <;> simp [Declares]

theorem adds_addFileContext (m : PolicyModule) (entry : FileContext) :
    Adds m { fileContexts := [entry] } (m.addFileContext entry) where
  grants target permission := by simp [Grants, addFileContext]
  transitions rule := by simp [addFileContext]
  declares d := by cases d <;> simp [Declares, addFileContext]
  fileContexts := rfl

/-! ### Operations -/

variable {policy : SystemPolicy}

/-- What an operation puts into a module, apart from the requirements. -/
def Operation.content (policy : SystemPolicy) : Operation → Content
  | .addRules rules => { rules := acceptedAmong policy rules }
  | .defineType name => { declarations := Declaration.ofType name [] }
  | .defineTypeWith name attr =>
    { declarations := if attr = "" then [] else Declaration.ofType name [attr] }
  | .defineRoleType role name => { declarations := Declaration.ofRole role name }
  | .addPermissive domain => { declarations := [.permissive domain] }
  | .addFileContext entry => { fileContexts := [entry] }
  | .requireType _ | .requireAttribute _ | .requireRole _ | .resolve => {}

@[simp] theorem Operation.declarations_addRules (policy : SystemPolicy) (rules : List Rule) :
    ((addRules rules).content policy).declarations = [] := rfl

@[simp] theorem Operation.fileContexts_addRules (policy : SystemPolicy) (rules : List Rule) :
    ((addRules rules).content policy).fileContexts = [] := rfl

theorem Operation.rules_content (policy : SystemPolicy) (operation : Operation) :
    (operation.content policy).rules = operation.accepted policy := by
  cases operation <;> rfl

theorem eq_of_permissive_mem {operation : Operation} {domain : String}
    (h : .permissive domain ∈ (operation.content policy).declarations) :
    operation = .addPermissive domain := by
  cases operation with
  | addPermissive other =>
    obtain rfl : domain = other := by simpa [Operation.content] using h
    rfl
  | defineTypeWith name attr =>
    simp only [Operation.content, Declaration.ofType] at h
    split at h
    · simp at h
    · split at h
      · simp at h
      · simp at h
  | _ => simp [Operation.content, Declaration.ofType, Declaration.ofRole] at h

theorem adds_addUpTo (policy : SystemPolicy) (m : PolicyModule) (rules : List Rule) :
    m.Adds { rules := acceptedAmong policy rules } (m.addUpTo policy rules).1 :=
  addUpTo_induction (P := fun next added => m.Adds { rules := added } next)
    (fun next _ rule permissions _ h => h.trans (adds_addChecked policy permissions next rule))
    [] (.refl m) rules

/-- Every operation but a resolution puts its content into the module. -/
theorem adds_apply (policy : SystemPolicy) (m : PolicyModule) {operation : Operation}
    (h : operation ≠ .resolve) : m.Adds (operation.content policy) (m.apply policy operation) := by
  cases operation with
  | addRules rules => exact adds_addUpTo policy m rules
  | requireType name => exact adds_requireType m name
  | requireAttribute name => exact adds_requireAttribute m name
  | requireRole name => exact adds_requireRole m name
  | defineType name => exact adds_defineType m name
  | defineTypeWith name attr =>
    by_cases hattr : attr = ""
    · -- Without an attribute nothing happens.
      have hsame : m.defineTypeWith name attr = m := if_pos (.inr hattr)
      simp only [Operation.content, apply, hsame, if_pos hattr]
      exact .refl m
    · have hadds := adds_defineTypeWith m name attr hattr
      simpa only [Operation.content, apply, if_neg hattr] using hadds
  | defineRoleType role name => exact adds_defineRoleType m role name
  | addPermissive domain => exact adds_addPermissive m domain
  | addFileContext entry => exact adds_addFileContext m entry
  | resolve => exact absurd rfl h

/-- Operations other than a resolution put their contents into a module. -/
theorem adds_run (policy : SystemPolicy) {operations : List Operation}
    (hresolve : .resolve ∉ operations) (m : PolicyModule) :
    m.Adds (.ofAll (·.content policy) operations) (m.run policy operations) :=
  foldl_adds operations (fun _ hmem m => adds_apply policy m fun heq => hresolve (heq ▸ hmem)) m

/-- Where no rule is refused, the rules are those of the operations. -/
theorem Makes.adds {operations : List Operation} {content : Content}
    (h : m.Makes policy operations next)
    (hrules : operations.flatMap Operation.rules = content.rules)
    (hdeclarations : (operations.flatMap fun operation =>
      (operation.content policy).declarations) = content.declarations)
    (hfileContexts : (operations.flatMap fun operation =>
      (operation.content policy).fileContexts) = content.fileContexts) : m.Adds content next := by
  have heq : Content.ofAll (·.content policy) operations = content := by
    refine Content.ext ?_ hdeclarations hfileContexts
    rw [← hrules, ← h.accepted_eq]
    exact List.flatMap_congr fun operation _ => operation.rules_content policy
  exact heq ▸ h.run ▸ adds_run policy h.settled m

end PolicyModule

end TypeEnforcement
