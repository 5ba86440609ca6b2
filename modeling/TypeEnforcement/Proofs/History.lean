/-
Histories of modules.

A module starts without content and is changed by operations, in whatever order they come.  What is
said of every module is said of every history.

* `PolicyModule.Operation`, `PolicyModule.apply` — what may happen to a module;
* `PolicyModule.run` — operations one after another;
* `PolicyModule.accepted` — the rules that operations add to a module;
* `PolicyModule.Makes` — operations that make one module of another, with all their rules.

Main statements:
* `run_induction` — what each operation keeps is kept by a history;
* `heading_run` — the name and the version of a module are among it;
* `addUpTo_induction` — what each added rule keeps is kept by adding rules up to a refused one;
* `sameRules_apply` — the operations that have nothing to do with rules leave them alone;
* `makes_addRules` — rules that are all accepted are one operation.
-/
import Mathlib.Data.List.Basic
import TypeEnforcement.Module.Conflict
import TypeEnforcement.Proofs.Resolution

namespace TypeEnforcement

namespace PolicyModule

/-- What may happen to a module after it is made. -/
inductive Operation where
  /-- Rules are added, up to the first that is refused. -/
  | addRules (rules : List Rule)
  | requireType (name : String)
  | requireAttribute (name : String)
  | requireRole (name : String)
  | defineType (name : String)
  | defineTypeWith (name attr : String)
  | defineRoleType (role name : String)
  | addPermissive (domain : String)
  | addFileContext (entry : FileContext)
  /-- Conflicts are resolved. -/
  | resolve

/-- The module after an operation, whether it succeeds or not. -/
def apply (policy : SystemPolicy) (m : PolicyModule) : Operation → PolicyModule
  | .addRules rules => (m.addUpTo policy rules).1
  | .requireType name => m.requireType name
  | .requireAttribute name => m.requireAttribute name
  | .requireRole name => m.requireRole name
  | .defineType name => m.defineType name
  | .defineTypeWith name attr => m.defineTypeWith name attr
  | .defineRoleType role name => m.defineRoleType role name
  | .addPermissive domain => m.addPermissive domain
  | .addFileContext entry => m.addFileContext entry
  | .resolve => m.resolve.1

/-- The module after operations one after another. -/
def run (policy : SystemPolicy) (m : PolicyModule) (operations : List Operation) : PolicyModule :=
  operations.foldl (apply policy) m

/-- The rules of a list up to the first that is refused. -/
def acceptedAmong (policy : SystemPolicy) (rules : List Rule) : List Rule :=
  rules.takeWhile fun rule => (rule.check policy).isOk

/-- The rules that an operation adds. -/
def Operation.accepted (policy : SystemPolicy) : Operation → List Rule
  | .addRules rules => acceptedAmong policy rules
  | _ => []

/-- The rules that operations add, in the order in which they are added. -/
def accepted (policy : SystemPolicy) (operations : List Operation) : List Rule :=
  operations.flatMap (·.accepted policy)

variable {policy : SystemPolicy} {m next last : PolicyModule}

/-! ### Induction over histories -/

/-- What every operation keeps of a module and the rules added to it, a history keeps. -/
theorem run_induction {P : PolicyModule → List Rule → Prop} {operations : List Operation}
    (hstep : ∀ operation ∈ operations, ∀ m added, P m added →
      P (m.apply policy operation) (added ++ operation.accepted policy))
    (added : List Rule) (h : P m added) :
    P (m.run policy operations) (added ++ accepted policy operations) := by
  induction operations generalizing m added with
  | nil => simpa [run, accepted] using h
  | cons operation rest ih =>
    obtain ⟨hfirst, hrest⟩ := List.forall_mem_cons.1 hstep
    have hlast := ih hrest _ (hfirst m added h)
    rwa [List.append_assoc] at hlast

/-- What every added rule keeps, adding rules up to a refused one keeps. -/
theorem addUpTo_induction {P : PolicyModule → List Rule → Prop}
    (hstep : ∀ m added rule permissions, rule.check policy = .ok permissions → P m added →
      P (m.addChecked policy permissions rule) (added ++ [rule]))
    (added : List Rule) (h : P m added) (rules : List Rule) :
    P (m.addUpTo policy rules).1 (added ++ acceptedAmong policy rules) := by
  induction rules generalizing m added with
  | nil => simpa [acceptedAmong] using h
  | cons rule rest ih =>
    rw [addUpTo_cons, acceptedAmong, List.takeWhile_cons]
    cases hcheck : rule.check policy with
    | error fault =>
      -- A refused rule ends the list.
      simpa [Except.isOk, Except.toBool] using h
    | ok permissions =>
      have hlast := ih _ (hstep m added rule permissions hcheck h)
      simpa [Except.isOk, Except.toBool, acceptedAmong] using hlast

/-! ### What operations leave alone -/

/-- Two modules have one name and version and the same rules. -/
structure SameRules (m next : PolicyModule) : Prop where
  name : next.name = m.name
  version : next.version = m.version
  accessRules : next.accessRules = m.accessRules
  transitionRules : next.transitionRules = m.transitionRules

theorem SameRules.refl (m : PolicyModule) : SameRules m m :=
  ⟨rfl, rfl, rfl, rfl⟩

theorem SameRules.trans (h : SameRules m next) (hs : SameRules next last) : SameRules m last :=
  ⟨hs.name.trans h.name, hs.version.trans h.version, hs.accessRules.trans h.accessRules,
    hs.transitionRules.trans h.transitionRules⟩

theorem sameRules_requireType (m : PolicyModule) (name : String) :
    SameRules m (m.requireType name) := by
  unfold requireType
  split
  · exact .refl m
  · exact ⟨rfl, rfl, rfl, rfl⟩

theorem sameRules_requireAttribute (m : PolicyModule) (name : String) :
    SameRules m (m.requireAttribute name) := by
  unfold requireAttribute
  split
  · exact .refl m
  · exact ⟨rfl, rfl, rfl, rfl⟩

theorem sameRules_requireRole (m : PolicyModule) (name : String) :
    SameRules m (m.requireRole name) := by
  unfold requireRole
  split
  · exact .refl m
  · exact ⟨rfl, rfl, rfl, rfl⟩

theorem sameRules_requireNames (policy : SystemPolicy) (m : PolicyModule) (names : List String) :
    SameRules m (names.foldl (requireName policy) m) := by
  induction names generalizing m with
  | nil => exact .refl m
  | cons name rest ih =>
    have hname : SameRules m (requireName policy m name) := by
      unfold requireName
      split
      · exact sameRules_requireAttribute m name
      · exact sameRules_requireType m name
    exact hname.trans (ih _)

theorem sameRules_defineType (m : PolicyModule) (name : String) :
    SameRules m (m.defineType name) := by
  unfold defineType
  split
  · exact .refl m
  · exact ⟨rfl, rfl, rfl, rfl⟩

theorem sameRules_defineTypeWith (m : PolicyModule) (name attr : String) :
    SameRules m (m.defineTypeWith name attr) := by
  unfold defineTypeWith
  split
  · exact .refl m
  · exact (sameRules_requireAttribute m attr).trans ⟨rfl, rfl, rfl, rfl⟩

theorem sameRules_defineRoleType (m : PolicyModule) (role name : String) :
    SameRules m (m.defineRoleType role name) := by
  unfold defineRoleType
  split
  · exact .refl m
  · exact (sameRules_requireRole m role).trans ⟨rfl, rfl, rfl, rfl⟩

theorem sameRules_addPermissive (m : PolicyModule) (domain : String) :
    SameRules m (m.addPermissive domain) := by
  refine (sameRules_requireType m domain).trans ?_
  unfold addPermissive
  dsimp only
  split
  · exact .refl _
  · exact ⟨rfl, rfl, rfl, rfl⟩

/-- An operation adds rules or resolves conflicts, or it has nothing to do with rules. -/
theorem sameRules_apply (policy : SystemPolicy) (m : PolicyModule) (operation : Operation) :
    (∃ rules, operation = .addRules rules) ∨ operation = .resolve ∨
      operation.accepted policy = [] ∧ SameRules m (m.apply policy operation) := by
  cases operation with
  | addRules rules => exact .inl ⟨rules, rfl⟩
  | resolve => exact .inr (.inl rfl)
  | requireType name => exact .inr (.inr ⟨rfl, sameRules_requireType m name⟩)
  | requireAttribute name => exact .inr (.inr ⟨rfl, sameRules_requireAttribute m name⟩)
  | requireRole name => exact .inr (.inr ⟨rfl, sameRules_requireRole m name⟩)
  | defineType name => exact .inr (.inr ⟨rfl, sameRules_defineType m name⟩)
  | defineTypeWith name attr => exact .inr (.inr ⟨rfl, sameRules_defineTypeWith m name attr⟩)
  | defineRoleType role name => exact .inr (.inr ⟨rfl, sameRules_defineRoleType m role name⟩)
  | addPermissive domain => exact .inr (.inr ⟨rfl, sameRules_addPermissive m domain⟩)
  | addFileContext entry => exact .inr (.inr ⟨rfl, rfl, rfl, rfl, rfl⟩)

/-! ### What added rules change -/

/-- The access rules after a rule has been added. -/
theorem accessRules_addChecked (policy : SystemPolicy) (permissions : NameSet) (m : PolicyModule)
    (rule : Rule) : (m.addChecked policy permissions rule).accessRules = match rule with
      | .access rule => insertAccess rule m.accessRules
      | .transition _ => m.accessRules := by
  cases rule with
  | access rule =>
    have hsame := sameRules_requireNames policy
      (m.requireClass rule.className rule.actions permissions) [rule.subject, rule.object]
    exact congrArg (insertAccess rule) hsame.accessRules
  | transition rule =>
    exact (sameRules_requireNames policy m [rule.subject, rule.object, rule.target]).accessRules

/-- The transition rules after a rule has been added. -/
theorem transitionRules_addChecked (policy : SystemPolicy) (permissions : NameSet)
    (m : PolicyModule) (rule : Rule) :
    (m.addChecked policy permissions rule).transitionRules = match rule with
      | .access _ => m.transitionRules
      | .transition rule => insertTransition rule m.transitionRules := by
  cases rule with
  | access rule =>
    exact (sameRules_requireNames policy
      (m.requireClass rule.className rule.actions permissions)
      [rule.subject, rule.object]).transitionRules
  | transition rule =>
    have hsame := sameRules_requireNames policy m [rule.subject, rule.object, rule.target]
    exact congrArg (insertTransition rule) hsame.transitionRules

/-! ### Names and versions -/

/-- The name and the version of a module. -/
def heading (m : PolicyModule) : String × String :=
  (m.name, m.version)

theorem SameRules.heading_eq (h : SameRules m next) : next.heading = m.heading :=
  Prod.ext h.name h.version

theorem heading_addChecked (policy : SystemPolicy) (permissions : NameSet) (m : PolicyModule)
    (rule : Rule) : (m.addChecked policy permissions rule).heading = m.heading := by
  cases rule with
  | access rule =>
    exact (sameRules_requireNames policy
      (m.requireClass rule.className rule.actions permissions)
      [rule.subject, rule.object]).heading_eq
  | transition rule =>
    exact (sameRules_requireNames policy m [rule.subject, rule.object, rule.target]).heading_eq

theorem heading_resolve (m : PolicyModule) : m.resolve.1.heading = m.heading := by
  have hrounds := rounds_resolve m
  generalize m.resolve.1 = last, m.resolve.2 = replacements at hrounds
  induction hrounds with
  | done m => rfl
  | step h _ ih =>
    obtain ⟨-, rfl⟩ := h
    exact ih

theorem name_resolve (m : PolicyModule) : m.resolve.1.name = m.name :=
  congrArg Prod.fst (heading_resolve m)

theorem heading_apply (policy : SystemPolicy) (m : PolicyModule) (operation : Operation) :
    (m.apply policy operation).heading = m.heading := by
  obtain ⟨rules, rfl⟩ | rfl | ⟨-, hsame⟩ := sameRules_apply policy m operation
  · exact addUpTo_induction (P := fun next _ => next.heading = m.heading)
      (fun next _ rule permissions _ h => (heading_addChecked policy permissions next rule).trans h)
      [] rfl rules
  · exact heading_resolve m
  · exact hsame.heading_eq

/-- Whatever happens to a module, it keeps its name and its version. -/
theorem heading_run (policy : SystemPolicy) (m : PolicyModule) (operations : List Operation) :
    (m.run policy operations).heading = m.heading :=
  run_induction (P := fun next _ => next.heading = m.heading)
    (fun operation _ next _ h => (heading_apply policy next operation).trans h) [] rfl

/-! ### Histories in which nothing is refused -/

/-- The rules that an operation is to add. -/
def Operation.rules : Operation → List Rule
  | .addRules rules => rules
  | _ => []

variable {operations others : List Operation}

/-- Operations other than resolutions make one module of another, and no rule is refused. -/
structure Makes (policy : SystemPolicy) (m : PolicyModule) (operations : List Operation)
    (next : PolicyModule) : Prop where
  run : m.run policy operations = next
  accepted : ∀ rules, .addRules rules ∈ operations → acceptedAmong policy rules = rules
  settled : .resolve ∉ operations

theorem Makes.nil (policy : SystemPolicy) (m : PolicyModule) : m.Makes policy [] m :=
  ⟨rfl, fun _ h => absurd h List.not_mem_nil, List.not_mem_nil⟩

theorem Makes.trans (h : m.Makes policy operations next) (hs : next.Makes policy others last) :
    m.Makes policy (operations ++ others) last := by
  obtain ⟨hrun, haccepted, hsettled⟩ := h
  obtain ⟨hrun', haccepted', hsettled'⟩ := hs
  refine ⟨?_, fun rules hrules => ?_, fun hresolve => ?_⟩
  · rw [PolicyModule.run, List.foldl_append]
    exact (congrArg (PolicyModule.run policy · others) hrun).trans hrun'
  · exact (List.mem_append.1 hrules).elim (haccepted rules) (haccepted' rules)
  · exact (List.mem_append.1 hresolve).elim hsettled hsettled'

theorem Makes.name (h : m.Makes policy operations next) : next.name = m.name :=
  h.run ▸ congrArg Prod.fst (heading_run policy m operations)

/-- The rules that are added are those of the operations. -/
theorem Makes.accepted_eq (h : m.Makes policy operations next) :
    PolicyModule.accepted policy operations = operations.flatMap Operation.rules := by
  refine List.flatMap_congr fun operation hoperation => ?_
  cases operation with
  | addRules rules => exact h.accepted rules hoperation
  | _ => rfl

/-- One operation that neither adds rules nor resolves conflicts. -/
theorem makes_apply (policy : SystemPolicy) (m : PolicyModule) {operation : Operation}
    (hrules : ∀ rules, operation ≠ .addRules rules) (hresolve : operation ≠ .resolve) :
    m.Makes policy [operation] (m.apply policy operation) :=
  ⟨rfl, fun rules h => absurd (List.mem_singleton.1 h).symm (hrules rules),
    fun h => hresolve (List.mem_singleton.1 h).symm⟩

theorem makes_addRules {rules : List Rule} (h : m.addRules policy rules = .ok next) :
    m.Makes policy [.addRules rules] next := by
  have hall : acceptedAmong policy rules = rules ∧ (m.addUpTo policy rules).1 = next := by
    induction rules generalizing m with
    | nil =>
      cases h
      exact ⟨rfl, rfl⟩
    | cons rule rest ih =>
      rw [addRules, addUpTo_cons] at h
      rw [addUpTo_cons, acceptedAmong, List.takeWhile_cons]
      cases hcheck : rule.check policy with
      | ok permissions =>
        rw [hcheck] at h
        obtain ⟨hrest, hlast⟩ := ih h
        exact ⟨congrArg (rule :: ·) hrest, hlast⟩
      | error fault =>
        rw [hcheck] at h
        cases h
  refine ⟨hall.2, fun others hothers => ?_, by simp⟩
  obtain rfl := Operation.addRules.inj (List.mem_singleton.1 hothers)
  exact hall.1

theorem makes_foldl {α : Type} {step : PolicyModule → α → PolicyModule}
    {operations : α → List Operation}
    (hstep : ∀ m item, Makes policy m (operations item) (step m item)) (items : List α)
    (m : PolicyModule) : m.Makes policy (items.flatMap operations) (items.foldl step m) := by
  induction items generalizing m with
  | nil => exact .nil policy m
  | cons item rest ih => exact (hstep m item).trans (ih _)

theorem makes_foldlM {α : Type} (step : PolicyModule → α → Except Fault PolicyModule)
    {operations : α → List Operation}
    (hstep : ∀ m item next, step m item = .ok next → Makes policy m (operations item) next)
    {items : List α} (h : items.foldlM step m = .ok last) :
    m.Makes policy (items.flatMap operations) last := by
  induction items generalizing m with
  | nil =>
    cases h
    exact .nil policy _
  | cons item rest ih =>
    rw [List.foldlM_cons, bind_eq_ok_iff] at h
    obtain ⟨next, hnext, hlast⟩ := h
    exact (hstep m item next hnext).trans (ih hlast)

end PolicyModule

end TypeEnforcement
