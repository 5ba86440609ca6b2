/-
Policy modules under construction.

A module collects rules, definitions and file contexts.  Adding a rule also records the names that
it uses: what the module does not define itself, it requires.  Rules are checked against the classes
of the host's policy as they arrive, and rules with one target are kept as one rule.

* `Rule.check` — whether the policy has the class and the permissions of a rule;
* `PolicyModule.Change` — a change that may be refused on the way;
* `PolicyModule.addRule`, `PolicyModule.addRules` — rules added one after another;
* `PolicyModule.requireType`, `PolicyModule.defineType` and their kin — names required and defined.

Main statements:
* `Rule.check_cases` — why rules are refused, and what a rule has that is not;
* `PolicyModule.run_recordRule`, `PolicyModule.run_recordRule_of_refused` — a rule is added as a
  whole or not at all;
* `insertAccess_grants` — keeping rules with one target as one neither adds nor loses accesses;
* `mem_insertTransition` — transition rules are kept once each.
-/
import TypeEnforcement.Host.SystemPolicy
import TypeEnforcement.Label.FileContext
import TypeEnforcement.Project.Name
import TypeEnforcement.Rule.Basic

namespace TypeEnforcement

/-! ### Checking rules -/

/-- The permissions of the class of a rule, if the policy has the class and the rule names some
permissions of it and no others. -/
def Rule.check (policy : SystemPolicy) (rule : Rule) : Except Fault NameSet :=
  let refuse (reason : RuleFault) : Except Fault NameSet :=
    .error (.rule (Text.trimRight rule.text) reason)
  match policy.permissions? rule.className with
  | none => refuse (.unknownClass rule.className)
  | some permissions =>
    match rule with
    | .transition _ => .ok permissions
    | .access rule =>
      match rule.actions with
      | .all => .ok permissions
      | .only names _ =>
        if names.isEmpty then refuse .noPermissions
        else match names.toList.find? (· ∉ permissions) with
          | some name => refuse (.unknownPermission rule.className name)
          | none => .ok permissions

/-- A rule is refused for a reason of its check, or the policy has its class, and an access rule
stands for all permissions of the class or names some of them and no others. -/
theorem Rule.check_cases (policy : SystemPolicy) (rule : Rule) :
    (∃ reason, (∀ name, reason ≠ .undefinedClass name) ∧
      rule.check policy = .error (.rule (Text.trimRight rule.text) reason)) ∨
    ∃ permissions, policy.permissions? rule.className = some permissions ∧
      rule.check policy = .ok permissions ∧
      ∀ access : AccessRule, rule = .access access → access.actions = .all ∨
        ∃ names hstar, access.actions = .only names hstar ∧ names.isEmpty = false ∧
          ∀ name ∈ names, name ∈ permissions := by
  unfold Rule.check
  dsimp only
  cases hfound : policy.permissions? rule.className with
  | none => exact .inl ⟨_, fun _ => RuleFault.noConfusion, rfl⟩
  | some permissions =>
    cases rule with
    | transition rule =>
      refine .inr ⟨permissions, rfl, rfl, fun access heq => ?_⟩
      cases heq
    | access rule =>
      cases hactions : rule.actions with
      | all =>
        refine .inr ⟨permissions, rfl, by simp only [hactions], fun access heq => ?_⟩
        cases heq
        exact .inl hactions
      | only names hstar =>
        simp only [hactions]
        by_cases hempty : names.isEmpty = true
        · rw [if_pos hempty]
          exact .inl ⟨_, fun _ => RuleFault.noConfusion, rfl⟩
        · rw [if_neg hempty]
          cases hforeign : names.toList.find? (· ∉ permissions) with
          | some name => exact .inl ⟨_, fun _ => RuleFault.noConfusion, rfl⟩
          | none =>
            refine .inr ⟨permissions, rfl, rfl, fun access heq => ?_⟩
            cases heq
            exact .inr ⟨names, hstar, hactions, Bool.eq_false_iff.2 hempty, by
              simpa [NameSet.mem_toList] using hforeign⟩

/-- What a rule that is not refused was checked against. -/
theorem Rule.admits_of_check {policy : SystemPolicy} {rule : Rule} {permissions : NameSet}
    (h : rule.check policy = .ok permissions) :
    policy.permissions? rule.className = some permissions ∧
      ∀ access : AccessRule, rule = .access access → access.actions = .all ∨
        ∃ names hstar, access.actions = .only names hstar ∧ names.isEmpty = false ∧
          ∀ name ∈ names, name ∈ permissions := by
  rcases Rule.check_cases policy rule with ⟨reason, -, herror⟩ | ⟨found, hfound, hok, hadmits⟩
  · exact absurd (h.symm.trans herror) (by simp)
  · obtain rfl : found = permissions := Except.ok.inj (hok.symm.trans h)
    exact ⟨hfound, hadmits⟩

/-! ### Lists of rules -/

/-- Add an access rule to a list of rules, in which the first rule with its target takes it up. -/
def insertAccess (rule : AccessRule) : List AccessRule → List AccessRule
  | [] => [rule]
  | first :: rest =>
    match first.merge? rule with
    | some merged => merged :: rest
    | none => first :: insertAccess rule rest

/-- Add a transition rule to a list of rules, unless it is there. -/
def insertTransition (rule : TransitionRule) (rules : List TransitionRule) : List TransitionRule :=
  if rule ∈ rules then rules else rules ++ [rule]

theorem insertAccess_grants {rule : AccessRule} {rules : List AccessRule} {target : AccessTarget}
    {permission : String} :
    (∃ r ∈ insertAccess rule rules, r.Grants target permission) ↔
      rule.Grants target permission ∨ ∃ r ∈ rules, r.Grants target permission := by
  induction rules with
  | nil => simp [insertAccess]
  | cons first rest ih =>
    rw [insertAccess]
    split
    · rename_i merged h
      simp only [List.mem_cons, or_and_right, exists_or, exists_eq_left, AccessRule.grants_merge h,
        or_assoc, or_left_comm]
    · simp only [List.mem_cons, or_and_right, exists_or, exists_eq_left, ih, or_left_comm]

@[simp] theorem mem_insertTransition {rule r : TransitionRule} {rules : List TransitionRule} :
    r ∈ insertTransition rule rules ↔ r = rule ∨ r ∈ rules := by
  unfold insertTransition
  split
  · rename_i h
    exact ⟨.inr, fun hr => hr.elim (fun e => e ▸ h) id⟩
  · simp [or_comm]

/-! ### Modules -/

/-- The names that a module uses and does not define. -/
structure Requirements where
  types : NameSet := ∅
  roles : NameSet := ∅
  attributes : NameSet := ∅
  /-- The classes, with the permissions that are used of them. -/
  classes : ClassTable := ∅
deriving DecidableEq

/-- The names that a module declares. -/
structure Definitions where
  /-- The types associated with roles. -/
  roles : NameMap NameSet := ∅
  /-- The types, with the attributes that they have. -/
  types : NameMap NameSet := ∅
deriving DecidableEq

/-- A policy module. -/
structure PolicyModule where
  name : String
  version : String
  requirements : Requirements := {}
  definitions : Definitions := {}
  accessRules : List AccessRule := []
  transitionRules : List TransitionRule := []
  /-- The domains in which denials are only recorded. -/
  permissive : List String := []
  fileContexts : List FileContext := []

namespace PolicyModule

/-- The accesses that a module grants. -/
def Grants (m : PolicyModule) (target : AccessTarget) (permission : String) : Prop :=
  ∃ rule ∈ m.accessRules, rule.Grants target permission

/-- A module without content. -/
def make (name version : String) : Except Fault PolicyModule := do
  ModuleName.check name
  ModuleVersion.check version
  pure { name, version }

/-- A module is made if its name and its version have the right form, and then it is empty. -/
theorem make_eq_ok_iff {name version : String} {m : PolicyModule} :
    make name version = .ok m ↔ ModuleName.check name = .ok () ∧
      ModuleVersion.check version = .ok () ∧ m = { name, version } := by
  constructor
  · intro h
    obtain ⟨_, hname, h⟩ := bind_eq_ok_iff.1 h
    obtain ⟨_, hversion, h⟩ := bind_eq_ok_iff.1 h
    exact ⟨hname, hversion, (Except.ok.inj h).symm⟩
  · rintro ⟨hname, hversion, rfl⟩
    exact bind_eq_ok_iff.2 ⟨(), hname, bind_eq_ok_iff.2 ⟨(), hversion, rfl⟩⟩

theorem eq_of_make {name version : String} {m : PolicyModule} (h : make name version = .ok m) :
    m = { name, version } :=
  (make_eq_ok_iff.1 h).2.2

/-- Only names that modules may have are given to modules. -/
theorem check_name_of_make {name version : String} {m : PolicyModule}
    (h : make name version = .ok m) : ModuleName.check name = .ok () :=
  (make_eq_ok_iff.1 h).1

/-! ### Required names -/

/-- Require a type, unless the module defines it. -/
def requireType (m : PolicyModule) (name : String) : PolicyModule :=
  if name = "" ∨ m.definitions.types.contains name then m
  else { m with requirements.types := m.requirements.types.insert name }

def requireAttribute (m : PolicyModule) (name : String) : PolicyModule :=
  if name = "" then m
  else { m with requirements.attributes := m.requirements.attributes.insert name }

def requireRole (m : PolicyModule) (name : String) : PolicyModule :=
  if name = "" then m
  else { m with requirements.roles := m.requirements.roles.insert name }

/-- Require a name as an attribute or a type, as the policy has it. -/
def requireName (policy : SystemPolicy) (m : PolicyModule) (name : String) : PolicyModule :=
  if policy.definesAttribute name then m.requireAttribute name else m.requireType name

/-- Require actions on a class whose permissions are `permissions`. -/
def requireClass (m : PolicyModule) (className : String) (actions : Actions)
    (permissions : NameSet) : PolicyModule :=
  let used := match actions with
    | .all => permissions
    | .only names _ => names
  { m with requirements.classes := m.requirements.classes.alter className fun old =>
      (old.getD ∅).union used }

/-! ### Rules -/

/-- A change of a module.  It may be refused, and then the module stays as it was changed so far. -/
abbrev Change := ExceptT Fault (StateM PolicyModule)

/-- Require actions on a class of the policy; no actions stand for all. -/
def recordClass (policy : SystemPolicy) (className : String) (actions : Actions) : Change Unit :=
  match policy.permissions? className with
  | none => throw (.rule className (.undefinedClass className))
  | some permissions => modify fun m =>
    m.requireClass className (if actions.isEmpty then .all else actions) permissions

def recordName (policy : SystemPolicy) (name : String) : Change Unit :=
  modify fun m => m.requireName policy name

def recordAccess (policy : SystemPolicy) (rule : AccessRule) : Change Unit := do
  recordClass policy rule.className rule.actions
  recordName policy rule.subject
  recordName policy rule.object
  modify fun m => { m with accessRules := insertAccess rule m.accessRules }

def recordTransition (policy : SystemPolicy) (rule : TransitionRule) : Change Unit := do
  recordName policy rule.subject
  recordName policy rule.object
  recordName policy rule.target
  modify fun m => { m with transitionRules := insertTransition rule m.transitionRules }

/-- Check a rule and add it. -/
def recordRule (policy : SystemPolicy) (rule : Rule) : Change Unit := do
  let _ ← ExceptT.mk (pure (rule.check policy))
  match rule with
  | .access rule => recordAccess policy rule
  | .transition rule => recordTransition policy rule

/-- Add rules one after another. -/
def recordRules (policy : SystemPolicy) (rules : List Rule) : Change Unit :=
  rules.forM (recordRule policy)

/-- The module with a rule that keeps to the policy; the permissions of its class are
`permissions`. -/
def addChecked (policy : SystemPolicy) (permissions : NameSet) (m : PolicyModule) :
    Rule → PolicyModule
  | .access rule =>
    let m := m.requireClass rule.className rule.actions permissions
    let m := [rule.subject, rule.object].foldl (requireName policy) m
    { m with accessRules := insertAccess rule m.accessRules }
  | .transition rule =>
    let m := [rule.subject, rule.object, rule.target].foldl (requireName policy) m
    { m with transitionRules := insertTransition rule m.transitionRules }

/-- Rules added to a module until one is refused, and the fault of that one. -/
def addUpTo (policy : SystemPolicy) (m : PolicyModule) (rules : List Rule) :
    PolicyModule × Option Fault :=
  match (recordRules policy rules).run.run m with
  | (.ok (), next) => (next, none)
  | (.error fault, next) => (next, some fault)

/-- Add rules, if none of them is refused. -/
def addRules (policy : SystemPolicy) (m : PolicyModule) (rules : List Rule) :
    Except Fault PolicyModule :=
  match m.addUpTo policy rules with
  | (next, none) => .ok next
  | (_, some fault) => .error fault

/-- Add one rule, if it is not refused. -/
def addRule (policy : SystemPolicy) (m : PolicyModule) (rule : Rule) : Except Fault PolicyModule :=
  m.addRules policy [rule]

theorem permissions?_of_check {policy : SystemPolicy} {rule : Rule} {permissions : NameSet}
    (h : rule.check policy = .ok permissions) :
    policy.permissions? rule.className = some permissions :=
  (Rule.admits_of_check h).1

/-- An access rule that is not refused has some actions. -/
theorem isEmpty_of_check {policy : SystemPolicy} {rule : AccessRule} {permissions : NameSet}
    (h : (Rule.access rule).check policy = .ok permissions) : rule.actions.isEmpty = false := by
  rcases (Rule.admits_of_check h).2 rule rfl with hall | ⟨names, hstar, honly, hsome, -⟩
  · rw [hall]
    rfl
  · rw [honly]
    exact hsome

/-- What comes after a change that is not refused goes on with the module that it leaves. -/
theorem run_bind_of_ok {first : Change Unit} {m next : PolicyModule}
    (h : first.run.run m = (.ok (), next)) (rest : Unit → Change Unit) :
    (first >>= rest).run.run m = (rest ()).run.run next := by
  simp only [ExceptT.run_bind, StateT.run_bind, h]
  rfl

/-- The class of a rule that is not refused is never missing when it is required. -/
theorem run_recordClass {policy : SystemPolicy} {rule : AccessRule} {permissions : NameSet}
    (h : (Rule.access rule).check policy = .ok permissions) (m : PolicyModule) :
    (recordClass policy rule.className rule.actions).run.run m =
      (.ok (), m.requireClass rule.className rule.actions permissions) := by
  have hfound : policy.permissions? rule.className = some permissions := permissions?_of_check h
  rw [recordClass, hfound, isEmpty_of_check h]
  rfl

/-- A rule that is not refused is added as a whole, whatever the module is. -/
theorem run_recordRule {policy : SystemPolicy} {rule : Rule} {permissions : NameSet}
    (h : rule.check policy = .ok permissions) (m : PolicyModule) :
    (recordRule policy rule).run.run m = (.ok (), m.addChecked policy permissions rule) := by
  unfold recordRule
  rw [h]
  cases rule with
  | access rule => exact run_bind_of_ok (run_recordClass h m) _
  | transition rule => rfl

/-- A rule that is refused changes nothing. -/
theorem run_recordRule_of_refused {policy : SystemPolicy} {rule : Rule} {fault : Fault}
    (h : rule.check policy = .error fault) (m : PolicyModule) :
    (recordRule policy rule).run.run m = (.error fault, m) := by
  unfold recordRule
  rw [h]
  rfl

@[simp] theorem addUpTo_nil (policy : SystemPolicy) (m : PolicyModule) :
    m.addUpTo policy [] = (m, none) := rfl

/-- The first rule of a list is added, and then the others, or it is refused and ends the list. -/
theorem addUpTo_cons (policy : SystemPolicy) (m : PolicyModule) (rule : Rule) (rest : List Rule) :
    m.addUpTo policy (rule :: rest) = match rule.check policy with
      | .ok permissions => (m.addChecked policy permissions rule).addUpTo policy rest
      | .error fault => (m, some fault) := by
  cases hcheck : rule.check policy with
  | ok permissions =>
    have hrun : (recordRules policy (rule :: rest)).run.run m =
        (recordRules policy rest).run.run (m.addChecked policy permissions rule) :=
      run_bind_of_ok (run_recordRule hcheck m) _
    rw [addUpTo, hrun]
    rfl
  | error fault =>
    have hrun : (recordRules policy (rule :: rest)).run.run m = (.error fault, m) := by
      show (recordRule policy rule >>= fun _ => recordRules policy rest).run.run m = _
      simp only [ExceptT.run_bind, StateT.run_bind, run_recordRule_of_refused hcheck]
      rfl
    rw [addUpTo, hrun]

/-! ### Definitions -/

/-- Define a type.  It is no longer required. -/
def defineType (m : PolicyModule) (name : String) : PolicyModule :=
  if name = "" then m
  else { m with
    definitions.types := m.definitions.types.alter name (·.getD ∅)
    requirements.types := m.requirements.types.erase name }

/-- Define a type that has an attribute, and require the attribute. -/
def defineTypeWith (m : PolicyModule) (name attr : String) : PolicyModule :=
  if name = "" ∨ attr = "" then m
  else
    let m := m.requireAttribute attr
    { m with
      definitions.types := m.definitions.types.alter name fun old => (old.getD ∅).insert attr
      requirements.types := m.requirements.types.erase name }

/-- Associate a type with a role, and require the role. -/
def defineRoleType (m : PolicyModule) (role name : String) : PolicyModule :=
  if role = "" ∨ name = "" then m
  else
    let m := m.requireRole role
    { m with definitions.roles := m.definitions.roles.alter role fun old =>
        (old.getD ∅).insert name }

def addPermissive (m : PolicyModule) (domain : String) : PolicyModule :=
  let m := m.requireType domain
  if domain ∈ m.permissive then m else { m with permissive := m.permissive ++ [domain] }

def addFileContext (m : PolicyModule) (entry : FileContext) : PolicyModule :=
  { m with fileContexts := m.fileContexts ++ [entry] }

/-- The types that a module defines, in increasing order. -/
def definedTypes (m : PolicyModule) : List String :=
  m.definitions.types.keys

end PolicyModule

end TypeEnforcement
