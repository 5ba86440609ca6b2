/-
Conflicts between transition rules.

Two transition rules that differ only in their target leave open which type a new object gets.  The
later target is then replaced by the earlier one everywhere in the module.  Replacing may make
further rules conflict, so it is repeated until no conflict is left.

* `firstConflict` — the first pair of rules that conflict, as the replacement that it calls for;
* `PolicyModule.replaceType` — one replacement;
* `PolicyModule.resolve` — the replacements that a module calls for, one after another.

Main statements:
* `nameCount_replace_lt` — a replacement leaves fewer names in the rules, so there is an end;
* `firstConflict_resolve` — no conflict is left.
-/
import TypeEnforcement.Module.Basic

namespace TypeEnforcement

/-- A type that gives way to another one. -/
structure Replacement where
  source : String
  target : String
deriving DecidableEq

/-- The name that stands in the place of a name. -/
def Replacement.rename (r : Replacement) (name : String) : String :=
  if name = r.source then r.target else name

/-- The replacement that the first conflict in a list of rules calls for.  Conflicts of earlier
rules come first, and then conflicts with earlier rules. -/
def firstConflict : List TransitionRule → Option Replacement
  | [] => none
  | first :: rest =>
    match rest.find? (first.ConflictsWith ·) with
    | some later => some ⟨later.target, first.target⟩
    | none => firstConflict rest

def TransitionRule.replace (r : Replacement) (rule : TransitionRule) : TransitionRule :=
  { rule with
    subject := r.rename rule.subject
    object := r.rename rule.object
    target := r.rename rule.target }

def AccessRule.replace (r : Replacement) (rule : AccessRule) : AccessRule :=
  { rule with subject := r.rename rule.subject, object := r.rename rule.object }

/-- Transition rules after a replacement; rules that become equal are kept once. -/
def replaceTransitions (r : Replacement) (rules : List TransitionRule) : List TransitionRule :=
  rules.foldl (fun kept rule => insertTransition (rule.replace r) kept) []

/-- Access rules after a replacement; rules that get one target are kept as one. -/
def replaceAccesses (r : Replacement) (rules : List AccessRule) : List AccessRule :=
  rules.foldl (fun kept rule => insertAccess (rule.replace r) kept) []

/-! ### Names in rules -/

/-- The names that occur in a transition rule. -/
def TransitionRule.names (rule : TransitionRule) : List String :=
  [rule.subject, rule.object, rule.target]

/-- The names that occur in transition rules. -/
def transitionNames (rules : List TransitionRule) : NameSet :=
  .ofList (rules.flatMap TransitionRule.names)

/-- The number of names that occur in transition rules. -/
def nameCount (rules : List TransitionRule) : Nat :=
  (transitionNames rules).toList.length

theorem mem_transitionNames {rules : List TransitionRule} {name : String} :
    name ∈ transitionNames rules ↔ ∃ rule ∈ rules, name ∈ rule.names := by
  simp [transitionNames]

theorem mem_foldl_insertTransition {f : TransitionRule → TransitionRule}
    {rules kept : List TransitionRule} {rule : TransitionRule} :
    rule ∈ rules.foldl (fun kept rule => insertTransition (f rule) kept) kept ↔
      rule ∈ kept ∨ ∃ old ∈ rules, rule = f old := by
  induction rules generalizing kept with
  | nil => simp
  | cons first rest ih =>
    rw [List.foldl_cons, ih, mem_insertTransition]
    simp only [List.mem_cons, or_and_right, exists_or, exists_eq_left]
    rw [or_comm (a := rule = f first), or_assoc]

theorem mem_replaceTransitions {r : Replacement} {rules : List TransitionRule}
    {rule : TransitionRule} :
    rule ∈ replaceTransitions r rules ↔ ∃ old ∈ rules, rule = old.replace r := by
  rw [replaceTransitions, mem_foldl_insertTransition (f := TransitionRule.replace r)]
  simp

theorem names_replace (r : Replacement) (rule : TransitionRule) :
    (rule.replace r).names = rule.names.map r.rename := rfl

/-- A replacement leaves the names that were there before and are not replaced. -/
theorem mem_transitionNames_replace {r : Replacement} {rules : List TransitionRule} {name : String}
    (hne : r.source ≠ r.target) (ht : r.target ∈ transitionNames rules)
    (h : name ∈ transitionNames (replaceTransitions r rules)) :
    name ∈ transitionNames rules ∧ name ≠ r.source := by
  obtain ⟨rule, hrule, hname⟩ := mem_transitionNames.1 h
  obtain ⟨old, hold, rfl⟩ := mem_replaceTransitions.1 hrule
  rw [names_replace, List.mem_map] at hname
  obtain ⟨before, hbefore, rfl⟩ := hname
  unfold Replacement.rename
  split
  · -- The name was replaced, so it is the target now.
    exact ⟨ht, hne.symm⟩
  · rename_i h
    exact ⟨mem_transitionNames.2 ⟨old, hold, hbefore⟩, h⟩

theorem firstConflict_eq_some {rules : List TransitionRule} {r : Replacement}
    (h : firstConflict rules = some r) :
    ∃ a ∈ rules, ∃ b ∈ rules, a.ConflictsWith b ∧ r = ⟨b.target, a.target⟩ := by
  induction rules with
  | nil => simp [firstConflict] at h
  | cons first rest ih =>
    rw [firstConflict] at h
    split at h
    · rename_i later hfind
      refine ⟨first, List.mem_cons_self, later, List.mem_cons_of_mem _ (List.mem_of_find?_eq_some
        hfind), ?_, (Option.some.inj h).symm⟩
      simpa using List.find?_some hfind
    · obtain ⟨a, ha, b, hb, hab⟩ := ih h
      exact ⟨a, List.mem_cons_of_mem _ ha, b, List.mem_cons_of_mem _ hb, hab⟩

theorem firstConflict_eq_none_iff {rules : List TransitionRule} :
    firstConflict rules = none ↔ rules.Pairwise fun a b => ¬a.ConflictsWith b := by
  induction rules with
  | nil => simp [firstConflict]
  | cons first rest ih =>
    rw [firstConflict, List.pairwise_cons]
    split
    · rename_i later hfind
      have hmem := List.mem_of_find?_eq_some hfind
      have hconflict : first.ConflictsWith later := by simpa using List.find?_some hfind
      simp only [reduceCtorEq, false_iff, not_and]
      exact fun h => absurd hconflict (h later hmem)
    · rename_i hfind
      rw [ih]
      have : ∀ b ∈ rest, ¬first.ConflictsWith b := by
        simpa using List.find?_eq_none.1 hfind
      exact ⟨fun h => ⟨this, h⟩, fun h => h.2⟩

/-- The number of names goes down with each replacement that a conflict calls for. -/
theorem nameCount_replace_lt {rules : List TransitionRule} {r : Replacement}
    (h : firstConflict rules = some r) :
    nameCount (replaceTransitions r rules) < nameCount rules := by
  obtain ⟨a, ha, b, hb, hconflict, rfl⟩ := firstConflict_eq_some h
  have hsource : b.target ∈ transitionNames rules :=
    mem_transitionNames.2 ⟨b, hb, by simp [TransitionRule.names]⟩
  have htarget : a.target ∈ transitionNames rules :=
    mem_transitionNames.2 ⟨a, ha, by simp [TransitionRule.names]⟩
  -- The later target is gone, and no name is new.
  refine NameSet.length_lt_of_subset hsource fun name hname => ?_
  exact mem_transitionNames_replace (r := ⟨b.target, a.target⟩) hconflict.2.2.2.2.symm htarget hname

/-! ### Resolution -/

namespace PolicyModule

/-- A module after a replacement: in its rules, and in the labels of its file contexts. -/
def replaceType (m : PolicyModule) (r : Replacement) : PolicyModule :=
  { m with
    transitionRules := replaceTransitions r m.transitionRules
    accessRules := replaceAccesses r m.accessRules
    fileContexts := m.fileContexts.map (·.renameType r.source r.target) }

/-- A module without conflicts, and the replacements that led to it. -/
def resolve (m : PolicyModule) : PolicyModule × List Replacement :=
  match _h : firstConflict m.transitionRules with
  | none => (m, [])
  | some r =>
    let (resolved, later) := (m.replaceType r).resolve
    (resolved, r :: later)
termination_by nameCount m.transitionRules
decreasing_by exact nameCount_replace_lt ‹_›

/-- Resolution leaves no conflict. -/
theorem firstConflict_resolve (m : PolicyModule) :
    firstConflict m.resolve.1.transitionRules = none := by
  fun_induction resolve m with
  | case1 m h => exact h
  | case2 m r h resolved later heq ih => simpa [heq] using ih

end PolicyModule

end TypeEnforcement
