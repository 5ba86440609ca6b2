/-
The rules that a module keeps, whatever happens to it.

Rules reach a module one at a time and are merged with those that are there; a resolution builds its
lists of rules anew.  Either way a module has one access rule for each target and no transition rule
twice, and what its access rules allow keeps to the classes of the policy.

* `AccessRule.KeepsTo` — the class of a rule exists and has the permissions that the rule names;
* `PolicyModule.Merged` — what the rules of every module are like;
* `PolicyModule.Sums` — the access rules of a module are the sums of some rules, target by target.

Main statements:
* `exists_mem_insertAccess` — merging adds up whatever is said of actions one by one;
* `merged_run` — the rules of a module stay merged;
* `rules_of_history` — what the rules of a module are after any history.
-/
import Mathlib.Data.List.Nodup
import TypeEnforcement.Proofs.History

namespace TypeEnforcement

/-! ### Actions -/

namespace Actions

/-- Whether actions are some permissions of a class, or all of them. -/
def Within (permissions : NameSet) : Actions → Prop
  | all => True
  | only names _ => (∃ name, name ∈ names) ∧ ∀ name ∈ names, name ∈ permissions

theorem Within.union {permissions : NameSet} {a b : Actions} (ha : a.Within permissions)
    (hb : b.Within permissions) : (a.union b).Within permissions := by
  cases a with
  | all => trivial
  | only names _ =>
    cases b with
    | all => trivial
    | only others _ =>
      obtain ⟨⟨name, hname⟩, hnames⟩ := ha
      refine ⟨⟨name, NameSet.mem_union.2 (.inl hname)⟩, fun x hx => ?_⟩
      exact (NameSet.mem_union.1 hx).elim (hnames x) (hb.2 x)

theorem Within.toList {permissions : NameSet} {a : Actions} (h : a.Within permissions) :
    a.toList ≠ [] ∧
      (a.toList = ["*"] ∨ "*" ∉ a.toList ∧ ∀ name ∈ a.toList, name ∈ permissions) := by
  cases a with
  | all => exact ⟨List.cons_ne_nil _ _, .inl rfl⟩
  | only names hstar =>
    obtain ⟨⟨name, hname⟩, hnames⟩ := h
    exact ⟨List.ne_nil_of_mem hname, .inr ⟨hstar, hnames⟩⟩

theorem union_eq_all_iff {a b : Actions} : a.union b = all ↔ a = all ∨ b = all := by
  cases a <;> cases b <;> simp [union]

theorem star_mem_toList_iff {a : Actions} : "*" ∈ a.toList ↔ a = all := by
  cases a with
  | all => simp [toList]
  | only names hstar => simpa [toList, NameSet.mem_toList] using hstar

/-- The actions without a star are the names that they cover. -/
theorem mem_toList_iff_covers {a : Actions} (h : a ≠ all) {name : String} :
    name ∈ a.toList ↔ a.Covers name := by
  cases a with
  | all => exact absurd rfl h
  | only names _ => exact Iff.rfl

end Actions

/-! ### One rule more -/

/-- A rule whose class the policy has, and that names some permissions of it and no others. -/
def AccessRule.KeepsTo (policy : SystemPolicy) (rule : AccessRule) : Prop :=
  ∃ permissions, policy.permissions? rule.className = some permissions ∧
    rule.actions.Within permissions

theorem keepsTo_of_check {policy : SystemPolicy} {rule : AccessRule} {permissions : NameSet}
    (h : (Rule.access rule).check policy = .ok permissions) : rule.KeepsTo policy := by
  obtain ⟨hfound, hadmits⟩ := Rule.admits_of_check h
  refine ⟨permissions, hfound, ?_⟩
  rcases hadmits rule rfl with hall | ⟨names, hstar, honly, hsome, hnames⟩
  · rw [hall]
    trivial
  · rw [honly]
    exact ⟨NameSet.isEmpty_eq_false_iff.1 hsome, hnames⟩

/-- The first rule of a list takes up a rule with its own target, and no other. -/
theorem insertAccess_cons (rule first : AccessRule) (rest : List AccessRule) :
    (first.toAccessTarget = rule.toAccessTarget ∧ insertAccess rule (first :: rest) =
      { first with actions := first.actions.union rule.actions } :: rest) ∨
    first.toAccessTarget ≠ rule.toAccessTarget ∧
      insertAccess rule (first :: rest) = first :: insertAccess rule rest := by
  rw [insertAccess, AccessRule.merge?]
  by_cases htarget : first.toAccessTarget = rule.toAccessTarget
  · rw [if_pos htarget]
    exact .inl ⟨htarget, rfl⟩
  · rw [if_neg htarget]
    exact .inr ⟨htarget, rfl⟩

/-- A rule joins the rule with its target, or comes last. -/
theorem targets_insertAccess (rule : AccessRule) (rules : List AccessRule) :
    (insertAccess rule rules).map AccessRule.toAccessTarget =
      if rule.toAccessTarget ∈ rules.map AccessRule.toAccessTarget then
        rules.map AccessRule.toAccessTarget
      else rules.map AccessRule.toAccessTarget ++ [rule.toAccessTarget] := by
  induction rules with
  | nil => rfl
  | cons first rest ih =>
    obtain ⟨htarget, heq⟩ | ⟨hne, heq⟩ := insertAccess_cons rule first rest
    · simp [heq, htarget]
    · simp only [heq, List.map_cons, ih, List.mem_cons, hne.symm, false_or]
      split
      · rfl
      · rfl

theorem nodup_targets_insertAccess {rule : AccessRule} {rules : List AccessRule}
    (h : (rules.map AccessRule.toAccessTarget).Nodup) :
    ((insertAccess rule rules).map AccessRule.toAccessTarget).Nodup := by
  rw [targets_insertAccess]
  split
  · exact h
  · rename_i hnew
    exact List.concat_eq_append ▸ h.concat hnew

/-- What two rules have that are merged, their sum has; so it goes for a list of rules. -/
theorem forall_mem_insertAccess {P : AccessRule → Prop}
    (hunion : ∀ a b : AccessRule, a.toAccessTarget = b.toAccessTarget → P a → P b →
      P { a with actions := a.actions.union b.actions })
    {rule : AccessRule} {rules : List AccessRule} (hrule : P rule) (hrules : ∀ r ∈ rules, P r) :
    ∀ r ∈ insertAccess rule rules, P r := by
  induction rules with
  | nil => simpa [insertAccess] using hrule
  | cons first rest ih =>
    obtain ⟨hfirst, hrest⟩ := List.forall_mem_cons.1 hrules
    obtain ⟨htarget, heq⟩ | ⟨-, heq⟩ := insertAccess_cons rule first rest
    · rw [heq]
      exact List.forall_mem_cons.2 ⟨hunion first rule htarget hfirst hrule, hrest⟩
    · rw [heq]
      exact List.forall_mem_cons.2 ⟨hfirst, ih hrest⟩

/-- Merging adds up what is said of actions one by one: whether there are any, whether they are all
actions, whether they cover a permission. -/
theorem exists_mem_insertAccess {Q : Actions → Prop} (hQ : ∀ a b, Q (a.union b) ↔ Q a ∨ Q b)
    {rule : AccessRule} {rules : List AccessRule} {target : AccessTarget} :
    (∃ r ∈ insertAccess rule rules, r.toAccessTarget = target ∧ Q r.actions) ↔
      (rule.toAccessTarget = target ∧ Q rule.actions) ∨
        ∃ r ∈ rules, r.toAccessTarget = target ∧ Q r.actions := by
  induction rules with
  | nil => simp [insertAccess]
  | cons first rest ih =>
    obtain ⟨htarget, heq⟩ | ⟨-, heq⟩ := insertAccess_cons rule first rest
    · simp only [heq, List.mem_cons, or_and_right, exists_or, exists_eq_left, hQ, htarget,
        and_or_left, or_assoc, or_left_comm]
    · simp only [heq, List.mem_cons, or_and_right, exists_or, exists_eq_left, ih, or_left_comm]

theorem nodup_insertTransition {rule : TransitionRule} {rules : List TransitionRule}
    (h : rules.Nodup) : (insertTransition rule rules).Nodup := by
  unfold insertTransition
  split
  · exact h
  · rename_i hnew
    exact List.concat_eq_append ▸ h.concat hnew

/-! ### The rules of a module -/

namespace PolicyModule

/-- What the rules of a module are like: there is one access rule for each target, they keep to the
policy, and no transition rule comes twice. -/
structure Merged (policy : SystemPolicy) (m : PolicyModule) : Prop where
  targets : (m.accessRules.map AccessRule.toAccessTarget).Nodup
  kept : ∀ rule ∈ m.accessRules, rule.KeepsTo policy
  transitions : m.transitionRules.Nodup

variable {policy : SystemPolicy} {m next : PolicyModule}

theorem merged_make (policy : SystemPolicy) (name version : String) :
    Merged policy { name, version } :=
  ⟨List.nodup_nil, by simp, List.nodup_nil⟩

theorem Merged.of_sameRules (h : m.Merged policy) (hsame : SameRules m next) :
    next.Merged policy := by
  obtain ⟨-, -, haccess, htransition⟩ := hsame
  exact ⟨haccess ▸ h.targets, haccess ▸ h.kept, htransition ▸ h.transitions⟩

/-- Rules with one target are of one class, so their sum keeps to the policy as they do. -/
theorem keepsTo_union {a b : AccessRule} (htarget : a.toAccessTarget = b.toAccessTarget)
    (ha : a.KeepsTo policy) (hb : b.KeepsTo policy) :
    AccessRule.KeepsTo policy { a with actions := a.actions.union b.actions } := by
  obtain ⟨permissions, hfound, hwithin⟩ := ha
  obtain ⟨others, hothers, hwithin'⟩ := hb
  have hclass : a.className = b.className := congrArg AccessTarget.className htarget
  rw [← hclass, hfound] at hothers
  obtain rfl : permissions = others := Option.some.inj hothers
  exact ⟨permissions, hfound, hwithin.union hwithin'⟩

theorem merged_addChecked {permissions : NameSet} {rule : Rule}
    (hcheck : rule.check policy = .ok permissions) (h : m.Merged policy) :
    (m.addChecked policy permissions rule).Merged policy := by
  have haccess := accessRules_addChecked policy permissions m rule
  have htransition := transitionRules_addChecked policy permissions m rule
  -- Only the list of the rules of one kind changes.
  cases rule with
  | access rule =>
    refine ⟨?_, ?_, ?_⟩
    · rw [haccess]
      exact nodup_targets_insertAccess h.targets
    · rw [haccess]
      exact forall_mem_insertAccess (fun _ _ => keepsTo_union) (keepsTo_of_check hcheck) h.kept
    · rw [htransition]
      exact h.transitions
  | transition rule =>
    refine ⟨?_, ?_, ?_⟩
    · rw [haccess]
      exact h.targets
    · rw [haccess]
      exact h.kept
    · rw [htransition]
      exact nodup_insertTransition h.transitions

/-- A replacement changes names, and neither classes nor actions. -/
theorem merged_replaceAccesses {rules : List AccessRule} (r : Replacement)
    (h : ∀ rule ∈ rules, rule.KeepsTo policy) :
    ((replaceAccesses r rules).map AccessRule.toAccessTarget).Nodup ∧
      ∀ rule ∈ replaceAccesses r rules, rule.KeepsTo policy :=
  List.foldlRecOn (motive := fun kept : List AccessRule =>
      (kept.map AccessRule.toAccessTarget).Nodup ∧ ∀ rule ∈ kept, rule.KeepsTo policy)
    rules _ ⟨List.nodup_nil, by simp⟩ fun _ hkept rule hrule =>
      ⟨nodup_targets_insertAccess hkept.1,
        forall_mem_insertAccess (fun _ _ => keepsTo_union) (h rule hrule) hkept.2⟩

theorem merged_replaceType (r : Replacement) (h : m.Merged policy) :
    (m.replaceType r).Merged policy := by
  obtain ⟨htargets, hkept⟩ := merged_replaceAccesses r h.kept
  refine ⟨htargets, hkept, ?_⟩
  show (replaceTransitions r m.transitionRules).Nodup
  rw [replaceTransitions_eq]
  exact nodup_distinct _

theorem merged_rounds {replacements : List Replacement} (hrounds : Rounds m replacements next)
    (h : m.Merged policy) : next.Merged policy := by
  induction hrounds with
  | done m => exact h
  | step hround _ ih =>
    obtain ⟨-, rfl⟩ := hround
    exact ih (merged_replaceType _ h)

theorem merged_apply (operation : Operation) (h : m.Merged policy) :
    (m.apply policy operation).Merged policy := by
  obtain ⟨rules, rfl⟩ | rfl | ⟨-, hsame⟩ := sameRules_apply policy m operation
  · exact addUpTo_induction (P := fun m _ => m.Merged policy)
      (fun _ _ _ _ hcheck hm => merged_addChecked hcheck hm) [] h rules
  · exact merged_rounds (rounds_resolve m) h
  · exact h.of_sameRules hsame

/-- Whatever happens to a module, its rules stay merged. -/
theorem merged_run (operations : List Operation) (h : m.Merged policy) :
    (m.run policy operations).Merged policy :=
  run_induction (P := fun m _ => m.Merged policy)
    (fun operation _ _ _ hm => merged_apply operation hm) [] h

/-! ### Sums of rules -/

/-- The access rules of a module are the sums of some rules: what can be said of actions one by one
is true of the rule for a target if it is of one of the rules with that target. -/
def Sums (m : PolicyModule) (added : List Rule) : Prop :=
  ∀ Q : Actions → Prop, (∀ a b, Q (a.union b) ↔ Q a ∨ Q b) → ∀ target,
    (∃ rule ∈ m.accessRules, rule.toAccessTarget = target ∧ Q rule.actions) ↔
      ∃ rule, .access rule ∈ added ∧ rule.toAccessTarget = target ∧ Q rule.actions

theorem sums_addChecked {permissions : NameSet} {added : List Rule} (rule : Rule)
    (h : m.Sums added) : (m.addChecked policy permissions rule).Sums (added ++ [rule]) := by
  intro Q hQ target
  rw [accessRules_addChecked]
  cases rule with
  | access rule =>
    simp only [exists_mem_insertAccess hQ, h Q hQ target, List.mem_append, List.mem_singleton,
      Rule.access.injEq, or_and_right, exists_or, exists_eq_left, or_comm]
  | transition rule =>
    simp only [h Q hQ target, List.mem_append, List.mem_singleton, reduceCtorEq, or_false]

/-- Before the first resolution, the access rules of a module are the sums of the added ones. -/
theorem sums_run {operations : List Operation} (hresolve : .resolve ∉ operations)
    (h : m.Sums []) : (m.run policy operations).Sums (accepted policy operations) := by
  refine run_induction (P := Sums) (fun operation hmem m added hm => ?_) [] h
  obtain ⟨rules, rfl⟩ | rfl | ⟨hnone, hsame⟩ := sameRules_apply policy m operation
  · exact addUpTo_induction (P := Sums) (fun _ _ rule _ _ hm => sums_addChecked rule hm) added hm
      rules
  · exact absurd hmem hresolve
  · intro Q hQ target
    rw [hnone, List.append_nil, hsame.accessRules]
    exact hm Q hQ target

/-- What can be said of actions one by one is true of a rule of the module if it is true of one of
the rules that it is the sum of. -/
theorem Sums.actions_iff {added : List Rule} (h : m.Sums added)
    (htargets : (m.accessRules.map AccessRule.toAccessTarget).Nodup) {Q : Actions → Prop}
    (hQ : ∀ a b, Q (a.union b) ↔ Q a ∨ Q b) {rule : AccessRule} (hrule : rule ∈ m.accessRules) :
    Q rule.actions ↔ ∃ r, .access r ∈ added ∧ r.toAccessTarget = rule.toAccessTarget ∧
      Q r.actions := by
  rw [← h Q hQ]
  constructor
  · exact fun hq => ⟨rule, hrule, rfl, hq⟩
  · rintro ⟨other, hother, htarget, hq⟩
    rwa [← List.inj_on_of_nodup_map htargets hother hrule htarget]

/-! ### Histories -/

/-- The rules for a target among those that operations add. -/
def asked (policy : SystemPolicy) (operations : List Operation) (target : AccessTarget) :
    List AccessRule :=
  (accepted policy operations).filterMap fun
    | .access rule => if rule.toAccessTarget = target then some rule else none
    | .transition _ => none

theorem mem_asked {operations : List Operation} {target : AccessTarget} {rule : AccessRule} :
    rule ∈ asked policy operations target ↔
      .access rule ∈ accepted policy operations ∧ rule.toAccessTarget = target := by
  rw [asked, List.mem_filterMap]
  constructor
  · rintro ⟨r, hr, hsome⟩
    cases r with
    | access r =>
      dsimp only at hsome
      split at hsome
      · rename_i htarget
        cases hsome
        exact ⟨hr, htarget⟩
      · cases hsome
    | transition r => cases hsome
  · rintro ⟨hmem, htarget⟩
    exact ⟨.access rule, hmem, if_pos htarget⟩

/-- After any history, failed additions and resolutions among it, a module has one access rule for
each target, the actions of each are a star or some permissions of its class, and no transition rule
comes twice.  As long as conflicts have not been resolved, the rule for a target has a star if one
of the rules added for the target had one, and otherwise just the permissions that these named. -/
theorem rules_of_history (policy : SystemPolicy) {name version : String} {empty : PolicyModule}
    (hempty : make name version = .ok empty) (operations : List Operation) :
    let m := empty.run policy operations
    (m.accessRules.Pairwise fun a b => a.toAccessTarget ≠ b.toAccessTarget) ∧
    (∀ rule ∈ m.accessRules, ∃ permissions,
      policy.permissions? rule.className = some permissions ∧
      rule.actions.toList ≠ [] ∧ (rule.actions.toList = ["*"] ∨
        "*" ∉ rule.actions.toList ∧ ∀ name ∈ rule.actions.toList, name ∈ permissions)) ∧
    m.transitionRules.Nodup ∧
    (.resolve ∉ operations → ∀ target,
      ((∃ rule ∈ m.accessRules, rule.toAccessTarget = target) ↔
        ∃ r, r ∈ asked policy operations target) ∧
      ∀ rule ∈ m.accessRules, rule.toAccessTarget = target →
        ((∃ r ∈ asked policy operations target, "*" ∈ r.actions.toList) →
          rule.actions.toList = ["*"]) ∧
        ((∀ r ∈ asked policy operations target, "*" ∉ r.actions.toList) →
          ∀ name, name ∈ rule.actions.toList ↔
            ∃ r ∈ asked policy operations target, name ∈ r.actions.toList)) := by
  obtain rfl := eq_of_make hempty
  have hmerged : (run policy { name, version } operations).Merged policy :=
    merged_run operations ⟨List.nodup_nil, by simp, List.nodup_nil⟩
  refine ⟨List.pairwise_map.1 hmerged.targets, fun rule hrule => ?_, hmerged.transitions, ?_⟩
  · obtain ⟨permissions, hfound, hwithin⟩ := hmerged.kept rule hrule
    exact ⟨permissions, hfound, hwithin.toList⟩
  intro hresolve target
  have hsums : (run policy { name, version } operations).Sums (accepted policy operations) :=
    sums_run hresolve fun Q _ target => by simp
  simp only [mem_asked]
  refine ⟨by simpa using hsums (fun _ => True) (by simp) target, ?_⟩
  rintro rule hrule rfl
  have hall := hsums.actions_iff hmerged.targets (Q := (· = .all))
    (fun _ _ => Actions.union_eq_all_iff) hrule
  constructor
  · rintro ⟨r, ⟨hr, htarget⟩, hstar⟩
    rw [hall.2 ⟨r, hr, htarget, Actions.star_mem_toList_iff.1 hstar⟩]
    rfl
  · intro hnone permission
    have hnone : ∀ r, .access r ∈ accepted policy operations →
        r.toAccessTarget = rule.toAccessTarget → r.actions ≠ .all := fun r hr htarget heq =>
      hnone r ⟨hr, htarget⟩ (Actions.star_mem_toList_iff.2 heq)
    have hrule' : rule.actions ≠ .all := fun heq => by
      obtain ⟨r, hr, htarget, heq⟩ := hall.1 heq
      exact hnone r hr htarget heq
    -- Without a star on either side, actions are what they cover.
    rw [Actions.mem_toList_iff_covers hrule',
      hsums.actions_iff hmerged.targets (fun _ _ => Actions.covers_union) hrule]
    constructor
    · rintro ⟨r, hr, htarget, hcovers⟩
      exact ⟨r, ⟨hr, htarget⟩, (Actions.mem_toList_iff_covers (hnone r hr htarget)).2 hcovers⟩
    · rintro ⟨r, ⟨hr, htarget⟩, hname⟩
      exact ⟨r, hr, htarget, (Actions.mem_toList_iff_covers (hnone r hr htarget)).1 hname⟩

/-- A policy with one class. -/
def filesOnly : SystemPolicy where
  classes := .ofList [("file", .ofList ["open", "read"])]

/-- Rules that are merged, a rule that takes in all actions, and a rule that is refused. -/
def mixedRules : List Operation := [
  .addRules [.access (.allow "app_t" "log_t" "file" ["read"]),
    .access (.allow "app_t" "log_t" "file" ["open"])],
  .defineTypeWith "app_t" "domain",
  .addRules [.access (.allow "app_t" "key_t" "file" ["read"]),
    .access (.allow "app_t" "key_t" "file" ["*"]), .access (.allow "app_t" "log_t" "file" ["fly"]),
    .access (.allow "app_t" "log_t" "file" ["*"])]]

theorem mixedRules_rules_of_history : ∃ empty, make "demo" "1.0" = .ok empty ∧
    .resolve ∉ mixedRules ∧
    (∃ rule ∈ (empty.run filesOnly mixedRules).accessRules,
      rule.toAccessTarget = ⟨.allow, "app_t", "log_t", "file"⟩ ∧
      ∀ name, name ∈ rule.actions.toList ↔ name = "read" ∨ name = "open") ∧
    (∃ rule ∈ (empty.run filesOnly mixedRules).accessRules,
      rule.toAccessTarget = ⟨.allow, "app_t", "key_t", "file"⟩ ∧ rule.actions.toList = ["*"]) ∧
    (empty.run filesOnly (mixedRules ++ [.resolve])).transitionRules.Nodup := by
  have hempty : make "demo" "1.0" = .ok { name := "demo", version := "1.0" } := by rfl
  have hresolve : .resolve ∉ mixedRules := by simp [mixedRules]
  have hlog : asked filesOnly mixedRules ⟨.allow, "app_t", "log_t", "file"⟩ =
      [.allow "app_t" "log_t" "file" ["read"], .allow "app_t" "log_t" "file" ["open"]] := by
    decide +kernel
  have hkey : asked filesOnly mixedRules ⟨.allow, "app_t", "key_t", "file"⟩ =
      [.allow "app_t" "key_t" "file" ["read"], .allow "app_t" "key_t" "file" ["*"]] := by
    decide +kernel
  obtain ⟨-, -, -, hsums⟩ := rules_of_history filesOnly hempty mixedRules
  obtain ⟨-, -, hnodup, -⟩ := rules_of_history filesOnly hempty (mixedRules ++ [.resolve])
  refine ⟨_, hempty, hresolve, ?_, ?_, hnodup⟩
  · obtain ⟨hsome, hactions⟩ := hsums hresolve ⟨.allow, "app_t", "log_t", "file"⟩
    rw [hlog] at hsome hactions
    obtain ⟨rule, hrule, htarget⟩ := hsome.2 ⟨_, List.mem_cons_self⟩
    refine ⟨rule, hrule, htarget, fun name => ?_⟩
    rw [(hactions rule hrule htarget).2 (by decide) name]
    simp [AccessRule.allow, Actions.ofList, Actions.toList, NameSet.mem_toList]
  · obtain ⟨hsome, hactions⟩ := hsums hresolve ⟨.allow, "app_t", "key_t", "file"⟩
    rw [hkey] at hsome hactions
    obtain ⟨rule, hrule, htarget⟩ := hsome.2 ⟨_, List.mem_cons_self⟩
    exact ⟨rule, hrule, htarget, (hactions rule hrule htarget).1 (by decide)⟩

end PolicyModule

end TypeEnforcement
