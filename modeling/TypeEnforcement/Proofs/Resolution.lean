/-
The resolution of conflicts, round by round.

A round settles the first conflict of a module; resolution is rounds until none is called for.  Each
round takes one name out of the transition rules for good, and renames that name everywhere else.

* `Rounds` — rounds one after another, with their replacements;
* `renameAll` — the replacements of several rounds, as one function on names.

Main statements:
* `resolve_ends` — resolution is the longest run of rounds there is, it takes fewer rounds than
  there are names, no replaced name comes back, and nothing is left for a second resolution;
* `resolve_renames` — what is left of the rules and file contexts is their image under the
  renaming.
-/
import TypeEnforcement.Module.Conflict
import TypeEnforcement.Names.Distinct
import Mathlib.Data.List.Induction

namespace TypeEnforcement

/-! ### Lists without repetitions -/

section Distinct

variable {α β : Type} [DecidableEq α] [DecidableEq β]

theorem distinct_concat (items : List α) (x : α) :
    distinct (items ++ [x]) = if x ∈ items then distinct items else distinct items ++ [x] := by
  have h : distinct (items ++ [x]) =
      if x ∈ distinct items then distinct items else distinct items ++ [x] := by
    rw [distinct, List.foldl_append, List.foldl_cons, List.foldl_nil]
    rfl
  simpa only [mem_distinct] using h

theorem distinct_eq_self {items : List α} (h : items.Nodup) : distinct items = items := by
  -- First occurrences are kept, so the induction takes the last item off.
  induction items using List.reverseRecOn with
  | nil => rfl
  | append_singleton items x ih =>
    rw [List.nodup_append] at h
    obtain ⟨hitems, -, hx⟩ := h
    have hmem : x ∉ items := fun hm => hx x hm x (List.mem_singleton.2 rfl) rfl
    rw [distinct_concat, if_neg hmem, ih hitems]

/-- Repetitions may be dropped before or after a function is applied. -/
theorem distinct_map_distinct (f : α → β) (items : List α) :
    distinct ((distinct items).map f) = distinct (items.map f) := by
  induction items using List.reverseRecOn with
  | nil => rfl
  | append_singleton items x ih =>
    rw [distinct_concat, List.map_append, List.map_singleton, distinct_concat]
    by_cases hx : x ∈ items
    · rw [if_pos hx, if_pos (List.mem_map_of_mem hx), ih]
    · rw [if_neg hx, List.map_append, List.map_singleton, distinct_concat, ih]
      have hiff : f x ∈ (distinct items).map f ↔ f x ∈ items.map f := by
        simp only [List.mem_map, mem_distinct]
      simp only [hiff]

end Distinct

/-! ### Conflicts -/

theorem TransitionRule.ConflictsWith.symm {a b : TransitionRule} (h : a.ConflictsWith b) :
    b.ConflictsWith a := by
  obtain ⟨hs, ho, hc, hn, ht⟩ := h
  exact ⟨hs.symm, ho.symm, hc.symm, hn.symm, ht.symm⟩

theorem TransitionRule.not_conflictsWith_self (rule : TransitionRule) :
    ¬rule.ConflictsWith rule :=
  fun h => h.2.2.2.2 rfl

/-! ### One function on names -/

/-- The name that stands for a name after replacements one after another. -/
def renameAll (replacements : List Replacement) (name : String) : String :=
  replacements.foldl (fun name r => r.rename name) name

/-- The rule with a function applied to its names. -/
def TransitionRule.mapNames (f : String → String) (rule : TransitionRule) : TransitionRule :=
  { rule with subject := f rule.subject, object := f rule.object, target := f rule.target }

/-- The entry with a function applied to the type of its label. -/
def FileContext.mapType (f : String → String) (entry : FileContext) : FileContext :=
  { entry with label := { entry.label with typeName := f entry.label.typeName } }

theorem replaceTransitions_eq (r : Replacement) (rules : List TransitionRule) :
    replaceTransitions r rules = distinct (rules.map (·.mapNames r.rename)) := by
  rw [distinct, List.foldl_map]
  rfl

theorem renameType_eq (entry : FileContext) (r : Replacement) :
    entry.renameType r.source r.target = entry.mapType r.rename := by
  by_cases h : entry.label.typeName = r.source
  · simp only [FileContext.renameType, FileContext.mapType, Label.renameType,
      Replacement.rename, if_pos h]
  · simp only [FileContext.renameType, FileContext.mapType, Label.renameType,
      Replacement.rename, if_neg h]

theorem exists_mem_foldl_insertAccess {f : AccessRule → AccessRule} {rules kept : List AccessRule}
    {target : AccessTarget} {permission : String} :
    (∃ rule ∈ rules.foldl (fun kept rule => insertAccess (f rule) kept) kept,
        rule.Grants target permission) ↔
      (∃ rule ∈ kept, rule.Grants target permission) ∨
        ∃ rule ∈ rules, (f rule).Grants target permission := by
  induction rules generalizing kept with
  | nil => simp
  | cons first rest ih =>
    rw [List.foldl_cons, ih, insertAccess_grants]
    simp only [List.mem_cons, or_and_right, exists_or, exists_eq_left]
    rw [or_comm (a := (f first).Grants target permission), or_assoc]

/-- Renamed rules grant what the rules granted to names that are renamed to the ones asked for. -/
theorem AccessRule.grants_replace {r : Replacement} {rule : AccessRule} {kind : AccessKind}
    {subject object className permission : String} :
    (rule.replace r).Grants ⟨kind, subject, object, className⟩ permission ↔
      ∃ oldSubject oldObject, r.rename oldSubject = subject ∧ r.rename oldObject = object ∧
        rule.Grants ⟨kind, oldSubject, oldObject, className⟩ permission := by
  constructor
  · rintro ⟨htarget, hcovers⟩
    -- The names asked for are those of the rule, renamed.
    cases htarget
    exact ⟨rule.subject, rule.object, rfl, rfl, rfl, hcovers⟩
  · rintro ⟨oldSubject, oldObject, rfl, rfl, htarget, hcovers⟩
    refine ⟨?_, hcovers⟩
    cases rule
    cases htarget
    rfl

theorem grants_replaceType {m : PolicyModule} {r : Replacement} {kind : AccessKind}
    {subject object className permission : String} :
    (m.replaceType r).Grants ⟨kind, subject, object, className⟩ permission ↔
      ∃ oldSubject oldObject, r.rename oldSubject = subject ∧ r.rename oldObject = object ∧
        m.Grants ⟨kind, oldSubject, oldObject, className⟩ permission := by
  show (∃ rule ∈ m.accessRules.foldl (fun kept rule => insertAccess (rule.replace r) kept) [],
    rule.Grants _ permission) ↔ _
  rw [exists_mem_foldl_insertAccess]
  constructor
  · rintro (⟨_, hnil, -⟩ | ⟨rule, hrule, hgrants⟩)
    · simp at hnil
    · obtain ⟨oldSubject, oldObject, hs, ho, hold⟩ := AccessRule.grants_replace.1 hgrants
      exact ⟨oldSubject, oldObject, hs, ho, rule, hrule, hold⟩
  · rintro ⟨oldSubject, oldObject, hs, ho, rule, hrule, hold⟩
    exact .inr ⟨rule, hrule, AccessRule.grants_replace.2 ⟨oldSubject, oldObject, hs, ho, hold⟩⟩

/-! ### Rounds -/

/-- A round of resolution: the first conflict is settled by a replacement. -/
def Round (m : PolicyModule) (r : Replacement) (next : PolicyModule) : Prop :=
  firstConflict m.transitionRules = some r ∧ next = m.replaceType r

/-- Rounds one after another. -/
inductive Rounds : PolicyModule → List Replacement → PolicyModule → Prop
  | done (m : PolicyModule) : Rounds m [] m
  | step {m next last : PolicyModule} {r : Replacement} {rest : List Replacement}
      (h : Round m r next) (hs : Rounds next rest last) : Rounds m (r :: rest) last

theorem rounds_resolve (m : PolicyModule) : Rounds m m.resolve.2 m.resolve.1 := by
  fun_induction PolicyModule.resolve m with
  | case1 m h => exact .done m
  | case2 m r h resolved later heq ih =>
    -- The first conflict is the first round, and the recursive call makes the others.
    rw [heq] at ih
    exact .step ⟨h, rfl⟩ ih

namespace Round

variable {m next : PolicyModule} {r : Replacement}

/-- The two types of the replacement are different targets of the rules. -/
theorem exists_targets (h : Round m r next) :
    (∃ rule ∈ m.transitionRules, rule.target = r.source) ∧
      (∃ rule ∈ m.transitionRules, rule.target = r.target) ∧ r.source ≠ r.target := by
  obtain ⟨a, ha, b, hb, hconflict, rfl⟩ := firstConflict_eq_some h.1
  exact ⟨⟨b, hb, rfl⟩, ⟨a, ha, rfl⟩, hconflict.2.2.2.2.symm⟩

theorem source_mem (h : Round m r next) : r.source ∈ transitionNames m.transitionRules := by
  obtain ⟨⟨rule, hrule, htarget⟩, -, -⟩ := h.exists_targets
  exact mem_transitionNames.2 ⟨rule, hrule, by simp [TransitionRule.names, htarget]⟩

theorem target_mem (h : Round m r next) : r.target ∈ transitionNames m.transitionRules := by
  obtain ⟨-, ⟨rule, hrule, htarget⟩, -⟩ := h.exists_targets
  exact mem_transitionNames.2 ⟨rule, hrule, by simp [TransitionRule.names, htarget]⟩

/-- A round brings no name into the rules and takes the replaced one out. -/
theorem names (h : Round m r next) {name : String}
    (hname : name ∈ transitionNames next.transitionRules) :
    name ∈ transitionNames m.transitionRules ∧ name ≠ r.source := by
  obtain ⟨-, rfl⟩ := id h
  exact mem_transitionNames_replace h.exists_targets.2.2 h.target_mem hname

theorem nameCount_lt (h : Round m r next) :
    nameCount next.transitionRules < nameCount m.transitionRules := by
  obtain ⟨hr, rfl⟩ := h
  exact nameCount_replace_lt hr

theorem transitionRules_ne_nil (h : Round m r next) : next.transitionRules ≠ [] := by
  obtain ⟨⟨rule, hrule, -⟩, -, -⟩ := h.exists_targets
  obtain ⟨-, rfl⟩ := h
  exact List.ne_nil_of_mem (mem_replaceTransitions.2 ⟨rule, hrule, rfl⟩)

theorem resolve_eq (h : Round m r next) : m.resolve = (next.resolve.1, r :: next.resolve.2) := by
  obtain ⟨hr, rfl⟩ := h
  rw [PolicyModule.resolve]
  split
  · rename_i hnone
    rw [hr] at hnone
    exact absurd hnone (by simp)
  · rename_i r' hsome
    obtain rfl : r = r' := Option.some.inj (hr.symm.trans hsome)
    rfl

end Round

theorem resolve_eq_self {m : PolicyModule} (h : firstConflict m.transitionRules = none) :
    m.resolve = (m, []) := by
  rw [PolicyModule.resolve]
  split
  · rfl
  · rename_i r hsome
    rw [h] at hsome
    exact absurd hsome (by simp)

/-- A module that calls for no replacement stays as it is. -/
theorem resolve_of_no_replacement {m : PolicyModule} (h : m.resolve.2 = []) : m.resolve.1 = m := by
  have hrounds := rounds_resolve m
  rw [h] at hrounds
  generalize m.resolve.1 = last at hrounds ⊢
  cases hrounds
  rfl

namespace Rounds

variable {m last : PolicyModule} {replacements : List Replacement}

/-- Rounds never go on for longer than resolution does. -/
theorem isPrefix_resolve (h : Rounds m replacements last) : replacements <+: m.resolve.2 := by
  induction h with
  | done m => exact List.nil_prefix
  | step h _ ih =>
    rw [h.resolve_eq]
    exact (List.cons_prefix_cons).2 ⟨rfl, ih⟩

theorem names (h : Rounds m replacements last) {name : String}
    (hname : name ∈ transitionNames last.transitionRules) :
    name ∈ transitionNames m.transitionRules ∧ ∀ r ∈ replacements, name ≠ r.source := by
  induction h with
  | done m => exact ⟨hname, by simp⟩
  | step h _ ih =>
    obtain ⟨hnext, hrest⟩ := ih hname
    obtain ⟨hm, hne⟩ := h.names hnext
    exact ⟨hm, List.forall_mem_cons.2 ⟨hne, hrest⟩⟩

theorem replacement_mem (h : Rounds m replacements last) {r : Replacement}
    (hr : r ∈ replacements) : r.source ∈ transitionNames m.transitionRules ∧
      r.target ∈ transitionNames m.transitionRules := by
  induction h with
  | done m => simp at hr
  | step h _ ih =>
    rcases List.mem_cons.1 hr with rfl | hr
    · exact ⟨h.source_mem, h.target_mem⟩
    · obtain ⟨hs, ht⟩ := ih hr
      exact ⟨(h.names hs).1, (h.names ht).1⟩

/-- What was replaced in one round takes no part in the replacements of later rounds. -/
theorem pairwise (h : Rounds m replacements last) :
    replacements.Pairwise fun earlier later =>
      later.source ≠ earlier.source ∧ later.target ≠ earlier.source := by
  induction h with
  | done m => exact List.Pairwise.nil
  | step h hs ih =>
    refine List.pairwise_cons.2 ⟨fun later hlater => ?_, ih⟩
    obtain ⟨hsource, htarget⟩ := hs.replacement_mem hlater
    exact ⟨(h.names hsource).2, (h.names htarget).2⟩

/-- There are more names than rounds, because one name is left in the end. -/
theorem length_lt (h : Rounds m replacements last) (hm : m.transitionRules ≠ []) :
    replacements.length < nameCount m.transitionRules := by
  induction h with
  | done m =>
    -- Any rule has a name.
    obtain ⟨rule, hrule⟩ := List.exists_mem_of_ne_nil _ hm
    have hmem : rule.subject ∈ transitionNames m.transitionRules :=
      mem_transitionNames.2 ⟨rule, hrule, by simp [TransitionRule.names]⟩
    exact List.length_pos_of_mem hmem
  | step h _ ih =>
    have hrest := ih h.transitionRules_ne_nil
    have hlt := h.nameCount_lt
    rw [List.length_cons]
    omega

/-! What rounds leave behind is an image of what was there. -/

theorem transitionRules_eq (h : Rounds m replacements last) (hm : m.transitionRules.Nodup) :
    last.transitionRules =
      distinct (m.transitionRules.map (·.mapNames (renameAll replacements))) := by
  induction h with
  | done m =>
    have hid : (fun rule : TransitionRule => rule.mapNames (renameAll [])) = id := rfl
    rw [hid, List.map_id, distinct_eq_self hm]
  | @step m next last r rest h _ ih =>
    obtain ⟨-, rfl⟩ := h
    have hnext : (m.replaceType r).transitionRules =
        distinct (m.transitionRules.map (·.mapNames r.rename)) := replaceTransitions_eq r _
    -- The later rounds start from rules without repetitions again.
    rw [ih (hnext ▸ nodup_distinct _), hnext, distinct_map_distinct, List.map_map]
    rfl

theorem fileContexts_eq (h : Rounds m replacements last) :
    last.fileContexts = m.fileContexts.map (·.mapType (renameAll replacements)) := by
  induction h with
  | done m =>
    have hid : (fun entry : FileContext => entry.mapType (renameAll [])) = id := rfl
    rw [hid, List.map_id]
  | @step m next last r rest h _ ih =>
    obtain ⟨-, rfl⟩ := h
    have hnext : (m.replaceType r).fileContexts =
        m.fileContexts.map (·.mapType r.rename) :=
      List.map_congr_left fun entry _ => renameType_eq entry r
    rw [ih, hnext, List.map_map]
    rfl

theorem grants_iff (h : Rounds m replacements last) {kind : AccessKind}
    {subject object className permission : String} :
    last.Grants ⟨kind, subject, object, className⟩ permission ↔
      ∃ oldSubject oldObject, renameAll replacements oldSubject = subject ∧
        renameAll replacements oldObject = object ∧
        m.Grants ⟨kind, oldSubject, oldObject, className⟩ permission := by
  induction h with
  | done m =>
    constructor
    · exact fun h => ⟨subject, object, rfl, rfl, h⟩
    · rintro ⟨_, _, rfl, rfl, h⟩
      exact h
  | @step m next last r rest h _ ih =>
    obtain ⟨-, rfl⟩ := h
    -- Between the old names and the new ones stand those that the first round left.
    rw [ih]
    constructor
    · rintro ⟨midSubject, midObject, rfl, rfl, hgrants⟩
      obtain ⟨oldSubject, oldObject, rfl, rfl, hold⟩ := grants_replaceType.1 hgrants
      exact ⟨oldSubject, oldObject, rfl, rfl, hold⟩
    · rintro ⟨oldSubject, oldObject, rfl, rfl, hold⟩
      exact ⟨r.rename oldSubject, r.rename oldObject, rfl, rfl,
        grants_replaceType.2 ⟨oldSubject, oldObject, rfl, rfl, hold⟩⟩

end Rounds

/-! ### Resolution -/

namespace PolicyModule

theorem not_conflictsWith_of_resolve (m : PolicyModule) :
    ∀ a ∈ m.resolve.1.transitionRules, ∀ b ∈ m.resolve.1.transitionRules,
      ¬a.ConflictsWith b := by
  have hpairwise := firstConflict_eq_none_iff.1 m.firstConflict_resolve
  -- The pairs were looked at in one order only, but a conflict has no direction.
  refine List.Pairwise.forall_of_forall_of_flip (fun x _ => TransitionRule.not_conflictsWith_self x)
    hpairwise (hpairwise.imp fun h hflip => h hflip.symm)

/-- Resolution ends, and it ends well: rounds are made as long as there is a conflict, fewer of
them than there are names; no conflict is left; what was replaced is gone from the rules and from
all later replacements; and resolving once more does nothing. -/
theorem resolve_ends (m : PolicyModule) :
    Rounds m m.resolve.2 m.resolve.1 ∧
    (∀ replacements last, Rounds m replacements last → replacements <+: m.resolve.2) ∧
    (∀ a ∈ m.resolve.1.transitionRules, ∀ b ∈ m.resolve.1.transitionRules,
      ¬a.ConflictsWith b) ∧
    (m.transitionRules ≠ [] → m.resolve.2.length < nameCount m.transitionRules) ∧
    (∀ r ∈ m.resolve.2, ∀ rule ∈ m.resolve.1.transitionRules, r.source ∉ rule.names) ∧
    (m.resolve.2.Pairwise fun earlier later =>
      later.source ≠ earlier.source ∧ later.target ≠ earlier.source) ∧
    m.resolve.1.resolve = (m.resolve.1, []) := by
  have hrounds := rounds_resolve m
  refine ⟨hrounds, fun _ _ h => h.isPrefix_resolve, m.not_conflictsWith_of_resolve,
    hrounds.length_lt, fun r hr rule hrule hmem => ?_, hrounds.pairwise,
    resolve_eq_self m.firstConflict_resolve⟩
  exact (hrounds.names (mem_transitionNames.2 ⟨rule, hrule, hmem⟩)).2 r hr rfl

/-- A module in which the first round makes two rules conflict that did not conflict before. -/
def twoRounds : PolicyModule where
  name := "demo"
  version := "1.0"
  transitionRules := [
    .make "app_t" "var_t" "file" "log_t" none, .make "app_t" "var_t" "file" "run_t" none,
    .make "init_t" "log_t" "process" "one_t" none, .make "init_t" "run_t" "process" "two_t" none]
  accessRules := [.allow "app_t" "log_t" "file" ["read"], .allow "app_t" "run_t" "file" ["write"]]

theorem twoRounds_resolve :
    twoRounds.resolve.2 = [⟨"run_t", "log_t"⟩, ⟨"two_t", "one_t"⟩] := by
  decide +kernel

theorem twoRounds_ends :
    twoRounds.transitionRules ≠ [] ∧
    twoRounds.resolve.2.length < nameCount twoRounds.transitionRules ∧
    twoRounds.resolve.1.resolve.2 = [] := by
  obtain ⟨-, -, -, hlength, -, -, hagain⟩ := resolve_ends twoRounds
  have hrules : twoRounds.transitionRules ≠ [] := List.cons_ne_nil _ _
  exact ⟨hrules, hlength hrules, congrArg Prod.snd hagain⟩

/-- Resolution is one renaming of the whole module: of the transition rules, which are then kept
once each, of the labels of the file contexts, and of the accesses that are granted. -/
theorem resolve_renames (m : PolicyModule) (hm : m.transitionRules.Nodup) :
    let s := renameAll m.resolve.2
    m.resolve.1.transitionRules = distinct (m.transitionRules.map (·.mapNames s)) ∧
    m.resolve.1.fileContexts = m.fileContexts.map (·.mapType s) ∧
    ∀ kind subject object className permission,
      (∃ rule ∈ m.resolve.1.accessRules,
        rule.Grants ⟨kind, subject, object, className⟩ permission) ↔
      ∃ oldSubject oldObject, s oldSubject = subject ∧ s oldObject = object ∧
        ∃ rule ∈ m.accessRules,
          rule.Grants ⟨kind, oldSubject, oldObject, className⟩ permission := by
  have hrounds := rounds_resolve m
  exact ⟨hrounds.transitionRules_eq hm, hrounds.fileContexts_eq, fun _ _ _ _ _ =>
    hrounds.grants_iff⟩

theorem twoRounds_renames :
    twoRounds.transitionRules.Nodup ∧
    twoRounds.resolve.1.transitionRules = [
      .make "app_t" "var_t" "file" "log_t" none, .make "init_t" "log_t" "process" "one_t" none] ∧
    ∃ rule ∈ twoRounds.resolve.1.accessRules,
      rule.Grants ⟨.allow, "app_t", "log_t", "file"⟩ "write" := by
  have hm : twoRounds.transitionRules.Nodup := by decide
  obtain ⟨hrules, -, hgrants⟩ := resolve_renames twoRounds hm
  rw [twoRounds_resolve] at hrules hgrants
  refine ⟨hm, hrules.trans (by decide), (hgrants _ _ _ _ _).2 ⟨"app_t", "run_t", ?_⟩⟩
  exact ⟨by decide, by decide, .allow "app_t" "run_t" "file" ["write"], by decide, rfl, by decide⟩

end PolicyModule

end TypeEnforcement
