/-
What is left of the types that a resolution discards.

The replacements of a resolution make one renaming.  Rules and labels are renamed by it; the
permissive domains and the types of roles are not.

* `PolicyModule.RefersTo` — the types that the rules and the labels of a module mention;
* `AccessTarget.mapNames` — the target of an access rule with its names replaced.

Main statements:
* `Rounds.renameAll_ne_source`, `Rounds.renameAll_source` — the renaming takes no name to a
  discarded type, and a discarded type to what its replacement ends as;
* `discards_of_history` — which references to discarded types a resolution takes out of a module;
* `mergedDomains_left` — a discarded domain is still permissive, and still has its role.
-/
import TypeEnforcement.Proofs.References

namespace TypeEnforcement

/-! ### One round on a name -/

theorem Replacement.rename_source (r : Replacement) : r.rename r.source = r.target :=
  if_pos rfl

theorem Replacement.rename_of_ne {r : Replacement} {name : String} (h : name ≠ r.source) :
    r.rename name = name :=
  if_neg h

theorem Replacement.rename_ne {r : Replacement} {name other : String} (hname : name ≠ other)
    (htarget : r.target ≠ other) : r.rename name ≠ other := by
  unfold Replacement.rename
  split
  · exact htarget
  · exact hname

/-! ### All rounds on a name -/

theorem renameAll_cons (r : Replacement) (rest : List Replacement) (name : String) :
    renameAll (r :: rest) name = renameAll rest (r.rename name) := rfl

/-- A name that is not discarded stays. -/
theorem renameAll_eq_self {replacements : List Replacement} {name : String}
    (h : ∀ r ∈ replacements, name ≠ r.source) : renameAll replacements name = name := by
  induction replacements with
  | nil => rfl
  | cons r rest ih =>
    obtain ⟨hr, hrest⟩ := List.forall_mem_cons.1 h
    rw [renameAll_cons, Replacement.rename_of_ne hr, ih hrest]

/-- A name that no replacement brings does not come up. -/
theorem renameAll_ne {replacements : List Replacement} {name other : String} (hname : name ≠ other)
    (h : ∀ r ∈ replacements, r.target ≠ other) : renameAll replacements name ≠ other := by
  induction replacements generalizing name with
  | nil => exact hname
  | cons r rest ih =>
    obtain ⟨hr, hrest⟩ := List.forall_mem_cons.1 h
    exact ih (Replacement.rename_ne hname hr) hrest

namespace Rounds

variable {m last : PolicyModule} {replacements : List Replacement}

theorem source_ne_target (h : Rounds m replacements last) {r : Replacement}
    (hr : r ∈ replacements) : r.source ≠ r.target := by
  induction h with
  | done m => cases hr
  | step hround _ ih =>
    rcases List.mem_cons.1 hr with rfl | hr
    · exact hround.exists_targets.2.2
    · exact ih hr

/-- No name becomes a discarded type. -/
theorem renameAll_ne_source (h : Rounds m replacements last) {r : Replacement}
    (hr : r ∈ replacements) (name : String) : renameAll replacements name ≠ r.source := by
  induction h generalizing name with
  | done m => cases hr
  | @step m next last first rest hround hs ih =>
    rcases List.mem_cons.1 hr with rfl | hr
    · -- Its own round takes the type out, and later rounds do not bring it back.
      have hpairwise := (List.pairwise_cons.1 (Rounds.step hround hs).pairwise).1
      have htarget : r.target ≠ r.source := (hround.exists_targets.2.2).symm
      have hfirst : r.rename name ≠ r.source := by
        by_cases hname : name = r.source
        · rw [hname, r.rename_source]
          exact htarget
        · exact Replacement.rename_ne hname htarget
      rw [renameAll_cons]
      exact renameAll_ne hfirst fun later hlater => (hpairwise later hlater).2
    · exact ih hr (first.rename name)

/-- A discarded type becomes what the type in its place becomes. -/
theorem renameAll_source (h : Rounds m replacements last) {r : Replacement}
    (hr : r ∈ replacements) :
    renameAll replacements r.source = renameAll replacements r.target := by
  induction h with
  | done m => cases hr
  | @step m next last first rest hround hs ih =>
    rcases List.mem_cons.1 hr with rfl | hr
    · have htarget : r.target ≠ r.source := (hround.exists_targets.2.2).symm
      rw [renameAll_cons, renameAll_cons, r.rename_source, Replacement.rename_of_ne htarget]
    · -- Neither type of a later replacement is touched by the first round.
      obtain ⟨hsource, htarget⟩ :=
        (List.pairwise_cons.1 (Rounds.step hround hs).pairwise).1 r hr
      rw [renameAll_cons, renameAll_cons, Replacement.rename_of_ne hsource,
        Replacement.rename_of_ne htarget, ih hr]

end Rounds

/-! ### Access rules -/

/-- The target of an access rule with a function applied to its names. -/
def AccessTarget.mapNames (f : String → String) (target : AccessTarget) : AccessTarget :=
  { target with subject := f target.subject, object := f target.object }

/-- Rules that are merged one after another have the targets of all of them, once each. -/
theorem targets_foldl_insertAccess (f : AccessRule → AccessRule) (rules kept : List AccessRule) :
    (rules.foldl (fun kept rule => insertAccess (f rule) kept) kept).map
        AccessRule.toAccessTarget =
      (rules.map fun rule => (f rule).toAccessTarget).foldl
        (fun seen target => if target ∈ seen then seen else seen ++ [target])
        (kept.map AccessRule.toAccessTarget) := by
  induction rules generalizing kept with
  | nil => rfl
  | cons rule rest ih => rw [List.foldl_cons, ih, targets_insertAccess, List.map_cons,
      List.foldl_cons]

theorem targets_replaceAccesses (r : Replacement) (rules : List AccessRule) :
    (replaceAccesses r rules).map AccessRule.toAccessTarget =
      distinct ((rules.map AccessRule.toAccessTarget).map (·.mapNames r.rename)) := by
  rw [replaceAccesses, targets_foldl_insertAccess (AccessRule.replace r), distinct, List.map_map]
  rfl

namespace Rounds

variable {m last : PolicyModule} {replacements : List Replacement}

theorem targets_eq (h : Rounds m replacements last)
    (hm : (m.accessRules.map AccessRule.toAccessTarget).Nodup) :
    last.accessRules.map AccessRule.toAccessTarget =
      distinct ((m.accessRules.map AccessRule.toAccessTarget).map
        (·.mapNames (renameAll replacements))) := by
  induction h with
  | done m =>
    have hid : (fun target : AccessTarget => target.mapNames (renameAll [])) = id := rfl
    rw [hid, List.map_id, distinct_eq_self hm]
  | @step m next last r rest h _ ih =>
    obtain ⟨-, rfl⟩ := h
    have hnext : (m.replaceType r).accessRules.map AccessRule.toAccessTarget =
        distinct ((m.accessRules.map AccessRule.toAccessTarget).map (·.mapNames r.rename)) :=
      targets_replaceAccesses r _
    rw [ih (hnext ▸ nodup_distinct _), hnext, distinct_map_distinct, List.map_map]
    rfl

/-- The accesses that are granted are renamed with their targets. -/
theorem grants_mapNames_iff (h : Rounds m replacements last) {target : AccessTarget}
    {permission : String} :
    last.Grants target permission ↔
      ∃ old, old.mapNames (renameAll replacements) = target ∧ m.Grants old permission := by
  obtain ⟨kind, subject, object, className⟩ := target
  refine h.grants_iff.trans ⟨?_, ?_⟩
  · rintro ⟨oldSubject, oldObject, rfl, rfl, hgrants⟩
    exact ⟨_, rfl, hgrants⟩
  · rintro ⟨old, heq, hgrants⟩
    cases heq
    exact ⟨old.subject, old.object, rfl, rfl, hgrants⟩

end Rounds

/-! ### References -/

namespace PolicyModule

/-- A module mentions a type in a rule or in the label of a file context. -/
def RefersTo (m : PolicyModule) (name : String) : Prop :=
  (∃ rule ∈ m.accessRules, name = rule.subject ∨ name = rule.object) ∨
    (∃ rule ∈ m.transitionRules, name ∈ rule.names) ∨
      ∃ entry ∈ m.fileContexts, name = entry.label.typeName

/-- What a resolution leaves in rules and labels is the image of something. -/
theorem exists_of_refersTo_resolve {m : PolicyModule} (hm : m.transitionRules.Nodup)
    (htargets : (m.accessRules.map AccessRule.toAccessTarget).Nodup) {name : String}
    (h : m.resolve.1.RefersTo name) : ∃ old, renameAll m.resolve.2 old = name := by
  have hrounds := rounds_resolve m
  rcases h with ⟨rule, hrule, hname⟩ | ⟨rule, hrule, hname⟩ | ⟨entry, hentry, rfl⟩
  · -- The targets of the access rules are the images of targets.
    have hmem : rule.toAccessTarget ∈ m.resolve.1.accessRules.map AccessRule.toAccessTarget :=
      List.mem_map_of_mem hrule
    rw [hrounds.targets_eq htargets, mem_distinct] at hmem
    obtain ⟨old, -, hold⟩ := List.mem_map.1 hmem
    obtain rfl | rfl := hname
    · exact ⟨old.subject, congrArg AccessTarget.subject hold⟩
    · exact ⟨old.object, congrArg AccessTarget.object hold⟩
  · rw [hrounds.transitionRules_eq hm, mem_distinct] at hrule
    obtain ⟨old, -, rfl⟩ := List.mem_map.1 hrule
    have hnames : (old.mapNames (renameAll m.resolve.2)).names =
        old.names.map (renameAll m.resolve.2) := rfl
    rw [hnames] at hname
    obtain ⟨before, -, hbefore⟩ := List.mem_map.1 hname
    exact ⟨before, hbefore⟩
  · rw [hrounds.fileContexts_eq] at hentry
    obtain ⟨old, -, rfl⟩ := List.mem_map.1 hentry
    exact ⟨old.label.typeName, rfl⟩

/-- What a resolution discards after whatever history.  Its replacements make a renaming that
follows them to their end: no name becomes a discarded type, a discarded type becomes what stands in
its place in the end, and all other names stay.  Rules and file contexts are renamed and lose every
reference to a discarded type.  Permissive domains and definitions stay as they are, discarded types
among them. -/
theorem discards_of_history (policy : SystemPolicy) {name version : String} {empty : PolicyModule}
    (hempty : make name version = .ok empty) (operations : List Operation) :
    let m := empty.run policy operations
    let last := m.resolve.1
    let s := renameAll m.resolve.2
    (∀ r ∈ m.resolve.2, s r.source = s r.target ∧ ∀ old, s old ≠ r.source) ∧
    (∀ old, (∀ r ∈ m.resolve.2, old ≠ r.source) → s old = old) ∧
    last.transitionRules = distinct (m.transitionRules.map (·.mapNames s)) ∧
    last.accessRules.map AccessRule.toAccessTarget =
      distinct ((m.accessRules.map AccessRule.toAccessTarget).map (·.mapNames s)) ∧
    (∀ target permission, last.Grants target permission ↔
      ∃ old, old.mapNames s = target ∧ m.Grants old permission) ∧
    last.fileContexts = m.fileContexts.map (·.mapType s) ∧
    (∀ r ∈ m.resolve.2, ¬last.RefersTo r.source) ∧
    last.permissive = m.permissive ∧ last.definitions = m.definitions := by
  intro m last s
  have hrounds : Rounds m m.resolve.2 last := rounds_resolve m
  have hmerged : m.Merged policy := by
    obtain rfl := eq_of_make hempty
    exact merged_run operations (merged_make policy name version)
  obtain ⟨-, hdefinitions, hpermissive⟩ := requirements_rounds hrounds
  have hgone : ∀ r ∈ m.resolve.2, ∀ old, s old ≠ r.source :=
    fun _ hr => hrounds.renameAll_ne_source hr
  refine ⟨fun r hr => ⟨hrounds.renameAll_source hr, hgone r hr⟩, fun _ => renameAll_eq_self,
    hrounds.transitionRules_eq hmerged.transitions, hrounds.targets_eq hmerged.targets,
    fun _ _ => hrounds.grants_mapNames_iff, hrounds.fileContexts_eq, fun r hr href => ?_,
    hpermissive, hdefinitions⟩
  obtain ⟨old, hold⟩ := exists_of_refersTo_resolve hmerged.transitions hmerged.targets href
  exact hgone r hr old hold

/-- A policy with the class of processes. -/
def processesOnly : SystemPolicy where
  classes := .ofList [("process", .ofList ["transition"])]

/-- Executing a file leads into two domains, of which the later one is permissive. -/
def mergedDomains : List Operation := [
  .addRules [.transition (.make "init_t" "bin_t" "process" "one_t" none),
    .transition (.make "init_t" "bin_t" "process" "two_t" none),
    .access (.allow "init_t" "two_t" "process" ["transition"])],
  .defineTypeWith "one_t" "domain", .defineTypeWith "two_t" "domain",
  .defineRoleType "system_r" "two_t", .addPermissive "two_t"]

theorem mergedDomains_discards_of_history : ∃ empty, make "demo" "1.0" = .ok empty ∧
    let m := empty.run processesOnly mergedDomains
    renameAll m.resolve.2 "two_t" = renameAll m.resolve.2 "one_t" ∧
    m.resolve.1.Grants ⟨.allow, "init_t", "one_t", "process"⟩ "transition" ∧
    ¬m.resolve.1.RefersTo "two_t" ∧ m.resolve.1.permissive = m.permissive := by
  have hempty : make "demo" "1.0" = .ok { name := "demo", version := "1.0" } := by rfl
  have hreplacements : (PolicyModule.run processesOnly { name := "demo", version := "1.0" }
      mergedDomains).resolve.2 = [⟨"two_t", "one_t"⟩] := by decide +kernel
  have hgrants : (PolicyModule.run processesOnly { name := "demo", version := "1.0" }
      mergedDomains).accessRules = [.allow "init_t" "two_t" "process" ["transition"]] := by
    decide +kernel
  obtain ⟨hdiscarded, -, -, -, haccess, -, hgone, hpermissive, -⟩ :=
    discards_of_history processesOnly hempty mergedDomains
  rw [hreplacements] at hdiscarded hgone haccess
  have hmem := List.mem_singleton_self (⟨"two_t", "one_t"⟩ : Replacement)
  refine ⟨_, hempty, ?_, ?_, hgone _ hmem, hpermissive⟩
  · rw [hreplacements]
    exact (hdiscarded _ hmem).1
  · refine (haccess _ _).2 ⟨⟨.allow, "init_t", "two_t", "process"⟩, by decide, ?_⟩
    rw [PolicyModule.Grants, hgrants]
    exact ⟨_, List.mem_singleton_self _, rfl, by decide⟩

/-- The discarded domain is permissive and has its role, the one in its place has neither. -/
theorem mergedDomains_left : ∃ empty, make "demo" "1.0" = .ok empty ∧
    let m := empty.run processesOnly mergedDomains
    m.resolve.2 = [⟨"two_t", "one_t"⟩] ∧ m.resolve.1.permissive = ["two_t"] ∧
    m.resolve.1.definitions.roles = .ofList [("system_r", .ofList ["two_t"])] := by
  have hempty : make "demo" "1.0" = .ok { name := "demo", version := "1.0" } := by rfl
  refine ⟨_, hempty, ?_⟩
  decide +kernel

end PolicyModule

end TypeEnforcement
