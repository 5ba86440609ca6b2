/-
What a catalog looks like once the entries at its end are masked.

A mask makes the foremost entry that has a pattern unable to label anything.  Entries that were
declared last are the foremost of those with their patterns, so if their patterns differ, and no
tier that is searched earlier has them, then masking the patterns masks these entries and no others.
What is left answers like the catalog without them.

Main statements:
* `find?_eq_some_iff` — a search finds the foremost entry and nothing else;
* `find?_of_append` — entries that do not match have no part in a search;
* `maskAll_appended` — which entries are masked;
* `exists_maskAll_eq` — a catalog with more entries, after their patterns are masked.
-/
import TypeEnforcement.Allocation
import TypeEnforcement.Proofs.Lookup

namespace TypeEnforcement

/-! ### Searches of a tier -/

namespace TierEntries

variable {tier : TierEntries} {p : FileContext → Bool} {place : Nat} {entry : FileContext}

theorem find?_eq_some_iff (h : tier.WellOrdered) :
    tier.find? p = some (place, entry) ↔ tier.Foremost (p · = true) place entry := by
  refine ⟨foremost_of_find? h, fun hforemost => ?_⟩
  have ⟨hentry, hp, _⟩ := hforemost
  cases hfind : tier.find? p with
  | none => exact absurd hp ((find?_eq_none_iff h).1 hfind entry (Array.mem_of_getElem? hentry))
  | some found =>
    obtain ⟨hplace, hsame⟩ := hforemost.unique (foremost_of_find? h hfind)
    rw [← hplace, ← hsame]

/-- Entries that do not match have no part in a search. -/
theorem find?_of_append {whole : TierEntries} (h : tier.WellOrdered) (hwhole : whole.WellOrdered)
    {more : List FileContext} (hentries : whole.entries.toList = tier.entries.toList ++ more)
    (hmore : ∀ entry ∈ more, ¬p entry = true) : whole.find? p = tier.find? p := by
  -- An entry that matches stands at the same place in both tiers.
  have hsame {i : Nat} {x : FileContext} (hp : p x = true) :
      whole.entries[i]? = some x ↔ tier.entries[i]? = some x := by
    rw [← Array.getElem?_toList, ← Array.getElem?_toList, hentries]
    constructor
    · intro hx
      by_cases hi : i < tier.entries.toList.length
      · rwa [List.getElem?_append_left hi] at hx
      · rw [List.getElem?_append_right (Nat.le_of_not_lt hi)] at hx
        exact absurd hp (hmore x (List.mem_of_getElem? hx))
    · intro hx
      rw [List.getElem?_append_left (List.getElem?_eq_some_iff.1 hx).1, hx]
  have hforemost (i : Nat) (x : FileContext) :
      whole.Foremost (p · = true) i x ↔ tier.Foremost (p · = true) i x := by
    constructor
    · rintro ⟨hx, hp, hfirst⟩
      exact ⟨(hsame hp).1 hx, hp, fun j other hother hpother =>
        hfirst j other ((hsame hpother).2 hother) hpother⟩
    · rintro ⟨hx, hp, hfirst⟩
      exact ⟨(hsame hp).2 hx, hp, fun j other hother hpother =>
        hfirst j other ((hsame hpother).1 hother) hpother⟩
  refine Option.ext fun found => ?_
  rw [find?_eq_some_iff hwhole, find?_eq_some_iff h]
  exact hforemost found.1 found.2

/-- The last entry that has a pattern is the foremost one. -/
theorem find?_pattern_eq (h : tier.WellOrdered) {front back : List FileContext}
    (hentries : tier.entries.toList = front ++ entry :: back)
    (hback : ∀ other ∈ back, other.pattern ≠ entry.pattern) :
    tier.find? (·.pattern = entry.pattern) = some (front.length, entry) := by
  rw [find?_eq_some_iff h]
  refine ⟨?_, decide_eq_true rfl, fun j other hother hpattern hne => ?_⟩
  · rw [← Array.getElem?_toList, hentries]
    simp
  · have hpattern : other.pattern = entry.pattern := of_decide_eq_true hpattern
    have hlt : j < front.length := by
      rw [← Array.getElem?_toList, hentries] at hother
      refine Nat.lt_of_le_of_ne (Nat.le_of_not_lt fun hlt => ?_) hne
      obtain ⟨k, rfl⟩ := Nat.exists_eq_add_of_lt hlt
      have hmem : back[k]? = some other := by
        rwa [List.getElem?_append_right (by omega), show front.length + k + 1 - front.length = k + 1
          by omega, List.getElem?_cons_succ] at hother
      exact hback other (List.mem_of_getElem? hmem) hpattern
    -- Equal patterns have equal keys, so only the places count.
    exact .inr (.inr ⟨FileContext.isWildcard_of_pattern_eq hpattern.symm,
      fun _ => FileContext.literalSize_of_pattern_eq hpattern.symm, hlt⟩)

theorem toList_modify_eq (tier : TierEntries) {front back : List FileContext}
    (hentries : tier.entries.toList = front ++ entry :: back) (f : FileContext → FileContext) :
    (tier.modify front.length f).entries.toList = front ++ f entry :: back := by
  have hmodify (front : List FileContext) :
      (front ++ entry :: back).modify front.length f = front ++ f entry :: back := by
    induction front with
    | nil => rfl
    | cons x front ih => exact congrArg (x :: ·) ih
  rw [modify, Array.toList_modify, hentries, hmodify]

end TierEntries

/-! ### Masks -/

namespace Catalog

open Allocation (maskAll)

variable {catalog : Catalog}

/-- A mask hits the tier of the system if no other tier has the pattern. -/
theorem mask_eq {pattern : String} {place : Nat} {entry : FileContext}
    (hothers : ∀ t ≠ .system, (catalog.tier t).find? (·.pattern = pattern) = none)
    (hfind : catalog.system.find? (·.pattern = pattern) = some (place, entry)) :
    catalog.mask pattern =
      { catalog with system := catalog.system.modify place FileContext.mask } := by
  have hallocated := hothers .allocated (by decide)
  have hcustom := hothers .custom (by decide)
  have hhomes := hothers .homes (by decide)
  simp only [tier] at hallocated hcustom hhomes
  simp [mask, entryOf?, search, Tier.searchOrder, tier, hallocated, hcustom, hhomes, hfind, setTier]

/-- Masking the patterns of the last entries masks these entries, if the patterns differ and no tier
that is searched earlier has them. -/
theorem maskAll_appended {front entries : List FileContext} (h : ∀ t, (catalog.tier t).WellOrdered)
    (hentries : catalog.system.entries.toList = front ++ entries)
    (hnodup : (entries.map FileContext.pattern).Nodup)
    (hothers : ∀ t ≠ .system, ∀ other ∈ (catalog.tier t).entries,
      other.pattern ∉ entries.map FileContext.pattern) :
    ∃ system : TierEntries, system.WellOrdered ∧
      system.entries.toList = front ++ entries.map FileContext.mask ∧
      maskAll catalog (entries.map FileContext.pattern) = { catalog with system } := by
  induction entries generalizing catalog front with
  | nil => exact ⟨catalog.system, h .system, hentries, rfl⟩
  | cons entry rest ih =>
    obtain ⟨hentry, hrest⟩ := List.nodup_cons.1 hnodup
    -- The patterns differ, so the first of the entries is the one that is found by its pattern.
    have hfind : catalog.system.find? (·.pattern = entry.pattern) = some (front.length, entry) :=
      TierEntries.find?_pattern_eq (h .system) hentries fun other hother heq =>
        hentry (heq ▸ List.mem_map_of_mem hother)
    have hmask := mask_eq (fun t ht => (TierEntries.find?_eq_none_iff (h t)).2
      fun other hother heq => hothers t ht other hother
        (of_decide_eq_true heq ▸ List.mem_cons_self)) hfind
    have hnext : ∀ t, ((catalog.mask entry.pattern).tier t).WellOrdered :=
      wellOrdered_apply h (.mask entry.pattern)
    have hsystem : (catalog.mask entry.pattern).system.entries.toList =
        (front ++ [entry.mask]) ++ rest := by
      rw [hmask, TierEntries.toList_modify_eq _ hentries, List.append_assoc]
      rfl
    have htiers (t : Tier) (ht : t ≠ .system) :
        (catalog.mask entry.pattern).tier t = catalog.tier t := by
      rw [hmask]
      cases t with
      | system => exact absurd rfl ht
      | _ => rfl
    obtain ⟨system, hordered, hlast, hall⟩ := ih hnext hsystem hrest fun t ht other hother hmem =>
      hothers t ht other (htiers t ht ▸ hother) (List.mem_cons_of_mem _ hmem)
    refine ⟨system, hordered, ?_, ?_⟩
    · rw [hlast, List.append_assoc]
      rfl
    · rw [List.map_cons, maskAll, List.foldl_cons, ← maskAll, hall, hmask]

/-- A catalog with more entries at the end of its system tier, whose patterns are masked, answers
like the catalog without them. -/
theorem exists_maskAll_eq (policy : SystemPolicy) (system : List FileContext)
    {homes custom entries : List FileContext}
    (hnodup : (entries.map FileContext.pattern).Nodup)
    (hothers : ∀ other ∈ homes ++ custom, other.pattern ∉ entries.map FileContext.pattern) :
    ∃ masked : TierEntries,
      maskAll (make policy (system ++ entries) homes custom) (entries.map FileContext.pattern) =
        { make policy system homes custom with system := masked } ∧
      ∀ path fileClass, masked.find? (·.covers path fileClass) =
        (TierEntries.ofList system).find? (·.covers path fileClass) := by
  have hordered := wellOrdered_make policy (system ++ entries) homes custom
  obtain ⟨hhomes, hcustom⟩ := List.forall_mem_append.1 hothers
  have hapart : ∀ t ≠ .system,
      ∀ other ∈ ((make policy (system ++ entries) homes custom).tier t).entries,
        other.pattern ∉ entries.map FileContext.pattern := by
    intro t ht other hother
    cases t with
    | allocated => cases Array.not_mem_empty other hother
    | custom => exact hcustom other (List.mem_toArray.1 hother)
    | homes => exact hhomes other (List.mem_toArray.1 hother)
    | system => exact absurd rfl ht
  obtain ⟨masked, hmasked, hlist, hall⟩ := maskAll_appended hordered rfl hnodup hapart
  refine ⟨masked, hall, fun path fileClass => ?_⟩
  refine TierEntries.find?_of_append (wellOrdered_make policy system homes custom .system) hmasked
    hlist ?_
  intro other hother
  obtain ⟨entry, -, rfl⟩ := List.mem_map.1 hother
  rw [FileContext.covers_mask]
  exact Bool.false_ne_true

end Catalog

end TypeEnforcement
