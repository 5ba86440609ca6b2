/-
What is left of patterns that are masked.

A mask hits the first entry in the order of search that has the pattern, and no other: further
entries with the pattern keep answering, and masking the pattern again hits the first entry again.
So a lookup is answered as if all entries with masked patterns were gone, as long as each of these
patterns occurs once.

* `Catalog.placeOf?`, `Catalog.Hits` — where masks hit;
* `Catalog.OccursOnce` — one entry of the catalog has a pattern.

Main statements:
* `getElem?_maskAll` — the entries that are hit are masked, and the others stay as they are;
* `maskAll_maskAll` — masking patterns again changes nothing;
* `lookup_maskAll` — what lookups answer after patterns are masked.
-/
import TypeEnforcement.Proofs.EarlierLabels

namespace TypeEnforcement

namespace TierEntries

/-- The place that the search for a pattern ends at depends on the patterns of the tier only. -/
theorem map_fst_find?_pattern (tier : TierEntries) (pattern : String) :
    (tier.find? (·.pattern = pattern)).map Prod.fst = tier.order.findSome? fun place =>
      if tier.entries[place]?.map FileContext.pattern = some pattern then some place else none := by
  rw [find?, List.map_findSome?]
  congr 1
  funext place
  cases hentry : tier.entries[place]? with
  | none => simp [hentry]
  | some entry =>
    by_cases hpattern : entry.pattern = pattern <;> simp [hentry, hpattern]

theorem getElem?_modify_mask (tier : TierEntries) (hit place : Nat) :
    (tier.modify hit FileContext.mask).entries[place]? =
      tier.entries[place]?.map fun entry => if hit = place then entry.mask else entry := by
  rw [modify, Array.getElem?_modify]
  split
  · rfl
  · simp

end TierEntries

namespace Catalog

open Allocation (maskAll wellOrdered_maskAll)

variable {catalog : Catalog} {pattern : String} {patterns : List String} {t : Tier} {place : Nat}
  {entry : FileContext}

/-- The place of the first entry in the order of search that has a pattern. -/
def placeOf? (catalog : Catalog) (pattern : String) : Option (Tier × Nat) :=
  (catalog.entryOf? pattern).map fun (t, place, _) => (t, place)

theorem placeOf?_eq (catalog : Catalog) (pattern : String) :
    catalog.placeOf? pattern = Tier.searchOrder.findSome? fun t =>
      (((catalog.tier t).find? (·.pattern = pattern)).map Prod.fst).map (t, ·) := by
  rw [placeOf?, entryOf?, search, List.map_findSome?]
  congr 1
  funext t
  rw [Function.comp_apply]
  cases (catalog.tier t).find? (·.pattern = pattern) <;> rfl

/-- The first entry that has a pattern stands at its place. -/
theorem exists_of_placeOf? (h : catalog.placeOf? pattern = some (t, place)) :
    ∃ entry, catalog.entryOf? pattern = some (t, place, entry) ∧
      (catalog.tier t).entries[place]? = some entry ∧ entry.pattern = pattern := by
  obtain ⟨⟨t', place', entry⟩, hfound, heq⟩ := Option.map_eq_some_iff.1 h
  cases heq
  obtain ⟨hentry, hpattern⟩ := mem_of_search hfound
  exact ⟨entry, hfound, hentry, of_decide_eq_true hpattern⟩

theorem order_mask (catalog : Catalog) (pattern : String) (t : Tier) :
    ((catalog.mask pattern).tier t).order = (catalog.tier t).order := by
  unfold mask
  split
  · rfl
  · rw [tier_setTier]
    split
    · rename_i h
      rw [h]
      rfl
    · rfl

/-- A mask changes the entry that it hits and leaves all others as they are. -/
theorem getElem?_mask (catalog : Catalog) (pattern : String) (t : Tier) (place : Nat) :
    ((catalog.mask pattern).tier t).entries[place]? =
      (catalog.tier t).entries[place]?.map fun entry =>
        if catalog.placeOf? pattern = some (t, place) then entry.mask else entry := by
  cases hfound : catalog.entryOf? pattern with
  | none => simp [mask, placeOf?, hfound]
  | some found =>
    obtain ⟨hit, spot, first⟩ := found
    have hmask : catalog.mask pattern =
        catalog.setTier hit ((catalog.tier hit).modify spot FileContext.mask) := by
      rw [mask, hfound]
    have hplace : catalog.placeOf? pattern = some (t, place) ↔ hit = t ∧ spot = place := by
      simp [placeOf?, hfound]
    rw [hmask, tier_setTier]
    by_cases htier : t = hit
    · subst htier
      rw [if_pos rfl, TierEntries.getElem?_modify_mask]
      simp [hplace]
    · rw [if_neg htier]
      simp [hplace, Ne.symm htier]

/-- Where a mask hits does not depend on what was masked before. -/
theorem placeOf?_mask (catalog : Catalog) (other pattern : String) :
    (catalog.mask other).placeOf? pattern = catalog.placeOf? pattern := by
  have hpattern (t : Tier) (place : Nat) :
      ((catalog.mask other).tier t).entries[place]?.map FileContext.pattern =
        (catalog.tier t).entries[place]?.map FileContext.pattern := by
    rw [getElem?_mask, Option.map_map]
    congr 1
    funext entry
    rw [Function.comp_apply]
    split <;> rfl
  simp only [placeOf?_eq, TierEntries.map_fst_find?_pattern, order_mask, hpattern]

/-- The entry at a place is the first one that has one of the patterns. -/
def Hits (catalog : Catalog) (patterns : List String) (t : Tier) (place : Nat) : Prop :=
  ∃ pattern ∈ patterns, catalog.placeOf? pattern = some (t, place)

instance (catalog : Catalog) (patterns : List String) (t : Tier) (place : Nat) :
    Decidable (catalog.Hits patterns t place) :=
  inferInstanceAs (Decidable (∃ pattern ∈ patterns, _))

/-- Masks change the entries that they hit and leave all others as they are. -/
theorem getElem?_maskAll (catalog : Catalog) (patterns : List String) (t : Tier) (place : Nat) :
    ((maskAll catalog patterns).tier t).entries[place]? =
      (catalog.tier t).entries[place]?.map fun entry =>
        if catalog.Hits patterns t place then entry.mask else entry := by
  induction patterns generalizing catalog with
  | nil => simp [maskAll, Hits]
  | cons pattern rest ih =>
    have hrest : (catalog.mask pattern).Hits rest t place ↔ catalog.Hits rest t place := by
      simp only [Hits, placeOf?_mask]
    have hall : catalog.Hits (pattern :: rest) t place ↔
        catalog.placeOf? pattern = some (t, place) ∨ catalog.Hits rest t place := by
      simp [Hits]
    show ((maskAll (catalog.mask pattern) rest).tier t).entries[place]? = _
    rw [ih, getElem?_mask, Option.map_map]
    congr 1
    funext entry
    simp only [Function.comp_apply, hrest, hall]
    by_cases hfirst : catalog.placeOf? pattern = some (t, place) <;>
      by_cases hlast : catalog.Hits rest t place <;> simp [hfirst, hlast, FileContext.mask]

/-- Masks change neither the policy nor the order of search, nor where further masks hit. -/
theorem maskAll_frame (catalog : Catalog) (patterns : List String) :
    (maskAll catalog patterns).policy = catalog.policy ∧
    (∀ t, ((maskAll catalog patterns).tier t).order = (catalog.tier t).order) ∧
    ∀ pattern, (maskAll catalog patterns).placeOf? pattern = catalog.placeOf? pattern := by
  induction patterns generalizing catalog with
  | nil => exact ⟨rfl, fun _ => rfl, fun _ => rfl⟩
  | cons first rest ih =>
    obtain ⟨hpolicy, horder, hplace⟩ := ih (catalog.mask first)
    exact ⟨hpolicy.trans (policy_mask catalog first),
      fun t => (horder t).trans (order_mask catalog first t),
      fun pattern => (hplace pattern).trans (placeOf?_mask catalog first pattern)⟩

theorem eq_of_tier {a b : Catalog} (hpolicy : a.policy = b.policy)
    (horder : ∀ t, (a.tier t).order = (b.tier t).order)
    (hentries : ∀ t (place : Nat), (a.tier t).entries[place]? = (b.tier t).entries[place]?) :
    a = b := by
  have htier (t : Tier) : a.tier t = b.tier t := by
    have harray : (a.tier t).entries = (b.tier t).entries := Array.ext_getElem? (hentries t)
    cases ha : a.tier t
    cases hb : b.tier t
    have horder := horder t
    simp only [ha, hb] at harray horder
    rw [harray, horder]
  cases a
  cases b
  simp only [mk.injEq]
  exact ⟨hpolicy, htier .allocated, htier .custom, htier .homes, htier .system⟩

/-- Masking patterns again changes nothing. -/
theorem maskAll_maskAll (catalog : Catalog) (patterns : List String) :
    maskAll (maskAll catalog patterns) patterns = maskAll catalog patterns := by
  obtain ⟨hpolicy, horder, -⟩ := maskAll_frame (maskAll catalog patterns) patterns
  refine eq_of_tier hpolicy horder fun t place => ?_
  have hhits : (maskAll catalog patterns).Hits patterns t place ↔
      catalog.Hits patterns t place := by
    simp only [Hits, (maskAll_frame catalog patterns).2.2]
  rw [getElem?_maskAll, getElem?_maskAll, Option.map_map]
  congr 1
  funext entry
  simp only [Function.comp_apply, hhits]
  by_cases h : catalog.Hits patterns t place <;> simp [h, FileContext.mask]

/-! ### Lookups -/

theorem hits_iff (hentry : (catalog.tier t).entries[place]? = some entry) :
    catalog.Hits patterns t place ↔
      entry.pattern ∈ patterns ∧ catalog.entryOf? entry.pattern = some (t, place, entry) := by
  constructor
  · rintro ⟨pattern, hmem, hplace⟩
    obtain ⟨first, hfound, hfirst, rfl⟩ := exists_of_placeOf? hplace
    obtain rfl : first = entry := Option.some.inj (hfirst.symm.trans hentry)
    exact ⟨hmem, hfound⟩
  · rintro ⟨hmem, hfound⟩
    exact ⟨entry.pattern, hmem, by rw [placeOf?, hfound]; rfl⟩

/-- What answers after masks was not hit by them, and is as it was before. -/
theorem exists_of_lookup_maskAll {path : String} {fileClass : FileClass}
    (h : (maskAll catalog patterns).lookup path fileClass = some (t, entry)) :
    ∃ place, (catalog.tier t).entries[place]? = some entry ∧ ¬catalog.Hits patterns t place := by
  obtain ⟨⟨_, place, _⟩, hsearch, heq⟩ := Option.map_eq_some_iff.1 h
  cases heq
  obtain ⟨hentry, hcovers⟩ := mem_of_search hsearch
  rw [getElem?_maskAll] at hentry
  obtain ⟨old, hold, hchanged⟩ := Option.map_eq_some_iff.1 hentry
  by_cases hhits : catalog.Hits patterns t place
  · -- What is masked labels nothing.
    rw [if_pos hhits] at hchanged
    rw [← hchanged, FileContext.covers_mask] at hcovers
    cases hcovers
  · rw [if_neg hhits] at hchanged
    exact ⟨place, hchanged ▸ hold, hhits⟩

/-- What has a masked pattern and still answers is not the first entry with this pattern: that one
is ahead of it. -/
theorem exists_first_of_lookup_maskAll (h : ∀ t, (catalog.tier t).WellOrdered) {path : String}
    {fileClass : FileClass}
    (hlookup : (maskAll catalog patterns).lookup path fileClass = some (t, entry))
    (hmem : entry.pattern ∈ patterns) :
    ∃ place t' place' first, (catalog.tier t).entries[place]? = some entry ∧
      catalog.entryOf? entry.pattern = some (t', place', first) ∧
      catalog.IsAhead t' first t entry ∧ ¬(t' = t ∧ place' = place) := by
  obtain ⟨place, hentry, hhits⟩ := exists_of_lookup_maskAll hlookup
  have hnot : catalog.entryOf? entry.pattern ≠ some (t, place, entry) := fun hfound =>
    hhits ((hits_iff hentry).2 ⟨hmem, hfound⟩)
  obtain ⟨t', place', first, hfound, hahead⟩ := (exists_ahead_of_search h
    (p := (·.pattern = entry.pattern)) hentry (decide_eq_true rfl)).resolve_left hnot
  refine ⟨place, t', place', first, hentry, hfound, hahead, ?_⟩
  rintro ⟨rfl, rfl⟩
  obtain rfl := Option.some.inj ((mem_of_search hfound).1.symm.trans hentry)
  exact hnot hfound

/-- A right answer is right for every catalog that has the same matching entries at the same
places. -/
theorem Answers.of_same {other : Catalog} {matching : FileContext → Prop}
    {answer : Option (Tier × FileContext)} (h : catalog.Answers matching answer)
    (hsame : ∀ t (i : Nat) x, matching x →
      ((other.tier t).entries[i]? = some x ↔ (catalog.tier t).entries[i]? = some x)) :
    other.Answers matching answer := by
  have hmem {t : Tier} {x : FileContext} (hx : x ∈ (other.tier t).entries)
      (hmatching : matching x) : x ∈ (catalog.tier t).entries := by
    obtain ⟨i, hi⟩ := Array.mem_iff_getElem?.1 hx
    exact Array.mem_of_getElem? ((hsame t i x hmatching).1 hi)
  cases answer with
  | none => exact fun t x hx hmatching => h t x (hmem hx hmatching) hmatching
  | some found =>
    obtain ⟨t, entry⟩ := found
    obtain ⟨⟨before, after, horder, hbefore⟩, place, ⟨hentry, hmatching, hfirst⟩, -⟩ := h
    -- Entries that do not match may differ: they are never the first that matches.
    have hforemost : (other.tier t).Foremost matching place entry :=
      ⟨(hsame t place entry hmatching).2 hentry, hmatching, fun j x hx hx' =>
        hfirst j x ((hsame t j x hx').1 hx) hx'⟩
    exact ⟨⟨before, after, horder, fun earlier hearlier x hx hx' =>
      hbefore earlier hearlier x (hmem hx hx') hx'⟩, place, hforemost, fun _ _ => hforemost.unique⟩

/-- Masks leave every entry alone whose pattern is not masked. -/
theorem getElem?_maskAll_iff (hpattern : entry.pattern ∉ patterns) :
    ((maskAll catalog patterns).tier t).entries[place]? = some entry ↔
      (catalog.tier t).entries[place]? = some entry := by
  rw [getElem?_maskAll]
  cases hold : (catalog.tier t).entries[place]? with
  | none => simp
  | some old =>
    rw [Option.map_some, Option.some.injEq, Option.some.injEq]
    by_cases hhits : catalog.Hits patterns t place
    · have hold : old.pattern ∈ patterns := ((hits_iff hold).1 hhits).1
      rw [if_pos hhits]
      constructor
      · rintro rfl
        exact absurd hold hpattern
      · rintro rfl
        exact absurd hold hpattern
    · rw [if_neg hhits]

/-- No two entries of a catalog have a pattern. -/
def OccursOnce (catalog : Catalog) (pattern : String) : Prop :=
  ∀ t (i : Nat) (x : FileContext) t' (j : Nat) (y : FileContext),
    (catalog.tier t).entries[i]? = some x → x.pattern = pattern →
    (catalog.tier t').entries[j]? = some y → y.pattern = pattern → t = t' ∧ i = j

/-- After masks the first entry with a masked pattern is unable to answer, and no other entry has
changed; more masks of these patterns reach no further.  So what has a masked pattern and still
answers stands behind another entry with this pattern, and a pattern that occurs once does not
answer.  A lookup is answered as if all entries with masked patterns were gone exactly if its answer
has none of these patterns. -/
theorem lookup_maskAll (policy : SystemPolicy) (system homes custom : List FileContext)
    (changes : List Change) (patterns : List String) :
    let catalog := (make policy system homes custom).run changes
    let masked := maskAll catalog patterns
    (∀ t (place : Nat), (masked.tier t).entries[place]? =
      (catalog.tier t).entries[place]?.map fun entry =>
        if catalog.Hits patterns t place then entry.mask else entry) ∧
    (∀ t (place : Nat) entry, (catalog.tier t).entries[place]? = some entry →
      (catalog.Hits patterns t place ↔ entry.pattern ∈ patterns ∧
        catalog.entryOf? entry.pattern = some (t, place, entry))) ∧
    maskAll masked patterns = masked ∧
    ∀ path fileClass,
      (∀ t entry, masked.lookup path fileClass = some (t, entry) → entry.pattern ∈ patterns →
        ∃ t' place first, catalog.entryOf? entry.pattern = some (t', place, first) ∧
          catalog.IsAhead t' first t entry) ∧
      (∀ pattern ∈ patterns, catalog.OccursOnce pattern →
        ∀ t entry, masked.lookup path fileClass = some (t, entry) → entry.pattern ≠ pattern) ∧
      (catalog.Answers (fun entry => entry.covers path fileClass = true ∧ entry.pattern ∉ patterns)
          (masked.lookup path fileClass) ↔
        ∀ t entry, masked.lookup path fileClass = some (t, entry) → entry.pattern ∉ patterns) := by
  intro catalog masked
  have hordered : ∀ t, (catalog.tier t).WellOrdered :=
    wellOrdered_run (wellOrdered_make policy system homes custom) changes
  refine ⟨getElem?_maskAll catalog patterns, fun t place entry => hits_iff,
    maskAll_maskAll catalog patterns, fun path fileClass => ⟨?_, ?_, ?_, ?_⟩⟩
  · intro t entry hlookup hmem
    obtain ⟨-, t', place', first, -, hfound, hahead, -⟩ :=
      exists_first_of_lookup_maskAll hordered hlookup hmem
    exact ⟨t', place', first, hfound, hahead⟩
  · rintro pattern hmem honce t entry hlookup rfl
    obtain ⟨place, t', place', first, hentry, hfound, -, hne⟩ :=
      exists_first_of_lookup_maskAll hordered hlookup hmem
    obtain ⟨hfirst, hpattern⟩ := mem_of_search hfound
    exact hne (honce t' place' first t place entry hfirst (of_decide_eq_true hpattern) hentry rfl)
  · intro hanswers t entry hlookup
    rw [hlookup] at hanswers
    exact hanswers.mem.2.2
  · intro hgone
    have hmasked : masked.Answers (·.covers path fileClass = true)
        (masked.lookup path fileClass) := answers_search (wellOrdered_maskAll hordered patterns) _
    refine (hmasked.mono (fun entry h => h.1) fun t entry hlookup => ?_).of_same
      fun t place entry hmatching => (getElem?_maskAll_iff hmatching.2).symm
    rw [hlookup] at hmasked
    exact ⟨hmasked.mem.2, hgone t entry hlookup⟩

/-- A catalog in which one pattern occurs in two tiers, and another one once. -/
def twofold : Catalog :=
  make {} [.bind "/a(/.*)?" .any (.object "x_t")] [.bind "/b" .any (.object "y_t")]
    [.bind "/a(/.*)?" .any (.object "z_t")]

/-- Masking both patterns is enough for the one that occurs once; what answers for the other one
stands behind the entry that was hit. -/
theorem twofold_lookup_maskAll :
    let masked := maskAll twofold ["/a(/.*)?", "/b"]
    (∀ t entry, masked.lookup "/b" .file = some (t, entry) → entry.pattern ≠ "/b") ∧
    ∃ t entry, masked.lookup "/a/x" .file = some (t, entry) ∧ entry.pattern = "/a(/.*)?" ∧
      ∃ t' place first, twofold.entryOf? "/a(/.*)?" = some (t', place, first) ∧
        twofold.IsAhead t' first t entry := by
  intro masked
  obtain ⟨-, -, -, hlookup⟩ := lookup_maskAll {} [.bind "/a(/.*)?" .any (.object "x_t")]
    [.bind "/b" .any (.object "y_t")] [.bind "/a(/.*)?" .any (.object "z_t")] []
    ["/a(/.*)?", "/b"]
  have honce : twofold.OccursOnce "/b" := by
    have hplace (t : Tier) (i : Nat) (x : FileContext)
        (hx : (twofold.tier t).entries[i]? = some x) (hpattern : x.pattern = "/b") :
        t = .homes ∧ i = 0 := by
      have hmem : x ∈ (twofold.tier t).entries := Array.mem_of_getElem? hx
      cases t with
      | allocated => exact absurd hmem (Array.not_mem_empty x)
      | custom =>
        obtain rfl := List.mem_singleton.1 (List.mem_toArray.1 hmem)
        exact absurd hpattern (by decide)
      | homes => exact ⟨rfl, Nat.lt_one_iff.1 (Array.getElem?_eq_some_iff.1 hx).1⟩
      | system =>
        obtain rfl := List.mem_singleton.1 (List.mem_toArray.1 hmem)
        exact absurd hpattern (by decide)
    intro t i x t' j y hx hpx hy hpy
    obtain ⟨rfl, rfl⟩ := hplace t i x hx hpx
    obtain ⟨rfl, rfl⟩ := hplace t' j y hy hpy
    exact ⟨rfl, rfl⟩
  have hsome : (masked.lookup "/a/x" .file).any
      (fun (_, entry) => entry.pattern = "/a(/.*)?") = true := by
    decide +kernel
  obtain ⟨⟨t, entry⟩, hentry, hpattern⟩ := (Option.any_eq_true _ _).1 hsome
  have hpattern : entry.pattern = "/a(/.*)?" := of_decide_eq_true hpattern
  refine ⟨(hlookup "/b" .file).2.1 "/b" (by simp) honce, t, entry, hentry, hpattern, ?_⟩
  have hfirst := (hlookup "/a/x" .file).1 t entry hentry (by simp [hpattern])
  rwa [hpattern] at hfirst

/-- A pattern that occurs twice answers after it is masked, however often it is masked.  So a
resource that the system is to label gets the label of a pattern that an earlier build
installed. -/
theorem twofold_answers_after_mask :
    let answer (catalog : Catalog) : Option (Tier × String) :=
      (catalog.lookup "/a/x" .any).map fun (t, entry) => (t, entry.pattern)
    let project : Project :=
      { name := "demo", resources := [{ path := "/a/x", classWord := "all", isSystem := true }] }
    answer (twofold.mask "/a(/.*)?") = some (.system, "/a(/.*)?") ∧
    answer ((twofold.mask "/a(/.*)?").mask "/a(/.*)?") = some (.system, "/a(/.*)?") ∧
    (Allocation.make project twofold [{ types := [], patterns := ["/a(/.*)?"] }]).toOption.map
        (fun (allocation, _) => allocation.files.map LabelledFile.typeName) =
      some ["x_t"] := by
  decide +kernel

end Catalog

end TypeEnforcement
