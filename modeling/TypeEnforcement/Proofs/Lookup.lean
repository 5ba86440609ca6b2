/-
Which entry answers for a path.

A catalog is made once and then changed: entries are allocated, and patterns are masked.  Through
all changes every tier keeps a list of its places in the order of search, and a lookup answers with
the foremost entry of the first tier that has one.

An entry is meant to answer for the paths that its pattern matches from end to end, and it does if
its pattern is a pattern by itself.  The pattern is pasted between the anchors as it stands, though,
so that a text like `/a)|(/b`, which is no pattern, leaves the group and is held to one end only.

* `FileContext.SearchedBefore` — the order of search inside a tier;
* `TierEntries.WellOrdered` — the list of places is in that order;
* `FileContext.Fits`, `FileContext.Overreaches` — the two ways in which an entry labels a path;
* `Catalog.Answers` — the right answer to a lookup, for a way of matching.

Main statements:
* `wellOrdered_run` — no change disturbs the order of search;
* `lookup_answers` — a lookup gives the right answer, unless an entry overreaches.
-/
import TypeEnforcement.Host.Catalog
import TypeEnforcement.Proofs.Anchoring
import Mathlib.Data.List.Nodup

namespace TypeEnforcement

/-! ### What an entry labels -/

namespace FileContext

/-- The pattern of a valid entry matches a path from end to end. -/
def Fits (entry : FileContext) (path : String) (fileClass : FileClass) : Prop :=
  entry.valid = true ∧ entry.fileClass.Compatible fileClass ∧
    ∃ p, Pattern.parse? entry.pattern.toList = some p ∧ p.Matches none path.toList none

/-- The text of a valid entry is no pattern by itself, but one between the anchors, and that one
matches some stretch of a path. -/
def Overreaches (entry : FileContext) (path : String) (fileClass : FileClass) : Prop :=
  entry.valid = true ∧ entry.fileClass.Compatible fileClass ∧
    Pattern.parse? entry.pattern.toList = none ∧ ∃ p, Pattern.compile entry.pattern = some p ∧
      ∃ front w rest, path.toList = front ++ w ++ rest ∧ p.Matches front.getLast? w rest.head?

theorem covers_iff_search {entry : FileContext} {path : String} {fileClass : FileClass} :
    entry.covers path fileClass = true ↔ entry.valid = true ∧
      entry.fileClass.Compatible fileClass ∧
      ∃ p, Pattern.compile entry.pattern = some p ∧ p.search path.toList = true := by
  rw [covers, entry.matcher_eq, Bool.and_eq_true, Bool.and_eq_true, decide_eq_true_eq,
    Option.any_eq_true, and_assoc]

theorem covers_iff {entry : FileContext} {path : String} {fileClass : FileClass} :
    entry.covers path fileClass = true ↔
      entry.Fits path fileClass ∨ entry.Overreaches path fileClass := by
  rw [covers_iff_search]
  cases hparse : Pattern.parse? entry.pattern.toList with
  | none =>
    -- Whatever the text is compiled to, it is not held to both ends.
    simp only [Fits, Overreaches, hparse, Pattern.search_iff]
    simp
  | some p =>
    simp only [Fits, Overreaches, hparse, Pattern.compile_of_parse hparse]
    simp [Pattern.search_anchored]

end FileContext

/-! ### The order of search -/

namespace FileContext

/-- The number of bytes before the first special character of the pattern. -/
def literalSize (entry : FileContext) : Nat :=
  (String.ofList entry.literalStart).utf8ByteSize

/-- The entry `x` at the place `i` is searched before the entry `y` at the place `j`: entries
without wildcards before those with wildcards, of two with wildcards the one with the longer literal
start, and otherwise the one that was declared later. -/
def SearchedBefore (x : FileContext) (i : Nat) (y : FileContext) (j : Nat) : Prop :=
  (x.isWildcard = false ∧ y.isWildcard = true) ∨
  (x.isWildcard = true ∧ y.isWildcard = true ∧ y.literalSize < x.literalSize) ∨
  (x.isWildcard = y.isWildcard ∧ (x.isWildcard = true → x.literalSize = y.literalSize) ∧ j < i)

theorem SearchedBefore.asymm {x y : FileContext} {i j : Nat} (h : x.SearchedBefore i y j) :
    ¬y.SearchedBefore j x i := by
  intro hback
  unfold SearchedBefore at h hback
  grind

theorem isWildcard_of_pattern_eq {x y : FileContext} (h : x.pattern = y.pattern) :
    x.isWildcard = y.isWildcard := by
  unfold isWildcard literalStart
  rw [h]

theorem literalSize_of_pattern_eq {x y : FileContext} (h : x.pattern = y.pattern) :
    x.literalSize = y.literalSize := by
  unfold literalSize literalStart
  rw [h]

theorem SearchedBefore.of_pattern_eq {x y x' y' : FileContext} {i j : Nat}
    (h : x.SearchedBefore i y j) (hx : x'.pattern = x.pattern) (hy : y'.pattern = y.pattern) :
    x'.SearchedBefore i y' j := by
  unfold SearchedBefore at h ⊢
  rw [isWildcard_of_pattern_eq hx, isWildcard_of_pattern_eq hy, literalSize_of_pattern_eq hx,
    literalSize_of_pattern_eq hy]
  exact h

end FileContext

namespace SearchKey

theorem precedes_trans (a b c : SearchKey) (hab : a.precedes b = true) (hbc : b.precedes c = true) :
    a.precedes c = true := by
  unfold precedes at hab hbc ⊢
  grind

theorem precedes_total (a b : SearchKey) : (a.precedes b || b.precedes a) = true := by
  unfold precedes
  grind

theorem searchedBefore_of_precedes {x y : FileContext} {i j : Nat}
    (h : (of x i).precedes (of y j) = true) (hij : i ≠ j) : x.SearchedBefore i y j := by
  simp only [precedes, of, FileContext.specificity] at h
  unfold FileContext.SearchedBefore FileContext.literalSize
  grind

end SearchKey

namespace TierEntries

/-- The list of places has every place of the tier once, in the order of search. -/
structure WellOrdered (tier : TierEntries) : Prop where
  perm : tier.order.Perm (List.range tier.entries.size)
  sorted : tier.order.Pairwise fun i j => ∀ x y, tier.entries[i]? = some x →
    tier.entries[j]? = some y → x.SearchedBefore i y j

/-- The keys of entries, in the order of their declaration. -/
def keys (entries : Array FileContext) : List SearchKey :=
  entries.toList.zipIdx.map fun (entry, place) => SearchKey.of entry place

theorem map_place_keys (entries : Array FileContext) :
    (keys entries).map SearchKey.place = List.range entries.size := by
  rw [keys, List.map_map, ← Array.length_toList, List.range_eq_range']
  exact List.zipIdx_map_snd 0 entries.toList

theorem eq_of_mem_keys {entries : Array FileContext} {key : SearchKey} {entry : FileContext}
    (hkey : key ∈ keys entries) (hentry : entries[key.place]? = some entry) :
    key = SearchKey.of entry key.place := by
  obtain ⟨⟨other, place⟩, hmem, rfl⟩ := List.mem_map.1 hkey
  have hother : entries[place]? = some other := by
    rw [← Array.getElem?_toList]
    exact List.mem_zipIdx_iff_getElem?.1 hmem
  obtain rfl : other = entry := Option.some.inj (hother.symm.trans hentry)
  rfl

theorem wellOrdered_searchOrder (entries : Array FileContext) :
    WellOrdered { entries, order := searchOrder entries } := by
  have hperm : (searchOrder entries).Perm (List.range entries.size) := by
    rw [← map_place_keys]
    exact (List.mergeSort_perm (keys entries) SearchKey.precedes).map SearchKey.place
  have hsorted : ((keys entries).mergeSort SearchKey.precedes).Pairwise (SearchKey.precedes · ·) :=
    List.pairwise_mergeSort SearchKey.precedes_trans SearchKey.precedes_total (keys entries)
  have hnodup : (searchOrder entries).Pairwise (· ≠ ·) := hperm.symm.nodup List.nodup_range
  -- The keys are only sorted weakly; that no place comes twice makes the order strict.
  refine ⟨hperm, ?_⟩
  show (((keys entries).mergeSort SearchKey.precedes).map SearchKey.place).Pairwise _
  rw [List.pairwise_map]
  refine (hsorted.and (List.pairwise_map.1 hnodup)).imp_of_mem ?_
  intro a b ha hb hab x y hx hy
  obtain ⟨hprecedes, hne⟩ := hab
  rw [eq_of_mem_keys (List.mem_mergeSort.1 ha) hx,
    eq_of_mem_keys (List.mem_mergeSort.1 hb) hy] at hprecedes
  exact SearchKey.searchedBefore_of_precedes hprecedes hne

theorem WellOrdered.empty : WellOrdered {} :=
  ⟨List.Perm.nil, List.Pairwise.nil⟩

/-- The place of an entry in the search depends on its pattern only. -/
theorem WellOrdered.modify {tier : TierEntries} (h : tier.WellOrdered) (place : Nat)
    {f : FileContext → FileContext} (hf : ∀ entry, (f entry).pattern = entry.pattern) :
    (tier.modify place f).WellOrdered := by
  -- At every place there is an entry with the pattern that was there before.
  have hsame : ∀ (i : Nat) (x : FileContext), (tier.entries.modify place f)[i]? = some x →
      ∃ old, tier.entries[i]? = some old ∧ x.pattern = old.pattern := by
    intro i x hx
    rw [Array.getElem?_modify] at hx
    split at hx
    · obtain ⟨old, hold, rfl⟩ := Option.map_eq_some_iff.1 hx
      exact ⟨old, hold, hf old⟩
    · exact ⟨x, hx, rfl⟩
  refine ⟨?_, ?_⟩
  · show tier.order.Perm (List.range (tier.entries.modify place f).size)
    rw [Array.size_modify]
    exact h.perm
  · refine h.sorted.imp fun hij x y hx hy => ?_
    obtain ⟨x', hx', hpx⟩ := hsame _ x hx
    obtain ⟨y', hy', hpy⟩ := hsame _ y hy
    exact (hij x' y' hx' hy').of_pattern_eq hpx hpy

/-- The entry at a place is the one of the tier that matches and is searched before all others that
do. -/
def Foremost (tier : TierEntries) (matching : FileContext → Prop) (place : Nat)
    (entry : FileContext) : Prop :=
  tier.entries[place]? = some entry ∧ matching entry ∧
    ∀ j other, tier.entries[j]? = some other → matching other → j ≠ place →
      entry.SearchedBefore place other j

theorem Foremost.unique {tier : TierEntries} {matching : FileContext → Prop} {place place' : Nat}
    {entry entry' : FileContext} (h : tier.Foremost matching place entry)
    (h' : tier.Foremost matching place' entry') : place' = place ∧ entry' = entry := by
  obtain ⟨hentry, hmatching, hfirst⟩ := h
  obtain ⟨hentry', hmatching', hfirst'⟩ := h'
  by_cases hplace : place' = place
  · subst hplace
    exact ⟨rfl, Option.some.inj (hentry'.symm.trans hentry)⟩
  · have hbefore := hfirst place' entry' hentry' hmatching' hplace
    have hback := hfirst' place entry hentry hmatching (Ne.symm hplace)
    exact absurd hback hbefore.asymm

theorem WellOrdered.mem_order {tier : TierEntries} (h : tier.WellOrdered) {place : Nat}
    {entry : FileContext} (hentry : tier.entries[place]? = some entry) : place ∈ tier.order := by
  obtain ⟨hlt, -⟩ := Array.getElem?_eq_some_iff.1 hentry
  exact h.perm.mem_iff.2 (List.mem_range.2 hlt)

theorem find?_eq_none_iff {tier : TierEntries} (h : tier.WellOrdered) {p : FileContext → Bool} :
    tier.find? p = none ↔ ∀ entry ∈ tier.entries, ¬p entry = true := by
  rw [find?, List.findSome?_eq_none_iff]
  constructor
  · intro hnone entry hmem hp
    obtain ⟨place, hentry⟩ := Array.mem_iff_getElem?.1 hmem
    -- The list has every place of the tier, so the search has seen the entry.
    have hplace := hnone place (h.mem_order hentry)
    rw [hentry, Option.filter_some_pos hp] at hplace
    cases hplace
  · intro hall place _
    cases hentry : tier.entries[place]? with
    | none => rfl
    | some entry =>
      have hmem : entry ∈ tier.entries := Array.mem_of_getElem? hentry
      rw [Option.filter_some_eq_none.2 (hall entry hmem)]
      rfl

/-- The search of a tier finds the foremost entry. -/
theorem foremost_of_find? {tier : TierEntries} (h : tier.WellOrdered) {p : FileContext → Bool}
    {place : Nat} {entry : FileContext} (hfind : tier.find? p = some (place, entry)) :
    tier.Foremost (p · = true) place entry := by
  obtain ⟨hentry, hp⟩ := find?_sound hfind
  refine ⟨hentry, hp, ?_⟩
  intro j other hother hpother hne
  rw [find?, List.findSome?_eq_some_iff] at hfind
  obtain ⟨front, i, rest, horder, hi, hfront⟩ := hfind
  obtain rfl : i = place := by
    obtain ⟨found, -, heq⟩ := Option.map_eq_some_iff.1 hi
    exact congrArg Prod.fst heq
  have hsorted := h.sorted
  have hj := h.mem_order hother
  rw [horder] at hsorted hj
  rcases List.mem_append.1 hj with hj | hj
  · -- Then the search would have ended there.
    have hnone := hfront j hj
    rw [hother, Option.filter_some_pos hpother] at hnone
    cases hnone
  · -- The rest of the list comes after the place by the order of search.
    have hj : j ∈ rest := (List.mem_cons.1 hj).resolve_left hne
    have htail := (List.pairwise_append.1 hsorted).2.1
    exact (List.pairwise_cons.1 htail).1 j hj entry other hentry hother

end TierEntries

/-! ### Catalogs and their changes -/

namespace Catalog

/-- What may happen to a catalog after it is made. -/
inductive Change where
  | allocate (entry : FileContext)
  | mask (pattern : String)

/-- The catalog after a change. -/
def apply (catalog : Catalog) : Change → Catalog
  | .allocate entry => catalog.allocate entry
  | .mask pattern => catalog.mask pattern

/-- The catalog after changes one after another. -/
def run (catalog : Catalog) (changes : List Change) : Catalog :=
  changes.foldl apply catalog

theorem tier_setTier (catalog : Catalog) (t other : Tier) (entries : TierEntries) :
    (catalog.setTier t entries).tier other = if other = t then entries else catalog.tier other := by
  cases t <;> cases other <;> rfl

theorem wellOrdered_make (policy : SystemPolicy) (system homes custom : List FileContext)
    (t : Tier) : ((make policy system homes custom).tier t).WellOrdered := by
  cases t with
  | allocated => exact .empty
  | custom => exact TierEntries.wellOrdered_searchOrder custom.toArray
  | homes => exact TierEntries.wellOrdered_searchOrder homes.toArray
  | system => exact TierEntries.wellOrdered_searchOrder system.toArray

theorem wellOrdered_apply {catalog : Catalog} (h : ∀ t, (catalog.tier t).WellOrdered)
    (change : Change) (t : Tier) : ((catalog.apply change).tier t).WellOrdered := by
  cases change with
  | allocate entry =>
    cases t with
    | allocated =>
      exact TierEntries.wellOrdered_searchOrder (catalog.allocated.entries.push entry)
    | custom => exact h .custom
    | homes => exact h .homes
    | system => exact h .system
  | mask pattern =>
    show ((catalog.mask pattern).tier t).WellOrdered
    unfold mask
    split
    · exact h t
    · rw [tier_setTier]
      split
      · exact (h _).modify _ FileContext.pattern_mask
      · exact h t

/-- No change disturbs the order of search. -/
theorem wellOrdered_run {catalog : Catalog} (h : ∀ t, (catalog.tier t).WellOrdered)
    (changes : List Change) (t : Tier) : ((catalog.run changes).tier t).WellOrdered := by
  induction changes generalizing catalog with
  | nil => exact h t
  | cons change rest ih => exact ih (wellOrdered_apply h change)

/-! ### Lookups -/

/-- The right answer to a lookup, for a way of matching: no answer if no entry of any tier matches,
and otherwise the foremost entry of the first tier in which one matches. -/
def Answers (catalog : Catalog) (matching : FileContext → Prop) :
    Option (Tier × FileContext) → Prop
  | none => ∀ t, ∀ entry ∈ (catalog.tier t).entries, ¬matching entry
  | some (t, entry) =>
    (∃ before after, Tier.searchOrder = before ++ t :: after ∧
      ∀ earlier ∈ before, ∀ other ∈ (catalog.tier earlier).entries, ¬matching other) ∧
    ∃ place, (catalog.tier t).Foremost matching place entry ∧
      ∀ place' entry', (catalog.tier t).Foremost matching place' entry' →
        place' = place ∧ entry' = entry

/-- A search ends at the foremost entry of a tier, and in the tiers before it nothing matches. -/
theorem foremost_of_search {catalog : Catalog} (h : ∀ t, (catalog.tier t).WellOrdered)
    {p : FileContext → Bool} {t : Tier} {place : Nat} {entry : FileContext}
    (hsearch : catalog.search p = some (t, place, entry)) :
    (∃ before after, Tier.searchOrder = before ++ t :: after ∧
      ∀ earlier ∈ before, ∀ other ∈ (catalog.tier earlier).entries, ¬p other = true) ∧
    (catalog.tier t).Foremost (p · = true) place entry := by
  obtain ⟨before, t', after, horder, hfind, hbefore⟩ := List.findSome?_eq_some_iff.1 hsearch
  obtain ⟨⟨place', entry'⟩, hfound, heq⟩ := Option.map_eq_some_iff.1 hfind
  cases heq
  refine ⟨⟨before, after, horder, fun earlier hearlier => ?_⟩,
    TierEntries.foremost_of_find? (h t) hfound⟩
  have hnone := hbefore earlier hearlier
  rw [Option.map_eq_none_iff] at hnone
  exact (TierEntries.find?_eq_none_iff (h earlier)).1 hnone

theorem answers_search {catalog : Catalog} (h : ∀ t, (catalog.tier t).WellOrdered)
    (p : FileContext → Bool) :
    catalog.Answers (p · = true) ((catalog.search p).map fun (t, _, entry) => (t, entry)) := by
  cases hsearch : catalog.search p with
  | none =>
    intro t
    exact (TierEntries.find?_eq_none_iff (h t)).1 (search_eq_none_iff.1 hsearch t)
  | some found =>
    obtain ⟨t, place, entry⟩ := found
    obtain ⟨hbefore, hforemost⟩ := foremost_of_search h hsearch
    exact ⟨hbefore, place, hforemost, fun place' entry' => hforemost.unique⟩

theorem Answers.mem {catalog : Catalog} {matching : FileContext → Prop} {t : Tier}
    {entry : FileContext} (h : catalog.Answers matching (some (t, entry))) :
    entry ∈ (catalog.tier t).entries ∧ matching entry := by
  obtain ⟨-, place, ⟨hentry, hmatching, -⟩, -⟩ := h
  exact ⟨Array.mem_of_getElem? hentry, hmatching⟩

/-- There is an answer exactly if some entry matches. -/
theorem Answers.eq_none_iff {catalog : Catalog} {matching : FileContext → Prop}
    {answer : Option (Tier × FileContext)} (h : catalog.Answers matching answer) :
    answer = none ↔ ∀ t, ∀ entry ∈ (catalog.tier t).entries, ¬matching entry := by
  cases answer with
  | none => exact ⟨fun _ => h, fun _ => rfl⟩
  | some found =>
    constructor
    · intro hnone
      cases hnone
    · intro hall
      obtain ⟨hmem, hmatching⟩ := h.mem
      exact absurd hmatching (hall found.1 found.2 hmem)

/-- A narrower way of matching has the same answer, if the answer matches in this way too. -/
theorem Answers.mono {catalog : Catalog} {wide narrow : FileContext → Prop}
    {answer : Option (Tier × FileContext)} (h : catalog.Answers wide answer)
    (hnarrow : ∀ entry, narrow entry → wide entry)
    (hanswer : ∀ t entry, answer = some (t, entry) → narrow entry) :
    catalog.Answers narrow answer := by
  cases answer with
  | none => exact fun t entry hentry hmatching => h t entry hentry (hnarrow entry hmatching)
  | some found =>
    obtain ⟨t, entry⟩ := found
    obtain ⟨⟨before, after, horder, hbefore⟩, place, ⟨hentry, -, hfirst⟩, -⟩ := h
    have hforemost : (catalog.tier t).Foremost narrow place entry :=
      ⟨hentry, hanswer t entry rfl, fun j other hother hmatching =>
        hfirst j other hother (hnarrow other hmatching)⟩
    refine ⟨⟨before, after, horder, ?_⟩, place, hforemost, fun _ _ => hforemost.unique⟩
    intro earlier hearlier other hother hmatching
    exact hbefore earlier hearlier other hother (hnarrow other hmatching)

/-- Whatever happened to a catalog, its tiers are in the order of search, and a lookup gives the
right answer by the entries that cover the path.  It gives the right answer by the entries whose
patterns match the path from end to end exactly if the answer does not overreach. -/
theorem lookup_answers (policy : SystemPolicy) (system homes custom : List FileContext)
    (changes : List Change) :
    let catalog := (make policy system homes custom).run changes
    (∀ t, (catalog.tier t).WellOrdered) ∧
    ∀ path fileClass,
      catalog.Answers (·.covers path fileClass = true) (catalog.lookup path fileClass) ∧
      (catalog.lookup path fileClass = none ↔
        ∀ t, ∀ entry ∈ (catalog.tier t).entries, ¬entry.covers path fileClass = true) ∧
      (∀ entry : FileContext, entry.covers path fileClass = true ↔
        entry.Fits path fileClass ∨ entry.Overreaches path fileClass) ∧
      (catalog.Answers (·.Fits path fileClass) (catalog.lookup path fileClass) ↔
        ∀ t entry, catalog.lookup path fileClass = some (t, entry) →
          ¬entry.Overreaches path fileClass) := by
  intro catalog
  have hordered := wellOrdered_run (wellOrdered_make policy system homes custom) changes
  refine ⟨hordered, fun path fileClass => ?_⟩
  have hanswers : catalog.Answers (·.covers path fileClass = true)
      (catalog.lookup path fileClass) := answers_search hordered _
  refine ⟨hanswers, hanswers.eq_none_iff, fun entry => FileContext.covers_iff, ?_⟩
  constructor
  · intro hfits t entry hlookup hover
    -- A text cannot both be a pattern by itself and be none.
    rw [hlookup] at hfits
    obtain ⟨-, -, p, hparse, -⟩ := hfits.mem.2
    obtain ⟨-, -, hnone, -⟩ := hover
    rw [hnone] at hparse
    cases hparse
  · intro hanswer
    refine hanswers.mono (fun entry hfits => FileContext.covers_iff.2 (.inl hfits)) ?_
    intro t entry hlookup
    rw [hlookup] at hanswers
    exact (FileContext.covers_iff.1 hanswers.mem.2).resolve_right (hanswer t entry hlookup)

/-- A catalog with one entry, whose text closes the group that it is pasted into. -/
def halfAnchored : Catalog :=
  make {} [.bind "/a)|(/b" .any (.object "x_t")] [] []

/-- The entry answers for a path that no pattern matches from end to end, also when an entry that
fits another path was allocated and masked before. -/
theorem halfAnchored_lookup :
    let catalog := halfAnchored.run
      [.allocate (.bind "/c" .file (.object "c_t")), .mask "/c"]
    (catalog.lookup "/a/x" .file).isSome = true ∧
    (∀ t, ∀ entry ∈ (catalog.tier t).entries, ¬entry.Fits "/a/x" .file) ∧
    ¬catalog.Answers (·.Fits "/a/x" .file) (catalog.lookup "/a/x" .file) := by
  intro catalog
  have hsome : (catalog.lookup "/a/x" .file).isSome = true := by decide +kernel
  have hentries : ∀ t, ∀ entry ∈ (catalog.tier t).entries,
      entry.valid = false ∨ Pattern.parse? entry.pattern.toList = none := by
    intro t
    cases t <;> decide +kernel
  -- The two entries cover nothing by themselves: one is masked, the other has a half of a group.
  have hnone : ∀ t, ∀ entry ∈ (catalog.tier t).entries, ¬entry.Fits "/a/x" .file := by
    rintro t entry hentry ⟨hvalid, -, p, hp, -⟩
    rcases hentries t entry hentry with h | h
    · rw [hvalid] at h
      cases h
    · rw [hp] at h
      cases h
  refine ⟨hsome, hnone, fun hfits => ?_⟩
  obtain ⟨-, hlookup⟩ := lookup_answers {} [.bind "/a)|(/b" .any (.object "x_t")] [] []
    [.allocate (.bind "/c" .file (.object "c_t")), .mask "/c"]
  obtain ⟨hanswers, -, hcovers, hexact⟩ := hlookup "/a/x" .file
  obtain ⟨⟨t, entry⟩, hfound⟩ := Option.isSome_iff_exists.1 hsome
  have hover : ¬entry.Overreaches "/a/x" .file := hexact.1 hfits t entry hfound
  have hanswers : catalog.Answers (·.covers "/a/x" .file = true)
      (catalog.lookup "/a/x" .file) := hanswers
  rw [hfound] at hanswers
  obtain ⟨hmem, hcover⟩ := hanswers.mem
  exact ((hcovers entry).1 hcover).elim (hnone t entry hmem) hover

end Catalog

end TypeEnforcement
