/-
What a resource sees of the resources before it.

When a resource is labelled, the labels of those declared before it stand at the end of the first
tier already, and nothing else of the catalog has changed.  A lookup is answered by the foremost of
these labels if one of them is for the path that is looked up, and otherwise as it would be if the
resources before had not been declared.

* `LabelledFile.newLabels` — the labels that files bring with them;
* `LabelledFile.addAll` — the catalog after files;
* `Catalog.IsAhead` — the order in which the entries of a catalog are searched.

Main statements:
* `lookup_addAll_eq`, `exists_lookup_addAll` — how a lookup is answered after files;
* `exists_ahead_of_search` — an entry that satisfies a search is found, or one ahead of it is;
* `exists_ahead_of_covers` — an entry for a path answers for it, or one that is ahead of it does;
* `exists_makeAll_of_append`, `exists_make_of_append` — over which catalog a file was labelled.
-/
import TypeEnforcement.Proofs.NewLabels

namespace TypeEnforcement

/-! ### Catalogs after files -/

namespace LabelledFile

/-- The labels that files bring with them; what the system labels has its label already. -/
def newLabels (files : List LabelledFile) : List FileContext :=
  (files.filter fun file => !file.isSystem).map fileContext

/-- The catalog after files: their new labels join it one after another. -/
def addAll (catalog : Catalog) (files : List LabelledFile) : Catalog :=
  files.foldl addTo catalog

variable {catalog last : Catalog} {files before after : List LabelledFile} {file : LabelledFile}
  {ownTypes : List String} {path : String} {fileClass : FileClass}

theorem mem_newLabels_iff {entry : FileContext} :
    entry ∈ newLabels files ↔
      ∃ file ∈ files, file.isSystem = false ∧ file.fileContext = entry := by
  simp [newLabels, and_assoc]

theorem tier_addAll (catalog : Catalog) (files : List LabelledFile) {t : Tier}
    (ht : t ≠ .allocated) : (addAll catalog files).tier t = catalog.tier t := by
  induction files generalizing catalog with
  | nil => rfl
  | cons file rest ih =>
    refine (ih (addTo catalog file)).trans ?_
    unfold addTo
    split
    · rfl
    · cases t with
      | allocated => exact absurd rfl ht
      | _ => rfl

theorem allocatedEntries_addAll (catalog : Catalog) (files : List LabelledFile) :
    (addAll catalog files).allocatedEntries = catalog.allocatedEntries ++ newLabels files := by
  induction files generalizing catalog with
  | nil => exact (List.append_nil _).symm
  | cons file rest ih =>
    refine (ih (addTo catalog file)).trans ?_
    cases hsystem : file.isSystem with
    | true => simp [addTo, newLabels, hsystem]
    | false => simp [addTo, newLabels, hsystem, Catalog.allocatedEntries_allocate]

theorem wellOrdered_addAll (h : ∀ t, (catalog.tier t).WellOrdered) (files : List LabelledFile)
    (t : Tier) : ((addAll catalog files).tier t).WellOrdered := by
  induction files generalizing catalog with
  | nil => exact h t
  | cons file rest ih =>
    refine ih fun t => ?_
    unfold addTo
    split
    · exact h t
    · exact Catalog.wellOrdered_apply h (.allocate file.fileContext) t

/-- New labels that are not for a path have no part in a lookup of the path. -/
theorem lookup_addAll_eq (h : ∀ t, (catalog.tier t).WellOrdered)
    (hnone : ∀ entry ∈ newLabels files, ¬entry.covers path fileClass = true) :
    (addAll catalog files).lookup path fileClass = catalog.lookup path fileClass := by
  have hfind (t : Tier) : ((addAll catalog files).tier t).find? (·.covers path fileClass) =
      (catalog.tier t).find? (·.covers path fileClass) := by
    by_cases ht : t = .allocated
    · subst ht
      exact TierEntries.find?_of_append (h .allocated) (wellOrdered_addAll h files .allocated)
        (allocatedEntries_addAll catalog files) hnone
    · rw [tier_addAll catalog files ht]
  simp only [Catalog.lookup, Catalog.search, hfind]

/-- If no label is new before, then new labels that are for a path answer for it: the foremost of
them does. -/
theorem exists_lookup_addAll (h : ∀ t, (catalog.tier t).WellOrdered)
    (hempty : catalog.allocatedEntries = [])
    (hsome : ∃ entry ∈ newLabels files, entry.covers path fileClass = true) :
    ∃ place entry, (addAll catalog files).lookup path fileClass = some (.allocated, entry) ∧
      (TierEntries.ofList (newLabels files)).Foremost (·.covers path fileClass = true)
        place entry := by
  have hordered := wellOrdered_addAll h files .allocated
  have hentries : (addAll catalog files).allocated.entries = (newLabels files).toArray := by
    rw [← Array.toList_inj]
    exact (allocatedEntries_addAll catalog files).trans (by rw [hempty, List.nil_append])
  cases hfind : (addAll catalog files).allocated.find? (·.covers path fileClass) with
  | none =>
    obtain ⟨entry, hentry, hcovers⟩ := hsome
    have hmem : entry ∈ (addAll catalog files).allocated.entries := by
      rw [hentries]
      exact List.mem_toArray.2 hentry
    exact absurd hcovers ((TierEntries.find?_eq_none_iff hordered).1 hfind entry hmem)
  | some found =>
    obtain ⟨place, entry⟩ := found
    obtain ⟨hfound, hcovers, hfirst⟩ := TierEntries.foremost_of_find? hordered hfind
    -- The tier of the new labels is searched first, so what it finds is the answer.
    refine ⟨place, entry, ?_, ?_, hcovers, ?_⟩
    · simp [Catalog.lookup, Catalog.search, Tier.searchOrder, Catalog.tier, hfind]
    · rw [← hfound, Catalog.tier, hentries]
      rfl
    · intro j other hother
      refine hfirst j other ?_
      rw [← hother, Catalog.tier, hentries]
      rfl

/-- Resources are labelled over the catalog after the files before them. -/
theorem exists_makeAll_of_append {resources : List Resource}
    (h : makeAll ownTypes catalog resources = .ok (before ++ after, last)) :
    ∃ front rest, resources = front ++ rest ∧
      makeAll ownTypes catalog front = .ok (before, addAll catalog before) ∧
      makeAll ownTypes (addAll catalog before) rest = .ok (after, last) := by
  induction before generalizing catalog resources with
  | nil => exact ⟨[], resources, rfl, rfl, h⟩
  | cons file before ih =>
    cases resources with
    | nil => cases h
    | cons resource resources =>
      obtain ⟨first, others, hfirst, hothers, heq⟩ := makeAll_cons_eq_ok_iff.1 h
      obtain ⟨rfl, rfl⟩ := List.cons.inj heq
      obtain ⟨front, rest, rfl, hfront, hrest⟩ := ih hothers
      exact ⟨resource :: front, rest, rfl,
        makeAll_cons_eq_ok_iff.2 ⟨file, before, hfirst, hfront, rfl⟩, hrest⟩

end LabelledFile

/-! ### The order of a whole catalog -/

namespace Catalog

/-- The entry `x` of the tier `t` is searched before the entry `y` of the tier `t'`: its tier is
searched first, or they stand in one tier and it is searched first there. -/
def IsAhead (catalog : Catalog) (t : Tier) (x : FileContext) (t' : Tier) (y : FileContext) : Prop :=
  [t, t'].Sublist Tier.searchOrder ∨
  t = t' ∧ ∃ i j, (catalog.tier t).entries[i]? = some x ∧ (catalog.tier t).entries[j]? = some y ∧
    x.SearchedBefore i y j

variable {catalog : Catalog} {t : Tier} {entry : FileContext} {path : String}
  {fileClass : FileClass}

/-- Only new labels are searched before a new label. -/
theorem IsAhead.eq_allocated {x y : FileContext} (h : catalog.IsAhead t x .allocated y) :
    t = .allocated := by
  obtain hsublist | ⟨rfl, -⟩ := h
  · cases t <;> revert hsublist <;> decide
  · rfl

/-- What answers for a path is an entry of its tier and is for the path. -/
theorem mem_and_covers_of_lookup (h : catalog.lookup path fileClass = some (t, entry)) :
    entry ∈ (catalog.tier t).entries ∧ entry.covers path fileClass = true := by
  obtain ⟨⟨_, place, _⟩, hsearch, heq⟩ := Option.map_eq_some_iff.1 h
  cases heq
  obtain ⟨hentry, hcovers⟩ := mem_of_search hsearch
  exact ⟨Array.mem_of_getElem? hentry, hcovers⟩

/-- A search that an entry satisfies ends at this entry or at one that is ahead of it. -/
theorem exists_ahead_of_search (h : ∀ t, (catalog.tier t).WellOrdered) {p : FileContext → Bool}
    {place : Nat} (hentry : (catalog.tier t).entries[place]? = some entry) (hp : p entry = true) :
    catalog.search p = some (t, place, entry) ∨
    ∃ t' place' other, catalog.search p = some (t', place', other) ∧
      catalog.IsAhead t' other t entry := by
  cases hsearch : catalog.search p with
  | none =>
    have hnone := search_eq_none_iff.1 hsearch t
    exact absurd hp ((TierEntries.find?_eq_none_iff (h t)).1 hnone entry
      (Array.mem_of_getElem? hentry))
  | some found =>
    obtain ⟨t', place', other⟩ := found
    obtain ⟨⟨before, after, horder, hbefore⟩, hother, -, hfirst⟩ := foremost_of_search h hsearch
    have htier : t ∈ before ∨ t = t' ∨ t ∈ after := by
      have hmem : t ∈ Tier.searchOrder := by cases t <;> decide
      rw [horder] at hmem
      simpa using hmem
    rcases htier with ht | rfl | ht
    · exact absurd hp (hbefore t ht entry (Array.mem_of_getElem? hentry))
    · by_cases hsame : place = place'
      · subst hsame
        obtain rfl := Option.some.inj (hentry.symm.trans hother)
        exact .inl rfl
      · exact .inr ⟨t, place', other, rfl, .inr ⟨rfl, place', place, hother, hentry,
          hfirst place entry hentry hp hsame⟩⟩
    · refine .inr ⟨t', place', other, rfl, .inl ?_⟩
      rw [horder]
      exact ((List.singleton_sublist.2 ht).cons_cons t').trans (List.sublist_append_right _ _)

/-- An entry for a path answers for it, or one that is ahead of it does. -/
theorem exists_ahead_of_covers (h : ∀ t, (catalog.tier t).WellOrdered)
    (hentry : entry ∈ (catalog.tier t).entries) (hcovers : entry.covers path fileClass = true) :
    catalog.lookup path fileClass = some (t, entry) ∨
    ∃ t' other, catalog.lookup path fileClass = some (t', other) ∧
      catalog.IsAhead t' other t entry := by
  obtain ⟨place, hplace⟩ := Array.mem_iff_getElem?.1 hentry
  rcases exists_ahead_of_search h (p := (·.covers path fileClass)) hplace hcovers with
    hsearch | ⟨t', place', other, hsearch, hahead⟩
  · exact .inl (by rw [lookup, hsearch]; rfl)
  · exact .inr ⟨t', other, by rw [lookup, hsearch]; rfl, hahead⟩

end Catalog

/-! ### Projects -/

namespace Allocation

open LabelledFile (addAll)

variable {files inherited before after : List LabelledFile} {settled : LabelledFile}

theorem forall₂_isSettled {last : Catalog} (entries : List ApplicationEntry)
    (h : files.mapM (LabelledFile.inherit last) = .ok inherited) :
    List.Forall₂ IsSettled files (settleDomains entries inherited) :=
  List.forall₂_map_right_iff.2 ((forall₂_of_mapM_eq_ok h).imp fun _ _ => isSettled_of_inherit)

/-- What is settled after the labels is nothing to the catalog. -/
theorem addAll_eq_of_isSettled (h : List.Forall₂ IsSettled files inherited) (catalog : Catalog) :
    addAll catalog files = addAll catalog inherited := by
  induction h generalizing catalog with
  | nil => rfl
  | cons hfirst _ ih =>
    obtain ⟨parentLabel, domain, rfl⟩ := hfirst
    exact ih _

/-- A file of a project was labelled over the catalog after the files before it, and then
settled. -/
theorem exists_make_of_append {project : Project} {catalog last : Catalog} {own : List Installed}
    {allocation : Allocation} (h : make project catalog own = .ok (allocation, last))
    (hfiles : allocation.files = before ++ settled :: after) :
    ∃ front resource rest earlier file, project.resources = front ++ resource :: rest ∧
      let masked := maskAll catalog allocation.ownPatterns
      LabelledFile.makeAll allocation.ownTypes masked front =
        .ok (earlier, addAll masked before) ∧
      LabelledFile.make (addAll masked before) allocation.ownTypes resource = .ok file ∧
      IsSettled file settled := by
  obtain ⟨files, inherited, applications, hmake, hinherited, -, rfl⟩ := make_eq_ok_iff.1 h
  have hfiles : settleDomains project.entries inherited = before ++ settled :: after := hfiles
  have hsettled := forall₂_isSettled project.entries hinherited
  rw [hfiles] at hsettled
  have hbefore := List.forall₂_take_append _ _ _ hsettled
  have hrest := List.forall₂_drop_append _ _ _ hsettled
  obtain ⟨file, others, hfile, -, hdrop⟩ := List.forall₂_cons_right_iff.1 hrest
  rw [← List.take_append_drop before.length files, hdrop] at hmake
  obtain ⟨front, rest, hresources, hfront, hmake⟩ := LabelledFile.exists_makeAll_of_append hmake
  rw [addAll_eq_of_isSettled hbefore] at hfront hmake
  cases rest with
  | nil => cases hmake
  | cons resource rest =>
    obtain ⟨first, next, hfirst, -, heq⟩ := LabelledFile.makeAll_cons_eq_ok_iff.1 hmake
    obtain ⟨rfl, -⟩ := List.cons.inj heq
    exact ⟨front, resource, rest, _, file, hresources, hfront, hfirst, hfile⟩

/-- Without an earlier build nothing is masked. -/
theorem maskAll_ownPatterns {project : Project} {catalog last : Catalog} {allocation : Allocation}
    (h : make project catalog [] = .ok (allocation, last)) :
    maskAll catalog allocation.ownPatterns = catalog := by
  obtain ⟨files, inherited, applications, -, -, -, rfl⟩ := make_eq_ok_iff.1 h
  rfl

/-- Masking leaves a catalog in the order of search. -/
theorem wellOrdered_maskAll {catalog : Catalog} (h : ∀ t, (catalog.tier t).WellOrdered)
    (patterns : List String) (t : Tier) : ((maskAll catalog patterns).tier t).WellOrdered := by
  induction patterns generalizing catalog with
  | nil => exact h t
  | cons pattern rest ih => exact ih (Catalog.wellOrdered_apply h (.mask pattern))

end Allocation

end TypeEnforcement
