/-
New labels are kept.

The labels that a project gives its resources join the first tier of the catalog one after another.
Inside a tier the entries of paths without wildcards are searched before all others, and each of
them labels one path.  No two of them contend for a path, because a resource is refused if the entry
that answers for its path has its pattern already.  So what is labelled later takes nothing from
what was labelled before.

* `FileContext.IsOf` — an entry made of a path in which only wildcards have a meaning;
* `FileContext.Contends` — two entries without wildcards for the same objects;
* `Catalog.KeepsLabels` — the new labels of a catalog, none contending with another one.

Main statements:
* `KeepsLabels.lookup_eq` — in such a catalog a path without wildcards has its own label;
* `keepsLabels_addTo`, `keepsLabels_makeAll` — labelling resources leaves the catalog such;
* `lookup_newlyLabelled` — the resources of a project have their own labels in the end.
-/
import Mathlib.Data.List.Sort
import TypeEnforcement.Proofs.LiteralPaths
import TypeEnforcement.Proofs.Rebuild

namespace TypeEnforcement

/-! ### Entries of paths -/

namespace FileContext

/-- The entry gives a label to a path in which nothing but wildcards and a trailing form has a
meaning. -/
structure IsOf (entry : FileContext) (path : List Char) : Prop where
  plain : Path.IsPlainGlob path
  labelled : entry.label ≠ {}
  eq_bind : entry =
    bind (String.ofList (Path.labelPattern path)) entry.fileClass entry.label

/-- The entries have the pattern of one path without wildcards, and may answer for one object. -/
def Contends (x y : FileContext) : Prop :=
  x.isWildcard = false ∧ x.pattern = y.pattern ∧ x.fileClass.Compatible y.fileClass

variable {entry x y : FileContext} {path path' : List Char} {other : String}
  {fileClass : FileClass}

theorem Contends.symm (h : x.Contends y) : y.Contends x := by
  obtain ⟨hexact, hpattern, hcompatible⟩ := h
  exact ⟨(isWildcard_of_pattern_eq hpattern).symm.trans hexact, hpattern.symm, hcompatible.symm⟩

/-- An entry without wildcards is searched before those with wildcards. -/
theorem SearchedBefore.isWildcard_eq_false {i j : Nat} (h : x.SearchedBefore i y j)
    (hexact : y.isWildcard = false) : x.isWildcard = false := by
  rcases h with ⟨hx, -⟩ | ⟨-, hy, -⟩ | ⟨hsame, -⟩
  · exact hx
  · exact absurd (hexact.symm.trans hy) (by decide)
  · exact hsame.trans hexact

namespace IsOf

theorem pattern_eq (h : entry.IsOf path) :
    entry.pattern = String.ofList (Path.labelPattern path) :=
  congrArg FileContext.pattern h.eq_bind

/-- An entry is of every plain path that has its pattern. -/
theorem of_pattern_eq (h : y.IsOf path') (hpath : Path.IsPlainGlob path)
    (hpattern : y.pattern = String.ofList (Path.labelPattern path)) : y.IsOf path := by
  refine ⟨hpath, h.labelled, ?_⟩
  rw [← hpattern, h.pattern_eq]
  exact h.eq_bind

theorem isWildcard_eq_false_iff (h : entry.IsOf path) :
    entry.isWildcard = false ↔ ∀ c ∈ path, Path.isWild c = false := by
  rw [← Bool.not_eq_true, h.eq_bind, isWildcard_bind_iff h.plain]
  simp

/-- An entry without wildcards labels its own path, and no other. -/
theorem covers_iff (h : entry.IsOf path) (hexact : entry.isWildcard = false) :
    entry.covers other fileClass = true ↔
      entry.fileClass.Compatible fileClass ∧ other.toList = Path.fold path := by
  have hliteral := h.plain.isLiteral (h.isWildcard_eq_false_iff.1 hexact)
  conv => lhs; rw [h.eq_bind]
  exact covers_bind_iff hliteral h.labelled

/-- The path that is looked up tells the pattern of the answer. -/
theorem pattern_eq_of_covers (h : entry.IsOf path) (hexact : entry.isWildcard = false)
    (hcovers : entry.covers other fileClass = true) :
    entry.pattern = String.ofList (Path.toPattern other.toList) := by
  obtain ⟨-, hother⟩ := (h.covers_iff hexact).1 hcovers
  rw [hother]
  exact h.pattern_eq

end IsOf

end FileContext

/-! ### Catalogs -/

/-- The order of search as it is computed by insertion. -/
theorem TierEntries.searchOrder_eq_insertionSort (entries : Array FileContext) :
    searchOrder entries =
      ((keys entries).insertionSort (SearchKey.precedes · · = true)).map SearchKey.place := by
  have htrans : IsTrans SearchKey (SearchKey.precedes · · = true) := ⟨SearchKey.precedes_trans⟩
  have htotal : Std.Total fun a b : SearchKey => a.precedes b = true :=
    ⟨fun a b => by simpa using SearchKey.precedes_total a b⟩
  have hantisymm : Std.Antisymm fun a b : SearchKey => a.precedes b = true :=
    ⟨fun a b hab hba => by
      unfold SearchKey.precedes at hab hba
      cases a
      cases b
      grind⟩
  rw [searchOrder, ← List.mergeSort_eq_insertionSort]
  simp [keys]

namespace Catalog

/-- The new labels of a catalog are those of plain paths, and none contends with another one. -/
structure KeepsLabels (catalog : Catalog) : Prop where
  ordered : catalog.allocatedEntries = [] ∨ catalog.allocated.WellOrdered
  plain : ∀ entry ∈ catalog.allocatedEntries, ∃ path, entry.IsOf path
  apart : catalog.allocatedEntries.Pairwise fun x y => ¬x.Contends y

variable {catalog : Catalog} {entry : FileContext} {path : String} {fileClass : FileClass}

theorem allocatedEntries_allocate (catalog : Catalog) (entry : FileContext) :
    (catalog.allocate entry).allocatedEntries = catalog.allocatedEntries ++ [entry] :=
  Array.toList_push

/-- Where nothing is allocated, there is nothing new to mask. -/
theorem allocatedEntries_mask (h : catalog.allocatedEntries = []) (pattern : String) :
    (catalog.mask pattern).allocatedEntries = [] := by
  unfold mask
  split
  · exact h
  · rename_i t place _ _
    cases t with
    | allocated =>
      show (catalog.allocated.entries.modify place FileContext.mask).toList = []
      rw [Array.toList_modify]
      show catalog.allocatedEntries.modify place FileContext.mask = []
      rw [h, List.modify_nil]
    | custom => exact h
    | homes => exact h
    | system => exact h

theorem allocatedEntries_maskAll (h : catalog.allocatedEntries = []) (patterns : List String) :
    (Allocation.maskAll catalog patterns).allocatedEntries = [] := by
  induction patterns generalizing catalog with
  | nil => exact h
  | cons pattern rest ih => exact ih (allocatedEntries_mask h pattern)

theorem keepsLabels_of_eq_nil (h : catalog.allocatedEntries = []) : catalog.KeepsLabels where
  ordered := .inl h
  plain := by simp [h]
  apart := by simp [h]

/-- If a new entry without wildcards labels a path, then a new entry without wildcards answers for
the path. -/
theorem KeepsLabels.exists_lookup (h : catalog.KeepsLabels)
    (hentry : entry ∈ catalog.allocatedEntries) (hexact : entry.isWildcard = false)
    (hcovers : entry.covers path fileClass = true) :
    ∃ found ∈ catalog.allocatedEntries,
      catalog.lookup path fileClass = some (.allocated, found) ∧
      found.isWildcard = false ∧ found.covers path fileClass = true := by
  have hordered : catalog.allocated.WellOrdered :=
    h.ordered.resolve_left fun hnil => List.not_mem_nil (hnil ▸ hentry)
  have hmem : entry ∈ catalog.allocated.entries := Array.mem_toList_iff.1 hentry
  cases hfind : catalog.allocated.find? (·.covers path fileClass) with
  | none => exact absurd hcovers ((TierEntries.find?_eq_none_iff hordered).1 hfind entry hmem)
  | some answer =>
    obtain ⟨place, found⟩ := answer
    obtain ⟨hfound, hcoversFound, hfirst⟩ := TierEntries.foremost_of_find? hordered hfind
    refine ⟨found, Array.mem_toList_iff.2 (Array.mem_of_getElem? hfound), ?_, ?_, hcoversFound⟩
    · simp [lookup, search, Tier.searchOrder, tier, hfind]
    · obtain ⟨other, hother⟩ := Array.mem_iff_getElem?.1 hmem
      by_cases hsame : other = place
      · subst hsame
        obtain rfl := Option.some.inj (hother.symm.trans hfound)
        exact hexact
      · exact (hfirst other entry hother hcovers hsame).isWildcard_eq_false hexact

/-- A path without wildcards has its own label. -/
theorem KeepsLabels.lookup_eq (h : catalog.KeepsLabels) {path : List Char}
    (hentry : entry ∈ catalog.allocatedEntries) (hof : entry.IsOf path)
    (hexact : ∀ c ∈ path, Path.isWild c = false) :
    catalog.lookup (String.ofList (Path.fold path)) entry.fileClass =
      some (.allocated, entry) := by
  have hexact : entry.isWildcard = false := hof.isWildcard_eq_false_iff.2 hexact
  have hcovers : entry.covers (String.ofList (Path.fold path)) entry.fileClass = true :=
    (hof.covers_iff hexact).2 ⟨.inr (.inr rfl), String.toList_ofList⟩
  obtain ⟨found, hfound, hlookup, hexactFound, hcoversFound⟩ :=
    h.exists_lookup hentry hexact hcovers
  obtain ⟨path', hofFound⟩ := h.plain found hfound
  have hcontends : found.Contends entry :=
    ⟨hexactFound, (hofFound.pattern_eq_of_covers hexactFound hcoversFound).trans
      (hof.pattern_eq_of_covers hexact hcovers).symm,
      ((hofFound.covers_iff hexactFound).1 hcoversFound).1⟩
  have hsymm : Std.Symm fun x y : FileContext => ¬x.Contends y :=
    ⟨fun _ _ hapart hback => hapart hback.symm⟩
  have hsame : found = entry := by
    by_contra hne
    exact h.apart.forall hfound hentry hne hcontends
  rw [hlookup, hsame]

end Catalog

/-! ### Files -/

namespace LabelledFile

open FileContext (Contends)
open Catalog (KeepsLabels)

variable {catalog last : Catalog} {ownTypes : List String} {resource : Resource}
  {file : LabelledFile}

theorem isOf_fileContext (h : make catalog ownTypes resource = .ok file)
    (hnew : file.isSystem = false) (hplain : Path.IsPlainGlob resource.path.toList) :
    file.fileContext.IsOf resource.path.toList := by
  refine ⟨hplain, fun hlabel => ?_, ?_⟩
  · -- The type of a new label has a name.
    have htype : file.typeName = "" := congrArg Label.typeName hlabel
    exact (isSymbol_typeName_of_make h (.inl hnew)).1.1 htype
  · rw [← (describes_make h).pattern]
    rfl

/-- The entry that answers for a file with a new label has another pattern. -/
theorem pattern_ne_of_make (h : make catalog ownTypes resource = .ok file)
    (hnew : file.isSystem = false) {t : Tier} {entry : FileContext}
    (hlookup : catalog.lookup (lookupPath file.path) file.fileClass = some (t, entry)) :
    entry.pattern ≠ file.pattern := by
  have hdescribes := describes_make h
  obtain ⟨fileClass, isExecutable, hclass, -, ⟨hsystem, -⟩ | ⟨-, hrefused, -⟩⟩ := make_eq_ok_iff.1 h
  · rw [← hdescribes.isSystem, hnew] at hsystem
    cases hsystem
  · obtain rfl := hdescribes.fileClass_eq hclass
    rw [← hdescribes.path, hlookup] at hrefused
    rw [hdescribes.pattern]
    simpa [unlabelled] using hrefused

/-- A new label does not contend with an earlier one. -/
theorem not_contends_of_make (hkeeps : catalog.KeepsLabels)
    (h : make catalog ownTypes resource = .ok file) (hnew : file.isSystem = false)
    (hplain : Path.IsPlainGlob resource.path.toList) {entry : FileContext}
    (hentry : entry ∈ catalog.allocatedEntries) : ¬entry.Contends file.fileContext := by
  rintro ⟨hexact, hpattern, hcompatible⟩
  obtain ⟨path', hof'⟩ := hkeeps.plain entry hentry
  have hof : entry.IsOf resource.path.toList :=
    hof'.of_pattern_eq hplain (hpattern.trans (isOf_fileContext h hnew hplain).pattern_eq)
  -- The entry labels the path of the resource, so one with its pattern was found.
  have hcovers : entry.covers (lookupPath resource.path) file.fileClass = true :=
    (hof.covers_iff hexact).2 ⟨hcompatible, String.toList_ofList⟩
  obtain ⟨found, hfound, hlookup, hexactFound, hcoversFound⟩ :=
    hkeeps.exists_lookup hentry hexact hcovers
  obtain ⟨path'', hofFound⟩ := hkeeps.plain found hfound
  have hsame : found.pattern = String.ofList (Path.labelPattern resource.path.toList) := by
    rw [hofFound.pattern_eq_of_covers hexactFound hcoversFound, lookupPath, String.toList_ofList]
    rfl
  have hdescribes := describes_make h
  rw [← hdescribes.path] at hlookup
  exact pattern_ne_of_make h hnew hlookup (hsame.trans hdescribes.pattern.symm)

/-- One more resource leaves the new labels apart from each other. -/
theorem keepsLabels_addTo (hkeeps : catalog.KeepsLabels)
    (h : make catalog ownTypes resource = .ok file)
    (hplain : resource.isSystem = false → Path.IsPlainGlob resource.path.toList) :
    (addTo catalog file).KeepsLabels := by
  unfold addTo
  split
  · exact hkeeps
  · rename_i hnew
    have hnew : file.isSystem = false := Bool.eq_false_iff.2 hnew
    have hplain := hplain ((describes_make h).isSystem.symm.trans hnew)
    -- The new entry comes last, so only the old ones have to be apart from it.
    refine ⟨.inr (TierEntries.wellOrdered_searchOrder _), ?_, ?_⟩
    · rw [Catalog.allocatedEntries_allocate]
      intro entry hentry
      rcases List.mem_append.1 hentry with hentry | hentry
      · exact hkeeps.plain entry hentry
      · rw [List.mem_singleton.1 hentry]
        exact ⟨_, isOf_fileContext h hnew hplain⟩
    · rw [Catalog.allocatedEntries_allocate, List.pairwise_append]
      refine ⟨hkeeps.apart, List.pairwise_singleton _ _, fun entry hentry other hother => ?_⟩
      rw [List.mem_singleton.1 hother]
      exact not_contends_of_make hkeeps h hnew hplain hentry

theorem mem_allocatedEntries_addTo (h : file.isSystem = false) :
    file.fileContext ∈ (addTo catalog file).allocatedEntries := by
  rw [addTo, if_neg (by simp [h]), Catalog.allocatedEntries_allocate]
  exact List.mem_append_right _ (List.mem_singleton_self _)

theorem allocatedEntries_addTo_subset (catalog : Catalog) (file : LabelledFile) :
    catalog.allocatedEntries ⊆ (addTo catalog file).allocatedEntries := by
  unfold addTo
  split
  · exact List.Subset.refl _
  · rw [Catalog.allocatedEntries_allocate]
    exact List.subset_append_left _ _

/-- Resources that are labelled one after another keep their labels: the entries of all of them are
in the catalog in the end, and none contends with another one. -/
theorem keepsLabels_makeAll {resources : List Resource} {files : List LabelledFile}
    (hkeeps : catalog.KeepsLabels) (h : makeAll ownTypes catalog resources = .ok (files, last))
    (hplain : ∀ resource ∈ resources, resource.isSystem = false →
      Path.IsPlainGlob resource.path.toList) :
    last.KeepsLabels ∧ catalog.allocatedEntries ⊆ last.allocatedEntries ∧
      ∀ file ∈ files, file.isSystem = false →
        file.fileContext ∈ last.allocatedEntries ∧ file.fileContext.IsOf file.path.toList := by
  induction resources generalizing catalog files with
  | nil =>
    cases h
    exact ⟨hkeeps, List.Subset.refl _, by simp⟩
  | cons resource rest ih =>
    obtain ⟨file, others, hfile, hothers, rfl⟩ := makeAll_cons_eq_ok_iff.1 h
    obtain ⟨hfirst, hrest⟩ := List.forall_mem_cons.1 hplain
    obtain ⟨hlast, hsubset, hall⟩ := ih (keepsLabels_addTo hkeeps hfile hfirst) hothers hrest
    refine ⟨hlast, List.Subset.trans (allocatedEntries_addTo_subset catalog file) hsubset,
      List.forall_mem_cons.2 ⟨fun hnew => ⟨hsubset (mem_allocatedEntries_addTo hnew), ?_⟩, hall⟩⟩
    have hdescribes := describes_make hfile
    rw [hdescribes.path]
    exact isOf_fileContext hfile hnew (hfirst (hdescribes.isSystem.symm.trans hnew))

end LabelledFile

/-! ### Projects -/

namespace Allocation

open LabelledFile (Describes lookupPath)

/-- The resources that a project labels anew have their own labels in the end, whatever else is
labelled before or after them, if their paths have no wildcards and nothing but wildcards and a
trailing form has a meaning in any of the paths. -/
theorem lookup_newlyLabelled {project : Project} {catalog last : Catalog} {own : List Installed}
    {allocation : Allocation} (h : make project catalog own = .ok (allocation, last))
    (hempty : catalog.allocatedEntries = [])
    (hplain : ∀ resource ∈ project.resources, resource.isSystem = false →
      Path.IsPlainGlob resource.path.toList) :
    List.Forall₂ (fun resource file => Describes resource file ∧
      (resource.isSystem = false → (∀ c ∈ resource.path.toList, Path.isWild c = false) →
        last.lookup (lookupPath resource.path) file.fileClass =
          some (.allocated, file.fileContext))) project.resources allocation.files := by
  have hdescribes := describes_make h
  obtain ⟨files, inherited, applications, hfiles, hinherited, -, rfl⟩ := make_eq_ok_iff.1 h
  obtain ⟨hlast, -, hall⟩ := LabelledFile.keepsLabels_makeAll
    (Catalog.keepsLabels_of_eq_nil (Catalog.allocatedEntries_maskAll hempty _)) hfiles hplain
  have hlookup : ∀ settled ∈ settleDomains project.entries inherited,
      settled.isSystem = false → (∀ c ∈ settled.path.toList, Path.isWild c = false) →
        last.lookup (lookupPath settled.path) settled.fileClass =
          some (.allocated, settled.fileContext) := by
    intro settled hsettled hnew hexact
    -- What is settled after the labels leaves the entry as it is.
    obtain ⟨file, hfile, parentLabel, domain, rfl⟩ := exists_of_settled hinherited hsettled
    obtain ⟨hmem, hof⟩ := hall file hfile hnew
    have hkept : last.lookup (lookupPath file.path) file.fileContext.fileClass =
        some (.allocated, file.fileContext) := hlast.lookup_eq hmem hof hexact
    exact hkept
  have hboth := ((List.forall₂_and_left _ _).2 ⟨hlookup, hdescribes.flip⟩).flip
  refine hboth.imp fun resource file ⟨hfile, hdescribes⟩ => ⟨hdescribes, fun hnew hexact => ?_⟩
  rw [← hdescribes.path] at hexact ⊢
  exact hfile (hdescribes.isSystem.trans hnew) hexact

/-- A catalog that labels everything. -/
def rootCatalog : Catalog :=
  .make {} [.bind "/.*" .any (.object "root_t")] [] []

/-- A path without wildcards that is declared for two classes, between two paths with wildcards. -/
def overlappingPaths : Project where
  name := "demo"
  resources := [
    { path := "/usr/bin/r?n", classWord := "file", typeName := some "any_t" },
    { path := "/bin/run", classWord := "exec_file", typeName := some "run_exec_t" },
    { path := "/usr/bin/run", classWord := "dir", typeName := some "run_dir_t" },
    { path := "/usr{,/**}", classWord := "all", typeName := some "tree_t" }]
  specs := [{ name := "demo.json", applications := [{ path := "/bin/run" }] }]

/-- The path keeps both of its labels. -/
theorem overlappingPaths_lookup_newlyLabelled :
    overlappingPaths.check = .ok () ∧ rootCatalog.allocatedEntries = [] ∧
    (∀ resource ∈ overlappingPaths.resources, resource.isSystem = false →
      Path.IsPlainGlob resource.path.toList) ∧
    ∃ allocation last, make overlappingPaths rootCatalog [] = .ok (allocation, last) ∧
      ∃ x y, last.lookup "/usr/bin/run" .file = some (.allocated, x) ∧
        x.label.typeName = "run_exec_t" ∧
        last.lookup "/usr/bin/run" .directory = some (.allocated, y) ∧
        y.label.typeName = "run_dir_t" := by
  have hcheck : overlappingPaths.check = .ok () := by decide +kernel
  have hplain : ∀ resource ∈ overlappingPaths.resources, resource.isSystem = false →
      Path.IsPlainGlob resource.path.toList := by decide +kernel
  have hanswer : (make overlappingPaths rootCatalog []).toOption.any fun answer =>
      answer.1.files.map LabelledFile.typeName =
        ["any_t", "run_exec_t", "run_dir_t", "tree_t"] := by
    unfold make overlappingPaths
    simp only [LabelledFile.makeAll, Catalog.allocate, TierEntries.push,
      TierEntries.searchOrder_eq_insertionSort]
    decide +kernel
  obtain ⟨⟨allocation, last⟩, hmake, htypes⟩ := exists_of_any_toOption hanswer
  have hkept := lookup_newlyLabelled hmake rfl hplain
  refine ⟨hcheck, rfl, hplain, allocation, last, hmake, ?_⟩
  generalize allocation.files = files at htypes hkept
  obtain _ | ⟨-, _ | @⟨_, run, _, _, ⟨hrun, hfile⟩, _ | @⟨_, dir, _, _, ⟨hdir, hdirectory⟩, -⟩⟩⟩ :=
    hkept
  have hrunClass : some (FileClass.file, true) = some (run.fileClass, run.isExecutable) :=
    hrun.fileClass
  have hdirClass : some (FileClass.directory, false) = some (dir.fileClass, dir.isExecutable) :=
    hdir.fileClass
  have hpath : lookupPath "/bin/run" = "/usr/bin/run" ∧
      lookupPath "/usr/bin/run" = "/usr/bin/run" := by decide +kernel
  have hfile := hfile rfl (by decide)
  have hdirectory := hdirectory rfl (by decide)
  simp only [Option.some.injEq, Prod.mk.injEq] at hrunClass hdirClass
  simp only [← hrunClass.1, ← hdirClass.1, hpath.1, hpath.2] at hfile hdirectory
  simp only [List.map_cons, List.cons.injEq] at htypes
  obtain ⟨-, hrunType, hdirType, -⟩ := htypes
  exact ⟨_, _, hfile, hrunType, hdirectory, hdirType⟩

end Allocation

end TypeEnforcement
