/-
Which label a resource keeps that the system labels.

Such a resource gets the label of the entry that answers for the text of its path, and the resources
declared before it have a say in that.  If none of them has a new label that is for the text, it is
the label that the host gives the text, whatever else the project declares.  Otherwise it is one of
their labels.  The text stands for a path here, also if it is a glob: for a directory with
everything below it, an entry for just that does not answer.

* `Allocation.keptTrees` — two trees and a file below one of them.

Main statements:
* `exists_lookup_of_make` — a kept label is that of the answer;
* `kept_labels` — which answer that is, for every such resource of a project;
* `keptTrees_other_labels` — so neither a tree nor a file below a new tree keeps its label.
-/
import TypeEnforcement.Proofs.EarlierLabels
import TypeEnforcement.Proofs.OwnText

namespace TypeEnforcement

namespace LabelledFile

variable {catalog : Catalog} {ownTypes : List String} {resource : Resource} {file : LabelledFile}

/-- A kept label is that of the entry that answers for the path. -/
theorem exists_lookup_of_make (h : make catalog ownTypes resource = .ok file)
    (hsystem : file.isSystem = true) : ∃ t entry,
      catalog.lookup (lookupPath file.path) file.fileClass = some (t, entry) ∧
      file.label = entry.label := by
  have hdescribes := describes_make h
  obtain ⟨fileClass, isExecutable, hclass, -, ⟨-, hkeep⟩ | ⟨hnew, -⟩⟩ := make_eq_ok_iff.1 h
  · obtain ⟨entry, hfound, rfl⟩ := exists_of_keepLabel hkeep
    obtain ⟨⟨t, _⟩, hlookup, rfl⟩ := Option.map_eq_some_iff.1 hfound
    exact ⟨t, _, hlookup, rfl⟩
  · rw [← hdescribes.isSystem, hsystem] at hnew
    cases hnew

end LabelledFile

namespace Allocation

open LabelledFile (Describes addAll lookupPath newLabels)

variable {project : Project} {policy : SystemPolicy} {system homes custom : List FileContext}
  {own : List Installed} {allocation : Allocation} {last : Catalog}

/-- A resource that the system labels has the label of the entry that answers for the text of its
path when the resources before it are labelled.  If no new label among those is for the text, the
host answers as it would without the project; if some is, and no label is new before, the foremost
of them answers.  If the path is one without wildcards and a form that covers the directory itself,
then no entry with the pattern of the path answers. -/
theorem kept_labels (changes : List Catalog.Change)
    (h : make project ((Catalog.make policy system homes custom).run changes) own =
      .ok (allocation, last)) :
    let host := (Catalog.make policy system homes custom).run changes
    let masked := maskAll host allocation.ownPatterns
    List.Forall₂ Describes project.resources allocation.files ∧
    ∀ before file after, allocation.files = before ++ file :: after → file.isSystem = true →
      let path := lookupPath file.path
      ∃ t entry, file.label = entry.label ∧
        (addAll masked before).lookup path file.fileClass = some (t, entry) ∧
        ((∀ earlier ∈ newLabels before, ¬earlier.covers path file.fileClass = true) →
          masked.lookup path file.fileClass = some (t, entry)) ∧
        (host.allocatedEntries = [] →
          (∃ earlier ∈ newLabels before, earlier.covers path file.fileClass = true) →
          t = .allocated ∧ ∃ place, (TierEntries.ofList (newLabels before)).Foremost
            (·.covers path file.fileClass = true) place entry) ∧
        ∀ (d : List Char) (form : Path.Trailing), Path.IsLiteral d → form.coversSelf = true →
          file.path.toList = d ++ form.glob → entry.pattern ≠ file.pattern := by
  intro host masked
  refine ⟨describes_make h, ?_⟩
  intro before file after hfiles hsystem path
  have hordered : ∀ t, (masked.tier t).WellOrdered := wellOrdered_maskAll
    (Catalog.wellOrdered_run (Catalog.wellOrdered_make policy system homes custom) changes) _
  obtain ⟨-, resource, -, -, labelled, -, -, hmake, parentLabel, domain, rfl⟩ :=
    exists_make_of_append h hfiles
  obtain ⟨t, entry, hlookup, hlabel⟩ := LabelledFile.exists_lookup_of_make hmake hsystem
  have hlookup : (addAll masked before).lookup path labelled.fileClass = some (t, entry) := hlookup
  refine ⟨t, entry, hlabel, hlookup, fun hnone => ?_, fun hempty hsome => ?_,
    fun d form hd hform hpath heq => ?_⟩
  · rw [← hlookup, LabelledFile.lookup_addAll_eq hordered hnone]
  · obtain ⟨place, foremost, hforemost, hfirst⟩ := LabelledFile.exists_lookup_addAll hordered
      (Catalog.allocatedEntries_maskAll hempty _) hsome
    obtain ⟨rfl, rfl⟩ := Prod.mk.inj (Option.some.inj (hlookup.symm.trans hforemost))
    exact ⟨rfl, place, hfirst⟩
  · have hdescribes := LabelledFile.describes_make hmake
    have hpattern : labelled.pattern = String.ofList (Path.labelPattern labelled.path.toList) := by
      rw [hdescribes.pattern, hdescribes.path]
    exact FileContext.not_covers_own_text hd hform hpath (heq.trans hpattern)
      (Catalog.mem_and_covers_of_lookup hlookup).2

/-- A host with a label for everything, and one for a tree. -/
def treeHost : Catalog :=
  .make {} [.bind "/.*" .any (.object "root_t"), .bind "/a(/.*)?" .any (.object "a_t")] [] []

/-- The tree that the host labels, another one with a new label, and a file below that. -/
def keptTrees : Project where
  name := "demo"
  resources := [
    { path := "/a{,/**}", classWord := "all", isSystem := true },
    { path := "/b{,/**}", classWord := "all", typeName := some "tree_t" },
    { path := "/b/x", classWord := "all", isSystem := true }]
  specs := [{ name := "demo.json", applications := [{ path := "/b/x" }] }]

theorem exists_make_keptTrees : ∃ allocation last tree new below,
    make keptTrees treeHost [] = .ok (allocation, last) ∧ allocation.files = [tree, new, below] ∧
    tree.label = .object "root_t" ∧ new.label = .object "tree_t" ∧
    below.label = .object "tree_t" := by
  have hanswer : (make keptTrees treeHost []).toOption.any fun answer =>
      answer.1.files.map LabelledFile.label =
        [.object "root_t", .object "tree_t", .object "tree_t"] := by
    -- The sort of the host's labels does not compute, so an insertion sort stands in for it.
    unfold treeHost Catalog.make
    simp only [TierEntries.ofList, TierEntries.searchOrder_eq_insertionSort]
    decide +kernel
  obtain ⟨⟨allocation, last⟩, hmake, hlabels⟩ := exists_of_any_toOption hanswer
  obtain ⟨tree, new, below, hfiles⟩ : ∃ tree new below, allocation.files = [tree, new, below] :=
    List.length_eq_three.1 (describes_make hmake).length_eq.symm
  simp only [hfiles, List.map_cons, List.cons.injEq] at hlabels
  exact ⟨allocation, last, tree, new, below, hmake, hfiles, hlabels.1, hlabels.2.1, hlabels.2.2.1⟩

/-- The tree has the label that the host gives its text, and the file below the new tree has the new
label. -/
theorem keptTrees_kept_labels : ∃ allocation last tree new below,
    make keptTrees treeHost [] = .ok (allocation, last) ∧ allocation.files = [tree, new, below] ∧
    (∃ t entry, treeHost.lookup "/a{,/**}" .any = some (t, entry) ∧
      entry.pattern ≠ "/a(/.*)?" ∧ tree.label = entry.label) ∧
    ∃ t, (addAll treeHost [tree, new]).lookup "/b/x" .any = some (t, new.fileContext) ∧
      below.label = new.label := by
  obtain ⟨allocation, last, tree, new, below, hmake, hfiles, -, hlabel, -⟩ := exists_make_keptTrees
  have ⟨hdescribes, hkept⟩ := kept_labels [] hmake
  have hmasked : maskAll treeHost allocation.ownPatterns = treeHost := maskAll_ownPatterns hmake
  rw [hfiles] at hdescribes
  obtain _ | ⟨htree, _ | ⟨hnew, _ | ⟨hbelow, -⟩⟩⟩ := hdescribes
  have htreeClass : tree.fileClass = .any := htree.fileClass_eq rfl
  have hnewClass : new.fileClass = .any := hnew.fileClass_eq rfl
  have hbelowClass : below.fileClass = .any := hbelow.fileClass_eq rfl
  have hnewLabels : newLabels [tree, new] = [new.fileContext] := by
    simp [newLabels, htree.isSystem, hnew.isSystem]
  have hpaths : lookupPath "/a{,/**}" = "/a{,/**}" ∧ lookupPath "/b/x" = "/b/x" := by
    decide +kernel
  refine ⟨allocation, last, tree, new, below, hmake, hfiles, ?_, ?_⟩
  · obtain ⟨t, entry, hentry, -, hnone, -, hform⟩ :=
      hkept [] tree [new, below] hfiles htree.isSystem
    have hlookup : (maskAll treeHost allocation.ownPatterns).lookup (lookupPath tree.path)
        tree.fileClass = some (t, entry) := hnone (by simp [newLabels])
    have hpattern : tree.pattern = "/a(/.*)?" := htree.pattern.trans (by decide +kernel)
    rw [hmasked, htree.path, hpaths.1, htreeClass] at hlookup
    refine ⟨t, entry, hlookup, ?_, hentry⟩
    rw [← hpattern]
    exact hform ['/', 'a'] .selfAndTree (by decide) rfl (by rw [htree.path]; rfl)
  · obtain ⟨t, entry, hentry, hlookup, -, hsome, -⟩ :=
      hkept [tree, new] below [] hfiles hbelow.isSystem
    have hcovers : new.fileContext.covers "/b/x" .any = true := by
      rw [LabelledFile.fileContext, hnew.pattern, hnewClass, hlabel]
      decide +kernel
    obtain ⟨rfl, place, hfirst⟩ := hsome rfl
      ⟨new.fileContext, by simp [hnewLabels], by rwa [hbelow.path, hpaths.2, hbelowClass]⟩
    rw [hnewLabels] at hfirst
    obtain rfl : entry = new.fileContext :=
      List.mem_singleton.1 (List.mem_toArray.1 (Array.mem_of_getElem? hfirst.1))
    have hlookup : (addAll (maskAll treeHost allocation.ownPatterns) [tree, new]).lookup
        (lookupPath below.path) below.fileClass = some (.allocated, new.fileContext) := hlookup
    rw [hmasked, hbelow.path, hpaths.2, hbelowClass] at hlookup
    exact ⟨_, hlookup, hentry⟩

/-- The host labels the directory of the tree, and the file, but the project keeps neither label. -/
theorem keptTrees_other_labels : keptTrees.check = .ok () ∧ ∃ allocation last tree new below,
    make keptTrees treeHost [] = .ok (allocation, last) ∧ allocation.files = [tree, new, below] ∧
    (treeHost.lookup "/a" .any).map (·.2.label) = some (.object "a_t") ∧
    tree.label = .object "root_t" ∧
    (treeHost.lookup "/b/x" .any).map (·.2.label) = some (.object "root_t") ∧
    below.label = .object "tree_t" := by
  obtain ⟨allocation, last, tree, new, below, hmake, hfiles, htree, -, hbelow⟩ :=
    exists_make_keptTrees
  have hhost : (treeHost.lookup "/a" .any).map (·.2.label) = some (.object "a_t") ∧
      (treeHost.lookup "/b/x" .any).map (·.2.label) = some (.object "root_t") := by
    unfold treeHost Catalog.make
    simp only [TierEntries.ofList, TierEntries.searchOrder_eq_insertionSort]
    decide +kernel
  exact ⟨by decide +kernel, allocation, last, tree, new, below, hmake, hfiles, hhost.1, htree,
    hhost.2, hbelow⟩

end Allocation

end TypeEnforcement
