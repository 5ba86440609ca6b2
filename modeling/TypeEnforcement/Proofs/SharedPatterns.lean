/-
Which new labels have the pattern of another entry.

A resource with a new label is refused if the entry that answers for the text of its path has its
pattern.  Another entry with the pattern goes unnoticed if it is not for that text, as for a
directory with everything below it, or if an entry with another pattern is ahead of it.  So a path
without wildcards never gets the pattern of an earlier new label, but one with a form behind it that
covers the directory itself is never refused.

* `LabelledFile.SharesPattern` — an entry has the pattern of a file;
* `Allocation.sharedPatterns` — new labels with the same patterns.

Main statements:
* `make_ne_alreadyLabelled` — which resources are never refused;
* `unnoticed_of_sharesPattern` — why an entry with the pattern of a file went unnoticed;
* `unnoticed_newLabel` — why an earlier new label did;
* `shared_patterns` — both, for every new label of a project.
-/
import TypeEnforcement.Proofs.EarlierLabels
import TypeEnforcement.Proofs.OwnText

namespace TypeEnforcement

namespace LabelledFile

/-- An entry has the pattern of a file, and may answer for objects of its class. -/
def SharesPattern (file : LabelledFile) (entry : FileContext) : Prop :=
  entry.fileClass.Compatible file.fileClass ∧ entry.pattern = file.pattern

variable {catalog : Catalog} {ownTypes : List String} {resource : Resource} {file : LabelledFile}
  {t : Tier} {entry : FileContext}

/-! ### Refusals -/

theorem keepLabel_ne_alreadyLabelled {found : Option FileContext} {start : LabelledFile} :
    keepLabel resource found start ≠ .error (.config .alreadyLabelled) := by
  unfold keepLabel
  split
  · simp
  · split
    · simp
    · split <;> simp

theorem newlyLabelled_ne_alreadyLabelled {start : LabelledFile} :
    newlyLabelled catalog ownTypes resource start ≠ .error (.config .alreadyLabelled) := by
  unfold newlyLabelled
  split
  · unfold chooseType
    dsimp only
    split
    · simp
    · split
      · simp
      · split <;> simp
  · simp [pure, Except.pure]

/-- A resource is only refused for its label if the answer for its path has its pattern. -/
theorem exists_lookup_of_refused
    (h : make catalog ownTypes resource = .error (.config .alreadyLabelled)) :
    ∃ fileClass t entry, catalog.lookup (lookupPath resource.path) fileClass = some (t, entry) ∧
      entry.pattern = String.ofList (Path.labelPattern resource.path.toList) := by
  unfold make at h
  dsimp only at h
  cases hclass : FileClass.ofKeyword? resource.classWord with
  | none =>
    rw [hclass] at h
    cases h
  | some found =>
    obtain ⟨fileClass, isExecutable⟩ := found
    by_contra hnone
    have hfound : ((catalog.lookup (lookupPath resource.path) fileClass).map Prod.snd).any
        (·.pattern = String.ofList (Path.labelPattern resource.path.toList)) = false := by
      refine Bool.eq_false_iff.2 fun hany => hnone ?_
      obtain ⟨entry, hentry, hpattern⟩ := (Option.any_eq_true _ _).1 hany
      obtain ⟨⟨t, _⟩, hlookup, rfl⟩ := Option.map_eq_some_iff.1 hentry
      exact ⟨fileClass, t, _, hlookup, of_decide_eq_true hpattern⟩
    -- Whether the resource keeps its label or gets a new one, the fault is another one.
    have hlabel : (if resource.isSystem then
          keepLabel resource ((catalog.lookup (lookupPath resource.path) fileClass).map Prod.snd)
            (unlabelled resource fileClass isExecutable)
        else newlyLabelled catalog ownTypes resource (unlabelled resource fileClass isExecutable)) ≠
        .error (.config .alreadyLabelled) := by
      split
      · exact keepLabel_ne_alreadyLabelled
      · exact newlyLabelled_ne_alreadyLabelled
    simp only [hclass, bind, Except.bind, hfound, Bool.false_eq_true, if_false] at h
    split at h
    · split at h
      · cases h
      · exact hlabel h
    · exact hlabel h

/-- A path without wildcards and a form that covers the directory itself is never refused for its
label. -/
theorem make_ne_alreadyLabelled {d : List Char} {form : Path.Trailing} (hd : Path.IsLiteral d)
    (hform : form.coversSelf = true) (hpath : resource.path.toList = d ++ form.glob) :
    make catalog ownTypes resource ≠ .error (.config .alreadyLabelled) := by
  intro h
  obtain ⟨fileClass, t, entry, hlookup, hpattern⟩ := exists_lookup_of_refused h
  exact FileContext.not_covers_own_text hd hform hpath hpattern
    (Catalog.mem_and_covers_of_lookup hlookup).2

/-! ### Entries that go unnoticed -/

/-- If a file gets a new label and an entry that is valid has its pattern, then the entry is not for
the text of the path, and the path has a form that covers the directory itself if it is plain; or an
entry with another pattern is ahead of it. -/
theorem unnoticed_of_sharesPattern (h : make catalog ownTypes resource = .ok file)
    (hnew : file.isSystem = false) (hordered : ∀ t, (catalog.tier t).WellOrdered)
    (hentry : entry ∈ (catalog.tier t).entries) (hvalid : entry.valid = true)
    (hshares : file.SharesPattern entry) :
    (¬entry.covers (lookupPath file.path) file.fileClass = true ∧
      (Path.IsPlainGlob file.path.toList → Path.CoversSelf file.path.toList)) ∨
    ∃ t' other, catalog.lookup (lookupPath file.path) file.fileClass = some (t', other) ∧
      other.pattern ≠ file.pattern ∧ catalog.IsAhead t' other t entry := by
  obtain ⟨hclass, hpattern⟩ := hshares
  have hdescribes := describes_make h
  have hpath : entry.pattern = String.ofList (Path.labelPattern file.path.toList) := by
    rw [hpattern, hdescribes.pattern, hdescribes.path]
  by_cases hcovers : entry.covers (lookupPath file.path) file.fileClass = true
  · obtain hlookup | ⟨t', other, hlookup, hahead⟩ :=
      Catalog.exists_ahead_of_covers hordered hentry hcovers
    · exact absurd hpattern (pattern_ne_of_make h hnew hlookup)
    · exact .inr ⟨t', other, hlookup, pattern_ne_of_make h hnew hlookup, hahead⟩
  · refine .inl ⟨hcovers, fun hplain => ?_⟩
    by_contra hform
    exact hcovers (FileContext.covers_own_text hplain hform hpath hvalid hclass)

/-- If a file gets a new label and an earlier new label has its pattern, then its path has a
wildcard; and it has a form that covers the directory itself, or a third new label with special
characters is ahead. -/
theorem unnoticed_newLabel (h : make catalog ownTypes resource = .ok file)
    (hnew : file.isSystem = false) (hordered : ∀ t, (catalog.tier t).WellOrdered)
    (hkeeps : catalog.KeepsLabels) (hplain : Path.IsPlainGlob file.path.toList)
    (hentry : entry ∈ catalog.allocatedEntries) (hshares : file.SharesPattern entry) :
    (∃ c ∈ file.path.toList, Path.isWild c = true) ∧
    (Path.CoversSelf file.path.toList ∨
      ∃ other ∈ catalog.allocatedEntries,
        catalog.lookup (lookupPath file.path) file.fileClass = some (.allocated, other) ∧
        other.pattern ≠ file.pattern ∧ other.isWildcard = true ∧
        catalog.IsAhead .allocated other .allocated entry) := by
  have hdescribes := describes_make h
  rw [hdescribes.path] at hplain
  obtain ⟨path', hof'⟩ := hkeeps.plain entry hentry
  have hof : entry.IsOf resource.path.toList :=
    hof'.of_pattern_eq hplain (hshares.2.trans (isOf_fileContext h hnew hplain).pattern_eq)
  have hwild : ∃ c ∈ file.path.toList, Path.isWild c = true := by
    by_contra hexact
    refine not_contends_of_make hkeeps h hnew hplain hentry ⟨?_, hshares.2, hshares.1⟩
    rw [hof.isWildcard_eq_false_iff, ← hdescribes.path]
    simpa using hexact
  refine ⟨hwild, ?_⟩
  have hmem : entry ∈ (catalog.tier .allocated).entries := Array.mem_toList_iff.1 hentry
  obtain ⟨-, hform⟩ | ⟨t', other, hlookup, hne, hahead⟩ :=
    unnoticed_of_sharesPattern h hnew hordered hmem hof.valid_eq_true hshares
  · rw [hdescribes.path] at hform ⊢
    exact .inl (hform hplain)
  · obtain rfl := hahead.eq_allocated
    obtain ⟨hother, hcovers⟩ := Catalog.mem_and_covers_of_lookup hlookup
    have hother : other ∈ catalog.allocatedEntries := Array.mem_toList_iff.2 hother
    obtain ⟨path'', hofOther⟩ := hkeeps.plain other hother
    exact .inr ⟨other, hother, hlookup, hne, hofOther.isWildcard_eq_true hcovers hwild, hahead⟩

end LabelledFile

/-! ### Projects -/

namespace Allocation

open LabelledFile (Describes addAll lookupPath newLabels)

/-- An entry with the pattern of a new label was there before, valid and for objects of its class,
only if it is not for the text of the path, which takes a form that covers the directory itself if
the path is plain, or if an entry with another pattern is ahead of it.  If the entry is an earlier
new label, and all new labels are those of plain paths, then the path has a wildcard; and it has
such a form, or a third new label is ahead, which has special characters. -/
theorem shared_patterns {project : Project} {policy : SystemPolicy}
    {system homes custom : List FileContext} (changes : List Catalog.Change) {own : List Installed}
    {allocation : Allocation} {last : Catalog}
    (h : make project ((Catalog.make policy system homes custom).run changes) own =
      .ok (allocation, last)) :
    let host := (Catalog.make policy system homes custom).run changes
    let masked := maskAll host allocation.ownPatterns
    List.Forall₂ Describes project.resources allocation.files ∧
    ∀ before file after, allocation.files = before ++ file :: after → file.isSystem = false →
      let held := addAll masked before
      let path := lookupPath file.path
      (∀ t, ∀ entry ∈ (held.tier t).entries, entry.valid = true → file.SharesPattern entry →
        (¬entry.covers path file.fileClass = true ∧
          (Path.IsPlainGlob file.path.toList → Path.CoversSelf file.path.toList)) ∨
        ∃ t' other, held.lookup path file.fileClass = some (t', other) ∧
          other.pattern ≠ file.pattern ∧ held.IsAhead t' other t entry) ∧
      (host.allocatedEntries = [] →
        (∀ resource ∈ project.resources, resource.isSystem = false →
          Path.IsPlainGlob resource.path.toList) →
        ∀ entry ∈ newLabels before, file.SharesPattern entry →
          (∃ c ∈ file.path.toList, Path.isWild c = true) ∧
          (Path.CoversSelf file.path.toList ∨
            ∃ other ∈ newLabels before,
              held.lookup path file.fileClass = some (.allocated, other) ∧
              other.pattern ≠ file.pattern ∧ other.isWildcard = true ∧
              held.IsAhead .allocated other .allocated entry)) := by
  intro host masked
  refine ⟨describes_make h, ?_⟩
  intro before file after hfiles hnew held path
  obtain ⟨front, resource, rest, earlier, labelled, hresources, hfront, hmake, parentLabel, domain,
    rfl⟩ := exists_make_of_append h hfiles
  have hordered : ∀ t, (held.tier t).WellOrdered := LabelledFile.wellOrdered_addAll
    (wellOrdered_maskAll
      (Catalog.wellOrdered_run (Catalog.wellOrdered_make policy system homes custom) changes) _) _
  refine ⟨fun t entry hentry hvalid hshares =>
    (LabelledFile.unnoticed_of_sharesPattern hmake hnew hordered hentry hvalid hshares :), ?_⟩
  intro hempty hplain entry hentry hshares
  have hmasked : masked.allocatedEntries = [] := Catalog.allocatedEntries_maskAll hempty _
  have hlabels : held.allocatedEntries = newLabels before := by
    rw [LabelledFile.allocatedEntries_addAll, hmasked, List.nil_append]
  rw [hresources] at hplain
  obtain ⟨hplainFront, hplainRest⟩ := List.forall_mem_append.1 hplain
  obtain ⟨hkeeps, -, -⟩ := LabelledFile.keepsLabels_makeAll
    (Catalog.keepsLabels_of_eq_nil hmasked) hfront hplainFront
  have hdescribes := LabelledFile.describes_make hmake
  have hpath : Path.IsPlainGlob labelled.path.toList := by
    rw [hdescribes.path]
    exact hplainRest resource List.mem_cons_self (hdescribes.isSystem.symm.trans hnew)
  rw [← hlabels] at hentry ⊢
  exact (LabelledFile.unnoticed_newLabel hmake hnew hordered hkeeps hpath hentry hshares :)

/-- A directory with what is below it and files in a directory, each under two names, and the files
of one letter among these. -/
def sharedPatterns : Project where
  name := "demo"
  resources := [
    { path := "/bin/x{,/**}", classWord := "all", typeName := some "tree_t" },
    { path := "/usr/bin/x{,/**}", classWord := "all", typeName := some "same_tree_t" },
    { path := "/bin/*", classWord := "all", typeName := some "file_t" },
    { path := "/bin/?", classWord := "all", typeName := some "letter_t" },
    { path := "/usr/bin/*", classWord := "all", typeName := some "same_file_t" },
    { path := "/app", classWord := "exec_file", typeName := some "app_exec_t" }]
  specs := [{ name := "demo.json", applications := [{ path := "/app" }] }]

theorem exists_make_sharedPatterns : ∃ allocation last tree sameTree file letter sameFile app,
    make sharedPatterns rootCatalog [] = .ok (allocation, last) ∧
    allocation.files = [tree, sameTree, file, letter, sameFile, app] ∧
    List.Forall₂ Describes sharedPatterns.resources
      [tree, sameTree, file, letter, sameFile, app] := by
  have hanswer : (make sharedPatterns rootCatalog []).toOption.isSome = true := by
    unfold make sharedPatterns
    simp only [LabelledFile.makeAll, Catalog.allocate, TierEntries.push,
      TierEntries.searchOrder_eq_insertionSort]
    decide +kernel
  obtain ⟨⟨allocation, last⟩, hmake⟩ := exists_of_isSome_toOption hanswer
  have hdescribes := describes_make hmake
  obtain ⟨files, hfiles⟩ : ∃ files, allocation.files = files := ⟨_, rfl⟩
  rw [hfiles] at hdescribes
  have hdescribed := hdescribes
  obtain _ | ⟨-, _ | ⟨-, _ | ⟨-, _ | ⟨-, _ | ⟨-, _ | ⟨-, _ | -⟩⟩⟩⟩⟩⟩ := hdescribes
  exact ⟨allocation, last, _, _, _, _, _, _, hmake, hfiles, hdescribed⟩

/-- The files in the directory get a pattern for the second time, because the entry for those of one
letter is ahead of the one that has the pattern. -/
theorem sharedPatterns_shared_patterns :
    ∃ allocation last tree sameTree file letter sameFile app,
      make sharedPatterns rootCatalog [] = .ok (allocation, last) ∧
      allocation.files = [tree, sameTree, file, letter, sameFile, app] ∧
      sameFile.SharesPattern file.fileContext ∧
      let before := [tree, sameTree, file, letter]
      ∃ other ∈ newLabels before,
        (addAll rootCatalog before).lookup "/usr/bin/*" .any = some (.allocated, other) ∧
        other.pattern ≠ "/usr/bin/[^/]*" ∧ other.isWildcard = true := by
  obtain ⟨allocation, last, tree, sameTree, file, letter, sameFile, app, hmake, hfiles,
    hdescribes⟩ := exists_make_sharedPatterns
  obtain ⟨-, hshared⟩ := shared_patterns [] hmake
  obtain _ | ⟨-, _ | ⟨-, _ | ⟨hfile, _ | ⟨-, _ | ⟨hsame, -⟩⟩⟩⟩⟩ := hdescribes
  have hpatterns : file.pattern = "/usr/bin/[^/]*" ∧ sameFile.pattern = "/usr/bin/[^/]*" := by
    rw [hfile.pattern, hsame.pattern]
    decide +kernel
  have hshares : sameFile.SharesPattern file.fileContext :=
    ⟨.inl (hfile.fileClass_eq rfl), hpatterns.1.trans hpatterns.2.symm⟩
  have hpath : lookupPath "/usr/bin/*" = "/usr/bin/*" := by decide +kernel
  have hmem : file.fileContext ∈ newLabels [tree, sameTree, file, letter] :=
    LabelledFile.mem_newLabels_iff.2 ⟨file, by simp, hfile.isSystem, rfl⟩
  obtain ⟨-, hnew⟩ := hshared [tree, sameTree, file, letter] sameFile [app] hfiles hsame.isSystem
  obtain ⟨-, hform | ⟨other, hother, hlookup, hne, hwild, -⟩⟩ :=
    hnew rfl (by decide +kernel) file.fileContext hmem hshares
  · rw [hsame.path] at hform
    exact absurd hform (by decide +kernel)
  · refine ⟨allocation, last, tree, sameTree, file, letter, sameFile, app, hmake, hfiles, hshares,
      other, hother, ?_, hpatterns.2 ▸ hne, hwild⟩
    have hlookup : (addAll (maskAll rootCatalog allocation.ownPatterns)
        [tree, sameTree, file, letter]).lookup (lookupPath sameFile.path) sameFile.fileClass =
          some (.allocated, other) := hlookup
    rwa [maskAll_ownPatterns hmake, hsame.path, hpath, hsame.fileClass_eq rfl] at hlookup

/-- Both the directory and the files in it are labelled twice with one pattern. -/
theorem sharedPatterns_same_patterns :
    sharedPatterns.check = .ok () ∧ rootCatalog.allocatedEntries = [] ∧
    ∃ allocation last tree sameTree file letter sameFile app,
      make sharedPatterns rootCatalog [] = .ok (allocation, last) ∧
      allocation.files = [tree, sameTree, file, letter, sameFile, app] ∧
      tree.isSystem = false ∧ sameTree.isSystem = false ∧
      sameTree.SharesPattern tree.fileContext ∧
      file.isSystem = false ∧ sameFile.isSystem = false ∧
      sameFile.SharesPattern file.fileContext := by
  obtain ⟨allocation, last, tree, sameTree, file, letter, sameFile, app, hmake, hfiles,
    hdescribes⟩ := exists_make_sharedPatterns
  obtain _ | ⟨htree, _ | ⟨hsameTree, _ | ⟨hfile, _ | ⟨-, _ | ⟨hsameFile, -⟩⟩⟩⟩⟩ := hdescribes
  have htrees : tree.pattern = sameTree.pattern := by
    rw [htree.pattern, hsameTree.pattern]
    decide +kernel
  have hpatterns : file.pattern = sameFile.pattern := by
    rw [hfile.pattern, hsameFile.pattern]
    decide +kernel
  exact ⟨by decide +kernel, rfl, allocation, last, tree, sameTree, file, letter, sameFile, app,
    hmake, hfiles, htree.isSystem, hsameTree.isSystem, ⟨.inl (htree.fileClass_eq rfl), htrees⟩,
    hfile.isSystem, hsameFile.isSystem, .inl (hfile.fileClass_eq rfl), hpatterns⟩

end Allocation

end TypeEnforcement
