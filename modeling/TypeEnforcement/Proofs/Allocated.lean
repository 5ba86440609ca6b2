/-
What an allocation settles.

An allocation goes over the resources three times.  It labels them one after another, over a catalog
that each new label joins; then it gives every file the label of the directory that it lives in, as
the catalog has it after the last label; and at last it settles the domains of the files that
applications execute.  A file keeps what it was given before, so the files of the allocation show
all of these decisions, one file for each resource.

* `LabelledFile.Follows` — a file is labelled in the way that its resource asks for;
* `LabelledFile.Inherits` — a file has the label of its directory.

Main statements:
* `follows_make`, `inherits_of_inherit` — what one file gets in the first and in the second round;
* `forall₂_follows_makeAll`, `forall_inherits` — what all files get;
* `file?_settled` — the domain of an application is that of its file after the third round;
* `allocation_settles` — what can be read off an allocation and its catalog.
-/
import TypeEnforcement.Proofs.EarlierLabels

namespace TypeEnforcement

namespace LabelledFile

/-! ### The label of a file -/

/-- A file stands for a resource and is as private as the resource asks for.  If the system labels
it, then its type exists, it is not private, and the resource chooses no type; an empty name is
none. -/
structure Follows (resource : Resource) (file : LabelledFile) : Prop where
  describes : Describes resource file
  isPrivate : file.isPrivate = resource.isPrivate
  typeExists : file.isSystem = true → file.typeExists = true
  notPrivate : file.isSystem = true → file.isPrivate = false
  noType : file.isSystem = true → resource.typeName.filter (· ≠ "") = none

variable {catalog last : Catalog} {ownTypes : List String} {resource : Resource}
  {file next : LabelledFile} {resources : List Resource} {files inherited : List LabelledFile}

/-- A label is kept only for a resource that is not private and chooses no type. -/
theorem of_keepLabel {found : Option FileContext} {start : LabelledFile}
    (h : keepLabel resource found start = .ok file) :
    resource.isPrivate = false ∧ resource.typeName.filter (· ≠ "") = none := by
  unfold keepLabel at h
  split at h
  · cases h
  · rename_i hprivate
    split at h
    · cases h
    · rename_i htype
      exact ⟨Bool.eq_false_iff.2 hprivate, Option.not_isSome_iff_eq_none.1 htype⟩

theorem follows_make (h : make catalog ownTypes resource = .ok file) : Follows resource file := by
  have hdescribes := describes_make h
  obtain ⟨fileClass, isExecutable, -, ⟨-, hkeep⟩ | ⟨hnew, -, hlabelled⟩⟩ := make_cases h
  · obtain ⟨hprivate, htype⟩ := of_keepLabel hkeep
    obtain ⟨entry, -, rfl⟩ := exists_of_keepLabel hkeep
    exact ⟨hdescribes, rfl, fun _ => rfl, fun _ => hprivate, fun _ => htype⟩
  · -- What has a new label is not labelled by the system.
    have hsystem : file.isSystem ≠ true := by
      rw [hdescribes.isSystem, hnew]
      exact Bool.false_ne_true
    refine ⟨hdescribes, ?_, fun h => absurd h hsystem, fun h => absurd h hsystem,
      fun h => absurd h hsystem⟩
    obtain ⟨name, hchoose⟩ | rfl := hlabelled
    · obtain ⟨-, typeExists, rfl⟩ := exists_of_chooseType hchoose
      rfl
    · rfl

theorem Follows.of_isSettled (h : Follows resource file) (hnext : Allocation.IsSettled file next) :
    Follows resource next := by
  obtain ⟨parentLabel, domain, rfl⟩ := hnext
  obtain ⟨hdescribes, hprivate, hexists, hpublic, htype⟩ := h
  exact ⟨⟨hdescribes.path, hdescribes.pattern, hdescribes.fileClass, hdescribes.isSystem⟩,
    hprivate, hexists, hpublic, htype⟩

theorem forall₂_follows_makeAll (h : makeAll ownTypes catalog resources = .ok (files, last)) :
    List.Forall₂ Follows resources files :=
  (forall₂_makeAll h).imp fun _ _ ⟨_, _, hmake⟩ => follows_make hmake

/-- The catalog after resources has the new labels of their files. -/
theorem eq_addAll_of_makeAll (h : makeAll ownTypes catalog resources = .ok (files, last)) :
    last = addAll catalog files := by
  rw [← List.append_nil files] at h
  obtain ⟨front, rest, -, -, hrest⟩ := exists_makeAll_of_append h
  cases rest with
  | nil =>
    cases hrest
    rfl
  | cons resource rest =>
    obtain ⟨file, others, -, -, heq⟩ := makeAll_cons_eq_ok_iff.1 hrest
    cases heq

/-! ### The label of its directory -/

/-- The path of the directory that a resource lives in, as it is looked up. -/
def parentPath (path : String) : String :=
  String.ofList (Path.fold (Path.directory path.toList))

/-- A file has the label of the entry that answers for its directory. -/
def Inherits (catalog : Catalog) (file : LabelledFile) : Prop :=
  ∃ t entry, catalog.lookup (parentPath file.path) .directory = some (t, entry) ∧
    file.parentLabel = entry.label

theorem inherits_of_inherit (h : inherit catalog file = .ok next) : Inherits catalog next := by
  obtain ⟨t, entry, hlookup, rfl⟩ := exists_of_inherit h
  exact ⟨t, entry, hlookup, rfl⟩

theorem forall_inherits (h : files.mapM (inherit catalog) = .ok inherited) :
    ∀ file ∈ inherited, Inherits catalog file := by
  intro file hfile
  obtain ⟨before, -, hinherit⟩ := exists_item_of_mapM_eq_ok h file hfile
  exact inherits_of_inherit hinherit

end LabelledFile

namespace Allocation

open LabelledFile (Follows Inherits newLabels parentPath)

variable {project : Project} {catalog last : Catalog} {own : List Installed}
  {allocation : Allocation} {files inherited : List LabelledFile}
  {entries : List ApplicationEntry}

/-! ### The domain of a file -/

/-- Settling the domains leaves the labels of directories alone. -/
theorem forall_inherits_settleDomains (h : ∀ file ∈ files, Inherits last file) :
    ∀ file ∈ settleDomains entries files, Inherits last file := by
  intro settled hsettled
  rw [settleDomains_eq_map] at hsettled
  obtain ⟨file, hfile, rfl⟩ := List.mem_map.1 hsettled
  obtain ⟨t, entry, hlookup, hlabel⟩ := h file hfile
  exact ⟨t, entry, by rwa [path_settle], (parentLabel_settle entries file).trans hlabel⟩

/-- The file of a path is settled where it stands. -/
theorem find?_settleDomains (entries : List ApplicationEntry) (files : List LabelledFile)
    (path : String) :
    (settleDomains entries files).find? (·.path = path) =
      (files.find? (·.path = path)).map (settle entries) := by
  have hpath : (fun file : LabelledFile => decide (file.path = path)) ∘ settle entries =
      fun file => decide (file.path = path) :=
    funext fun file => by rw [Function.comp_apply, path_settle]
  rw [settleDomains_eq_map, List.find?_map, hpath]

/-- The file of an application, and where its domain comes from. -/
theorem exists_file_of_mem_applications {applications : List ConfinedApplication}
    (h : applicationsOf files entries = .ok applications) {app : ConfinedApplication}
    (happ : app ∈ applications) :
    (∃ entry ∈ entries, entry.path = app.path) ∧
      ∃ file, files.find? (·.path = app.path) = some file ∧ app.domain = file.processDomain := by
  obtain ⟨path, hpath, happ⟩ := exists_item_of_mapM_eq_ok h app happ
  split at happ
  · rename_i found hfound
    cases happ
    obtain ⟨file, hfile, rfl⟩ := Option.map_eq_some_iff.1 hfound
    exact ⟨List.mem_map.1 (mem_distinct.1 hpath), file, hfile, rfl⟩
  · cases happ

/-- The domain of an application is that of its file after the last round. -/
theorem file?_settled {applications : List ConfinedApplication}
    (h : applicationsOf files entries = .ok applications) {app : ConfinedApplication}
    (happ : app ∈ applications) :
    ∃ file, (settleDomains entries files).find? (·.path = app.path) = some file ∧
      file.domain = some app.domain := by
  obtain ⟨hentry, file, hfile, hdomain⟩ := exists_file_of_mem_applications h happ
  have hpath : file.path = app.path := by simpa using List.find?_some hfile
  refine ⟨settle entries file, ?_, ?_⟩
  · rw [find?_settleDomains, hfile, Option.map_some]
  · rw [domain_settle (by rwa [hpath]), hdomain]

/-! ### Projects -/

/-- What the three rounds of an allocation settle, over any catalog in which nothing is allocated
yet.  There is one file for each resource, in the order of declaration, and it follows its resource.
The new labels of the catalog are those of the files that the system does not label, in their order.
Each file has the label of the best entry for its directory in the catalog after the last label.
Each application is a resource, and its domain is that of its file. -/
theorem allocation_settles {policy : SystemPolicy} {system homes custom : List FileContext}
    (changes : List Catalog.Change)
    (hempty : ((Catalog.make policy system homes custom).run changes).allocatedEntries = [])
    (h : make project ((Catalog.make policy system homes custom).run changes) own =
      .ok (allocation, last)) :
    List.Forall₂ (fun resource file => Follows resource file ∧
      ∃ t entry, last.lookup (parentPath file.path) .directory = some (t, entry) ∧
        last.Answers (·.covers (parentPath file.path) .directory = true) (some (t, entry)) ∧
        file.parentLabel = entry.label) project.resources allocation.files ∧
    last.allocatedEntries = newLabels allocation.files ∧
    ∀ app ∈ allocation.applications, ∃ resource ∈ project.resources, ∃ file,
      Follows resource file ∧ allocation.file? app.path = some file ∧
        file.path = app.path ∧ file.domain = some app.domain := by
  obtain ⟨labelled, inherited, applications, hmake, hinherited, happlications, rfl⟩ :=
    make_eq_ok_iff.1 h
  have hsettled := forall₂_isSettled project.entries hinherited
  have hlast := LabelledFile.eq_addAll_of_makeAll hmake
  have hfollows : List.Forall₂ Follows project.resources
      (settleDomains project.entries inherited) :=
    forall₂_comp (LabelledFile.forall₂_follows_makeAll hmake) hsettled
      fun _ _ _ hfile hnext => hfile.of_isSettled hnext
  -- Masks and labels keep the order of the tiers, so a lookup finds the best entry.
  have hordered : ∀ t, (last.tier t).WellOrdered := by
    rw [hlast]
    exact LabelledFile.wellOrdered_addAll (wellOrdered_maskAll
      (Catalog.wellOrdered_run (Catalog.wellOrdered_make policy system homes custom) changes) _) _
  refine ⟨?_, ?_, fun app happ => ?_⟩
  · have hparents : ∀ file ∈ settleDomains project.entries inherited, Inherits last file :=
      forall_inherits_settleDomains (LabelledFile.forall_inherits hinherited)
    refine ((List.forall₂_and_left _ _).2 ⟨hparents, hfollows.flip⟩).flip.imp ?_
    rintro resource file ⟨⟨t, entry, hlookup, hlabel⟩, hfile⟩
    have hanswers : last.Answers (·.covers (parentPath file.path) .directory = true)
        (last.lookup (parentPath file.path) .directory) := Catalog.answers_search hordered _
    rw [hlookup] at hanswers
    exact ⟨hfile, t, entry, hlookup, hanswers, hlabel⟩
  · rw [hlast, addAll_eq_of_isSettled hsettled,
      LabelledFile.allocatedEntries_addAll, Catalog.allocatedEntries_maskAll hempty,
      List.nil_append]
  · obtain ⟨file, hfile, hdomain⟩ := file?_settled happlications happ
    obtain ⟨resource, hresource, hfollow⟩ :=
      exists_of_forall₂_of_mem_right hfollows (List.mem_of_find?_eq_some hfile)
    exact ⟨resource, hresource, file, hfollow, hfile, by simpa using List.find?_some hfile, hdomain⟩

/-- A file, the directory that it lives in, and the one above, which the system labels. -/
def childFirst : Project where
  name := "demo"
  resources := [
    { path := "/srv/app/run", classWord := "exec_file", typeName := some "run_exec_t" },
    { path := "/srv/app", classWord := "dir", typeName := some "app_dir_t" },
    { path := "/srv", classWord := "dir", isSystem := true }]
  specs := [{ name := "demo.json", applications := [{ path := "/srv/app/run" }] }]

/-- The file has the label of its directory, which is declared later. -/
theorem childFirst_allocation_settles :
    childFirst.check = .ok () ∧ ∃ allocation last run dir above,
      make childFirst rootCatalog [] = .ok (allocation, last) ∧
      allocation.files = [run, dir, above] ∧
      last.allocatedEntries = [run.fileContext, dir.fileContext] ∧
      (∃ t entry, last.lookup "/srv/app" .directory = some (t, entry) ∧
        entry.label = run.parentLabel ∧ run.parentType = dir.typeName) ∧
      above.typeExists = true ∧
      ∃ app ∈ allocation.applications,
        app.path = "/srv/app/run" ∧ run.domain = some app.domain := by
  have hcheck : childFirst.check = .ok () := by decide +kernel
  have hanswer : (make childFirst rootCatalog []).toOption.any fun answer =>
      answer.1.files.map LabelledFile.typeName = ["run_exec_t", "app_dir_t", "root_t"] ∧
      answer.1.files.map LabelledFile.parentType = ["app_dir_t", "root_t", "root_t"] ∧
      answer.1.applications.map ConfinedApplication.path = ["/srv/app/run"] := by
    unfold make childFirst
    simp only [LabelledFile.makeAll, Catalog.allocate, TierEntries.push,
      TierEntries.searchOrder_eq_insertionSort]
    decide +kernel
  obtain ⟨⟨allocation, last⟩, hmake, htypes, hparents, happs⟩ := exists_of_any_toOption hanswer
  obtain ⟨hfiles, hlabels, hdomains⟩ := allocation_settles [] rfl hmake
  obtain ⟨files, hnames⟩ : ∃ files, allocation.files = files := ⟨_, rfl⟩
  rw [hnames] at hfiles hlabels htypes hparents
  obtain _ | ⟨⟨hrun, t, entry, hlookup, -, hlabel⟩, _ | @⟨_, dir, _, _, ⟨hdir, -⟩,
    _ | @⟨_, above, _, _, ⟨habove, -⟩, _ | -⟩⟩⟩ := hfiles
  rename_i run
  have hpath : run.path = "/srv/app/run" := hrun.describes.path
  have hdirectory : parentPath "/srv/app/run" = "/srv/app" := by decide +kernel
  rw [hpath, hdirectory] at hlookup
  -- The system labels the last of the three only.
  have hnew : newLabels [run, dir, above] = [run.fileContext, dir.fileContext] := by
    have hrun : run.isSystem = false := hrun.describes.isSystem
    have hdir : dir.isSystem = false := hdir.describes.isSystem
    have habove : above.isSystem = true := habove.describes.isSystem
    simp [newLabels, hrun, hdir, habove]
  simp only [List.map_cons, List.cons.injEq] at htypes hparents
  obtain ⟨app, happ, happath⟩ : ∃ app ∈ allocation.applications, app.path = "/srv/app/run" :=
    List.mem_map.1 (happs ▸ List.mem_singleton_self _)
  obtain ⟨-, -, file, -, hfile, -, hdomain⟩ := hdomains app happ
  rw [happath, file?, hnames, List.find?_cons_of_pos (by simpa using hpath)] at hfile
  obtain rfl := Option.some.inj hfile
  exact ⟨hcheck, allocation, last, run, dir, above, hmake, hnames, hlabels.trans hnew,
    ⟨t, entry, hlookup, hlabel.symm, hparents.1.trans htypes.2.1.symm⟩,
    habove.typeExists habove.describes.isSystem, app, happ, happath, hdomain⟩

end Allocation

end TypeEnforcement
