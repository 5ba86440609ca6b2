/-
The applications of a project.

The entries of all specs are read in their order.  An entry must name a declared resource; what
entries say about one path is put together, and the domain of a path is settled when it is first
named.  So there is one application for each path, and the order of the entries decides nothing but
the order of the applications.

* `Allocation.Labels` — the resources of a project get their labels;
* `Allocation.mention` — what is known of the files and applications after one entry more;
* `Allocation.Rearranged` — the same specs and entries in another order.

Main statements:
* `applicationsOf_eq` — the applications of entries, or the first path that is no resource;
* `foldlM_mention` — reading the entries one after another gives the same;
* `mem_applicationsOf_iff` — what an application is;
* `applications_of_labels` — the applications of a project whose resources get their labels.
-/
import TypeEnforcement.Proofs.Allocated

namespace TypeEnforcement

/-! ### Lists -/

section Lists

variable {α β : Type}

/-- A step that needs a value of every item succeeds if each has one, and fails otherwise at the
first item without one. -/
theorem mapM_of_option {step : α → Except Fault β} {f : α → Option β} {fault : α → Fault}
    (hsome : ∀ item value, f item = some value → step item = .ok value)
    (hnone : ∀ item, f item = none → step item = .error (fault item)) (items : List α) :
    items.mapM step = (items.find? fun item => (f item).isNone).elim (.ok (items.filterMap f))
      fun item => .error (fault item) := by
  induction items with
  | nil => rfl
  | cons item rest ih =>
    rw [List.mapM_cons, ih]
    cases hitem : f item with
    | none =>
      rw [hnone item hitem, List.find?_cons_of_pos (by simp [hitem])]
      rfl
    | some value =>
      rw [hsome item value hitem, List.find?_cons_of_neg (by simp [hitem]),
        List.filterMap_cons_some hitem]
      cases rest.find? fun item => (f item).isNone <;> rfl

variable [DecidableEq α] {items others : List α}

/-- The items stand in the order in which they first stood. -/
theorem pairwise_idxOf_distinct (items : List α) :
    (distinct items).Pairwise fun x y => items.idxOf x < items.idxOf y := by
  induction items using List.reverseRecOn with
  | nil => exact .nil
  | append_singleton items item ih =>
    -- Items that were seen before keep their first places.
    have hkept : (distinct items).Pairwise fun x y =>
        (items ++ [item]).idxOf x < (items ++ [item]).idxOf y := by
      refine ih.imp_of_mem fun hx hy hlt => ?_
      rwa [List.idxOf_append_of_mem (mem_distinct.1 hx),
        List.idxOf_append_of_mem (mem_distinct.1 hy)]
    rw [distinct_concat]
    split
    · exact hkept
    · rename_i hnew
      refine List.pairwise_append.2 ⟨hkept, List.pairwise_singleton _ _, fun x hx y hy => ?_⟩
      obtain rfl := List.mem_singleton.1 hy
      have hx := mem_distinct.1 hx
      rw [List.idxOf_append_of_mem hx, List.idxOf_append_of_notMem hnew]
      exact Nat.lt_of_lt_of_le (List.idxOf_lt_length_iff.2 hx) (Nat.le_add_right _ _)

theorem distinct_perm (h : items.Perm others) : (distinct items).Perm (distinct others) :=
  (List.perm_ext_iff_of_nodup (nodup_distinct items) (nodup_distinct others)).2 fun item => by
    rw [mem_distinct, mem_distinct, h.mem_iff]

end Lists

namespace Allocation

open LabelledFile (Describes)

variable {project : Project} {catalog last : Catalog} {own : List Installed}
  {files : List LabelledFile} {entries entries' : List ApplicationEntry}
  {path : String} {app : ConfinedApplication}

/-! ### The applications of entries -/

theorem applicationOf?_eq_none_iff :
    applicationOf? files entries path = none ↔ ∀ file ∈ files, file.path ≠ path := by
  simp [applicationOf?]

/-- The applications of entries, or the first path that is no resource. -/
theorem applicationsOf_eq (files : List LabelledFile) (entries : List ApplicationEntry) :
    applicationsOf files entries =
      ((entryPaths entries).find? fun path => (applicationOf? files entries path).isNone).elim
        (.ok ((entryPaths entries).filterMap (applicationOf? files entries)))
        fun path => .error (.undefined .application path) :=
  mapM_of_option (fun _ _ h => by rw [h]) (fun _ h => by rw [h]) (entryPaths entries)

theorem mem_entryPaths_iff : path ∈ entryPaths entries ↔ ∃ entry ∈ entries, entry.path = path := by
  simp [entryPaths]

theorem of_find?_isNone
    (h : ((entryPaths entries).find? fun path => (applicationOf? files entries path).isNone) =
      some path) :
    path ∈ entryPaths entries ∧ applicationOf? files entries path = none :=
  ⟨List.mem_of_find?_eq_some h, by simpa using List.find?_some h⟩

/-- The first path that is no resource is at fault. -/
theorem applicationsOf_eq_error_iff {fault : Fault} :
    applicationsOf files entries = .error fault ↔ ∃ path,
      ((entryPaths entries).find? fun path => (applicationOf? files entries path).isNone) =
        some path ∧ fault = .undefined .application path := by
  rw [applicationsOf_eq]
  cases (entryPaths entries).find? fun path => (applicationOf? files entries path).isNone with
  | none => simp
  | some path => simp [eq_comm]

/-- The applications fail for an entry with a path that is no resource. -/
theorem exists_of_applicationsOf_eq_error {fault : Fault}
    (h : applicationsOf files entries = .error fault) :
    ∃ entry ∈ entries, (∀ file ∈ files, file.path ≠ entry.path) ∧
      fault = .undefined .application entry.path := by
  obtain ⟨path, hfind, rfl⟩ := applicationsOf_eq_error_iff.1 h
  obtain ⟨hpath, hnone⟩ := of_find?_isNone hfind
  obtain ⟨entry, hentry, rfl⟩ := mem_entryPaths_iff.1 hpath
  exact ⟨entry, hentry, applicationOf?_eq_none_iff.1 hnone, rfl⟩

/-- If the applications of entries are known, then every path has its application. -/
theorem applicationsOf_eq_ok_iff {applications : List ConfinedApplication} :
    applicationsOf files entries = .ok applications ↔
      (∀ path ∈ entryPaths entries, applicationOf? files entries path ≠ none) ∧
      applications = (entryPaths entries).filterMap (applicationOf? files entries) := by
  rw [applicationsOf_eq]
  cases hfind : (entryPaths entries).find? fun path =>
      (applicationOf? files entries path).isNone with
  | none =>
    have hall : ∀ path ∈ entryPaths entries, applicationOf? files entries path ≠ none := by
      simpa using hfind
    constructor
    · intro h
      exact ⟨hall, (Except.ok.inj h).symm⟩
    · rintro ⟨-, rfl⟩
      rfl
  | some path =>
    obtain ⟨hpath, hnone⟩ := of_find?_isNone hfind
    constructor
    · intro h
      cases h
    · rintro ⟨hall, -⟩
      exact absurd hnone (hall path hpath)

theorem exists_applicationsOf_eq_error_iff :
    (∃ fault, applicationsOf files entries = .error fault) ↔
      ∃ entry ∈ entries, ∀ file ∈ files, file.path ≠ entry.path := by
  constructor
  · rintro ⟨fault, h⟩
    obtain ⟨entry, hentry, hundeclared, -⟩ := exists_of_applicationsOf_eq_error h
    exact ⟨entry, hentry, hundeclared⟩
  · rintro ⟨entry, hentry, hundeclared⟩
    cases h : applicationsOf files entries with
    | error fault => exact ⟨fault, rfl⟩
    | ok applications =>
      exact absurd (applicationOf?_eq_none_iff.2 hundeclared)
        ((applicationsOf_eq_ok_iff.1 h).1 entry.path (mem_entryPaths_iff.2 ⟨entry, hentry, rfl⟩))

theorem path_of_applicationOf? (h : applicationOf? files entries path = some app) :
    app.path = path := by
  obtain ⟨file, -, rfl⟩ := Option.map_eq_some_iff.1 h
  rfl

/-- There is one application for each path. -/
theorem map_path_applicationsOf {applications : List ConfinedApplication}
    (h : applicationsOf files entries = .ok applications) :
    applications.map ConfinedApplication.path = entryPaths entries := by
  obtain ⟨hall, rfl⟩ := applicationsOf_eq_ok_iff.1 h
  rw [List.map_filterMap]
  refine (List.filterMap_congr fun path hpath => ?_).trans List.filterMap_some
  obtain ⟨app, happ⟩ := Option.ne_none_iff_exists'.1 (hall path hpath)
  rw [happ, Option.map_some, path_of_applicationOf? happ]

theorem mem_applicationsOf_iff {applications : List ConfinedApplication}
    (h : applicationsOf files entries = .ok applications) :
    app ∈ applications ↔
      app.path ∈ entryPaths entries ∧ applicationOf? files entries app.path = some app := by
  obtain ⟨-, rfl⟩ := applicationsOf_eq_ok_iff.1 h
  rw [List.mem_filterMap]
  constructor
  · rintro ⟨path, hpath, happ⟩
    obtain rfl := path_of_applicationOf? happ
    exact ⟨hpath, happ⟩
  · rintro ⟨hpath, happ⟩
    exact ⟨app.path, hpath, happ⟩

/-! ### One entry after another -/

/-- An application after one entry more: what an entry with its path says joins what was said. -/
def absorb (entry : ApplicationEntry) (app : ConfinedApplication) : ConfinedApplication :=
  if app.path = entry.path then
    { app with
      isPermissive := app.isPermissive || entry.isPermissive
      isUnconfined := app.isUnconfined || entry.isUnconfined }
  else app

/-- The files and applications after one entry more.  Its file must be known, and keeps the domain
that it gets here; the application is new, or the entry joins it. -/
def mention (state : List LabelledFile × List ConfinedApplication) (entry : ApplicationEntry) :
    Except Fault (List LabelledFile × List ConfinedApplication) :=
  match state.1.find? (·.path = entry.path) with
  | none => .error (.undefined .application entry.path)
  | some file =>
    .ok (state.1.map (settle [entry]),
      if state.2.any (·.path = entry.path) then state.2.map (absorb entry)
      else state.2 ++ [⟨entry.path, file.processDomain, entry.isPermissive, entry.isUnconfined⟩])

theorem absorb_of_ne {entry : ApplicationEntry} (h : app.path ≠ entry.path) :
    absorb entry app = app :=
  if_neg h

/-- An entry joins the application of its path, and leaves the others alone. -/
theorem applicationOf?_append (files : List LabelledFile) (entries : List ApplicationEntry)
    (entry : ApplicationEntry) (path : String) :
    applicationOf? files (entries ++ [entry]) path =
      (applicationOf? files entries path).map (absorb entry) := by
  unfold applicationOf?
  rw [Option.map_map]
  congr 1
  funext file
  by_cases hpath : entry.path = path
  · simp [absorb, hpath]
  · simp [absorb, hpath, Ne.symm hpath]

theorem entryPaths_append (entries : List ApplicationEntry) (entry : ApplicationEntry) :
    entryPaths (entries ++ [entry]) =
      if entry.path ∈ entryPaths entries then entryPaths entries
      else entryPaths entries ++ [entry.path] := by
  rw [entryPaths, List.map_append, List.map_singleton, distinct_concat]
  simp [entryPaths]

theorem settle_append (entries : List ApplicationEntry) (entry : ApplicationEntry)
    (file : LabelledFile) :
    settle (entries ++ [entry]) file = settle [entry] (settle entries file) := by
  by_cases hentry : entry.path = file.path
  · have hlast : (entries ++ [entry]).any (·.path = file.path) = true := by simp [hentry]
    have hagain : [entry].any (·.path = (settle entries file).path) = true := by simp [hentry]
    rw [settle, if_pos hlast, settle, if_pos hagain, processDomain_settle]
    unfold settle
    split <;> rfl
  · have hagain : ¬[entry].any (·.path = (settle entries file).path) = true := by simp [hentry]
    have hsame : (entries ++ [entry]).any (·.path = file.path) =
        entries.any (·.path = file.path) := by simp [hentry]
    rw [settle.eq_def [entry], if_neg hagain, settle, settle, hsame]

theorem settleDomains_append (entries : List ApplicationEntry) (entry : ApplicationEntry)
    (files : List LabelledFile) :
    settleDomains (entries ++ [entry]) files =
      (settleDomains entries files).map (settle [entry]) := by
  rw [settleDomains_eq_map, settleDomains_eq_map, List.map_map]
  exact List.map_congr_left fun file _ => settle_append entries entry file

/-- What is at fault stays so after one entry more. -/
theorem applicationsOf_append_of_error {fault : Fault}
    (h : applicationsOf files entries = .error fault) (entry : ApplicationEntry) :
    applicationsOf files (entries ++ [entry]) = .error fault := by
  obtain ⟨path, hfind, rfl⟩ := applicationsOf_eq_error_iff.1 h
  refine applicationsOf_eq_error_iff.2 ⟨path, ?_, rfl⟩
  simp only [applicationOf?_append, Option.isNone_map]
  rw [entryPaths_append]
  split
  · exact hfind
  · rw [List.find?_append, hfind, Option.some_or]

/-- Entries leave the applications of other paths alone. -/
theorem map_absorb_of_ne {applications : List ConfinedApplication} {entry : ApplicationEntry}
    (h : ∀ app ∈ applications, app.path ≠ entry.path) :
    applications.map (absorb entry) = applications :=
  (List.map_congr_left fun app happ => absorb_of_ne (h app happ)).trans (List.map_id _)

/-- The application of a path that is named for the first time. -/
theorem applicationOf?_of_new {file : LabelledFile} {entry : ApplicationEntry}
    (hfile : files.find? (·.path = entry.path) = some file)
    (hnew : entry.path ∉ entryPaths entries) :
    applicationOf? files (entries ++ [entry]) entry.path =
      some ⟨entry.path, file.processDomain, entry.isPermissive, entry.isUnconfined⟩ := by
  have hown : entries.filter (·.path = entry.path) = [] :=
    List.filter_eq_nil_iff.2 fun other hother => by
      simpa using fun hpath => hnew (mem_entryPaths_iff.2 ⟨other, hother, hpath⟩)
  simp [applicationOf?, hfile, hown]

/-- An entry whose path is no resource is at fault, if none before it is. -/
theorem applicationsOf_append_of_undeclared {applications : List ConfinedApplication}
    (h : applicationsOf files entries = .ok applications) {entry : ApplicationEntry}
    (hfile : files.find? (·.path = entry.path) = none) :
    applicationsOf files (entries ++ [entry]) = .error (.undefined .application entry.path) := by
  obtain ⟨hall, -⟩ := applicationsOf_eq_ok_iff.1 h
  have hnone : applicationOf? files entries entry.path = none := by
    rw [applicationOf?, hfile, Option.map_none]
  have hnew : entry.path ∉ entryPaths entries := fun hmem => hall _ hmem hnone
  have hbefore : (entryPaths entries).find?
      (fun path => (applicationOf? files entries path).isNone) = none := by
    simpa using hall
  refine applicationsOf_eq_error_iff.2 ⟨entry.path, ?_, rfl⟩
  simp only [applicationOf?_append, Option.isNone_map]
  rw [entryPaths_append, if_neg hnew, List.find?_append, hbefore, Option.none_or,
    List.find?_cons_of_pos (by simp [hnone])]

/-- After one entry more its file is at fault, or its application is new, or the entry joins it. -/
theorem applicationsOf_append_of_ok {applications : List ConfinedApplication}
    (h : applicationsOf files entries = .ok applications) (entry : ApplicationEntry) :
    applicationsOf files (entries ++ [entry]) =
      match files.find? (·.path = entry.path) with
      | none => .error (.undefined .application entry.path)
      | some file => .ok (
        if applications.any (·.path = entry.path) then applications.map (absorb entry)
        else applications ++
          [⟨entry.path, file.processDomain, entry.isPermissive, entry.isUnconfined⟩]) := by
  cases hfile : files.find? (·.path = entry.path) with
  | none => exact applicationsOf_append_of_undeclared h hfile
  | some file =>
    have hpaths := map_path_applicationsOf h
    have hany : applications.any (·.path = entry.path) = true ↔
        entry.path ∈ entryPaths entries := by
      rw [← hpaths]
      simp only [List.any_eq_true, List.mem_map, decide_eq_true_eq]
    obtain ⟨hall, hbefore⟩ := applicationsOf_eq_ok_iff.1 h
    -- The entry changes the application of its own path only.
    have hafter : (entryPaths entries).filterMap (applicationOf? files (entries ++ [entry])) =
        applications.map (absorb entry) := by
      rw [hbefore, List.map_filterMap]
      exact List.filterMap_congr fun path _ => applicationOf?_append files entries entry path
    have hold : ∀ path ∈ entryPaths entries,
        applicationOf? files (entries ++ [entry]) path ≠ none := by
      simpa only [applicationOf?_append, ne_eq, Option.map_eq_none_iff] using hall
    refine applicationsOf_eq_ok_iff.2 ?_
    rw [entryPaths_append]
    simp only [hany]
    split
    · exact ⟨hold, hafter.symm⟩
    · rename_i hnew
      have happlication := applicationOf?_of_new hfile hnew
      have hothers : ∀ app ∈ applications, app.path ≠ entry.path := fun app happ heq =>
        hnew (hpaths ▸ List.mem_map.2 ⟨app, happ, heq⟩)
      refine ⟨List.forall_mem_append.2 ⟨hold, List.forall_mem_singleton.2 ?_⟩, ?_⟩
      · rw [happlication]
        exact Option.some_ne_none _
      · rw [List.filterMap_append, hafter, map_absorb_of_ne hothers,
          List.filterMap_cons_some happlication, List.filterMap_nil]

/-- One entry more is read over the files and applications of those before it. -/
theorem mention_eq {applications : List ConfinedApplication}
    (h : applicationsOf files entries = .ok applications) (entry : ApplicationEntry) :
    mention (settleDomains entries files, applications) entry =
      (applicationsOf files (entries ++ [entry])).map fun applications =>
        (settleDomains (entries ++ [entry]) files, applications) := by
  rw [mention, find?_settleDomains, applicationsOf_append_of_ok h, settleDomains_append]
  cases files.find? (·.path = entry.path) with
  | none => rfl
  | some file =>
    show Except.ok (_, _) = Except.ok (_, _)
    rw [processDomain_settle]

/-- Reading the entries one after another settles the domains of their files, and gives their
applications. -/
theorem foldlM_mention (files : List LabelledFile) (entries : List ApplicationEntry) :
    entries.foldlM mention (files, []) =
      (applicationsOf files entries).map fun applications =>
        (settleDomains entries files, applications) := by
  -- The last entry is read last, over what the entries before it have left.
  induction entries using List.reverseRecOn with
  | nil =>
    have hfiles : settleDomains [] files = files := List.map_id files
    show Except.ok (files, []) = Except.ok (settleDomains [] files, [])
    rw [hfiles]
  | append_singleton entries entry ih =>
    rw [List.foldlM_append, ih]
    cases happlications : applicationsOf files entries with
    | ok applications =>
      rw [← mention_eq happlications]
      show mention (settleDomains entries files, applications) entry >>= pure = _
      exact bind_pure _
    | error fault =>
      rw [applicationsOf_append_of_error happlications]
      rfl

/-! ### The same entries in another order -/

theorem applicationOf?_perm (h : entries.Perm entries') :
    applicationOf? files entries path = applicationOf? files entries' path := by
  have hown := h.filter (·.path = path)
  unfold applicationOf?
  simp only [hown.any_eq]

theorem entryPaths_perm (h : entries.Perm entries') :
    (entryPaths entries).Perm (entryPaths entries') :=
  distinct_perm (h.map _)

theorem settleDomains_perm (h : entries.Perm entries') :
    settleDomains entries files = settleDomains entries' files := by
  rw [settleDomains_eq_map, settleDomains_eq_map]
  refine List.map_congr_left fun file _ => ?_
  rw [settle, settle, h.any_eq]

/-- The order of the entries decides nothing but the order of the applications. -/
theorem applicationsOf_perm (h : entries.Perm entries') {applications : List ConfinedApplication}
    (happlications : applicationsOf files entries = .ok applications) :
    ∃ applications', applicationsOf files entries' = .ok applications' ∧
      applications'.Perm applications := by
  obtain ⟨hall, rfl⟩ := applicationsOf_eq_ok_iff.1 happlications
  have hpaths := entryPaths_perm h
  refine ⟨_, applicationsOf_eq_ok_iff.2 ⟨fun path hpath => ?_, rfl⟩, ?_⟩
  · rw [← applicationOf?_perm h]
    exact hall path (hpaths.mem_iff.2 hpath)
  · have hsame : applicationOf? files entries' = applicationOf? files entries :=
      funext fun path => (applicationOf?_perm h).symm
    rw [hsame]
    exact (hpaths.filterMap _).symm

/-- The specs in another order, with the entries of each spec in another order. -/
def Rearranged (specs specs' : List Spec) : Prop :=
  ∃ shuffled, specs.Perm shuffled ∧ List.Forall₂ (fun spec spec' => spec.name = spec'.name ∧
    spec.applications.Perm spec'.applications) shuffled specs'

theorem Rearranged.perm {specs specs' : List Spec} (h : Rearranged specs specs') :
    (specs.flatMap Spec.applications).Perm (specs'.flatMap Spec.applications) := by
  obtain ⟨shuffled, hperm, hspecs⟩ := h
  refine (hperm.flatMap_right _).trans ?_
  clear hperm
  induction hspecs with
  | nil => exact .nil
  | cons hspec _ ih => exact hspec.2.append ih

/-! ### Files and the domains of resources -/

/-- A file that stands for a resource, with the domain that the resource chooses. -/
def Configures (resource : Resource) (file : LabelledFile) : Prop :=
  Describes resource file ∧ file.domain = resource.domain.filter (· ≠ "")

theorem configures_make {ownTypes : List String} {resource : Resource} {file : LabelledFile}
    (h : LabelledFile.make catalog ownTypes resource = .ok file) : Configures resource file := by
  refine ⟨LabelledFile.describes_make h, ?_⟩
  obtain ⟨fileClass, isExecutable, -, ⟨-, hkeep⟩ | ⟨-, -, ⟨name, hchoose⟩ | rfl⟩⟩ :=
    LabelledFile.make_cases h
  · obtain ⟨entry, -, rfl⟩ := LabelledFile.exists_of_keepLabel hkeep
    rfl
  · obtain ⟨-, typeExists, rfl⟩ := LabelledFile.exists_of_chooseType hchoose
    rfl
  · rfl

theorem configures_inherit {resource : Resource} {file next : LabelledFile}
    (hfile : Configures resource file) (h : LabelledFile.inherit last file = .ok next) :
    Configures resource next := by
  refine ⟨LabelledFile.describes_inherit h hfile.1, ?_⟩
  obtain ⟨t, entry, -, rfl⟩ := LabelledFile.exists_of_inherit h
  exact hfile.2

/-- The file of a path stands for the resource of the path. -/
theorem exists_resource_of_find? {resources : List Resource}
    (h : List.Forall₂ Configures resources files) {file : LabelledFile}
    (hfile : files.find? (·.path = path) = some file) :
    ∃ resource, resources.find? (·.path = path) = some resource ∧ Configures resource file := by
  induction h with
  | nil => cases hfile
  | @cons resource first _ _ hfirst _ ih =>
    have hpath : first.path = resource.path := hfirst.1.path
    by_cases hresource : resource.path = path
    · rw [List.find?_cons_of_pos (by simpa [hpath] using hresource)] at hfile
      obtain rfl := Option.some.inj hfile
      exact ⟨resource, List.find?_cons_of_pos (by simpa using hresource), hfirst⟩
    · rw [List.find?_cons_of_neg (by simpa [hpath] using hresource)] at hfile
      obtain ⟨found, hfound, hconfigures⟩ := ih hfile
      exact ⟨found, (List.find?_cons_of_neg (by simpa using hresource)).trans hfound, hconfigures⟩

/-! ### Projects -/

/-- The resources of a project get their labels, and then those of their directories. -/
def Labels (project : Project) (catalog : Catalog) (own : List Installed)
    (files : List LabelledFile) (last : Catalog) : Prop :=
  ∃ labelled, LabelledFile.makeAll (own.flatMap Installed.types)
      (maskAll catalog (own.flatMap Installed.patterns)) project.resources = .ok (labelled, last) ∧
    labelled.mapM (LabelledFile.inherit last) = .ok files

/-- An application runs in the domain of its resource, or else in one named after its type, and its
flags are set if any entry with its path sets them. -/
structure Gathers (project : Project) (allocation : Allocation) (app : ConfinedApplication) :
    Prop where
  domain : ∃ resource file, project.resources.find? (·.path = app.path) = some resource ∧
    allocation.file? app.path = some file ∧ Describes resource file ∧
    app.domain = (resource.domain.filter (· ≠ "")).getD (TypeName.domainOf file.typeName)
  isPermissive : app.isPermissive = true ↔
    ∃ entry ∈ project.entries, entry.path = app.path ∧ entry.isPermissive = true
  isUnconfined : app.isUnconfined = true ↔
    ∃ entry ∈ project.entries, entry.path = app.path ∧ entry.isUnconfined = true

theorem exists_labels_of_make {allocation : Allocation}
    (h : make project catalog own = .ok (allocation, last)) :
    ∃ files, Labels project catalog own files last := by
  obtain ⟨labelled, files, -, hmake, hinherit, -, -⟩ := make_eq_ok_iff.1 h
  exact ⟨files, labelled, hmake, hinherit⟩

theorem Labels.configures (h : Labels project catalog own files last) :
    List.Forall₂ Configures project.resources files := by
  obtain ⟨labelled, hmake, hinherit⟩ := h
  have hconfigures : List.Forall₂ Configures project.resources labelled :=
    (LabelledFile.forall₂_makeAll hmake).imp fun _ _ ⟨_, _, hfile⟩ => configures_make hfile
  exact forall₂_comp hconfigures (forall₂_of_mapM_eq_ok hinherit)
    fun _ _ _ hfile hnext => configures_inherit hfile hnext

/-- Once the resources have their labels, only the applications can be at fault. -/
theorem Labels.make_eq (h : Labels project catalog own files last) :
    make project catalog own = (applicationsOf files project.entries).map fun applications =>
      ({ files := settleDomains project.entries files
         applications := applications
         ownTypes := own.flatMap Installed.types
         ownPatterns := own.flatMap Installed.patterns }, last) := by
  obtain ⟨labelled, hmake, hinherit⟩ := h
  simp only [make, hmake, hinherit, bind, Except.bind]
  cases applicationsOf files project.entries with
  | ok applications => rfl
  | error fault => rfl

theorem Labels.forall_ne_iff (h : Labels project catalog own files last) :
    (∀ file ∈ files, file.path ≠ path) ↔ ∀ resource ∈ project.resources, resource.path ≠ path := by
  have hfiles := h.configures
  constructor
  · intro hall resource hresource
    obtain ⟨file, hfile, hdescribes, -⟩ := exists_of_forall₂_of_mem_left hfiles hresource
    rw [← hdescribes.path]
    exact hall file hfile
  · intro hall file hfile
    obtain ⟨resource, hresource, hdescribes, -⟩ := exists_of_forall₂_of_mem_right hfiles hfile
    rw [hdescribes.path]
    exact hall resource hresource

theorem Labels.make_eq_error_iff (h : Labels project catalog own files last) {fault : Fault} :
    make project catalog own = .error fault ↔
      applicationsOf files project.entries = .error fault := by
  rw [h.make_eq]
  cases applicationsOf files project.entries <;> simp [Except.map]

/-- A project whose applications are known is allocated. -/
theorem Labels.make_eq_ok (h : Labels project catalog own files last)
    {applications : List ConfinedApplication}
    (happlications : applicationsOf files project.entries = .ok applications) :
    make project catalog own = .ok
      ({ files := settleDomains project.entries files
         applications := applications
         ownTypes := own.flatMap Installed.types
         ownPatterns := own.flatMap Installed.patterns }, last) := by
  rw [h.make_eq, happlications]
  rfl

theorem Labels.exists_of_make_eq_ok (h : Labels project catalog own files last)
    {allocation : Allocation} {next : Catalog}
    (hmake : make project catalog own = .ok (allocation, next)) :
    applicationsOf files project.entries = .ok allocation.applications ∧ next = last ∧
      allocation =
        { files := settleDomains project.entries files
          applications := allocation.applications
          ownTypes := own.flatMap Installed.types
          ownPatterns := own.flatMap Installed.patterns } := by
  cases happlications : applicationsOf files project.entries with
  | error fault =>
    rw [h.make_eq_error_iff.2 happlications] at hmake
    cases hmake
  | ok applications =>
    rw [h.make_eq_ok happlications] at hmake
    cases hmake
    exact ⟨rfl, rfl, rfl⟩

theorem Labels.gathers (h : Labels project catalog own files last) {allocation : Allocation}
    {next : Catalog} (hmake : make project catalog own = .ok (allocation, next))
    (happ : app ∈ allocation.applications) : Gathers project allocation app := by
  obtain ⟨happlications, -, hallocation⟩ := h.exists_of_make_eq_ok hmake
  obtain ⟨-, happ⟩ := (mem_applicationsOf_iff happlications).1 happ
  obtain ⟨file, hfile, happ⟩ := Option.map_eq_some_iff.1 happ
  obtain ⟨resource, hresource, hdescribes, hdomain⟩ := exists_resource_of_find? h.configures hfile
  refine ⟨⟨resource, settle project.entries file, hresource, ?_, ?_, ?_⟩, ?_, ?_⟩
  · rw [file?, hallocation, find?_settleDomains, hfile, Option.map_some]
  · exact describes_settle hdescribes project.entries
  · rw [← happ, ← hdomain, typeName_settle]
    rfl
  · rw [← happ]
    simp
  · rw [← happ]
    simp

/-- The applications of a project whose resources get their labels.  They fail exactly for an entry
whose path is no resource.  Otherwise there is one application for each path, in the order in which
the paths are first named, and it gathers what all entries with its path say.  The order of the
specs, and of the entries in a spec, decides nothing but the order of the applications. -/
theorem applications_of_labels (h : Labels project catalog own files last) :
    ((∃ fault, make project catalog own = .error fault) ↔
      ∃ entry ∈ project.entries, ∀ resource ∈ project.resources, resource.path ≠ entry.path) ∧
    (∀ fault, make project catalog own = .error fault → ∃ entry ∈ project.entries,
      (∀ resource ∈ project.resources, resource.path ≠ entry.path) ∧
        fault = .undefined .application entry.path) ∧
    (∀ allocation next, make project catalog own = .ok (allocation, next) →
      let paths := allocation.applications.map ConfinedApplication.path
      let mentions := project.entries.map ApplicationEntry.path
      paths.Nodup ∧ (∀ path, path ∈ paths ↔ path ∈ mentions) ∧
      (paths.Pairwise fun a b => mentions.idxOf a < mentions.idxOf b) ∧
      ∀ app ∈ allocation.applications, Gathers project allocation app) ∧
    ∀ specs, Rearranged project.specs specs →
      let other := { project with specs := specs }
      ((∃ fault, make other catalog own = .error fault) ↔
        ∃ fault, make project catalog own = .error fault) ∧
      ∀ allocation next, make project catalog own = .ok (allocation, next) →
        ∃ applications, applications.Perm allocation.applications ∧
          make other catalog own =
            .ok ({ allocation with applications := applications }, next) := by
  refine ⟨?_, fun fault hfault => ?_, fun allocation next hmake => ?_, fun specs hspecs => ?_⟩
  · simp only [h.make_eq_error_iff, exists_applicationsOf_eq_error_iff, h.forall_ne_iff]
  · obtain ⟨entry, hentry, hundeclared, rfl⟩ :=
      exists_of_applicationsOf_eq_error (h.make_eq_error_iff.1 hfault)
    exact ⟨entry, hentry, h.forall_ne_iff.1 hundeclared, rfl⟩
  · obtain ⟨happlications, -, -⟩ := h.exists_of_make_eq_ok hmake
    intro paths mentions
    have hpaths : paths = distinct mentions := map_path_applicationsOf happlications
    rw [hpaths]
    exact ⟨nodup_distinct mentions, fun _ => mem_distinct, pairwise_idxOf_distinct mentions,
      fun app happ => h.gathers hmake happ⟩
  · -- The labels come before the applications, and do not look at the specs.
    have hother : Labels { project with specs := specs } catalog own files last := h
    have hentries : project.entries.Perm (specs.flatMap Spec.applications) := hspecs.perm
    refine ⟨?_, fun allocation next hmake => ?_⟩
    · simp only [h.make_eq_error_iff, hother.make_eq_error_iff, exists_applicationsOf_eq_error_iff]
      exact exists_congr fun entry => and_congr_left' hentries.mem_iff.symm
    · obtain ⟨happlications, rfl, hallocation⟩ := h.exists_of_make_eq_ok hmake
      obtain ⟨applications, happlications', hperm⟩ := applicationsOf_perm hentries happlications
      refine ⟨applications, hperm, (hother.make_eq_ok happlications').trans ?_⟩
      rw [hallocation, settleDomains_perm hentries]
      rfl

/-- Two applications; two specs name one of them, each with another flag. -/
def twiceNamed : Project where
  name := "demo"
  resources := [
    { path := "/srv/a", classWord := "exec_file", typeName := some "a_exec_t" },
    { path := "/srv/b", classWord := "exec_file", domain := some "b_t" }]
  specs := [
    { name := "first.json"
      applications := [{ path := "/srv/b", isPermissive := true }, { path := "/srv/a" }] },
    { name := "second.json", applications := [{ path := "/srv/b", isUnconfined := true }] }]

/-- Both flags are set; and a path that is no resource is at fault. -/
theorem twiceNamed_applications_of_labels :
    twiceNamed.check = .ok () ∧ ∃ files last allocation a b,
      Labels twiceNamed rootCatalog [] files last ∧
      make twiceNamed rootCatalog [] = .ok (allocation, last) ∧
      allocation.applications = [b, a] ∧
      (b.path = "/srv/b" ∧ b.isPermissive = true ∧ b.isUnconfined = true ∧ b.domain = "b_t") ∧
      (a.path = "/srv/a" ∧ a.isPermissive = false ∧ a.domain = "a_t") ∧
      ∃ fault, make
        { twiceNamed with
          specs := [{ name := "third.json", applications := [{ path := "/srv/c" }] }] }
        rootCatalog [] = .error fault := by
  have hcheck : twiceNamed.check = .ok () := by decide +kernel
  have hanswer : (make twiceNamed rootCatalog []).toOption.any fun answer =>
      answer.1.applications.map ConfinedApplication.path = ["/srv/b", "/srv/a"] ∧
      answer.1.applications.map ConfinedApplication.domain = ["b_t", "a_t"] := by
    unfold make twiceNamed
    simp only [LabelledFile.makeAll, Catalog.allocate, TierEntries.push,
      TierEntries.searchOrder_eq_insertionSort]
    decide +kernel
  obtain ⟨⟨allocation, last⟩, hmake, hpaths, hdomains⟩ := exists_of_any_toOption hanswer
  obtain ⟨files, hlabels⟩ := exists_labels_of_make hmake
  obtain ⟨-, -, hresult, -⟩ := applications_of_labels hlabels
  obtain ⟨-, -, -, hgathers⟩ := hresult allocation last hmake
  obtain ⟨b, others, happlications, hb, hothers⟩ := List.map_eq_cons_iff.1 hpaths
  obtain ⟨a, rest, rfl, ha, hrest⟩ := List.map_eq_cons_iff.1 hothers
  obtain rfl := List.map_eq_nil_iff.1 hrest
  have happlications : allocation.applications = [b, a] := happlications
  rw [happlications] at hgathers hdomains
  obtain ⟨-, hpermissive, hunconfined⟩ := hgathers b (by simp)
  obtain ⟨-, hpermissive', -⟩ := hgathers a (by simp)
  rw [hb] at hpermissive hunconfined
  rw [ha] at hpermissive'
  simp only [List.map_cons, List.map_nil, List.cons.injEq, and_true] at hdomains
  have hthird : Labels
      { twiceNamed with
        specs := [{ name := "third.json", applications := [{ path := "/srv/c" }] }] }
      rootCatalog [] files last := hlabels
  refine ⟨hcheck, files, last, allocation, a, b, hlabels, hmake, happlications,
    ⟨hb, hpermissive.2 (by decide), hunconfined.2 (by decide), hdomains.1⟩, ⟨ha, ?_, hdomains.2⟩,
    (applications_of_labels hthird).1.2 (by decide)⟩
  exact Bool.eq_false_iff.2 fun h => absurd (hpermissive'.1 h) (by decide)

end Allocation

end TypeEnforcement
