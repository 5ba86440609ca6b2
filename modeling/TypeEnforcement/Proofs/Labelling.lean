/-
Which file stands for which resource.

Each resource of a project becomes one file, in the order of declaration, and keeps its path, its
class and whether the system labels it through all stages of the allocation.

* `LabelledFile.Describes` — what a file takes over from its resource;
* `Allocation.settle` — a file once the domains of the applications are settled.

Main statements:
* `make_eq_ok_iff` — how a resource gets its label;
* `describes_of_allocate` — the files of an allocation describe the resources one by one;
* `exists_file?_of_mem` — so every resource is found under its path, if no path is declared twice.
-/
import Mathlib.Data.List.Forall2
import Mathlib.Data.List.Nodup
import TypeEnforcement.Assembly

namespace TypeEnforcement

/-! ### Lists side by side -/

section Forall₂

variable {α β γ : Type} {R : α → β → Prop} {items : List α} {others : List β}

theorem exists_of_forall₂_of_mem_left (h : List.Forall₂ R items others) {item : α}
    (hitem : item ∈ items) : ∃ other ∈ others, R item other := by
  obtain ⟨place, hplace, rfl⟩ := List.getElem_of_mem hitem
  have hother : place < others.length := h.length_eq ▸ hplace
  exact ⟨others[place], List.getElem_mem hother, h.get hplace hother⟩

theorem exists_of_forall₂_of_mem_right (h : List.Forall₂ R items others) {other : β}
    (hother : other ∈ others) : ∃ item ∈ items, R item other := by
  obtain ⟨place, hplace, rfl⟩ := List.getElem_of_mem hother
  have hitem : place < items.length := h.length_eq ▸ hplace
  exact ⟨items[place], List.getElem_mem hitem, h.get hitem hplace⟩

/-- The items of a list and the values of a step that succeeds for all of them. -/
theorem forall₂_of_mapM_eq_ok {f : α → Except Fault β} (h : items.mapM f = .ok others) :
    List.Forall₂ (fun item other => f item = .ok other) items others := by
  induction items generalizing others with
  | nil =>
    cases h
    exact .nil
  | cons item rest ih =>
    obtain ⟨other, further, hother, hfurther, rfl⟩ := mapM_cons_eq_ok_iff.1 h
    exact .cons hother (ih hfurther)

theorem forall₂_comp {S : β → γ → Prop} {T : α → γ → Prop} {last : List γ}
    (h : List.Forall₂ R items others) (hnext : List.Forall₂ S others last)
    (hcomp : ∀ x y z, R x y → S y z → T x z) : List.Forall₂ T items last := by
  induction h generalizing last with
  | nil =>
    cases hnext
    exact .nil
  | cons hitem _ ih =>
    obtain ⟨z, further, hz, hfurther, rfl⟩ := List.forall₂_cons_left_iff.1 hnext
    exact .cons (hcomp _ _ _ hitem hz) (ih hfurther)

end Forall₂

/-! ### Files and their resources -/

namespace LabelledFile

/-- What a file takes over from its resource. -/
structure Describes (resource : Resource) (file : LabelledFile) : Prop where
  path : file.path = resource.path
  pattern : file.pattern = String.ofList (Path.labelPattern resource.path.toList)
  fileClass : FileClass.ofKeyword? resource.classWord = some (file.fileClass, file.isExecutable)
  isSystem : file.isSystem = resource.isSystem

variable {catalog last : Catalog} {ownTypes : List String} {resource : Resource}
  {file next : LabelledFile}

/-- The word for the class of a resource tells the class of its file. -/
theorem Describes.fileClass_eq (h : Describes resource file) {fileClass : FileClass}
    {isExecutable : Bool}
    (hword : FileClass.ofKeyword? resource.classWord = some (fileClass, isExecutable)) :
    file.fileClass = fileClass :=
  congrArg Prod.fst (Option.some.inj (h.fileClass.symm.trans hword))

/-- The file of a resource before it has a label. -/
def unlabelled (resource : Resource) (fileClass : FileClass) (isExecutable : Bool) :
    LabelledFile where
  path := resource.path
  pattern := String.ofList (Path.labelPattern resource.path.toList)
  fileClass := fileClass
  label := {}
  domain := resource.domain.filter (· ≠ "")
  isPrivate := resource.isPrivate
  isExecutable := isExecutable

/-- A file with the type that its resource chooses, or one made of its path. -/
def newlyLabelled (catalog : Catalog) (ownTypes : List String) (resource : Resource)
    (start : LabelledFile) : Except Fault LabelledFile :=
  match resource.typeName.filter (· ≠ "") with
  | some name => chooseType catalog.policy ownTypes name start
  | none => pure { start with
      label := .object (TypeName.synthesize resource.path start.fileClass start.isExecutable) }

theorem newlyLabelled_cases {start : LabelledFile}
    (h : newlyLabelled catalog ownTypes resource start = .ok file) :
    (∃ name, chooseType catalog.policy ownTypes name start = .ok file) ∨
      file = { start with
        label := .object
          (TypeName.synthesize resource.path start.fileClass start.isExecutable) } := by
  unfold newlyLabelled at h
  split at h
  · rename_i name _
    exact .inl ⟨name, h⟩
  · cases h
    exact .inr rfl

/-- A resource is labelled if its class is known and its domain has the right form, and if it keeps
the label that the system gives it or gets a new one. -/
theorem make_eq_ok_iff :
    make catalog ownTypes resource = .ok file ↔ ∃ fileClass isExecutable,
      FileClass.ofKeyword? resource.classWord = some (fileClass, isExecutable) ∧
      (∀ domain ∈ resource.domain.filter (· ≠ ""), TypeName.IsValid domain) ∧
      let start := unlabelled resource fileClass isExecutable
      let found := (catalog.lookup (lookupPath resource.path) fileClass).map Prod.snd
      (resource.isSystem = true ∧ keepLabel resource found start = .ok file ∨
        resource.isSystem = false ∧ found.any (·.pattern = start.pattern) = false ∧
          newlyLabelled catalog ownTypes resource start = .ok file) := by
  have hlabel (fileClass : FileClass) (isExecutable : Bool) :
      let start := unlabelled resource fileClass isExecutable
      let found := (catalog.lookup (lookupPath resource.path) fileClass).map Prod.snd
      (if resource.isSystem then keepLabel resource found start
        else if found.any (·.pattern = start.pattern) then throw (.config .alreadyLabelled)
        else newlyLabelled catalog ownTypes resource start : Except Fault LabelledFile) = .ok file ↔
      (resource.isSystem = true ∧ keepLabel resource found start = .ok file ∨
        resource.isSystem = false ∧ found.any (·.pattern = start.pattern) = false ∧
          newlyLabelled catalog ownTypes resource start = .ok file) := by
    intro start found
    cases resource.isSystem <;> cases found.any (·.pattern = start.pattern) <;>
      simp [throw, throwThe, MonadExceptOf.throw]
  unfold make
  dsimp only
  cases hclass : FileClass.ofKeyword? resource.classWord with
  | none => simp [bind, Except.bind]
  | some found =>
    obtain ⟨fileClass, isExecutable⟩ := found
    constructor
    · intro h
      obtain ⟨_, ⟨⟩, h⟩ := bind_eq_ok_iff.1 h
      refine ⟨fileClass, isExecutable, rfl,
        (and_congr_right' (hlabel fileClass isExecutable)).1 ?_⟩
      split at h
      · rename_i name hname
        split at h
        · cases h
        · rename_i hvalid
          refine ⟨fun domain hdomain => ?_, h⟩
          obtain rfl := Option.some.inj (hname.symm.trans hdomain)
          exact not_not.1 hvalid
      · rename_i hnone
        exact ⟨fun domain hdomain => absurd hdomain (hnone domain), h⟩
    · rintro ⟨_, _, ⟨⟩, hvalid, h⟩
      have h := (hlabel fileClass isExecutable).2 h
      refine bind_eq_ok_iff.2 ⟨_, rfl, ?_⟩
      split
      · rename_i name hname
        rw [if_neg (not_not.2 (hvalid name hname))]
        exact h
      · exact h

/-- A resource keeps the label that the system gives it, or it gets a type that the project chooses,
or one made of its path. -/
theorem make_cases (h : make catalog ownTypes resource = .ok file) :
    ∃ fileClass isExecutable,
      FileClass.ofKeyword? resource.classWord = some (fileClass, isExecutable) ∧
      let start := unlabelled resource fileClass isExecutable
      let found := (catalog.lookup (lookupPath resource.path) fileClass).map Prod.snd
      (resource.isSystem = true ∧ keepLabel resource found start = .ok file ∨
        resource.isSystem = false ∧ found.any (·.pattern = start.pattern) = false ∧
          ((∃ name, chooseType catalog.policy ownTypes name start = .ok file) ∨
            file = { start with
              label := .object (TypeName.synthesize resource.path fileClass isExecutable) })) := by
  obtain ⟨fileClass, isExecutable, hclass, -, hcases⟩ := make_eq_ok_iff.1 h
  refine ⟨fileClass, isExecutable, hclass, hcases.imp_right ?_⟩
  rintro ⟨hsystem, hnew, hlabelled⟩
  exact ⟨hsystem, hnew, newlyLabelled_cases hlabelled⟩

/-- A kept label is one that was found. -/
theorem exists_of_keepLabel {found : Option FileContext} {start : LabelledFile}
    (h : keepLabel resource found start = .ok file) : ∃ entry, found = some entry ∧
      file = { start with label := entry.label, typeExists := true, isSystem := true } := by
  unfold keepLabel at h
  split at h
  · cases h
  · split at h
    · cases h
    · split at h
      · cases h
      · cases h
        exact ⟨_, rfl, rfl⟩

/-- A chosen type is the one that was asked for. -/
theorem exists_of_chooseType {policy : SystemPolicy} {name : String} {start : LabelledFile}
    (h : chooseType policy ownTypes name start = .ok file) : TypeName.IsValid name ∧
      ∃ typeExists, file = { start with label := .object name, typeExists := typeExists } := by
  unfold chooseType at h
  dsimp only at h
  split at h
  · cases h
  · rename_i hvalid
    refine ⟨not_not.1 hvalid, ?_⟩
    split at h
    · cases h
      exact ⟨_, rfl⟩
    · split at h
      · cases h
      · cases h
        exact ⟨_, rfl⟩

theorem describes_make (h : make catalog ownTypes resource = .ok file) :
    Describes resource file := by
  obtain ⟨fileClass, isExecutable, hclass, hcases⟩ := make_cases h
  -- However the label comes about, what the resource fixes is in the file from the start.
  obtain ⟨hsystem, hkeep⟩ | ⟨hsystem, -, ⟨name, hchoose⟩ | rfl⟩ := hcases
  · obtain ⟨entry, -, rfl⟩ := exists_of_keepLabel hkeep
    exact ⟨rfl, rfl, hclass, hsystem.symm⟩
  · obtain ⟨-, typeExists, rfl⟩ := exists_of_chooseType hchoose
    exact ⟨rfl, rfl, hclass, hsystem.symm⟩
  · exact ⟨rfl, rfl, hclass, hsystem.symm⟩

/-- A file inherits the label that its directory has in the catalog. -/
theorem exists_of_inherit (h : inherit catalog file = .ok next) : ∃ t entry,
    catalog.lookup (String.ofList (Path.fold (Path.directory file.path.toList))) .directory =
      some (t, entry) ∧ next = { file with parentLabel := entry.label } := by
  unfold inherit at h
  dsimp only at h
  split at h
  · rename_i t entry hlookup
    cases h
    exact ⟨t, entry, hlookup, rfl⟩
  · cases h

theorem describes_inherit (h : inherit catalog file = .ok next) (hfile : Describes resource file) :
    Describes resource next := by
  obtain ⟨t, entry, -, rfl⟩ := exists_of_inherit h
  exact ⟨hfile.path, hfile.pattern, hfile.fileClass, hfile.isSystem⟩

/-- The catalog after a file: a new label joins it. -/
def addTo (catalog : Catalog) (file : LabelledFile) : Catalog :=
  if file.isSystem then catalog else catalog.allocate file.fileContext

theorem policy_addTo (catalog : Catalog) (file : LabelledFile) :
    (addTo catalog file).policy = catalog.policy := by
  unfold addTo
  split <;> rfl

/-- Resources are labelled if the first one is, and then the others over its label. -/
theorem makeAll_cons_eq_ok_iff {rest : List Resource} {files : List LabelledFile} :
    makeAll ownTypes catalog (resource :: rest) = .ok (files, last) ↔ ∃ file others,
      make catalog ownTypes resource = .ok file ∧
      makeAll ownTypes (addTo catalog file) rest = .ok (others, last) ∧
      files = file :: others := by
  rw [makeAll, bind_eq_ok_iff]
  constructor
  · rintro ⟨file, hfile, h⟩
    obtain ⟨⟨others, after⟩, hothers, h⟩ := bind_eq_ok_iff.1 h
    cases h
    exact ⟨file, others, Scope.wrap_eq_ok_iff.1 hfile, hothers, rfl⟩
  · rintro ⟨file, others, hfile, hothers, rfl⟩
    exact ⟨file, Scope.wrap_eq_ok_iff.2 hfile, bind_eq_ok_iff.2 ⟨_, hothers, rfl⟩⟩

/-- Each file is made of its resource, over a catalog with the policy of the host. -/
theorem forall₂_makeAll {resources : List Resource} {files : List LabelledFile}
    (h : makeAll ownTypes catalog resources = .ok (files, last)) :
    List.Forall₂ (fun resource file => ∃ before : Catalog, before.policy = catalog.policy ∧
      make before ownTypes resource = .ok file) resources files := by
  induction resources generalizing catalog files with
  | nil =>
    cases h
    exact .nil
  | cons resource rest ih =>
    obtain ⟨file, others, hfile, hothers, rfl⟩ := makeAll_cons_eq_ok_iff.1 h
    refine .cons ⟨catalog, rfl, hfile⟩ ((ih hothers).imp fun _ _ ⟨before, hpolicy, hmake⟩ => ?_)
    exact ⟨before, hpolicy.trans (policy_addTo catalog file), hmake⟩

theorem describes_makeAll {resources : List Resource} {files : List LabelledFile}
    (h : makeAll ownTypes catalog resources = .ok (files, last)) :
    List.Forall₂ Describes resources files :=
  (forall₂_makeAll h).imp fun _ _ ⟨_, _, hmake⟩ => describes_make hmake

theorem describes_inheritAll {resources : List Resource} {files inherited : List LabelledFile}
    (hfiles : List.Forall₂ Describes resources files)
    (h : files.mapM (inherit catalog) = .ok inherited) :
    List.Forall₂ Describes resources inherited :=
  forall₂_comp hfiles (forall₂_of_mapM_eq_ok h) fun _ _ _ hfile hinherit =>
    describes_inherit hinherit hfile

end LabelledFile

open LabelledFile (Describes)

namespace Allocation

/-- A file after the last round: the domain of an application is settled. -/
def settle (entries : List ApplicationEntry) (file : LabelledFile) : LabelledFile :=
  if entries.any (·.path = file.path) then { file with domain := some file.processDomain } else file

theorem settleDomains_eq_map (entries : List ApplicationEntry) (files : List LabelledFile) :
    settleDomains entries files = files.map (settle entries) :=
  rfl

section

variable (entries : List ApplicationEntry) (file : LabelledFile)

@[simp] theorem path_settle : (settle entries file).path = file.path := by
  unfold settle
  split <;> rfl

@[simp] theorem typeName_settle : (settle entries file).typeName = file.typeName := by
  unfold settle
  split <;> rfl

@[simp] theorem parentLabel_settle : (settle entries file).parentLabel = file.parentLabel := by
  unfold settle
  split <;> rfl

/-- The domain of a settled file does not change any more. -/
@[simp] theorem processDomain_settle :
    (settle entries file).processDomain = file.processDomain := by
  unfold settle
  split <;> rfl

end

theorem domain_settle {entries : List ApplicationEntry} {file : LabelledFile}
    (h : ∃ entry ∈ entries, entry.path = file.path) :
    (settle entries file).domain = some file.processDomain := by
  rw [settle, if_pos (by simpa using h)]

theorem describes_settle {resource : Resource} {file : LabelledFile} (h : Describes resource file)
    (entries : List ApplicationEntry) : Describes resource (settle entries file) := by
  unfold settle
  split
  · exact ⟨h.path, h.pattern, h.fileClass, h.isSystem⟩
  · exact h

theorem describes_settleDomains (entries : List ApplicationEntry) {resources : List Resource}
    {files : List LabelledFile} (h : List.Forall₂ Describes resources files) :
    List.Forall₂ Describes resources (settleDomains entries files) := by
  rw [settleDomains_eq_map, List.forall₂_map_right_iff]
  exact h.imp fun _ _ hfile => describes_settle hfile entries

/-- A project is allocated if its resources are labelled, the directories that they live in have
labels, and its applications are among them. -/
theorem make_eq_ok_iff {project : Project} {catalog last : Catalog} {own : List Installed}
    {allocation : Allocation} :
    make project catalog own = .ok (allocation, last) ↔ ∃ files inherited applications,
      LabelledFile.makeAll (own.flatMap Installed.types)
        (maskAll catalog (own.flatMap Installed.patterns)) project.resources = .ok (files, last) ∧
      files.mapM (LabelledFile.inherit last) = .ok inherited ∧
      applicationsOf inherited project.entries = .ok applications ∧
      allocation =
        { files := settleDomains project.entries inherited
          applications := applications
          ownTypes := own.flatMap Installed.types
          ownPatterns := own.flatMap Installed.patterns } := by
  rw [make, bind_eq_ok_iff]
  constructor
  · rintro ⟨⟨files, labelled⟩, hfiles, h⟩
    obtain ⟨inherited, hinherited, h⟩ := bind_eq_ok_iff.1 h
    obtain ⟨applications, happlications, h⟩ := bind_eq_ok_iff.1 h
    cases h
    exact ⟨files, inherited, applications, hfiles, hinherited, happlications, rfl⟩
  · rintro ⟨files, inherited, applications, hfiles, hinherited, happlications, rfl⟩
    exact ⟨_, hfiles, bind_eq_ok_iff.2 ⟨_, hinherited, bind_eq_ok_iff.2 ⟨_, happlications, rfl⟩⟩⟩

theorem describes_make {project : Project} {catalog last : Catalog} {own : List Installed}
    {allocation : Allocation} (h : make project catalog own = .ok (allocation, last)) :
    List.Forall₂ Describes project.resources allocation.files := by
  obtain ⟨files, inherited, applications, hfiles, hinherited, -, rfl⟩ := make_eq_ok_iff.1 h
  have hdescribes := LabelledFile.describes_makeAll hfiles
  exact describes_settleDomains _ (LabelledFile.describes_inheritAll hdescribes hinherited)

/-- An application has the domain that the processes enter that execute its file. -/
theorem exists_of_mem_applications {files : List LabelledFile} {entries : List ApplicationEntry}
    {applications : List ConfinedApplication} (h : applicationsOf files entries = .ok applications)
    {app : ConfinedApplication} (happ : app ∈ applications) :
    ∃ file ∈ files, file.processDomain = app.domain := by
  obtain ⟨path, -, hpath⟩ := exists_item_of_mapM_eq_ok h app happ
  split at hpath
  · rename_i found hfound
    cases hpath
    obtain ⟨file, hfile, rfl⟩ := Option.map_eq_some_iff.1 hfound
    exact ⟨file, List.mem_of_find?_eq_some hfile, rfl⟩
  · cases hpath

/-- A resource is found under its path, if no path is declared twice. -/
theorem exists_file?_of_mem {allocation : Allocation} {resources : List Resource}
    (h : List.Forall₂ Describes resources allocation.files)
    (hpaths : (resources.map Resource.path).Nodup) {resource : Resource}
    (hresource : resource ∈ resources) :
    ∃ file, allocation.file? resource.path = some file ∧ Describes resource file := by
  unfold file?
  generalize allocation.files = files at h
  induction h with
  | nil => exact absurd hresource List.not_mem_nil
  | @cons first file rest files hfile _ ih =>
    obtain ⟨hfirst, hrest⟩ := List.nodup_cons.1 hpaths
    obtain rfl | hresource := List.mem_cons.1 hresource
    · exact ⟨file, List.find?_cons_of_pos (by simpa using hfile.path), hfile⟩
    · -- The first file has another path.
      have hne : file.path ≠ resource.path := fun heq =>
        hfirst (List.mem_map.2 ⟨resource, hresource, heq.symm.trans hfile.path⟩)
      rw [List.find?_cons_of_neg (by simpa using hne)]
      exact ih hrest hresource

end Allocation

namespace Assembly

variable {project : Project} {catalog : Catalog} {own : Except Fault (List Installed)}
  {fallbackDomain : String} {context : Grant.Context}

/-- A project is allocated over what an earlier build of it installed. -/
theorem exists_of_allocate (h : allocate project catalog own fallbackDomain = .ok context) :
    ∃ installed allocation last, own = .ok installed ∧
      Allocation.make project catalog installed = .ok (allocation, last) ∧
      context = { allocation, policy := last.policy, fallbackDomain } := by
  rw [allocate, Scope.wrap_eq_ok_iff, bind_eq_ok_iff] at h
  obtain ⟨installed, hown, h⟩ := h
  obtain ⟨⟨allocation, last⟩, hallocation, h⟩ := bind_eq_ok_iff.1 h
  cases h
  exact ⟨installed, allocation, last, hown, hallocation, rfl⟩

/-- The files of an allocated project describe its resources, in their order. -/
theorem describes_of_allocate (h : allocate project catalog own fallbackDomain = .ok context) :
    List.Forall₂ Describes project.resources context.allocation.files := by
  obtain ⟨installed, allocation, last, -, hallocation, rfl⟩ := exists_of_allocate h
  exact Allocation.describes_make hallocation

end Assembly

end TypeEnforcement
