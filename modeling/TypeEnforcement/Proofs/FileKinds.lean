/-
Files of any class.

A resource may be declared without saying what kind of object it is.  The rules for it are then
those for an object of every kind: what they say is what the rules for a regular file say, or those
for a directory, and so on, with the permissions that an action has on each of them.

* `LabelledFile.withClass`, `Allocation.withClass` — a file that is of another class;
* `Kindwise` — rules that say of any class what they say of one of the kinds of objects;
* `IsUnionOver` — an answer that says what one of several others says.

Main statements:
* `kindwise_fileActions` — the rules for actions on a file;
* `filesystem_of_any_class` — the rules of a permission that names a file of any class.
-/
import TypeEnforcement.Proofs.Additivity

namespace TypeEnforcement

/-- A kind of object stands for itself only. -/
theorem FileClass.members_of_mem_concrete {kind : FileClass} (h : kind ∈ concrete) :
    kind.members = [kind] := by
  cases kind with
  | any => exact absurd h (by decide)
  | _ => rfl

instance (rule : AccessRule) (target : AccessTarget) (permission : String) :
    Decidable (rule.Grants target permission) :=
  inferInstanceAs (Decidable (_ ∧ _))

/-- Whether rules grant an access can be read off them one by one. -/
instance (rules : List Rule) (target : AccessTarget) (permission : String) :
    Decidable (GrantedBy rules target permission) :=
  let grants : Rule → Bool
    | .access rule => decide (rule.Grants target permission)
    | .transition _ => false
  decidable_of_iff (rules.any grants = true) <| by
    rw [List.any_eq_true]
    constructor
    · rintro ⟨rule | rule, hmem, hrule⟩
      · exact ⟨rule, hmem, of_decide_eq_true hrule⟩
      · cases hrule
    · rintro ⟨rule, hmem, hrule⟩
      exact ⟨_, hmem, decide_eq_true hrule⟩

/-! ### A file of another class -/

/-- A file that is as it was but of another class. -/
def LabelledFile.withClass (file : LabelledFile) (fileClass : FileClass) : LabelledFile :=
  { file with fileClass }

theorem LabelledFile.withClass_self {file : LabelledFile} {fileClass : FileClass}
    (h : file.fileClass = fileClass) : file.withClass fileClass = file := by
  subst h
  rfl

namespace Allocation

variable (allocation : Allocation) (path : String) (fileClass : FileClass)

/-- An allocation in which the file of a path is of another class. -/
def withClass : Allocation :=
  { allocation with files := allocation.files.map fun file =>
      if file.path = path then file.withClass fileClass else file }

theorem file?_withClass (other : String) : (allocation.withClass path fileClass).file? other =
    (allocation.file? other).map fun file =>
      if file.path = path then file.withClass fileClass else file := by
  have hpath : ((fun file : LabelledFile => decide (file.path = other)) ∘ fun file =>
      if file.path = path then file.withClass fileClass else file) =
        fun file => decide (file.path = other) := by
    funext file
    rw [Function.comp_apply]
    split <;> rfl
  rw [file?, withClass, List.find?_map, hpath]
  rfl

end Allocation

/-! ### Rules for the kinds of objects -/

/-- Rules say of any class what they say of one of the kinds of objects. -/
def Kindwise (rulesOf : FileClass → List Rule) : Prop :=
  ∀ provision, SaidBy (rulesOf .any) provision ↔
    ∃ kind ∈ FileClass.concrete, SaidBy (rulesOf kind) provision

namespace Kindwise

variable {rulesOf others : FileClass → List Rule}

/-- What does not depend on the class is said of every kind. -/
theorem const (rules : List Rule) : Kindwise fun _ => rules := fun _ =>
  ⟨fun h => ⟨.file, List.mem_cons_self, h⟩, fun ⟨_, _, h⟩ => h⟩

theorem append (h : Kindwise rulesOf) (hothers : Kindwise others) :
    Kindwise fun kind => rulesOf kind ++ others kind := by
  intro provision
  simp only [saidBy_append, h provision, hothers provision, and_or_left, exists_or]

theorem ite {c : Prop} [Decidable c] (h : Kindwise rulesOf) (hothers : Kindwise others) :
    Kindwise fun kind => if c then rulesOf kind else others kind := by
  by_cases hc : c
  · simpa only [if_pos hc] using h
  · simpa only [if_neg hc] using hothers

theorem flatMap {α : Type} {items : List α} {rulesFor : α → FileClass → List Rule}
    (h : ∀ item ∈ items, Kindwise (rulesFor item)) :
    Kindwise fun kind => items.flatMap fun item => rulesFor item kind := by
  intro provision
  simp only [saidBy_flatMap]
  constructor
  · rintro ⟨item, hitem, hsaid⟩
    obtain ⟨kind, hkind, hsaid⟩ := (h item hitem provision).1 hsaid
    exact ⟨kind, hkind, item, hitem, hsaid⟩
  · rintro ⟨kind, hkind, item, hitem, hsaid⟩
    exact ⟨item, hitem, (h item hitem provision).2 ⟨kind, hkind, hsaid⟩⟩

/-- Rules that are made for each kind that a class stands for. -/
theorem members (rulesOf : FileClass → List Rule) :
    Kindwise fun fileClass => fileClass.members.flatMap rulesOf := by
  intro provision
  show SaidBy (FileClass.concrete.flatMap rulesOf) provision ↔ _
  rw [saidBy_flatMap]
  refine exists_congr fun kind => and_congr_right fun hkind => ?_
  show _ ↔ SaidBy (kind.members.flatMap rulesOf) provision
  rw [FileClass.members_of_mem_concrete hkind, List.flatMap_singleton]

end Kindwise

namespace Grant

variable (fallback domain : String) (actions : List String) (file : LabelledFile)

/-- Every kind of object has permissions of its own. -/
theorem kindwise_fileItself :
    Kindwise fun kind => fileItself domain (file.withClass kind) actions :=
  .members _

theorem kindwise_namedTransition (subject parent target name : String) :
    Kindwise fun kind => Bundle.namedTransition subject parent kind target name := by
  have hmembers (kind : FileClass) : Bundle.namedTransition subject parent kind target name =
      kind.members.flatMap fun member =>
        [.transition (.make subject parent member.kernelClass target (some name))] := by
    rw [Bundle.namedTransition, FileClass.kernelClasses, List.map_map, List.map_eq_flatMap]
    rfl
  simpa only [hmembers] using Kindwise.members _

/-- The directory is changed whatever is created in it, and every kind of object has a transition of
its own. -/
theorem kindwise_fileCreation : Kindwise fun kind => fileCreation domain (file.withClass kind) :=
  .append (.const _) (.ite (.const _) (kindwise_namedTransition _ _ _ _))

theorem kindwise_fileActions :
    Kindwise fun kind => fileActions fallback domain actions (file.withClass kind) := by
  refine .append (.append (.append (.append ?_ ?_) ?_) ?_) ?_
  · exact kindwise_fileItself domain actions file
  · exact .const _
  · exact .ite (kindwise_fileCreation domain file) (.const _)
  · exact .const _
  · exact .const _

/-! ### Permissions -/

/-- What is answered for a whole is what is answered for several parts: it is refused with the fault
of each of them, and says what one of them says. -/
structure IsUnionOver {ι : Type} (indices : List ι) (whole : Except Fault (List Rule))
    (part : ι → Except Fault (List Rule)) : Prop where
  faults : ∀ index ∈ indices, ∀ fault, whole = .error fault ↔ part index = .error fault
  grants : ∀ rules, whole = .ok rules → ∀ target permission, GrantedBy rules target permission ↔
    ∃ index ∈ indices, ∃ said, part index = .ok said ∧ GrantedBy said target permission
  transitions : ∀ rules, whole = .ok rules → ∀ rule, .transition rule ∈ rules ↔
    ∃ index ∈ indices, ∃ said, part index = .ok said ∧ .transition rule ∈ said

theorem IsUnionOver.of_saidBy {ι : Type} {indices : List ι} {rules : List Rule}
    {rulesOf : ι → List Rule} (h : ∀ provision, SaidBy rules provision ↔
      ∃ index ∈ indices, SaidBy (rulesOf index) provision) :
    IsUnionOver indices (.ok rules) fun index => .ok (rulesOf index) where
  faults _ _ _ := by simp
  grants _ hrules target permission := by
    cases hrules
    simpa [SaidBy] using h (.access target permission)
  transitions _ hrules rule := by
    cases hrules
    simpa [SaidBy] using h (.transition rule)

/-- The files that a permission names. -/
def namedFiles (allocation : Allocation) (permission : Permission) :
    Except Fault (List LabelledFile) := do
  requireParts true permission
  permission.resources.mapM fun path =>
    match allocation.file? path with
    | some file => .ok file
    | none => .error (.undefined .resource path)

theorem filesystem_eq (allocation : Allocation) (permission : Permission) :
    filesystem allocation fallback domain permission =
      (namedFiles allocation permission).map
        (List.flatMap (fileActions fallback domain permission.actions)) := by
  unfold filesystem namedFiles
  cases requireParts true permission with
  | error fault => rfl
  | ok => rfl

theorem mapM_map {α β γ : Type} (f : α → Except Fault β) (g : β → γ) (items : List α) :
    (items.mapM fun item => (f item).map g) = (items.mapM f).map (List.map g) := by
  induction items with
  | nil => rfl
  | cons item rest ih =>
    rw [List.mapM_cons, List.mapM_cons, ih]
    cases f item with
    | error fault => rfl
    | ok value => cases rest.mapM f <;> rfl

/-- Files are named whatever their classes are. -/
theorem namedFiles_withClass (allocation : Allocation) (path : String) (fileClass : FileClass)
    (permission : Permission) : namedFiles (allocation.withClass path fileClass) permission =
      (namedFiles allocation permission).map (List.map fun file =>
        if file.path = path then file.withClass fileClass else file) := by
  unfold namedFiles
  cases requireParts true permission with
  | error fault => rfl
  | ok =>
    show List.mapM _ _ = Except.map _ (List.mapM _ _)
    rw [← mapM_map]
    refine congrArg (List.mapM · permission.resources) (funext fun other => ?_)
    rw [Allocation.file?_withClass]
    cases allocation.file? other <;> rfl

/-- A file that a permission names is the one that its path leads to. -/
theorem file?_of_mem_namedFiles {allocation : Allocation} {permission : Permission}
    {files : List LabelledFile} (h : namedFiles allocation permission = .ok files) :
    ∀ file ∈ files, allocation.file? file.path = some file := by
  intro file hfile
  obtain ⟨_, -, hfiles⟩ := bind_eq_ok_iff.1 h
  obtain ⟨path, -, hfound⟩ := exists_item_of_mapM_eq_ok hfiles file hfile
  split at hfound
  · rename_i found hfind
    cases hfound
    have hpath : file.path = path := by simpa using List.find?_some hfind
    rwa [hpath]
  · cases hfound

/-- The rules of a permission that names a file of any class say what its rules would say if the
file were of one of the kinds of objects, and it is refused as it would be then. -/
theorem filesystem_of_any_class (allocation : Allocation) (permission : Permission) {path : String}
    (hany : ∀ file, allocation.file? path = some file → file.fileClass = .any) :
    IsUnionOver FileClass.concrete (filesystem allocation fallback domain permission) fun kind =>
      filesystem (allocation.withClass path kind) fallback domain permission := by
  simp only [filesystem_eq, namedFiles_withClass]
  cases hfiles : namedFiles allocation permission with
  | error fault => exact ⟨fun _ _ _ => .rfl, fun _ h => (nomatch h), fun _ h => (nomatch h)⟩
  | ok files =>
    let reclassed (kind : FileClass) (file : LabelledFile) : LabelledFile :=
      if file.path = path then file.withClass kind else file
    -- A file of any class at the path is what the class `any` would make of it.
    have hself : files.map (reclassed .any) = files := by
      conv => rhs; rw [← List.map_id files]
      refine List.map_congr_left fun file hfile => ?_
      unfold reclassed
      split
      · rename_i hpath
        exact file.withClass_self (hany file (hpath ▸ file?_of_mem_namedFiles hfiles file hfile))
      · rfl
    have hkinds : Kindwise fun kind =>
        files.flatMap fun file => fileActions fallback domain permission.actions
          (reclassed kind file) := by
      refine .flatMap fun file _ => ?_
      by_cases hpath : file.path = path
      · simpa only [reclassed, if_pos hpath] using
          kindwise_fileActions fallback domain permission.actions file
      · simpa only [reclassed, if_neg hpath] using Kindwise.const _
    have hrules (kind : FileClass) : (files.map (reclassed kind)).flatMap
        (fileActions fallback domain permission.actions) = files.flatMap fun file =>
          fileActions fallback domain permission.actions (reclassed kind file) :=
      List.flatMap_map ..
    refine .of_saidBy fun provision => ?_
    show SaidBy (files.flatMap _) provision ↔ ∃ kind ∈ FileClass.concrete,
      SaidBy ((files.map (reclassed kind)).flatMap _) provision
    conv => lhs; rw [← hself]
    simp only [hrules]
    exact hkinds provision

/-- A file of any class may be written as a directory is, if it is one, and what is created is named
for every kind of object. -/
theorem anyFile_of_any_class :
    let file : LabelledFile :=
      { path := "/a/x", pattern := "/a/x", fileClass := .any, label := .object "one_t",
        parentLabel := .object "dir_t" }
    let allocation : Allocation := { files := [file] }
    let permission : Permission :=
      { kindWord := "filesystem", resources := ["/a/x"], actions := ["create", "write", "relabel"] }
    (∀ found, allocation.file? "/a/x" = some found → found.fileClass = .any) ∧
    ∃ rules, filesystem allocation "run_t" "app_t" permission = .ok rules ∧
      GrantedBy rules ⟨.allow, "app_t", "one_t", "dir"⟩ "add_name" ∧
      ¬GrantedBy rules ⟨.allow, "app_t", "one_t", "file"⟩ "add_name" ∧
      GrantedBy rules ⟨.allow, "app_t", "one_t", "sock_file"⟩ "relabel" ∧
      .transition (.make "app_t" "dir_t" "lnk_file" "one_t" (some "x")) ∈ rules := by
  intro file allocation permission
  have hany : ∀ found, allocation.file? "/a/x" = some found → found.fileClass = .any := by
    intro found hfound
    cases hfound
    rfl
  have hunion := filesystem_of_any_class "run_t" "app_t" allocation permission hany
  refine ⟨hany, _, rfl, ?_, ?_, ?_, ?_⟩
  · exact (hunion.grants _ rfl _ _).2 ⟨.directory, by decide, _, rfl, by decide⟩
  · decide
  · exact (hunion.grants _ rfl _ _).2 ⟨.socket, by decide, _, rfl, by decide⟩
  · exact (hunion.transitions _ rfl _).2 ⟨.link, by decide, _, rfl, by decide⟩

end Grant

end TypeEnforcement
