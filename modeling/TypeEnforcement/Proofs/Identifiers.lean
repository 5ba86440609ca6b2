/-
The form of type and domain names.

A name that is made of a path has small letters, digits and underscores only, whatever the path has.
The words of directories that come first in it are found by going up the path, which comes to an end
because every step leaves a wildcard behind.  A name that a project chooses is checked.  So the new
types of a project are identifiers, and with them the domains that are named after them.

* `TypeName.above?` — the directory whose word comes before that of a path;
* `TypeName.IsSmall` — the characters of names that are made;
* `LabelledFile.TypedFor` — a file with the type that its resource asks for.

Main statements:
* `isUpper_of_mem_lowercase` — no ASCII capital is left in lower case;
* `iterate_above` — going up a path ends;
* `isSmall_of_mem_synthesize`, `isIdentifier_synthesize` — the names that are made of paths;
* `isIdentifier_domainOf` — a domain is named like its type;
* `generated_names` — the names of all paths, and the new types and the domains of all projects.
-/
import Mathlib.Logic.Function.Iterate
import TypeEnforcement.Proofs.Applications
import TypeEnforcement.Proofs.Naming

namespace TypeEnforcement

/-! ### Lower case -/

namespace Text

theorem isUpper_iff {c : Char} : c.isUpper = true ↔ 65 ≤ c.toNat ∧ c.toNat ≤ 90 :=
  decide_eq_true_iff

/-- What holds of the characters with small numbers may be checked number by number. -/
theorem of_forall_lt {P : Char → Prop} {n : Nat} (h : ∀ m < n, P (Char.ofNat m)) {c : Char}
    (hc : c.toNat < n) : P c := by
  have hchar := h c.toNat hc
  rwa [Char.ofNat_toNat] at hchar

/-- A number that is no code point gives the character zero. -/
theorem toNat_ofNat_or (n : Nat) : (Char.ofNat n).toNat = n ∨ (Char.ofNat n).toNat = 0 := by
  by_cases hvalid : n.isValidChar
  · exact .inl (congrArg Char.toNat (dif_pos hvalid))
  · exact .inr (congrArg Char.toNat (dif_neg hvalid))

/-- The table leads to small letters, or far beyond the capitals of ASCII. -/
theorem isUpper_mapCase {c : Char} (h : 128 ≤ c.toNat) :
    (mapCase lowerRows c).isUpper = false := by
  have hrows : ∀ row ∈ lowerRows, (90 : Int) < row.lo + row.delta := by decide +kernel
  rw [Bool.eq_false_iff, ne_eq, isUpper_iff]
  unfold mapCase
  cases hfound : lowerRows.findSome? (CaseRow.image? · c) with
  | none =>
    rw [Option.getD_none]
    omega
  | some image =>
    obtain ⟨row, hrow, himage⟩ := List.exists_of_findSome?_eq_some hfound
    have hdelta := hrows row hrow
    unfold CaseRow.image? at himage
    split at himage
    · rename_i hcovers
      cases himage
      rw [Option.getD_some]
      have hvalue := toNat_ofNat_or (c.toNat + row.delta).toNat
      omega
    · cases himage

/-- No capital of ASCII is left in the lower case of a text. -/
theorem isUpper_of_mem_lowercase {text : List Char} {c : Char} (h : c ∈ lowercase text) :
    c.isUpper = false := by
  have hchar (d : Char) : ∀ c ∈ lowerChar d, c.isUpper = false := by
    unfold lowerChar
    split
    · rename_i hlow
      have hsmall : d.toLower.isUpper = false :=
        of_forall_lt (P := fun d => d.toLower.isUpper = false) (by decide) hlow
      exact List.forall_mem_singleton.2 hsmall
    · rename_i hbeyond
      split
      · decide
      · exact List.forall_mem_singleton.2 (isUpper_mapCase (Nat.not_lt.1 hbeyond))
  have hcontext (before after : List Char) (d : Char) :
      ∀ c ∈ lowerInContext before d after, c.isUpper = false := by
    unfold lowerInContext
    split
    · split <;> decide
    · exact hchar d
  have hall (text before : List Char) : ∀ c ∈ lowerAfter before text, c.isUpper = false := by
    induction text generalizing before with
    | nil => exact fun _ hc => absurd hc List.not_mem_nil
    | cons d rest ih => exact List.forall_mem_append.2 ⟨hcontext before rest d, ih _⟩
  exact hall text [] c h

end Text

namespace TypeName

/-! ### Going up a path -/

/-- The directory whose word comes before that of a path: the parent of a component with a
wildcard. -/
def above? (path : List Char) : Option (List Char) :=
  let stem := (Path.splitTrailing path).1
  if path ≠ ['/'] ∧ (Path.leafOf stem).any Path.isWild = true then some (Path.parentOf stem)
  else none

/-- The word of a path alone. -/
def ownWord (path : List Char) : List Char :=
  if path = ['/'] then "root".toList else wordOf (Path.leafOf (Path.splitTrailing path).1)

/-- The readable part of a name has the word of the path last, and the readable part for the
directory above before it, if there is one. -/
theorem readable_eq (path : List Char) : readable path =
    ((above? path).elim [] fun above => readable above ++ ['_']) ++ ownWord path := by
  rw [readable, above?, ownWord]
  dsimp only
  by_cases hroot : path = ['/']
  · simp [hroot]
  · by_cases hwild : (Path.leafOf (Path.splitTrailing path).1).any Path.isWild = true
    · simp [hroot, hwild]
    · simp [hroot, hwild]

/-- Every step up leaves a wildcard behind. -/
theorem wildCount_above_lt {path above : List Char} (h : above? path = some above) :
    Path.wildCount above < Path.wildCount path := by
  unfold above? at h
  dsimp only at h
  split at h
  · rename_i hwild
    cases h
    exact Nat.lt_of_lt_of_le (Path.wildCount_parentOf_lt hwild.2)
      (Path.wildCount_splitTrailing_le path)
  · cases h

/-- After as many steps as a path has wildcards, there is no further one. -/
theorem iterate_above (path : List Char) :
    (fun found : Option (List Char) => found.bind above?)^[Path.wildCount path + 1] (some path) =
      none := by
  have hnone (count : Nat) :
      (fun found : Option (List Char) => found.bind above?)^[count] none = none := by
    induction count with
    | zero => rfl
    | succ count ih => exact ih
  -- Every step loses a wildcard, so there are fewer steps than the count.
  have hends (count : Nat) (path : List Char) (h : Path.wildCount path < count) :
      (fun found : Option (List Char) => found.bind above?)^[count] (some path) = none := by
    induction count generalizing path with
    | zero => exact absurd h (Nat.not_lt_zero _)
    | succ count ih =>
      rw [Function.iterate_succ_apply, Option.bind_some]
      cases habove : above? path with
      | none => exact hnone count
      | some above => exact ih above (by have := wildCount_above_lt habove; omega)
  exact hends _ path (Nat.lt_succ_self _)

/-! ### Names that are made of paths -/

/-- A small letter of ASCII, a digit or an underscore. -/
def IsSmall (c : Char) : Prop :=
  c.isLower = true ∨ c.isDigit = true ∨ c = '_'

instance (c : Char) : Decidable (IsSmall c) :=
  inferInstanceAs (Decidable (_ ∨ _))

theorem isSmall_of_isNameChar {c : Char} (h : isNameChar c = true) (hupper : c.isUpper = false) :
    IsSmall c := by
  have halpha : c.isAlpha = c.isLower :=
    (congrArg (· || c.isLower) hupper).trans (Bool.false_or _)
  simpa [IsSmall, isNameChar, Char.isAlphanum, halpha, or_assoc] using h

theorem isSmall_of_mem_readable (path : List Char) : ∀ c ∈ readable path, IsSmall c := by
  have hword (component : List Char) : ∀ c ∈ wordOf component, IsSmall c := by
    intro c hc
    obtain ⟨hmem, hname⟩ := List.mem_filter.1 hc
    obtain ⟨d, hd, rfl⟩ := List.mem_map.1 hmem
    refine isSmall_of_isNameChar hname ?_
    split
    · decide
    · exact Text.isUpper_of_mem_lowercase hd
  fun_induction readable path with
  | case1 => decide
  | case2 path hroot stem leaf hwild ih =>
    exact List.forall_mem_append.2 ⟨ih, List.forall_mem_cons.2 ⟨by decide, hword leaf⟩⟩
  | case3 path hroot stem leaf hwild => exact hword leaf

/-- The word for the class in a name that is made of a path. -/
def classWord (fileClass : FileClass) (executable : Bool) : List Char :=
  (if executable then "_exec" else fileClass.nameSuffix).toList

theorem toList_synthesize (path : String) (fileClass : FileClass) (executable : Bool) :
    (synthesize path fileClass executable).toList =
      "auto_".toList ++ readable path.toList ++ '_' :: hashDigits path ++
        classWord fileClass executable ++ "_t".toList := by
  unfold synthesize classWord
  rw [String.toList_ofList]
  cases executable <;> simp [String.toList_append]

theorem mem_hexDigits_of_mem_hashDigits {path : String} {c : Char} (h : c ∈ hashDigits path) :
    c ∈ Digest.hexDigits :=
  Digest.mem_hexOf (List.mem_of_mem_take h)

theorem isSmall_of_mem_synthesize {path : String} {fileClass : FileClass} {executable : Bool}
    {c : Char} (h : c ∈ (synthesize path fileClass executable).toList) : IsSmall c := by
  have hstart : ∀ c ∈ "auto_".toList, IsSmall c := by decide
  have hhex : ∀ c ∈ Digest.hexDigits, IsSmall c := by decide
  have hclass : ∀ c ∈ classWord fileClass executable, IsSmall c := by
    cases executable <;> cases fileClass <;> decide
  have hall : ∀ c ∈ (synthesize path fileClass executable).toList, IsSmall c := by
    rw [toList_synthesize]
    simp only [List.forall_mem_append, List.forall_mem_cons]
    exact ⟨⟨⟨⟨hstart, isSmall_of_mem_readable path.toList⟩, by decide,
      fun c hc => hhex c (mem_hexDigits_of_mem_hashDigits hc)⟩, hclass⟩, by decide⟩
  exact hall c h

/-- A name that is made of a path has a fixed beginning and a fixed end. -/
theorem exists_synthesize_eq (path : String) (fileClass : FileClass) (executable : Bool) :
    ∃ middle, synthesize path fileClass executable = "auto_" ++ middle ++ "_t" := by
  refine ⟨String.ofList (readable path.toList ++ '_' :: hashDigits path ++
    classWord fileClass executable), ?_⟩
  rw [← String.toList_inj, toList_synthesize]
  simp [String.toList_append]

/-! ### Identifiers -/

theorem isIdentifier_append {front back : List Char} (h : isIdentifier front = true)
    (hback : ∀ c ∈ back, isNameChar c = true) : isIdentifier (front ++ back) = true := by
  cases front with
  | nil => cases h
  | cons c rest =>
    obtain ⟨hfirst, hrest⟩ := Bool.and_eq_true_iff.1 h
    refine Bool.and_eq_true_iff.2 ⟨hfirst, ?_⟩
    rw [List.append_eq, List.all_append, hrest, List.all_eq_true.2 hback]
    rfl

/-- A beginning of an identifier is one, if it is not empty. -/
theorem isIdentifier_of_append {front back : List Char} (h : isIdentifier (front ++ back) = true)
    (hfront : front ≠ []) : isIdentifier front = true := by
  cases front with
  | nil => exact absurd rfl hfront
  | cons c rest =>
    obtain ⟨hfirst, hrest⟩ := Bool.and_eq_true_iff.1 h
    rw [List.append_eq, List.all_append] at hrest
    exact Bool.and_eq_true_iff.2 ⟨hfirst, (Bool.and_eq_true_iff.1 hrest).1⟩

theorem isIdentifier_synthesize (path : String) (fileClass : FileClass) (executable : Bool) :
    isIdentifier (synthesize path fileClass executable).toList = true := by
  have hchars := isNameChar_synthesize path fileClass executable
  rw [toList_synthesize, List.append_assoc, List.append_assoc, List.append_assoc] at hchars ⊢
  exact isIdentifier_append (by decide) fun c hc => hchars c (List.mem_append_right _ hc)

/-- The domain that is named after a type is an identifier if the type is one. -/
theorem isIdentifier_domainOf {fileType : String} (h : isIdentifier fileType.toList = true) :
    isIdentifier (domainOf fileType).toList = true := by
  unfold domainOf
  split
  · rename_i stem hstem
    obtain ⟨front, hfront, rfl⟩ := Option.map_eq_some_iff.1 hstem
    rw [Text.dropEnd?_eq_some_iff.1 hfront] at h
    rw [String.toList_append, String.toList_ofList]
    refine isIdentifier_append (isIdentifier_of_append h ?_) (by decide)
    -- An identifier does not start with the underscore of the ending.
    rintro rfl
    exact absurd h (by decide)
  · split
    · rw [String.toList_append]
      exact isIdentifier_append h (by decide)
    · rw [String.toList_append]
      exact isIdentifier_append h (by decide)

end TypeName

/-! ### Projects -/

namespace LabelledFile

/-- A file has the type that its resource asks for, unless the system labels it: a valid name that
the resource chooses, or else the one that is made of its path. -/
structure TypedFor (resource : Resource) (file : LabelledFile) : Prop where
  describes : Describes resource file
  chosen : resource.isSystem = false → ∀ name ∈ resource.typeName.filter (· ≠ ""),
    TypeName.IsValid name ∧ file.typeName = name
  made : resource.isSystem = false → resource.typeName.filter (· ≠ "") = none →
    file.typeName = TypeName.synthesize resource.path file.fileClass file.isExecutable
  domain : ∀ domain ∈ resource.domain.filter (· ≠ ""), TypeName.IsValid domain

variable {catalog : Catalog} {ownTypes : List String} {resource : Resource}
  {file next : LabelledFile}

theorem typedFor_make (h : make catalog ownTypes resource = .ok file) : TypedFor resource file := by
  have hdescribes := describes_make h
  have hdomain := isValid_domain_of_make h
  obtain ⟨fileClass, isExecutable, -, -, hcases⟩ := make_eq_ok_iff.1 h
  obtain ⟨hsystem, -⟩ | ⟨hsystem, -, hlabelled⟩ := hcases
  · -- The label of the system is kept.
    have hkept : resource.isSystem ≠ false := by simp [hsystem]
    exact ⟨hdescribes, fun hnew => absurd hnew hkept, fun hnew => absurd hnew hkept, hdomain⟩
  · unfold newlyLabelled at hlabelled
    cases hchosen : resource.typeName.filter (· ≠ "") with
    | some name =>
      simp only [hchosen] at hlabelled
      obtain ⟨hvalid, typeExists, rfl⟩ := exists_of_chooseType hlabelled
      refine ⟨hdescribes, fun _ other hother => ?_, fun _ hnone => ?_, hdomain⟩
      · obtain rfl := Option.some.inj (hchosen.symm.trans hother)
        exact ⟨hvalid, rfl⟩
      · cases hchosen.symm.trans hnone
    | none =>
      simp only [hchosen] at hlabelled
      cases hlabelled
      refine ⟨hdescribes, fun _ name hname => ?_, fun _ _ => rfl, hdomain⟩
      cases hchosen.symm.trans hname

theorem TypedFor.of_isSettled (h : TypedFor resource file)
    (hnext : Allocation.IsSettled file next) : TypedFor resource next := by
  obtain ⟨parentLabel, domain, rfl⟩ := hnext
  obtain ⟨hdescribes, hchosen, hmade, hdomain⟩ := h
  exact ⟨⟨hdescribes.path, hdescribes.pattern, hdescribes.fileClass, hdescribes.isSystem⟩,
    hchosen, hmade, hdomain⟩

/-- A type that the system does not give is an identifier. -/
theorem TypedFor.isIdentifier (h : TypedFor resource file) (hnew : resource.isSystem = false) :
    TypeName.isIdentifier file.typeName.toList = true := by
  cases hchosen : resource.typeName.filter (· ≠ "") with
  | some name =>
    obtain ⟨hvalid, htype⟩ := h.chosen hnew name hchosen
    exact htype ▸ hvalid.2
  | none =>
    rw [h.made hnew hchosen]
    exact TypeName.isIdentifier_synthesize _ _ _

end LabelledFile

namespace Allocation

open LabelledFile (TypedFor)

variable {project : Project} {catalog last : Catalog} {own : List Installed}
  {allocation : Allocation} {app : ConfinedApplication}

theorem forall₂_typedFor (h : make project catalog own = .ok (allocation, last)) :
    List.Forall₂ TypedFor project.resources allocation.files := by
  obtain ⟨labelled, inherited, applications, hmake, hinherited, -, rfl⟩ := make_eq_ok_iff.1 h
  have htyped : List.Forall₂ TypedFor project.resources labelled :=
    (LabelledFile.forall₂_makeAll hmake).imp fun _ _ ⟨_, _, hfile⟩ =>
      LabelledFile.typedFor_make hfile
  exact forall₂_comp htyped (forall₂_isSettled project.entries hinherited)
    fun _ _ _ hfile hnext => hfile.of_isSettled hnext

/-- The domain of an application is an identifier, unless the system labels its resource. -/
theorem isIdentifier_domain (h : make project catalog own = .ok (allocation, last))
    (happ : app ∈ allocation.applications) :
    ∃ resource, project.resources.find? (·.path = app.path) = some resource ∧
      (resource.isSystem = false → TypeName.isIdentifier app.domain.toList = true) := by
  obtain ⟨files, hlabels⟩ := exists_labels_of_make h
  obtain ⟨resource, file, hresource, hfile, hdescribes, hdomain⟩ := (hlabels.gathers h happ).domain
  refine ⟨resource, hresource, fun hnew => ?_⟩
  have htyped := forall₂_typedFor h
  rw [hdomain]
  cases hchosen : resource.domain.filter (· ≠ "") with
  | some domain =>
    obtain ⟨typed, -, htyped⟩ :=
      exists_of_forall₂_of_mem_left htyped (List.mem_of_find?_eq_some hresource)
    exact (htyped.domain domain hchosen).2
  | none =>
    -- The file of the application need not be that of the first resource with its path.
    obtain ⟨other, -, htyped⟩ :=
      exists_of_forall₂_of_mem_right htyped (List.mem_of_find?_eq_some hfile)
    have hsystem : other.isSystem = false :=
      htyped.describes.isSystem.symm.trans (hdescribes.isSystem.trans hnew)
    exact TypeName.isIdentifier_domainOf (htyped.isIdentifier hsystem)

/-- The names that are made of paths, whatever the paths, and what they lead to in a project.  A
name starts and ends in fixed letters and has small letters, digits and underscores only; its
readable part has a word for each directory on the way up, and the way up ends.  The types of the
resources that the system does not label are identifiers, and so are the domains of the applications
among them. -/
theorem generated_names :
    (∀ path fileClass isExecutable,
      (∃ middle, TypeName.synthesize path fileClass isExecutable = "auto_" ++ middle ++ "_t") ∧
      ∀ c ∈ (TypeName.synthesize path fileClass isExecutable).toList, TypeName.IsSmall c) ∧
    (∀ path, TypeName.readable path =
        ((TypeName.above? path).elim [] fun above => TypeName.readable above ++ ['_']) ++
          TypeName.ownWord path ∧
      (fun found : Option (List Char) =>
        found.bind TypeName.above?)^[Path.wildCount path + 1] (some path) = none) ∧
    ∀ project catalog own allocation last, make project catalog own = .ok (allocation, last) →
      List.Forall₂ (fun resource file => TypedFor resource file ∧
        (resource.isSystem = false → TypeName.isIdentifier file.typeName.toList = true))
        project.resources allocation.files ∧
      ∀ app ∈ allocation.applications, ∃ resource,
        project.resources.find? (·.path = app.path) = some resource ∧
        (resource.isSystem = false → TypeName.isIdentifier app.domain.toList = true) := by
  refine ⟨fun path fileClass isExecutable => ⟨TypeName.exists_synthesize_eq _ _ _,
    fun _ => TypeName.isSmall_of_mem_synthesize⟩,
    fun path => ⟨TypeName.readable_eq path, TypeName.iterate_above path⟩,
    fun project catalog own allocation last h => ⟨?_, fun app => isIdentifier_domain h⟩⟩
  exact (forall₂_typedFor h).imp fun _ _ htyped => ⟨htyped, htyped.isIdentifier⟩

/-- A path with wildcards in two directories, a capital beyond ASCII that no name can hold, and one
(the sign for kelvin) whose lower case is the letter k. -/
def oddPaths : Project where
  name := "demo"
  resources := [
    { path := "/srv/É*/\u212a?.d/*", classWord := "dir" },
    { path := "/srv/Run", classWord := "exec_file" },
    { path := "/srv", classWord := "dir", isSystem := true }]
  specs := [{ name := "demo.json", applications := [{ path := "/srv/Run" }] }]

/-- Both new types and the domain are identifiers. -/
theorem oddPaths_generated_names :
    oddPaths.check = .ok () ∧ ∃ allocation last tree run above app,
      make oddPaths rootCatalog [] = .ok (allocation, last) ∧
      allocation.files = [tree, run, above] ∧ allocation.applications = [app] ∧
      (tree.typeName = "auto_srv__k_d_6bdb_dir_t" ∧
        TypeName.isIdentifier tree.typeName.toList = true) ∧
      (run.typeName = "auto_run_3909_exec_t" ∧
        TypeName.isIdentifier run.typeName.toList = true) ∧
      app.domain = "auto_run_3909_t" ∧ TypeName.isIdentifier app.domain.toList = true := by
  have hcheck : oddPaths.check = .ok () := by decide +kernel
  have hanswer : (make oddPaths rootCatalog []).toOption.any fun answer =>
      answer.1.files.map LabelledFile.typeName =
        ["auto_srv__k_d_6bdb_dir_t", "auto_run_3909_exec_t", "root_t"] ∧
      answer.1.applications.map ConfinedApplication.path = ["/srv/Run"] ∧
      answer.1.applications.map ConfinedApplication.domain = ["auto_run_3909_t"] := by
    unfold make oddPaths
    simp only [LabelledFile.makeAll, Catalog.allocate, TierEntries.push,
      TierEntries.searchOrder_eq_insertionSort]
    decide +kernel
  obtain ⟨⟨allocation, last⟩, hmake, htypes, hpaths, hdomains⟩ := exists_of_any_toOption hanswer
  obtain ⟨hfiles, happs⟩ := generated_names.2.2 oddPaths rootCatalog [] allocation last hmake
  obtain ⟨files, hnames⟩ : ∃ files, allocation.files = files := ⟨_, rfl⟩
  rw [hnames] at hfiles htypes
  obtain _ | ⟨⟨-, htree⟩, _ | @⟨_, run, _, _, ⟨-, hrun⟩, _ | @⟨_, above, _, _, -, _ | -⟩⟩⟩ := hfiles
  rename_i tree
  simp only [List.map_cons, List.cons.injEq] at htypes
  obtain ⟨app, others, happlications, hpath, hothers⟩ := List.map_eq_cons_iff.1 hpaths
  obtain rfl := List.map_eq_nil_iff.1 hothers
  have happlications : allocation.applications = [app] := happlications
  rw [happlications] at happs hdomains
  simp only [List.map_cons, List.map_nil, List.cons.injEq, and_true] at hdomains
  obtain ⟨resource, hresource, hdomain⟩ := happs app (List.mem_singleton_self app)
  -- The second resource is the one that the application names.
  have hfound : oddPaths.resources.find? (·.path = "/srv/Run") =
      some { path := "/srv/Run", classWord := "exec_file" } := by decide
  rw [hpath, hfound] at hresource
  obtain rfl := Option.some.inj hresource
  exact ⟨hcheck, allocation, last, tree, run, above, app, hmake, hnames, happlications,
    ⟨htypes.1, htree rfl⟩, ⟨htypes.2.1, hrun rfl⟩, hdomains, hdomain rfl⟩

end Allocation

end TypeEnforcement
