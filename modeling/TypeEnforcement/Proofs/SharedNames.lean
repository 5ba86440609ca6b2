/-
Which names that are made of paths are the same.

The readable part of a name tells the last component of the path, and of the directories only those
above a wildcard.  Apart from it there are four digits of a hash.  They keep paths apart as far as
four digits can: of enough paths with one last component two get the same name, whatever the hash
is, and for the hash in use two such paths are known.

* `TypeName.IsDigest` — a function that gives texts enough hexadecimal digits;
* `TypeName.synthesizeWith` — the name for a path, with any such function as the hash;
* `Resource.IsAutomatic` — a resource gets a type whose name is made of its path.

Main statements:
* `synthesizeWith_inj` — when two names are the same;
* `readable_of_plain` — the readable part of a path whose last component has no wildcard;
* `exists_shared_name` — two of many paths share their name;
* `shared_names` — the names of paths under any hash, and the types of the resources of a project;
* `sharedLeaf_shares_type` — two resources of a project that share their type.
-/
import Mathlib.Combinatorics.Pigeonhole
import Mathlib.Data.List.Sections
import TypeEnforcement.Proofs.Identifiers
import TypeEnforcement.Proofs.LiteralPaths

namespace TypeEnforcement

namespace Digest

theorem length_sha256Hex (text : String) : (sha256Hex text).length = 64 := by
  rw [sha256Hex, length_hexOf]
  rfl

end Digest

/-! ### The last component of a path -/

namespace Text

theorem splitLast_append_cons {sep : Char} (front : List Char) {back : List Char}
    (h : sep ∉ back) : splitLast sep (front ++ sep :: back) = some (front, back) := by
  have hnone : splitLast sep back = none := by
    cases hcut : splitLast sep back with
    | none => rfl
    | some cut =>
      obtain ⟨before, after⟩ := cut
      rw [splitLast_eq_some hcut] at h
      exact absurd (List.mem_append_right _ List.mem_cons_self) h
  induction front with
  | nil => rw [List.nil_append, splitLast, hnone, if_pos rfl]
  | cons c front ih => rw [List.cons_append, splitLast, ih]

end Text

namespace Path

theorem dropSlashes_append {path : List Char} (front : List Char) (hne : path ≠ [])
    (h : '/' ∉ path) : dropSlashes (front ++ path) = front ++ path := by
  have hlast : path.getLast hne ≠ '/' := fun heq => h (heq ▸ List.getLast_mem hne)
  refine List.rdropWhile_eq_self_iff.2 fun hne' => ?_
  rw [List.getLast_append_of_ne_nil hne' hne]
  simpa using hlast

theorem dropSlashes_append_cons (front : List Char) {leaf : List Char} (hne : leaf ≠ [])
    (h : '/' ∉ leaf) : dropSlashes (front ++ '/' :: leaf) = front ++ '/' :: leaf := by
  rw [← List.singleton_append, ← List.append_assoc]
  exact dropSlashes_append _ hne h

theorem leafOf_append_cons (front : List Char) {leaf : List Char} (hne : leaf ≠ [])
    (h : '/' ∉ leaf) : leafOf (front ++ '/' :: leaf) = leaf := by
  unfold leafOf
  simp only [dropSlashes_append_cons front hne h, Text.splitLast_append_cons front h]
  simp

/-- Every trailing form has a wildcard in the last component. -/
theorem any_isWild_leafOf_of_trailing {path : List Char} {t : Trailing}
    (h : (splitTrailing path).2 = some t) : (leafOf path).any isWild = true := by
  have hform : ∃ front back, t.glob = front ++ '/' :: back ∧ back ≠ [] ∧ '/' ∉ back ∧
      back.any isWild = true := by
    cases t with
    | selfAndTree => exact ⟨['\x7b', ','], ['*', '*', '\x7d'], by decide⟩
    | selfAndChildren => exact ⟨['\x7b', ','], ['*', '\x7d'], by decide⟩
    | tree => exact ⟨[], ['*', '*'], by decide⟩
    | children => exact ⟨[], ['*'], by decide⟩
  obtain ⟨front, back, hglob, hne, hback, hwild⟩ := hform
  have hsplit := splitTrailing_append path
  rw [h, Option.map_some, Option.getD_some, hglob, ← List.append_assoc] at hsplit
  rw [hsplit, leafOf_append_cons _ hne hback]
  exact hwild

theorem splitTrailing_of_plain {path : List Char} (h : (leafOf path).any isWild = false) :
    splitTrailing path = (path, none) := by
  refine splitTrailing_of_none ?_
  cases hform : (splitTrailing path).2 with
  | none => rfl
  | some t => cases h.symm.trans (any_isWild_leafOf_of_trailing hform)

end Path

namespace TypeName

/-- The readable part of the name for a path whose last component has no wildcard is the word of
that component. -/
theorem readable_of_plain {path : List Char} (hroot : path ≠ ['/'])
    (h : (Path.leafOf path).any Path.isWild = false) :
    readable path = wordOf (Path.leafOf path) := by
  rw [readable, if_neg hroot, Path.splitTrailing_of_plain h]
  exact if_neg (by simp [h])

/-! ### Names with any hash -/

/-- A function that gives every text at least four hexadecimal digits. -/
def IsDigest (digest : String → List Char) : Prop :=
  ∀ text, 4 ≤ (digest text).length ∧ ∀ c ∈ digest text, c ∈ Digest.hexDigits

theorem isDigest_sha256Hex : IsDigest Digest.sha256Hex := fun text =>
  ⟨by rw [Digest.length_sha256Hex]; decide, fun _ => Digest.mem_hexOf⟩

/-- The name for a path that configures none, with any function as the hash. -/
def synthesizeWith (digest : String → List Char) (path : String) (fileClass : FileClass)
    (executable : Bool) : String :=
  String.ofList ("auto_".toList ++ readable path.toList ++ '_' :: (digest path).take 4 ++
    classWord fileClass executable ++ "_t".toList)

theorem toList_synthesizeWith (digest : String → List Char) (path : String)
    (fileClass : FileClass) (executable : Bool) :
    (synthesizeWith digest path fileClass executable).toList =
      "auto_".toList ++ readable path.toList ++ '_' :: (digest path).take 4 ++
        classWord fileClass executable ++ "_t".toList :=
  String.toList_ofList

theorem synthesizeWith_sha256Hex (path : String) (fileClass : FileClass) (executable : Bool) :
    synthesizeWith Digest.sha256Hex path fileClass executable =
      synthesize path fileClass executable := by
  rw [← String.toList_inj, toList_synthesize, toList_synthesizeWith]
  rfl

variable {digest : String → List Char} {path other : String} {fileClass otherClass : FileClass}
  {executable otherExecutable : Bool}

/-- The word for the class tells executables from others, and the classes of the others. -/
theorem classWord_inj : classWord fileClass executable = classWord otherClass otherExecutable ↔
    executable = otherExecutable ∧ (executable = false → fileClass = otherClass) := by
  cases executable <;> cases otherExecutable <;> cases fileClass <;> cases otherClass <;> decide

/-- If one word for a class ends in another one, then the other one is empty. -/
theorem classWord_of_suffix
    (h : classWord fileClass executable <:+ classWord otherClass otherExecutable) :
    classWord fileClass executable = classWord otherClass otherExecutable ∨
      classWord fileClass executable = [] := by
  revert h
  cases executable <;> cases otherExecutable <;> cases fileClass <;> cases otherClass <;> decide

/-- A word for a class does not end in hexadecimal digits after an underscore. -/
theorem classWord_of_suffix_digits {digits : List Char} (hlength : digits.length = 4)
    (hhex : ∀ c ∈ digits, c ∈ Digest.hexDigits) {front : List Char}
    (h : classWord fileClass executable <:+ front ++ '_' :: digits) :
    classWord fileClass executable = [] := by
  have hshort : (classWord fileClass executable).length ≤ ('_' :: digits).length := by
    rw [List.length_cons, hlength]
    cases executable <;> cases fileClass <;> decide
  have hends : classWord fileClass executable <:+ '_' :: digits :=
    List.suffix_of_suffix_length_le h (List.suffix_append _ _) hshort
  have hchars : ∀ c ∈ classWord fileClass executable, c ∈ '_' :: Digest.hexDigits := fun c hc =>
    (List.mem_cons.1 (hends.subset hc)).elim (fun heq => heq ▸ List.mem_cons_self)
      fun hmem => List.mem_cons_of_mem _ (hhex c hmem)
  revert hchars
  cases executable <;> cases fileClass <;> decide

/-- A text can be cut in one way only into a front, four hexadecimal digits after an underscore, and
the word for a class. -/
theorem front_inj {front front' digits digits' : List Char}
    (hlength : digits.length = 4) (hlength' : digits'.length = 4)
    (hhex : ∀ c ∈ digits, c ∈ Digest.hexDigits) (hhex' : ∀ c ∈ digits', c ∈ Digest.hexDigits)
    (h : front ++ '_' :: digits ++ classWord fileClass executable =
      front' ++ '_' :: digits' ++ classWord otherClass otherExecutable) :
    front = front' ∧ digits = digits' ∧
      classWord fileClass executable = classWord otherClass otherExecutable := by
  have hword : classWord fileClass executable = classWord otherClass otherExecutable := by
    -- Both words end the text, so one of them ends the other one; an empty one ends the digits.
    have hends : classWord otherClass otherExecutable <:+
        front ++ '_' :: digits ++ classWord fileClass executable := ⟨_, h.symm⟩
    rcases List.suffix_or_suffix_of_suffix (List.suffix_append _ _) hends with hsuffix | hsuffix
    · rcases classWord_of_suffix hsuffix with heq | hempty
      · exact heq
      · rw [hempty, List.append_nil] at hends
        rw [hempty, classWord_of_suffix_digits hlength hhex hends]
    · rcases classWord_of_suffix hsuffix with heq | hempty
      · exact heq.symm
      · rw [hempty, List.append_nil] at h
        rw [hempty, classWord_of_suffix_digits hlength' hhex' ⟨_, h⟩]
  rw [hword] at h
  have hlengths : ('_' :: digits).length = ('_' :: digits').length := by simp [hlength, hlength']
  obtain ⟨hfront, hdigits⟩ := List.append_inj' (List.append_cancel_right h) hlengths
  exact ⟨hfront, (List.cons.inj hdigits).2, hword⟩

/-- Two names are the same just if the classes have one word, and the readable parts and the digits
are the same. -/
theorem synthesizeWith_inj (hdigest : IsDigest digest) :
    synthesizeWith digest path fileClass executable =
        synthesizeWith digest other otherClass otherExecutable ↔
      (executable = otherExecutable ∧ (executable = false → fileClass = otherClass)) ∧
        readable path.toList = readable other.toList ∧
        (digest path).take 4 = (digest other).take 4 := by
  have hlength (text : String) : ((digest text).take 4).length = 4 :=
    List.length_take_of_le (hdigest text).1
  have hhex (text : String) : ∀ c ∈ (digest text).take 4, c ∈ Digest.hexDigits := fun c hc =>
    (hdigest text).2 c (List.mem_of_mem_take hc)
  rw [← classWord_inj, ← String.toList_inj, toList_synthesizeWith, toList_synthesizeWith]
  constructor
  · intro h
    obtain ⟨hfront, hdigits, hword⟩ := front_inj (hlength path) (hlength other) (hhex path)
      (hhex other) (List.append_cancel_right h)
    exact ⟨hword, List.append_cancel_left hfront, hdigits⟩
  · rintro ⟨hword, hreadable, hdigits⟩
    rw [hword, hreadable, hdigits]

/-! ### More paths than names -/

/-- The texts of four hexadecimal digits. -/
def fourDigits : List (List Char) :=
  (List.replicate 4 Digest.hexDigits).sections

theorem length_fourDigits : fourDigits.length = 16 ^ 4 := by
  have hlength (count : Nat) :
      (List.replicate count Digest.hexDigits).sections.length = 16 ^ count := by
    induction count with
    | zero => rfl
    | succ count ih =>
      have hdigits : Digest.hexDigits.length = 16 := rfl
      rw [List.replicate_succ, List.sections, List.length_flatMap]
      simp [ih, hdigits, Nat.pow_succ]
  exact hlength 4

theorem mem_fourDigits {digits : List Char} (hlength : digits.length = 4)
    (h : ∀ c ∈ digits, c ∈ Digest.hexDigits) : digits ∈ fourDigits := by
  rw [fourDigits, ← hlength, List.mem_sections]
  clear hlength
  induction digits with
  | nil => exact .nil
  | cons c rest ih =>
    obtain ⟨hc, hrest⟩ := List.forall_mem_cons.1 h
    exact .cons hc (ih hrest)

/-- Of more paths than there are texts of four digits two have the same digits. -/
theorem exists_same_digits (hdigest : IsDigest digest) {paths : List String} (hnodup : paths.Nodup)
    (hmany : 16 ^ 4 < paths.length) :
    ∃ path ∈ paths, ∃ other ∈ paths, path ≠ other ∧
      (digest path).take 4 = (digest other).take 4 := by
  have hcard : fourDigits.toFinset.card < paths.toFinset.card := by
    rw [List.toFinset_card_of_nodup hnodup]
    exact Nat.lt_of_le_of_lt (List.toFinset_card_le _) (length_fourDigits ▸ hmany)
  obtain ⟨path, hpath, other, hother, hne, hdigits⟩ :=
    Finset.exists_ne_map_eq_of_card_lt_of_maps_to hcard
      (f := fun path => (digest path).take 4) fun path _ =>
        List.mem_toFinset.2 (mem_fourDigits (List.length_take_of_le (hdigest path).1)
          fun c hc => (hdigest path).2 c (List.mem_of_mem_take hc))
  exact ⟨path, List.mem_toFinset.1 hpath, other, List.mem_toFinset.1 hother, hne, hdigits⟩

/-- Of so many paths with one readable part two get the same name. -/
theorem exists_shared_name (hdigest : IsDigest digest) {paths : List String}
    (hnodup : paths.Nodup) (hmany : 16 ^ 4 < paths.length) {word : List Char}
    (hword : ∀ path ∈ paths, readable path.toList = word) :
    ∃ path ∈ paths, ∃ other ∈ paths, path ≠ other ∧ ∀ fileClass executable,
      synthesizeWith digest path fileClass executable =
        synthesizeWith digest other fileClass executable := by
  obtain ⟨path, hpath, other, hother, hne, hdigits⟩ := exists_same_digits hdigest hnodup hmany
  exact ⟨path, hpath, other, hother, hne, fun _ _ => (synthesizeWith_inj hdigest).2
    ⟨⟨rfl, fun _ => rfl⟩, (hword path hpath).trans (hword other hother).symm, hdigits⟩⟩

end TypeName

/-! ### Types of a project -/

/-- A resource that neither keeps its label nor chooses a type gets one with a name made of its
path. -/
def Resource.IsAutomatic (resource : Resource) : Prop :=
  resource.isSystem = false ∧ resource.typeName.filter (· ≠ "") = none

instance (resource : Resource) : Decidable resource.IsAutomatic :=
  inferInstanceAs (Decidable (_ ∧ _))

namespace Allocation

open LabelledFile (TypedFor)
open TypeEnforcement.TypeName (IsDigest readable synthesizeWith)

/-- The types of two resources are the same just if the names that are made of their paths are. -/
theorem typeName_eq_iff {first second : Resource} {file other : LabelledFile}
    (hfile : TypedFor first file) (hother : TypedFor second other) (hfirst : first.IsAutomatic)
    (hsecond : second.IsAutomatic) :
    file.typeName = other.typeName ↔
      (file.isExecutable = other.isExecutable ∧
        (file.isExecutable = false → file.fileClass = other.fileClass)) ∧
      readable first.path.toList = readable second.path.toList ∧
      TypeName.hashDigits first.path = TypeName.hashDigits second.path := by
  rw [hfile.made hfirst.1 hfirst.2, hother.made hsecond.1 hsecond.2,
    ← TypeName.synthesizeWith_sha256Hex, ← TypeName.synthesizeWith_sha256Hex]
  exact TypeName.synthesizeWith_inj TypeName.isDigest_sha256Hex

/-- Which names that are made of paths are the same.  Whatever the hash is, two paths get one name
just if the class leads to the same word, and the readable parts and the first four digits are the
same; so for paths with one last component without wildcards the digits decide, and of more such
paths than there are digits two get the same name for every class.  Two resources of a project whose
types are made of their paths share the type just if their names are the same in this way. -/
theorem shared_names :
    (∀ digest, IsDigest digest →
      (∀ path other fileClass otherClass executable otherExecutable,
        synthesizeWith digest path fileClass executable =
            synthesizeWith digest other otherClass otherExecutable ↔
          (executable = otherExecutable ∧ (executable = false → fileClass = otherClass)) ∧
            readable path.toList = readable other.toList ∧
            (digest path).take 4 = (digest other).take 4) ∧
      ∀ leaf : List Char, leaf ≠ ['/'] → leaf.any Path.isWild = false →
        (∀ path other : String, Path.leafOf path.toList = leaf → Path.leafOf other.toList = leaf →
          ∀ fileClass executable, synthesizeWith digest path fileClass executable =
              synthesizeWith digest other fileClass executable ↔
            (digest path).take 4 = (digest other).take 4) ∧
        ∀ paths : List String, paths.Nodup → 16 ^ 4 < paths.length →
          (∀ path ∈ paths, Path.leafOf path.toList = leaf) →
          ∃ path ∈ paths, ∃ other ∈ paths, path ≠ other ∧ ∀ fileClass executable,
            synthesizeWith digest path fileClass executable =
              synthesizeWith digest other fileClass executable) ∧
    synthesizeWith Digest.sha256Hex = TypeName.synthesize ∧
    ∀ project catalog own allocation last, make project catalog own = .ok (allocation, last) →
      project.resources.length = allocation.files.length ∧
      ∀ first file second other, (first, file) ∈ project.resources.zip allocation.files →
        (second, other) ∈ project.resources.zip allocation.files →
        first.IsAutomatic → second.IsAutomatic →
        (file.typeName = other.typeName ↔
          (file.isExecutable = other.isExecutable ∧
            (file.isExecutable = false → file.fileClass = other.fileClass)) ∧
          readable first.path.toList = readable second.path.toList ∧
          (Digest.sha256Hex first.path).take 4 = (Digest.sha256Hex second.path).take 4) := by
  refine ⟨fun digest hdigest => ⟨fun path other _ _ _ _ => TypeName.synthesizeWith_inj hdigest,
    fun leaf hroot hplain => ?_⟩, ?_, fun project catalog own allocation last h => ?_⟩
  · -- The root is the only path that is read in another way than its last component.
    have hreadable (path : String) (hleaf : Path.leafOf path.toList = leaf) :
        readable path.toList = TypeName.wordOf leaf := by
      have hpath : path.toList ≠ ['/'] := by
        intro heq
        rw [heq] at hleaf
        exact hroot hleaf.symm
      rw [TypeName.readable_of_plain hpath (hleaf ▸ hplain), hleaf]
    refine ⟨fun path other hpath hother fileClass executable => ?_,
      fun paths hnodup hmany hpaths => TypeName.exists_shared_name hdigest hnodup hmany
        fun path hpath => hreadable path (hpaths path hpath)⟩
    rw [TypeName.synthesizeWith_inj hdigest, hreadable path hpath, hreadable other hother]
    simp
  · funext path fileClass executable
    exact TypeName.synthesizeWith_sha256Hex path fileClass executable
  · obtain ⟨hlength, htyped⟩ := List.forall₂_iff_zip.1 (forall₂_typedFor h)
    exact ⟨hlength, fun first file second other hfile hother =>
      typeName_eq_iff (htyped hfile) (htyped hother)⟩

/-- One path more than there are texts of four hexadecimal digits, each of them for an `x` in
another directory. -/
def manyPaths : List String :=
  (List.range (16 ^ 4 + 1)).map fun depth =>
    String.ofList (List.replicate depth 'a' ++ '/' :: ['x'])

/-- Two files of one name whose paths have a hash with the same first digits. -/
def sharedLeaf : Project where
  name := "demo"
  resources := [
    { path := "/srv/run", classWord := "exec_file" },
    { path := "/ez/x", classWord := "file" },
    { path := "/sx/x", classWord := "file" }]
  specs := [{ name := "demo.json", applications := [{ path := "/srv/run" }] }]

theorem exists_make_sharedLeaf :
    ∃ allocation last, make sharedLeaf rootCatalog [] = .ok (allocation, last) ∧
      allocation.files.map LabelledFile.path = ["/srv/run", "/ez/x", "/sx/x"] ∧
      allocation.files.map LabelledFile.fileClass = [.file, .file, .file] ∧
      allocation.files.map LabelledFile.isExecutable = [true, false, false] ∧
      allocation.files.map LabelledFile.typeName =
        ["auto_run_26af_exec_t", "auto_x_d018_file_t", "auto_x_d018_file_t"] := by
  have hanswer : (make sharedLeaf rootCatalog []).toOption.any fun answer =>
      answer.1.files.map LabelledFile.path = ["/srv/run", "/ez/x", "/sx/x"] ∧
      answer.1.files.map LabelledFile.fileClass = [.file, .file, .file] ∧
      answer.1.files.map LabelledFile.isExecutable = [true, false, false] ∧
      answer.1.files.map LabelledFile.typeName =
        ["auto_run_26af_exec_t", "auto_x_d018_file_t", "auto_x_d018_file_t"] := by
    unfold make sharedLeaf
    simp only [LabelledFile.makeAll, Catalog.allocate, TierEntries.push,
      TierEntries.searchOrder_eq_insertionSort]
    decide +kernel
  obtain ⟨⟨allocation, last⟩, hmake, hvalues⟩ := exists_of_any_toOption hanswer
  exact ⟨allocation, last, hmake, hvalues⟩

/-- Two of the many paths share a name, and so do the two files of the project; the executable has
another one. -/
theorem manyPaths_shared_names :
    (∃ path ∈ manyPaths, ∃ other ∈ manyPaths, path ≠ other ∧
      TypeName.synthesize path .file false = TypeName.synthesize other .file false) ∧
    (TypeName.synthesize "/srv/x" .file false ≠ TypeName.synthesize "/opt/x" .file false) ∧
    ∃ allocation last run first second,
      make sharedLeaf rootCatalog [] = .ok (allocation, last) ∧
      allocation.files = [run, first, second] ∧
      first.typeName = second.typeName ∧ run.typeName ≠ first.typeName := by
  obtain ⟨hdigests, hsha, hprojects⟩ := shared_names
  obtain ⟨hnames, hleaves⟩ := hdigests Digest.sha256Hex TypeName.isDigest_sha256Hex
  obtain ⟨hsame, hmany⟩ := hleaves ['x'] (by decide) (by decide)
  rw [hsha] at hnames hsame hmany
  have hnodup : manyPaths.Nodup := by
    refine List.Nodup.map (fun depth other h => ?_) List.nodup_range
    simpa using congrArg List.length (String.ofList_injective h)
  have hlength : 16 ^ 4 < manyPaths.length := by
    rw [manyPaths, List.length_map, List.length_range]
    exact Nat.lt_succ_self _
  have hpaths : ∀ path ∈ manyPaths, Path.leafOf path.toList = ['x'] := by
    intro path hpath
    obtain ⟨depth, -, rfl⟩ := List.mem_map.1 hpath
    rw [String.toList_ofList]
    exact Path.leafOf_append_cons _ (by decide) (by decide)
  obtain ⟨path, hpath, other, hother, hne, hshared⟩ := hmany manyPaths hnodup hlength hpaths
  have hapart : ¬TypeName.synthesize "/srv/x" .file false =
      TypeName.synthesize "/opt/x" .file false := by
    rw [hsame "/srv/x" "/opt/x" (by decide) (by decide)]
    decide +kernel
  obtain ⟨allocation, last, hmake, -, hclasses, hexecutables, -⟩ := exists_make_sharedLeaf
  obtain ⟨hcount, htypes⟩ := hprojects sharedLeaf rootCatalog [] allocation last hmake
  obtain ⟨run, first, second, hfiles⟩ :
      ∃ run first second, allocation.files = [run, first, second] :=
    List.length_eq_three.1 hcount.symm
  rw [hfiles] at htypes hclasses hexecutables
  simp only [List.map_cons, List.map_nil, List.cons.injEq, and_true] at hclasses hexecutables
  refine ⟨⟨path, hpath, other, hother, hne, hshared .file false⟩, hapart,
    allocation, last, run, first, second, hmake, hfiles, ?_, ?_⟩
  · refine (htypes _ first _ second (.tail _ (.head _)) (.tail _ (.tail _ (.head _)))
      (by decide) (by decide)).2 ⟨⟨?_, fun _ => ?_⟩, by decide +kernel, by decide +kernel⟩
    · exact hexecutables.2.1.trans hexecutables.2.2.symm
    · exact hclasses.2.1.trans hclasses.2.2.symm
  · intro heq
    obtain ⟨⟨hexecutable, -⟩, -⟩ := (htypes _ run _ first (.head _) (.tail _ (.head _))
      (by decide) (by decide)).1 heq
    rw [hexecutables.1, hexecutables.2.1] at hexecutable
    cases hexecutable

/-- Two paths with one last component and the same name, and a project whose resources share it. -/
theorem sharedLeaf_shares_type :
    "/ez/x" ≠ "/sx/x" ∧ Path.leafOf "/ez/x".toList = Path.leafOf "/sx/x".toList ∧
    TypeName.synthesize "/ez/x" .file false = TypeName.synthesize "/sx/x" .file false ∧
    sharedLeaf.check = .ok () ∧ ∃ allocation last,
      make sharedLeaf rootCatalog [] = .ok (allocation, last) ∧
      allocation.files.map LabelledFile.path = ["/srv/run", "/ez/x", "/sx/x"] ∧
      allocation.files.map LabelledFile.typeName =
        ["auto_run_26af_exec_t", "auto_x_d018_file_t", "auto_x_d018_file_t"] := by
  have hnames : TypeName.synthesize "/ez/x" .file false =
      TypeName.synthesize "/sx/x" .file false := by
    decide +kernel
  have hcheck : sharedLeaf.check = .ok () := by decide +kernel
  obtain ⟨allocation, last, hmake, hpaths, -, -, htypes⟩ := exists_make_sharedLeaf
  exact ⟨by decide, by decide, hnames, hcheck, allocation, last, hmake, hpaths, htypes⟩

end Allocation

end TypeEnforcement
