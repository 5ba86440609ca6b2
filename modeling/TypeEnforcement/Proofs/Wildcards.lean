/-
Where a glob has its first wildcard.

Three readers look for wildcards on their own.  The catalog takes a pattern for one with wildcards
if it has a special character that nothing escapes, a relabelling script takes the characters before
the first of these for a path, and the rules for creating a file look for wildcards in the path
itself.  In a path whose only signs are wildcards, and perhaps a trailing form in braces, they all
find the same ones.

* `Path.IsLiteralStart` — the part of a path before its first wildcard or its braces.

Main statements:
* `isLiteralStart_literalPart` — this part exists;
* `hasWildcard_iff`, `isWildcard_bind_eq` — paths and patterns with wildcards;
* `exists_transition_mem_fileCreation_iff` — which files are created under their name;
* `wildcards_agree` — the wildcards of the catalog, of scripts and of rules.
-/
import TypeEnforcement.Proofs.NamedFiles
import TypeEnforcement.Proofs.RelabelScopes

namespace TypeEnforcement

namespace Path

/-- The longest part at the beginning of a path that has no wildcard and no brace. -/
structure IsLiteralStart (start path : List Char) : Prop where
  begins : start <+: path
  plain : ∀ c ∈ start, c ∉ wildStarts
  longest : ∀ front, front <+: path → (∀ c ∈ front, c ∉ wildStarts) → front <+: start

variable {path body : List Char} {form : Option Trailing}

theorem isLiteralStart_literalPart (path : List Char) : IsLiteralStart (literalPart path) path where
  begins := List.takeWhile_prefix _
  plain := fun c hc => by simpa using List.mem_takeWhile_imp hc
  longest := by
    rintro front ⟨rest, rfl⟩ hfront
    rw [literalPart_append hfront]
    exact List.prefix_append front _

/-! ### Paths with wildcards -/

/-- Where no backslash stands, every wildcard counts. -/
theorem hasWildcard_iff (h : '\\' ∉ path) :
    hasWildcard path = true ↔ ∃ c ∈ path, isWild c = true := by
  rw [hasWildcard]
  induction path with
  | nil => simp [hasWildcardFrom]
  | cons c rest ih =>
    simp only [List.mem_cons, not_or] at h
    -- The next character is read as one that nothing escapes.
    have hback : (c == '\\' && !false) = false := by simpa using Ne.symm h.1
    rw [hasWildcardFrom, hback, Bool.or_eq_true, ih h.2]
    simp

/-- The last component of a path has a name, if only a dot or a slash. -/
theorem leafOf_ne_nil (path : List Char) : leafOf path ≠ [] := by
  unfold leafOf
  simp only
  split
  · split <;> exact List.cons_ne_nil _ _
  · rename_i hne
    split
    · exact hne
    · rename_i before leaf hcut
      rintro rfl
      have hlast : ¬((dropSlashes path).getLast hne == '/') = true :=
        List.rdropWhile_last_not _ path hne
      simp [Text.splitLast_eq_some hcut] at hlast

/-- Only a trailing form leaves a path without a name, and a trailing form has a wildcard. -/
theorem fileName_ne_nil (h : hasWildcard path = false) : fileName path ≠ [] := by
  unfold fileName
  split
  · rename_i t hform
    rw [hasWildcard_of_trailing hform] at h
    cases h
  · exact leafOf_ne_nil path

/-- A plain body is a plain glob, also with a form behind it that covers the directory itself. -/
theorem IsPlainBody.isPlainGlob (h : IsPlainBody body) (hform : ∀ t ∈ form, t.coversSelf = true) :
    IsPlainGlob (body ++ (form.map Trailing.glob).getD []) where
  plain := by
    have hglob : ∀ c ∈ (form.map Trailing.glob).getD [], c ∉ ['\\', '$', '|'] := by
      cases form with
      | none => exact List.forall_mem_nil _
      | some t => cases t <;> decide
    refine List.forall_mem_append.2 ⟨fun c hc hsign => h c hc ?_, hglob⟩
    simp only [List.mem_cons, List.not_mem_nil, or_false] at hsign ⊢
    tauto
  braces := by
    have hbody : ∀ c ∈ body, c ∉ ['\x7b', '\x7d'] := by
      intro c hc hbrace
      refine h c hc ?_
      simp only [List.mem_cons, List.not_mem_nil, or_false] at hbrace ⊢
      tauto
    cases form with
    | none =>
      rw [Option.map_none, Option.getD_none, List.append_nil]
      intro c hc
      refine hbody c ?_
      rw [splitTrailing_append body]
      exact List.mem_append_left _ hc
    | some t =>
      rw [Option.map_some, Option.getD_some, splitTrailing_append_glob (hform t rfl)]
      exact hbody

end Path

/-- The entry of a plain glob has special characters in its pattern just if the glob has wildcards
that count, folded or not. -/
theorem FileContext.isWildcard_bind_eq {path : List Char} (h : Path.IsPlainGlob path)
    (fileClass : FileClass) (label : Label) :
    (bind (String.ofList (Path.toPattern path)) fileClass label).isWildcard =
        Path.hasWildcard path ∧
      (bind (String.ofList (Path.labelPattern path)) fileClass label).isWildcard =
        Path.hasWildcard path := by
  have hplain : '\\' ∉ path := fun hmem => h.plain _ hmem (by decide)
  constructor
  · rw [Bool.eq_iff_iff, isWildcard_bind_toPattern_iff h, Path.hasWildcard_iff hplain]
  · rw [Bool.eq_iff_iff, isWildcard_bind_iff h, Path.hasWildcard_iff hplain]

namespace Grant

/-- A file is created under its name just if its path has no wildcards and its type is not that of
its directory. -/
theorem exists_transition_mem_fileCreation_iff (domain : String) (file : LabelledFile) :
    (∃ rule, .transition rule ∈ fileCreation domain file) ↔
      file.typeName ≠ file.parentType ∧ Path.hasWildcard file.path.toList = false := by
  constructor
  · rintro ⟨rule, hrule⟩
    rcases List.mem_append.1 hrule with h | h
    · exact absurd h (accessOnly_directoryChange _ _ rule)
    · split at h
      · cases h
      · rename_i hnamed
        simp only [not_or, Bool.not_eq_true] at hnamed
        exact ⟨hnamed.1, hnamed.2.1⟩
  · rintro ⟨htype, hplain⟩
    have hname := Path.fileName_ne_nil hplain
    obtain ⟨c, hc⟩ : ∃ c, c ∈ file.fileClass.members := by
      cases file.fileClass <;> exact ⟨_, List.mem_cons_self⟩
    obtain ⟨rule, hrule, -⟩ :=
      exists_transition_mem_fileCreation domain file c hc htype hplain hname
    exact ⟨rule, hrule⟩

end Grant

open TypeEnforcement.Path (IsLiteralStart IsPlainBody Trailing hasWildcard toPattern)

namespace LabelledFile

/-- Take any path that is a plain body, perhaps with a form behind it that covers the directory
itself.  What its pattern has before the first special character is the part of the path before its
first wildcard, and the entry of the pattern counts as one with wildcards just if the path has some.
For a file with this path the catalog, the script that relabels it and the rules for creating it all
go by the same wildcards. -/
theorem wildcards_agree {body : List Char} (h : IsPlainBody body) {form : Option Trailing}
    (hform : ∀ t ∈ form, t.coversSelf = true) :
    let path := body ++ (form.map Trailing.glob).getD []
    IsLiteralStart (Path.unescape (Path.fixedStart (toPattern path))) path ∧
    (∀ fileClass label, (FileContext.bind (String.ofList (toPattern path)) fileClass
      label).isWildcard = hasWildcard path) ∧
    ∀ resource file, Describes resource file → file.path.toList = path →
      (∀ place, (SearchKey.of file.fileContext place).isWildcard = hasWildcard path) ∧
      IsLiteralStart (PolicyModule.relabelScope file.fileContext).toList (Path.fold path) ∧
      ∀ domain, (∃ rule, .transition rule ∈ Grant.fileCreation domain file) ↔
        file.typeName ≠ file.parentType ∧ file.fileContext.isWildcard = false := by
  intro path
  have hglob : Path.IsPlainGlob path := h.isPlainGlob hform
  refine ⟨?_, fun fileClass label => (FileContext.isWildcard_bind_eq hglob fileClass label).1, ?_⟩
  · rw [Path.unescape_fixedStart_toPattern h hform]
    exact Path.isLiteralStart_literalPart path
  · intro resource file hdescribes hpath
    have hpattern : file.pattern = String.ofList (Path.labelPattern path) := by
      rw [← hpath, hdescribes.path]
      exact hdescribes.pattern
    -- The pattern is that of the folded path, and folding keeps the wildcards.
    have hwildcard : file.fileContext.isWildcard = hasWildcard path := by
      rw [fileContext, hpattern]
      exact (FileContext.isWildcard_bind_eq hglob _ _).2
    refine ⟨fun place => hwildcard, ?_, fun domain => ?_⟩
    · rw [FileContext.relabelScope_of_isPlainGlob hglob hpattern]
      exact Path.isLiteralStart_literalPart _
    · rw [hwildcard, ← hpath]
      exact Grant.exists_transition_mem_fileCreation_iff domain file

/-- A directory in a linked tree, with a type of its own. -/
def runDirectory (path : String) : LabelledFile where
  path := path
  pattern := String.ofList (Path.labelPattern path.toList)
  fileClass := .directory
  label := .object "app_var_t"
  parentLabel := .object "var_run_t"

/-- A directory with a dot in its name is created under its name.  With everything in it the
directory is relabelled from where its name ends, and it is not created under a name. -/
theorem runDirectory_wildcards_agree :
    (∃ rule, .transition rule ∈ Grant.fileCreation "app_t" (runDirectory "/run/app.d")) ∧
    IsLiteralStart
      (PolicyModule.relabelScope (runDirectory "/run/app.d\x7b,/**\x7d").fileContext).toList
      "/var/run/app.d\x7b,/**\x7d".toList ∧
    (runDirectory "/run/app.d\x7b,/**\x7d").fileContext.isWildcard = true ∧
    ¬∃ rule, .transition rule ∈
      Grant.fileCreation "app_t" (runDirectory "/run/app.d\x7b,/**\x7d") := by
  have hbody : IsPlainBody "/run/app.d".toList := by decide
  have hno : ∀ t ∈ (none : Option Trailing), t.coversSelf = true := by simp
  have htree : ∀ t ∈ some Trailing.selfAndTree, t.coversSelf = true := by simp [Trailing.coversSelf]
  have hdescribes (path : String) :
      Describes { path, classWord := "dir" } (runDirectory path) := ⟨rfl, rfl, rfl, rfl⟩
  obtain ⟨-, -, hall⟩ := wildcards_agree hbody hno
  obtain ⟨hplain, -, hcreated⟩ := hall _ (runDirectory "/run/app.d") (hdescribes _) (by decide)
  obtain ⟨-, -, hall⟩ := wildcards_agree hbody htree
  obtain ⟨hwildcard, hscope, hnot⟩ :=
    hall _ (runDirectory "/run/app.d\x7b,/**\x7d") (hdescribes _) (by decide)
  have hsome : (runDirectory "/run/app.d\x7b,/**\x7d").fileContext.isWildcard = true :=
    (hwildcard 0).trans (by decide)
  refine ⟨(hcreated "app_t").2 ⟨by decide, (hplain 0).trans (by decide)⟩, hscope, hsome,
    fun hrule => ?_⟩
  rw [((hnot "app_t").1 hrule).2] at hsome
  cases hsome

end LabelledFile

end TypeEnforcement
