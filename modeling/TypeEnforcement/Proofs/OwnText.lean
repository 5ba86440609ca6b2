/-
Which globs stand for their own text.

A resource is looked up under the text of its path, links folded, as if the text were a path.  A
glob without a form that covers the directory itself stands for its own text, because every wildcard
stands for the stars and question marks it is written with.  The form `{,/**}` does not stand for
the characters it is written with, so behind a path without wildcards it makes a glob that does not
stand for its own text.

* `Path.CoversSelf` — a path ends in a form that covers the directory itself.

Main statements:
* `mem_language_self`, `not_mem_language_glob` — which globs stand for themselves;
* `exists_fold_append_glob` — folding leaves the trailing form alone;
* `covers_own_text`, `not_covers_own_text` — which entries are for the text of their own path.
-/
import TypeEnforcement.Proofs.Globs
import TypeEnforcement.Proofs.NewLabels

namespace TypeEnforcement

namespace Path

/-- The path ends in a form that covers the directory before it. -/
def CoversSelf (path : List Char) : Prop :=
  ∃ t, (splitTrailing path).2 = some t ∧ t.coversSelf = true

instance (path : List Char) : Decidable (CoversSelf path) :=
  decidable_of_iff ((splitTrailing path).2.any (·.coversSelf) = true) (Option.any_eq_true _ _)

variable {path body front : List Char} {t : Trailing}

/-! ### Languages -/

/-- Every part of a body stands for what it is written as. -/
theorem mem_prod_parts_self (body : List Char) :
    body ∈ ((parts body).map Part.language).prod := by
  fun_induction parts body with
  | case1 => exact Language.nil_mem_one
  | case2 rest ih =>
    have hstars : ['*', '*'] ∈ Part.language .inLine := (by decide : '\n' ∉ ['*', '*'])
    exact Language.append_mem_mul hstars ih
  | case3 rest _ ih =>
    have hstar : ['*'] ∈ Part.language .inComponent := (by decide : '/' ∉ ['*'])
    exact Language.append_mem_mul hstar ih
  | case4 rest ih =>
    have hquestion : ['?'] ∈ Part.language .one := ⟨'?', by decide, rfl⟩
    exact Language.append_mem_mul hquestion ih
  | case5 c rest _ _ _ ih =>
    have hliteral : [c] ∈ Part.language (.literal c) := rfl
    exact Language.append_mem_mul hliteral ih

theorem mem_language_self (body : List Char) : body ∈ language body none := by
  rw [language, Option.map_none, Option.getD_none, mul_one]
  exact mem_prod_parts_self body

/-- Without wildcards the parts of a body stand for the body only. -/
theorem eq_of_mem_prod_parts (h : ∀ c ∈ body, isWild c = false) {text : List Char}
    (htext : text ∈ ((parts body).map Part.language).prod) : text = body := by
  fun_induction parts body generalizing text with
  | case1 => exact (Language.mem_one _).1 htext
  | case2 => exact absurd (h '*' List.mem_cons_self) (by decide)
  | case3 => exact absurd (h '*' List.mem_cons_self) (by decide)
  | case4 => exact absurd (h '?' List.mem_cons_self) (by decide)
  | case5 c rest _ _ _ ih =>
    rw [List.map_cons, List.prod_cons, Language.mem_mul] at htext
    obtain ⟨first, hfirst, others, hothers, rfl⟩ := htext
    obtain rfl : first = [c] := hfirst
    rw [ih (List.forall_mem_cons.1 h).2 hothers, List.singleton_append]

theorem Trailing.exists_glob_eq_cons (ht : t.coversSelf = true) :
    ∃ rest, t.glob = '\x7b' :: rest := by
  cases t with
  | selfAndTree => exact ⟨_, rfl⟩
  | selfAndChildren => exact ⟨_, rfl⟩
  | tree => cases ht
  | children => cases ht

/-- A form that covers the directory itself does not stand for its characters. -/
theorem not_mem_language_glob (h : ∀ c ∈ front, isWild c = false) (ht : t.coversSelf = true) :
    front ++ t.glob ∉ language front (some t) := by
  rw [language, Option.map_some, Option.getD_some, Language.mem_mul]
  rintro ⟨first, hfirst, rest, hrest, heq⟩
  obtain rfl := eq_of_mem_prod_parts h hfirst
  obtain rfl := List.append_cancel_left heq
  obtain ⟨more, hglob⟩ := Trailing.exists_glob_eq_cons ht
  rw [Trailing.language, if_pos ht, Language.mem_add, Language.mem_mul, Language.mem_one, hglob]
    at hrest
  -- What the form stands for is empty or begins with a slash, and the form with a brace.
  rcases hrest with ⟨slash, hslash, below, -, heq⟩ | hnil
  · obtain rfl : slash = ['/'] := hslash
    exact absurd (List.cons.inj heq).1 (by decide)
  · cases hnil

/-! ### Folded globs -/

theorem IsLiteral.isPlainBody (h : IsLiteral body) : IsPlainBody body := by
  intro c hmem hc
  refine h c hmem ?_
  simp only [List.mem_cons, List.not_mem_nil, or_false] at hc ⊢
  tauto

theorem IsPlainBody.of_forall (h : IsPlainBody body)
    (hchars : ∀ c ∈ ['*', '?', '\\', '$', '|', '\x7b', '\x7d'], c ∈ front → c ∈ body) :
    IsPlainBody front := by
  intro c hmem hc
  refine h c (hchars c ?_ hmem) hc
  simp only [List.mem_cons, List.not_mem_nil, or_false] at hc ⊢
  tauto

/-- Folding a glob leaves the form alone that covers the directory itself, and no character that has
a meaning comes to the body. -/
theorem exists_fold_append_glob (ht : t.coversSelf = true) (body : List Char) :
    ∃ front, fold (body ++ t.glob) = front ++ t.glob ∧
      ∀ c ∈ ['*', '?', '\\', '$', '|', '\x7b', '\x7d'], c ∈ front → c ∈ body := by
  unfold fold
  split
  · rename_i link rest hbest
    obtain ⟨hlink, hpath⟩ := bestLink_eq_some hbest
    have hplain : IsLiteral (link.source.toList ++ link.target.toList) := by
      have hall : ∀ link ∈ links, IsLiteral (link.source.toList ++ link.target.toList) := by
        decide +kernel
      exact hall link hlink
    rcases List.append_eq_append_iff.1 hpath with ⟨more, hsource, hglob⟩ | ⟨more, hbody, hrest⟩
    · -- The source would reach into the form, which begins with a brace.
      obtain rfl : more = [] := by
        cases more with
        | nil => rfl
        | cons c more =>
          obtain ⟨others, hbrace⟩ := Trailing.exists_glob_eq_cons ht
          obtain rfl : '\x7b' = c := (List.cons.inj (hbrace.symm.trans hglob)).1
          refine absurd (hplain '\x7b' ?_) (by decide)
          rw [hsource]
          simp
      refine ⟨link.target.toList, by rw [hglob, List.nil_append], fun c hc hmem => ?_⟩
      exact absurd hc (hplain c (List.mem_append_right _ hmem))
    · refine ⟨link.target.toList ++ more, by rw [hrest, List.append_assoc], fun c hc hmem => ?_⟩
      rw [List.mem_append, or_iff_right fun hmem => hplain c (List.mem_append_right _ hmem) hc]
        at hmem
      rw [hbody]
      exact List.mem_append_right _ hmem
  · exact ⟨body, rfl, fun _ _ hmem => hmem⟩

theorem IsPlainBody.fold (h : IsPlainBody path) : IsPlainBody (fold path) :=
  h.of_forall fun _ hc => (mem_fold_iff_of_not_plain hc path).1

theorem IsPlainGlob.isPlainBody_splitTrailing (h : IsPlainGlob path) :
    IsPlainBody (splitTrailing path).1 := by
  intro c hmem
  have hplain := h.plain c (by
    rw [splitTrailing_append path]
    exact List.mem_append_left _ hmem)
  have hbraces := h.braces c hmem
  simp only [List.mem_cons, List.not_mem_nil, or_false, not_or] at hplain hbraces ⊢
  exact ⟨hplain.1, hbraces.1, hbraces.2, hplain.2.2, hplain.2.1⟩

/-- A plain glob without a form that covers the directory itself is all body. -/
theorem IsPlainGlob.isPlainBody (h : IsPlainGlob path) (hform : ¬CoversSelf path) :
    IsPlainBody path := by
  have hglob : IsPlainBody (((splitTrailing path).2.map Trailing.glob).getD []) := by
    cases hsplit : (splitTrailing path).2 with
    | none => exact List.forall_mem_nil _
    | some t =>
      cases t with
      | selfAndTree => exact absurd ⟨_, hsplit, rfl⟩ hform
      | selfAndChildren => exact absurd ⟨_, hsplit, rfl⟩ hform
      | tree => decide
      | children => decide
  rw [splitTrailing_append path]
  exact List.forall_mem_append.2 ⟨h.isPlainBody_splitTrailing, hglob⟩

/-- A folded plain glob is a plain body, perhaps with a form that covers the directory itself. -/
theorem IsPlainGlob.exists_fold_eq (h : IsPlainGlob path) :
    ∃ body form, IsPlainBody body ∧
      fold path = body ++ (Option.map Trailing.glob form).getD [] := by
  by_cases hform : CoversSelf path
  · obtain ⟨t, hsplit, ht⟩ := hform
    have hpath := splitTrailing_append path
    rw [hsplit, Option.map_some, Option.getD_some] at hpath
    obtain ⟨front, hfold, hchars⟩ := exists_fold_append_glob ht (splitTrailing path).1
    rw [← hpath] at hfold
    exact ⟨front, some t, h.isPlainBody_splitTrailing.of_forall hchars, hfold⟩
  · exact ⟨fold path, none, (h.isPlainBody hform).fold, (List.append_nil _).symm⟩

end Path

/-! ### Entries -/

namespace FileContext

open LabelledFile (lookupPath)

variable {entry : FileContext} {path : String} {fileClass : FileClass}

/-- The entry of a plain glob is valid. -/
theorem IsOf.valid_eq_true {glob : List Char} (h : entry.IsOf glob) : entry.valid = true := by
  obtain ⟨body, form, hbody, hfold⟩ := h.plain.exists_fold_eq
  obtain ⟨p, hparse, -⟩ := Path.exists_parse?_toPattern hbody form
  have hcompile : Pattern.compile (String.ofList (Path.labelPattern glob)) = some p.anchored :=
    Pattern.compile_of_parse (by rwa [String.toList_ofList, Path.labelPattern, hfold])
  rw [h.eq_bind]
  simp [bind, hcompile, h.labelled]

/-- An entry of a plain glob that is for the text of a path with wildcards has special characters,
since without them it would be for a path without wildcards. -/
theorem IsOf.isWildcard_eq_true {glob : List Char} (h : entry.IsOf glob)
    (hcovers : entry.covers (lookupPath path) fileClass = true)
    (hwild : ∃ c ∈ path.toList, Path.isWild c = true) : entry.isWildcard = true := by
  refine Bool.eq_true_of_not_eq_false fun hexact => ?_
  obtain ⟨-, htext⟩ := (h.covers_iff hexact).1 hcovers
  rw [lookupPath, String.toList_ofList] at htext
  rw [← Path.exists_isWild_fold_iff, htext, Path.exists_isWild_fold_iff] at hwild
  obtain ⟨c, hc, hwild⟩ := hwild
  rw [h.isWildcard_eq_false_iff.1 hexact c hc] at hwild
  cases hwild

/-- An entry with the pattern of a glob is for the texts that the glob stands for. -/
theorem covers_iff_mem_language {body : List Char} (h : Path.IsPlainBody body)
    {form : Option Path.Trailing} (hpattern : entry.pattern =
      String.ofList (Path.toPattern (body ++ (form.map Path.Trailing.glob).getD []))) :
    entry.covers path fileClass = true ↔ entry.valid = true ∧
      entry.fileClass.Compatible fileClass ∧ path.toList ∈ Path.language body form := by
  obtain ⟨p, hparse, hmeans⟩ := Path.exists_parse?_toPattern h form
  have hcompile : Pattern.compile entry.pattern = some p.anchored :=
    Pattern.compile_of_parse (by rwa [hpattern, String.toList_ofList])
  rw [covers_iff_search, hcompile]
  refine and_congr_right fun _ => and_congr_right fun _ => ?_
  rw [← hmeans none path.toList none, ← Pattern.search_anchored]
  simp

/-- An entry is for the text of its own path, if the path has no form that covers the directory
itself. -/
theorem covers_own_text (h : Path.IsPlainGlob path.toList) (hform : ¬Path.CoversSelf path.toList)
    (hpattern : entry.pattern = String.ofList (Path.labelPattern path.toList))
    (hvalid : entry.valid = true) (hclass : entry.fileClass.Compatible fileClass) :
    entry.covers (lookupPath path) fileClass = true := by
  have hfold : Path.IsPlainBody (Path.fold path.toList) := (h.isPlainBody hform).fold
  have hpattern : entry.pattern = String.ofList (Path.toPattern (Path.fold path.toList ++
      ((none : Option Path.Trailing).map Path.Trailing.glob).getD [])) := by
    simpa [Path.labelPattern] using hpattern
  refine (covers_iff_mem_language hfold hpattern).2 ⟨hvalid, hclass, ?_⟩
  rw [lookupPath, String.toList_ofList]
  exact Path.mem_language_self _

/-- An entry is not for the text of its own path, if the path is one without wildcards and a form
that covers the directory itself. -/
theorem not_covers_own_text {d : List Char} {t : Path.Trailing} (h : Path.IsLiteral d)
    (ht : t.coversSelf = true) (hpath : path.toList = d ++ t.glob)
    (hpattern : entry.pattern = String.ofList (Path.labelPattern path.toList)) :
    ¬entry.covers (lookupPath path) fileClass = true := by
  obtain ⟨front, hfold, hchars⟩ := Path.exists_fold_append_glob ht d
  have hliteral : Path.IsLiteral front := fun c hmem hc => h c (hchars c hc hmem) hc
  have hpattern : entry.pattern = String.ofList (Path.toPattern (front ++
      ((some t).map Path.Trailing.glob).getD [])) := by
    rw [hpattern, Path.labelPattern, hpath, hfold, Option.map_some, Option.getD_some]
  intro hcovers
  obtain ⟨-, -, hmem⟩ := (covers_iff_mem_language hliteral.isPlainBody hpattern).1 hcovers
  rw [lookupPath, String.toList_ofList, hpath, hfold] at hmem
  exact Path.not_mem_language_glob hliteral.not_wild ht hmem

end FileContext

end TypeEnforcement
