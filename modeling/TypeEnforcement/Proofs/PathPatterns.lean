/-
What the pattern of a path takes over from the path.

The pattern of a resource is made of its path, whose links are folded first.  The text of the path
goes into the pattern character by character, with a backslash before what is special in patterns
only.

* `Path.ClosesApart` — parentheses that do not close after the last letter of a type.

Main statements:
* `mem_labelPattern_iff` — a pattern has the blanks of its path;
* `head?_labelPattern` — the pattern of an absolute path begins like the path;
* `closesApart_labelPattern` — no pattern can be mistaken for the end of a declaration.
-/
import Mathlib.Data.List.Chain
import TypeEnforcement.Path.Resource
import TypeEnforcement.Proofs.Words

namespace TypeEnforcement.Path

/-! ### Characters -/

theorem Link.rest?_eq_some {link : Link} {path rest : List Char} (h : link.rest? path = some rest) :
    path = link.source.toList ++ rest :=
  Text.dropStart?_eq_some_iff.1 (Option.filter_eq_some_iff.1 h).1

/-- The best link of a path is one that the path starts with. -/
theorem bestLink_eq_some {path rest : List Char} {link : Link}
    (h : bestLink path = some (link, rest)) :
    link ∈ links ∧ path = link.source.toList ++ rest := by
  have hfound : ∀ found ∈ bestLink path,
      found.1 ∈ links ∧ path = found.1.source.toList ++ found.2 := by
    unfold bestLink
    refine List.foldlRecOn (motive := fun best : Option (Link × List Char) => ∀ found ∈ best,
      found.1 ∈ links ∧ path = found.1.source.toList ++ found.2) links _ (by simp)
      fun best hbest link hlink => ?_
    split
    · exact hbest
    · rename_i hrest
      simpa using ⟨hlink, Link.rest?_eq_some hrest⟩
    · rename_i hrest
      split
      · simpa using ⟨hlink, Link.rest?_eq_some hrest⟩
      · exact hbest
  exact hfound (link, rest) h

/-- Folding keeps the characters of a path that are in no name of a linked tree. -/
theorem mem_fold_iff_of_links {c : Char}
    (h : ∀ link ∈ links, c ∉ link.source.toList ++ link.target.toList) (path : List Char) :
    c ∈ fold path ↔ c ∈ path := by
  unfold fold
  split
  · rename_i link rest hbest
    obtain ⟨hlink, rfl⟩ := bestLink_eq_some hbest
    have hnone := h link hlink
    rw [List.mem_append, not_or] at hnone
    rw [List.mem_append, List.mem_append, or_iff_right hnone.1, or_iff_right hnone.2]
  · rfl

/-- Folding keeps the blanks of a path, because linked trees have none in their names. -/
theorem mem_fold_iff {c : Char} (hc : Text.isBlank c = true) (path : List Char) :
    c ∈ fold path ↔ c ∈ path := by
  have hlinks : ∀ link ∈ links, ∀ d ∈ link.source.toList ++ link.target.toList,
      Text.isBlank d = false := by decide
  refine mem_fold_iff_of_links (fun link hlink hmem => ?_) path
  rw [hlinks link hlink c hmem] at hc
  cases hc

theorem mem_patternBody_iff {c : Char} (hc : Text.isBlank c = true) (escaped : Bool)
    (text : List Char) : c ∈ patternBody escaped text ↔ c ∈ text := by
  have hne : ∀ d ∈ ['?', '*', '[', '^', '/', ']', '.', '\\'], c ≠ d := by
    have hall : ∀ d ∈ ['?', '*', '[', '^', '/', ']', '.', '\\'], Text.isBlank d = false := by decide
    rintro d hd rfl
    rw [hall c hd] at hc
    cases hc
  simp only [List.forall_mem_cons] at hne
  fun_induction patternBody escaped text <;> simp_all

/-- A glob and its pattern have one body, and the trailing forms that belong together. -/
theorem exists_toPattern (path : List Char) : ∃ body form,
    path = body ++ (Option.map Trailing.glob form).getD [] ∧
      toPattern path = patternBody false body ++ (Option.map Trailing.regex form).getD [] := by
  refine ⟨_, _, splitTrailing_append path, ?_⟩
  unfold toPattern
  split
  · rename_i body t heq
    rw [heq]
    rfl
  · rename_i body heq
    rw [heq, Option.map_none, Option.getD_none, List.append_nil]

/-- The pattern of a path has the blanks of the path. -/
theorem mem_labelPattern_iff {c : Char} (hc : Text.isBlank c = true) (path : List Char) :
    c ∈ labelPattern path ↔ c ∈ path := by
  have hforms (t : Trailing) : c ∉ t.glob ∧ c ∉ t.regex := by
    have hall : ∀ d ∈ t.glob ++ t.regex, Text.isBlank d = false := by
      cases t <;> decide
    rw [← not_or, ← List.mem_append]
    intro hmem
    rw [hall c hmem] at hc
    cases hc
  rw [labelPattern, ← mem_fold_iff hc path]
  generalize fold path = folded
  obtain ⟨body, form, hfolded, hpattern⟩ := exists_toPattern folded
  rw [hpattern, hfolded, List.mem_append, List.mem_append, mem_patternBody_iff hc]
  cases form with
  | none => rfl
  | some t =>
    obtain ⟨hglob, hregex⟩ := hforms t
    rw [Option.map_some, Option.map_some, Option.getD_some, Option.getD_some, or_iff_left hregex,
      or_iff_left hglob]

/-- A pattern has no blanks just if its path has none. -/
theorem forall_mem_labelPattern_iff (path : List Char) :
    (∀ c ∈ labelPattern path, Text.isBlank c = false) ↔ ∀ c ∈ path, Text.isBlank c = false := by
  constructor
  · intro h c hmem
    refine Bool.eq_false_iff.2 fun hc => ?_
    rw [h c ((mem_labelPattern_iff hc path).2 hmem)] at hc
    cases hc
  · intro h c hmem
    refine Bool.eq_false_iff.2 fun hc => ?_
    rw [h c ((mem_labelPattern_iff hc path).1 hmem)] at hc
    cases hc

/-- The pattern of an absolute path begins like the path. -/
theorem head?_labelPattern {path : List Char} (h : path.head? = some '/') :
    (labelPattern path).head? = some '/' := by
  have hfold : (fold path).head? = some '/' := by
    have hlinks : ∀ link ∈ links, link.target.toList.head? = some '/' := by decide
    unfold fold
    split
    · rename_i link rest hbest
      rw [List.head?_append, hlinks link (bestLink_eq_some hbest).1]
      rfl
    · exact h
  rw [labelPattern]
  generalize fold path = folded at hfold
  obtain ⟨body, form, rfl, hpattern⟩ := exists_toPattern folded
  rw [hpattern]
  cases body with
  | cons c rest =>
    obtain rfl : c = '/' := by simpa using hfold
    have hplain : '/' ∉ specials := by decide
    simp [patternBody, hplain]
  | nil =>
    -- A path that is all trailing form begins with a slash if it covers no directory itself.
    cases form with
    | none => cases hfold
    | some t =>
      cases t with
      | selfAndTree => cases hfold
      | selfAndChildren => cases hfold
      | tree => rfl
      | children => rfl

/-! ### Parentheses -/

/-- No parenthesis of the pattern closes right after the last letter of a type. -/
def ClosesApart (pattern : List Char) : Prop :=
  pattern.IsChain fun a b => ¬(a = 't' ∧ b = ')')

/-- The parentheses of a path are escaped in its pattern, and those of a trailing form follow a
wildcard. -/
theorem closesApart_labelPattern (path : List Char) : ClosesApart (labelPattern path) := by
  have hspecial : ')' ∈ specials := by decide
  have hbody (escaped : Bool) (text : List Char) :
      ClosesApart (patternBody escaped text) ∧
        (patternBody escaped text).head? ≠ some ')' := by
    unfold ClosesApart
    fun_induction patternBody escaped text <;> simp_all [List.isChain_cons]
    case case5 rest _ _ _ ih =>
      rintro c hc - rfl
      exact ih.2 hc
    case case6 c rest _ _ hplain ih =>
      refine ⟨?_, fun heq => hplain (heq ▸ hspecial)⟩
      rintro d hd - rfl
      exact ih.2 hd
  have hforms (t : Trailing) : ClosesApart t.regex ∧ t.regex.head? ≠ some ')' := by
    unfold ClosesApart
    cases t <;> decide
  obtain ⟨body, form, -, hpattern⟩ := exists_toPattern (fold path)
  rw [labelPattern, hpattern]
  cases form with
  | none =>
    rw [Option.map_none, Option.getD_none, List.append_nil]
    exact (hbody false body).1
  | some t =>
    refine List.isChain_append.2 ⟨(hbody false body).1, (hforms t).1, ?_⟩
    rintro a - b hb ⟨-, rfl⟩
    exact (hforms t).2 hb

end TypeEnforcement.Path
