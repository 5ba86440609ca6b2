/-
Paths without wildcards, and the entries that label them.

The pattern of a path in which no character has a meaning is the path with some characters escaped.
It can be read, it matches the path and nothing else, and it counts as a pattern without special
characters.  The pattern of any other path without a backslash has special characters.

* `Path.IsWildless` — no character of a path has a meaning in globs;
* `Path.IsLiteral` — no character of a path has a meaning, in globs or in patterns;
* `Path.IsPlainGlob` — nothing has a meaning in a path but wildcards and a trailing form.

Main statements:
* `parse?_flatMap_escaped`, `matches_literals_iff` — how the pattern of such a path is read, and
  what it matches;
* `exists_compile_labelPattern` — so its pattern matches the folded path and nothing else;
* `covers_bind_iff` — the entry of a path without wildcards labels this path only;
* `isWildcard_bind_of_literal`, `isWildcard_bind_iff` — which globs and which paths have entries
  with special characters.
-/
import TypeEnforcement.Proofs.Lookup
import TypeEnforcement.Proofs.PathPatterns

namespace TypeEnforcement

/-! ### Characters of paths -/

namespace Path

/-- No character of a path has a meaning in globs. -/
def IsWildless (path : List Char) : Prop :=
  ∀ c ∈ path, c ∉ ['*', '?', '\\']

instance (path : List Char) : Decidable (IsWildless path) :=
  inferInstanceAs (Decidable (∀ c ∈ path, _))

/-- The characters that have a meaning in patterns and stand there as they are in the path. -/
def bareSigns : List Char :=
  ['$', '|', '\x7b']

/-- No character of a path has a meaning, in globs or in patterns. -/
def IsLiteral (path : List Char) : Prop :=
  ∀ c ∈ path, c ∉ ['*', '?', '\\', '$', '|', '\x7b', '\x7d']

instance (path : List Char) : Decidable (IsLiteral path) :=
  inferInstanceAs (Decidable (∀ c ∈ path, _))

/-- Nothing has a meaning in a path but wildcards and a trailing form. -/
structure IsPlainGlob (path : List Char) : Prop where
  plain : ∀ c ∈ path, c ∉ ['\\', '$', '|']
  braces : ∀ c ∈ (splitTrailing path).1, c ∉ ['\x7b', '\x7d']

instance (path : List Char) : Decidable (IsPlainGlob path) :=
  decidable_of_iff (_ ∧ _) ⟨fun ⟨plain, braces⟩ => { plain, braces }, fun h => ⟨h.1, h.2⟩⟩

/-- A character as it stands in a pattern. -/
def escaped (c : Char) : List Char :=
  if c ∈ specials then ['\\', c] else [c]

variable {path : List Char}

/-- A path has a wildcard if it has a trailing form. -/
theorem exists_isWild_of_trailing {t : Trailing} (h : (splitTrailing path).2 = some t) :
    ∃ c ∈ path, isWild c = true := by
  have hsplit := splitTrailing_append path
  rw [h] at hsplit
  refine ⟨'*', ?_, rfl⟩
  rw [hsplit]
  refine List.mem_append_right _ ?_
  cases t <;> decide

/-- A path without a trailing form is all in front of it. -/
theorem splitTrailing_of_none (h : (splitTrailing path).2 = none) :
    splitTrailing path = (path, none) := by
  have hsplit := splitTrailing_append path
  rw [h, Option.map_none, Option.getD_none, List.append_nil] at hsplit
  exact Prod.ext hsplit.symm h

theorem splitTrailing_of_not_wild (h : ∀ c ∈ path, isWild c = false) :
    splitTrailing path = (path, none) := by
  refine splitTrailing_of_none ?_
  cases hform : (splitTrailing path).2 with
  | none => rfl
  | some t =>
    obtain ⟨c, hc, hwild⟩ := exists_isWild_of_trailing hform
    rw [h c hc] at hwild
    cases hwild

theorem IsWildless.not_wild (h : IsWildless path) : ∀ c ∈ path, isWild c = false := by
  intro c hc
  have hmem := h c hc
  simp only [List.mem_cons, not_or] at hmem
  simp [isWild, hmem]

theorem IsLiteral.isWildless (h : IsLiteral path) : IsWildless path := by
  intro c hc
  have hmem := h c hc
  simp only [List.mem_cons, List.not_mem_nil, or_false, not_or] at hmem ⊢
  exact ⟨hmem.1, hmem.2.1, hmem.2.2.1⟩

theorem IsLiteral.not_mem_bareSigns (h : IsLiteral path) : ∀ c ∈ path, c ∉ bareSigns := by
  intro c hc
  have hmem := h c hc
  simp only [bareSigns, List.mem_cons, List.not_mem_nil, or_false, not_or] at hmem ⊢
  exact ⟨hmem.2.2.2.1, hmem.2.2.2.2.1, hmem.2.2.2.2.2.1⟩

theorem IsLiteral.not_wild (h : IsLiteral path) : ∀ c ∈ path, isWild c = false :=
  h.isWildless.not_wild

/-- A plain path without wildcards is literal. -/
theorem IsPlainGlob.isLiteral (h : IsPlainGlob path) (hwild : ∀ c ∈ path, isWild c = false) :
    IsLiteral path := by
  intro c hc
  have hplain := h.plain c hc
  have hbraces := h.braces c (by rwa [splitTrailing_of_not_wild hwild])
  have hwild := hwild c hc
  simp only [isWild, Bool.or_eq_false_iff, beq_eq_false_iff_ne] at hwild
  simp only [List.mem_cons, List.not_mem_nil, or_false, not_or] at hplain hbraces ⊢
  exact ⟨hwild.1, hwild.2, hplain.1, hplain.2.1, hplain.2.2, hbraces.1, hbraces.2⟩

/-! ### Folded paths -/

/-- Linked trees have plain names. -/
theorem isLiteral_of_mem_links : ∀ link ∈ links,
    IsLiteral (link.source.toList ++ link.target.toList) := by
  decide +kernel

/-- Folding changes nothing about the characters that have a meaning. -/
theorem mem_fold_iff_of_not_plain {c : Char}
    (hc : c ∈ ['*', '?', '\\', '$', '|', '\x7b', '\x7d']) (path : List Char) :
    c ∈ fold path ↔ c ∈ path :=
  mem_fold_iff_of_links (fun link hlink hmem => isLiteral_of_mem_links link hlink c hmem hc) path

theorem exists_isWild_fold_iff (path : List Char) :
    (∃ c ∈ fold path, isWild c = true) ↔ ∃ c ∈ path, isWild c = true := by
  refine exists_congr fun c => and_congr_left fun hwild => mem_fold_iff_of_not_plain ?_ path
  simp only [isWild, Bool.or_eq_true, beq_iff_eq] at hwild
  rcases hwild with rfl | rfl <;> decide

theorem IsLiteral.fold (h : IsLiteral path) : IsLiteral (fold path) :=
  fun c hmem hc => h c ((mem_fold_iff_of_not_plain hc path).1 hmem) hc

/-! ### Patterns of paths -/

/-- A character that is no wildcard stands in the pattern as it is, or escaped. -/
theorem patternBody_cons {c : Char} (hwild : isWild c = false) (hc : c ≠ '\\') (rest : List Char) :
    patternBody false (c :: rest) = escaped c ++ patternBody false rest := by
  simp only [isWild, Bool.or_eq_false_iff, beq_eq_false_iff_ne] at hwild
  have hback : (c == '\\' && !false) = false := by simp [hc]
  rw [patternBody, hback, escaped]
  · split <;> rfl
  · exact fun _ => hwild.2
  · exact fun _ _ heq => absurd heq hwild.1
  · exact fun _ => hwild.1

/-- The pattern of a path in which nothing has a meaning in globs is the path with some characters
escaped. -/
theorem toPattern_of_isWildless (h : IsWildless path) : toPattern path = path.flatMap escaped := by
  have hbody : patternBody false path = path.flatMap escaped := by
    induction path with
    | nil => rfl
    | cons c rest ih =>
      have hwild : isWild c = false := h.not_wild c List.mem_cons_self
      have hback : c ≠ '\\' := fun heq => h c List.mem_cons_self (by simp [heq])
      rw [patternBody_cons hwild hback, ih (List.forall_mem_cons.1 h).2, List.flatMap_cons]
  rw [toPattern, splitTrailing_of_not_wild h.not_wild]
  exact hbody

/-- The pattern of a path without wildcards is the folded path with some characters escaped. -/
theorem labelPattern_of_isLiteral (h : IsLiteral path) :
    labelPattern path = (Path.fold path).flatMap escaped :=
  toPattern_of_isWildless h.fold.isWildless

/-! ### Special characters of patterns -/

theorem fixedStart_cons {c : Char} (hc : c ≠ '\\') (rest : List Char) :
    fixedStart (c :: rest) = if c ∈ metacharacters then [] else c :: fixedStart rest := by
  rw [fixedStart]
  · exact fun _ _ heq => absurd heq hc
  · exact fun heq => absurd heq hc

/-- A character without a meaning in globs has none in patterns either, escaped where it needs it.
-/
theorem fixedStart_escaped_append {c : Char}
    (hc : c ∉ ['*', '?', '\\', '$', '|', '\x7b', '\x7d']) (rest : List Char) :
    fixedStart (escaped c ++ rest) = escaped c ++ fixedStart rest := by
  simp only [List.mem_cons, List.not_mem_nil, or_false, not_or] at hc
  unfold escaped
  split
  · rfl
  · rename_i hspecial
    have hmeta : c ∉ metacharacters := by
      simp only [specials, metacharacters, List.mem_cons, List.not_mem_nil, or_false,
        not_or] at hspecial ⊢
      tauto
    rw [List.singleton_append, fixedStart_cons hc.2.2.1, if_neg hmeta, List.singleton_append]

/-- The pattern of a path without wildcards has no special characters. -/
theorem fixedStart_flatMap_escaped (h : IsLiteral path) :
    fixedStart (path.flatMap escaped) = path.flatMap escaped := by
  induction path with
  | nil => rfl
  | cons c rest ih =>
    obtain ⟨hc, hrest⟩ := List.forall_mem_cons.1 h
    rw [List.flatMap_cons, fixedStart_escaped_append hc, ih hrest]

/-- A wildcard of a path, or a special character of what is put behind the path, is one in the
pattern. -/
theorem length_fixedStart_patternBody_lt {escaped : Bool} {text tail : List Char}
    (hescaped : escaped = false) (hplain : '\\' ∉ text)
    (h : (∃ c ∈ text, isWild c = true) ∨ (fixedStart tail).length < tail.length) :
    (fixedStart (patternBody escaped text ++ tail)).length <
      (patternBody escaped text ++ tail).length := by
  -- Wildcards are translated to special characters; a character that stays as it is leaves the
  -- question to the rest of the text.
  have hrest {c : Char} {rest : List Char} (hwild : isWild c = false)
      (h : (∃ d ∈ c :: rest, isWild d = true) ∨ (fixedStart tail).length < tail.length) :
      (∃ d ∈ rest, isWild d = true) ∨ (fixedStart tail).length < tail.length := by
    simpa [hwild] using h
  fun_induction patternBody escaped text with
  | case1 => simpa using h
  | case2 => exact Nat.zero_lt_succ _
  | case3 => exact Nat.zero_lt_succ _
  | case4 => exact Nat.zero_lt_succ _
  | case5 escaped c rest hquestion _ hstar hspecial ih =>
    have hwild : isWild c = false := by simpa [isWild] using ⟨hstar hescaped, hquestion hescaped⟩
    have hlt := ih rfl (fun hmem => hplain (List.mem_cons_of_mem c hmem)) (hrest hwild h)
    simpa [fixedStart] using hlt
  | case6 escaped c rest hquestion _ hstar hspecial ih =>
    have hwild : isWild c = false := by simpa [isWild] using ⟨hstar hescaped, hquestion hescaped⟩
    have hc : c ≠ '\\' := fun heq => hplain (heq ▸ List.mem_cons_self)
    rw [List.cons_append, fixedStart_cons hc]
    split
    · exact Nat.zero_lt_succ _
    · have hlt := ih (by simp [hc]) (fun hmem => hplain (List.mem_cons_of_mem c hmem))
        (hrest hwild h)
      exact Nat.succ_lt_succ hlt

/-- The pattern of a glob has special characters if the glob has wildcards. -/
theorem length_fixedStart_toPattern_lt (hplain : '\\' ∉ path)
    (hwild : ∃ c ∈ path, isWild c = true) :
    (fixedStart (toPattern path)).length < (toPattern path).length := by
  obtain ⟨body, form, rfl, hpattern⟩ := exists_toPattern path
  rw [hpattern]
  refine length_fixedStart_patternBody_lt rfl
    (fun hbody => hplain (List.mem_append_left _ hbody)) ?_
  cases form with
  | none =>
    rw [Option.map_none, Option.getD_none, List.append_nil] at hwild
    exact .inl hwild
  | some t => exact .inr (by cases t <;> decide)

end Path

/-! ### Reading the pattern of a literal path -/

namespace Token

/-- A character of a path is one token, escaped or not, if it has no meaning. -/
theorem readAll_escaped_append {c : Char} (hwild : c ∉ ['*', '?', '\\'])
    (hbare : c ∉ Path.bareSigns) (rest : List Char) :
    readAll (Path.escaped c ++ rest) = (readAll rest).map (.literal c :: ·) := by
  unfold Path.escaped
  split
  · rename_i hspecial
    have hread : read '\\' (c :: rest) = some (.literal c, rest) := by
      simp only [Path.specials, List.mem_cons, List.not_mem_nil, or_false] at hspecial
      rcases hspecial with rfl | rfl | rfl | rfl | rfl | rfl | rfl <;> rfl
    exact readAll_cons hread (Nat.le_succ _)
  · rename_i hspecial
    have hread : read c rest = some (.literal c, rest) := by
      simp only [Path.specials, Path.bareSigns, List.mem_cons, List.not_mem_nil, or_false,
        not_or] at hspecial hwild hbare
      unfold read
      split <;> simp_all
    exact readAll_cons hread (Nat.le_refl _)

theorem readAll_flatMap_escaped {path : List Char} (h : Path.IsWildless path)
    (hbare : ∀ c ∈ path, c ∉ Path.bareSigns) :
    readAll (path.flatMap Path.escaped) = some (path.map .literal) := by
  induction path with
  | nil =>
    rw [List.flatMap_nil, readAll]
    rfl
  | cons c rest ih =>
    obtain ⟨hc, hrest⟩ := List.forall_mem_cons.1 h
    obtain ⟨hcbare, hbare⟩ := List.forall_mem_cons.1 hbare
    rw [List.flatMap_cons, readAll_escaped_append hc hcbare, ih hrest hbare]
    rfl

end Token

/-- Characters are added to the innermost group one after another. -/
theorem Builder.exists_run_literals (chars : List Char) (parts : List Pattern)
    (repeatable : Bool) : ∃ later,
      run ⟨{ parts, repeatable }, []⟩ (chars.map .literal) =
        some ⟨{ parts := (chars.map Pattern.literal).reverse ++ parts,
                repeatable := later }, []⟩ := by
  induction chars generalizing parts repeatable with
  | nil => exact ⟨repeatable, rfl⟩
  | cons c rest ih =>
    obtain ⟨later, hrun⟩ := ih (.literal c :: parts) true
    refine ⟨later, ?_⟩
    rw [List.map_cons, List.map_cons, List.reverse_cons, List.append_assoc]
    exact hrun

namespace Pattern

/-- The pattern of a path without wildcards is read as the sequence of its characters. -/
theorem parse?_flatMap_escaped {path : List Char} (h : Path.IsWildless path)
    (hbare : ∀ c ∈ path, c ∉ Path.bareSigns) :
    parse? (path.flatMap Path.escaped) = some (seqAll (path.map literal)) := by
  obtain ⟨later, hrun⟩ := Builder.exists_run_literals path [] false
  rw [List.append_nil] at hrun
  rw [parse?, Token.readAll_flatMap_escaped h hbare]
  show (Builder.run {} _).bind _ = _
  rw [hrun]
  show some (seqAll (path.map literal).reverse.reverse) = _
  rw [List.reverse_reverse]

theorem matches_literal_iff {c : Char} {before after : Option Char} {w : List Char} :
    Matches (literal c) before w after ↔ w = [c] := by
  constructor
  · intro h
    cases h with
    | set hmem => rw [CharSet.mem_single.1 hmem]
  · rintro rfl
    exact .set (CharSet.mem_single.2 rfl)

/-- A sequence of characters matches itself only. -/
theorem matches_literals_iff {chars w : List Char} {before after : Option Char} :
    Matches (seqAll (chars.map literal)) before w after ↔ w = chars := by
  induction chars generalizing before w after with
  | nil =>
    constructor
    · intro h
      cases h
      rfl
    · rintro rfl
      exact .empty
  | cons c rest ih =>
    cases rest with
    | nil => exact matches_literal_iff
    | cons d rest =>
      constructor
      · intro h
        cases h with
        | seq hc hrest => rw [matches_literal_iff.1 hc, ih.1 hrest, List.singleton_append]
      · rintro rfl
        exact .seq (u := [c]) (matches_literal_iff.2 rfl) (ih.2 rfl)

/-- The pattern of a path without wildcards can be read, and it matches the folded path only. -/
theorem exists_compile_labelPattern {path : List Char} (h : Path.IsLiteral path) :
    ∃ p, compile (String.ofList (Path.labelPattern path)) = some p ∧
      ∀ text, p.search text = true ↔ text = Path.fold path := by
  refine ⟨(seqAll ((Path.fold path).map literal)).anchored, compile_of_parse ?_, fun text =>
    search_anchored.trans matches_literals_iff⟩
  rw [String.toList_ofList, Path.labelPattern_of_isLiteral h]
  exact parse?_flatMap_escaped h.fold.isWildless h.fold.not_mem_bareSigns

end Pattern

/-! ### Entries -/

namespace FileContext

variable {path : List Char} {fileClass : FileClass} {label : Label}

/-- The entry of a glob has special characters in its pattern just if the glob has wildcards, for
globs that are literal without them. -/
theorem isWildcard_bind_of_literal {glob : List Char} (hplain : '\\' ∉ glob)
    (hliteral : (∀ c ∈ glob, Path.isWild c = false) → Path.IsLiteral glob) :
    (bind (String.ofList (Path.toPattern glob)) fileClass label).isWildcard = true ↔
      ∃ c ∈ glob, Path.isWild c = true := by
  have hstart : (bind (String.ofList (Path.toPattern glob)) fileClass label).isWildcard = true ↔
      (Path.fixedStart (Path.toPattern glob)).length ≠ (Path.toPattern glob).length := by
    simp [isWildcard, literalStart, bind]
  rw [hstart]
  constructor
  · intro hne
    by_contra hwild
    have hliteral : Path.IsLiteral glob := hliteral (by simpa using hwild)
    refine hne ?_
    rw [Path.toPattern_of_isWildless hliteral.isWildless, Path.fixedStart_flatMap_escaped hliteral]
  · exact fun hwild => Nat.ne_of_lt (Path.length_fixedStart_toPattern_lt hplain hwild)

/-- The entry of a plain glob, not folded, has special characters in its pattern just if the glob
has wildcards. -/
theorem isWildcard_bind_toPattern_iff (h : Path.IsPlainGlob path) :
    (bind (String.ofList (Path.toPattern path)) fileClass label).isWildcard = true ↔
      ∃ c ∈ path, Path.isWild c = true :=
  isWildcard_bind_of_literal (fun hmem => h.plain _ hmem (by decide)) h.isLiteral

/-- The entry of a path has special characters in its pattern just if the path has wildcards, for
paths in which nothing else has a meaning. -/
theorem isWildcard_bind_iff (h : Path.IsPlainGlob path) :
    (bind (String.ofList (Path.labelPattern path)) fileClass label).isWildcard = true ↔
      ∃ c ∈ path, Path.isWild c = true := by
  have hplain : '\\' ∉ path := fun hmem => h.plain _ hmem (by decide)
  rw [Path.labelPattern, isWildcard_bind_of_literal
    (by rwa [Path.mem_fold_iff_of_not_plain (by decide)]), Path.exists_isWild_fold_iff]
  intro hwild
  refine (h.isLiteral fun c hc => Bool.eq_false_iff.2 fun hw => ?_).fold
  obtain ⟨d, hd, hdwild⟩ := (Path.exists_isWild_fold_iff path).2 ⟨c, hc, hw⟩
  rw [hwild d hd] at hdwild
  cases hdwild

/-- The entry of a path without wildcards labels this path only. -/
theorem covers_bind_iff (h : Path.IsLiteral path) (hlabel : label ≠ {}) {other : String}
    {otherClass : FileClass} :
    (bind (String.ofList (Path.labelPattern path)) fileClass label).covers other otherClass = true ↔
      fileClass.Compatible otherClass ∧ other.toList = Path.fold path := by
  obtain ⟨p, hcompile, hsearch⟩ := Pattern.exists_compile_labelPattern h
  have hvalid : (bind (String.ofList (Path.labelPattern path)) fileClass label).valid = true := by
    simp [bind, hcompile, hlabel]
  rw [covers_iff_search, and_iff_right hvalid, ← hsearch]
  refine and_congr_right fun _ => ?_
  constructor
  · rintro ⟨found, hfound, htext⟩
    obtain rfl := Option.some.inj (hcompile.symm.trans hfound)
    exact htext
  · exact fun htext => ⟨p, hcompile, htext⟩

end FileContext

end TypeEnforcement
