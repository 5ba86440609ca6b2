/-
What globs stand for.

A glob is read from left to right.  Two stars stand for any text in one line, a star by itself for
any text without slashes, a question mark for one character other than a slash, and every other
character for itself.  A trailing form stands for what is below the directory before it, and for the
directory itself if it covers that.  The pattern of a glob is the same language, written down: it
can be read, and it matches the texts that the glob stands for.

* `Path.Part`, `Path.parts` — the parts of the body of a glob;
* `Path.language` — the texts that a body with a trailing form stands for;
* `Path.IsPlainBody` — nothing but wildcards has a meaning in a body;
* `Pattern.Means` — a pattern matches the texts of a language, whatever stands around them.

Main statements:
* `toPattern_append` — the pattern of a glob is made of those of its body and its form;
* `readAll_patternBody`, `exists_run_tokens` — how it is read, part by part;
* `exists_parse?_toPattern` — what is read means the language of the glob;
* `search_globPattern_iff` — so the entry of a glob is for the texts that the glob stands for.
-/
import Mathlib.Computability.Language
import TypeEnforcement.Proofs.LiteralPaths

namespace TypeEnforcement

/-! ### The language of a glob -/

namespace Path

/-- A part of the body of a glob. -/
inductive Part where
  /-- Two stars. -/
  | inLine
  /-- A star. -/
  | inComponent
  /-- A question mark. -/
  | one
  | literal (c : Char)
deriving DecidableEq

/-- The texts that a part stands for. -/
def Part.language : Part → Language Char
  | inLine => {text | '\n' ∉ text}
  | inComponent => {text | '/' ∉ text}
  | one => {text | ∃ c, c ≠ '/' ∧ text = [c]}
  | literal c => {[c]}

/-- The parts of the body of a glob; of more than two stars the first two belong together. -/
def parts : List Char → List Part
  | [] => []
  | '*' :: '*' :: rest => .inLine :: parts rest
  | '*' :: rest => .inComponent :: parts rest
  | '?' :: rest => .one :: parts rest
  | c :: rest => .literal c :: parts rest

namespace Trailing

/-- What a form allows below the directory before it. -/
def below : Trailing → Part
  | selfAndTree | tree => .inLine
  | selfAndChildren | children => .inComponent

/-- The texts that a form stands for. -/
def language (t : Trailing) : Language Char :=
  let inside := Part.language (.literal '/') * t.below.language
  if t.coversSelf then inside + 1 else inside

end Trailing

/-- The texts that a glob stands for, given by its body and its trailing form, if it has one. -/
def language (body : List Char) (form : Option Trailing) : Language Char :=
  ((parts body).map Part.language).prod * (form.map Trailing.language).getD 1

/-- Nothing but wildcards has a meaning in the body of a glob. -/
def IsPlainBody (body : List Char) : Prop :=
  ∀ c ∈ body, c ∉ ['\\', '\x7b', '\x7d', '|', '$']

instance (body : List Char) : Decidable (IsPlainBody body) :=
  inferInstanceAs (Decidable (∀ c ∈ body, _))

variable {body : List Char}

theorem IsPlainBody.not_mem_backslash (h : IsPlainBody body) : '\\' ∉ body :=
  fun hmem => h _ hmem (by decide)

theorem append_slash_ne_star {front : List Char} (h : ∀ other, front ≠ '*' :: other)
    (rest other : List Char) : front ++ '/' :: rest ≠ '*' :: other := by
  cases front with
  | nil => simp
  | cons d front => simpa using fun heq => absurd (congrArg (· :: front) heq) (h front)

/-- A slash ends the stars before it. -/
theorem parts_append_slash (front rest : List Char) :
    parts (front ++ '/' :: rest) = parts front ++ parts ('/' :: rest) := by
  fun_induction parts front with
  | case1 => rfl
  | case2 front ih => exact congrArg (Part.inLine :: ·) ih
  | case3 front hstar ih =>
    rw [List.cons_append, parts, ih, List.cons_append]
    exact append_slash_ne_star hstar rest
  | case4 front ih => exact congrArg (Part.one :: ·) ih
  | case5 c front hstars hstar hquestion ih =>
    rw [List.cons_append, parts, ih, List.cons_append]
    · exact fun _ heq => absurd heq hstar
    · exact hstar
    · exact hquestion

/-- A form that does not cover the directory itself stands for what its characters stand for. -/
theorem language_append_glob {t : Trailing} (ht : t.coversSelf = false) (body : List Char) :
    language (body ++ t.glob) none = language body (some t) := by
  have hglob : ∃ stars, t.glob = '/' :: stars ∧
      ((parts ('/' :: stars)).map Part.language).prod = t.language := by
    cases t with
    | selfAndTree => cases ht
    | selfAndChildren => cases ht
    | tree =>
      exact ⟨_, rfl, by simp [parts, Trailing.language, Trailing.coversSelf, Trailing.below]⟩
    | children =>
      exact ⟨_, rfl, by simp [parts, Trailing.language, Trailing.coversSelf, Trailing.below]⟩
  obtain ⟨stars, hstars, hform⟩ := hglob
  simp only [language, hstars, parts_append_slash, List.map_append, List.prod_append, hform,
    Option.map_none, Option.getD_none, mul_one, Option.map_some, Option.getD_some]

/-! ### The pattern of a glob -/

theorem patternBody_star {rest : List Char} (h : ∀ other, rest ≠ '*' :: other) :
    patternBody false ('*' :: rest) = "[^/]*".toList ++ patternBody false rest := by
  rw [patternBody]
  · rfl
  · exact h

theorem patternBody_append_slash {front : List Char} (h : '\\' ∉ front) (rest : List Char) :
    patternBody false (front ++ '/' :: rest) =
      patternBody false front ++ patternBody false ('/' :: rest) := by
  fun_induction parts front with
  | case1 => rfl
  | case2 front ih =>
    simp only [List.mem_cons, not_or] at h
    exact congrArg ('.' :: '*' :: ·) (ih h.2.2)
  | case3 front hstar ih =>
    -- A star at the end of the front stays a single one, as a slash comes after it.
    rw [List.cons_append, patternBody_star (append_slash_ne_star hstar rest),
      patternBody_star hstar, List.append_assoc,
      ih fun hmem => h (List.mem_cons_of_mem _ hmem)]
  | case4 front ih =>
    have hrest := ih fun hmem => h (List.mem_cons_of_mem _ hmem)
    exact congrArg ('[' :: '^' :: '/' :: ']' :: ·) hrest
  | case5 c front hstars hstar hquestion ih =>
    have hwild : isWild c = false := by simpa [isWild] using ⟨hstar, hquestion⟩
    simp only [List.mem_cons, not_or] at h
    rw [List.cons_append, patternBody_cons hwild (Ne.symm h.1),
      patternBody_cons hwild (Ne.symm h.1), ih h.2, List.append_assoc]

theorem splitTrailing_append_glob {t : Trailing} (ht : t.coversSelf = true) (body : List Char) :
    splitTrailing (body ++ t.glob) = (body, some t) := by
  have hself : Text.dropEnd? t.glob (body ++ t.glob) = some body :=
    Text.dropEnd?_eq_some_iff.2 rfl
  cases t with
  | selfAndTree => simp only [splitTrailing, Trailing.all, List.findSome?, hself, Option.map_some]
  | selfAndChildren =>
    -- The longer form, which is tried first, has a star where this one has its slash.
    have htree : Text.dropEnd? Trailing.selfAndTree.glob
        (body ++ Trailing.selfAndChildren.glob) = none := by
      rw [Option.eq_none_iff_forall_ne_some]
      intro front hfront
      have hends := congrArg List.reverse (Text.dropEnd?_eq_some_iff.1 hfront)
      simp [Trailing.glob] at hends
    simp only [splitTrailing, Trailing.all, List.findSome?, htree, hself, Option.map_none,
      Option.map_some]
  | tree => cases ht
  | children => cases ht

/-- Without braces there is no form that has braces; the others have the pattern of their
characters. -/
theorem toPattern_of_isPlainBody (h : IsPlainBody body) :
    toPattern body = patternBody false body := by
  obtain ⟨front, form, rfl, hpattern⟩ := exists_toPattern body
  rw [hpattern]
  have hback : '\\' ∉ front := fun hmem =>
    h.not_mem_backslash (List.mem_append_left _ hmem)
  have hbrace : '\x7b' ∉ (form.map Trailing.glob).getD [] := fun hmem =>
    h _ (List.mem_append_right _ hmem) (by decide)
  -- The two forms without braces are read as the characters that they consist of.
  cases form with
  | none => simp
  | some t =>
    cases t with
    | selfAndTree => exact absurd List.mem_cons_self hbrace
    | selfAndChildren => exact absurd List.mem_cons_self hbrace
    | tree => exact (patternBody_append_slash hback ['*', '*']).symm
    | children => exact (patternBody_append_slash hback ['*']).symm

/-- The pattern of a glob is that of its body, and that of the form behind it. -/
theorem toPattern_append (h : IsPlainBody body) {form : Option Trailing}
    (hform : ∀ t ∈ form, t.coversSelf = true) :
    toPattern (body ++ (form.map Trailing.glob).getD []) =
      patternBody false body ++ (form.map Trailing.regex).getD [] := by
  cases form with
  | none => simpa using toPattern_of_isPlainBody h
  | some t =>
    rw [toPattern, Option.map_some, Option.getD_some, splitTrailing_append_glob (hform t rfl)]
    rfl

/-! ### Reading the pattern of a glob -/

/-- The characters that a component of a path may have. -/
def componentChars : CharSet :=
  .compl (.union .empty (.single '/'))

theorem mem_componentChars {c : Char} : componentChars.mem c = true ↔ c ≠ '/' := by
  rw [componentChars, CharSet.mem_compl, CharSet.mem_union, Bool.not_eq_true', ← Bool.not_eq_true,
    Bool.or_eq_true, CharSet.mem_single]
  simp [CharSet.mem]

namespace Part

/-- The tokens that the pattern of a glob has for a part. -/
def tokens : Part → List Token
  | inLine => [.dot, .repetition 0 none]
  | inComponent => [.set componentChars, .repetition 0 none]
  | one => [.set componentChars]
  | literal c => [.literal c]

def pattern : Part → Pattern
  | inLine => .star .anyInLine
  | inComponent => .star (.set componentChars)
  | one => .set componentChars
  | literal c => .literal c

end Part

namespace Trailing

/-- The tokens that the pattern of a glob has for a form that covers the directory itself. -/
def tokens (t : Trailing) : List Token :=
  .openGroup {} :: .literal '/' :: t.below.tokens ++ [.closeGroup, .repetition 0 (some 1)]

def pattern (t : Trailing) : Pattern :=
  .optional (.seq (.seq (.literal '/') t.below.pattern) .empty)

theorem readAll_regex {t : Trailing} (ht : t.coversSelf = true) :
    Token.readAll t.regex = some t.tokens := by
  cases t with
  | selfAndTree => decide +kernel
  | selfAndChildren => decide +kernel
  | tree => cases ht
  | children => cases ht

end Trailing

/-- No question mark in the pattern of a glob stands where it would ask for a short match. -/
theorem skipLazyMark_patternBody {tail : List Char} (h : '\\' ∉ body)
    (htail : tail.head? ≠ some '?') :
    Token.skipLazyMark (patternBody false body ++ tail) = patternBody false body ++ tail := by
  have hhead : (patternBody false body ++ tail).head? ≠ some '?' := by
    fun_cases parts body with
    | case1 => exact htail
    | case2 rest => simp [patternBody]
    | case3 rest hstar => simp [patternBody_star hstar]
    | case4 rest => simp [patternBody]
    | case5 c rest _ hstar hquestion =>
      have hwild : isWild c = false := by simpa [isWild] using ⟨hstar, hquestion⟩
      simp only [List.mem_cons, not_or] at h
      rw [patternBody_cons hwild (Ne.symm h.1), escaped]
      split
      · simp
      · simpa using hquestion
  unfold Token.skipLazyMark
  split
  · rename_i rest heq
    rw [heq] at hhead
    exact absurd rfl hhead
  · rfl

theorem readAll_star {text : List Char} (h : Token.skipLazyMark text = text) :
    Token.readAll ('*' :: text) = (Token.readAll text).map (.repetition 0 none :: ·) := by
  refine Token.readAll_cons ?_ (Nat.le_refl _)
  show some (Token.repetition 0 none, Token.skipLazyMark text) = _
  rw [h]

theorem readAll_component (text : List Char) :
    Token.readAll ("[^/]".toList ++ text) =
      (Token.readAll text).map (.set componentChars :: ·) :=
  Token.readAll_cons rfl (Nat.le_add_right text.length 3)

/-- The pattern of a body is read part by part. -/
theorem readAll_patternBody {tail : List Char} (h : IsPlainBody body)
    (htail : tail.head? ≠ some '?') :
    Token.readAll (patternBody false body ++ tail) =
      (Token.readAll tail).map ((parts body).flatMap Part.tokens ++ ·) := by
  fun_induction parts body with
  | case1 => simp [patternBody]
  | case2 rest ih =>
    have hrest : IsPlainBody rest := (List.forall_mem_cons.1 (List.forall_mem_cons.1 h).2).2
    have hskip := skipLazyMark_patternBody hrest.not_mem_backslash htail
    have hdot (text : List Char) : Token.readAll ('.' :: text) =
        (Token.readAll text).map (.dot :: ·) :=
      Token.readAll_cons rfl (Nat.le_refl _)
    rw [patternBody, List.cons_append, List.cons_append, hdot, readAll_star hskip, ih hrest]
    simp [Part.tokens, Function.comp_def]
  | case3 rest hstar ih =>
    have hrest : IsPlainBody rest := (List.forall_mem_cons.1 h).2
    have hskip := skipLazyMark_patternBody hrest.not_mem_backslash htail
    have htext : "[^/]*".toList = "[^/]".toList ++ ['*'] := rfl
    rw [patternBody_star hstar, htext, List.append_assoc, List.append_assoc, readAll_component,
      List.singleton_append, readAll_star hskip, ih hrest]
    simp [Part.tokens, Function.comp_def]
  | case4 rest ih =>
    have hrest : IsPlainBody rest := (List.forall_mem_cons.1 h).2
    have hbody : patternBody false ('?' :: rest) = "[^/]".toList ++ patternBody false rest := rfl
    rw [hbody, List.append_assoc, readAll_component, ih hrest]
    simp [Part.tokens, Function.comp_def]
  | case5 c rest _ hstar hquestion ih =>
    have hback : c ≠ '\\' := fun heq => h.not_mem_backslash (heq ▸ List.mem_cons_self)
    obtain ⟨hc, hrest⟩ := List.forall_mem_cons.1 h
    have hwild : isWild c = false := by simpa [isWild] using ⟨hstar, hquestion⟩
    have hplain : c ∉ ['*', '?', '\\'] := by
      simp only [List.mem_cons, List.not_mem_nil, or_false, not_or]
      exact ⟨hstar, hquestion, hback⟩
    have hbare : c ∉ bareSigns := by
      simp only [bareSigns, List.mem_cons, List.not_mem_nil, or_false, not_or] at hc ⊢
      exact ⟨hc.2.2.2.2, hc.2.2.2.1, hc.2.1⟩
    rw [patternBody_cons hwild hback, List.append_assoc,
      Token.readAll_escaped_append hplain hbare, ih hrest]
    simp [Part.tokens, Function.comp_def]

/-- The parts of a body join the innermost group one after another. -/
theorem exists_run_tokens (items : List Part) (patterns : List Pattern) (repeatable : Bool) :
    ∃ later, Builder.run ⟨{ parts := patterns, repeatable }, []⟩ (items.flatMap Part.tokens) =
      some ⟨{ parts := (items.map Part.pattern).reverse ++ patterns, repeatable := later },
        []⟩ := by
  induction items generalizing patterns repeatable with
  | nil => exact ⟨repeatable, rfl⟩
  | cons item rest ih =>
    obtain ⟨later, hrun⟩ := ih (item.pattern :: patterns) true
    refine ⟨later, ?_⟩
    have hitem : Builder.run ⟨{ parts := patterns, repeatable }, []⟩ item.tokens =
        some ⟨{ parts := item.pattern :: patterns, repeatable := true }, []⟩ := by
      cases item <;> rfl
    rw [List.flatMap_cons, Builder.run_append, hitem, List.map_cons, List.reverse_cons,
      List.append_assoc]
    exact hrun

/-- The pattern of a glob is read as the sequence of its parts and its form. -/
theorem parse?_toPattern (h : IsPlainBody body) {form : Option Trailing}
    (hform : ∀ t ∈ form, t.coversSelf = true) :
    Pattern.parse? (toPattern (body ++ (form.map Trailing.glob).getD [])) =
      some (.seqAll ((parts body).map Part.pattern ++ (form.map Trailing.pattern).toList)) := by
  obtain ⟨later, hrun⟩ := exists_run_tokens (parts body) [] false
  rw [List.append_nil] at hrun
  rw [toPattern_append h hform]
  cases form with
  | none =>
    have hread : Token.readAll (patternBody false body ++ []) =
        some ((parts body).flatMap Part.tokens) := by
      rw [readAll_patternBody h (by simp), Token.readAll]
      simp
    rw [Option.map_none, Option.map_none, Option.getD_none, Pattern.parse?, hread]
    show (Builder.run {} _).bind _ = _
    rw [hrun]
    show some (Pattern.seqAll ((parts body).map Part.pattern).reverse.reverse) = _
    rw [List.reverse_reverse, Option.toList_none, List.append_nil]
  | some t =>
    have hhead : t.regex.head? ≠ some '?' := by
      cases t <;> decide
    have hread : Token.readAll (patternBody false body ++ t.regex) =
        some ((parts body).flatMap Part.tokens ++ t.tokens) := by
      rw [readAll_patternBody h hhead, Trailing.readAll_regex (hform t rfl), Option.map_some]
    have hlast : Builder.run {} ((parts body).flatMap Part.tokens ++ t.tokens) =
        some ⟨{ parts := t.pattern :: ((parts body).map Part.pattern).reverse,
                repeatable := true }, []⟩ := by
      rw [Builder.run_append]
      show (Builder.run ⟨{ parts := [], repeatable := false }, []⟩ _).bind _ = _
      rw [hrun]
      cases t <;> rfl
    rw [Option.map_some, Option.map_some, Option.getD_some, Pattern.parse?, hread]
    show (Builder.run {} _).bind _ = _
    rw [hlast]
    show some (Pattern.seqAll (t.pattern :: ((parts body).map Part.pattern).reverse).reverse) = _
    rw [List.reverse_cons, List.reverse_reverse, Option.toList_some]

end Path

/-! ### The languages of patterns -/

namespace Pattern

/-- A pattern matches the texts of a language, whatever stands around them. -/
def Means (p : Pattern) (language : Language Char) : Prop :=
  ∀ before text after, Matches p before text after ↔ text ∈ language

variable {p q : Pattern} {first second : Language Char}

theorem means_empty : Means empty 1 := by
  intro before text after
  rw [Language.mem_one]
  constructor
  · intro h
    cases h
    rfl
  · rintro rfl
    exact .empty

theorem means_set (s : CharSet) :
    Means (set s) {text | ∃ c, s.mem c = true ∧ text = [c]} := by
  intro before text after
  constructor
  · intro h
    cases h with
    | set hmem => exact ⟨_, hmem, rfl⟩
  · rintro ⟨c, hmem, rfl⟩
    exact .set hmem

theorem means_star_set (s : CharSet) :
    Means (star (set s)) {text | ∀ c ∈ text, s.mem c = true} := by
  intro before text after
  constructor
  · intro h
    -- The induction is on the run of the pattern, whose index has to be a variable.
    generalize hp : star (set s) = p at h
    induction h with
    | starNil => exact fun c hc => absurd hc List.not_mem_nil
    | starCons hfirst _ _ ih =>
      cases hp
      obtain ⟨d, hmem, heq⟩ := (means_set s _ _ _).1 hfirst
      rw [heq]
      exact List.forall_mem_cons.2 ⟨hmem, ih rfl⟩
    | _ => cases hp
  · intro h
    induction text generalizing before with
    | nil => exact .starNil
    | cons c rest ih =>
      obtain ⟨hc, hrest⟩ := List.forall_mem_cons.1 h
      exact .starCons (u := []) (.set hc) (ih _ hrest)

theorem Means.seq (hp : p.Means first) (hq : q.Means second) :
    Means (.seq p q) (first * second) := by
  intro before text after
  rw [Language.mem_mul]
  constructor
  · intro h
    cases h with
    | seq hu hv => exact ⟨_, (hp _ _ _).1 hu, _, (hq _ _ _).1 hv, rfl⟩
  · rintro ⟨u, hu, v, hv, rfl⟩
    exact .seq ((hp _ _ _).2 hu) ((hq _ _ _).2 hv)

theorem Means.optional (hp : p.Means first) : Means p.optional (first + 1) := by
  intro before text after
  rw [Language.mem_add]
  constructor
  · intro h
    cases h with
    | altLeft h => exact .inl ((hp _ _ _).1 h)
    | altRight h => exact .inr ((means_empty _ _ _).1 h)
  · rintro (h | h)
    · exact .altLeft ((hp _ _ _).2 h)
    · exact .altRight ((means_empty _ _ _).2 h)

/-- A sequence means the product of what its parts mean. -/
theorem means_seqAll {patterns : List Pattern} {languages : List (Language Char)}
    (h : List.Forall₂ Means patterns languages) : (seqAll patterns).Means languages.prod := by
  induction h with
  | nil => exact means_empty
  | @cons p first rest others hp hrest ih =>
    rw [List.prod_cons]
    cases hrest with
    | nil => rwa [List.prod_nil, mul_one]
    | cons hnext hrest => exact hp.seq ih

end Pattern

/-! ### What the pattern of a glob means -/

namespace Path

open Pattern (Means)

variable {body : List Char}

theorem Part.means_pattern (part : Part) : part.pattern.Means part.language := by
  have hchars {s : CharSet} {d : Char} (hs : ∀ c, s.mem c = true ↔ c ≠ d) (text : List Char) :
      (∀ c ∈ text, s.mem c = true) ↔ d ∉ text := by
    simp only [hs]
    exact ⟨fun h hmem => h _ hmem rfl, fun h c hmem heq => h (heq ▸ hmem)⟩
  intro before text after
  cases part with
  | inLine =>
    exact (Pattern.means_star_set _ _ _ _).trans (hchars (fun _ => CharSet.mem_other) text)
  | inComponent =>
    exact (Pattern.means_star_set _ _ _ _).trans (hchars (fun _ => mem_componentChars) text)
  | one =>
    refine (Pattern.means_set componentChars before text after).trans (exists_congr fun c => ?_)
    rw [mem_componentChars]
  | literal c => exact Pattern.matches_literal_iff

theorem Trailing.means_pattern {t : Trailing} (ht : t.coversSelf = true) :
    t.pattern.Means t.language := by
  have hmeans : t.pattern.Means (Part.language (.literal '/') * t.below.language * 1 + 1) :=
    (((Part.literal '/').means_pattern.seq t.below.means_pattern).seq
      Pattern.means_empty).optional
  rw [mul_one] at hmeans
  rwa [language, if_pos ht]

theorem means_parts_append (body : List Char) {form : Option Trailing}
    (hform : ∀ t ∈ form, t.coversSelf = true) :
    (Pattern.seqAll ((parts body).map Part.pattern ++ (form.map Trailing.pattern).toList)).Means
      (language body form) := by
  have hparts : List.Forall₂ Means ((parts body).map Part.pattern)
      ((parts body).map Part.language) := by
    rw [List.forall₂_map_left_iff, List.forall₂_map_right_iff, List.forall₂_same]
    exact fun part _ => part.means_pattern
  have hlast : List.Forall₂ Means (form.map Trailing.pattern).toList
      (form.map Trailing.language).toList := by
    cases form with
    | none => exact .nil
    | some t => exact .cons (Trailing.means_pattern (hform t rfl)) .nil
  have hprod : ((form.map Trailing.language).toList).prod =
      (form.map Trailing.language).getD 1 := by
    cases form <;> simp
  rw [language, ← hprod, ← List.prod_append]
  exact Pattern.means_seqAll (List.rel_append hparts hlast)

/-- The pattern of a glob can be read, and means what the glob stands for. -/
theorem exists_parse?_toPattern (h : IsPlainBody body) (form : Option Trailing) :
    ∃ p, Pattern.parse? (toPattern (body ++ (form.map Trailing.glob).getD [])) = some p ∧
      p.Means (language body form) := by
  by_cases hform : ∀ t ∈ form, t.coversSelf = true
  · exact ⟨_, parse?_toPattern h hform, means_parts_append body hform⟩
  · -- The form belongs to the body as well.
    obtain ⟨t, rfl, ht⟩ : ∃ t, form = some t ∧ t.coversSelf = false := by simpa using hform
    have hglob : IsPlainBody t.glob := by
      cases t with
      | selfAndTree => cases ht
      | selfAndChildren => cases ht
      | tree => decide
      | children => decide
    have hwhole : IsPlainBody (body ++ t.glob) := List.forall_mem_append.2 ⟨h, hglob⟩
    have hnone : ∀ u ∈ (none : Option Trailing), u.coversSelf = true := by simp
    refine ⟨_, by simpa using parse?_toPattern hwhole hnone, ?_⟩
    rw [← language_append_glob ht]
    simpa using means_parts_append (body ++ t.glob) hnone

/-- The pattern of a glob, held to both ends, can be read, and it is found in the texts that the
glob stands for: the stars, the question marks and the form mean what they mean in a glob, and no
other character has a meaning. -/
theorem search_globPattern_iff (h : IsPlainBody body) (form : Option Trailing) :
    ∃ p, Pattern.compile
        (String.ofList (toPattern (body ++ (form.map Trailing.glob).getD []))) = some p ∧
      ∀ text, p.search text = true ↔ text ∈ language body form := by
  obtain ⟨p, hparse, hmeans⟩ := exists_parse?_toPattern h form
  refine ⟨p.anchored, Pattern.compile_of_parse (by rwa [String.toList_ofList]), fun text => ?_⟩
  exact Pattern.search_anchored.trans (hmeans none text none)

/-- Two stars reach over slashes, a question mark does not, and a full stop is a full stop. -/
theorem starredGlob_search :
    let body := "/a**.b?".toList
    IsPlainBody body ∧
    "/a/1/2.bx".toList ∈ language body (some .selfAndChildren) ∧
    "/a/1/2.bx/y".toList ∈ language body (some .selfAndChildren) ∧
    "/a/1/2.bx/y/z".toList ∉ language body (some .selfAndChildren) ∧
    "/a/1/2.b/".toList ∉ language body (some .selfAndChildren) ∧
    "/a/1/2xbx".toList ∉ language body (some .selfAndChildren) := by
  intro body
  have hplain : IsPlainBody body := by decide
  obtain ⟨p, hp, hsearch⟩ := search_globPattern_iff hplain (some .selfAndChildren)
  have hfound : (Pattern.compile (String.ofList (toPattern
      (body ++ Trailing.selfAndChildren.glob)))).any fun p =>
        p.search "/a/1/2.bx".toList ∧ p.search "/a/1/2.bx/y".toList ∧
        ¬p.search "/a/1/2.bx/y/z".toList ∧ ¬p.search "/a/1/2.b/".toList ∧
        ¬p.search "/a/1/2xbx".toList := by
    decide +kernel
  rw [Option.map_some, Option.getD_some] at hp
  rw [hp, Option.any_some, decide_eq_true_eq] at hfound
  simp only [hsearch] at hfound
  exact ⟨hplain, hfound⟩

end Path

end TypeEnforcement
