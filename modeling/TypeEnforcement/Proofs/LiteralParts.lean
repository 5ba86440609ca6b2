/-
The part of a glob before its first wildcard.

The literal part of a glob comes through its translation: it is what the special characters of the
pattern leave when the backslashes are taken off again.  Every text that the glob stands for begins
with it.  What else such a text begins with is decided where the literal part ends: after a slash,
at the end of the glob, or at a form that covers the directory itself every text lies under the
literal part; anywhere else a text may go on with any other character.

* `Path.literalPart`, `Path.wildPart` — a glob before its first wildcard, and from there on;
* `Path.LiesUnder` — a path is in the tree of a directory;
* `Path.IsRooted` — the literal part ends where a component of the path ends.

Main statements:
* `unescape_fixedStart_toPattern` — the literal part of a glob from its pattern;
* `mem_language_append_iff` — literal characters stand for themselves;
* `liesUnder_of_mem_language`, `exists_cons_mem_language` — what the texts of a glob lie under.
-/
import TypeEnforcement.Proofs.OwnText

namespace TypeEnforcement.Path

/-! ### Literal parts -/

/-- The characters that end the literal part of a glob. -/
def wildStarts : List Char :=
  ['*', '?', '\x7b']

/-- The part of a glob before its first wildcard or its braces. -/
def literalPart (glob : List Char) : List Char :=
  glob.takeWhile (· ∉ wildStarts)

/-- A glob from its first wildcard or its braces on. -/
def wildPart (glob : List Char) : List Char :=
  glob.dropWhile (· ∉ wildStarts)

/-- The literal part ends with a slash, or nothing follows it but a form that covers the directory
itself. -/
def IsRooted (glob : List Char) : Prop :=
  (literalPart glob).getLast? = some '/' ∨
    wildPart glob ∈ [[], Trailing.selfAndTree.glob, Trailing.selfAndChildren.glob]

instance (glob : List Char) : Decidable (IsRooted glob) :=
  inferInstanceAs (Decidable (_ ∨ _))

/-- A path is the given one, or in the directory of the given path. -/
def LiesUnder (path scope : List Char) : Prop :=
  path = scope ∨ scope ++ ['/'] <+: path ∨ scope.getLast? = some '/' ∧ scope <+: path

instance (path scope : List Char) : Decidable (LiesUnder path scope) :=
  inferInstanceAs (Decidable (_ ∨ _ ∨ _ ∧ _))

variable {body front more rest tail text path scope : List Char} {c w : Char}
  {form : Option Trailing} {t : Trailing}

theorem not_mem_wildStarts (hplain : c ≠ '\x7b') (hwild : isWild c = false) : c ∉ wildStarts := by
  simp only [isWild, Bool.or_eq_false_iff, beq_eq_false_iff_ne] at hwild
  simp [wildStarts, hplain, hwild]

theorem mem_wildStarts_of_isWild (h : isWild w = true) : w ∈ wildStarts := by
  simp only [isWild, Bool.or_eq_true, beq_iff_eq] at h
  rcases h with rfl | rfl <;> decide

theorem literalPart_append (h : ∀ c ∈ front, c ∉ wildStarts) (rest : List Char) :
    literalPart (front ++ rest) = front ++ literalPart rest :=
  List.takeWhile_append_of_pos fun c hc => decide_eq_true (h c hc)

theorem wildPart_append (h : ∀ c ∈ front, c ∉ wildStarts) (rest : List Char) :
    wildPart (front ++ rest) = wildPart rest :=
  List.dropWhile_append_of_pos fun c hc => decide_eq_true (h c hc)

theorem literalPart_cons_of_mem (h : c ∈ wildStarts) (rest : List Char) :
    literalPart (c :: rest) = [] :=
  List.takeWhile_cons_of_neg (by simpa using h)

theorem wildPart_cons_of_mem (h : c ∈ wildStarts) (rest : List Char) :
    wildPart (c :: rest) = c :: rest :=
  List.dropWhile_cons_of_neg (by simpa using h)

/-! ### Literal parts of patterns -/

theorem unescape_cons (hc : c ≠ '\\') (rest : List Char) :
    unescape (c :: rest) = c :: unescape rest := by
  rw [unescape]
  · exact fun _ _ heq => absurd heq hc
  · exact fun heq => absurd heq hc

/-- An escaped character comes back; one that stands as it is has no meaning in patterns. -/
theorem unescape_fixedStart_escaped (hplain : c ∉ ['\\', '\x7b', '\x7d', '|', '$'])
    (hwild : isWild c = false) (rest : List Char) :
    unescape (fixedStart (escaped c ++ rest)) = c :: unescape (fixedStart rest) := by
  simp only [isWild, Bool.or_eq_false_iff, beq_eq_false_iff_ne] at hwild
  simp only [List.mem_cons, List.not_mem_nil, or_false, not_or] at hplain
  rw [fixedStart_escaped_append (by simp [hplain, hwild])]
  unfold escaped
  split
  · rfl
  · exact unescape_cons hplain.1 _

/-- The literal part of a body comes through its pattern, if nothing literal follows. -/
theorem unescape_fixedStart_patternBody (h : IsPlainBody body) (htail : fixedStart tail = []) :
    unescape (fixedStart (patternBody false body ++ tail)) = literalPart body := by
  fun_induction parts body with
  | case1 => simp [patternBody, htail, unescape, literalPart]
  | case2 rest => rfl
  | case3 rest hstar =>
    rw [patternBody_star hstar]
    rfl
  | case4 rest => rfl
  | case5 c rest _ hstar hquestion ih =>
    obtain ⟨hc, hrest⟩ := List.forall_mem_cons.1 h
    have hwild : isWild c = false := by simpa [isWild] using ⟨hstar, hquestion⟩
    simp only [List.mem_cons, List.not_mem_nil, or_false, not_or] at hc
    have hliteral : c ∉ wildStarts := not_mem_wildStarts hc.2.1 hwild
    rw [patternBody_cons hwild hc.1, List.append_assoc,
      unescape_fixedStart_escaped (by simpa using hc) hwild, ih hrest]
    have hfront : ∀ d ∈ [c], d ∉ wildStarts := by simpa using hliteral
    exact (literalPart_append hfront rest).symm

/-- Braces end the literal part. -/
theorem literalPart_append_glob (hform : ∀ t ∈ form, t.coversSelf = true) (body : List Char) :
    literalPart (body ++ (form.map Trailing.glob).getD []) = literalPart body := by
  cases form with
  | none => simp
  | some t =>
    obtain ⟨others, hglob⟩ := Trailing.exists_glob_eq_cons (hform t rfl)
    rw [Option.map_some, Option.getD_some, hglob]
    induction body with
    | nil => exact literalPart_cons_of_mem (by decide) others
    | cons c rest ih =>
      unfold literalPart at ih ⊢
      rw [List.cons_append, List.takeWhile_cons, List.takeWhile_cons, ih]

/-- The literal part of a glob is what its pattern has before the first special character. -/
theorem unescape_fixedStart_toPattern (h : IsPlainBody body)
    (hform : ∀ t ∈ form, t.coversSelf = true) :
    unescape (fixedStart (toPattern (body ++ (form.map Trailing.glob).getD []))) =
      literalPart (body ++ (form.map Trailing.glob).getD []) := by
  rw [literalPart_append_glob hform, toPattern_append h hform]
  refine unescape_fixedStart_patternBody h ?_
  cases form with
  | none => rfl
  | some t =>
    cases t with
    | selfAndTree => rfl
    | selfAndChildren => rfl
    | tree => cases hform _ rfl
    | children => cases hform _ rfl

/-- A folded plain glob is a plain body, perhaps with a form that covers the directory itself; any
other form belongs to the body. -/
theorem IsPlainGlob.exists_fold_eq_of_coversSelf (h : IsPlainGlob path) :
    ∃ body form, IsPlainBody body ∧ (∀ t ∈ form, t.coversSelf = true) ∧
      fold path = body ++ (Option.map Trailing.glob form).getD [] := by
  obtain ⟨body, form, hbody, hfold⟩ := h.exists_fold_eq
  by_cases hform : ∀ t ∈ form, t.coversSelf = true
  · exact ⟨body, form, hbody, hform, hfold⟩
  · obtain ⟨t, rfl, ht⟩ : ∃ t, form = some t ∧ t.coversSelf = false := by simpa using hform
    have hglob : IsPlainBody t.glob := by
      cases t with
      | selfAndTree => cases ht
      | selfAndChildren => cases ht
      | tree => decide
      | children => decide
    exact ⟨body ++ t.glob, none, List.forall_mem_append.2 ⟨hbody, hglob⟩, by simp,
      hfold.trans (List.append_nil _).symm⟩

/-! ### Languages -/

theorem parts_append_of_not_wild (h : ∀ c ∈ front, isWild c = false) (rest : List Char) :
    parts (front ++ rest) = front.map Part.literal ++ parts rest := by
  induction front with
  | nil => rfl
  | cons c front ih =>
    obtain ⟨hc, hfront⟩ := List.forall_mem_cons.1 h
    simp only [isWild, Bool.or_eq_false_iff, beq_eq_false_iff_ne] at hc
    rw [List.cons_append, parts, ih hfront, List.map_cons, List.cons_append]
    · exact fun _ heq => absurd heq hc.1
    · exact hc.1
    · exact hc.2

/-- Literal characters stand for themselves. -/
theorem mem_language_append_iff (h : ∀ c ∈ front, isWild c = false) :
    text ∈ language (front ++ rest) form ↔ ∃ other ∈ language rest form, text = front ++ other := by
  have hfront : parts front = front.map Part.literal := by
    simpa [parts] using parts_append_of_not_wild h []
  have hsplit : language (front ++ rest) form =
      ((parts front).map Part.language).prod * language rest form := by
    rw [language, language, parts_append_of_not_wild h, hfront, List.map_append, List.prod_append,
      mul_assoc]
  rw [hsplit, Language.mem_mul]
  constructor
  · rintro ⟨first, hfirst, other, hother, rfl⟩
    exact ⟨other, hother, by rw [eq_of_mem_prod_parts h hfirst]⟩
  · rintro ⟨other, hother, rfl⟩
    exact ⟨front, mem_prod_parts_self front, other, hother, rfl⟩

/-- A form that covers the directory itself stands for nothing, or for a slash and more. -/
theorem eq_nil_or_of_mem_getD (hform : ∀ t ∈ form, t.coversSelf = true)
    (htext : text ∈ (form.map Trailing.language).getD 1) :
    text = [] ∨ ∃ below, text = '/' :: below := by
  cases form with
  | none => exact .inl ((Language.mem_one _).1 htext)
  | some t =>
    rw [Option.map_some, Option.getD_some, Trailing.language, if_pos (hform t rfl),
      Language.mem_add, Language.mem_mul, Language.mem_one] at htext
    obtain ⟨slash, hslash, below, -, rfl⟩ | hnil := htext
    · obtain rfl : slash = ['/'] := hslash
      exact .inr ⟨below, rfl⟩
    · exact .inl hnil

theorem nil_mem_getD (hform : ∀ t ∈ form, t.coversSelf = true) :
    [] ∈ (form.map Trailing.language).getD 1 := by
  cases form with
  | none => exact Language.nil_mem_one
  | some t =>
    rw [Option.map_some, Option.getD_some, Trailing.language, if_pos (hform t rfl)]
    exact .inr Language.nil_mem_one

/-- What follows the first wildcard may begin with any character of a component. -/
theorem exists_cons_mem_language_wild (hw : isWild w = true) (more : List Char)
    (hform : ∀ t ∈ form, t.coversSelf = true) (hslash : c ≠ '/') (hline : c ≠ '\n') :
    ∃ tail, c :: tail ∈ language (w :: more) form := by
  -- Two stars are one part; a star alone and a question mark stay in their component.
  have hparts : ∃ part rest, parts (w :: more) = part :: parts rest ∧ [c] ∈ part.language := by
    simp only [isWild, Bool.or_eq_true, beq_iff_eq] at hw
    rcases hw with rfl | rfl
    · by_cases hstars : ∃ rest, more = '*' :: rest
      · obtain ⟨rest, rfl⟩ := hstars
        have hc : '\n' ∉ [c] := by simpa using hline.symm
        exact ⟨.inLine, rest, rfl, hc⟩
      · have hc : '/' ∉ [c] := by simpa using hslash.symm
        refine ⟨.inComponent, more, ?_, hc⟩
        rw [parts]
        exact fun rest heq => hstars ⟨rest, heq⟩
    · exact ⟨.one, more, rfl, c, hslash, rfl⟩
  obtain ⟨part, rest, hparts, hpart⟩ := hparts
  refine ⟨rest ++ [], ?_⟩
  rw [language, hparts, List.map_cons, List.prod_cons]
  exact Language.append_mem_mul (Language.append_mem_mul hpart (mem_prod_parts_self rest))
    (nil_mem_getD hform)

/-! ### What the texts of a glob lie under -/

theorem exists_wild_split (h : ∃ c ∈ body, isWild c = true) :
    ∃ front w more, body = front ++ w :: more ∧ (∀ c ∈ front, isWild c = false) ∧
      isWild w = true := by
  obtain ⟨w, hfind⟩ := Option.isSome_iff_exists.1 (List.find?_isSome.2 h)
  obtain ⟨hw, front, more, hbody, hfront⟩ := List.find?_eq_some_iff_append.1 hfind
  exact ⟨front, w, more, hbody, fun c hc => by simpa using hfront c hc, hw⟩

theorem IsPlainBody.not_mem_wildStarts (h : IsPlainBody body)
    (hfront : ∀ c ∈ front, c ∈ body ∧ isWild c = false) : ∀ c ∈ front, c ∉ wildStarts := by
  intro c hc
  obtain ⟨hmem, hwild⟩ := hfront c hc
  exact Path.not_mem_wildStarts (fun heq => h c hmem (by simp [heq])) hwild

theorem literalPart_append_wild (hfront : ∀ c ∈ front, c ∉ wildStarts) (hw : isWild w = true)
    (rest : List Char) : literalPart (front ++ w :: rest) = front := by
  rw [literalPart_append hfront, literalPart_cons_of_mem (mem_wildStarts_of_isWild hw),
    List.append_nil]

/-- A wildcard stands in a component that has begun, unless a slash is before it. -/
theorem isRooted_append_wild_iff (hfront : ∀ c ∈ front, c ∉ wildStarts) (hw : isWild w = true)
    (rest : List Char) : IsRooted (front ++ w :: rest) ↔ front.getLast? = some '/' := by
  have hbrace : w ≠ '\x7b' := by
    rintro rfl
    cases hw
  rw [IsRooted, literalPart_append_wild hfront hw, wildPart_append hfront,
    wildPart_cons_of_mem (mem_wildStarts_of_isWild hw), or_iff_left]
  -- What follows begins with the wildcard, and not with a brace.
  simp [Trailing.glob, hbrace]

/-- A body without wildcards ends where a component ends. -/
theorem isRooted_append_glob (hbody : ∀ c ∈ body, c ∉ wildStarts)
    (hform : ∀ t ∈ form, t.coversSelf = true) :
    IsRooted (body ++ (form.map Trailing.glob).getD []) := by
  refine .inr ?_
  rw [wildPart_append hbody]
  cases form with
  | none => simp [wildPart]
  | some t =>
    cases t with
    | selfAndTree => decide
    | selfAndChildren => decide
    | tree => cases hform _ rfl
    | children => cases hform _ rfl

/-- A body without wildcards is the literal part of its glob; of any other body the part before the
first wildcard is. -/
theorem literalPart_cases (h : IsPlainBody body) (hform : ∀ t ∈ form, t.coversSelf = true) :
    let glob := body ++ (form.map Trailing.glob).getD []
    ((∀ c ∈ body, isWild c = false) ∧ literalPart glob = body ∧ IsRooted glob) ∨
    ∃ front w more, body = front ++ w :: more ∧ (∀ c ∈ front, isWild c = false) ∧
      isWild w = true ∧ literalPart glob = front ∧
      (IsRooted glob ↔ front.getLast? = some '/') := by
  intro glob
  by_cases hwild : ∃ c ∈ body, isWild c = true
  · obtain ⟨front, w, more, rfl, hfront, hw⟩ := exists_wild_split hwild
    have hplain := h.not_mem_wildStarts fun c hc => ⟨List.mem_append_left _ hc, hfront c hc⟩
    have hglob : glob = front ++ w :: (more ++ (form.map Trailing.glob).getD []) :=
      List.append_assoc front (w :: more) _
    rw [hglob]
    exact .inr ⟨front, w, more, rfl, hfront, hw, literalPart_append_wild hplain hw _,
      isRooted_append_wild_iff hplain hw _⟩
  · have hwild : ∀ c ∈ body, isWild c = false := by simpa using hwild
    have hplain := h.not_mem_wildStarts fun c hc => ⟨hc, hwild c hc⟩
    have hliteral : literalPart body = body := by
      simpa [literalPart] using literalPart_append hplain []
    exact .inl ⟨hwild, (literalPart_append_glob hform body).trans hliteral,
      isRooted_append_glob hplain hform⟩

/-- The texts of a glob begin with its literal part. -/
theorem literalPart_prefix_of_mem_language (h : IsPlainBody body)
    (hform : ∀ t ∈ form, t.coversSelf = true) (htext : text ∈ language body form) :
    literalPart (body ++ (form.map Trailing.glob).getD []) <+: text := by
  obtain ⟨hwild, hliteral, -⟩ | ⟨front, w, more, rfl, hfront, -, hliteral, -⟩ :=
    literalPart_cases h hform
  · rw [← List.append_nil body] at htext
    obtain ⟨other, -, rfl⟩ := (mem_language_append_iff hwild).1 htext
    rw [hliteral]
    exact List.prefix_append body other
  · obtain ⟨other, -, rfl⟩ := (mem_language_append_iff hfront).1 htext
    rw [hliteral]
    exact List.prefix_append front other

/-- If the literal part of a glob ends where a component ends, then the texts of the glob lie under
it. -/
theorem liesUnder_of_mem_language (h : IsPlainBody body) (hform : ∀ t ∈ form, t.coversSelf = true)
    (hrooted : IsRooted (body ++ (form.map Trailing.glob).getD []))
    (htext : text ∈ language body form) :
    LiesUnder text (literalPart (body ++ (form.map Trailing.glob).getD [])) := by
  have hbegins := literalPart_prefix_of_mem_language h hform htext
  obtain ⟨hwild, hliteral, -⟩ | ⟨front, w, more, -, -, -, hliteral, hiff⟩ :=
    literalPart_cases h hform
  · rw [hliteral]
    rw [← List.append_nil body] at htext
    obtain ⟨other, hother, rfl⟩ := (mem_language_append_iff hwild).1 htext
    rw [language, show (parts []).map Part.language = [] from rfl, List.prod_nil, one_mul] at hother
    obtain rfl | ⟨below, rfl⟩ := eq_nil_or_of_mem_getD hform hother
    · exact .inl (List.append_nil body)
    · exact .inr (.inl ⟨below, by simp⟩)
  · rw [hliteral] at hbegins ⊢
    exact .inr (.inr ⟨hiff.1 hrooted, hbegins⟩)

/-- Otherwise a text of the glob goes on with any other character. -/
theorem exists_cons_mem_language (h : IsPlainBody body) (hform : ∀ t ∈ form, t.coversSelf = true)
    (hrooted : ¬IsRooted (body ++ (form.map Trailing.glob).getD [])) (hslash : c ≠ '/')
    (hline : c ≠ '\n') : ∃ tail,
      literalPart (body ++ (form.map Trailing.glob).getD []) ++ c :: tail ∈ language body form := by
  obtain ⟨-, -, hyes⟩ | ⟨front, w, more, rfl, hfront, hw, hliteral, -⟩ := literalPart_cases h hform
  · exact absurd hyes hrooted
  · obtain ⟨tail, htail⟩ := exists_cons_mem_language_wild hw more hform hslash hline
    rw [hliteral]
    exact ⟨tail, (mem_language_append_iff hfront).2 ⟨_, htail, rfl⟩⟩

/-! ### Trees -/

theorem prefix_of_prefix_append_cons {part : List Char} (h : part <+: path ++ c :: rest)
    (hc : c ∉ part) : part <+: path := by
  rw [← List.singleton_append, ← List.append_assoc] at h
  rcases List.prefix_or_prefix_of_prefix h (List.prefix_append (path ++ [c]) rest) with hle | hle
  · rcases List.prefix_concat_iff.1 hle with rfl | hle
    · exact absurd (List.mem_append_right _ (List.mem_singleton_self c)) hc
    · exact hle
  · exact absurd (hle.subset (List.mem_append_right _ (List.mem_singleton_self c))) hc

/-- A path goes on in the tree that it is in. -/
theorem LiesUnder.append (h : LiesUnder path scope) (hne : path ≠ scope) (rest : List Char) :
    LiesUnder (path ++ rest) scope := by
  rcases h with heq | hbelow | ⟨hslash, hbelow⟩
  · exact absurd heq hne
  · exact .inr (.inl (hbelow.trans (List.prefix_append path rest)))
  · exact .inr (.inr ⟨hslash, hbelow.trans (List.prefix_append path rest)⟩)

/-- A tree without a character begins before it. -/
theorem liesUnder_of_append_cons (h : LiesUnder (path ++ c :: rest) scope) (hslash : c ≠ '/')
    (hc : c ∉ scope) : LiesUnder path scope := by
  rcases h with rfl | hbelow | ⟨hends, hbelow⟩
  · exact absurd (by simp) hc
  · exact .inr (.inl (prefix_of_prefix_append_cons hbelow (by simpa [hslash] using hc)))
  · exact .inr (.inr ⟨hends, prefix_of_prefix_append_cons hbelow hc⟩)

/-- A path that goes on with a character other than a slash is not in the tree that begins there. -/
theorem not_liesUnder_append_cons (hslash : c ≠ '/') (hends : path.getLast? ≠ some '/') :
    ¬LiesUnder (path ++ c :: rest) path := by
  rintro (heq | hbelow | ⟨hslash, -⟩)
  · simp at heq
  · rw [List.prefix_append_right_inj] at hbelow
    exact hslash (List.cons_prefix_cons.1 hbelow).1.symm
  · exact hends hslash

end TypeEnforcement.Path
