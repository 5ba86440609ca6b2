/-
Texts that differ in the case of letters, and in blanks.

The functions on texts work one character at a time, so a change of characters that they do not
notice may be made before or after them.  The lower case of a character depends on its neighbours as
well, on whether they have case, and a letter of ASCII has case whether it is a capital or not.

* `Text.capitals` — the capitals of ASCII.

Main statements:
* `pieces_map`, `pieces_filter`, `trimBlanks_map` — cutting and trimming a changed text;
* `apply_toLower` — a function that does not notice the case of the capitals does not notice case;
* `split_toLower` — cutting a text in lower case;
* `lowercase_map_toLower` — the lower case of a text does not depend on the case of its letters.
-/
import TypeEnforcement.Proofs.Identifiers

namespace TypeEnforcement.Text

variable {text : List Char} {c : Char}

/-! ### Cutting and trimming -/

/-- Characters may be changed before a text is cut, if no separator is lost or made. -/
theorem pieces_map {isSep : Char → Bool} {f : Char → Char} (h : ∀ c, isSep (f c) = isSep c)
    (text : List Char) : pieces isSep (text.map f) = (pieces isSep text).map (List.map f) := by
  induction text with
  | nil => rfl
  | cons c rest ih =>
    rw [List.map_cons, pieces, pieces, h, ih]
    split
    · rfl
    · cases pieces isSep rest <;> rfl

/-- Characters may be left out before a text is cut, if none of them is a separator. -/
theorem pieces_filter {isSep p : Char → Bool} (h : ∀ c, isSep c = true → p c = true)
    (text : List Char) :
    pieces isSep (text.filter p) = (pieces isSep text).map (List.filter p) := by
  induction text with
  | nil => rfl
  | cons c rest ih =>
    rw [List.filter_cons, pieces]
    split
    · rename_i hp
      rw [pieces, ih]
      split
      · rfl
      · cases pieces isSep rest <;> simp [hp]
    · rename_i hp
      rw [ih, if_neg fun hsep => hp (h c hsep)]
      cases hpieces : pieces isSep rest with
      | nil => exact absurd hpieces (pieces_ne_nil isSep rest)
      | cons piece others => simp [hp]

theorem trimBlanks_map {f : Char → Char} (h : ∀ c, isBlank (f c) = isBlank c) (text : List Char) :
    trimBlanks (text.map f) = (trimBlanks text).map f := by
  have hblank : isBlank ∘ f = isBlank := funext h
  simp only [trimBlanks, trimStart, trimEnd, List.dropWhile_map, ← List.map_reverse, hblank]

/-! ### Letters of ASCII -/

/-- The capitals of ASCII. -/
def capitals : List Char :=
  "ABCDEFGHIJKLMNOPQRSTUVWXYZ".toList

theorem mem_capitals (h : c.isUpper = true) : c ∈ capitals := by
  have hsmall : c.toNat < 91 := Nat.lt_succ_of_le (isUpper_iff.1 h).2
  exact of_forall_lt (P := fun c => c.isUpper = true → c ∈ capitals) (by decide) hsmall h

/-- What a capital and its small letter have in common does not depend on the case of letters. -/
theorem apply_toLower {α : Type} {f : Char → α} (h : ∀ c ∈ capitals, f c.toLower = f c) (c : Char) :
    f c.toLower = f c := by
  cases hupper : c.isUpper with
  | true => exact h c (mem_capitals hupper)
  | false =>
    have hsame : c.toLower = c := dif_neg (decide_eq_false_iff_not.1 hupper)
    rw [hsame]

theorem isBlank_toLower : ∀ c : Char, isBlank c.toLower = isBlank c :=
  apply_toLower (by decide)

/-- A character that is no letter is not made of another one. -/
theorem beq_toLower {d : Char} (h : ∀ c ∈ capitals, (c.toLower == d) = (c == d)) (c : Char) :
    (c.toLower == d) = (c == d) :=
  apply_toLower (f := (· == d)) h c

theorem toList_toLower (text : String) : text.toLower.toList = text.toList.map Char.toLower :=
  String.toList_map

theorem ofList_map_toLower (text : List Char) :
    String.ofList (text.map Char.toLower) = (String.ofList text).toLower := by
  rw [← String.toList_inj, toList_toLower, String.toList_ofList, String.toList_ofList]

/-- A text may be cut in lower case, if the separator is no letter. -/
theorem split_toLower {sep : Char} (h : ∀ c ∈ capitals, (c.toLower == sep) = (c == sep))
    (text : String) : split sep text.toLower = (split sep text).map String.toLower := by
  rw [split, toList_toLower, pieces_map (beq_toLower h), split, List.map_map, List.map_map]
  exact List.map_congr_left fun piece _ => ofList_map_toLower piece

theorem isCased_toLower : ∀ c : Char, isCased c.toLower = isCased c :=
  apply_toLower (by decide +kernel)

theorem isCaseIgnorable_toLower : ∀ c : Char, isCaseIgnorable c.toLower = isCaseIgnorable c :=
  apply_toLower (by decide +kernel)

theorem lowerChar_toLower : ∀ c : Char, lowerChar c.toLower = lowerChar c :=
  apply_toLower (by decide)

/-! ### Lower case -/

theorem startsCased_map_toLower (text : List Char) :
    startsCased (text.map Char.toLower) = startsCased text := by
  have hignorable : isCaseIgnorable ∘ Char.toLower = isCaseIgnorable :=
    funext isCaseIgnorable_toLower
  rw [startsCased, startsCased, List.dropWhile_map, hignorable]
  cases text.dropWhile isCaseIgnorable with
  | nil => rfl
  | cons c rest => exact isCased_toLower c

theorem lowerInContext_toLower (before after : List Char) (c : Char) :
    lowerInContext (before.map Char.toLower) c.toLower (after.map Char.toLower) =
      lowerInContext before c after := by
  -- A capital sigma alone looks at its neighbours, and it is no letter of ASCII.
  have hsigma : c.toLower = 'Σ' ↔ c = 'Σ' := by
    have hbeq : (c.toLower == 'Σ') = (c == 'Σ') := beq_toLower (by decide) c
    rw [← beq_iff_eq, hbeq, beq_iff_eq]
  simp only [lowerInContext, hsigma, startsCased_map_toLower, lowerChar_toLower]

theorem lowerAfter_map_toLower (before text : List Char) :
    lowerAfter (before.map Char.toLower) (text.map Char.toLower) = lowerAfter before text := by
  induction text generalizing before with
  | nil => rfl
  | cons c rest ih =>
    rw [List.map_cons, lowerAfter, lowerAfter, lowerInContext_toLower, ← List.map_cons, ih]

/-- The lower case of a text does not depend on the case of its letters of ASCII. -/
theorem lowercase_map_toLower (text : List Char) :
    lowercase (text.map Char.toLower) = lowercase text :=
  lowerAfter_map_toLower [] text

end TypeEnforcement.Text
