/-
The words and the lines of texts that are put together.

* `Text.IsWord` — a text that is one word;
* `Text.IsGap` — a text that separates words.

Main statements:
* `words_append_gap`, `words_intercalate` — the words of a text that is made of words;
* `isWord_of_mem_words`, `mem_of_mem_words` — what the words of any text are made of;
* `lines_append`, `lines_line` — the lines of a text that is made of lines;
* `trim_append_gap` — a text with blanks at its end;
* `trimChars_trimChars` — taking characters off both ends does all its work at once.
-/
import Mathlib.Data.List.DropRight
import TypeEnforcement.Proofs.Footprint
import TypeEnforcement.Text.Split

namespace TypeEnforcement.Text

/-- What holds of every character of a list is decided by going through the list. -/
instance (priority := 1100) decidableForallMem (chars : List Char) (p : Char → Prop)
    [DecidablePred p] : Decidable (∀ c ∈ chars, p c) :=
  List.decidableBAll p chars

/-- A text that is one word: it has characters, and none of them is blank. -/
def IsWord (text : String) : Prop :=
  text ≠ "" ∧ ∀ c ∈ text.toList, isBlank c = false

/-- A text that separates words: it has characters, and all of them are blank. -/
def IsGap (text : String) : Prop :=
  text ≠ "" ∧ ∀ c ∈ text.toList, isBlank c = true

instance (text : String) : Decidable (IsWord text) :=
  inferInstanceAs (Decidable (_ ∧ _))

instance (text : String) : Decidable (IsGap text) :=
  inferInstanceAs (Decidable (_ ∧ _))

theorem IsWord.toList_ne_nil {text : String} (h : IsWord text) : text.toList ≠ [] :=
  fun hnil => h.1 (String.toList_eq_nil_iff.1 hnil)

theorem IsGap.toList_ne_nil {text : String} (h : IsGap text) : text.toList ≠ [] :=
  fun hnil => h.1 (String.toList_eq_nil_iff.1 hnil)

/-! ### Words -/

@[simp] theorem words_empty : words "" = [] := rfl

theorem words_blanks_append {blanks : String} (h : ∀ c ∈ blanks.toList, isBlank c = true)
    (rest : String) : words (blanks ++ rest) = words rest := by
  have hpieces (front : List Char) (hfront : ∀ c ∈ front, isBlank c = true) :
      (pieces isBlank (front ++ rest.toList)).filter (· ≠ []) =
        (pieces isBlank rest.toList).filter (· ≠ []) := by
    induction front with
    | nil => rfl
    | cons c front ih =>
      obtain ⟨hc, hfront⟩ := List.forall_mem_cons.1 hfront
      rw [List.cons_append, pieces, if_pos hc, List.filter_cons_of_neg (by simp), ih hfront]
  unfold words
  rw [String.toList_append, hpieces _ h]

theorem words_append_gap {gap : String} (h : IsGap gap) (front rest : String) :
    words (front ++ gap ++ rest) = words front ++ words rest := by
  obtain ⟨c, blanks, hgap⟩ := List.exists_cons_of_ne_nil h.toList_ne_nil
  obtain ⟨hc, hblanks⟩ := List.forall_mem_cons.1 (hgap ▸ h.2)
  have hrest : words (String.ofList blanks ++ rest) = words rest :=
    words_blanks_append (by rwa [String.toList_ofList]) rest
  rw [← hrest]
  unfold words
  rw [String.toList_append, String.toList_append, String.toList_append, hgap,
    String.toList_ofList, List.append_assoc, List.cons_append, pieces_append hc,
    List.filter_append, List.map_append]

theorem words_append_blanks {blanks : String} (h : ∀ c ∈ blanks.toList, isBlank c = true)
    (front : String) : words (front ++ blanks) = words front := by
  by_cases hempty : blanks = ""
  · rw [hempty, String.append_empty]
  · have hgap := words_append_gap ⟨hempty, h⟩ front ""
    rwa [String.append_empty, words_empty, List.append_nil] at hgap

theorem words_of_isWord {word : String} (h : IsWord word) : words word = [word] := by
  unfold words
  rw [pieces_of_forall_not h.2, List.filter_cons_of_pos (by simpa using h.toList_ne_nil)]
  simp

theorem words_cons {word gap : String} (hword : IsWord word) (hgap : IsGap gap) (rest : String) :
    words (word ++ gap ++ rest) = word :: words rest := by
  rw [words_append_gap hgap, words_of_isWord hword, List.singleton_append]

theorem words_intercalate {items : List String} (h : ∀ item ∈ items, IsWord item) :
    words (" ".intercalate items) = items := by
  induction items with
  | nil => rfl
  | cons item items ih =>
    obtain ⟨hitem, hitems⟩ := List.forall_mem_cons.1 h
    cases items with
    | nil => exact words_of_isWord hitem
    | cons other items => rw [String.intercalate_cons_cons, words_cons hitem (by decide), ih hitems]

theorem mem_intercalate {sep : String} {items : List String} {c : Char}
    (h : c ∈ (sep.intercalate items).toList) :
    c ∈ sep.toList ∨ ∃ item ∈ items, c ∈ item.toList := by
  induction items with
  | nil =>
    rw [String.intercalate_nil] at h
    exact absurd h List.not_mem_nil
  | cons item items ih =>
    cases items with
    | nil =>
      rw [String.intercalate_singleton] at h
      exact .inr ⟨item, List.mem_cons_self, h⟩
    | cons other items =>
      rw [String.intercalate_cons_cons, String.toList_append, String.toList_append,
        List.mem_append, List.mem_append] at h
      rcases h with (h | h) | h
      · exact .inr ⟨item, List.mem_cons_self, h⟩
      · exact .inl h
      · exact (ih h).imp_right fun ⟨found, hfound, hc⟩ => ⟨found, List.mem_cons_of_mem _ hfound, hc⟩

theorem isWord_of_mem_words {text word : String} (h : word ∈ words text) : IsWord word := by
  obtain ⟨piece, hpiece, rfl⟩ := List.mem_map.1 h
  obtain ⟨hpiece, hne⟩ := List.mem_filter.1 hpiece
  refine ⟨fun hempty => ?_, ?_⟩
  · rw [String.ofList_eq_empty_iff] at hempty
    simp [hempty] at hne
  · rw [String.toList_ofList]
    exact not_mem_of_mem_pieces hpiece

theorem mem_of_mem_pieces {isSep : Char → Bool} {text piece : List Char}
    (h : piece ∈ pieces isSep text) {c : Char} (hc : c ∈ piece) : c ∈ text := by
  have hflatten : c ∈ (pieces isSep text).flatten := List.mem_flatten.2 ⟨piece, h, hc⟩
  rw [flatten_pieces] at hflatten
  exact List.mem_of_mem_filter hflatten

theorem mem_of_mem_words {text word : String} (h : word ∈ words text) {c : Char}
    (hc : c ∈ word.toList) : c ∈ text.toList := by
  obtain ⟨piece, hpiece, rfl⟩ := List.mem_map.1 h
  rw [String.toList_ofList] at hc
  exact mem_of_mem_pieces (List.mem_of_mem_filter hpiece) hc

/-! ### Pieces -/

theorem split_of_not_mem {sep : Char} {text : String} (h : sep ∉ text.toList) :
    split sep text = [text] := by
  have hpieces : pieces (· == sep) text.toList = [text.toList] :=
    pieces_of_forall_not fun c hc => beq_eq_false_iff_ne.2 fun heq => h (heq ▸ hc)
  simp [split, hpieces]

theorem split_append {sep : Char} {front : String} (h : sep ∉ front.toList) (rest : String) :
    split sep (front ++ String.singleton sep ++ rest) = front :: split sep rest := by
  have hfront := split_of_not_mem h
  unfold split at hfront ⊢
  rw [String.toList_append, String.toList_append, String.toList_singleton, List.append_assoc,
    List.singleton_append, pieces_append (by simp), List.map_append, hfront, List.singleton_append]

theorem not_mem_of_mem_split {sep : Char} {text piece : String} (h : piece ∈ split sep text) :
    sep ∉ piece.toList := by
  obtain ⟨piece, hpiece, rfl⟩ := List.mem_map.1 h
  rw [String.toList_ofList]
  intro hsep
  simpa using not_mem_of_mem_pieces hpiece sep hsep

/-! ### The ends of a text -/

theorem trim_append_gap {front gap : String} {first last : Char}
    (hfirst : front.toList.head? = some first) (hlast : front.toList.getLast? = some last)
    (hinner : isBlank first = false ∧ isBlank last = false)
    (hgap : ∀ c ∈ gap.toList, isBlank c = true) : trim (front ++ gap) = front := by
  obtain ⟨rest, hfront⟩ := List.head?_eq_some_iff.1 hfirst
  obtain ⟨start, hfront'⟩ := List.getLast?_eq_some_iff.1 hlast
  have hstart : trimStart isBlank (front ++ gap).toList = (front ++ gap).toList := by
    rw [String.toList_append, hfront, List.cons_append, trimStart,
      List.dropWhile_cons_of_neg (by simp [hinner.1])]
  unfold trim trimBlanks
  rw [hstart, String.toList_append, trimEnd, List.reverse_append,
    List.dropWhile_append_of_pos fun c hc => hgap c (List.mem_reverse.1 hc), hfront',
    List.reverse_append, List.reverse_singleton, List.singleton_append,
    List.dropWhile_cons_of_neg (by simp [hinner.2]), List.reverse_cons, List.reverse_reverse,
    ← hfront', String.ofList_toList]

theorem trim_of_forall_not {text : String} (h : ∀ c ∈ text.toList, isBlank c = false) :
    trim text = text := by
  by_cases hempty : text.toList = []
  · rw [String.toList_eq_nil_iff.1 hempty]
    rfl
  · obtain ⟨first, rest, hfirst⟩ := List.exists_cons_of_ne_nil hempty
    have hlast := List.getLast?_eq_some_getLast hempty
    have htrim : trim (text ++ "") = text := trim_append_gap (by rw [hfirst]; rfl) hlast
      ⟨h first (by simp [hfirst]), h _ (List.getLast_mem hempty)⟩ (by decide)
    rwa [String.append_empty] at htrim

/-- The text without leading characters of one kind and trailing ones of another. -/
def trimChars (p q : Char → Bool) (text : List Char) : List Char :=
  trimEnd q (trimStart p text)

theorem mem_of_mem_trimChars {p q : Char → Bool} {text : List Char} {c : Char}
    (h : c ∈ trimChars p q text) : c ∈ text := by
  have hstart : c ∈ trimStart p text :=
    List.mem_reverse.1 ((List.dropWhile_suffix q).subset (List.mem_reverse.1 h))
  exact (List.dropWhile_suffix p).subset hstart

theorem trimChars_trimChars (p q : Char → Bool) (text : List Char) :
    trimChars p q (trimChars p q text) = trimChars p q text := by
  -- What is left starts like the text without its start, unless nothing is left.
  have hstart : trimStart p (trimChars p q text) = trimChars p q text := by
    obtain ⟨dropped, hsplit⟩ : trimChars p q text <+: text.dropWhile p :=
      List.rdropWhile_prefix q (text.dropWhile p)
    cases hleft : trimChars p q text with
    | nil => rfl
    | cons c rest =>
      have hfirst : ¬p c = true := by
        have hself := List.dropWhile_eq_self_iff.1 (List.dropWhile_idempotent p text)
        rw [← hsplit, hleft] at hself
        exact hself (by simp)
      exact List.dropWhile_cons_of_neg hfirst
  rw [trimChars, hstart]
  exact List.rdropWhile_idempotent q (trimStart p text)

/-- One more character at either end is taken off too. -/
theorem trimChars_wrap {p q : Char → Bool} {first last : Char} (hfirst : p first = true)
    (hlast : q last = true) {text : List Char} (hne : trimChars p q text ≠ []) :
    trimChars p q (first :: (text ++ [last])) = trimChars p q text := by
  have hstart : text.dropWhile p ≠ [] := by
    intro hnil
    rw [trimChars, trimStart, hnil] at hne
    exact hne rfl
  have hdrop : trimStart p (first :: (text ++ [last])) = text.dropWhile p ++ [last] := by
    rw [trimStart, List.dropWhile_cons_of_pos hfirst, List.dropWhile_append, if_neg]
    simpa using hstart
  rw [trimChars, hdrop, trimEnd, List.reverse_append, List.reverse_singleton,
    List.singleton_append, List.dropWhile_cons_of_pos hlast]
  rfl

/-! ### Lines -/

theorem linesOf_append (front rest : List Char) :
    linesOf (front ++ '\n' :: rest) = linesOf (front ++ ['\n']) ++ linesOf rest := by
  have hempty : pieces (· == '\n') [] = [[]] := rfl
  unfold linesOf
  rw [pieces_append (by rfl), pieces_append (by rfl), hempty]
  simp only [List.dropLast_append_of_ne_nil (pieces_ne_nil _ _), List.map_append,
    List.getLast?_append_of_ne_nil _ (pieces_ne_nil _ _)]
  obtain ⟨others, last, hlast⟩ :=
    (List.eq_nil_or_concat (pieces (· == '\n') rest)).resolve_left (pieces_ne_nil _ _)
  cases last with
  | nil => simp [hlast]
  | cons c last => simp [hlast]

theorem lines_append (front rest : String) :
    lines (front ++ "\n" ++ rest) = lines (front ++ "\n") ++ lines rest := by
  have hfeed : "\n".toList = ['\n'] := rfl
  unfold lines
  rw [String.toList_append, String.toList_append, hfeed, List.append_assoc, List.singleton_append,
    linesOf_append, List.map_append]

theorem lines_line {line : String} (hfeed : '\n' ∉ line.toList)
    (hreturn : line.toList.getLast? ≠ some '\r') : lines (line ++ "\n") = [line] := by
  have hpiece : pieces (· == '\n') line.toList = [line.toList] :=
    pieces_of_forall_not fun c hc => beq_eq_false_iff_ne.2 fun heq => hfeed (heq ▸ hc)
  have hpieces : pieces (· == '\n') (line.toList ++ ['\n']) = [line.toList, []] := by
    rw [pieces_append (by rfl), hpiece]
    rfl
  have hline : linesOf (line.toList ++ ['\n']) = [line.toList] := by
    have hlast : [line.toList, []].getLast? = some [] := rfl
    unfold linesOf
    rw [hpieces]
    simp only [hlast, List.dropLast_cons_cons, List.dropLast_singleton, List.map_cons, List.map_nil]
    split
    · rename_i rest hreverse
      refine absurd ?_ hreturn
      rw [← List.head?_reverse, hreverse, List.head?_cons]
    · rfl
  have hfeed : "\n".toList = ['\n'] := rfl
  unfold lines
  rw [String.toList_append, hfeed, hline]
  simp

end TypeEnforcement.Text
