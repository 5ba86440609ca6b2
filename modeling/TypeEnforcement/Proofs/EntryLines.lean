/-
Entries of file-context files that are written into lines and read back.

A line has its pattern, its class and its label between blanks, so an entry is read back from its
line if its pattern and its label are words.

* `Label.IsReadable`, `FileContext.IsReadable` — labels and entries that are read back;
* `FileContext.body` — the line of an entry, without its line feed.

Main statements:
* `Label.parse?_text` — a readable label is read back from its text;
* `FileContext.parse?_body` — a readable entry is read back from its line;
* `FileContext.isWord_pattern_of_parse?` — every pattern that is read from a line is a word;
* `FileContext.parseAll_join` — readable entries are read back from their file.
-/
import TypeEnforcement.Label.FileContext
import TypeEnforcement.Proofs.Words

namespace TypeEnforcement

open Text (IsWord IsGap)

/-! ### Labels -/

namespace Label

/-- A label that is read back from its text, which is a word. -/
structure IsReadable (label : Label) : Prop where
  unblank : ∀ field ∈ [label.user, label.role, label.typeName, label.sensitivity,
    label.categories], ∀ c ∈ field.toList, Text.isBlank c = false ∧ c ≠ ':'
  /-- Categories are not written without a sensitivity. -/
  categories : label.sensitivity = "" → label.categories = ""

theorem IsReadable.isWord_text {label : Label} (h : label.IsReadable) : IsWord label.text := by
  have hfields := h.unblank
  simp only [List.forall_mem_cons] at hfields
  obtain ⟨huser, hrole, htype, hsensitivity, hcategories, -⟩ := hfields
  have hcolon : ∀ c ∈ ":".toList, Text.isBlank c = false := by decide
  have hcore : ∀ c ∈ (label.user ++ ":" ++ label.role ++ ":" ++ label.typeName).toList,
      Text.isBlank c = false := by
    simp only [String.toList_append, List.forall_mem_append]
    exact ⟨⟨⟨⟨fun c hc => (huser c hc).1, hcolon⟩, fun c hc => (hrole c hc).1⟩, hcolon⟩,
      fun c hc => (htype c hc).1⟩
  have hinner : ∀ c ∈ label.text.toList, Text.isBlank c = false := by
    unfold text
    simp only
    split
    · exact hcore
    · split
      · rw [String.toList_append, String.toList_append]
        simp only [List.forall_mem_append]
        exact ⟨⟨hcore, hcolon⟩, fun c hc => (hsensitivity c hc).1⟩
      · rw [String.toList_append, String.toList_append, String.toList_append, String.toList_append]
        simp only [List.forall_mem_append]
        exact ⟨⟨⟨⟨hcore, hcolon⟩, fun c hc => (hsensitivity c hc).1⟩, hcolon⟩,
          fun c hc => (hcategories c hc).1⟩
  refine ⟨fun hempty => ?_, hinner⟩
  -- Every label has a colon after its user.
  have hmem : ':' ∈ label.text.toList := by
    unfold text
    simp only
    split
    · simp [String.toList_append]
    · split <;> simp [String.toList_append]
  rw [hempty] at hmem
  cases hmem

/-- A label is read back from its text, if no field has a colon, no categories stand without a
sensitivity and the text has no blanks around it. -/
theorem parse?_text_of_trim {label : Label} (hfields : ∀ field ∈ [label.user, label.role,
      label.typeName, label.sensitivity, label.categories], ':' ∉ field.toList)
    (hbare : label.sensitivity = "" → label.categories = "")
    (htrim : Text.trim label.text = label.text) : parse? label.text = some label := by
  simp only [List.forall_mem_cons] at hfields
  obtain ⟨huser, hrole, htype, hsensitivity, hcategories, -⟩ := hfields
  have hcons {field : String} (hfield : ':' ∉ field.toList) (rest : String) :
      Text.split ':' (field ++ (":" ++ rest)) = field :: Text.split ':' rest := by
    rw [← String.append_assoc]
    exact Text.split_append hfield rest
  obtain ⟨user, role, typeName, sensitivity, categories⟩ := label
  unfold parse?
  rw [htrim]
  -- The text has three, four or five fields: a part that is empty is left out.
  by_cases hsensitive : sensitivity = ""
  · obtain rfl : categories = "" := hbare hsensitive
    subst hsensitive
    have hsplit : Text.split ':' (text ⟨user, role, typeName, "", ""⟩) =
        [user, role, typeName] := by
      simp only [text, if_true, String.append_assoc, hcons huser, hcons hrole,
        Text.split_of_not_mem htype]
    rw [hsplit]
  · by_cases hcategorized : categories = ""
    · subst hcategorized
      have hsplit : Text.split ':' (text ⟨user, role, typeName, sensitivity, ""⟩) =
          [user, role, typeName, sensitivity] := by
        simp only [text, if_neg hsensitive, if_true, String.append_assoc, hcons huser,
          hcons hrole, hcons htype, Text.split_of_not_mem hsensitivity]
      rw [hsplit]
    · have hsplit : Text.split ':' (text ⟨user, role, typeName, sensitivity, categories⟩) =
          [user, role, typeName, sensitivity, categories] := by
        simp only [text, if_neg hsensitive, if_neg hcategorized, String.append_assoc, hcons huser,
          hcons hrole, hcons htype, hcons hsensitivity, Text.split_of_not_mem hcategories]
      rw [hsplit]

/-- A readable label is read back from its text. -/
theorem parse?_text {label : Label} (h : label.IsReadable) : parse? label.text = some label :=
  parse?_text_of_trim (fun field hfield hcolon => (h.unblank field hfield ':' hcolon).2 rfl)
    h.categories (Text.trim_of_forall_not h.isWord_text.2)

end Label

/-! ### Lines -/

namespace FileContext

/-- An entry that is read back from its line. -/
structure IsReadable (entry : FileContext) : Prop where
  pattern : IsWord entry.pattern
  label : entry.label.IsReadable
  valid : entry.valid = (entry.matcher.isSome && decide (entry.label ≠ {}))

theorem bind_eq_self {entry : FileContext}
    (h : entry.valid = (entry.matcher.isSome && decide (entry.label ≠ {}))) :
    bind entry.pattern entry.fileClass entry.label = entry := by
  obtain ⟨pattern, fileClass, label, valid, matcher, rfl⟩ := entry
  obtain rfl : valid = ((Pattern.compile pattern).isSome && decide (label ≠ {})) := h
  rfl

/-- The line of an entry, without its line feed. -/
def body (entry : FileContext) : String :=
  let sign := if entry.fileClass = .any then "  " else entry.fileClass.sign
  entry.pattern ++ "\t" ++ (sign ++ "\t" ++ entry.label.text)

theorem line_eq_body (entry : FileContext) : entry.line = entry.body ++ "\n" := by
  unfold line body
  cases entry.fileClass <;> simp only [FileClass.sign, String.append_assoc] <;> rfl

theorem isWord_sign {c : FileClass} (h : c ≠ .any) : IsWord c.sign := by
  cases c with
  | any => exact absurd rfl h
  | _ => decide

theorem words_body {entry : FileContext} (hpattern : IsWord entry.pattern)
    (hlabel : IsWord entry.label.text) :
    Text.words entry.body = if entry.fileClass = .any then [entry.pattern, entry.label.text]
      else [entry.pattern, entry.fileClass.sign, entry.label.text] := by
  have hgap : IsGap "\t" := by decide
  unfold body
  simp only
  split
  · -- Without a class there is one gap.
    have hwide : ∀ c ∈ ("  " ++ "\t").toList, Text.isBlank c = true := by decide
    rw [Text.words_cons hpattern hgap, Text.words_blanks_append hwide, Text.words_of_isWord hlabel]
  · rename_i hclass
    rw [Text.words_cons hpattern hgap, Text.words_cons (isWord_sign hclass) hgap,
      Text.words_of_isWord hlabel]

/-- A readable entry is read back from its line. -/
theorem parse?_body {entry : FileContext} (h : entry.IsReadable) :
    parse? entry.body = some entry := by
  have hwords := words_body h.pattern h.label.isWord_text
  have hlabel := Label.parse?_text h.label
  have hself := bind_eq_self h.valid
  unfold parse?
  by_cases hclass : entry.fileClass = .any
  · rw [if_pos hclass] at hwords
    rw [hclass] at hself
    simp only [hwords, hlabel, hself]
  · rw [if_neg hclass] at hwords
    simp only [hwords, hlabel, FileClass.ofSign?_sign hclass, Option.map_some, hself]

/-- Every pattern that is read from a line is a word. -/
theorem isWord_pattern_of_parse? {line : String} {entry : FileContext}
    (h : parse? line = some entry) : IsWord entry.pattern := by
  unfold parse? at h
  simp only at h
  split at h
  · rename_i pattern text hwords
    have hpattern : IsWord pattern := Text.isWord_of_mem_words (hwords ▸ List.mem_cons_self)
    obtain rfl := Option.some.inj h
    split <;> exact hpattern
  · rename_i pattern sign text hwords
    have hpattern : IsWord pattern := Text.isWord_of_mem_words (hwords ▸ List.mem_cons_self)
    obtain ⟨fileClass, -, rfl⟩ := Option.map_eq_some_iff.1 h
    split <;> exact hpattern
  · cases h

/-! ### Files -/

theorem isWord_pattern_of_mem_parseAll {text : String} {entry : FileContext}
    (h : entry ∈ parseAll text) : IsWord entry.pattern := by
  obtain ⟨line, -, hparse⟩ := List.mem_filterMap.1 h
  exact isWord_pattern_of_parse? hparse

theorem parseAll_append (front rest : String) :
    parseAll (front ++ "\n" ++ rest) = parseAll (front ++ "\n") ++ parseAll rest := by
  unfold parseAll
  rw [Text.lines_append, List.filter_append, List.filterMap_append]

theorem newline_not_mem_body {entry : FileContext} (h : entry.IsReadable) :
    '\n' ∉ entry.body.toList := by
  have hword {word : String} (hword : IsWord word) : '\n' ∉ word.toList := fun hmem =>
    absurd (hword.2 '\n' hmem) (by decide)
  have hsign : '\n' ∉ (if entry.fileClass = .any then "  " else entry.fileClass.sign).toList := by
    split
    · decide
    · rename_i hclass
      exact hword (isWord_sign hclass)
  unfold body
  simp only [String.toList_append, List.mem_append, not_or]
  exact ⟨⟨hword h.pattern, by decide⟩, ⟨hsign, by decide⟩, hword h.label.isWord_text⟩

/-- A line that begins with a pattern, which is no comment, is the line of its entry. -/
theorem parseAll_line {entry : FileContext} (h : entry.IsReadable)
    (hcomment : entry.pattern.front ≠ '#') : parseAll entry.line = [entry] := by
  obtain ⟨first, rest, hfirst⟩ := List.exists_cons_of_ne_nil h.pattern.toList_ne_nil
  have hfront {text : String} {others : List Char} (htext : text.toList = first :: others) :
      text.front = first := by
    rw [String.front_eq, String.front?_eq, htext]
    rfl
  obtain ⟨others, hbody⟩ : ∃ others, entry.body.toList = first :: others := by
    unfold body
    rw [String.toList_append, String.toList_append, hfirst]
    exact ⟨_, rfl⟩
  -- The line ends in its label, so no carriage return is cut from its end.
  have hlines : Text.lines entry.line = [entry.body] := by
    rw [line_eq_body]
    refine Text.lines_line (newline_not_mem_body h) fun hlast => ?_
    have hlabel := h.label.isWord_text
    obtain ⟨start, hstart⟩ : ∃ start, entry.body.toList = start ++ entry.label.text.toList := by
      simp only [body, String.toList_append, ← List.append_assoc]
      exact ⟨_, rfl⟩
    rw [hstart, List.getLast?_append_of_ne_nil _ hlabel.toList_ne_nil] at hlast
    exact absurd (hlabel.2 '\r' (List.mem_of_getLast? hlast)) (by decide)
  have hempty : entry.body ≠ "" := fun hempty => by
    rw [← String.toList_eq_nil_iff, hbody] at hempty
    cases hempty
  unfold parseAll
  rw [hlines, List.filter_cons_of_pos, List.filter_nil, List.filterMap_cons_some (parse?_body h),
    List.filterMap_nil]
  rw [hfront hbody, ← hfront hfirst]
  simpa [hempty] using hcomment

/-- Readable entries are read back from their file. -/
theorem parseAll_join {entries : List FileContext} (h : ∀ entry ∈ entries, entry.IsReadable)
    (hcomment : ∀ entry ∈ entries, entry.pattern.front ≠ '#') :
    parseAll (String.join (entries.map line)) = entries := by
  induction entries with
  | nil => rfl
  | cons entry entries ih =>
    rw [List.forall_mem_cons] at h hcomment
    rw [List.map_cons, String.join_cons, line_eq_body, parseAll_append, ← line_eq_body,
      parseAll_line h.1 hcomment.1, ih h.2 hcomment.2, List.singleton_append]

end FileContext

end TypeEnforcement
