/-
Entries of file-context files that are read, written and read again.

A label is written with its fields between colons.  Empty fields at the end are left out, and so are
categories without a sensitivity, although they are read.  A line has nothing else to lose: its
pattern and its class come back as they were, and its label as far as it is written.

* `Label.written` — what the text of a label says of it.

Main statements:
* `Text.intercalate_split` — the pieces of a text, with the separators put back between them;
* `Label.exists_trim_eq` — a label that is read from a text is written as a beginning of it;
* `Label.parse?_text_iff` — which labels are read back from their texts;
* `FileContext.parse?_line` — what is read from the line of an entry that was read from a line;
* `reread_iff` — which entries and which labels come back unchanged;
* `bareCategories_not_reread` — an entry whose label has categories without a sensitivity.
-/
import TypeEnforcement.Proofs.EntryLines

namespace TypeEnforcement

/-! ### Texts cut and trimmed -/

namespace Text

/-- The pieces of a text, with the separators put back between them, are the text. -/
theorem intercalate_split (sep : Char) (text : String) :
    (String.singleton sep).intercalate (split sep text) = text := by
  have hpieces (chars : List Char) : ((String.singleton sep).intercalate
      ((pieces (· == sep) chars).map String.ofList)).toList = chars := by
    induction chars with
    | nil => rfl
    | cons c rest ih =>
      obtain ⟨piece, others, hrest⟩ := List.exists_cons_of_ne_nil (pieces_ne_nil (· == sep) rest)
      rw [hrest, List.map_cons] at ih
      rw [pieces]
      by_cases hc : (c == sep) = true
      · obtain rfl : c = sep := beq_iff_eq.1 hc
        rw [if_pos hc, hrest, List.map_cons, List.map_cons, String.intercalate_cons_cons,
          String.toList_append, String.toList_append, ih]
        simp
      · rw [if_neg hc, hrest, List.map_cons, String.ofList_cons]
        -- The first piece has one character more, whatever comes after it.
        cases others with
        | nil =>
          rw [List.map_nil, String.intercalate_singleton] at ih ⊢
          rw [String.toList_append, ih, String.toList_singleton, List.singleton_append]
        | cons other others =>
          rw [List.map_cons, String.intercalate_cons_cons] at ih ⊢
          simp only [String.toList_append, String.toList_singleton, List.append_assoc,
            List.singleton_append] at ih ⊢
          rw [List.cons_append, ih]
  rw [← String.toList_inj, split, hpieces]

/-- Nothing is longer when it is trimmed. -/
theorem length_trim_le (text : String) : (trim text).toList.length ≤ text.toList.length := by
  rw [trim, String.toList_ofList]
  have hend : trimBlanks text.toList <+: trimStart isBlank text.toList :=
    List.rdropWhile_prefix isBlank (trimStart isBlank text.toList)
  have hstart : trimStart isBlank text.toList <:+ text.toList :=
    List.dropWhile_suffix isBlank
  exact hend.length_le.trans hstart.length_le

end Text

/-! ### Labels -/

namespace Label

variable {text : String} {label : Label}

/-- What the text of a label says of it: categories are not written without a sensitivity. -/
def written (label : Label) : Label :=
  if label.sensitivity = "" then { label with categories := "" } else label

theorem text_written (label : Label) : label.written.text = label.text := by
  unfold written
  split
  · rename_i hbare
    simp only [Label.text, hbare, if_true]
  · rfl

theorem written_eq_self_iff :
    label.written = label ↔ (label.sensitivity = "" → label.categories = "") := by
  unfold written
  obtain ⟨user, role, typeName, sensitivity, categories⟩ := label
  by_cases hbare : sensitivity = ""
  · simp only [hbare, if_true, mk.injEq, true_and, forall_const]
    exact eq_comm
  · simp [hbare]

/-- No field that is read has a colon, and every character of it comes from the text. -/
theorem forall_fields_of_parse? (h : parse? text = some label) :
    ∀ field ∈ [label.user, label.role, label.typeName, label.sensitivity, label.categories],
      ':' ∉ field.toList ∧ ∀ c ∈ field.toList, c ∈ (Text.trim text).toList := by
  have hpiece : ∀ field ∈ Text.split ':' (Text.trim text),
      ':' ∉ field.toList ∧ ∀ c ∈ field.toList, c ∈ (Text.trim text).toList := by
    intro field hfield
    refine ⟨Text.not_mem_of_mem_split hfield, fun c hc => ?_⟩
    obtain ⟨piece, hpiece, rfl⟩ := List.mem_map.1 hfield
    rw [String.toList_ofList] at hc
    exact Text.mem_of_mem_pieces hpiece hc
  have hmissing : ':' ∉ "".toList ∧ ∀ c ∈ "".toList, c ∈ (Text.trim text).toList := by simp
  unfold parse? at h
  split at h
  · rename_i user role typeName hsplit
    rw [hsplit] at hpiece
    cases h
    simp only [List.forall_mem_cons] at hpiece ⊢
    exact ⟨hpiece.1, hpiece.2.1, hpiece.2.2.1, hmissing, hmissing, by simp⟩
  · rename_i user role typeName sensitivity hsplit
    rw [hsplit] at hpiece
    cases h
    simp only [List.forall_mem_cons] at hpiece ⊢
    exact ⟨hpiece.1, hpiece.2.1, hpiece.2.2.1, hpiece.2.2.2.1, hmissing, by simp⟩
  · rename_i user role typeName sensitivity categories hsplit
    rw [hsplit] at hpiece
    cases h
    exact hpiece
  · cases h

/-- A label that is read from a text is written as a beginning of it.  If that is the whole text, no
categories stand without a sensitivity. -/
theorem exists_trim_eq (h : parse? text = some label) :
    ∃ rest, Text.trim text = label.text ++ rest ∧
      (rest = "" → label.sensitivity = "" → label.categories = "") := by
  have hjoined := Text.intercalate_split ':' (Text.trim text)
  have hcolon : String.singleton ':' = ":" := rfl
  rw [hcolon] at hjoined
  unfold parse? at h
  split at h
  · rename_i user role typeName hsplit
    rw [hsplit, String.intercalate_cons_cons, String.intercalate_cons_cons,
      String.intercalate_singleton] at hjoined
    cases h
    refine ⟨"", ?_, fun _ _ => rfl⟩
    rw [← hjoined, String.append_empty]
    simp only [Label.text, if_true, String.append_assoc]
  · rename_i user role typeName sensitivity hsplit
    rw [hsplit, String.intercalate_cons_cons, String.intercalate_cons_cons,
      String.intercalate_cons_cons, String.intercalate_singleton] at hjoined
    cases h
    -- An empty last field leaves its colon unwritten.
    refine ⟨if sensitivity = "" then ":" else "", ?_, fun _ _ => rfl⟩
    rw [← hjoined]
    by_cases hbare : sensitivity = ""
    · simp only [Label.text, hbare, if_true, String.append_assoc, String.append_empty]
    · simp only [Label.text, hbare, if_false, if_true, String.append_assoc, String.append_empty]
  · rename_i user role typeName sensitivity categories hsplit
    rw [hsplit, String.intercalate_cons_cons, String.intercalate_cons_cons,
      String.intercalate_cons_cons, String.intercalate_cons_cons, String.intercalate_singleton]
      at hjoined
    cases h
    rw [← hjoined]
    by_cases hbare : sensitivity = ""
    · -- Without a sensitivity the categories are not written either.
      refine ⟨":" ++ (":" ++ categories), ?_, fun hnone => ?_⟩
      · simp only [Label.text, hbare, if_true, String.append_assoc, String.empty_append]
      · simp [← String.toList_inj] at hnone
    · by_cases hnone : categories = ""
      · refine ⟨":", ?_, fun _ _ => hnone⟩
        simp only [Label.text, hbare, hnone, if_false, if_true, String.append_assoc,
          String.append_empty]
      · refine ⟨"", ?_, fun _ hsensitivity => absurd hsensitivity hbare⟩
        simp only [Label.text, hbare, hnone, if_false, String.append_assoc, String.append_empty]
  · cases h

/-- A label that was read is read back from its text just if no categories stand without a
sensitivity and the last field that is written does not end in a blank. -/
theorem parse?_text_iff (h : parse? text = some label) :
    parse? label.text = some label ↔
      (label.sensitivity = "" → label.categories = "") ∧ Text.trim label.text = label.text := by
  constructor
  · intro hagain
    obtain ⟨rest, htrim, hrest⟩ := exists_trim_eq hagain
    have hlength := Text.length_trim_le label.text
    rw [htrim, String.toList_append, List.length_append] at hlength
    obtain rfl : rest = "" := by
      rw [← String.toList_eq_nil_iff, ← List.length_eq_zero_iff]
      omega
    exact ⟨hrest rfl, by rw [htrim, String.append_empty]⟩
  · rintro ⟨hbare, htrim⟩
    exact parse?_text_of_trim (fun field hfield => (forall_fields_of_parse? h field hfield).1)
      hbare htrim

/-- What is written of a label that was read from a word can be read back. -/
theorem isReadable_written (hword : Text.IsWord text) (h : parse? text = some label) :
    label.written.IsReadable := by
  have hfields : ∀ field ∈ [label.user, label.role, label.typeName, label.sensitivity,
      label.categories], ∀ c ∈ field.toList, Text.isBlank c = false ∧ c ≠ ':' := by
    intro field hfield c hc
    obtain ⟨hcolon, hmem⟩ := forall_fields_of_parse? h field hfield
    rw [Text.trim_of_forall_not hword.2] at hmem
    exact ⟨hword.2 c (hmem c hc), fun heq => hcolon (heq ▸ hc)⟩
  unfold written
  split
  · rename_i hbare
    simp only [List.forall_mem_cons] at hfields
    obtain ⟨huser, hrole, htype, hsensitivity, -, -⟩ := hfields
    refine ⟨?_, fun _ => rfl⟩
    simp only [List.forall_mem_cons]
    exact ⟨huser, hrole, htype, hsensitivity, by simp, by simp⟩
  · rename_i hsensitive
    exact ⟨hfields, fun hbare => absurd hbare hsensitive⟩

end Label

/-! ### Entries -/

namespace FileContext

variable {line text : String} {entry : FileContext} {label : Label}

/-- The last word of a line that is an entry is the text of its label. -/
theorem eq_bind_of_parse? (h : parse? line = some entry)
    (htext : (Text.words line).getLast? = some text) (hlabel : Label.parse? text = some label) :
    entry = bind entry.pattern entry.fileClass label := by
  unfold parse? at h
  dsimp only at h
  split at h
  · rename_i pattern word hwords
    rw [hwords] at htext
    obtain rfl : word = text := by simpa using htext
    rw [hlabel] at h
    cases h
    rfl
  · rename_i pattern sign word hwords
    rw [hwords] at htext
    obtain rfl : word = text := by simpa using htext
    obtain ⟨fileClass, -, rfl⟩ := Option.map_eq_some_iff.1 h
    rw [hlabel]
    rfl
  · cases h

/-- What is read from the line of an entry that was read from a line has the pattern and the class
of the entry, and what is written of its label. -/
theorem parse?_line (h : parse? line = some entry)
    (htext : (Text.words line).getLast? = some text) (hlabel : Label.parse? text = some label) :
    parse? entry.line = some (bind entry.pattern entry.fileClass label.written) := by
  have hentry := eq_bind_of_parse? h htext hlabel
  have hword : Text.IsWord text := Text.isWord_of_mem_words (List.mem_of_getLast? htext)
  -- The line says the same of the entry with the label as it is written.
  have hline : entry.line = (bind entry.pattern entry.fileClass label.written).body ++ "\n" := by
    rw [hentry, line_eq_body]
    show (entry.pattern ++ "\t" ++ (_ ++ "\t" ++ label.text)) ++ "\n" =
      (entry.pattern ++ "\t" ++ (_ ++ "\t" ++ label.written.text)) ++ "\n"
    rw [Label.text_written]
    rfl
  have hbody : parse? ((bind entry.pattern entry.fileClass label.written).body ++ "\n") =
      parse? (bind entry.pattern entry.fileClass label.written).body := by
    unfold parse?
    rw [Text.words_append_blanks (by decide)]
  rw [hline, hbody]
  exact parse?_body
    { pattern := show Text.IsWord entry.pattern from isWord_pattern_of_parse? h
      label := Label.isReadable_written hword hlabel
      valid := rfl }

/-- A label that is read from a text comes back from its own text just if no categories stand
without a sensitivity and the last field that is written does not end in a blank.  An entry that is
read from a line with that label comes back from its own line with its pattern and its class, and
with its label as far as that is written; so it comes back as it was just if no categories stand
without a sensitivity. -/
theorem reread_iff (hlabel : Label.parse? text = some label) :
    (Label.parse? label.text = some label ↔
      (label.sensitivity = "" → label.categories = "") ∧ Text.trim label.text = label.text) ∧
    ∀ line entry, parse? line = some entry → (Text.words line).getLast? = some text →
      entry.label = label ∧
      parse? entry.line = some (bind entry.pattern entry.fileClass label.written) ∧
      (parse? entry.line = some entry ↔ (label.sensitivity = "" → label.categories = "")) := by
  refine ⟨Label.parse?_text_iff hlabel, ?_⟩
  intro line entry h htext
  have hentry := eq_bind_of_parse? h htext hlabel
  have hline := parse?_line h htext hlabel
  refine ⟨congrArg FileContext.label hentry, hline, ?_⟩
  rw [hline, ← Label.written_eq_self_iff, Option.some.injEq]
  constructor
  · intro hself
    exact congrArg FileContext.label (hself.trans hentry)
  · intro hwritten
    rw [hwritten]
    exact hentry.symm

/-- A directory with all five fields, and a label with two empty fields at its end. -/
theorem fullLabel_reread :
    let full := "/srv(/.*)?  -d\tsystem_u:object_r:srv_t:s0-s0:c0.c9"
    let short := " user:role:type::"
    (∃ entry, parse? full = some entry ∧ parse? entry.line = some entry) ∧
    ∃ label, Label.parse? short = some label ∧ Label.parse? label.text = some label := by
  intro full short
  have hentry : (parse? full).isSome = true := by decide +kernel
  have hlast : (Text.words full).getLast? = some "system_u:object_r:srv_t:s0-s0:c0.c9" := by
    decide +kernel
  have hfull : Label.parse? "system_u:object_r:srv_t:s0-s0:c0.c9" =
      some ⟨"system_u", "object_r", "srv_t", "s0-s0", "c0.c9"⟩ := by decide +kernel
  have hshort : Label.parse? short = some ⟨"user", "role", "type", "", ""⟩ := by decide +kernel
  have htrim : Text.trim (Label.text ⟨"user", "role", "type", "", ""⟩) =
      Label.text ⟨"user", "role", "type", "", ""⟩ := by decide +kernel
  obtain ⟨entry, hentry⟩ := Option.isSome_iff_exists.1 hentry
  obtain ⟨-, hlines⟩ := reread_iff hfull
  obtain ⟨-, -, hself⟩ := hlines full entry hentry hlast
  obtain ⟨hlabel, -⟩ := reread_iff hshort
  exact ⟨⟨entry, hentry, hself.2 (by decide)⟩, ⟨_, hshort, hlabel.2 ⟨fun _ => rfl, htrim⟩⟩⟩

/-- Categories without a sensitivity are read and not written, so another label comes back; and a
blank before the last colon comes to the end of the text, where it does not count. -/
theorem bareCategories_not_reread :
    (∃ entry again, parse? "/x\tu:r:t::c0" = some entry ∧
      Label.parse? "u:r:t::c0" = some entry.label ∧ entry.label.categories = "c0" ∧
      parse? entry.line = some again ∧ again.label.categories = "") ∧
    ∃ label, Label.parse? "u:r:t :" = some label ∧ Label.parse? label.text ≠ some label := by
  have hanswer : (parse? "/x\tu:r:t::c0").any (fun entry =>
      Label.parse? "u:r:t::c0" = some entry.label && entry.label.categories = "c0" &&
        (parse? entry.line).any (·.label.categories = "")) = true := by
    decide +kernel
  obtain ⟨entry, hentry, hlabels⟩ := (Option.any_eq_true _ _).1 hanswer
  rw [Bool.and_eq_true, Bool.and_eq_true, decide_eq_true_eq, decide_eq_true_eq] at hlabels
  obtain ⟨⟨hlabel, hcategories⟩, hagain⟩ := hlabels
  obtain ⟨again, hagain, hnone⟩ := (Option.any_eq_true _ _).1 hagain
  exact ⟨⟨entry, again, hentry, hlabel, hcategories, hagain, of_decide_eq_true hnone⟩,
    ⟨⟨"u", "r", "t ", "", ""⟩, by decide +kernel, by decide +kernel⟩⟩

end FileContext

end TypeEnforcement
