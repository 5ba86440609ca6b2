/-
Rules that are written as statements and read back.

A statement has its names between blanks, with a colon before the class.  So what is read from a
statement has names that are words without a colon, and a rule whose names are of this kind is read
back from its statement.

* `AccessRule.IsReadable`, `TransitionRule.IsReadable`, `Rule.IsReadable` — rules that are read
  back;
* `Rule.statement` — the statement of a rule, without its line feed;
* `Rule.IsPlainName` — names that no way of reading a statement can take apart.

Main statements:
* `isReadable_of_parse` — every rule that is read from a statement is readable;
* `parse_statement` — a readable rule is read back from its statement;
* `parse_statement_iff` — no other rule is;
* `text_canonical` — the text of what is read is read again, and written as before.
-/
import TypeEnforcement.Proofs.Words
import TypeEnforcement.Rule.Basic

namespace TypeEnforcement

/-! ### The permissions of a list -/

namespace Actions

theorem mem_of_mem_toList_ofList {names : List String} {name : String}
    (h : name ∈ (ofList names).toList) : name ∈ names := by
  unfold ofList at h
  split at h
  · rename_i hstar
    obtain rfl := List.mem_singleton.1 h
    exact hstar
  · exact NameSet.mem_ofList.1 (NameSet.mem_toList.1 h)

theorem toList_ofList_ne_nil {names : List String} (h : names ≠ []) :
    (ofList names).toList ≠ [] := by
  obtain ⟨name, hname⟩ := List.exists_mem_of_ne_nil names h
  unfold ofList
  split
  · exact List.cons_ne_nil _ _
  · exact List.ne_nil_of_mem (NameSet.mem_toList.2 (NameSet.mem_ofList.2 hname))

end Actions

/-! ### Readable rules -/

namespace Rule

/-- A name that statements can hold: a word without a colon. -/
def IsName (name : String) : Prop :=
  Text.IsWord name ∧ ':' ∉ name.toList

/-- The name of a permission that statements can hold. -/
def IsPermission (name : String) : Prop :=
  IsName name ∧ withoutBraces name = name

/-- The name of an object that statements can hold, between its quotation marks. -/
def IsQuotable (name : String) : Prop :=
  IsName name ∧ Text.trimChar '"' name = name

instance (name : String) : Decidable (IsName name) :=
  inferInstanceAs (Decidable (_ ∧ _))

instance (name : String) : Decidable (IsPermission name) :=
  inferInstanceAs (Decidable (_ ∧ _))

instance (name : String) : Decidable (IsQuotable name) :=
  inferInstanceAs (Decidable (_ ∧ _))

end Rule

open Rule (IsName IsPermission IsQuotable)

/-- An access rule that is read back from its statement. -/
structure AccessRule.IsReadable (rule : AccessRule) : Prop where
  subject : IsName rule.subject
  object : IsName rule.object
  className : IsName rule.className
  nonempty : rule.actions.toList ≠ []
  permission : ∀ permission ∈ rule.actions.toList, IsPermission permission

/-- A transition rule that is read back from its statement. -/
structure TransitionRule.IsReadable (rule : TransitionRule) : Prop where
  subject : IsName rule.subject
  object : IsName rule.object
  className : IsName rule.className
  target : IsName rule.target
  name : ∀ name ∈ rule.name, IsQuotable name

namespace Rule

/-- A rule that is read back from its statement. -/
def IsReadable : Rule → Prop
  | access rule => rule.IsReadable
  | transition rule => rule.IsReadable

/-! ### What is read is readable -/

theorem isName_of_sides? {line : String} {front back : List String}
    (h : sides? line = some (front, back)) : ∀ word ∈ front ++ back, IsName word := by
  unfold sides? at h
  simp only at h
  split at h
  · rename_i head tail hsplit
    obtain ⟨rfl, rfl⟩ := Prod.mk.inj (Option.some.inj h)
    have hside {side word : String} (hside : side ∈ [head, tail]) (hword : word ∈ Text.words side) :
        IsName word := by
      rw [← hsplit] at hside
      exact ⟨Text.isWord_of_mem_words hword, fun hcolon =>
        Text.not_mem_of_mem_split hside (Text.mem_of_mem_words hword hcolon)⟩
    intro word hword
    rcases List.mem_append.1 hword with hword | hword
    · exact hside List.mem_cons_self hword
    · exact hside (List.mem_cons_of_mem _ List.mem_cons_self) hword
  · cases h

/-- A name keeps its kind when characters are taken off its ends, if any are left. -/
theorem IsName.trimChars {name : String} (h : IsName name) {p q : Char → Bool}
    (hne : String.ofList (Text.trimChars p q name.toList) ≠ "") :
    IsName (String.ofList (Text.trimChars p q name.toList)) := by
  refine ⟨⟨hne, fun c hc => ?_⟩, fun hcolon => ?_⟩
  · rw [String.toList_ofList] at hc
    exact h.1.2 c (Text.mem_of_mem_trimChars hc)
  · rw [String.toList_ofList] at hcolon
    exact h.2 (Text.mem_of_mem_trimChars hcolon)

theorem isPermission_withoutBraces {word : String} (h : IsName word)
    (hne : withoutBraces word ≠ "") : IsPermission (withoutBraces word) := by
  refine ⟨h.trimChars hne, ?_⟩
  unfold withoutBraces
  rw [String.toList_ofList]
  exact congrArg String.ofList (Text.trimChars_trimChars _ _ word.toList)

theorem isQuotable_trimChar {word : String} (h : IsName word) (hne : Text.trimChar '"' word ≠ "") :
    IsQuotable (Text.trimChar '"' word) := by
  refine ⟨h.trimChars hne, ?_⟩
  unfold Text.trimChar
  rw [String.toList_ofList]
  exact congrArg String.ofList (Text.trimChars_trimChars _ _ word.toList)

theorem isReadable_of_parseAccess? {line : String} {rule : AccessRule}
    (h : parseAccess? line = some rule) : rule.IsReadable := by
  unfold parseAccess? at h
  obtain ⟨⟨front, back⟩, hsides, h⟩ := Option.bind_eq_some_iff.1 h
  have hnames := isName_of_sides? hsides
  split at h
  · rename_i kind subject object className words heq
    obtain ⟨rfl, rfl⟩ := Prod.mk.inj heq
    simp only [List.cons_append, List.nil_append, List.forall_mem_cons] at hnames
    obtain ⟨-, hsubject, hobject, hclass, hwords⟩ := hnames
    obtain ⟨kind, -, h⟩ := Option.bind_eq_some_iff.1 h
    simp only at h
    split at h
    · cases h
    · rename_i hpermissions
      cases h
      refine ⟨hsubject, hobject, hclass, Actions.toList_ofList_ne_nil hpermissions,
        fun permission hmem => ?_⟩
      obtain ⟨hmem, hne⟩ := List.mem_filter.1 (Actions.mem_of_mem_toList_ofList hmem)
      obtain ⟨word, hword, rfl⟩ := List.mem_map.1 hmem
      exact isPermission_withoutBraces (hwords word hword) (of_decide_eq_true hne)
  · cases h

theorem mem_name_make {subject object className target name : String} {given : Option String} :
    name ∈ (TransitionRule.make subject object className target given).name ↔
      name ∈ given ∧ name ≠ "" := by
  simp [TransitionRule.make]

theorem isReadable_of_parseTransition? {line : String} {rule : TransitionRule}
    (h : parseTransition? line = some rule) : rule.IsReadable := by
  unfold parseTransition? at h
  obtain ⟨⟨front, back⟩, hsides, h⟩ := Option.bind_eq_some_iff.1 h
  have hnames := isName_of_sides? hsides
  split at h
  · rename_i subject object className target heq
    obtain ⟨rfl, rfl⟩ := Prod.mk.inj heq
    obtain rfl := Option.some.inj h
    simp only [List.cons_append, List.nil_append, List.forall_mem_cons] at hnames
    obtain ⟨-, hsubject, hobject, hclass, htarget, -⟩ := hnames
    exact ⟨hsubject, hobject, hclass, htarget, fun _ hname =>
      absurd (mem_name_make.1 hname).1 (Option.not_mem_none _)⟩
  · rename_i subject object className target word rest heq
    obtain ⟨rfl, rfl⟩ := Prod.mk.inj heq
    obtain rfl := Option.some.inj h
    simp only [List.cons_append, List.nil_append, List.forall_mem_cons] at hnames
    obtain ⟨-, hsubject, hobject, hclass, htarget, hword, -⟩ := hnames
    refine ⟨hsubject, hobject, hclass, htarget, fun name hname => ?_⟩
    obtain ⟨hname, hne⟩ := mem_name_make.1 hname
    obtain rfl := Option.mem_some_iff.1 hname
    exact isQuotable_trimChar hword hne
  · cases h

/-- Every rule that is read from a statement is readable. -/
theorem isReadable_of_parse {line : String} {rule : Rule} (h : parse line = .ok rule) :
    rule.IsReadable := by
  unfold parse at h
  simp only at h
  split at h
  · split at h
    · rename_i hparse
      cases h
      exact isReadable_of_parseTransition? hparse
    · cases h
  · split at h
    · cases h
    · split at h
      · rename_i hparse
        cases h
        exact isReadable_of_parseAccess? hparse
      · cases h
  · cases h

/-! ### What is readable is read -/

/-- The word that a statement begins with. -/
def keyword : Rule → String
  | access rule => rule.kind.keyword
  | transition _ => "type_transition"

/-- The part of a statement before its colon. -/
def front : Rule → String
  | access rule => rule.kind.keyword ++ " " ++ (rule.subject ++ " " ++ rule.object)
  | transition rule => "type_transition" ++ " " ++ (rule.subject ++ " " ++ rule.object)

theorem front_access (rule : AccessRule) :
    (access rule).front = rule.kind.keyword ++ " " ++ (rule.subject ++ " " ++ rule.object) :=
  rfl

theorem front_transition (rule : TransitionRule) :
    (transition rule).front = "type_transition" ++ " " ++ (rule.subject ++ " " ++ rule.object) :=
  rfl

/-- The part of a statement after its colon. -/
def back : Rule → String
  | access rule => rule.className ++ " " ++ rule.actions.text
  | transition rule => rule.className ++ " " ++ (rule.target ++
      rule.name.elim "" fun name => " " ++ ("\"" ++ name ++ "\""))

/-- The statement of a rule, without its line feed. -/
def statement (rule : Rule) : String :=
  rule.front ++ " : " ++ rule.back ++ ";"

theorem text_eq_statement (rule : Rule) : rule.text = rule.statement ++ "\n" := by
  have hend : ";\n" = ";" ++ "\n" := rfl
  cases rule with
  | access rule =>
    rw [text, AccessRule.text, hend, statement, front_access, back]
    simp only [String.append_assoc]
  | transition rule =>
    have hquote : "\";\n" = "\"" ++ (";" ++ "\n") := rfl
    have hopen : " \"" = " " ++ "\"" := rfl
    have hkeyword : "type_transition " = "type_transition" ++ " " := rfl
    rw [text, TransitionRule.text, statement, front_transition, back]
    split
    · rename_i name hname
      rw [hname, Option.elim_some, hquote, hopen, hkeyword]
      simp only [String.append_assoc]
    · rename_i hname
      rw [hname, Option.elim_none, hend, hkeyword, String.append_empty]
      simp only [String.append_assoc]

theorem isName_keyword (rule : Rule) : IsName rule.keyword := by
  cases rule with
  | access rule => cases h : rule.kind <;> simp only [keyword, h, AccessKind.keyword] <;> decide
  | transition rule =>
    rw [keyword]
    decide

/-- The two sides of a statement, with blanks behind it. -/
theorem sides?_append {front back blanks : String} {first : Char}
    (hfirst : front.toList.head? = some first) (hinner : Text.isBlank first = false)
    (hfront : ':' ∉ front.toList) (hback : ':' ∉ back.toList)
    (hblanks : ∀ c ∈ blanks.toList, Text.isBlank c = true) :
    sides? (front ++ " : " ++ back ++ ";" ++ blanks) =
      some (Text.words front, Text.words back) := by
  have hhead : (front ++ " : " ++ back ++ ";").toList.head? = some first := by
    simp only [String.toList_append, List.append_assoc, List.head?_append, hfirst, Option.some_or]
  have hlast : (front ++ " : " ++ back ++ ";").toList.getLast? = some ';' := by
    rw [String.toList_append]
    exact List.getLast?_append_of_ne_nil _ (List.cons_ne_nil _ _)
  have htrim : Text.trim (front ++ " : " ++ back ++ ";" ++ blanks) =
      front ++ " : " ++ back ++ ";" :=
    Text.trim_append_gap hhead hlast ⟨hinner, by rfl⟩ hblanks
  have hend : Text.beforeEnd? ";" (front ++ " : " ++ back ++ ";") =
      some (front ++ " : " ++ back) := by
    have hdrop : Text.dropEnd? ";".toList (front ++ " : " ++ back ++ ";").toList =
        some (front ++ " : " ++ back).toList :=
      Text.dropEnd?_eq_some_iff.2 String.toList_append
    rw [Text.beforeEnd?, hdrop, Option.map_some, String.ofList_toList]
  have hcolon : front ++ " : " ++ back =
      (front ++ " ") ++ String.singleton ':' ++ (" " ++ back) := by
    have hmiddle : " : " = " " ++ (String.singleton ':' ++ " ") := rfl
    rw [hmiddle]
    simp only [String.append_assoc]
  have hsplit : Text.split ':' (front ++ " : " ++ back) = [front ++ " ", " " ++ back] := by
    rw [hcolon, Text.split_append, Text.split_of_not_mem]
    · simpa [String.toList_append] using hback
    · simpa [String.toList_append] using hfront
  have hspace : ∀ c ∈ " ".toList, Text.isBlank c = true := by decide
  unfold sides?
  simp only [htrim, hend, Option.getD_some, hsplit, Text.words_append_blanks hspace,
    Text.words_blanks_append hspace]

/-- The words of a list of permissions, without their braces. -/
theorem permissions_text {actions : Actions} (hnonempty : actions.toList ≠ [])
    (h : ∀ permission ∈ actions.toList, IsPermission permission) :
    ((Text.words actions.text).map withoutBraces).filter (· ≠ "") = actions.toList := by
  cases actions with
  | all => decide
  | only names hstar =>
    have hnames : ∀ name ∈ names.toList, IsPermission name := h
    have hgap : Text.IsGap " " := by decide
    have hwords : Text.words (Actions.only names hstar).text =
        "\x7b" :: (names.toList ++ ["\x7d"]) := by
      have hclosing : " \x7d" = " " ++ "\x7d" := rfl
      have hopening : "\x7b " = "\x7b" ++ " " := rfl
      rw [Actions.text, hclosing, hopening, ← String.append_assoc, Text.words_append_gap hgap,
        Text.words_cons (by decide) hgap, Text.words_intercalate fun name hname =>
          (hnames name hname).1.1]
      rfl
    have hmap : names.toList.map withoutBraces = names.toList :=
      (List.map_congr_left fun name hname => (hnames name hname).2).trans (List.map_id' _)
    have hfilter : names.toList.filter (· ≠ "") = names.toList :=
      List.filter_eq_self.2 fun name hname => decide_eq_true (hnames name hname).1.1.1
    have hopen : withoutBraces "\x7b" = "" := by decide
    have hclose : withoutBraces "\x7d" = "" := by decide
    rw [hwords, List.map_cons, List.map_append, List.map_singleton, hopen, hclose, hmap,
      List.filter_cons_of_neg (by decide), List.filter_append, hfilter]
    exact List.append_nil _

/-- The characters in the text of actions are those of the permissions, and of what is around
them. -/
theorem mem_text_actions {actions : Actions} {c : Char} (h : c ∈ actions.text.toList) :
    c ∈ ['\x7b', ' ', '\x7d', '*'] ∨ ∃ permission ∈ actions.toList, c ∈ permission.toList := by
  cases actions with
  | all => exact .inl (List.mem_singleton.1 h ▸ by decide)
  | only names hstar =>
    simp only [Actions.text, String.toList_append, List.mem_append] at h
    rcases h with (h | h) | h
    · exact .inl (List.mem_of_mem_take (i := 2) h)
    · rcases Text.mem_intercalate h with h | h
      · exact .inl (List.mem_singleton.1 h ▸ by decide)
      · exact .inr h
    · exact .inl (List.mem_of_mem_take (i := 3) (List.mem_of_mem_drop (i := 1) h))

theorem not_mem_text_actions {actions : Actions} {c : Char}
    (hbare : c ∉ ['\x7b', ' ', '\x7d', '*'])
    (h : ∀ permission ∈ actions.toList, c ∉ permission.toList) : c ∉ actions.text.toList := by
  intro hc
  rcases mem_text_actions hc with hc | ⟨permission, hpermission, hc⟩
  · exact hbare hc
  · exact h permission hpermission hc

/-- The words that a statement begins with, before its colon. -/
theorem words_front {keyword subject object : String} (hkeyword : IsName keyword)
    (hsubject : IsName subject) (hobject : IsName object) :
    Text.words (keyword ++ " " ++ (subject ++ " " ++ object)) = [keyword, subject, object] := by
  have hgap : Text.IsGap " " := by decide
  rw [Text.words_cons hkeyword.1 hgap, Text.words_cons hsubject.1 hgap,
    Text.words_of_isWord hobject.1]

theorem sides?_of_names {keyword subject object back blanks : String} (hkeyword : IsName keyword)
    (hsubject : IsName subject) (hobject : IsName object) (hback : ':' ∉ back.toList)
    (hblanks : ∀ c ∈ blanks.toList, Text.isBlank c = true) :
    sides? (keyword ++ " " ++ (subject ++ " " ++ object) ++ " : " ++ back ++ ";" ++ blanks) =
      some ([keyword, subject, object], Text.words back) := by
  obtain ⟨first, rest, hfirst⟩ := List.exists_cons_of_ne_nil hkeyword.1.toList_ne_nil
  have hhead : (keyword ++ " " ++ (subject ++ " " ++ object)).toList.head? = some first := by
    simp [String.toList_append, hfirst]
  have hinner : Text.isBlank first = false := hkeyword.1.2 first (by simp [hfirst])
  have hfront : ':' ∉ (keyword ++ " " ++ (subject ++ " " ++ object)).toList := by
    simp [String.toList_append, hkeyword.2, hsubject.2, hobject.2]
  rw [sides?_append hhead hinner hfront hback hblanks, words_front hkeyword hsubject hobject]

/-- A statement with blanks behind it begins with its keyword. -/
theorem exists_words_statement (rule : Rule) (blanks : String) :
    ∃ others, Text.words (rule.statement ++ blanks) = rule.keyword :: others := by
  obtain ⟨rest, hrest⟩ : ∃ rest, rule.statement ++ blanks = rule.keyword ++ " " ++ rest := by
    cases rule with
    | access rule =>
      simp only [statement, front_access, keyword, String.append_assoc]
      exact ⟨_, rfl⟩
    | transition rule =>
      simp only [statement, front_transition, keyword, String.append_assoc]
      exact ⟨_, rfl⟩
  exact ⟨_, hrest ▸ Text.words_cons rule.isName_keyword.1 (by decide) rest⟩

theorem parseAccess?_statement {rule : AccessRule} (h : rule.IsReadable) {blanks : String}
    (hblanks : ∀ c ∈ blanks.toList, Text.isBlank c = true) :
    parseAccess? ((access rule).statement ++ blanks) = some rule := by
  have hback : ':' ∉ (access rule).back.toList := by
    simp [back, String.toList_append, h.className.2, 
      not_mem_text_actions (by decide) fun p hp => (h.permission p hp).1.2]
  have hsides : sides? ((access rule).statement ++ blanks) =
      some ([rule.kind.keyword, rule.subject, rule.object], Text.words (access rule).back) :=
    sides?_of_names (isName_keyword (access rule)) h.subject h.object hback hblanks
  have hwords : Text.words (access rule).back = rule.className :: Text.words rule.actions.text :=
    Text.words_cons h.className.1 (by decide) _
  unfold parseAccess?
  simp only [hsides, hwords, Option.bind_eq_bind, Option.bind_some, AccessKind.ofKeyword?_keyword,
    permissions_text h.nonempty h.permission, if_neg h.nonempty, Actions.ofList_toList]

/-- A name between quotation marks is one word, and the name is what it says. -/
theorem isQuotable_quote {name : String} (h : IsQuotable name) :
    IsName ("\"" ++ name ++ "\"") ∧ Text.trimChar '"' ("\"" ++ name ++ "\"") = name := by
  have hlist : ("\"" ++ name ++ "\"").toList = '"' :: (name.toList ++ ['"']) := by
    simp [String.toList_append]
  have hself : Text.trimChars (· == '"') (· == '"') name.toList = name.toList := by
    have htrim := congrArg String.toList h.2
    rwa [Text.trimChar, String.toList_ofList] at htrim
  refine ⟨⟨⟨fun hempty => ?_, fun c hc => ?_⟩, fun hcolon => ?_⟩, ?_⟩
  · rw [← String.toList_eq_nil_iff, hlist] at hempty
    cases hempty
  · rw [hlist, List.mem_cons, List.mem_append, List.mem_singleton] at hc
    rcases hc with rfl | hc | rfl
    · rfl
    · exact h.1.1.2 c hc
    · rfl
  · rw [hlist, List.mem_cons, List.mem_append, List.mem_singleton] at hcolon
    rcases hcolon with hcolon | hcolon | hcolon
    · cases hcolon
    · exact h.1.2 hcolon
    · cases hcolon
  · have hwrap := Text.trimChars_wrap (p := (· == '"')) (q := (· == '"')) (beq_self_eq_true '"')
      (beq_self_eq_true '"') (hself.symm ▸ h.1.1.toList_ne_nil)
    unfold Text.trimChar
    rw [hlist]
    exact (congrArg String.ofList (hwrap.trans hself)).trans String.ofList_toList

theorem parseTransition?_statement {rule : TransitionRule} (h : rule.IsReadable) {blanks : String}
    (hblanks : ∀ c ∈ blanks.toList, Text.isBlank c = true) :
    parseTransition? ((transition rule).statement ++ blanks) = some rule := by
  have hgap : Text.IsGap " " := by decide
  have hsides {back : String} (hback : ':' ∉ back.toList) :
      sides? ("type_transition" ++ " " ++ (rule.subject ++ " " ++ rule.object) ++ " : " ++ back ++
        ";" ++ blanks) = some (["type_transition", rule.subject, rule.object], Text.words back) :=
    sides?_of_names (isName_keyword (transition rule)) h.subject h.object hback hblanks
  obtain ⟨subject, object, className, target, name⟩ := rule
  cases name with
  | none =>
    have hback : (transition ⟨subject, object, className, target, none⟩).back =
        className ++ " " ++ target := by
      rw [back, Option.elim_none, String.append_empty]
    have hwords : Text.words (className ++ " " ++ target) = [className, target] := by
      rw [Text.words_cons h.className.1 hgap, Text.words_of_isWord h.target.1]
    unfold parseTransition? statement
    rw [hback, front_transition,
      hsides (by simp [String.toList_append, h.className.2, h.target.2]), hwords]
    rfl
  | some name =>
    obtain ⟨hquoted, hname⟩ := isQuotable_quote (h.name name rfl)
    have hback : (transition ⟨subject, object, className, target, some name⟩).back =
        className ++ " " ++ (target ++ " " ++ ("\"" ++ name ++ "\"")) := by
      simp only [back, Option.elim_some, String.append_assoc]
    have hwords : Text.words (className ++ " " ++ (target ++ " " ++ ("\"" ++ name ++ "\""))) =
        [className, target, "\"" ++ name ++ "\""] := by
      rw [Text.words_cons h.className.1 hgap, Text.words_cons h.target.1 hgap,
        Text.words_of_isWord hquoted.1]
    have hcolon : ':' ∉ (className ++ " " ++ (target ++ " " ++ ("\"" ++ name ++ "\""))).toList := by
      have hquoted := hquoted.2
      simp only [String.toList_append, List.mem_append, not_or] at hquoted ⊢
      exact ⟨⟨h.className.2, by decide⟩, ⟨h.target.2, by decide⟩, hquoted⟩
    unfold parseTransition? statement
    rw [hback, front_transition, hsides hcolon, hwords]
    simp only [Option.bind_eq_bind, Option.bind_some, hname]
    have hmake : (some name).filter (· ≠ "") = some name :=
      Option.filter_some_pos (decide_eq_true (h.name name rfl).1.1.1)
    rw [TransitionRule.make, hmake]

/-- A readable rule is read back from its statement. -/
theorem parse_statement {rule : Rule} (h : rule.IsReadable) {blanks : String}
    (hblanks : ∀ c ∈ blanks.toList, Text.isBlank c = true) :
    parse (rule.statement ++ blanks) = .ok rule := by
  obtain ⟨others, hwords⟩ := exists_words_statement rule blanks
  unfold parse
  simp only [hwords]
  cases rule with
  | access rule =>
    have hkeyword : rule.kind.keyword ≠ "type_transition" := by
      cases rule.kind <;> decide
    split
    · rename_i heq
      exact absurd (List.cons.inj heq).1 hkeyword
    · rename_i heq
      obtain ⟨rfl, -⟩ := List.cons.inj heq
      simp only [keyword, AccessKind.ofKeyword?_keyword, Option.isNone_some, Bool.false_eq_true,
        if_false, parseAccess?_statement h hblanks]
    · rename_i heq
      cases heq
  | transition rule => simp only [keyword, parseTransition?_statement h hblanks]

/-- Just the readable rules are read back from their statements. -/
theorem parse_statement_iff {rule : Rule} : parse rule.statement = .ok rule ↔ rule.IsReadable := by
  constructor
  · exact isReadable_of_parse
  · intro h
    have hparse : parse (rule.statement ++ "") = .ok rule := parse_statement h (by decide)
    rwa [String.append_empty] at hparse

/-! ### Canonical texts -/

/-- A word that is a name in any place of a statement: nothing that separates, ends or encloses the
words of a statement is in it. -/
def IsPlainName (name : String) : Prop :=
  Text.IsWord name ∧ ∀ c ∈ name.toList, c ∉ [':', ';', '\x7b', '\x7d', '"']

instance (name : String) : Decidable (IsPlainName name) :=
  inferInstanceAs (Decidable (_ ∧ _))

theorem parse_text_of_isReadable {rule : Rule} (h : rule.IsReadable) :
    parse rule.text = .ok rule := by
  rw [text_eq_statement]
  exact parse_statement h (by decide)

namespace IsPlainName

variable {name : String}

theorem isName (h : IsPlainName name) : IsName name :=
  ⟨h.1, fun hcolon => h.2 _ hcolon (by decide)⟩

theorem trimChars_eq_self {p q : Char → Bool} (hp : ∀ c ∈ name.toList, p c = false)
    (hq : ∀ c ∈ name.toList, q c = false) : Text.trimChars p q name.toList = name.toList := by
  have hstart : Text.trimStart p name.toList = name.toList :=
    List.dropWhile_eq_self_iff.2 fun hlength => by simp [hp _ (List.getElem_mem hlength)]
  rw [Text.trimChars, hstart]
  exact List.rdropWhile_eq_self_iff.2 fun hne => by simp [hq _ (List.getLast_mem hne)]

theorem beq_eq_false (h : IsPlainName name) {c d : Char} (hc : c ∈ name.toList)
    (hd : d ∈ [':', ';', '\x7b', '\x7d', '"']) : (c == d) = false :=
  beq_eq_false_iff_ne.2 fun heq => h.2 c hc (heq ▸ hd)

theorem isPermission (h : IsPlainName name) : IsPermission name := by
  refine ⟨h.isName, ?_⟩
  have htrim : Text.trimChars (· == '\x7b') (· == '\x7d') name.toList = name.toList :=
    trimChars_eq_self (fun _ hc => h.beq_eq_false hc (by decide))
      fun _ hc => h.beq_eq_false hc (by decide)
  exact (congrArg String.ofList htrim).trans String.ofList_toList

theorem isQuotable (h : IsPlainName name) : IsQuotable name := by
  refine ⟨h.isName, ?_⟩
  have hquote : ∀ c ∈ name.toList, (c == '"') = false := fun _ hc => h.beq_eq_false hc (by decide)
  exact (congrArg String.ofList (trimChars_eq_self hquote hquote)).trans String.ofList_toList

end IsPlainName

/-- Rules have canonical texts.  Whatever statement a rule is read from, it is read again from its
own text; and so is a rule that is made of plain names, with some permissions, or perhaps with the
name of an object. -/
theorem text_canonical :
    (∀ line rule, parse line = .ok rule → parse rule.text = .ok rule) ∧
    (∀ kind subject object className permissions,
      (∀ name ∈ [subject, object, className], IsPlainName name) →
      permissions ≠ [] → (∀ permission ∈ permissions, IsPlainName permission) →
      let rule : Rule := .access ⟨⟨kind, subject, object, className⟩, .ofList permissions⟩
      parse rule.text = .ok rule) ∧
    ∀ subject object className target objectName,
      (∀ name ∈ [subject, object, className, target], IsPlainName name) →
      (∀ name ∈ objectName, IsPlainName name) →
      let rule : Rule := .transition (.make subject object className target objectName)
      parse rule.text = .ok rule := by
  refine ⟨fun line rule h => parse_text_of_isReadable (isReadable_of_parse h), ?_, ?_⟩
  · intro kind subject object className permissions hnames hnonempty hpermissions
    simp only [List.forall_mem_cons] at hnames
    obtain ⟨hsubject, hobject, hclass, -⟩ := hnames
    exact parse_text_of_isReadable
      { subject := hsubject.isName
        object := hobject.isName
        className := hclass.isName
        nonempty := Actions.toList_ofList_ne_nil hnonempty
        permission := fun permission hmem =>
          (hpermissions permission (Actions.mem_of_mem_toList_ofList hmem)).isPermission }
  · intro subject object className target objectName hnames hname
    simp only [List.forall_mem_cons] at hnames
    obtain ⟨hsubject, hobject, hclass, htarget, -⟩ := hnames
    exact parse_text_of_isReadable
      { subject := hsubject.isName
        object := hobject.isName
        className := hclass.isName
        target := htarget.isName
        name := fun name hmem => (hname name (mem_name_make.1 hmem).1).isQuotable }

/-- Signs that stand where they mean nothing are kept: braces and semicolons in names, a star behind
a brace, a quotation mark inside a name.  A star among permissions stands for all of them. -/
theorem oddStatements_text_canonical :
    (∃ rule, parse "  allow \x7d\x7b a; :\tb \x7d\x7b \x7b*\x7dx \x7b\x7by\x7d z;;\n" =
        .ok (.access rule) ∧
      rule.actions.toList = ["*\x7dx", "y", "z;", "\x7d\x7b"] ∧
      parse rule.text = .ok (.access rule)) ∧
    (∃ rule, parse "type_transition a b:c ; \"\"n\"m;\" o" = .ok (.transition rule) ∧
      rule.target = ";" ∧ rule.name = some "n\"m;" ∧
      parse rule.text = .ok (.transition rule)) ∧
    (let rule : Rule := .access ⟨⟨.neverAllow, "a", "b", "c"⟩, .ofList ["read", "*"]⟩
     rule.text = "neverallow a b : c *;\n" ∧ parse rule.text = .ok rule) ∧
    let rule : Rule := .transition (.make "a" "b" "c" "d" (some "n"))
    rule.text = "type_transition a b : c d \"n\";\n" ∧ parse rule.text = .ok rule := by
  obtain ⟨hread, haccess, htransition⟩ := text_canonical
  refine ⟨?_, ?_, ⟨by decide +kernel, ?_⟩, by decide +kernel, ?_⟩
  · have hparse : parse "  allow \x7d\x7b a; :\tb \x7d\x7b \x7b*\x7dx \x7b\x7by\x7d z;;\n" =
        .ok (.access ⟨⟨.allow, "\x7d\x7b", "a;", "b"⟩,
          .ofList ["\x7d\x7b", "*\x7dx", "y", "z;"]⟩) := by
      decide +kernel
    exact ⟨_, hparse, by decide +kernel, hread _ _ hparse⟩
  · have hparse : parse "type_transition a b:c ; \"\"n\"m;\" o" =
        .ok (.transition ⟨"a", "b", "c", ";", some "n\"m;"⟩) := by
      decide +kernel
    exact ⟨_, hparse, rfl, rfl, hread _ _ hparse⟩
  · exact haccess _ _ _ _ _ (by decide) (by decide) (by decide)
  · exact htransition _ _ _ _ _ (by decide) (by decide)

end Rule

end TypeEnforcement
