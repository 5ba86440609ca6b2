/-
The texts of modules, read back.

The source text of a module has its rules as lines among others, and the file of its file contexts
has a line for each of them.  Reading either gives back what the module holds, as long as all names
are words, and the names of objects have no colon and no quotation marks around them.

* `Rule.parseAll` — the rules that are read from the lines of a source text;
* `Rule.Says` — a part of a source text has some statements;
* `PolicyModule.headerNames` — the names in the lines that come before the rules.

Main statements:
* `parseAll_typeEnforcement_iff` — when the rules of a module are read back;
* `parseAll_fileContextText_iff` — when its file contexts are.
-/
import TypeEnforcement.Module.Source
import TypeEnforcement.Proofs.EntryLines
import TypeEnforcement.Proofs.Statements

namespace TypeEnforcement

/-! ### Lines that are statements of rules -/

namespace Rule

/-- Whether a line begins with the word of a rule. -/
def begins (line : String) : Bool :=
  (Text.words line).head?.any fun word =>
    word == "type_transition" || (AccessKind.ofKeyword? word).isSome

/-- The lines of a text that are statements of rules. -/
def statementsOf (text : String) : List String :=
  (Text.lines text).filter begins

/-- The rules that are read from a text, or the fault of the first that is refused. -/
def parseAll (text : String) : Except Fault (List Rule) :=
  (statementsOf text).mapM parse

theorem statementsOf_append (front rest : String) :
    statementsOf (front ++ "\n" ++ rest) = statementsOf (front ++ "\n") ++ statementsOf rest := by
  rw [statementsOf, Text.lines_append, List.filter_append]
  rfl

/-- A text has some statements, whatever follows it. -/
def Says (text : String) (statements : List String) : Prop :=
  ∀ rest, statementsOf (text ++ rest) = statements ++ statementsOf rest

theorem says_empty : Says "" [] :=
  fun rest => by rw [String.empty_append, List.nil_append]

theorem Says.append {a b : String} {first second : List String} (ha : Says a first)
    (hb : Says b second) : Says (a ++ b) (first ++ second) := by
  intro rest
  rw [String.append_assoc, ha, hb, List.append_assoc]

/-- Complete lines have their statements. -/
theorem says_lines {text : String} {statements : List String}
    (h : statementsOf (text ++ "\n") = statements) : Says (text ++ "\n") statements := by
  subst h
  exact statementsOf_append text

theorem says_literal {text : String} (front : String) (htext : front ++ "\n" = text)
    (h : statementsOf (front ++ "\n") = []) : Says text [] :=
  htext ▸ says_lines h

theorem says_join {items : List String} (h : ∀ item ∈ items, Says item []) :
    Says (String.join items) [] := by
  induction items with
  | nil => exact says_empty
  | cons item items ih =>
    obtain ⟨hitem, hitems⟩ := List.forall_mem_cons.1 h
    rw [String.join_cons]
    exact hitem.append (ih hitems)

/-- A text that begins a line, which is no statement whatever else it has. -/
structure Opens (opening : String) : Prop where
  gap : opening.toList.getLast? = some ' '
  word : Text.words opening ≠ []
  silent : begins opening = false
  line : '\n' ∉ opening.toList

theorem Opens.begins_append {opening : String} (h : Opens opening) (rest : String) :
    begins (opening ++ rest) = false := by
  obtain ⟨start, hstart⟩ := List.getLast?_eq_some_iff.1 h.gap
  have hopening : opening = String.ofList start ++ " " := by
    rw [← String.toList_inj, hstart, String.toList_append, String.toList_ofList]
    rfl
  have hspace : ∀ c ∈ " ".toList, Text.isBlank c = true := by decide
  have hwords : Text.words (opening ++ rest) = Text.words opening ++ Text.words rest := by
    rw [hopening, Text.words_append_gap (by decide), Text.words_append_blanks hspace]
  have hsilent := h.silent
  unfold begins at hsilent ⊢
  obtain ⟨word, others, hword⟩ := List.exists_cons_of_ne_nil h.word
  rw [hwords, hword, List.cons_append, List.head?_cons]
  rwa [hword, List.head?_cons] at hsilent

/-- A line that begins like no statement says nothing. -/
theorem Opens.says {opening rest : String} (h : Opens opening) (hrest : '\n' ∉ rest.toList) :
    Says (opening ++ rest ++ ";\n") [] := by
  have hline : opening ++ rest ++ ";\n" = opening ++ (rest ++ ";") ++ "\n" := by
    have hend : ";\n" = ";" ++ "\n" := rfl
    simp only [hend, String.append_assoc]
  have hlines : Text.lines (opening ++ (rest ++ ";") ++ "\n") = [opening ++ (rest ++ ";")] := by
    refine Text.lines_line ?_ ?_
    · simp only [String.toList_append, List.mem_append, not_or]
      exact ⟨h.line, hrest, by decide⟩
    · have hend : (opening ++ (rest ++ ";")).toList = (opening ++ rest).toList ++ [';'] := by
        simp only [String.toList_append, List.append_assoc]
        rfl
      rw [hend, List.getLast?_append_of_ne_nil _ (List.cons_ne_nil _ _)]
      decide
  rw [hline]
  refine says_lines ?_
  rw [statementsOf, hlines, List.filter_cons_of_neg (by simp [h.begins_append]), List.filter_nil]

/-- The statement of a readable rule is one line. -/
theorem newline_not_mem_statement {rule : Rule} (h : rule.IsReadable) :
    '\n' ∉ rule.statement.toList := by
  have hname {name : String} (hname : IsName name) : '\n' ∉ name.toList := fun hmem =>
    absurd (hname.1.2 '\n' hmem) (by decide)
  cases rule with
  | access rule =>
    have hactions : '\n' ∉ rule.actions.text.toList :=
      not_mem_text_actions (by decide) fun p hp => hname (h.permission p hp).1
    simp only [statement, front, back, String.toList_append, List.mem_append, not_or]
    exact ⟨⟨⟨⟨⟨hname (isName_keyword (access rule)), by decide⟩, ⟨hname h.subject, by decide⟩,
      hname h.object⟩, by decide⟩, ⟨hname h.className, by decide⟩, hactions⟩, by decide⟩
  | transition rule =>
    have hquoted : '\n' ∉ (rule.name.elim "" fun name =>
        " " ++ ("\"" ++ name ++ "\"")).toList := by
      cases hgiven : rule.name with
      | none => decide
      | some name =>
        simp only [Option.elim_some, String.toList_append, List.mem_append, not_or]
        exact ⟨by decide, ⟨by decide, hname (h.name name hgiven).1⟩, by decide⟩
    simp only [statement, front, back, String.toList_append, List.mem_append, not_or]
    exact ⟨⟨⟨⟨⟨hname (isName_keyword (transition rule)), by decide⟩, ⟨hname h.subject, by decide⟩,
      hname h.object⟩, by decide⟩, ⟨hname h.className, by decide⟩, hname h.target, hquoted⟩,
      by decide⟩

theorem begins_statement (rule : Rule) : begins rule.statement = true := by
  obtain ⟨others, hwords⟩ := exists_words_statement rule ""
  rw [String.append_empty] at hwords
  unfold begins
  rw [hwords, List.head?_cons, Option.any_some]
  cases rule with
  | access rule => simp [keyword, AccessKind.ofKeyword?_keyword]
  | transition rule => simp [keyword]

theorem says_text {rule : Rule} (h : rule.IsReadable) : Says rule.text [rule.statement] := by
  have hlines : Text.lines (rule.statement ++ "\n") = [rule.statement] := by
    refine Text.lines_line (newline_not_mem_statement h) ?_
    have hend : ";".toList ≠ [] := by decide
    rw [statement, String.toList_append, List.getLast?_append_of_ne_nil _ hend]
    decide
  rw [text_eq_statement]
  refine says_lines ?_
  rw [statementsOf, hlines, List.filter_cons_of_pos (begins_statement rule), List.filter_nil]

theorem says_texts {rules : List Rule} (h : ∀ rule ∈ rules, rule.IsReadable) :
    Says (String.join (rules.map text)) (rules.map statement) := by
  induction rules with
  | nil => exact says_empty
  | cons rule rules ih =>
    obtain ⟨hrule, hrules⟩ := List.forall_mem_cons.1 h
    rw [List.map_cons, String.join_cons]
    exact (says_text hrule).append (ih hrules)

theorem mapM_parse_statement {rules : List Rule} (h : ∀ rule ∈ rules, rule.IsReadable) :
    (rules.map statement).mapM parse = .ok rules := by
  induction rules with
  | nil => rfl
  | cons rule rules ih =>
    obtain ⟨hrule, hrules⟩ := List.forall_mem_cons.1 h
    rw [List.map_cons, List.mapM_cons, parse_statement_iff.2 hrule, ih hrules]
    rfl

/-- Every rule that is read from a text is readable. -/
theorem isReadable_of_parseAll {text : String} {rules : List Rule} (h : parseAll text = .ok rules) :
    ∀ rule ∈ rules, rule.IsReadable := by
  intro rule hrule
  obtain ⟨line, -, hparse⟩ := exists_item_of_mapM_eq_ok h rule hrule
  exact isReadable_of_parse hparse

end Rule

/-! ### Modules -/

namespace PolicyModule

open Rule (Says Opens says_lines says_literal says_join)

variable {m : PolicyModule}

/-- The rules of a module, in the order in which they are written. -/
def rulesInOrder (m : PolicyModule) : List Rule :=
  m.accessRules.map .access ++ m.transitionRules.map .transition

/-- The names in the lines that come before the rules. -/
def headerNames (m : PolicyModule) : List String :=
  m.name :: m.version ::
    (m.requirements.roles.toList ++ m.requirements.types.toList ++
      m.requirements.attributes.toList ++
      m.requirements.classes.entries.flatMap (fun entry => entry.1 :: entry.2.toList) ++
      m.definitions.roles.entries.flatMap (fun entry =>
        entry.2.toList.flatMap fun name => [entry.1, name]) ++
      m.definitions.types.entries.flatMap (fun entry => entry.1 :: entry.2.toList) ++ m.permissive)

theorem says_requirementLines {required : Requirements}
    (hroles : ∀ name ∈ required.roles.toList, '\n' ∉ name.toList)
    (htypes : ∀ name ∈ required.types.toList, '\n' ∉ name.toList)
    (hattributes : ∀ name ∈ required.attributes.toList, '\n' ∉ name.toList)
    (hclasses : ∀ entry ∈ required.classes.entries, '\n' ∉ entry.1.toList ∧
      ∀ name ∈ entry.2.toList, '\n' ∉ name.toList) :
    Says (String.join (requirementLines required)) [] := by
  have hrole : Opens "\trole " := by constructor <;> decide
  have htype : Opens "\ttype " := by constructor <;> decide
  have hattribute : Opens "\tattribute " := by constructor <;> decide
  have hclass : Opens "\tclass " := by constructor <;> decide
  refine says_join fun line hline => ?_
  simp only [requirementLines, List.mem_append, List.mem_map] at hline
  rcases hline with ((⟨name, hname, rfl⟩ | ⟨name, hname, rfl⟩) | ⟨name, hname, rfl⟩) |
    ⟨entry, hentry, rfl⟩
  · exact hrole.says (hroles name hname)
  · exact htype.says (htypes name hname)
  · exact hattribute.says (hattributes name hname)
  · obtain ⟨className, permissions⟩ := entry
    obtain ⟨hclassName, hnames⟩ := hclasses _ (List.mem_of_mem_filter hentry)
    have hpermissions : '\n' ∉ (" ".intercalate permissions.toList).toList := by
      intro hmem
      rcases Text.mem_intercalate hmem with hmem | ⟨name, hname, hmem⟩
      · exact absurd hmem (by decide)
      · exact hnames name hname hmem
    have hrest : '\n' ∉ (className ++ (" \x7b " ++ (" ".intercalate permissions.toList ++
        " \x7d"))).toList := by
      simp only [String.toList_append, List.mem_append, not_or]
      exact ⟨hclassName, by decide, hpermissions, by decide⟩
    have hsays := hclass.says hrest
    have hend : " \x7d;\n" = " \x7d" ++ ";\n" := rfl
    simp only [hend, String.append_assoc] at hsays ⊢
    exact hsays

theorem says_definitionLines {defined : Definitions}
    (hroles : ∀ entry ∈ defined.roles.entries, ∀ name ∈ entry.2.toList,
      '\n' ∉ entry.1.toList ∧ '\n' ∉ name.toList)
    (htypes : ∀ entry ∈ defined.types.entries, '\n' ∉ entry.1.toList ∧
      ∀ name ∈ entry.2.toList, '\n' ∉ name.toList) :
    Says (String.join (definitionLines defined)) [] := by
  have hrole : Opens "role " := by constructor <;> decide
  have htype : Opens "type " := by constructor <;> decide
  refine says_join fun line hline => ?_
  simp only [definitionLines, List.mem_append, List.mem_flatMap, List.mem_map] at hline
  rcases hline with ⟨⟨role, types⟩, hentry, name, hname, rfl⟩ | ⟨⟨name, attributes⟩, hentry, rfl⟩
  · obtain ⟨hroleName, htypeName⟩ := hroles _ hentry name hname
    have hrest : '\n' ∉ (role ++ (" types " ++ name)).toList := by
      simp only [String.toList_append, List.mem_append, not_or]
      exact ⟨hroleName, by decide, htypeName⟩
    have hsays := hrole.says hrest
    simp only [String.append_assoc] at hsays ⊢
    exact hsays
  · refine htype.says fun hmem => ?_
    rcases Text.mem_intercalate hmem with hmem | ⟨other, hother, hmem⟩
    · exact absurd hmem (by decide)
    · obtain ⟨htypeName, hnames⟩ := htypes _ hentry
      rcases List.mem_cons.1 hother with hother | hother
      · exact htypeName (hother ▸ hmem)
      · exact hnames other hother hmem

/-- The first line and the opening of the requirements say nothing. -/
theorem says_opening {name version : String} (hname : '\n' ∉ name.toList)
    (hversion : '\n' ∉ version.toList) :
    Says ("module " ++ name ++ " " ++ version ++ ";\n\n" ++ "require\n\x7b\n") [] := by
  have hopening : Opens "module " := by constructor <;> decide
  have hmodule : Says ("module " ++ (name ++ " " ++ version) ++ ";\n") [] := by
    refine hopening.says ?_
    simp only [String.toList_append, List.mem_append, not_or]
    exact ⟨⟨hname, by decide⟩, hversion⟩
  have hrequire : Says ("\nrequire\n\x7b" ++ "\n") [] := says_lines (by decide)
  have hliteral : ";\n" ++ ("\nrequire\n\x7b" ++ "\n") = ";\n\n" ++ "require\n\x7b\n" := rfl
  have htext : "module " ++ (name ++ " " ++ version) ++ ";\n" ++ ("\nrequire\n\x7b" ++ "\n") =
      "module " ++ name ++ " " ++ version ++ ";\n\n" ++ "require\n\x7b\n" := by
    rw [String.append_assoc, hliteral]
    simp only [String.append_assoc, -String.reduceAppend]
  exact htext ▸ hmodule.append hrequire

/-- The statements in the source text of a module are those of its rules. -/
theorem statementsOf_typeEnforcement (hheader : ∀ name ∈ m.headerNames, '\n' ∉ name.toList)
    (hrules : ∀ rule ∈ m.rulesInOrder, rule.IsReadable) :
    Rule.statementsOf m.typeEnforcement = m.rulesInOrder.map Rule.statement := by
  simp only [headerNames, List.forall_mem_cons, List.forall_mem_append, List.forall_mem_flatMap,
    List.not_mem_nil, false_imp_iff, implies_true, and_true] at hheader
  obtain ⟨hname, hversion, ⟨⟨⟨⟨⟨hroles, htypes⟩, hattributes⟩, hclasses⟩, hdefinedRoles⟩,
    hdefinedTypes⟩, hpermissive⟩ := hheader
  simp only [rulesInOrder, List.forall_mem_append] at hrules
  have hdomain : Opens "permissive " := by constructor <;> decide
  have hclose : Says "\x7d;\n\n" [] := says_literal "\x7d;\n" rfl (by decide)
  have hblank : Says "\n" [] := says_literal "" rfl (by decide)
  have hpermissives : Says (String.join (m.permissive.map fun domain =>
      "permissive " ++ domain ++ ";\n")) [] :=
    says_join (List.forall_mem_map.2 fun domain hmem => hdomain.says (hpermissive domain hmem))
  have haccess : Says (String.join (m.accessRules.map AccessRule.text))
      ((m.accessRules.map Rule.access).map Rule.statement) := by
    have hsays := Rule.says_texts hrules.1
    rw [List.map_map] at hsays
    exact hsays
  have htransition : Says (String.join (m.transitionRules.map TransitionRule.text))
      ((m.transitionRules.map Rule.transition).map Rule.statement) := by
    have hsays := Rule.says_texts hrules.2
    rw [List.map_map] at hsays
    exact hsays
  -- Only the two blocks of rules say something; all that stands before them says nothing.
  have hhead := (((says_opening hname hversion).append
    (says_requirementLines hroles htypes hattributes hclasses)).append hclose).append
      (says_definitionLines hdefinedRoles hdefinedTypes)
  have hall : Says m.typeEnforcement _ := ((((((hhead.append hblank).append hpermissives).append
    hblank).append haccess).append hblank).append htransition).append hblank
  have hstatements := hall ""
  have hnothing : Rule.statementsOf "" = [] := rfl
  rw [String.append_empty, hnothing] at hstatements
  rw [hstatements, rulesInOrder, List.map_append]
  simp only [List.nil_append, List.append_nil]

/-- Just if all rules of a module are readable, they are read back from its source text, in the
order in which the module has them. -/
theorem parseAll_typeEnforcement_iff (hheader : ∀ name ∈ m.headerNames, '\n' ∉ name.toList) :
    Rule.parseAll m.typeEnforcement = .ok m.rulesInOrder ↔
      ∀ rule ∈ m.rulesInOrder, rule.IsReadable := by
  refine ⟨Rule.isReadable_of_parseAll, fun hrules => ?_⟩
  rw [Rule.parseAll, statementsOf_typeEnforcement hheader hrules, Rule.mapM_parse_statement hrules]

/-- Just if the patterns of a module are words, its file contexts are read back from their file. -/
theorem parseAll_fileContextText_iff
    (hlabels : ∀ entry ∈ m.fileContexts, entry.label.IsReadable)
    (hvalid : ∀ entry ∈ m.fileContexts,
      entry.valid = (entry.matcher.isSome && decide (entry.label ≠ {})))
    (hcomment : ∀ entry ∈ m.fileContexts, entry.pattern.front ≠ '#') :
    FileContext.parseAll m.fileContextText = m.fileContexts ↔
      ∀ entry ∈ m.fileContexts, Text.IsWord entry.pattern := by
  constructor
  · intro hread entry hentry
    rw [← hread] at hentry
    exact FileContext.isWord_pattern_of_mem_parseAll hentry
  · intro hpatterns
    exact FileContext.parseAll_join (fun entry hentry =>
      ⟨hpatterns entry hentry, hlabels entry hentry, hvalid entry hentry⟩) hcomment

end PolicyModule

end TypeEnforcement
