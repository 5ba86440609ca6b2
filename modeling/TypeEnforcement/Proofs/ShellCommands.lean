/-
What a shell runs of a relabelling script.

The script is read by the rules that a shell has for single quotes.  Outside of quotes a blank ends
a word, and a line feed or one of the signs `;`, `&` and `|` ends a command; between two quotes
every character stands for itself.  Nothing between quotes can take the meaning off the next quote,
so a scope with a quote is not one word of a command, and what it has behind the quote is read as if
it were written in the script.  The further signs that a shell knows outside of quotes are left out;
nothing of a scope without quotes is read there.

* `Shell.Reading`, `Shell.Reading.step` — what is read so far, and one character more;
* `Shell.commands` — the commands of a text, each as a list of its words;
* `Shell.afterFirstLine` — a text without its first line.

Main statements:
* `foldl_step_line` — how the line of a scope without quotes is read;
* `isQuoteless_foldl` — no word has a quote, whatever is read;
* `runsRestorecon_iff` — when the script of a module runs what it is meant to run;
* `scripts_run_restorecon` — when the scripts of a project do.
-/
import TypeEnforcement.Proofs.RelabelScopes

namespace TypeEnforcement

namespace Shell

/-! ### Reading -/

/-- What a shell has read of a text. -/
structure Reading where
  /-- The commands that have ended. -/
  commands : List (List String) := []
  /-- The words of the command under way that have ended. -/
  words : List String := []
  /-- The word under way, if there is one. -/
  word : Option (List Char) := none
  isQuoted : Bool := false

/-- The signs that end a command. -/
def commandEnds : List Char :=
  ['\n', ';', '&', '|']

namespace Reading

/-- The word under way goes on, or a word begins. -/
def add (s : Reading) (chars : List Char) : Reading :=
  { s with word := some (s.word.getD [] ++ chars) }

def endWord (s : Reading) : Reading :=
  { s with words := s.words ++ (s.word.map String.ofList).toList, word := none }

/-- The command under way ends, if it has words. -/
def endCommand (s : Reading) : Reading :=
  let s := s.endWord
  if s.words = [] then s else { s with commands := s.commands ++ [s.words], words := [] }

/-- One character more. -/
def step (s : Reading) (c : Char) : Reading :=
  if c = '\'' then { s.add [] with isQuoted := !s.isQuoted }
  else if s.isQuoted then s.add [c]
  else if c ∈ commandEnds then s.endCommand
  else if c = ' ' ∨ c = '\t' then s.endWord
  else s.add [c]

end Reading

/-- The commands of a text; none if a quote is not closed. -/
def commands (text : List Char) : Option (List (List String)) :=
  let s := text.foldl Reading.step {}
  if s.isQuoted then none else some s.endCommand.commands

/-- A text without its first line. -/
def afterFirstLine (text : List Char) : List Char :=
  (text.dropWhile (· ≠ '\n')).drop 1

/-! ### Lines of scopes -/

/-- A character stands for itself outside of quotes. -/
def IsBare (c : Char) : Prop :=
  c ∉ ['\'', ' ', '\t'] ++ commandEnds

instance (c : Char) : Decidable (IsBare c) :=
  inferInstanceAs (Decidable (c ∉ _))

namespace Reading

variable {text : List Char} {done : List (List String)} {words : List String} {word : List Char}
  {c : Char} {scope : String}

theorem step_bare (h : IsBare c) (start : Option (List Char)) :
    step ⟨done, words, start, false⟩ c = ⟨done, words, some (start.getD [] ++ [c]), false⟩ := by
  simp only [IsBare, List.mem_append, List.mem_cons, List.not_mem_nil, or_false, not_or] at h
  obtain ⟨⟨hquote, hblank, htab⟩, hend⟩ := h
  rw [step, if_neg hquote, if_neg (by simp), if_neg hend, if_neg (by simp [hblank, htab])]
  rfl

/-- Characters that stand for themselves are one word. -/
theorem foldl_step_bare (h : ∀ c ∈ text, IsBare c) :
    text.foldl step ⟨done, words, some word, false⟩ =
      ⟨done, words, some (word ++ text), false⟩ := by
  induction text generalizing word with
  | nil => rw [List.foldl_nil, List.append_nil]
  | cons c rest ih =>
    obtain ⟨hc, hrest⟩ := List.forall_mem_cons.1 h
    rw [List.foldl_cons, step_bare hc, ih hrest, Option.getD_some, List.append_assoc,
      List.singleton_append]

/-- Between quotes every other character belongs to the word. -/
theorem foldl_step_quoted (h : '\'' ∉ text) :
    text.foldl step ⟨done, words, some word, true⟩ =
      ⟨done, words, some (word ++ text), true⟩ := by
  induction text generalizing word with
  | nil => rw [List.foldl_nil, List.append_nil]
  | cons c rest ih =>
    simp only [List.mem_cons, not_or] at h
    have hc : step ⟨done, words, some word, true⟩ c =
        ⟨done, words, some (word ++ [c]), true⟩ := by
      rw [step, if_neg (Ne.symm h.1), if_pos rfl]
      rfl
    rw [List.foldl_cons, hc, ih h.2, List.append_assoc, List.singleton_append]

/-- A word that stands for itself, and a blank behind it. -/
theorem foldl_step_bare_blank (hc : IsBare c) (h : ∀ d ∈ text, IsBare d) :
    (c :: text ++ [' ']).foldl step ⟨done, words, none, false⟩ =
      ⟨done, words ++ [String.ofList (c :: text)], none, false⟩ := by
  have hword : (c :: text).foldl step ⟨done, words, none, false⟩ =
      ⟨done, words, some (c :: text), false⟩ := by
    rw [List.foldl_cons, step_bare hc, foldl_step_bare h]
    rfl
  rw [List.foldl_append, hword]
  rfl

/-- A quoted word, and a line feed behind it. -/
theorem foldl_step_quoted_end (h : '\'' ∉ text) :
    ('\'' :: text ++ ['\'', '\n']).foldl step ⟨done, words, none, false⟩ =
      ⟨done ++ [words ++ [String.ofList text]], [], none, false⟩ := by
  have hopen : step ⟨done, words, none, false⟩ '\'' = ⟨done, words, some [], true⟩ := rfl
  have hword : ('\'' :: text).foldl step ⟨done, words, none, false⟩ =
      ⟨done, words, some text, true⟩ := by
    rw [List.foldl_cons, hopen, foldl_step_quoted h, List.nil_append]
  have hclose : step ⟨done, words, some text, true⟩ '\'' = ⟨done, words, some text, false⟩ := by
    rw [step, if_pos rfl, add, Option.getD_some, List.append_nil]
    rfl
  have hend : step ⟨done, words, some text, false⟩ '\n' =
      ⟨done ++ [words ++ [String.ofList text]], [], none, false⟩ := by
    rw [step, if_neg (by decide), if_neg (by simp), if_pos (by decide), endCommand]
    exact if_neg (by simp [endWord])
  rw [List.foldl_append, hword, List.foldl_cons, List.foldl_cons, hclose, hend, List.foldl_nil]

/-- The line of a scope without quotes is one command. -/
theorem foldl_step_line (h : '\'' ∉ scope.toList) :
    ("restorecon -iR '" ++ scope ++ "'\n").toList.foldl step ⟨done, [], none, false⟩ =
      ⟨done ++ [["restorecon", "-iR", scope]], [], none, false⟩ := by
  have hline : ("restorecon -iR '" ++ scope ++ "'\n").toList =
      ('r' :: "estorecon".toList ++ [' ']) ++ (('-' :: "iR".toList ++ [' ']) ++
        ('\'' :: scope.toList ++ ['\'', '\n'])) := by
    simp
  rw [hline, List.foldl_append, foldl_step_bare_blank (by decide) (by decide), List.foldl_append,
    foldl_step_bare_blank (by decide) (by decide), foldl_step_quoted_end h, String.ofList_toList]
  rfl

/-- The lines of scopes without quotes are one command each. -/
theorem foldl_step_lines {scopes : List String} (h : ∀ scope ∈ scopes, '\'' ∉ scope.toList) :
    (scopes.flatMap fun scope => ("restorecon -iR '" ++ scope ++ "'\n").toList).foldl step
        ⟨done, [], none, false⟩ =
      ⟨done ++ scopes.map fun scope => ["restorecon", "-iR", scope], [], none, false⟩ := by
  induction scopes generalizing done with
  | nil => rw [List.map_nil, List.append_nil]; rfl
  | cons scope rest ih =>
    obtain ⟨hscope, hrest⟩ := List.forall_mem_cons.1 h
    rw [List.flatMap_cons, List.foldl_append, foldl_step_line hscope, ih hrest, List.map_cons,
      List.append_assoc, List.singleton_append]

/-! ### Words without quotes -/

/-- No word that is read so far has a quote. -/
structure IsQuoteless (s : Reading) : Prop where
  commands : ∀ command ∈ s.commands, ∀ word ∈ command, '\'' ∉ word.toList
  words : ∀ word ∈ s.words, '\'' ∉ word.toList
  word : ∀ word ∈ s.word, '\'' ∉ word

variable {s : Reading}

theorem IsQuoteless.add (h : s.IsQuoteless) {chars : List Char} (hchars : '\'' ∉ chars) :
    (s.add chars).IsQuoteless := by
  refine ⟨h.commands, h.words, fun word hword => ?_⟩
  obtain rfl := Option.mem_some_iff.1 hword
  have hbefore : '\'' ∉ s.word.getD [] := by
    cases hs : s.word with
    | none => exact List.not_mem_nil
    | some before => exact h.word before hs
  rw [List.mem_append, not_or]
  exact ⟨hbefore, hchars⟩

theorem IsQuoteless.endWord (h : s.IsQuoteless) : s.endWord.IsQuoteless := by
  refine ⟨h.commands, fun word hword => ?_, fun word hword => by cases hword⟩
  rcases List.mem_append.1 hword with hword | hword
  · exact h.words word hword
  · obtain ⟨chars, hchars, rfl⟩ := Option.map_eq_some_iff.1 (Option.mem_toList.1 hword)
    rw [String.toList_ofList]
    exact h.word chars hchars

theorem IsQuoteless.endCommand (h : s.IsQuoteless) : s.endCommand.IsQuoteless := by
  unfold Reading.endCommand
  dsimp only
  split
  · exact h.endWord
  · refine ⟨fun command hcommand => ?_, fun word hword => absurd hword List.not_mem_nil,
      h.endWord.word⟩
    rcases List.mem_append.1 hcommand with hcommand | hcommand
    · exact h.endWord.commands command hcommand
    · rw [List.mem_singleton.1 hcommand]
      exact h.endWord.words

/-- A quote is never part of a word. -/
theorem IsQuoteless.step (h : s.IsQuoteless) (c : Char) : (s.step c).IsQuoteless := by
  unfold Reading.step
  split
  · have hadd : (s.add []).IsQuoteless := h.add List.not_mem_nil
    exact ⟨hadd.commands, hadd.words, hadd.word⟩
  · rename_i hc
    have hchar : '\'' ∉ [c] := by simpa using Ne.symm hc
    split
    · exact h.add hchar
    · split
      · exact h.endCommand
      · split
        · exact h.endWord
        · exact h.add hchar

theorem isQuoteless_foldl (h : s.IsQuoteless) (text : List Char) :
    (text.foldl Reading.step s).IsQuoteless := by
  induction text generalizing s with
  | nil => exact h
  | cons c rest ih => exact ih (h.step c)

end Reading

/-- The words of commands have no quotes. -/
theorem not_mem_of_commands {text : List Char} {found : List (List String)}
    (h : commands text = some found) : ∀ command ∈ found, ∀ word ∈ command, '\'' ∉ word.toList := by
  have hstart : Reading.IsQuoteless {} := ⟨by simp, by simp, by simp⟩
  unfold commands at h
  dsimp only at h
  split at h
  · cases h
  · cases h
    exact (Reading.isQuoteless_foldl hstart text).endCommand.commands

end Shell

/-! ### Quotes in paths -/

namespace Path

variable {path : List Char}

/-- What the pattern of a path has before its first special character, without backslashes. -/
def labelStart (path : List Char) : List Char :=
  unescape (fixedStart (labelPattern path))

theorem fixedStart_subset (text : List Char) : fixedStart text ⊆ text := by
  fun_induction fixedStart text <;> grind

theorem unescape_subset (text : List Char) : unescape text ⊆ text := by
  fun_induction unescape text <;> grind

theorem quote_mem_of_patternBody {escaped : Bool} {text : List Char}
    (h : '\'' ∈ patternBody escaped text) : '\'' ∈ text := by
  fun_induction patternBody escaped text <;> grind

/-- A path has the quotes that its pattern begins with. -/
theorem quote_mem_of_labelStart (h : '\'' ∈ labelStart path) : '\'' ∈ path := by
  have hlinks : ∀ link ∈ links, '\'' ∉ link.source.toList ++ link.target.toList := by decide +kernel
  have hpattern := fixedStart_subset _ (unescape_subset _ h)
  rw [labelPattern] at hpattern
  rw [← mem_fold_iff_of_links hlinks]
  obtain ⟨body, form, hfold, htext⟩ := exists_toPattern (fold path)
  rw [htext] at hpattern
  rw [hfold]
  rcases List.mem_append.1 hpattern with hmem | hmem
  · exact List.mem_append_left _ (quote_mem_of_patternBody hmem)
  · cases form with
    | none => cases hmem
    | some t => cases t <;> exact absurd hmem (by decide)

end Path

/-! ### Scripts -/

namespace PolicyModule

/-- The script of a module, without its first line, is one command for each scope of the module, and
nothing else. -/
def RunsRestorecon (m : PolicyModule) : Prop :=
  Shell.commands (Shell.afterFirstLine m.relabelScript.toList) =
    some (m.relabelScopes.toList.map fun scope => ["restorecon", "-iR", scope])

theorem runsRestorecon_iff (m : PolicyModule) :
    m.RunsRestorecon ↔ ∀ scope ∈ m.relabelScopes, '\'' ∉ scope.toList := by
  have hbody : Shell.afterFirstLine m.relabelScript.toList = m.relabelScopes.toList.flatMap
      fun scope => ("restorecon -iR '" ++ scope ++ "'\n").toList := by
    rw [relabelScript, String.toList_append, String.toList_join, List.flatMap_map]
    rfl
  rw [RunsRestorecon, hbody]
  constructor
  · intro hcommands scope hscope
    -- The scope is a word of a command, and words have no quotes.
    refine Shell.not_mem_of_commands hcommands _ (List.mem_map_of_mem hscope) scope ?_
    simp
  · intro h
    rw [Shell.commands, Shell.Reading.foldl_step_lines h]
    rfl

theorem forall_scopes_iff (m : PolicyModule) : (∀ scope ∈ m.relabelScopes, '\'' ∉ scope.toList) ↔
    ∀ entry ∈ m.fileContexts, '\'' ∉ Path.unescape (Path.fixedStart entry.pattern.toList) := by
  have hscope (entry : FileContext) : (relabelScope entry).toList =
      Path.unescape (Path.fixedStart entry.pattern.toList) := String.toList_ofList
  constructor
  · intro h entry hentry hquote
    rw [← hscope] at hquote
    refine h (relabelScope entry) (relabelScope_mem hentry fun hempty => ?_) hquote
    rw [hempty] at hquote
    cases hquote
  · intro h scope hmem
    obtain ⟨entry, hentry, rfl⟩ := List.mem_map.1 (List.mem_filter.1 (NameSet.mem_ofList.1 hmem)).1
    rw [hscope]
    exact h entry hentry

end PolicyModule

namespace Assembly

variable {project : Project} {catalog : Catalog} {own : Except Fault (List Installed)}
  {fallbackDomain : String} {assembly : Assembly}

/-- When the scripts of a project run nothing but the command that they are made for.  The scopes
come in increasing order; a script has one command for each of them just if none has a quote; and so
have all scripts of a project just if there is no quote in what the pattern of a resource begins
with, as there is none if no path has a quote. -/
theorem scripts_run_restorecon
    (h : (ofProject project catalog own fallbackDomain).result = .ok assembly) :
    (∀ m ∈ assembly.modules, m.relabelScopes.toList.Pairwise (· < ·) ∧
      (m.RunsRestorecon ↔ ∀ scope ∈ m.relabelScopes, '\'' ∉ scope.toList)) ∧
    ((∀ m ∈ assembly.modules, m.RunsRestorecon) ↔
      ∀ resource ∈ project.resources, resource.isSystem = false →
        '\'' ∉ Path.labelStart resource.path.toList) ∧
    ((∀ resource ∈ project.resources, resource.isSystem = false →
        '\'' ∉ resource.path.toList) →
      ∀ m ∈ assembly.modules, m.RunsRestorecon) := by
  have hscripts : (∀ m ∈ assembly.modules, m.RunsRestorecon) ↔
      ∀ resource ∈ project.resources, resource.isSystem = false →
        '\'' ∉ Path.labelStart resource.path.toList := by
    refine Iff.trans ?_ (Iff.trans (forall_patterns_iff
      (P := fun pattern => '\'' ∉ Path.unescape (Path.fixedStart pattern.toList)) h) ?_)
    · exact forall₂_congr fun m _ => m.runsRestorecon_iff.trans m.forall_scopes_iff
    · simp only [String.toList_ofList, Path.labelStart]
  refine ⟨fun m _ => ⟨m.relabelScopes.sorted, m.runsRestorecon_iff⟩, hscripts, fun hpaths => ?_⟩
  exact hscripts.2 fun resource hresource hnew hquote =>
    hpaths resource hresource hnew (Path.quote_mem_of_labelStart hquote)

/-- A path with a sign that ends commands is still one word. -/
theorem signedName_runs_restorecon : ∃ assembly,
    (ofProject (fileMaker "/a/; x") fileCatalog (.ok []) "init_t").result = .ok assembly ∧
    ∀ m ∈ assembly.modules, m.RunsRestorecon := by
  have hanswer : (ofProject (fileMaker "/a/; x") fileCatalog (.ok [])
      "init_t").result.toOption.isSome := by decide +kernel
  obtain ⟨assembly, hassembly⟩ := exists_of_isSome_toOption hanswer
  obtain ⟨-, -, hscripts⟩ := scripts_run_restorecon hassembly
  exact ⟨assembly, hassembly, hscripts (by decide)⟩

/-- A quote in a path ends the word, and what is behind it is a command. -/
theorem quotedName_runs_another : (fileMaker "/a/x';reboot;'y").check = .ok () ∧ ∃ assembly,
    (ofProject (fileMaker "/a/x';reboot;'y") fileCatalog (.ok []) "init_t").result =
      .ok assembly ∧
    ∃ m ∈ assembly.modules, ¬m.RunsRestorecon ∧
      Shell.commands (Shell.afterFirstLine m.relabelScript.toList) =
        some [["restorecon", "-iR", "/a/x"], ["reboot"], ["y"]] := by
  have hanswer : (ofProject (fileMaker "/a/x';reboot;'y") fileCatalog (.ok [])
      "init_t").result.toOption.any fun assembly =>
        decide (∃ m ∈ assembly.modules,
          Shell.commands (Shell.afterFirstLine m.relabelScript.toList) =
            some [["restorecon", "-iR", "/a/x"], ["reboot"], ["y"]]) := by
    decide +kernel
  obtain ⟨assembly, hassembly, m, hm, hcommands⟩ := exists_of_any_toOption hanswer
  refine ⟨by decide +kernel, assembly, hassembly, m, hm, fun hruns => ?_, hcommands⟩
  -- The second command is not one for a scope.
  have hsame := Option.some.inj (hcommands.symm.trans hruns)
  obtain ⟨scope, -, hreboot⟩ := List.mem_map.1 (hsame ▸ List.mem_cons_of_mem _ List.mem_cons_self)
  simp at hreboot

end Assembly

end TypeEnforcement
