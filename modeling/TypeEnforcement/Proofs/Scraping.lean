/-
What is found in the text of an installed module.

The text of an installed module is not parsed as a whole.  Its types and its patterns are what two
readers find on their way through it, whatever stands in between.  A type is found only if its name
ends in `_t`; and nothing that is written inside a pattern is taken for the declaration of a type,
because the parentheses of a path are escaped in its pattern.

* `Reader.Finds` — what a reader finds in a part of a text;
* `Installed.text` — the text of a module that declares types and file contexts;
* `Installed.recognizes` — the names whose declarations are found.

Main statements:
* `Finds.append`, `finds_join` — what is found in a text that is made of parts;
* `parse_text` — what is found in the text of a module.
-/
import Mathlib.Data.List.Chain
import Mathlib.Data.List.TakeWhile
import TypeEnforcement.Label.FileContext
import TypeEnforcement.Proofs.PathPatterns
import TypeEnforcement.Proofs.Words
import TypeEnforcement.Store.Installed

namespace TypeEnforcement

/-- A text is cut at its first separator. -/
theorem Text.splitFirst_append {sep : Char} {front : List Char} (h : sep ∉ front)
    (rest : List Char) : splitFirst sep (front ++ sep :: rest) = some (front, rest) := by
  induction front with
  | nil => simp [splitFirst]
  | cons c front ih =>
    obtain ⟨hc, hfront⟩ := not_or.1 (mt List.mem_cons.2 h)
    rw [List.cons_append, splitFirst, if_neg (Ne.symm hc), ih hfront]
    rfl

/-- A start of a text that has no separator ends before the first separator. -/
theorem Text.exists_append_of_not_mem {sep : Char} {front back start rest : List Char}
    (hstart : sep ∉ start) (h : front ++ sep :: back = start ++ rest) :
    ∃ more, front = start ++ more := by
  rcases List.append_eq_append_iff.1 h with ⟨more, hmore, hback⟩ | ⟨more, hmore, -⟩
  · cases more with
    | nil => exact ⟨[], by rw [hmore, List.append_nil, List.append_nil]⟩
    | cons d more =>
      obtain rfl := (List.cons.inj hback).1
      exact absurd (hmore ▸ List.mem_append_right _ List.mem_cons_self) hstart
  · exact ⟨more, hmore⟩

/-! ### Reading -/

namespace Reader

variable {α β : Type} {item : Reader α} {text rest : List Char}

theorem bind_eq_some_iff {f : α → Reader β} {value : β} :
    (item >>= f) text = some (value, rest) ↔
      ∃ first middle, item text = some (first, middle) ∧ f first middle = some (value, rest) := by
  show (item text).bind (fun found => f found.1 found.2) = _ ↔ _
  rw [Option.bind_eq_some_iff]
  exact Prod.exists

theorem char_eq_some_iff {c : Char} {value : Unit} :
    char c text = some (value, rest) ↔ text = c :: rest := by
  cases text with
  | nil => simp [char]
  | cons d tail =>
    rw [char, List.cons.injEq]
    split
    · rename_i heq
      simp [heq]
    · rename_i hne
      simp [hne]

theorem literal_eq_some_iff {start : String} {value : Unit} :
    literal start text = some (value, rest) ↔ text = start.toList ++ rest := by
  rw [literal, Option.map_eq_some_iff, ← Text.dropStart?_eq_some_iff]
  simp

theorem takeWhile1_eq_some_iff {p : Char → Bool} {taken : List Char} :
    takeWhile1 p text = some (taken, rest) ↔
      taken ≠ [] ∧ text.takeWhile p = taken ∧ text.dropWhile p = rest := by
  rw [takeWhile1, bind_eq_some_iff]
  constructor
  · rintro ⟨first, middle, hfirst, h⟩
    obtain ⟨rfl, rfl⟩ : text.takeWhile p = first ∧ text.dropWhile p = middle := by
      simpa [takeWhile] using hfirst
    split at h
    · cases h
    · rename_i hne
      cases h
      exact ⟨by simpa using hne, rfl, rfl⟩
  · rintro ⟨hne, rfl, rfl⟩
    refine ⟨_, _, rfl, ?_⟩
    rw [if_neg (by simpa using hne)]
    rfl

/-! ### Looking for items -/

/-- What is read takes at least one character. -/
def Shrinks (item : Reader α) : Prop :=
  ∀ text value rest, item text = some (value, rest) → rest.length < text.length

/-- The bound on the places has no part in what is found, if it is large enough. -/
theorem findUpTo_congr (hitem : Shrinks item) {a b : Nat} (ha : text.length ≤ a)
    (hb : text.length ≤ b) : findUpTo item a text = findUpTo item b text := by
  induction a generalizing b text with
  | zero =>
    obtain rfl := List.length_eq_zero_iff.1 (Nat.le_zero.1 ha)
    cases b <;> rfl
  | succ a ih =>
    cases text with
    | nil => cases b <;> rfl
    | cons c tail =>
      rw [List.length_cons] at ha hb
      obtain ⟨b, rfl⟩ : ∃ lower, b = lower + 1 := ⟨b - 1, by omega⟩
      rw [findUpTo, findUpTo]
      cases hfound : item (c :: tail) with
      | none => exact ih (by omega) (by omega)
      | some found =>
        have hlt := hitem _ found.1 found.2 hfound
        rw [List.length_cons] at hlt
        exact congrArg (found.1 :: ·) (ih (by omega) (by omega))

theorem findAll_cons_of_none {c : Char} (h : item (c :: text) = none) :
    findAll item (c :: text) = findAll item text := by
  rw [findAll, List.length_cons, findUpTo, h, findAll]

/-- What is found in a part of a text, whatever follows it. -/
def Finds (item : Reader α) (part : List Char) (values : List α) : Prop :=
  ∀ rest, findAll item (part ++ rest) = values ++ findAll item rest

theorem Finds.append {a b : List Char} {values others : List α} (ha : Finds item a values)
    (hb : Finds item b others) : Finds item (a ++ b) (values ++ others) := by
  intro rest
  rw [List.append_assoc, ha, hb, List.append_assoc]

theorem Finds.findAll_eq {part : List Char} {values : List α} (h : Finds item part values) :
    findAll item part = values := by
  have hall := h []
  rwa [List.append_nil, show findAll item [] = [] from rfl, List.append_nil] at hall

theorem finds_cons {c : Char} {part : List Char} {values : List α}
    (hnone : ∀ rest, item (c :: (part ++ rest)) = none) (hpart : Finds item part values) :
    Finds item (c :: part) values := by
  intro rest
  rw [List.cons_append, findAll_cons_of_none (hnone rest), hpart]

theorem finds_read (hitem : Shrinks item) {part : List Char} {value : α}
    (h : ∀ rest, item (part ++ rest) = some (value, rest)) : Finds item part [value] := by
  intro rest
  have hlt := hitem _ _ _ (h rest)
  generalize hwhole : part ++ rest = whole at hlt
  cases whole with
  | nil => exact absurd hlt (Nat.not_lt_zero _)
  | cons c tail =>
    rw [findAll, List.length_cons, findUpTo, ← hwhole, h]
    exact congrArg (value :: ·) (findUpTo_congr hitem (Nat.lt_succ_iff.1 hlt) le_rfl)

theorem finds_join {items : List β} {f : β → String} {values : β → List α}
    (h : ∀ x ∈ items, Finds item (f x).toList (values x)) :
    Finds item (String.join (items.map f)).toList (items.flatMap values) := by
  induction items with
  | nil => exact fun rest => rfl
  | cons x items ih =>
    obtain ⟨hx, hitems⟩ := List.forall_mem_cons.1 h
    rw [List.map_cons, String.join_cons, String.toList_append, List.flatMap_cons]
    exact hx.append (ih hitems)

/-- What is read begins with a parenthesis and a known character. -/
def OpensWith (item : Reader α) (c : Char) : Prop :=
  ∀ text value rest, item text = some (value, rest) → ∃ tail, text = '(' :: c :: tail

/-- Parentheses are followed by other characters, and none stands at the end. -/
def IsApart (c : Char) (part : List Char) : Prop :=
  part.IsChain (fun a b => ¬(a = '(' ∧ b = c)) ∧ part.getLast? ≠ some '('

instance (c : Char) (part : List Char) : Decidable (IsApart c part) :=
  inferInstanceAs (Decidable (_ ∧ _))

theorem isApart_of_not_mem {c : Char} {part : List Char} (h : '(' ∉ part) : IsApart c part := by
  refine ⟨?_, fun hlast => h (List.mem_of_getLast? hlast)⟩
  induction part with
  | nil => exact .nil
  | cons a tail ih =>
    obtain ⟨ha, htail⟩ := not_or.1 (mt List.mem_cons.2 h)
    cases tail with
    | nil => exact .singleton a
    | cons b tail => exact .cons_cons (fun hopen => ha hopen.1.symm) (ih htail)

theorem finds_of_isApart {c : Char} (hitem : OpensWith item c) {part : List Char}
    (h : IsApart c part) : Finds item part [] := by
  obtain ⟨hchain, hlast⟩ := h
  induction part with
  | nil => exact fun rest => rfl
  | cons a tail ih =>
    refine finds_cons (fun rest => ?_) (ih hchain.tail ?_)
    · -- The item would need the parenthesis and the character that the part keeps apart.
      refine Option.eq_none_iff_forall_not_mem.2 fun found hfound => ?_
      obtain ⟨after, heq⟩ := hitem _ found.1 found.2 hfound
      obtain ⟨hopen, hfollow⟩ := List.cons.inj heq
      cases tail with
      | nil => exact hlast (congrArg some hopen)
      | cons b tail =>
        exact (List.isChain_cons_cons.1 hchain).1 ⟨hopen, (List.cons.inj hfollow).1⟩
    · intro htail
      cases tail with
      | nil => cases htail
      | cons b tail => exact hlast (by rwa [List.getLast?_cons_cons])

end Reader

namespace Installed

open Reader

/-! ### The text of a module -/

/-- The word of a class in the intermediate language. -/
def classWord : FileClass → String
  | .any => "any"
  | .block => "block"
  | .character => "char"
  | .directory => "dir"
  | .fifo => "pipe"
  | .link => "symlink"
  | .socket => "socket"
  | .file => "file"

/-- The declaration of a type. -/
def typeStatement (name : String) : String :=
  "(type " ++ name ++ ")\n"

/-- What follows the pattern in the declaration of a file context. -/
def labelStatement (entry : FileContext) : String :=
  " " ++ classWord entry.fileClass ++ " (system_u object_r " ++ entry.label.typeName ++
    " ((s0) (s0))))\n"

/-- The declaration of a file context. -/
def fileContextStatement (entry : FileContext) : String :=
  "(filecon \"" ++ entry.pattern ++ "\"" ++ labelStatement entry

/-- The text of a module that declares types and file contexts. -/
def text (types : List String) (entries : List FileContext) : String :=
  String.join (types.map typeStatement) ++ String.join (entries.map fileContextStatement)

/-- The names whose declarations are found: words that end in `_t`. -/
def recognizes (name : String) : Bool :=
  name.toList.all Text.isWord && (Text.dropEnd? ['_', 't'] name.toList).any (· ≠ [])

/-- The name is one symbol of the intermediate language. -/
def IsSymbol (name : String) : Prop :=
  Text.IsWord name ∧ '(' ∉ name.toList ∧ ')' ∉ name.toList

instance (name : String) : Decidable (IsSymbol name) :=
  inferInstanceAs (Decidable (_ ∧ _))

/-! ### The two readers -/

variable {chars rest : List Char} {name pattern : String}

theorem statementHead_eq_some_iff {keyword : String} {value : Unit} :
    statementHead keyword chars = some (value, rest) ↔
      ∃ middle, chars = '(' :: keyword.toList ++ middle ∧
        middle.takeWhile Text.isBlank ≠ [] ∧ middle.dropWhile Text.isBlank = rest := by
  simp only [statementHead, bind_eq_some_iff, char_eq_some_iff, literal_eq_some_iff,
    takeWhile1_eq_some_iff]
  constructor
  · rintro ⟨_, _, rfl, _, middle, rfl, taken, after, ⟨hne, rfl, rfl⟩, h⟩
    cases h
    exact ⟨middle, rfl, hne, rfl⟩
  · rintro ⟨middle, rfl, hne, rfl⟩
    exact ⟨(), _, rfl, (), middle, rfl, _, _, ⟨hne, rfl, rfl⟩, rfl⟩

/-- The word is the whole of what is read only if it has the right form. -/
theorem typeDeclaration_eq_some_iff :
    typeDeclaration chars = some (name, rest) ↔
      ∃ middle, chars = "(type".toList ++ middle ∧ middle.takeWhile Text.isBlank ≠ [] ∧
        middle.dropWhile Text.isBlank = name.toList ++ ')' :: rest ∧ recognizes name = true := by
  have hclose : Text.isWord ')' = false := by decide +kernel
  simp only [typeDeclaration, bind_eq_some_iff, statementHead_eq_some_iff, char_eq_some_iff]
  constructor
  · rintro ⟨_, after, ⟨middle, rfl, hgap, rfl⟩, word, _, hword, _, tail, rfl, h⟩
    obtain ⟨rfl, htail⟩ := Prod.mk.inj (Option.some.inj hword)
    -- The word ends in `_t`, and something stands before that.
    rcases hstem : Text.dropEnd? ['_', 't'] ((middle.dropWhile Text.isBlank).takeWhile Text.isWord)
      with _ | _ | ⟨first, stem⟩
    · rw [hstem] at h
      cases h
    · rw [hstem] at h
      cases h
    · rw [hstem] at h
      cases h
      refine ⟨middle, rfl, hgap, ?_, ?_⟩
      · rw [String.toList_ofList, ← htail, List.takeWhile_append_dropWhile]
      · rw [recognizes, String.toList_ofList, hstem, List.all_takeWhile]
        rfl
  · rintro ⟨middle, rfl, hgap, hname, hrecognized⟩
    obtain ⟨hword, hending⟩ := Bool.and_eq_true_iff.1 hrecognized
    rw [List.all_eq_true] at hword
    refine ⟨(), _, ⟨middle, rfl, hgap, rfl⟩, name.toList, ')' :: rest, ?_, (), rest, rfl, ?_⟩
    · rw [hname, takeWhile, List.takeWhile_append_of_pos hword, List.dropWhile_append_of_pos hword,
        List.takeWhile_cons_of_neg (by simp [hclose]),
        List.dropWhile_cons_of_neg (by simp [hclose]), List.append_nil]
    · obtain ⟨stem, hstem, hne⟩ := (Option.any_eq_true _ _).1 hending
      obtain ⟨first, others, rfl⟩ := List.exists_cons_of_ne_nil (of_decide_eq_true hne)
      rw [hstem]
      show some (String.ofList name.toList, rest) = some (name, rest)
      rw [String.ofList_toList]

theorem fileContextPattern_eq_some_iff :
    fileContextPattern chars = some (pattern, rest) ↔
      ∃ middle, chars = "(filecon".toList ++ middle ∧ middle.takeWhile Text.isBlank ≠ [] ∧
        middle.dropWhile Text.isBlank = '"' :: pattern.toList ++ '"' :: rest ∧
        '"' ∉ pattern.toList := by
  simp only [fileContextPattern, bind_eq_some_iff, statementHead_eq_some_iff, char_eq_some_iff]
  constructor
  · rintro ⟨_, after, ⟨middle, rfl, hgap, rfl⟩, _, tail, hopen, word, _, hword, _, last, rfl, h⟩
    obtain ⟨rfl, htail⟩ := Prod.mk.inj (Option.some.inj hword)
    cases h
    refine ⟨middle, rfl, hgap, ?_, ?_⟩
    · rw [hopen, String.toList_ofList, List.cons_append, ← htail, List.takeWhile_append_dropWhile]
    · rw [String.toList_ofList]
      intro hquote
      simpa using List.mem_takeWhile_imp hquote
  · rintro ⟨middle, rfl, hgap, hmiddle, hquote⟩
    have hplain : ∀ c ∈ pattern.toList, (c != '"') = true := fun c hc =>
      bne_iff_ne.2 fun heq => hquote (heq ▸ hc)
    refine ⟨(), _, ⟨middle, rfl, hgap, rfl⟩, (), pattern.toList ++ '"' :: rest, hmiddle,
      pattern.toList, '"' :: rest, ?_, (), rest, rfl, ?_⟩
    · rw [takeWhile, List.takeWhile_append_of_pos hplain, List.dropWhile_append_of_pos hplain,
        List.takeWhile_cons_of_neg (by simp), List.dropWhile_cons_of_neg (by simp),
        List.append_nil]
    · show some (String.ofList pattern.toList, rest) = some (pattern, rest)
      rw [String.ofList_toList]

theorem shrinks_typeDeclaration : Shrinks typeDeclaration := by
  intro chars name rest h
  obtain ⟨middle, rfl, -, hmiddle, -⟩ := typeDeclaration_eq_some_iff.1 h
  have hle : (middle.dropWhile Text.isBlank).length ≤ middle.length := List.length_dropWhile_le ..
  rw [hmiddle, List.length_append, List.length_cons] at hle
  rw [List.length_append]
  omega

theorem shrinks_fileContextPattern : Shrinks fileContextPattern := by
  intro chars pattern rest h
  obtain ⟨middle, rfl, -, hmiddle, -⟩ := fileContextPattern_eq_some_iff.1 h
  have hle : (middle.dropWhile Text.isBlank).length ≤ middle.length := List.length_dropWhile_le ..
  rw [hmiddle, List.length_append, List.length_cons, List.length_cons] at hle
  rw [List.length_append]
  omega

theorem opensWith_typeDeclaration : OpensWith typeDeclaration 't' := by
  intro chars name rest h
  obtain ⟨middle, rfl, -⟩ := typeDeclaration_eq_some_iff.1 h
  exact ⟨_, rfl⟩

theorem opensWith_fileContextPattern : OpensWith fileContextPattern 'f' := by
  intro chars pattern rest h
  obtain ⟨middle, rfl, -⟩ := fileContextPattern_eq_some_iff.1 h
  exact ⟨_, rfl⟩

/-! ### The declarations of types -/

theorem not_mem_of_isWord {name : String} (h : ∀ c ∈ name.toList, Text.isWord c = true) :
    ')' ∉ name.toList := fun hmem => absurd (h _ hmem) (by decide +kernel)

/-- What follows the keyword of a declaration is the name, after one blank. -/
theorem takeBlanks_name (h : IsSymbol name) (rest : List Char) :
    (' ' :: (name.toList ++ rest)).takeWhile Text.isBlank ≠ [] ∧
      (' ' :: (name.toList ++ rest)).dropWhile Text.isBlank = name.toList ++ rest := by
  obtain ⟨first, others, hname⟩ := List.exists_cons_of_ne_nil h.1.toList_ne_nil
  have hfirst : Text.isBlank first = false := h.1.2 first (hname ▸ List.mem_cons_self)
  have hgap : Text.isBlank ' ' = true := by decide
  rw [hname]
  simp [hgap, hfirst]

/-- The declaration of a type is found if its name is recognized. -/
theorem finds_typeStatement (h : IsSymbol name) :
    Finds typeDeclaration (typeStatement name).toList ([name].filter recognizes) := by
  have htext (rest : List Char) : ("(type " ++ name ++ ")").toList ++ rest =
      "(type".toList ++ ' ' :: (name.toList ++ ')' :: rest) := by
    simp
  have hfeed : Finds typeDeclaration ['\n'] [] :=
    finds_of_isApart opensWith_typeDeclaration (by decide)
  rw [typeStatement, show ")\n" = ")" ++ "\n" from rfl, ← String.append_assoc, String.toList_append,
    ← List.append_nil (List.filter _ _)]
  refine Finds.append ?_ hfeed
  by_cases hrecognized : recognizes name = true
  · rw [List.filter_cons_of_pos hrecognized]
    refine finds_read shrinks_typeDeclaration fun rest => ?_
    obtain ⟨hgap, hname⟩ := takeBlanks_name h (')' :: rest)
    exact typeDeclaration_eq_some_iff.2 ⟨_, htext rest, hgap, hname, hrecognized⟩
  · rw [List.filter_cons_of_neg hrecognized]
    -- Whatever is read instead has the same name, up to the parenthesis.
    have hnone (rest : List Char) :
        typeDeclaration (("(type " ++ name ++ ")").toList ++ rest) = none := by
      refine Option.eq_none_iff_forall_not_mem.2 fun found hfound => hrecognized ?_
      obtain ⟨middle, hmiddle, -, hname, hfits⟩ := typeDeclaration_eq_some_iff.1 hfound
      obtain rfl := List.append_cancel_left ((htext rest).symm.trans hmiddle)
      have hword := List.all_eq_true.1 (Bool.and_eq_true_iff.1 hfits).1
      have hcut := congrArg (Text.splitFirst ')')
        ((takeBlanks_name h (')' :: rest)).2.symm.trans hname)
      rw [Text.splitFirst_append h.2.2, Text.splitFirst_append (not_mem_of_isWord hword)] at hcut
      have hsame : name.toList = found.1.toList := (Prod.mk.inj (Option.some.inj hcut)).1
      rwa [String.toList_inj.1 hsame]
    have hparts : ("(type " ++ name ++ ")").toList =
        '(' :: ("type ".toList ++ name.toList ++ ")".toList) := by
      simp
    rw [hparts] at hnone ⊢
    have hopen : '(' ∉ "type ".toList ++ name.toList ++ ")".toList := by simp [h.2.1]
    exact finds_cons hnone (finds_of_isApart opensWith_typeDeclaration (isApart_of_not_mem hopen))

/-- No pattern is found in the declaration of a type. -/
theorem finds_nothing_typeStatement (h : IsSymbol name) :
    Finds fileContextPattern (typeStatement name).toList [] := by
  have hopens := opensWith_fileContextPattern
  rw [typeStatement, String.toList_append, String.toList_append]
  exact .append (.append (finds_of_isApart hopens (by decide))
    (finds_of_isApart hopens (isApart_of_not_mem h.2.1))) (finds_of_isApart hopens (by decide))

/-! ### The declarations of file contexts -/

/-- An entry that can be declared in the intermediate language. -/
structure IsDeclarable (entry : FileContext) : Prop where
  quoted : '"' ∉ entry.pattern.toList
  closesApart : Path.ClosesApart entry.pattern.toList
  typeName : '(' ∉ entry.label.typeName.toList

theorem finds_labelStatement {α : Type} {item : Reader α} {c : Char} (hitem : OpensWith item c)
    (hc : c = 't' ∨ c = 'f') {entry : FileContext} (h : IsDeclarable entry) :
    Finds item (labelStatement entry).toList [] := by
  have hclass : '(' ∉ (classWord entry.fileClass).toList := by
    cases entry.fileClass <;> decide
  have hopening : IsApart c " (system_u object_r ".toList := by
    rcases hc with rfl | rfl <;> decide
  have hclosing : IsApart c " ((s0) (s0))))\n".toList := by
    rcases hc with rfl | rfl <;> decide
  simp only [labelStatement, String.toList_append]
  exact .append (.append (.append (.append (finds_of_isApart hitem (isApart_of_not_mem (by decide)))
    (finds_of_isApart hitem (isApart_of_not_mem hclass))) (finds_of_isApart hitem hopening))
    (finds_of_isApart hitem (isApart_of_not_mem h.typeName))) (finds_of_isApart hitem hclosing)

/-- A recognized name ends in the letter that no parenthesis of a pattern follows. -/
theorem exists_stem_of_recognizes (h : recognizes name = true) :
    ∃ stem, name.toList = stem ++ ['t'] := by
  obtain ⟨stem, hstem, -⟩ := (Option.any_eq_true _ _).1 (Bool.and_eq_true_iff.1 h).2
  refine ⟨stem ++ ['_'], ?_⟩
  rw [Text.dropEnd?_eq_some_iff.1 hstem, List.append_assoc]
  rfl

/-- No declaration of a type begins inside a quoted pattern. -/
theorem finds_nothing_quoted {chars : List Char} (hquoted : '"' ∉ chars)
    (h : Path.ClosesApart chars) : Finds typeDeclaration (chars ++ ['"']) [] := by
  induction chars with
  | nil => exact finds_of_isApart opensWith_typeDeclaration (by decide)
  | cons c tail ih =>
    obtain ⟨-, htail⟩ := not_or.1 (mt List.mem_cons.2 hquoted)
    refine finds_cons (fun rest => ?_) (ih htail h.tail)
    refine Option.eq_none_iff_forall_not_mem.2 fun found hfound => ?_
    obtain ⟨middle, htext, -, hname, hfits⟩ := typeDeclaration_eq_some_iff.1 hfound
    obtain ⟨stem, hstem⟩ := exists_stem_of_recognizes hfits
    have hword := List.all_eq_true.1 (Bool.and_eq_true_iff.1 hfits).1
    -- Blanks and words have no quotes, so the declaration ends inside the pattern.
    have hstart : '"' ∉ "(type".toList ++ middle.takeWhile Text.isBlank ++ stem ++ ['t', ')'] := by
      have hblanks : '"' ∉ middle.takeWhile Text.isBlank := fun hmem =>
        absurd (List.mem_takeWhile_imp hmem) (by decide)
      have hletters : '"' ∉ stem := fun hmem =>
        absurd (hword _ (hstem ▸ List.mem_append_left _ hmem)) (by decide +kernel)
      simp [hblanks, hletters]
    have hwhole : c :: tail ++ '"' :: rest =
        "(type".toList ++ middle.takeWhile Text.isBlank ++ stem ++ ['t', ')'] ++ found.2 := by
      rw [hstem] at hname
      rw [← List.takeWhile_append_dropWhile (p := Text.isBlank) (l := middle), hname] at htext
      simpa using htext
    obtain ⟨more, hmore⟩ := Text.exists_append_of_not_mem hstart hwhole
    rw [hmore, List.append_assoc _ ['t', ')']] at h
    exact (List.isChain_cons_cons.1 (List.isChain_split.1 h).2).1 ⟨rfl, rfl⟩

/-- No type is found in the declaration of a file context. -/
theorem finds_nothing_fileContextStatement {entry : FileContext} (h : IsDeclarable entry) :
    Finds typeDeclaration (fileContextStatement entry).toList [] := by
  have hopens := opensWith_typeDeclaration
  have hparts : (fileContextStatement entry).toList =
      "(filecon \"".toList ++ (entry.pattern.toList ++ ['"']) ++ (labelStatement entry).toList := by
    simp [fileContextStatement]
  rw [hparts]
  exact .append (.append (finds_of_isApart hopens (by decide))
    (finds_nothing_quoted h.quoted h.closesApart)) (finds_labelStatement hopens (.inl rfl) h)

/-- The pattern is found in the declaration of a file context. -/
theorem finds_fileContextStatement {entry : FileContext} (h : IsDeclarable entry) :
    Finds fileContextPattern (fileContextStatement entry).toList [entry.pattern] := by
  have hgap : Text.isBlank ' ' = true ∧ Text.isBlank '"' = false := by decide
  have htext (rest : List Char) : ("(filecon \"" ++ entry.pattern ++ "\"").toList ++ rest =
      "(filecon".toList ++ ' ' :: '"' :: (entry.pattern.toList ++ '"' :: rest) := by
    simp
  rw [fileContextStatement, String.toList_append, ← List.append_nil [entry.pattern]]
  refine .append (finds_read shrinks_fileContextPattern fun rest => ?_)
    (finds_labelStatement opensWith_fileContextPattern (.inr rfl) h)
  exact fileContextPattern_eq_some_iff.2 ⟨_, htext rest, by simp [hgap], by simp [hgap], h.quoted⟩

/-! ### What is found in the text of a module -/

/-- The text of a module begins with a parenthesis, if it is not empty. -/
theorem eq_of_mem_head?_text {types : List String} {entries : List FileContext} :
    ∀ c ∈ (text types entries).toList.head?, c = '(' := by
  intro c hc
  cases types with
  | cons name types => simpa [text, typeStatement, String.join_cons, eq_comm] using hc
  | nil =>
    cases entries with
    | cons entry entries =>
      simpa [text, fileContextStatement, String.join_cons, eq_comm] using hc
    | nil => cases hc

/-- What is found in the text of a module: the types whose names are recognized, and the patterns of
all file contexts. -/
theorem parse_text {types : List String} {entries : List FileContext}
    (htypes : ∀ name ∈ types, IsSymbol name) (hentries : ∀ entry ∈ entries, IsDeclarable entry) :
    parse (text types entries) =
      { types := types.filter recognizes, patterns := entries.map FileContext.pattern } := by
  have htypesFound : Finds typeDeclaration (text types entries).toList
      (types.flatMap (fun name => [name].filter recognizes) ++ entries.flatMap fun _ => []) := by
    rw [text, String.toList_append]
    exact .append (finds_join fun name hname => finds_typeStatement (htypes name hname))
      (finds_join fun entry hentry => finds_nothing_fileContextStatement (hentries entry hentry))
  -- Either statement is passed over by the search for the other one.
  have hpatternsFound : Finds fileContextPattern (text types entries).toList
      (types.flatMap (fun _ => []) ++ entries.flatMap fun entry => [entry.pattern]) := by
    rw [text, String.toList_append]
    exact .append (finds_join fun name hname => finds_nothing_typeStatement (htypes name hname))
      (finds_join fun entry hentry => finds_fileContextStatement (hentries entry hentry))
  have hnone {α β : Type} (items : List α) : (items.flatMap fun _ => ([] : List β)) = [] :=
    List.flatMap_eq_nil_iff.2 fun _ _ => rfl
  simp only [parse]
  rw [htypesFound.findAll_eq, hpatternsFound.findAll_eq, hnone, hnone, List.append_nil,
    List.nil_append, ← List.filter_flatMap, List.flatMap_singleton', ← List.map_eq_flatMap]

end Installed

end TypeEnforcement
