/-
Patterns between anchors.

The text of a pattern is pasted between anchors before it is read.  If the text is a pattern by
itself, then it is read in its place as it is read by itself, and the whole is held to both ends.

* `Pattern.anchored` — a pattern held to both ends of a text.

Main statements:
* `readAll_closing` — what is pasted behind a text does not change how its tokens are read;
* `compile_of_parse` — a pattern is compiled to itself, held to both ends;
* `search_anchored` — and so compiled it is found in the texts that it matches from end to end.
-/
import TypeEnforcement.Pattern.Parser
import Mathlib.Data.List.Basic

namespace TypeEnforcement

open Pattern (opening closing)

/-! ### Texts that go on -/

private theorem dropWhile_append_of_ne_nil {p : Char → Bool} {text : List Char}
    (h : text.dropWhile p ≠ []) (more : List Char) :
    (text ++ more).dropWhile p = text.dropWhile p ++ more := by
  rw [List.dropWhile_append, if_neg (by simpa using h)]

private theorem takeWhile_append_of_ne_nil {p : Char → Bool} {text : List Char}
    (h : text.dropWhile p ≠ []) (more : List Char) :
    (text ++ more).takeWhile p = text.takeWhile p := by
  induction text with
  | nil => exact absurd rfl h
  | cons c rest ih =>
    by_cases hc : p c = true
    · rw [List.dropWhile_cons_of_pos hc] at h
      rw [List.cons_append, List.takeWhile_cons_of_pos hc, List.takeWhile_cons_of_pos hc, ih h]
    · rw [List.cons_append, List.takeWhile_cons_of_neg hc, List.takeWhile_cons_of_neg hc]

/-! ### Escapes -/

theorem readCodePoint_append {count : Nat} {text after : List Char} {c : Char}
    (hcount : 0 < count) (h : readCodePoint count text = some (c, after)) (more : List Char) :
    readCodePoint count (text ++ more) = some (c, after ++ more) := by
  unfold readCodePoint at h
  split at h
  · -- Between braces: the closing one is in the text itself.
    rename_i rest
    rw [List.cons_append, readCodePoint]
    cases hdrop : rest.dropWhile (· ≠ '}') with
    | nil =>
      rw [hdrop] at h
      cases h
    | cons brace tail =>
      have hne : rest.dropWhile (· ≠ '}') ≠ [] := hdrop ▸ List.cons_ne_nil _ _
      rw [hdrop] at h
      rw [dropWhile_append_of_ne_nil hne, takeWhile_append_of_ne_nil hne, hdrop]
      obtain ⟨d, hd, heq⟩ := Option.map_eq_some_iff.1 h
      cases heq
      rw [List.cons_append, hd]
      rfl
  · -- Without braces: the digits are counted, and there are enough of them.
    rename_i hbrace
    split at h
    · cases h
    · rename_i hlength
      obtain ⟨d, hd, heq⟩ := Option.map_eq_some_iff.1 h
      cases heq
      cases text with
      | nil => exact absurd hcount (by simpa using hlength)
      | cons e rest =>
        have hle : count ≤ (e :: rest).length := Nat.le_of_not_lt hlength
        unfold readCodePoint
        split
        · rename_i other heq
          exact absurd (congrArg (· :: rest) (List.cons.inj heq).1) (hbrace rest)
        · rw [if_neg (by simp at hle ⊢; omega), List.take_append_of_le_length hle,
            List.drop_append_of_le_length hle, hd]
          rfl

theorem readCodePointEscape_append {count : Nat} {text after : List Char} {e : Escape}
    (hcount : 0 < count) (h : readCodePointEscape count text = some (e, after))
    (more : List Char) : readCodePointEscape count (text ++ more) = some (e, after ++ more) := by
  unfold readCodePointEscape at h ⊢
  obtain ⟨⟨d, tail⟩, hd, heq⟩ := Option.map_eq_some_iff.1 h
  cases heq
  rw [readCodePoint_append hcount hd]
  rfl

theorem Escape.read_append {text after : List Char} {e : Escape}
    (h : Escape.read text = some (e, after)) (more : List Char) :
    Escape.read (text ++ more) = some (e, after ++ more) := by
  cases text with
  | nil => cases h
  | cons c rest =>
    rw [List.cons_append]
    unfold Escape.read at h ⊢
    dsimp only at h ⊢
    split at h
    -- Code points of two, four and eight digits, then punctuation; the others are one letter.
    case h_17 => exact readCodePointEscape_append (by decide) h more
    case h_18 => exact readCodePointEscape_append (by decide) h more
    case h_19 => exact readCodePointEscape_append (by decide) h more
    case h_20 =>
      split at h
      · rename_i hplain
        cases h
        rw [if_pos hplain]
      · cases h
    all_goals
      cases h
      rfl

/-! ### Brackets -/

namespace CharSet

theorem readMember_append {text after : List Char} {e : Escape}
    (h : readMember text = some (e, after)) (more : List Char) :
    readMember (text ++ more) = some (e, after ++ more) := by
  unfold readMember at h
  split at h
  · cases h
  · exact Escape.read_append h more
  · rename_i c rest hslash
    cases h
    unfold readMember
    split
    · rename_i heq
      cases heq
    · rename_i heq
      exact absurd (List.cons.inj heq).1 (by simpa using hslash)
    · rename_i heq
      cases heq
      rfl

theorem readName?_closing (text : List Char) :
    readName? (text ++ closing) =
      (readName? text).map fun (s, after) => (s, after ++ closing) := by
  unfold readName?
  by_cases hcolon : text.dropWhile (· ≠ ':') = []
  · -- There is no colon in the closing text either.
    have hnone : (text ++ closing).dropWhile (· ≠ ':') = [] := by
      rw [List.dropWhile_append, if_pos (List.isEmpty_iff.2 hcolon)]
      decide
    rw [hcolon, hnone]
    rfl
  · rw [dropWhile_append_of_ne_nil hcolon, takeWhile_append_of_ne_nil hcolon]
    generalize named? (String.ofList (text.takeWhile (· ≠ ':'))) = found
    obtain _ | ⟨c, _ | ⟨d, rest⟩⟩ := text.dropWhile (· ≠ ':')
    · rfl
    · rfl
    · show (if some d = some ']' then _ else none) =
        Option.map _ (if some d = some ']' then _ else _)
      split
      · rw [Option.map_map]
        rfl
      · rfl

theorem readNamed?_closing (text : List Char) :
    readNamed? (text ++ closing) =
      (readNamed? text).map fun (s, after) => (s, after ++ closing) := by
  obtain _ | ⟨c, rest⟩ := text
  · rfl
  unfold readNamed?
  rw [List.cons_append, List.head?_cons, List.head?_cons, List.tail_cons, List.tail_cons]
  by_cases hcolon : some c = some ':'
  · rw [if_pos hcolon, if_pos hcolon]
    by_cases hrest : rest = []
    · subst hrest
      rfl
    · rw [List.head?_append_of_ne_nil _ hrest, List.tail_append_of_ne_nil hrest]
      split
      · rw [readName?_closing, Option.map_map, Option.map_map]
        rfl
      · exact readName?_closing rest
  · rw [if_neg hcolon, if_neg hcolon]
    rfl

theorem dashIsNext_closing {text : List Char} (h : text ≠ ['-']) :
    dashIsNext (text ++ closing) = dashIsNext text := by
  obtain _ | ⟨c, _ | ⟨d, rest⟩⟩ := text
  · decide
  · have hc : (c == '-') = false := by simpa using h
    simp [dashIsNext, hc]
  · rfl

theorem readItem_closing {text after : List Char} {s : CharSet}
    (h : readItem text = some (s, after)) :
    readItem (text ++ closing) = some (s, after ++ closing) := by
  unfold readItem at h ⊢
  obtain ⟨⟨first, rest⟩, hfirst, h⟩ := Option.bind_eq_some_iff.1 h
  rw [readMember_append hfirst closing]
  dsimp only [bind, Option.bind] at h ⊢
  by_cases hdash : rest = ['-']
  · -- Nothing follows the dash, so there is no range and no item.
    subst hdash
    cases h
  · rw [dashIsNext_closing hdash]
    split at h
    · rename_i hnext
      rw [if_pos hnext]
      obtain ⟨c, more, rfl⟩ : ∃ c more, rest = c :: more := by
        cases rest with
        | nil => cases hnext
        | cons c more => exact ⟨c, more, rfl⟩
      rw [List.cons_append, List.tail_cons] at *
      cases hsecond : readMember more with
      | none =>
        rw [hsecond] at h
        cases h
      | some found =>
        obtain ⟨second, rest⟩ := found
        rw [hsecond] at h
        rw [readMember_append hsecond]
        dsimp only at h ⊢
        split at h
        · split at h
          · rename_i hle
            cases h
            exact if_pos hle
          · cases h
        · cases h
    · rename_i hnext
      rw [if_neg hnext]
      obtain ⟨found, hfound, heq⟩ := Option.map_eq_some_iff.1 h
      cases heq
      rw [hfound]
      rfl

theorem readLeading_closing {text : List Char} (h : (readLeading text).2 ≠ []) :
    readLeading (text ++ closing) = ((readLeading text).1, (readLeading text).2 ++ closing) := by
  obtain _ | ⟨c, rest⟩ := text
  · exact absurd rfl h
  · unfold readLeading at h ⊢
    rw [List.head?_append_of_ne_nil _ (List.cons_ne_nil c rest)]
    by_cases hdash : (c :: rest).head? = some '-'
    · rw [if_pos hdash] at h ⊢
      rw [if_pos hdash, dropWhile_append_of_ne_nil h]
    · rw [if_neg hdash, if_neg hdash]
      by_cases hbracket : (c :: rest).head? = some ']'
      · rw [if_pos hbracket, if_pos hbracket]
        rfl
      · rw [if_neg hbracket, if_neg hbracket]

theorem readOpening_closing {text : List Char} (h : (readOpening text).2.2 ≠ []) :
    readOpening (text ++ closing) =
      ((readOpening text).1, (readOpening text).2.1, (readOpening text).2.2 ++ closing) := by
  obtain _ | ⟨c, rest⟩ := text
  · exact absurd rfl h
  · unfold readOpening at h ⊢
    rw [List.head?_append_of_ne_nil _ (List.cons_ne_nil c rest)]
    by_cases hcaret : (c :: rest).head? = some '^'
    · rw [if_pos hcaret] at h ⊢
      have hrest : readLeading (rest ++ closing) = _ := readLeading_closing h
      rw [if_pos hcaret, List.cons_append, List.tail_cons, hrest]
      rfl
    · rw [if_neg hcaret] at h ⊢
      rw [if_neg hcaret, readLeading_closing h]

theorem readJoin?_closing (text : List Char) :
    readJoin? (text ++ closing) =
      (readJoin? text).map fun (op, after) => (op, after ++ closing) := by
  obtain _ | ⟨c, _ | ⟨d, rest⟩⟩ := text
  · rfl
  · -- The closing text begins with a parenthesis, which is no operation.
    show (if c = ')' then _ else none) = none
    split
    · rename_i hc
      rw [hc]
      rfl
    · rfl
  · show (if c = d then _ else none) = Option.map _ (if c = d then _ else none)
    split
    · rw [Option.map_map]
      rfl
    · rfl

theorem readMembers_nil (fuel : Nat) (left : Option (CharSet × JoinOp)) (sofar : CharSet) :
    readMembers fuel left sofar [] = none := by
  cases fuel <;> rfl

theorem readMembers_closing {fuel fuel' : Nat} {left : Option (CharSet × JoinOp)}
    {sofar s : CharSet} {text after : List Char}
    (h : readMembers fuel left sofar text = some (s, after)) (hfuel : fuel ≤ fuel') :
    readMembers fuel' left sofar (text ++ closing) = some (s, after ++ closing) := by
  -- The longer text brings more fuel, so the induction leaves room for any greater amount.
  induction fuel generalizing fuel' left sofar s text after with
  | zero => cases h
  | succ fuel ih =>
    obtain ⟨fuel', rfl⟩ : ∃ more, fuel' = more + 1 := ⟨fuel' - 1, by omega⟩
    have hfuel : fuel ≤ fuel' := by omega
    obtain _ | ⟨c, rest⟩ := text
    · cases h
    · rw [List.cons_append]
      unfold readMembers at h ⊢
      dsimp only at h ⊢
      by_cases hend : c = ']'
      · rw [if_pos hend] at h ⊢
        cases h
        rfl
      rw [if_neg hend] at h ⊢
      by_cases hopen : c = '['
      · rw [if_pos hopen] at h ⊢
        rw [readNamed?_closing]
        cases hnamed : readNamed? rest with
        | some found =>
          rw [hnamed] at h
          exact ih h hfuel
        | none =>
          rw [hnamed] at h
          dsimp only [Option.map] at h ⊢
          cases hinner : readMembers fuel none (readOpening rest).2.1 (readOpening rest).2.2 with
          | none =>
            rw [hinner] at h
            cases h
          | some found =>
            rw [hinner] at h
            -- An inner bracket that ends has members to read.
            have hmore : (readOpening rest).2.2 ≠ [] := by
              intro hnil
              rw [hnil, readMembers_nil] at hinner
              cases hinner
            rw [readOpening_closing hmore]
            dsimp only
            rw [ih hinner hfuel]
            exact ih h hfuel
      · rw [if_neg hopen] at h ⊢
        rw [← List.cons_append, readJoin?_closing]
        cases hjoin : readJoin? (c :: rest) with
        | some found =>
          rw [hjoin] at h
          exact ih h hfuel
        | none =>
          rw [hjoin] at h
          dsimp only [Option.map] at h ⊢
          cases hitem : readItem (c :: rest) with
          | none =>
            rw [hitem] at h
            cases h
          | some found =>
            rw [hitem] at h
            rw [readItem_closing hitem]
            exact ih h hfuel

theorem readBracket_closing {text after : List Char} {s : CharSet}
    (h : readBracket text = some (s, after)) :
    readBracket (text ++ closing) = some (s, after ++ closing) := by
  have hclosing := @readOpening_closing text
  unfold readBracket at h ⊢
  generalize readOpening text = opened at h hclosing
  obtain ⟨negated, leading, rest⟩ := opened
  dsimp only at h hclosing
  obtain ⟨⟨members, rest'⟩, hmembers, heq⟩ := Option.map_eq_some_iff.1 h
  cases heq
  have hrest : rest ≠ [] := by
    intro hnil
    rw [hnil, readMembers_nil] at hmembers
    cases hmembers
  -- The longer text brings more fuel, and more fuel reads the same members.
  have hfuel : text.length + 1 ≤ (text ++ closing).length + 1 := by
    rw [List.length_append]
    omega
  rw [hclosing hrest]
  dsimp only
  rw [readMembers_closing hmembers hfuel]
  rfl

end CharSet

/-! ### Tokens -/

namespace Token

theorem skipLazyMark_closing (text : List Char) :
    skipLazyMark (text ++ closing) = skipLazyMark text ++ closing := by
  obtain _ | ⟨c, rest⟩ := text
  · rfl
  · rw [List.cons_append]
    unfold skipLazyMark
    split
    · rename_i heq
      cases heq
      rfl
    · rename_i hne
      split
      · rename_i heq
        cases heq
        exact absurd rfl (hne _)
      · rfl

theorem readCount_append {text rest : List Char} {count : Nat}
    (h : readCount text = some (count, rest)) (hrest : rest ≠ []) (more : List Char) :
    readCount (text ++ more) = some (count, rest ++ more) := by
  unfold readCount at h ⊢
  dsimp only at h ⊢
  split at h
  · cases h
  · rename_i hcount
    cases h
    -- What is left is not empty, so neither were the texts that it was left of.
    have hdigits : (text.dropWhile Text.isBlank).dropWhile Char.isDigit ≠ [] := by
      intro hnil
      exact hrest (by rw [hnil]; rfl)
    have htext : text.dropWhile Text.isBlank ≠ [] := by
      intro hnil
      exact hdigits (by rw [hnil]; rfl)
    rw [dropWhile_append_of_ne_nil htext, dropWhile_append_of_ne_nil hdigits,
      takeWhile_append_of_ne_nil hdigits, dropWhile_append_of_ne_nil hrest, if_neg hcount]

theorem readUpperCount_closing {lo : Nat} {text after : List Char} {token : Token}
    (h : readUpperCount lo text = some (token, after)) :
    readUpperCount lo (text ++ closing) = some (token, after ++ closing) := by
  obtain _ | ⟨c, rest⟩ := text
  · cases h
  · unfold readUpperCount at h ⊢
    rw [List.head?_append_of_ne_nil _ (List.cons_ne_nil c rest)]
    by_cases hbrace : (c :: rest).head? = some '}'
    · rw [if_pos hbrace] at h ⊢
      cases h
      rw [List.cons_append, List.tail_cons, List.tail_cons, skipLazyMark_closing]
    · rw [if_neg hbrace] at h ⊢
      obtain ⟨⟨hi, tail⟩, hhi, h⟩ := Option.bind_eq_some_iff.1 h
      dsimp only at h
      split at h
      · rw [readCount_append hhi (List.cons_ne_nil _ _)]
        split at h
        · rename_i hle
          cases h
          rw [← skipLazyMark_closing]
          exact if_pos hle
        · cases h
      · cases h

theorem readCounts_closing {text after : List Char} {token : Token}
    (h : readCounts text = some (token, after)) :
    readCounts (text ++ closing) = some (token, after ++ closing) := by
  unfold readCounts at h ⊢
  obtain ⟨⟨lo, rest⟩, hlo, h⟩ := Option.bind_eq_some_iff.1 h
  dsimp only at h
  split at h
  · cases h
    rw [readCount_append hlo (List.cons_ne_nil _ _), ← skipLazyMark_closing]
    rfl
  · rw [readCount_append hlo (List.cons_ne_nil _ _)]
    exact readUpperCount_closing h
  · cases h

theorem readFlags_append {seen text after : List Char} {negated : Bool} {flags : FlagChange}
    {token : Token} (h : readFlags seen negated flags text = some (token, after))
    (more : List Char) :
    readFlags seen negated flags (text ++ more) = some (token, after ++ more) := by
  induction text generalizing seen negated flags with
  | nil => cases h
  | cons c rest ih =>
    rw [List.cons_append]
    rw [readFlags] at h ⊢
    by_cases hcolon : c = ':'
    · rw [if_pos hcolon] at h ⊢
      split at h
      · cases h
      · rename_i hdash
        cases h
        exact if_neg hdash
    rw [if_neg hcolon] at h ⊢
    by_cases hparen : c = ')'
    · rw [if_pos hparen] at h ⊢
      split at h
      · cases h
      · rename_i hflags
        cases h
        exact if_neg hflags
    rw [if_neg hparen] at h ⊢
    by_cases hseen : c ∈ seen
    · rw [if_pos hseen] at h
      cases h
    rw [if_neg hseen] at h ⊢
    by_cases hminus : c = '-'
    · rw [if_pos hminus] at h ⊢
      exact ih h
    · rw [if_neg hminus] at h ⊢
      split at h
      · exact ih h
      · cases h

theorem readGroupName_append {text after : List Char} {token : Token}
    (h : readGroupName text = some (token, after)) (more : List Char) :
    readGroupName (text ++ more) = some (token, after ++ more) := by
  unfold readGroupName at h ⊢
  dsimp only at h ⊢
  split at h
  · rename_i c name bracket rest hname htail
    have hne : text.dropWhile (· ≠ '>') ≠ [] := htail ▸ List.cons_ne_nil _ _
    rw [takeWhile_append_of_ne_nil hne, dropWhile_append_of_ne_nil hne, hname, htail]
    dsimp only [List.cons_append]
    split at h
    · rename_i hvalid
      cases h
      exact if_pos hvalid
    · cases h
  · cases h

theorem readGroupKind_closing {text after : List Char} {token : Token}
    (h : readGroupKind text = some (token, after)) :
    readGroupKind (text ++ closing) = some (token, after ++ closing) := by
  obtain _ | ⟨c, rest⟩ := text
  · cases h
  rw [List.cons_append]
  unfold readGroupKind at h ⊢
  rw [List.head?_cons, List.tail_cons] at h ⊢
  by_cases hname : some c = some '<'
  · -- What follows tells a name from a look-behind.
    rw [if_pos hname] at h ⊢
    have hrest : rest ≠ [] := by
      rintro rfl
      cases h
    rw [List.head?_append_of_ne_nil _ hrest]
    split at h
    · cases h
    · rename_i hlook
      rw [if_neg hlook]
      exact readGroupName_append h closing
  rw [if_neg hname] at h ⊢
  by_cases hempty : rest = []
  · -- The sign is complete, and the closing text does not make it a name.
    subst hempty
    rw [if_neg (by simp)] at h
    rw [if_neg (by simp [closing])]
    exact readFlags_append h closing
  · rw [List.head?_append_of_ne_nil _ hempty]
    by_cases hnamed : some c = some 'P' ∧ rest.head? = some '<'
    · rw [if_pos hnamed] at h ⊢
      rw [List.tail_append_of_ne_nil hempty]
      exact readGroupName_append h closing
    · rw [if_neg hnamed] at h ⊢
      exact readFlags_append h closing

theorem readGroup_closing {text after : List Char} {token : Token}
    (h : readGroup text = some (token, after)) :
    readGroup (text ++ closing) = some (token, after ++ closing) := by
  obtain _ | ⟨c, rest⟩ := text
  · cases h
    rfl
  · unfold readGroup at h ⊢
    rw [List.head?_append_of_ne_nil _ (List.cons_ne_nil c rest)]
    by_cases hmark : (c :: rest).head? = some '?'
    · rw [if_pos hmark] at h ⊢
      exact readGroupKind_closing h
    · rw [if_neg hmark] at h ⊢
      cases h
      rfl

theorem read_closing {c : Char} {text after : List Char} {token : Token}
    (h : read c text = some (token, after)) :
    read c (text ++ closing) = some (token, after ++ closing) := by
  unfold read at h ⊢
  split at h
  -- Groups, brackets, counts and escapes read on; a sign of repetition may be marked as lazy; the
  -- other tokens are one character.
  case h_6 => exact readGroup_closing h
  case h_7 =>
    obtain ⟨⟨s, rest⟩, hs, heq⟩ := Option.map_eq_some_iff.1 h
    cases heq
    rw [CharSet.readBracket_closing hs]
    rfl
  case h_11 => exact readCounts_closing h
  case h_12 =>
    cases hescape : Escape.read text with
    | none =>
      rw [hescape] at h
      cases h
    | some found =>
      obtain ⟨e, rest⟩ := found
      rw [hescape] at h
      rw [Escape.read_append hescape]
      cases e <;>
        · cases h
          rfl
  case h_8 | h_9 | h_10 =>
    cases h
    rw [skipLazyMark_closing]
  all_goals
    cases h
    rfl

theorem readAll_cons {c : Char} {rest after : List Char} {token : Token}
    (h : read c rest = some (token, after)) (hlength : after.length ≤ rest.length) :
    readAll (c :: rest) = (readAll after).map (token :: ·) := by
  rw [readAll, h]
  exact if_pos hlength

theorem readAll_closing {text : List Char} {tokens : List Token}
    (h : readAll text = some tokens) :
    readAll (text ++ closing) = some (tokens ++ [closeGroup, dollar]) := by
  fun_induction readAll text generalizing tokens with
  | case1 =>
    -- Only the closing text is left.
    cases h
    decide +kernel
  | case2 c rest hread => cases h
  | case3 c rest token after hread hlength ih =>
    obtain ⟨others, hothers, rfl⟩ := Option.map_eq_some_iff.1 h
    have hlength : (after ++ closing).length ≤ (rest ++ closing).length := by
      simp only [List.length_append]
      omega
    rw [List.cons_append, readAll_cons (read_closing hread) hlength, ih hothers]
    rfl
  | case4 c rest token after hread hlength => cases h

end Token

/-! ### Groups -/

namespace Builder

/-- The groups with further groups around them. -/
def within (b : Builder) (around : List Group) : Builder :=
  { b with outer := b.outer ++ around }

theorem step_within {b next : Builder} {token : Token} (h : b.step token = some next)
    (around : List Group) : (b.within around).step token = some (next.within around) := by
  obtain ⟨group, outer⟩ := b
  -- Two tokens can be refused: a parenthesis that closes nothing, and a sign of repetition.
  cases token with
  | closeGroup =>
    cases outer with
    | nil => cases h
    | cons first rest =>
      cases h
      rfl
  | repetition lo hi =>
    obtain ⟨flags, alternatives, parts, repeatable⟩ := group
    cases repeatable with
    | false => cases h
    | true =>
      cases parts with
      | nil => cases h
      | cons p parts =>
        obtain ⟨q, hq, heq⟩ := Option.map_eq_some_iff.1 h
        cases heq
        show (p.repeated? lo hi).map _ = _
        rw [hq]
        rfl
  | _ =>
    cases h
    rfl

theorem run_within {b last : Builder} {tokens : List Token} (h : b.run tokens = some last)
    (around : List Group) : (b.within around).run tokens = some (last.within around) := by
  induction tokens generalizing b with
  | nil =>
    cases h
    rfl
  | cons token rest ih =>
    rw [run, List.foldlM_cons] at h ⊢
    obtain ⟨next, hnext, hrest⟩ := Option.bind_eq_some_iff.1 h
    rw [step_within hnext]
    exact ih hrest

end Builder

namespace Pattern

/-- A pattern held to both ends of a text. -/
def anchored (p : Pattern) : Pattern :=
  seq (anchor .textStart) (seq p (anchor .textEnd))

/-- A text that is a pattern by itself is compiled to that pattern, held to both ends. -/
theorem compile_of_parse {pattern : String} {p : Pattern}
    (h : parse? pattern.toList = some p) : compile pattern = some p.anchored := by
  obtain ⟨tokens, htokens, h⟩ := Option.bind_eq_some_iff.1 h
  obtain ⟨⟨group, outer⟩, hlast, hfinish⟩ := Option.bind_eq_some_iff.1 h
  obtain rfl : outer = [] := by
    cases outer with
    | nil => rfl
    | cons first rest => cases hfinish
  obtain rfl : group.pattern = p := Option.some.inj hfinish
  -- The group around the pattern, in which the flags are as in the beginning.
  let around : Group := Group.push {} (anchor .textStart)
  have hread : Token.readAll (anchoredText pattern) =
      some (.caret :: .openGroup {} :: (tokens ++ [.closeGroup, .dollar])) := by
    show Token.readAll ('^' :: '(' :: '?' :: ':' :: (pattern.toList ++ closing)) = _
    have hlength (rest : List Char) : rest.length ≤ ('?' :: ':' :: rest).length := by
      simp only [List.length_cons]
      omega
    rw [Token.readAll_cons rfl (Nat.le_refl _), Token.readAll_cons rfl (hlength _),
      Token.readAll_closing htokens]
    rfl
  have hrun : Builder.run {} (.caret :: .openGroup {} :: (tokens ++ [.closeGroup, .dollar])) =
      some ⟨(around.push group.pattern).push (anchor .textEnd), []⟩ := by
    show (Builder.within {} [around]).run (tokens ++ [.closeGroup, .dollar]) = _
    rw [Builder.run_append, Builder.run_within hlast]
    rfl
  rw [compile, parse?, hread]
  show (Builder.run {} _).bind _ = _
  rw [hrun]
  rfl

/-- Held to both ends, a pattern is found in the texts that it matches from end to end. -/
theorem search_anchored {p : Pattern} {text : List Char} :
    p.anchored.search text = true ↔ Matches p none text none := by
  rw [search_iff]
  constructor
  · rintro ⟨front, w, rest, rfl, h⟩
    cases h with
    | seq hstart h =>
      cases hstart with
      | anchor hstart =>
        cases h with
        | seq hp hend =>
          cases hend with
          | anchor hend =>
            -- The anchors leave no text in front and none behind.
            obtain rfl : front = [] := by simpa [Anchor.holds] using hstart
            obtain rfl : rest = [] := by simpa [Anchor.holds] using hend
            simpa using hp
  · intro h
    refine ⟨[], text, [], by simp, ?_⟩
    have hend : Matches (anchor .textEnd) (text.getLast?.or none) [] none := .anchor rfl
    have hp : Matches (seq p (anchor .textEnd)) none (text ++ []) none :=
      .seq (by simpa using h) hend
    rw [List.append_nil] at hp
    have hstart : Matches (anchor .textStart) none [] (text.head?.or none) := .anchor rfl
    exact .seq hstart hp

end Pattern

end TypeEnforcement
