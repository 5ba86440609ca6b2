/-
Which paths without wildcards have a pattern that labels exactly them.

A path in which nothing has a meaning in globs becomes a pattern character by character.  Most of
what is special in patterns is escaped on the way, but a dollar sign, a bar and an opening brace
stand in the pattern as they are.  A path without these three is matched by its pattern, and nothing
else is.  With one of them the path has a pattern that never matches the path itself, because only
characters that are written as characters can be matched: the text `/a|b` is a choice between `/a`
and `b`, and `/a{2}` is `/aa`.

* `Pattern.Avoids` — no set of a pattern has one of some characters;
* `Token.IsFlat` — a token of a pattern without groups;
* `Token.Skips` — a text goes on with another one after characters that escape and close nothing.

Main statements:
* `Avoids.not_mem` — a pattern matches no text with a character that its sets avoid;
* `isFlat_of_readAll` — how the pattern of a path without wildcards is read;
* `exists_avoids_of_compile` — so it is compiled to a pattern that avoids the three characters;
* `matches_exactly_iff` — the paths that are matched by their patterns, and by nothing else.
-/
import TypeEnforcement.Proofs.LiteralPaths

namespace TypeEnforcement

/-! ### Patterns that avoid characters -/

namespace Pattern

/-- No set of a pattern has one of some characters. -/
def Avoids (signs : List Char) : Pattern → Prop
  | empty | anchor _ => True
  | set s => ∀ c ∈ signs, s.mem c = false
  | seq p q | alt p q => p.Avoids signs ∧ q.Avoids signs
  | star p => p.Avoids signs

variable {signs : List Char} {p q : Pattern}

/-- A pattern matches no text with a character that its sets avoid. -/
theorem Avoids.not_mem (h : p.Avoids signs) {before after : Option Char} {text : List Char}
    (hmatches : Matches p before text after) : ∀ c ∈ text, c ∉ signs := by
  induction hmatches with
  | empty | anchor | starNil => exact List.forall_mem_nil _
  | set hmem =>
    refine List.forall_mem_singleton.2 fun hsign => ?_
    rw [h _ hsign] at hmem
    cases hmem
  | seq _ _ ihp ihq => exact List.forall_mem_append.2 ⟨ihp h.1, ihq h.2⟩
  | altLeft _ ih => exact ih h.1
  | altRight _ ih => exact ih h.2
  | starCons _ _ ihp ihs => exact List.forall_mem_append.2 ⟨ihp h, ihs h⟩

theorem avoids_literal {c : Char} (h : c ∉ signs) : (literal c).Avoids signs := by
  intro d hd
  rw [← Bool.not_eq_true, CharSet.mem_single]
  rintro rfl
  exact h hd

theorem avoids_seqAll {patterns : List Pattern} (h : ∀ p ∈ patterns, p.Avoids signs) :
    (seqAll patterns).Avoids signs := by
  fun_induction seqAll patterns with
  | case1 => exact trivial
  | case2 p => exact h p List.mem_cons_self
  | case3 p rest _ ih =>
    obtain ⟨hp, hrest⟩ := List.forall_mem_cons.1 h
    exact ⟨hp, ih hrest⟩

theorem Avoids.times (h : p.Avoids signs) (count : Nat) : (p.times count).Avoids signs := by
  fun_induction p.times count with
  | case1 => exact trivial
  | case2 => exact h
  | case3 count _ ih => exact ⟨h, ih⟩

theorem Avoids.upTo (h : p.Avoids signs) (count : Nat) : (p.upTo count).Avoids signs := by
  induction count with
  | zero => exact trivial
  | succ count ih => exact ⟨⟨h, ih⟩, trivial⟩

theorem Avoids.repeated? (h : p.Avoids signs) {lo : Nat} {hi : Option Nat}
    (hq : p.repeated? lo hi = some q) : q.Avoids signs := by
  have hrepeated : (p.repeated lo hi).Avoids signs := by
    unfold repeated
    cases hi with
    | none =>
      dsimp only
      split
      · exact h
      · exact ⟨h.times lo, h⟩
    | some hi =>
      dsimp only
      split
      · exact h.upTo hi
      · split
        · exact h.times lo
        · exact ⟨h.times lo, h.upTo _⟩
  simp only [Pattern.repeated?, Option.ite_none_right_eq_some, Option.some.injEq] at hq
  exact hq.2 ▸ hrepeated

end Pattern

/-! ### Reading patterns without groups -/

/-- A token of a pattern without groups, in which a character is none of some. -/
def Token.IsFlat (signs : List Char) : Token → Prop
  | .literal c => c ∉ signs
  | .dollar | .bar | .repetition _ _ => True
  | _ => False

/-- The innermost group has no flags set and only patterns that avoid some characters, and around it
are some groups. -/
structure Builder.Avoids (signs : List Char) (around : List Group) (b : Builder) : Prop where
  outer : b.outer = around
  flags : b.group.flags = {}
  alternatives : ∀ p ∈ b.group.alternatives, p.Avoids signs
  parts : ∀ p ∈ b.group.parts, p.Avoids signs

namespace Builder

variable {signs : List Char} {around : List Group} {b next last : Builder}

theorem Avoids.push {p : Pattern} (h : b.Avoids signs around) (hp : p.Avoids signs) :
    (b.push p).Avoids signs around :=
  ⟨h.outer, h.flags, h.alternatives, List.forall_mem_cons.2 ⟨hp, h.parts⟩⟩

theorem Avoids.current (h : b.Avoids signs around) : b.group.current.Avoids signs :=
  Pattern.avoids_seqAll fun p hp => h.parts p (List.mem_reverse.1 hp)

/-- Finished alternatives are joined to the one under way one after another. -/
theorem Avoids.pattern (h : b.Avoids signs around) : b.group.pattern.Avoids signs :=
  List.foldlRecOn (motive := (Pattern.Avoids signs ·)) b.group.alternatives _ h.current
    fun _ hlater p hp => ⟨h.alternatives p hp, hlater⟩

theorem Avoids.step {token : Token} (h : b.Avoids signs around) (htoken : token.IsFlat signs)
    (hstep : b.step token = some next) : next.Avoids signs around := by
  cases token with
  | literal c =>
    cases hstep
    rw [h.flags]
    exact h.push (Pattern.avoids_literal htoken)
  | dollar =>
    cases hstep
    exact h.push trivial
  | bar =>
    cases hstep
    exact ⟨h.outer, h.flags, List.forall_mem_cons.2 ⟨h.current, h.alternatives⟩,
      List.forall_mem_nil _⟩
  | repetition lo hi =>
    simp only [Builder.step] at hstep
    split at hstep
    · rename_i p parts _ hparts
      obtain ⟨q, hq, rfl⟩ := Option.map_eq_some_iff.1 hstep
      obtain ⟨hp, hrest⟩ := List.forall_mem_cons.1 (hparts ▸ h.parts)
      exact ⟨h.outer, h.flags, h.alternatives, List.forall_mem_cons.2 ⟨hp.repeated? hq, hrest⟩⟩
    · cases hstep
  | _ => exact htoken.elim

/-- What one token keeps, tokens one after another keep. -/
theorem Avoids.run {tokens : List Token} (h : b.Avoids signs around)
    (htokens : ∀ token ∈ tokens, token.IsFlat signs) (hrun : b.run tokens = some last) :
    last.Avoids signs around := by
  induction tokens generalizing b with
  | nil =>
    cases hrun
    exact h
  | cons token rest ih =>
    rw [Builder.run, List.foldlM_cons] at hrun
    obtain ⟨next, hnext, hrest⟩ := Option.bind_eq_some_iff.1 hrun
    obtain ⟨htoken, htokens⟩ := List.forall_mem_cons.1 htokens
    exact ih (h.step htoken hnext) htokens hrest

end Builder

/-! ### Reading repetition counts -/

namespace Token

open Pattern (closing)

/-- A text goes on with another one after characters that escape and close nothing. -/
def Skips (text after : List Char) : Prop :=
  ∃ skipped, text = skipped ++ after ∧ ∀ c ∈ skipped, c ≠ '\\' ∧ c ≠ ')'

variable {text middle after : List Char} {token : Token}

theorem Skips.refl (text : List Char) : Skips text text :=
  ⟨[], rfl, List.forall_mem_nil _⟩

theorem Skips.trans (h : Skips text middle) (hmiddle : Skips middle after) : Skips text after := by
  obtain ⟨first, rfl, hfirst⟩ := h
  obtain ⟨second, rfl, hsecond⟩ := hmiddle
  exact ⟨first ++ second, (List.append_assoc ..).symm, List.forall_mem_append.2 ⟨hfirst, hsecond⟩⟩

theorem skips_cons {c : Char} (h : c ≠ '\\' ∧ c ≠ ')') (rest : List Char) :
    Skips (c :: rest) rest :=
  ⟨[c], rfl, List.forall_mem_singleton.2 h⟩

theorem skips_dropWhile {p : Char → Bool} (hback : p '\\' = false) (hclose : p ')' = false)
    (text : List Char) : Skips text (text.dropWhile p) := by
  refine ⟨text.takeWhile p, List.takeWhile_append_dropWhile.symm, fun c hc => ?_⟩
  have hp : p c = true := List.mem_takeWhile_imp hc
  constructor
  · rintro rfl
    rw [hback] at hp
    cases hp
  · rintro rfl
    rw [hclose] at hp
    cases hp

theorem skips_skipLazyMark (text : List Char) : Skips text (skipLazyMark text) := by
  unfold skipLazyMark
  split
  · exact skips_cons (by decide) _
  · exact .refl _

theorem skips_of_readCount {count : Nat} (h : readCount text = some (count, after)) :
    Skips text after := by
  unfold readCount at h
  dsimp only at h
  split at h
  · cases h
  · cases h
    exact ((skips_dropWhile (by decide) (by decide) _).trans
      (skips_dropWhile (by decide) (by decide) _)).trans
        (skips_dropWhile (by decide) (by decide) _)

theorem skips_of_readUpperCount {lo : Nat} (h : readUpperCount lo text = some (token, after)) :
    (∃ hi, token = repetition lo hi) ∧ Skips text after := by
  unfold readUpperCount at h
  split at h
  · rename_i hhead
    obtain ⟨rest, rfl⟩ := List.head?_eq_some_iff.1 hhead
    cases h
    exact ⟨⟨_, rfl⟩, (skips_cons (by decide) _).trans (skips_skipLazyMark _)⟩
  · obtain ⟨⟨hi, rest⟩, hhi, h⟩ := Option.bind_eq_some_iff.1 h
    dsimp only at h
    split at h
    · split at h
      · cases h
        exact ⟨⟨_, rfl⟩, ((skips_of_readCount hhi).trans (skips_cons (by decide) _)).trans
          (skips_skipLazyMark _)⟩
      · cases h
    · cases h

/-- Reading the counts of a repetition neither escapes nor closes anything. -/
theorem skips_of_readCounts (h : readCounts text = some (token, after)) :
    (∃ lo hi, token = repetition lo hi) ∧ Skips text after := by
  unfold readCounts at h
  obtain ⟨⟨lo, rest⟩, hlo, h⟩ := Option.bind_eq_some_iff.1 h
  have hcount := skips_of_readCount hlo
  dsimp only at h
  split at h
  · cases h
    exact ⟨⟨_, _, rfl⟩, (hcount.trans (skips_cons (by decide) _)).trans (skips_skipLazyMark _)⟩
  · obtain ⟨⟨hi, rfl⟩, hupper⟩ := skips_of_readUpperCount h
    exact ⟨⟨lo, hi, rfl⟩, (hcount.trans (skips_cons (by decide) _)).trans hupper⟩
  · cases h

/-- After such characters the pattern of a path goes on with the pattern of an end of the path,
because no character is parted from the backslash before it. -/
theorem Skips.exists_suffix {path : List Char}
    (h : Skips (path.flatMap Path.escaped ++ closing) after) :
    ∃ rest, rest <:+ path ∧ after = rest.flatMap Path.escaped ++ closing := by
  obtain ⟨skipped, heq, hskipped⟩ := h
  induction path generalizing skipped with
  | nil =>
    cases skipped with
    | nil => exact ⟨[], List.suffix_rfl, heq.symm⟩
    | cons d skipped =>
      obtain rfl : ')' = d := (List.cons.inj heq).1
      exact absurd rfl (hskipped ')' List.mem_cons_self).2
  | cons c path ih =>
    cases skipped with
    | nil => exact ⟨c :: path, List.suffix_rfl, heq.symm⟩
    | cons d skipped =>
      obtain ⟨hd, hskipped⟩ := List.forall_mem_cons.1 hskipped
      rw [List.flatMap_cons, Path.escaped] at heq
      split at heq
      · -- A backslash is not skipped, so an escape is not entered.
        exact absurd (List.cons.inj heq).1.symm hd.1
      · obtain ⟨rest, hsuffix, hafter⟩ := ih skipped (List.cons.inj heq).2 hskipped
        exact ⟨rest, hsuffix.trans (List.suffix_cons c path), hafter⟩

/-! ### Reading the pattern of a path -/

/-- Where no token can be read, the text is no pattern. -/
theorem readAll_eq_none {c : Char} {rest : List Char} (h : read c rest = none) :
    readAll (c :: rest) = none := by
  rw [readAll, h]

/-- The pattern of a path without wildcards has no groups, and its characters are none of those that
are not escaped. -/
theorem isFlat_of_readAll {path : List Char} (h : Path.IsWildless path) {tokens : List Token}
    (hread : readAll (path.flatMap Path.escaped ++ closing) = some tokens) :
    ∃ inner, tokens = inner ++ [closeGroup, dollar] ∧
      ∀ token ∈ inner, token.IsFlat Path.bareSigns := by
  -- Counts take several characters at once, so the induction is on the length of the path.
  induction hlength : path.length using Nat.strong_induction_on generalizing path tokens with
  | _ length ih =>
  cases path with
  | nil =>
    refine ⟨[], ?_, List.forall_mem_nil _⟩
    have hclosing : readAll closing = some [closeGroup, dollar] := by decide +kernel
    exact Option.some.inj (hread.symm.trans hclosing)
  | cons c path =>
    -- Each case reads a token and goes on with the pattern of an end of the path.
    have hnext {rest : List Char} (token : Token) (hsuffix : rest <:+ path)
        (htoken : token.IsFlat Path.bareSigns)
        (htokens : (readAll (rest.flatMap Path.escaped ++ closing)).map (token :: ·) =
          some tokens) : ∃ inner, tokens = inner ++ [closeGroup, dollar] ∧
            ∀ token ∈ inner, token.IsFlat Path.bareSigns := by
      obtain ⟨others, hothers, rfl⟩ := Option.map_eq_some_iff.1 htokens
      have hlt : rest.length < length := by
        rw [← hlength]
        exact Nat.lt_succ_of_le hsuffix.length_le
      obtain ⟨inner, rfl, hinner⟩ := ih rest.length hlt
        (fun d hd => h d (List.mem_cons_of_mem c (hsuffix.mem hd))) hothers rfl
      exact ⟨token :: inner, rfl, List.forall_mem_cons.2 ⟨htoken, hinner⟩⟩
    rw [List.flatMap_cons, List.append_assoc] at hread
    by_cases hbare : c ∈ Path.bareSigns
    · simp only [Path.bareSigns, List.mem_cons, List.not_mem_nil, or_false] at hbare
      rcases hbare with rfl | rfl | rfl
      · exact hnext .dollar List.suffix_rfl trivial
          ((readAll_cons rfl (Nat.le_refl _)).symm.trans hread)
      · exact hnext .bar List.suffix_rfl trivial
          ((readAll_cons rfl (Nat.le_refl _)).symm.trans hread)
      · cases hcounts : readCounts (path.flatMap Path.escaped ++ closing) with
        | none =>
          have hnone := readAll_eq_none (c := '\x7b') hcounts
          exact absurd (hnone.symm.trans hread) (by simp)
        | some found =>
          obtain ⟨token, after⟩ := found
          obtain ⟨⟨lo, hi, rfl⟩, hskips⟩ := skips_of_readCounts hcounts
          have hlength : after.length ≤ (path.flatMap Path.escaped ++ closing).length := by
            obtain ⟨skipped, heq, -⟩ := hskips
            rw [heq, List.length_append]
            exact Nat.le_add_left _ _
          obtain ⟨rest, hsuffix, rfl⟩ := hskips.exists_suffix
          have hstep := readAll_cons (c := '\x7b') hcounts hlength
          exact hnext (.repetition lo hi) hsuffix trivial (hstep.symm.trans hread)
    · rw [readAll_escaped_append (h c List.mem_cons_self) hbare] at hread
      exact hnext (.literal c) List.suffix_rfl hbare hread

end Token

/-! ### Exact patterns -/

namespace Path

variable {path : List Char}

/-- The pattern of a path without wildcards is held to both ends, and its sets have none of the
characters that are not escaped. -/
theorem exists_avoids_of_compile (h : IsWildless path) {p : Pattern}
    (hcompile : Pattern.compile (String.ofList (toPattern path)) = some p) :
    ∃ inner : Pattern, p = inner.anchored ∧ inner.Avoids bareSigns := by
  have hlength (rest : List Char) : rest.length ≤ ('?' :: ':' :: rest).length := by
    simp only [List.length_cons]
    omega
  -- The two tokens in front are the anchor and the group around the pattern.
  have hopening (rest : List Char) : Token.readAll ('^' :: '(' :: '?' :: ':' :: rest) =
      ((Token.readAll rest).map (.openGroup {} :: ·)).map (.caret :: ·) := by
    rw [Token.readAll_cons rfl (Nat.le_refl _), Token.readAll_cons rfl (hlength _)]
  obtain ⟨tokens, htokens, hcompile⟩ := Option.bind_eq_some_iff.1 hcompile
  obtain ⟨last, hlast, hfinish⟩ := Option.bind_eq_some_iff.1 hcompile
  rw [Pattern.anchoredText, String.toList_ofList, toPattern_of_isWildless h] at htokens
  obtain ⟨others, hothers, rfl⟩ := Option.map_eq_some_iff.1 ((hopening _).symm.trans htokens)
  obtain ⟨rest, hrest, rfl⟩ := Option.map_eq_some_iff.1 hothers
  obtain ⟨inner, rfl, hinner⟩ := Token.isFlat_of_readAll h hrest
  let around : Group := Group.push {} (.anchor .textStart)
  have hrun : (Builder.run ⟨{}, [around]⟩ inner).bind (·.run [.closeGroup, .dollar]) = some last :=
    (Builder.run_append ..).symm.trans hlast
  obtain ⟨b, hb, hclosing⟩ := Option.bind_eq_some_iff.1 hrun
  have havoids : b.Avoids bareSigns [around] :=
    Builder.Avoids.run ⟨rfl, rfl, List.forall_mem_nil _, List.forall_mem_nil _⟩ hinner hb
  refine ⟨b.group.pattern, ?_, havoids.pattern⟩
  obtain ⟨group, outer⟩ := b
  obtain rfl : outer = [around] := havoids.outer
  cases hclosing
  exact (Option.some.inj hfinish).symm

/-- A path without wildcards is matched by its pattern, and nothing else is, exactly if no character
of it has a meaning in patterns that is not escaped.  Otherwise its pattern does not match it. -/
theorem matches_exactly_iff (h : IsWildless path) :
    ((∃ p, Pattern.compile (String.ofList (toPattern path)) = some p ∧
        ∀ text, p.search text = true ↔ text = path) ↔ ∀ c ∈ path, c ∉ bareSigns) ∧
      ∀ p, Pattern.compile (String.ofList (toPattern path)) = some p →
        (p.search path = true ↔ ∀ c ∈ path, c ∉ bareSigns) := by
  have hexact (hbare : ∀ c ∈ path, c ∉ bareSigns) :
      ∃ p, Pattern.compile (String.ofList (toPattern path)) = some p ∧
        ∀ text, p.search text = true ↔ text = path := by
    have hparse := Pattern.parse?_flatMap_escaped h hbare
    refine ⟨(Pattern.seqAll (path.map Pattern.literal)).anchored, Pattern.compile_of_parse ?_,
      fun text => Pattern.search_anchored.trans Pattern.matches_literals_iff⟩
    rw [String.toList_ofList, toPattern_of_isWildless h, hparse]
  have hbare {p : Pattern} (hp : Pattern.compile (String.ofList (toPattern path)) = some p)
      (hfound : p.search path = true) : ∀ c ∈ path, c ∉ bareSigns := by
    obtain ⟨inner, rfl, havoids⟩ := exists_avoids_of_compile h hp
    exact havoids.not_mem (Pattern.search_anchored.1 hfound)
  refine ⟨⟨?_, hexact⟩, fun p hp => ⟨hbare hp, fun hsigns => ?_⟩⟩
  · rintro ⟨p, hp, hsearch⟩
    exact hbare hp ((hsearch path).2 rfl)
  · obtain ⟨q, hq, hsearch⟩ := hexact hsigns
    obtain rfl := Option.some.inj (hq.symm.trans hp)
    exact (hsearch path).2 rfl

/-- Blanks, escaped signs and a closing brace do no harm; a bar between two names does. -/
theorem oddPath_matches_exactly :
    let odd := "/srv/a (1)[x].d+^#-\x7d".toList
    let barred := "/srv/a|b".toList
    IsWildless odd ∧ IsWildless barred ∧
    (∃ p, Pattern.compile (String.ofList (toPattern odd)) = some p ∧
      ∀ text, p.search text = true ↔ text = odd) ∧
    ¬∃ p, Pattern.compile (String.ofList (toPattern barred)) = some p ∧
      ∀ text, p.search text = true ↔ text = barred := by
  intro odd barred
  have hodd : IsWildless odd := by decide
  have hbarred : IsWildless barred := by decide
  have hsigns : ∀ c ∈ odd, c ∉ bareSigns := by decide
  have hbar : ¬∀ c ∈ barred, c ∉ bareSigns := by decide
  exact ⟨hodd, hbarred, (matches_exactly_iff hodd).1.2 hsigns,
    fun hexact => hbar ((matches_exactly_iff hbarred).1.1 hexact)⟩

/-- A count in braces repeats the letter before it, so the pattern is for another path. -/
theorem countedPath_matches_other :
    let counted := "/srv/a\x7b2\x7d".toList
    IsWildless counted ∧
    (∃ p, Pattern.compile (String.ofList (toPattern counted)) = some p ∧
      p.search "/srv/aa".toList = true ∧ p.search counted = false) ∧
    ¬∃ p, Pattern.compile (String.ofList (toPattern counted)) = some p ∧
      ∀ text, p.search text = true ↔ text = counted := by
  intro counted
  have hfound : (Pattern.compile (String.ofList (toPattern counted))).any (fun p =>
      p.search "/srv/aa".toList && !p.search counted) = true := by
    decide +kernel
  obtain ⟨p, hp, hsearch⟩ := Option.any_eq_true _ _ |>.1 hfound
  rw [Bool.and_eq_true, Bool.not_eq_true'] at hsearch
  refine ⟨by decide, ⟨p, hp, hsearch⟩, ?_⟩
  rintro ⟨q, hq, hexact⟩
  obtain rfl := Option.some.inj (hp.symm.trans hq)
  exact absurd ((hexact _).1 hsearch.1) (by decide)

end Path

end TypeEnforcement
