/-
Patterns and what they match.

A `Pattern` is a regular expression with assertions about the neighbouring characters.  Its meaning
is the relation `Pattern.Matches`: a pattern matches a stretch of a text, given the character before
and the character after it.  `Pattern.search` decides whether some stretch of a text is matched.

Main statements:
* `Pattern.nullable_iff` — the patterns that match the empty stretch;
* `Pattern.steps_iff` — matching a stretch that begins with `c` is matching its remainder with one
  of the patterns left after `c`;
* `Pattern.search_iff` — the search finds a match exactly if there is one.

Design notes.  The search follows all ways to match at once, as a list of the patterns that are left
to match.  After each character the list holds what remains of every attempt, so a text is read once
and nothing is ever tried again.  Repetition counts are written out, so one star suffices.
-/
import TypeEnforcement.Pattern.CharSet

namespace TypeEnforcement

/-- A condition on the characters around a place in a text. -/
inductive Anchor where
  | textStart
  | textEnd
  | lineStart
  | lineEnd
  | wordEdge
  | noWordEdge
deriving DecidableEq

/-- Whether the condition holds between the two characters, missing at the ends of the text. -/
def Anchor.holds (anchor : Anchor) (before after : Option Char) : Bool :=
  let inWord : Option Char → Bool := fun c => c.any Text.isWord
  match anchor with
  | textStart => before.isNone
  | textEnd => after.isNone
  | lineStart => before.all (· == '\n')
  | lineEnd => after.all (· == '\n')
  | wordEdge => inWord before != inWord after
  | noWordEdge => inWord before == inWord after

/-- A regular expression. -/
inductive Pattern where
  /-- The empty stretch. -/
  | empty
  /-- One character of a set. -/
  | set (s : CharSet)
  /-- The empty stretch where a condition holds. -/
  | anchor (a : Anchor)
  /-- One pattern after the other. -/
  | seq (p q : Pattern)
  /-- Either pattern. -/
  | alt (p q : Pattern)
  /-- Any number of copies. -/
  | star (p : Pattern)
deriving DecidableEq

namespace Pattern

def literal (c : Char) : Pattern :=
  set (CharSet.single c)

/-- The pattern of any character but the line feed. -/
def anyInLine : Pattern :=
  set (CharSet.other '\n')

/-- A pattern or nothing. -/
def optional (p : Pattern) : Pattern :=
  alt p empty

/-- Patterns one after another. -/
def seqAll : List Pattern → Pattern
  | [] => empty
  | [p] => p
  | p :: rest => seq p (seqAll rest)

/-- `count` copies of a pattern. -/
def times (p : Pattern) : Nat → Pattern
  | 0 => empty
  | 1 => p
  | count + 1 => seq p (p.times count)

/-- At most `count` copies of a pattern. -/
def upTo (p : Pattern) : Nat → Pattern
  | 0 => empty
  | count + 1 => optional (seq p (p.upTo count))

/-- From `lo` copies of a pattern up to `hi`, or without end. -/
def repeated (p : Pattern) (lo : Nat) : Option Nat → Pattern
  | none => if lo = 0 then star p else seq (p.times lo) (star p)
  | some hi => if lo = 0 then p.upTo hi else if hi ≤ lo then p.times lo
    else seq (p.times lo) (p.upTo (hi - lo))

/-! ### Meaning -/

/-- The stretch `w` between the characters `before` and `after` is matched. -/
inductive Matches : Pattern → Option Char → List Char → Option Char → Prop
  | empty {before after} : Matches empty before [] after
  | set {s c before after} (h : s.mem c = true) : Matches (set s) before [c] after
  | anchor {a before after} (h : a.holds before after = true) : Matches (anchor a) before [] after
  | seq {p q u v before after} (hp : Matches p before u (v.head?.or after))
      (hq : Matches q (u.getLast?.or before) v after) : Matches (seq p q) before (u ++ v) after
  | altLeft {p q w before after} (h : Matches p before w after) : Matches (alt p q) before w after
  | altRight {p q w before after} (h : Matches q before w after) : Matches (alt p q) before w after
  | starNil {p before after} : Matches (star p) before [] after
  | starCons {p c u v before after} (hp : Matches p before (c :: u) (v.head?.or after))
      (hs : Matches (star p) ((c :: u).getLast?.or before) v after) :
      Matches (star p) before (c :: u ++ v) after

/-! ### Reading a text -/

/-- Whether the empty stretch between two characters is matched. -/
def nullable : Pattern → Option Char → Option Char → Bool
  | empty, _, _ => true
  | set _, _, _ => false
  | anchor a, before, after => a.holds before after
  | seq p q, before, after => p.nullable before after && q.nullable before after
  | alt p q, before, after => p.nullable before after || q.nullable before after
  | star _, _, _ => true

/-- One pattern after the other, without an empty first part. -/
def followedBy : Pattern → Pattern → Pattern
  | empty, q => q
  | p, q => seq p q

/-- The patterns left to match after the character `c`, which follows `before`. -/
def steps : Pattern → Option Char → Char → List Pattern
  | empty, _, _ => []
  | set s, _, c => if s.mem c then [empty] else []
  | anchor _, _, _ => []
  | seq p q, before, c =>
    (p.steps before c).map (·.followedBy q) ++
      if p.nullable before (some c) then q.steps before c else []
  | alt p q, before, c => p.steps before c ++ q.steps before c
  | star p, before, c => (p.steps before c).map (·.followedBy (star p))

/-- Whether some stretch of the text that follows `before` is matched: by one of the attempts under
way, or by a new attempt of the pattern `start`. -/
def scan (start : Pattern) (attempts : List Pattern) (before : Option Char) : List Char → Bool
  | [] => (start :: attempts).any (·.nullable before none)
  | c :: rest =>
    let here := start :: attempts
    here.any (·.nullable before (some c)) ||
      scan start (here.flatMap (·.steps before c)).eraseDups (some c) rest

/-- Whether some stretch of the text is matched. -/
def search (p : Pattern) (text : List Char) : Bool :=
  scan p [] none text

/-! ### The reading is right -/

theorem nullable_iff {p : Pattern} {before after : Option Char} :
    p.nullable before after = true ↔ Matches p before [] after := by
  constructor
  · intro h
    induction p with
    | empty => exact .empty
    | set s => simp [nullable] at h
    | anchor a => exact .anchor h
    | seq p q ihp ihq =>
      simp only [nullable, Bool.and_eq_true] at h
      exact Matches.seq (u := []) (v := []) (ihp h.1) (ihq h.2)
    | alt p q ihp ihq =>
      simp only [nullable, Bool.or_eq_true] at h
      exact h.elim (fun h => .altLeft (ihp h)) (fun h => .altRight (ihq h))
    | star p _ => exact .starNil
  · intro h
    generalize hw : ([] : List Char) = w at h
    induction h with
    | empty => rfl
    | set h => simp at hw
    | anchor h => exact h
    | @seq p q u v before after hp hq ihp ihq =>
      obtain ⟨rfl, rfl⟩ : u = [] ∧ v = [] := by simpa using hw.symm
      simp only [nullable, Bool.and_eq_true]
      exact ⟨by simpa using ihp rfl, by simpa using ihq rfl⟩
    | altLeft h ih => simp [nullable, ih hw]
    | altRight h ih => simp [nullable, ih hw]
    | starNil => rfl
    | starCons hp hs ihp ihs => rfl

theorem matches_followedBy {p q : Pattern} {before after : Option Char} {w : List Char} :
    Matches (p.followedBy q) before w after ↔ Matches (seq p q) before w after := by
  cases p with
  | empty =>
    constructor
    · intro h
      have h : Matches q before w after := h
      exact Matches.seq (u := []) .empty (by simpa using h)
    · intro h
      show Matches q before w after
      cases h with
      | seq hp hq =>
        cases hp
        simpa using hq
  | _ => exact Iff.rfl

/-- What stands before the rest of a text, after one character more. -/
theorem getLast?_cons_or (c : Char) (u : List Char) (before : Option Char) :
    (c :: u).getLast?.or before = u.getLast?.or (some c) := by
  cases u <;> simp [List.getLast?_cons]

theorem steps_of_matches {p : Pattern} {before after : Option Char} {w : List Char} {c : Char}
    {rest : List Char} (h : Matches p before w after) (hw : w = c :: rest) :
    ∃ q ∈ p.steps before c, Matches q (some c) rest after := by
  induction h generalizing rest with
  | empty => simp at hw
  | @set s d before after h =>
    obtain ⟨rfl, rfl⟩ : d = c ∧ [] = rest := by simpa using hw
    exact ⟨.empty, by simp [steps, h], .empty⟩
  | anchor h => simp at hw
  | @seq p q u v before after hp hq ihp ihq =>
    cases u with
    | nil =>
      -- `p` matches the empty stretch, so `q` takes the character.
      simp only [List.nil_append] at hw
      obtain ⟨r, hr, hm⟩ := ihq hw
      have hnull : p.nullable before (some c) = true := by
        subst hw
        exact nullable_iff.2 (by simpa using hp)
      refine ⟨r, ?_, by simpa using hm⟩
      simp only [steps, hnull, if_true, List.mem_append]
      exact .inr (by simpa using hr)
    | cons d u =>
      -- `p` takes the character, and `q` follows what is left of `p`.
      simp only [List.cons_append, List.cons.injEq] at hw
      obtain ⟨rfl, rfl⟩ := hw
      obtain ⟨r, hr, hm⟩ := ihp rfl
      refine ⟨r.followedBy q, ?_, matches_followedBy.2 (.seq hm ?_)⟩
      · simp only [steps, List.mem_append, List.mem_map]
        exact .inl ⟨r, hr, rfl⟩
      · rwa [getLast?_cons_or] at hq
  | altLeft h ih =>
    obtain ⟨r, hr, hm⟩ := ih hw
    exact ⟨r, by simp [steps, hr], hm⟩
  | altRight h ih =>
    obtain ⟨r, hr, hm⟩ := ih hw
    exact ⟨r, by simp [steps, hr], hm⟩
  | starNil => simp at hw
  | @starCons p d u v before after hp hs ihp ihs =>
    simp only [List.cons_append, List.cons.injEq] at hw
    obtain ⟨rfl, rfl⟩ := hw
    obtain ⟨r, hr, hm⟩ := ihp rfl
    refine ⟨r.followedBy (star p), ?_, matches_followedBy.2 (.seq hm ?_)⟩
    · simp only [steps, List.mem_map]
      exact ⟨r, hr, rfl⟩
    · rwa [getLast?_cons_or] at hs

theorem matches_of_steps {p q : Pattern} {before after : Option Char} {c : Char}
    {rest : List Char} (hq : q ∈ p.steps before c) (h : Matches q (some c) rest after) :
    Matches p before (c :: rest) after := by
  induction p generalizing q rest after with
  | empty => simp [steps] at hq
  | set s =>
    simp only [steps] at hq
    split at hq
    · rename_i hs
      obtain rfl : q = .empty := by simpa using hq
      cases h
      exact .set hs
    · simp at hq
  | anchor a => simp [steps] at hq
  | seq p₁ p₂ ih₁ ih₂ =>
    simp only [steps, List.mem_append, List.mem_map] at hq
    -- The first part took the character, or it matches nothing and the second part took it.
    rcases hq with ⟨r, hr, rfl⟩ | hq
    · cases matches_followedBy.1 h with
      | @seq _ _ u v _ _ hp hs =>
        exact Matches.seq (u := c :: u) (ih₁ hr hp) (by rwa [getLast?_cons_or])
    · split at hq
      · rename_i hn
        exact Matches.seq (u := []) (by simpa using nullable_iff.1 hn) (by simpa using ih₂ hq h)
      · simp at hq
  | alt p₁ p₂ ih₁ ih₂ =>
    simp only [steps, List.mem_append] at hq
    exact hq.elim (fun hq => .altLeft (ih₁ hq h)) (fun hq => .altRight (ih₂ hq h))
  | star p ih =>
    simp only [steps, List.mem_map] at hq
    obtain ⟨r, hr, rfl⟩ := hq
    cases matches_followedBy.1 h with
    | @seq _ _ u v _ _ hp hs =>
      exact Matches.starCons (ih hr hp) (by rwa [getLast?_cons_or])

theorem steps_iff {p : Pattern} {before after : Option Char} {c : Char} {rest : List Char} :
    Matches p before (c :: rest) after ↔
      ∃ q ∈ p.steps before c, Matches q (some c) rest after :=
  ⟨fun h => steps_of_matches h rfl, fun ⟨_, hq, h⟩ => matches_of_steps hq h⟩

/-- A beginning of a text that is matched is empty, or has the first character to begin with. -/
theorem exists_prefix_cons_iff {p : Pattern} {before : Option Char} {c : Char} {text : List Char} :
    (∃ w rest, c :: text = w ++ rest ∧ Matches p before w rest.head?) ↔
      p.nullable before (some c) = true ∨ ∃ q ∈ p.steps before c, ∃ w rest,
        text = w ++ rest ∧ Matches q (some c) w rest.head? := by
  constructor
  · rintro ⟨w, rest, htext, h⟩
    cases w with
    | nil =>
      obtain rfl : c :: text = rest := htext
      exact .inl (nullable_iff.2 h)
    | cons d w =>
      obtain ⟨rfl, rfl⟩ := List.cons.inj htext
      obtain ⟨q, hq, hm⟩ := steps_iff.1 h
      exact .inr ⟨q, hq, w, rest, rfl, hm⟩
  · rintro (h | ⟨q, hq, w, rest, rfl, h⟩)
    · exact ⟨[], c :: text, rfl, nullable_iff.1 h⟩
    · exact ⟨c :: w, rest, rfl, steps_iff.2 ⟨q, hq, h⟩⟩

/-- A stretch of a text that is matched begins the text, or comes after the first character. -/
theorem exists_stretch_cons_iff {p : Pattern} {before : Option Char} {c : Char}
    {text : List Char} :
    (∃ front w rest, c :: text = front ++ w ++ rest ∧
        Matches p (front.getLast?.or before) w rest.head?) ↔
      (∃ w rest, c :: text = w ++ rest ∧ Matches p before w rest.head?) ∨
      ∃ front w rest, text = front ++ w ++ rest ∧
        Matches p (front.getLast?.or (some c)) w rest.head? := by
  constructor
  · rintro ⟨front, w, rest, htext, h⟩
    cases front with
    | nil => exact .inl ⟨w, rest, htext, h⟩
    | cons d front =>
      obtain ⟨rfl, rfl⟩ := List.cons.inj htext
      exact .inr ⟨front, w, rest, rfl, by rwa [getLast?_cons_or] at h⟩
  · rintro (⟨w, rest, htext, h⟩ | ⟨front, w, rest, rfl, h⟩)
    · exact ⟨[], w, rest, htext, h⟩
    · exact ⟨c :: front, w, rest, rfl, by rwa [getLast?_cons_or]⟩

/-- A scan succeeds if an attempt under way matches a beginning of the text, or the start pattern a
stretch of it. -/
theorem scan_iff {start : Pattern} {attempts : List Pattern} {before : Option Char}
    {text : List Char} :
    scan start attempts before text = true ↔
      (∃ p ∈ attempts, ∃ w rest, text = w ++ rest ∧ Matches p before w rest.head?) ∨
      ∃ front w rest, text = front ++ w ++ rest ∧
        Matches start (front.getLast?.or before) w rest.head? := by
  induction text generalizing attempts before with
  | nil =>
    simp only [scan, List.any_cons, Bool.or_eq_true, List.any_eq_true, nullable_iff]
    constructor
    · rintro (h | ⟨p, hp, h⟩)
      · exact .inr ⟨[], [], [], rfl, h⟩
      · exact .inl ⟨p, hp, [], [], rfl, h⟩
    · rintro (⟨p, hp, w, rest, he, h⟩ | ⟨front, w, rest, he, h⟩)
      · obtain ⟨rfl, rfl⟩ : w = [] ∧ rest = [] := by simpa using he.symm
        exact .inr ⟨p, hp, h⟩
      · obtain ⟨rfl, rfl, rfl⟩ : front = [] ∧ w = [] ∧ rest = [] := by simpa using he.symm
        exact .inl h
  | cons c text ih =>
    simp only [scan, Bool.or_eq_true, List.any_eq_true, ih, List.mem_eraseDups, List.mem_flatMap,
      exists_prefix_cons_iff, exists_stretch_cons_iff]
    constructor
    -- Here: the start pattern or an attempt is through.  Later: an attempt that took `c`, or a
    -- match that begins behind `c`.
    · rintro (⟨p, hp, hhere⟩ | ⟨q, ⟨p, hp, hq⟩, htook⟩ | hbehind)
      · rcases List.mem_cons.1 hp with rfl | hp
        · exact .inr (.inl (.inl hhere))
        · exact .inl ⟨p, hp, .inl hhere⟩
      · rcases List.mem_cons.1 hp with rfl | hp
        · exact .inr (.inl (.inr ⟨q, hq, htook⟩))
        · exact .inl ⟨p, hp, .inr ⟨q, hq, htook⟩⟩
      · exact .inr (.inr hbehind)
    · rintro (⟨p, hp, hhere | ⟨q, hq, htook⟩⟩ | (hhere | ⟨q, hq, htook⟩) | hbehind)
      · exact .inl ⟨p, List.mem_cons_of_mem _ hp, hhere⟩
      · exact .inr (.inl ⟨q, ⟨p, List.mem_cons_of_mem _ hp, hq⟩, htook⟩)
      · exact .inl ⟨start, List.mem_cons_self, hhere⟩
      · exact .inr (.inl ⟨q, ⟨start, List.mem_cons_self, hq⟩, htook⟩)
      · exact .inr (.inr hbehind)

/-- The search finds a match exactly if some stretch of the text is matched. -/
theorem search_iff {p : Pattern} {text : List Char} :
    p.search text = true ↔
      ∃ front w rest, text = front ++ w ++ rest ∧ Matches p front.getLast? w rest.head? := by
  simp [search, scan_iff]

end Pattern

end TypeEnforcement
