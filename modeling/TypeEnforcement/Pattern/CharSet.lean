/-
Sets of characters as patterns write them.

A `CharSet` is the syntax of a set: ranges, the three classes of the Unicode standard that patterns
name, and the set operations.  `CharSet.mem` decides membership.

Main statements:
* `CharSet.mem_compl`, `CharSet.mem_union` — membership in the composed sets;
* `CharSet.mem_single`, `CharSet.mem_other` — the set of one character and the set of all others.
-/
import TypeEnforcement.Text.Blank
import TypeEnforcement.Text.CaseFold
import TypeEnforcement.Text.WordChar

namespace TypeEnforcement

/-- A set of characters. -/
inductive CharSet where
  /-- The characters from `lo` to `hi`. -/
  | range (lo hi : Char)
  /-- The characters that equal one from `lo` to `hi` up to case. -/
  | rangeAnyCase (lo hi : Char)
  /-- No character. -/
  | empty
  /-- The decimal digits. -/
  | decimal
  /-- The word characters. -/
  | word
  /-- White space. -/
  | blank
  /-- All characters but those of a set. -/
  | compl (s : CharSet)
  /-- The characters of either set. -/
  | union (s t : CharSet)
  /-- The characters of both sets. -/
  | inter (s t : CharSet)
deriving DecidableEq

namespace CharSet

/-- Whether a character belongs to a set. -/
def mem : CharSet → Char → Bool
  | range lo hi, c => lo.toNat ≤ c.toNat && c.toNat ≤ hi.toNat
  | rangeAnyCase lo hi, c =>
    (Text.caseVariants c).any fun d => lo.toNat ≤ d.toNat && d.toNat ≤ hi.toNat
  | empty, _ => false
  | decimal, c => Text.isDecimal c
  | word, c => Text.isWord c
  | blank, c => Text.isBlank c
  | compl s, c => !s.mem c
  | union s t, c => s.mem c || t.mem c
  | inter s t, c => s.mem c && t.mem c

def single (c : Char) : CharSet :=
  range c c

/-- The set of all characters but one. -/
def other (c : Char) : CharSet :=
  compl (single c)

def all : CharSet :=
  compl empty

/-- The characters of the first set that are not in the second. -/
def diff (s t : CharSet) : CharSet :=
  inter s (compl t)

/-- The characters of exactly one of the sets. -/
def symmDiff (s t : CharSet) : CharSet :=
  union (diff s t) (diff t s)

/-- The same set with its ranges read up to case. -/
def ignoringCase : CharSet → CharSet
  | range lo hi => rangeAnyCase lo hi
  | compl s => compl s.ignoringCase
  | union s t => union s.ignoringCase t.ignoringCase
  | inter s t => inter s.ignoringCase t.ignoringCase
  | s => s

@[simp] theorem mem_compl (s : CharSet) (c : Char) : (compl s).mem c = !s.mem c := rfl

@[simp] theorem mem_union (s t : CharSet) (c : Char) :
    (union s t).mem c = (s.mem c || t.mem c) := rfl

theorem mem_single {c d : Char} : (single c).mem d = true ↔ d = c := by
  simp only [single, mem, Bool.and_eq_true, decide_eq_true_eq]
  constructor
  · intro ⟨h₁, h₂⟩
    exact Char.toNat_inj.1 (Nat.le_antisymm h₂ h₁)
  · rintro rfl
    exact ⟨Nat.le_refl _, Nat.le_refl _⟩

theorem mem_other {c d : Char} : (other c).mem d = true ↔ d ≠ c := by
  rw [other, mem_compl, Bool.not_eq_true', ← Bool.not_eq_true, mem_single]

end CharSet

end TypeEnforcement
