/-
Components of slash-separated paths.

* `Path.parentOf` — the directory that a path lies in;
* `Path.leafOf` — its last component;
* `Path.wildCount_parentOf_lt` — going up from a component with a wildcard leaves wildcards behind.

Trailing slashes and repeated slashes between components do not count.  The parent of the root is
the root, and a path of one relative component lies in `.`.
-/
import TypeEnforcement.Text.Split

namespace TypeEnforcement.Path

/-- The path without its trailing slashes. -/
def dropSlashes (path : List Char) : List Char :=
  Text.trimEnd (· == '/') path

/-- The directory that a path lies in. -/
def parentOf (path : List Char) : List Char :=
  let trimmed := dropSlashes path
  if trimmed = [] then
    if path = [] then ['.'] else ['/']
  else match Text.splitLast '/' trimmed with
    | none => ['.']
    | some (before, _) =>
      let parent := dropSlashes before
      if parent = [] then ['/'] else parent

/-- The last component of a path. -/
def leafOf (path : List Char) : List Char :=
  let trimmed := dropSlashes path
  if trimmed = [] then
    if path = [] then ['.'] else ['/']
  else match Text.splitLast '/' trimmed with
    | none => trimmed
    | some (_, leaf) => leaf

/-! ### Wildcards -/

/-- The characters that stand for others in a glob. -/
def isWild (c : Char) : Bool :=
  c == '*' || c == '?'

/-- The number of wildcard characters. -/
def wildCount (path : List Char) : Nat :=
  path.countP isWild

theorem exists_dropSlashes (path : List Char) :
    ∃ slashes, path = dropSlashes path ++ slashes := by
  refine ⟨(path.reverse.takeWhile (· == '/')).reverse, ?_⟩
  rw [dropSlashes, Text.trimEnd, ← List.reverse_append, List.takeWhile_append_dropWhile,
    List.reverse_reverse]

theorem wildCount_dropSlashes_le (path : List Char) :
    wildCount (dropSlashes path) ≤ wildCount path := by
  obtain ⟨slashes, h⟩ := exists_dropSlashes path
  conv => rhs; rw [h]
  rw [wildCount, wildCount, List.countP_append]
  exact Nat.le_add_right _ _

/-- Going up from a component that holds a wildcard leaves fewer wildcards. -/
theorem wildCount_parentOf_lt {path : List Char} (h : (leafOf path).any isWild = true) :
    wildCount (parentOf path) < wildCount path := by
  have hle := wildCount_dropSlashes_le path
  unfold leafOf at h
  unfold parentOf
  simp only at h ⊢
  split at h
  · split at h <;> simp [isWild] at h
  · rename_i hne
    rw [if_neg hne]
    split at h
    · have hpos : 0 < wildCount (dropSlashes path) := by
        rw [wildCount, List.countP_pos_iff]
        simpa using h
      exact Nat.lt_of_lt_of_le (by simpa [wildCount, isWild] using hpos) hle
    · rename_i before leaf heq
      -- The component that is cut off holds the wildcard.
      have hcut := Text.splitLast_eq_some heq
      have hleaf : 0 < leaf.countP isWild := by
        rw [List.countP_pos_iff]
        simpa using h
      have hbefore : wildCount before < wildCount (dropSlashes path) := by
        rw [hcut, wildCount, wildCount, List.countP_append, List.countP_cons]
        omega
      have hparent := wildCount_dropSlashes_le before
      refine Nat.lt_of_lt_of_le ?_ hle
      split
      · simp only [wildCount, isWild, List.countP_singleton] at hbefore ⊢
        have : (('/' == '*') || ('/' == '?')) = false := by decide
        simp only [this]
        exact Nat.lt_of_le_of_lt (Nat.zero_le _) hbefore
      · exact Nat.lt_of_le_of_lt hparent hbefore

end TypeEnforcement.Path
