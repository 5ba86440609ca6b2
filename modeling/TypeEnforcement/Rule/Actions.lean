/-
What a rule allows on a class: every permission of it, or a set of named ones.

The star that stands for every permission is never kept beside names; a list that has it says no
more than the star alone.

* `Actions` — the two cases;
* `Actions.Covers` — whether a permission is among the actions;
* `Actions.union` — the actions of two rules taken together.

Main statements:
* `Actions.covers_union` — a union covers what either side covers;
* `Actions.ofList_toList` — actions are determined by their list.
-/
import TypeEnforcement.Names.Set

namespace TypeEnforcement

/-- What a rule allows on a class. -/
inductive Actions where
  /-- Every permission of the class. -/
  | all
  /-- The named permissions. -/
  | only (names : NameSet) (no_star : "*" ∉ names)
deriving DecidableEq

namespace Actions

/-- The actions of a list of permissions, in which a star stands for all. -/
def ofList (names : List String) : Actions :=
  if h : "*" ∈ names then all
  else only (NameSet.ofList names) (by simpa using h)

/-- The permissions of actions, with a star for all of them. -/
def toList : Actions → List String
  | all => ["*"]
  | only names _ => names.toList

/-- Whether a permission is among the actions. -/
def Covers (permission : String) : Actions → Prop
  | all => True
  | only names _ => permission ∈ names

instance (permission : String) (actions : Actions) : Decidable (actions.Covers permission) :=
  match actions with
  | all => .isTrue trivial
  | only names _ => inferInstanceAs (Decidable (permission ∈ names))

/-- Whether the actions are none at all. -/
def isEmpty : Actions → Bool
  | all => false
  | only names _ => names.isEmpty

def union : Actions → Actions → Actions
  | only a ha, only b hb => only (a.union b) (by simp [ha, hb])
  | _, _ => all

/-- The actions as rules write them. -/
def text : Actions → String
  | all => "*"
  | only names _ => "\x7b " ++ " ".intercalate names.toList ++ " \x7d"

@[simp] theorem covers_union {permission : String} {a b : Actions} :
    (a.union b).Covers permission ↔ a.Covers permission ∨ b.Covers permission := by
  cases a <;> cases b <;> simp [union, Covers]

theorem covers_ofList {permission : String} {names : List String} :
    (ofList names).Covers permission ↔ "*" ∈ names ∨ permission ∈ names := by
  unfold ofList
  by_cases h : "*" ∈ names <;> simp [h, Covers]

theorem ofList_toList (actions : Actions) : ofList actions.toList = actions := by
  cases actions with
  | all => simp [ofList, toList]
  | only names h =>
    have h' : "*" ∉ names.toList := h
    have hset : NameSet.ofList names.toList = names :=
      NameSet.ext fun name => by rw [NameSet.mem_ofList, NameSet.mem_toList]
    simp [ofList, toList, h', hset]

end Actions

end TypeEnforcement
