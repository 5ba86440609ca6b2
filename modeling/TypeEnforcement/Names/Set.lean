/-
Finite sets of names.

A `NameSet` is the list of its members in increasing order, which is also the order in which sets
are written out.  The order is part of the type, so two sets with the same members are equal.

Main statements:
* `NameSet.mem_insert`, `NameSet.mem_erase`, `NameSet.mem_union`, `NameSet.mem_ofList` — what each
  operation does to the members;
* `NameSet.ext` — sets with the same members are equal;
* `NameSet.length_lt_of_subset` — a set without some member of a larger set is smaller.

Design note: the sets of the library are small, so insertion walks the list.
-/

namespace TypeEnforcement

/-- Insert a name into an increasing list, unless it is there. -/
def insertName (name : String) : List String → List String
  | [] => [name]
  | other :: rest =>
    if name < other then name :: other :: rest
    else if name = other then other :: rest
    else other :: insertName name rest

theorem mem_insertName {x name : String} {names : List String} :
    x ∈ insertName name names ↔ x = name ∨ x ∈ names := by
  induction names with
  | nil => simp [insertName]
  | cons other rest ih =>
    rw [insertName]
    split
    · simp
    · split
      · rename_i h
        subst h
        simp
      · simp [ih, or_left_comm]

theorem pairwise_insertName {name : String} {names : List String}
    (h : names.Pairwise (· < ·)) : (insertName name names).Pairwise (· < ·) := by
  induction names with
  | nil => simp [insertName]
  | cons other rest ih =>
    rw [insertName]
    rw [List.pairwise_cons] at h
    split
    · rename_i hlt
      -- The name is smaller than the first one, so it is smaller than all.
      refine List.pairwise_cons.2 ⟨fun x hx => ?_, List.pairwise_cons.2 h⟩
      rcases List.mem_cons.1 hx with rfl | hx
      · exact hlt
      · exact String.lt_trans hlt (h.1 x hx)
    · rename_i hlt
      split
      · exact List.pairwise_cons.2 h
      · rename_i hne
        refine List.pairwise_cons.2 ⟨fun x hx => ?_, ih h.2⟩
        rcases mem_insertName.1 hx with rfl | hx
        · exact Std.lt_of_le_of_ne (String.not_lt.1 hlt) (Ne.symm hne)
        · exact h.1 x hx

theorem nodup_of_pairwise_lt {xs : List String} (h : xs.Pairwise (· < ·)) : xs.Nodup :=
  h.imp fun {a b} (hlt : a < b) (heq : a = b) => String.lt_irrefl b (heq ▸ hlt)

/-- Increasing lists with the same members are equal. -/
theorem eq_of_pairwise_lt {xs ys : List String} (hx : xs.Pairwise (· < ·))
    (hy : ys.Pairwise (· < ·)) (h : ∀ a, a ∈ xs ↔ a ∈ ys) : xs = ys := by
  have hperm : xs.Perm ys :=
    (List.perm_ext_iff_of_nodup (nodup_of_pairwise_lt hx) (nodup_of_pairwise_lt hy)).2 h
  exact hperm.eq_of_pairwise (fun _ _ _ _ hab hba => absurd hab (String.lt_asymm hba)) hx hy

/-- A finite set of names, as the increasing list of its members. -/
structure NameSet where
  toList : List String
  sorted : toList.Pairwise (· < ·)
deriving DecidableEq

namespace NameSet

/-- The set without members. -/
def empty : NameSet :=
  ⟨[], List.Pairwise.nil⟩

instance : Inhabited NameSet := ⟨empty⟩

instance : EmptyCollection NameSet := ⟨empty⟩

instance : Membership String NameSet := ⟨fun set name => name ∈ set.toList⟩

instance (name : String) (set : NameSet) : Decidable (name ∈ set) :=
  inferInstanceAs (Decidable (name ∈ set.toList))

/-- The set with one more member. -/
def insert (set : NameSet) (name : String) : NameSet :=
  ⟨insertName name set.toList, pairwise_insertName set.sorted⟩

def erase (set : NameSet) (name : String) : NameSet :=
  ⟨set.toList.filter (· ≠ name), set.sorted.filter _⟩

def ofList (names : List String) : NameSet :=
  names.foldl insert empty

/-- The members of either set. -/
def union (a b : NameSet) : NameSet :=
  b.toList.foldl insert a

/-- Whether the set has no member. -/
def isEmpty (set : NameSet) : Bool :=
  set.toList.isEmpty

theorem mem_toList {name : String} {set : NameSet} : name ∈ set.toList ↔ name ∈ set :=
  Iff.rfl

theorem ext {a b : NameSet} (h : ∀ name, name ∈ a ↔ name ∈ b) : a = b := by
  obtain ⟨xs, hx⟩ := a
  obtain ⟨ys, hy⟩ := b
  have : xs = ys := eq_of_pairwise_lt hx hy h
  subst this
  rfl

@[simp] theorem not_mem_empty (name : String) : name ∉ (∅ : NameSet) := by
  show name ∉ []
  simp

@[simp] theorem mem_insert {name x : String} {set : NameSet} :
    x ∈ set.insert name ↔ x = name ∨ x ∈ set :=
  mem_insertName

@[simp] theorem mem_erase {name x : String} {set : NameSet} :
    x ∈ set.erase name ↔ x ∈ set ∧ x ≠ name := by
  show x ∈ set.toList.filter (· ≠ name) ↔ _
  simp [mem_toList]

theorem mem_foldl_insert {names : List String} {set : NameSet} {x : String} :
    x ∈ names.foldl insert set ↔ x ∈ set ∨ x ∈ names := by
  induction names generalizing set with
  | nil => simp
  | cons name rest ih => simp [ih, or_assoc, or_left_comm]

@[simp] theorem mem_ofList {names : List String} {x : String} : x ∈ ofList names ↔ x ∈ names := by
  have h : x ∉ empty := not_mem_empty x
  simp [ofList, mem_foldl_insert, h]

@[simp] theorem mem_union {a b : NameSet} {x : String} : x ∈ a.union b ↔ x ∈ a ∨ x ∈ b :=
  mem_foldl_insert

theorem isEmpty_iff {set : NameSet} : set.isEmpty = true ↔ ∀ name, name ∉ set := by
  rw [isEmpty, List.isEmpty_iff]
  constructor
  · intro h name hmem
    rw [← mem_toList, h] at hmem
    simp at hmem
  · intro h
    exact List.eq_nil_iff_forall_not_mem.2 h

theorem isEmpty_eq_false_iff {set : NameSet} : set.isEmpty = false ↔ ∃ name, name ∈ set := by
  rw [Bool.eq_false_iff, Ne, isEmpty_iff, Classical.not_forall_not]

/-- Increasing lists of which one holds the members of the other are as long at least. -/
theorem length_le_of_pairwise_lt {xs ys : List String} (hx : xs.Pairwise (· < ·))
    (hy : ys.Pairwise (· < ·)) (h : ∀ a ∈ xs, a ∈ ys) : xs.length ≤ ys.length := by
  induction ys generalizing xs with
  | nil =>
    cases xs with
    | nil => exact Nat.le_refl _
    | cons x xs => exact absurd (h x List.mem_cons_self) (by simp)
  | cons y ys ih =>
    cases xs with
    | nil => exact Nat.zero_le _
    | cons x xs =>
      rw [List.pairwise_cons] at hx hy
      refine Nat.succ_le_succ (ih hx.2 hy.2 fun a ha => ?_)
      -- What comes after `x` is larger, so it is not the first of the other list.
      have hxa : x < a := hx.1 a ha
      rcases List.mem_cons.1 (h a (List.mem_cons_of_mem _ ha)) with rfl | hmem
      · rcases List.mem_cons.1 (h x List.mem_cons_self) with e | hmem
        · exact absurd hxa (e ▸ String.lt_irrefl x)
        · exact absurd (hy.1 x hmem) (String.lt_asymm hxa)
      · exact hmem

/-- A set whose members all belong to a larger set and differ from one of its members is smaller. -/
theorem length_lt_of_subset {a b : NameSet} {name : String} (hname : name ∈ b)
    (h : ∀ x, x ∈ a → x ∈ b ∧ x ≠ name) : a.toList.length < b.toList.length := by
  have hle : a.toList.length ≤ (b.erase name).toList.length :=
    length_le_of_pairwise_lt a.sorted (b.erase name).sorted fun x hx => mem_erase.2 (h x hx)
  refine Nat.lt_of_le_of_lt hle ?_
  show (b.toList.filter (· ≠ name)).length < b.toList.length
  refine Nat.lt_of_le_of_ne (List.length_filter_le _ _) fun heq => ?_
  have := List.length_filter_eq_length_iff.1 heq name hname
  simp at this

end NameSet

end TypeEnforcement
