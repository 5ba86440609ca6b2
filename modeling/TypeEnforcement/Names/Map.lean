/-
Finite maps from names.

A `NameMap` is the list of its entries with increasing keys, which is also the order in which maps
are written out.

Main statements:
* `NameMap.find?_alter_self`, `NameMap.find?_alter_of_ne` — changing one entry changes that entry
  and no other;
* `NameMap.mem_keys` — the keys are the names with a value;
* `NameMap.ext` — maps with the same look-ups are equal.
-/
import TypeEnforcement.Names.Set

namespace TypeEnforcement

/-- Change the value of a key in a list of entries with increasing keys; the new value is computed
from the old one, if there is one. -/
def alterEntry {β : Type} (key : String) (f : Option β → β) :
    List (String × β) → List (String × β)
  | [] => [(key, f none)]
  | (other, value) :: rest =>
    if key < other then (key, f none) :: (other, value) :: rest
    else if key = other then (other, f (some value)) :: rest
    else (other, value) :: alterEntry key f rest

theorem map_fst_alterEntry {β : Type} (key : String) (f : Option β → β)
    (entries : List (String × β)) :
    (alterEntry key f entries).map Prod.fst = insertName key (entries.map Prod.fst) := by
  induction entries with
  | nil => rfl
  | cons entry rest ih =>
    obtain ⟨other, value⟩ := entry
    simp only [alterEntry, List.map_cons, insertName]
    split
    · rfl
    · split
      · rfl
      · rw [List.map_cons, ih]

/-- A finite map from names, as the list of its entries with increasing keys. -/
structure NameMap (β : Type) where
  entries : List (String × β)
  sorted : (entries.map Prod.fst).Pairwise (· < ·)
deriving DecidableEq

namespace NameMap

variable {β : Type}

theorem sorted_nil : (([] : List (String × β)).map Prod.fst).Pairwise (· < ·) :=
  List.Pairwise.nil

/-- The map without entries. -/
def empty : NameMap β :=
  ⟨[], sorted_nil⟩

instance : Inhabited (NameMap β) := ⟨empty⟩

instance : EmptyCollection (NameMap β) := ⟨empty⟩

def find? (map : NameMap β) (key : String) : Option β :=
  map.entries.lookup key

/-- Whether a key has a value. -/
def contains (map : NameMap β) (key : String) : Bool :=
  (map.find? key).isSome

/-- The keys, in increasing order. -/
def keys (map : NameMap β) : List String :=
  map.entries.map Prod.fst

/-- Change the value of a key; the new value is computed from the old one, if there is one. -/
def alter (map : NameMap β) (key : String) (f : Option β → β) : NameMap β :=
  ⟨alterEntry key f map.entries, by rw [map_fst_alterEntry]; exact pairwise_insertName map.sorted⟩

/-- Give a key a value, in place of the one it may have. -/
def insert (map : NameMap β) (key : String) (value : β) : NameMap β :=
  map.alter key fun _ => value

/-- The map of a list of entries; the last entry of a key counts. -/
def ofList (entries : List (String × β)) : NameMap β :=
  entries.foldl (fun map entry => map.insert entry.1 entry.2) empty

theorem lookup_alterEntry_self (key : String) (f : Option β → β) {entries : List (String × β)}
    (h : (entries.map Prod.fst).Pairwise (· < ·)) :
    (alterEntry key f entries).lookup key = some (f (entries.lookup key)) := by
  induction entries with
  | nil => simp [alterEntry]
  | cons entry rest ih =>
    obtain ⟨other, value⟩ := entry
    rw [List.map_cons, List.pairwise_cons] at h
    rw [alterEntry]
    split
    · rename_i hlt
      have hne : (key == other) = false := by
        simpa using fun e : key = other => String.lt_irrefl other (e ▸ hlt)
      -- All keys are larger, so the key had no value.
      have hrest : rest.lookup key = none := by
        rw [List.lookup_eq_none_iff]
        intro p hp
        have := String.lt_trans hlt (h.1 p.1 (List.mem_map_of_mem hp))
        simpa using fun e : key = p.1 => String.lt_irrefl p.1 (e ▸ this)
      simp [List.lookup_cons, hne, hrest]
    · split
      · rename_i heq
        subst heq
        simp
      · rename_i hne
        have : (key == other) = false := by simpa using hne
        simp [List.lookup_cons, this, ih h.2]

theorem lookup_alterEntry_of_ne {key other : String} (f : Option β → β)
    (entries : List (String × β)) (h : other ≠ key) :
    (alterEntry key f entries).lookup other = entries.lookup other := by
  have hk : (other == key) = false := by simpa using h
  induction entries with
  | nil => simp [alterEntry, List.lookup_cons, hk]
  | cons entry rest ih =>
    obtain ⟨first, value⟩ := entry
    rw [alterEntry]
    split
    · simp [List.lookup_cons, hk]
    · split
      · rename_i heq
        subst heq
        simp [List.lookup_cons, hk]
      · simp [List.lookup_cons, ih]

@[simp] theorem find?_alter_self (map : NameMap β) (key : String) (f : Option β → β) :
    (map.alter key f).find? key = some (f (map.find? key)) :=
  lookup_alterEntry_self key f map.sorted

theorem find?_alter_of_ne {key other : String} (map : NameMap β) (f : Option β → β)
    (h : other ≠ key) : (map.alter key f).find? other = map.find? other :=
  lookup_alterEntry_of_ne f map.entries h

@[simp] theorem find?_empty (key : String) : (∅ : NameMap β).find? key = none :=
  rfl

/-- The entries of a map are what is found under their keys. -/
theorem mem_entries_iff {map : NameMap β} {entry : String × β} :
    entry ∈ map.entries ↔ map.find? entry.1 = some entry.2 := by
  constructor
  · intro h
    obtain ⟨before, after, hentries⟩ := List.append_of_mem h
    have hsorted := map.sorted
    rw [hentries, List.map_append, List.map_cons, List.pairwise_append] at hsorted
    refine List.lookup_eq_some_iff.2 ⟨before, after, hentries, fun other hother => ?_⟩
    -- The keys before that of the entry are smaller.
    have hlt := hsorted.2.2 other.1 (List.mem_map_of_mem hother) entry.1 List.mem_cons_self
    simpa using fun heq : entry.1 = other.1 => String.lt_irrefl entry.1 (heq ▸ hlt)
  · intro h
    obtain ⟨before, after, hentries, -⟩ := List.lookup_eq_some_iff.1 h
    rw [hentries]
    exact List.mem_append_right _ List.mem_cons_self

theorem mem_keys {map : NameMap β} {key : String} :
    key ∈ map.keys ↔ map.contains key = true := by
  rw [keys, List.mem_map, contains, Option.isSome_iff_exists]
  constructor
  · rintro ⟨entry, hentry, rfl⟩
    exact ⟨entry.2, mem_entries_iff.1 hentry⟩
  · rintro ⟨value, hvalue⟩
    exact ⟨(key, value), mem_entries_iff.2 hvalue, rfl⟩

@[simp] theorem mem_keys_alter {map : NameMap β} {key other : String} {f : Option β → β} :
    other ∈ (map.alter key f).keys ↔ other = key ∨ other ∈ map.keys := by
  simp only [keys, alter, map_fst_alterEntry, mem_insertName]

theorem pairwise_entries (map : NameMap β) : map.entries.Pairwise fun x y => x.1 < y.1 :=
  List.pairwise_map.1 map.sorted

/-- A map is determined by what is found in it. -/
theorem ext {a b : NameMap β} (h : ∀ key, a.find? key = b.find? key) : a = b := by
  have hnodup (map : NameMap β) : map.entries.Nodup :=
    map.pairwise_entries.imp fun {x y} (hlt : x.1 < y.1) (heq : x = y) =>
      String.lt_irrefl y.1 (heq ▸ hlt)
  have hperm : a.entries.Perm b.entries :=
    (List.perm_ext_iff_of_nodup (hnodup a) (hnodup b)).2 fun entry => by
      rw [mem_entries_iff, mem_entries_iff, h]
  have hentries : a.entries = b.entries :=
    hperm.eq_of_pairwise (fun _ _ _ _ hxy hyx => absurd hxy (String.lt_asymm hyx))
      a.pairwise_entries b.pairwise_entries
  cases a
  cases b
  cases hentries
  rfl

/-! ### Maps to sets -/

/-- Whether a name is in the set of a key. -/
def Relates (map : NameMap NameSet) (key name : String) : Prop :=
  ∃ set, map.find? key = some set ∧ name ∈ set

@[simp] theorem not_relates_empty (key name : String) :
    ¬(∅ : NameMap NameSet).Relates key name := by
  rintro ⟨set, hset, -⟩
  cases hset

@[simp] theorem contains_empty (key : String) : (∅ : NameMap β).contains key = false := rfl

@[simp] theorem contains_alter {map : NameMap β} {key other : String} {f : Option β → β} :
    (map.alter key f).contains other = true ↔ other = key ∨ map.contains other = true := by
  rw [← mem_keys, ← mem_keys, mem_keys_alter]

/-- Altering the set of a key by the names of another set. -/
theorem relates_alter {map : NameMap NameSet} {key other name : String}
    {f : Option NameSet → NameSet} (more : String → Prop)
    (hf : ∀ old, name ∈ f old ↔ name ∈ old.getD ∅ ∨ more name) :
    (map.alter key f).Relates other name ↔ map.Relates other name ∨ other = key ∧ more name := by
  unfold Relates
  by_cases h : other = key
  · subst h
    rw [find?_alter_self]
    simp only [Option.some.injEq, exists_eq_left', hf, true_and]
    cases map.find? other <;> simp
  · rw [find?_alter_of_ne map f h]
    simp [h]

end NameMap

end TypeEnforcement
