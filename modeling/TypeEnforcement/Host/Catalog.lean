/-
The catalog: the host's policy and the file contexts that label its paths.

File contexts come in four tiers, searched from the most to the least authoritative.  Inside a tier
an entry without wildcards comes before one with wildcards, among wildcards the longer literal start
comes first, and otherwise the entry declared later.

* `TierEntries` — the entries of a tier with their search order, computed once per change;
* `Catalog.lookup` — the entry that labels a path, and its tier;
* `Catalog.allocate` — a further entry of the tier that a build fills;
* `Catalog.mask` — an entry made unable to label anything.

Main statements:
* `TierEntries.find?_sound` — what a tier answers is an entry of it that satisfies the question;
* `Catalog.search_eq_none_iff` — a search fails exactly if every tier fails.
-/
import TypeEnforcement.Host.SystemPolicy
import TypeEnforcement.Label.FileContext

namespace TypeEnforcement

/-- A tier of file contexts. -/
inductive Tier where
  /-- The entries made by the build under way. -/
  | allocated
  /-- The customisations of the host. -/
  | custom
  /-- The home directories. -/
  | homes
  /-- The defaults of the policy. -/
  | system
deriving DecidableEq

namespace Tier

/-- The tiers in the order in which they are searched. -/
def searchOrder : List Tier :=
  [allocated, custom, homes, system]

def word : Tier → String
  | allocated => "temp"
  | custom => "local"
  | homes => "homedir"
  | system => "system"

end Tier

/-- What decides when an entry of a tier is searched. -/
structure SearchKey where
  isWildcard : Bool
  specificity : Nat
  /-- The place of the entry in the order of declaration. -/
  place : Nat

namespace SearchKey

/-- The key of an entry at a place. -/
def of (entry : FileContext) (place : Nat) : SearchKey :=
  { isWildcard := entry.isWildcard, specificity := entry.specificity, place }

/-- Whether the entry of key `a` is searched no later than the entry of key `b`. -/
def precedes (a b : SearchKey) : Bool :=
  if a.isWildcard = b.isWildcard then
    if a.specificity = b.specificity then b.place ≤ a.place else b.specificity < a.specificity
  else
    b.isWildcard

end SearchKey

/-- The entries of a tier in the order of their declaration, and the places of the entries in the
order in which they are searched. -/
structure TierEntries where
  entries : Array FileContext := #[]
  order : List Nat := []

namespace TierEntries

/-- The places of entries in the order in which they are searched. -/
def searchOrder (entries : Array FileContext) : List Nat :=
  ((entries.toList.zipIdx.map fun (entry, place) => SearchKey.of entry place).mergeSort
    SearchKey.precedes).map SearchKey.place

def ofList (entries : List FileContext) : TierEntries :=
  { entries := entries.toArray, order := searchOrder entries.toArray }

def push (tier : TierEntries) (entry : FileContext) : TierEntries :=
  { entries := tier.entries.push entry, order := searchOrder (tier.entries.push entry) }

/-- The tier with one entry changed; its place in the search does not depend on the change. -/
def modify (tier : TierEntries) (place : Nat) (f : FileContext → FileContext) : TierEntries :=
  { tier with entries := tier.entries.modify place f }

/-- The place of the first entry in search order that satisfies a question, and the entry. -/
def find? (tier : TierEntries) (p : FileContext → Bool) : Option (Nat × FileContext) :=
  tier.order.findSome? fun place =>
    (tier.entries[place]?.filter p).map (place, ·)

theorem find?_sound {tier : TierEntries} {p : FileContext → Bool} {place : Nat}
    {entry : FileContext} (h : tier.find? p = some (place, entry)) :
    tier.entries[place]? = some entry ∧ p entry = true := by
  obtain ⟨other, _, h⟩ := List.exists_of_findSome?_eq_some h
  obtain ⟨found, hfound, heq⟩ := Option.map_eq_some_iff.1 h
  obtain ⟨rfl, rfl⟩ : other = place ∧ found = entry := by simpa using heq
  exact Option.filter_eq_some_iff.1 hfound

end TierEntries

/-- The host's policy with the tiers of file contexts. -/
structure Catalog where
  policy : SystemPolicy := {}
  allocated : TierEntries := {}
  custom : TierEntries := {}
  homes : TierEntries := {}
  system : TierEntries := {}

namespace Catalog

/-- The catalog of a policy and its three tiers of file contexts; nothing is allocated yet. -/
def make (policy : SystemPolicy) (system homes custom : List FileContext) : Catalog :=
  { policy, custom := .ofList custom, homes := .ofList homes, system := .ofList system }

def tier (catalog : Catalog) : Tier → TierEntries
  | .allocated => catalog.allocated
  | .custom => catalog.custom
  | .homes => catalog.homes
  | .system => catalog.system

def setTier (catalog : Catalog) (t : Tier) (entries : TierEntries) : Catalog :=
  match t with
  | .allocated => { catalog with allocated := entries }
  | .custom => { catalog with custom := entries }
  | .homes => { catalog with homes := entries }
  | .system => { catalog with system := entries }

/-- The first entry in search order that satisfies a question: its tier, its place and itself. -/
def search (catalog : Catalog) (p : FileContext → Bool) : Option (Tier × Nat × FileContext) :=
  Tier.searchOrder.findSome? fun t => ((catalog.tier t).find? p).map (t, ·)

/-- The entry that labels a path asked for as an object of a class, and its tier. -/
def lookup (catalog : Catalog) (path : String) (fileClass : FileClass) :
    Option (Tier × FileContext) :=
  (catalog.search (·.covers path fileClass)).map fun (t, _, entry) => (t, entry)

/-- The first entry in search order that has a pattern, whether it is valid or not. -/
def entryOf? (catalog : Catalog) (pattern : String) : Option (Tier × Nat × FileContext) :=
  catalog.search (·.pattern = pattern)

/-- Make the first entry that has a pattern unable to label anything. -/
def mask (catalog : Catalog) (pattern : String) : Catalog :=
  match catalog.entryOf? pattern with
  | none => catalog
  | some (t, place, _) => catalog.setTier t ((catalog.tier t).modify place FileContext.mask)

/-- Add an entry made by the build under way. -/
def allocate (catalog : Catalog) (entry : FileContext) : Catalog :=
  { catalog with allocated := catalog.allocated.push entry }

/-- The entries made by the build under way, in the order in which they were made. -/
def allocatedEntries (catalog : Catalog) : List FileContext :=
  catalog.allocated.entries.toList

theorem search_eq_none_iff {catalog : Catalog} {p : FileContext → Bool} :
    catalog.search p = none ↔ ∀ t, (catalog.tier t).find? p = none := by
  simp only [search, List.findSome?_eq_none_iff, Option.map_eq_none_iff]
  constructor
  · intro h t
    exact h t (by cases t <;> simp [Tier.searchOrder])
  · intro h t _
    exact h t

end Catalog

end TypeEnforcement
