/-
Tables of configuration documents, and what may be added to them.

A table is complete when it is written between braces.  A table with a header of its own takes no
dotted keys from elsewhere, and no second header; one that a header or a dotted key only passes
through may still be opened or extended by its own kind.

* `Entries.descend` — a change inside the table that a path leads to;
* `Entries.assign` — a key and its value added there;
* `Entries.openTable`, `Entries.pushTable` — what the two kinds of headers do.
-/
import TypeEnforcement.Toml.Value

namespace TypeEnforcement.Toml.Entries

/-- Change the value of a key, or add the key; the change may be refused. -/
def alter? (key : String) (change : Option Value → Option Value) : Entries → Option Entries
  | [] => (change none).map fun value => [(key, value)]
  | (other, value) :: rest =>
    if other = key then (change (some value)).map fun value => (other, value) :: rest
    else (alter? key change rest).map ((other, value) :: ·)

/-- Make a change in the table that a path leads to, and that has the form `form` if the path is
empty.  Missing tables on the path are created.  A path through tables in an array goes through the
last of them.  `byKey` says that the path comes from a dotted key. -/
def descend (byKey : Bool) (change : TableForm → Entries → Option Entries) :
    List String → TableForm → Entries → Option Entries
  | [], form, entries => change form entries
  | key :: path, _, entries => alter? key (fun value =>
      match value with
      | none =>
        let form := if byKey then .dotted else .implicit
        (descend byKey change path form []).map (.table form)
      | some (.table .inline _) => none
      | some (.table form inner) =>
        if byKey && form = .header then none
        else (descend byKey change path form inner).map (.table form)
      | some (.tables items) =>
        match items.getLast? with
        | none => none
        | some last => (descend byKey change path .header last).map fun changed =>
            .tables (items.dropLast ++ [changed])
      | some _ => none) entries

/-- Add the value of a dotted key.  A key with dots may only end in a table that such keys made. -/
def assign (path : List String) (key : String) (value : Value) (entries : Entries)
    (form : TableForm) : Option Entries :=
  descend true (fun form inner =>
    if path ≠ [] && form ≠ .dotted then none
    else alter? key (fun old => if old.isNone then some value else none) inner) path form entries

/-- Open the table of a header. -/
def openTable (path : List String) (key : String) (entries : Entries) : Option Entries :=
  descend false (fun _ inner => alter? key (fun old =>
    match old with
    | none => some (.table .header [])
    | some (.table .implicit inner) => some (.table .header inner)
    | some _ => none) inner) path .header entries

/-- Add a table to the array of a header between double brackets. -/
def pushTable (path : List String) (key : String) (entries : Entries) : Option Entries :=
  descend false (fun _ inner => alter? key (fun old =>
    match old with
    | none => some (.tables [[]])
    | some (.tables items) => some (.tables (items ++ [[]]))
    | some _ => none) inner) path .header entries

end TypeEnforcement.Toml.Entries
