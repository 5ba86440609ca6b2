/-
Reading data out of the values of project documents.

A decoder answers nothing for a value of the wrong kind.  A record is written as an object, where
unknown keys do not matter but no field may come twice, or as an array of its fields in their order,
of which fields at the end may be left out as missing keys may be.

* `Value.string?`, `Value.boolean?`, `Value.optionalString?`, `Value.list?` — the kinds of data;
* `Fields`, `Value.fields?` — the fields of a record, by name.
-/
import TypeEnforcement.Json.Value

namespace TypeEnforcement.Json

namespace Value

def string? : Value → Option String
  | string text => text
  | _ => none

def boolean? : Value → Option Bool
  | boolean value => some value
  | _ => none

/-- A text, or null in place of one. -/
def optionalString? : Value → Option (Option String)
  | null => some none
  | value => value.string?.map some

def list? {α : Type} (decode : Value → Option α) : Value → Option (List α)
  | array items => items.mapM decode
  | _ => none

end Value

/-- The fields of a record, by name. -/
abbrev Fields := List (String × Value)

/-- The fields of a record whose fields have `names`, in this order. -/
def Value.fields? (names : List String) : Value → Option Fields
  | object entries => do
    let named ← entries.mapM fun entry => entry.1.map (·, entry.2)
    let known := named.filter fun entry => entry.1 ∈ names
    if (known.map Prod.fst).Pairwise (· ≠ ·) then some known else none
  | array items => if items.length ≤ names.length then some (names.zip items) else none
  | _ => none

namespace Fields

variable {α : Type}

/-- The data of a field that must be there. -/
def required (fields : Fields) (name : String) (decode : Value → Option α) : Option α :=
  (fields.lookup name).bind decode

/-- The data of a field, or what stands for it if it is missing. -/
def withDefault (fields : Fields) (name : String) (decode : Value → Option α) (default : α) :
    Option α :=
  match fields.lookup name with
  | some value => decode value
  | none => some default

end Fields

end TypeEnforcement.Json
