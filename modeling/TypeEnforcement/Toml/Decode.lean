/-
Reading data out of configuration values.

A decoder answers nothing for a value of the wrong kind.  A record is written as a table, where
unknown keys do not matter, or as an array of its fields in their order, where further items do not
matter and trailing fields may be left out as missing keys may be.

* `Value.string?`, `Value.boolean?`, `Value.natUpTo?`, `Value.list?`, `Value.map?`, `Value.choice?`
  — the kinds of data;
* `Fields`, `Value.fields?` — the fields of a record, by name.
-/
import TypeEnforcement.Names.Map
import TypeEnforcement.Toml.Value

namespace TypeEnforcement.Toml

namespace Value

def string? : Value → Option String
  | string text => some text
  | _ => none

def boolean? : Value → Option Bool
  | boolean value => some value
  | _ => none

/-- A natural number up to a bound. -/
def natUpTo? (bound : Nat) : Value → Option Nat
  | integer (Int.ofNat value) => if value ≤ bound then some value else none
  | _ => none

/-- The items of a list; the tables of an array of tables are items too. -/
def items? : Value → Option (List Value)
  | array items => some items
  | tables items => some (items.map (table .header))
  | _ => none

def list? {α : Type} (decode : Value → Option α) (value : Value) : Option (List α) :=
  value.items?.bind (·.mapM decode)

/-- A table of data with free keys. -/
def map? {α : Type} (decode : Value → Option α) : Value → Option (NameMap α)
  | table _ entries =>
    (entries.mapM fun entry => (decode entry.2).map (entry.1, ·)).map NameMap.ofList
  | _ => none

/-- Whether a value is an empty list or table. -/
def isEmpty : Value → Bool
  | array items => items.isEmpty
  | table _ entries => entries.isEmpty
  | tables items => items.isEmpty
  | _ => false

/-- The name of one of several choices: a text, or the key of an empty value. -/
def choice? : Value → Option String
  | string text => some text
  | table .inline [(name, value)] => if value.isEmpty then some name else none
  | table .inline _ => none
  | table _ ((name, value) :: _) => if value.isEmpty then some name else none
  | _ => none

end Value

/-- The fields of a record, by name. -/
abbrev Fields := List (String × Value)

/-- The fields of a record whose fields have `names`, in this order. -/
def Value.fields? (names : List String) : Value → Option Fields
  | table _ entries => some entries
  | dateTime => some []
  | value => value.items?.map names.zip

namespace Fields

variable {α : Type}

/-- The data of a field that must be there. -/
def required (fields : Fields) (name : String) (decode : Value → Option α) : Option α :=
  (fields.lookup name).bind decode

/-- The data of a field, or what stands for it if it is missing. -/
def withDefault (fields : Fields) (name : String) (decode : Value → Option α) (default : α) :
    Option α :=
  match fields.lookup name with
  | some value => decode value
  | none => some default

/-- The data of a field that may be missing. -/
def optional (fields : Fields) (name : String) (decode : Value → Option α) : Option (Option α) :=
  fields.withDefault name (fun value => (decode value).map some) none

end Fields

end TypeEnforcement.Toml
