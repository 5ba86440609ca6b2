/-
Values of configuration documents.

* `Toml.Value` — a value; numbers with a fraction and points in time are told apart from the other
  values but not kept, because no setting has one;
* `Toml.TableForm` — how a table came to be, which decides what may still be added to it.
-/

namespace TypeEnforcement.Toml

/-- How a table came to be. -/
inductive TableForm where
  /-- Written between braces; it is complete. -/
  | inline
  /-- Opened by a header of its own. -/
  | header
  /-- Passed through by a header of a table inside it. -/
  | implicit
  /-- Passed through by a dotted key. -/
  | dotted
deriving DecidableEq

inductive Value where
  | string (text : String)
  | integer (value : Int)
  | boolean (value : Bool)
  | float
  | dateTime
  | array (items : List Value)
  | table (form : TableForm) (entries : List (String × Value))
  /-- The tables opened by headers between double brackets. -/
  | tables (items : List (List (String × Value)))

/-- The entries of a table, in the order in which they were added. -/
abbrev Entries := List (String × Value)

end TypeEnforcement.Toml
