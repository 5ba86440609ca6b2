/-
Security labels.

A label is written as three to five fields between colons: user, role and type, then a sensitivity
and a set of categories, which may be missing.

* `Label.parse?` — reading a label;
* `Label.text` — writing it; empty fields at the end are left out;
* `Label.object` — the label that an object of a type gets by default.
-/
import TypeEnforcement.Text.Split

namespace TypeEnforcement

/-- A security label. -/
structure Label where
  user : String := ""
  role : String := ""
  typeName : String := ""
  sensitivity : String := ""
  categories : String := ""
deriving DecidableEq, Inhabited

namespace Label

def object (typeName : String) : Label :=
  { user := "system_u", role := "object_r", typeName, sensitivity := "s0" }

/-- Read a label, without the blanks around it. -/
def parse? (text : String) : Option Label :=
  match Text.split ':' (Text.trim text) with
  | [user, role, typeName] => some { user, role, typeName }
  | [user, role, typeName, sensitivity] => some { user, role, typeName, sensitivity }
  | [user, role, typeName, sensitivity, categories] =>
    some { user, role, typeName, sensitivity, categories }
  | _ => none

/-- Write a label.  Without a sensitivity the categories are not written either. -/
def text (label : Label) : String :=
  let core := label.user ++ ":" ++ label.role ++ ":" ++ label.typeName
  if label.sensitivity = "" then core
  else if label.categories = "" then core ++ ":" ++ label.sensitivity
  else core ++ ":" ++ label.sensitivity ++ ":" ++ label.categories

/-- The label with one type in place of another. -/
def renameType (label : Label) (source target : String) : Label :=
  if label.typeName = source then { label with typeName := target } else label

end Label

end TypeEnforcement
