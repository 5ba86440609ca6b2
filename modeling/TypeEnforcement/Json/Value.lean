/-
Values of project documents.

* `Json.Value` — a value.  Numbers are told apart from other values but not kept, because no part of
  a project is a number.  A text is missing where escapes name half a surrogate pair; such a text
  may stand where it is not read.
-/

namespace TypeEnforcement.Json

inductive Value where
  | null
  | boolean (value : Bool)
  | number
  | string (text : Option String)
  | array (items : List Value)
  | object (entries : List (Option String × Value))

end TypeEnforcement.Json
