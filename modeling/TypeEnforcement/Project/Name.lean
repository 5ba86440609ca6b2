/-
Names and versions of modules.

* `ModuleName.check` — the names that a module may have: an ASCII letter or underscore, then
  letters, digits, underscores, dots and dashes, not too long and no word of the policy language;
* `ModuleVersion.check` — the versions: digits and dots, a digit first, not too long.
-/
import TypeEnforcement.Fault

namespace TypeEnforcement

namespace ModuleName

/-- The most bytes that a module name may have. -/
def maxLength : Nat := 50

/-- The words of the policy language. -/
def reservedWords : List String := [
  "alias", "allow", "and", "attribute", "attribute_role", "auditallow", "auditdeny", "bool",
  "category", "cfalse", "class", "clone", "common", "constrain", "ctrue", "dom", "domby",
  "dominance", "dontaudit", "else", "equals", "false", "filename", "filesystem", "fscon",
  "fs_use_task", "fs_use_trans", "fs_use_xattr", "genfscon", "h1", "h2", "identifier", "if",
  "incomp", "inherits", "iomemcon", "ioportcon", "ipv4_addr", "ipv6_addr", "l1", "l2", "level",
  "mlsconstrain", "mlsvalidatetrans", "module", "netifcon", "neverallow", "nodecon", "not",
  "notequal", "number", "object_r", "optional", "or", "path", "pcidevicecon", "permissive",
  "pirqcon", "policycap", "portcon", "r1", "r2", "r3", "range", "range_transition", "require",
  "role", "roleattribute", "roles", "role_transition", "sameuser", "sensitivity", "sid",
  "source", "t1", "t2", "t3", "target", "true", "type", "typealias", "typeattribute",
  "typebounds", "type_change", "type_member", "types", "type_transition", "u1", "u2", "u3",
  "user", "validatetrans", "version_identifier", "xor", "default_user", "default_role",
  "default_type", "default_range", "low", "high", "low_high"]

/-- Whether a character may follow the first one of a module name. -/
def isNameChar (c : Char) : Bool :=
  c.isAlphanum || c == '_' || c == '.' || c == '-'

/-- Whether a text has the form of a module name. -/
def isWellFormed (name : String) : Bool :=
  (match name.toList with
    | [] => false
    | c :: rest => (c.isAlpha || c == '_') && rest.all isNameChar) &&
  name.utf8ByteSize ≤ maxLength

/-- Refuse a name that no module may have. -/
def check (name : String) : Except Fault Unit :=
  if ¬isWellFormed name then .error (.config (.moduleName name))
  else if name ∈ reservedWords then .error (.config (.reservedModuleName name))
  else .ok ()

theorem check_eq_ok_iff {name : String} :
    check name = .ok () ↔ isWellFormed name = true ∧ name ∉ reservedWords := by
  unfold check
  by_cases hw : isWellFormed name = true <;> by_cases hr : name ∈ reservedWords <;> simp [hw, hr]

end ModuleName

namespace ModuleVersion

/-- The most bytes that a version may have. -/
def maxLength : Nat := 8

/-- The version of a project that gives none. -/
def default : String := "1.0"

/-- Whether a text has the form of a version. -/
def isWellFormed (version : String) : Bool :=
  (match version.toList with
    | [] => false
    | c :: rest => c.isDigit && rest.all fun d => d.isDigit || d == '.') &&
  version.utf8ByteSize ≤ maxLength

/-- Refuse a text that is no version. -/
def check (version : String) : Except Fault Unit :=
  if isWellFormed version then .ok () else .error (.config (.moduleVersion version))

end ModuleVersion

end TypeEnforcement
