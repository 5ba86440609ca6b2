/-
Names of types and domains.

A resource without a configured type gets a name made of its path: a readable word from the last
component, four digits of a hash that keeps equal words apart, and a suffix for the class.

* `TypeName.synthesize` — the name for a path;
* `TypeName.domainOf` — the domain that a process enters by executing a file of a type;
* `TypeName.IsValid` — which names may be configured.
-/
import TypeEnforcement.Digest.Sha256
import TypeEnforcement.Label.FileClass
import TypeEnforcement.Path.Glob
import TypeEnforcement.Text.LowerCase

namespace TypeEnforcement.TypeName

/-- The most bytes that a configured name may have. -/
def maxLength : Nat := 50

/-- Whether a character may follow the first one of a name. -/
def isNameChar (c : Char) : Bool :=
  c.isAlphanum || c == '_'

/-- The lower case of a component, with dots as underscores and all else that a name cannot hold
left out. -/
def wordOf (component : List Char) : List Char :=
  ((Text.lowercase component).map fun c => if c = '.' then '_' else c).filter isNameChar

/-- The readable part of the name for a path.  A component with a wildcard says too little, so the
words of the directories above it come first. -/
def readable (path : List Char) : List Char :=
  if path = ['/'] then "root".toList
  else
    let stem := (Path.splitTrailing path).1
    let leaf := Path.leafOf stem
    if leaf.any Path.isWild then readable (Path.parentOf stem) ++ '_' :: wordOf leaf
    else wordOf leaf
termination_by Path.wildCount path
decreasing_by
  refine Nat.lt_of_lt_of_le (Path.wildCount_parentOf_lt ‹_›) ?_
  exact Path.wildCount_splitTrailing_le path

/-- The first four digits of the hash of a path. -/
def hashDigits (path : String) : List Char :=
  (Digest.sha256Hex path).take 4

/-- The type name for a path that configures none. -/
def synthesize (path : String) (fileClass : FileClass) (executable : Bool) : String :=
  let stem := "auto_".toList ++ readable path.toList ++ '_' :: hashDigits path
  let suffix := if executable then "_exec_t" else fileClass.nameSuffix ++ "_t"
  String.ofList (stem ++ suffix.toList)

/-- The domain that a process enters by executing a file of type `fileType`. -/
def domainOf (fileType : String) : String :=
  match Text.beforeEnd? "_exec_t" fileType with
  | some stem => stem ++ "_t"
  | none =>
    if (Text.beforeEnd? "_t" fileType).isSome then fileType ++ "rans_t"
    else fileType ++ "_trans_t"

/-- The form of a name: an ASCII letter, then letters, digits and underscores. -/
def isIdentifier (name : List Char) : Bool :=
  match name with
  | [] => false
  | c :: rest => c.isAlpha && rest.all isNameChar

/-- The names that may be configured: identifiers that are not too long. -/
def IsValid (name : String) : Prop :=
  name.utf8ByteSize ≤ maxLength ∧ isIdentifier name.toList = true

instance (name : String) : Decidable (IsValid name) :=
  inferInstanceAs (Decidable (_ ∧ _))

end TypeEnforcement.TypeName
