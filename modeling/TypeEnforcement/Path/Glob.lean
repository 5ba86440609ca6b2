/-
Resource paths as globs, and the patterns that label them.

A resource path is a glob.  At its end it may have one of four trailing forms, which name a whole
tree or the children of a directory; before that `?` is one character other than a slash, `*` any
number of them and `**` any characters.  A backslash takes the meaning off a wildcard.

* `Path.Trailing` — the trailing forms, with the text and the pattern of each;
* `Path.toPattern` — the pattern of a glob;
* `Path.fixedStart` — the part of a pattern before its first special character;
* `Path.unescape` — a literal part of a pattern without its backslashes;
* `Path.hasWildcard` — whether a glob has a wildcard that no backslash precedes;
* `Path.directory`, `Path.fileName` — where a resource lives and what it is called there.
-/
import TypeEnforcement.Path.Component

namespace TypeEnforcement.Path

/-! ### Trailing forms -/

/-- The forms that a glob may end in. -/
inductive Trailing where
  /-- The directory itself and everything below it. -/
  | selfAndTree
  /-- The directory itself and its children. -/
  | selfAndChildren
  /-- Everything below the directory. -/
  | tree
  /-- The children of the directory. -/
  | children
deriving DecidableEq

namespace Trailing

/-- How a form is written in a glob. -/
def glob : Trailing → List Char
  | selfAndTree => ['\x7b', ',', '/', '*', '*', '\x7d']
  | selfAndChildren => ['\x7b', ',', '/', '*', '\x7d']
  | tree => ['/', '*', '*']
  | children => ['/', '*']

/-- The pattern of a form. -/
def regex : Trailing → List Char
  | selfAndTree => "(/.*)?".toList
  | selfAndChildren => "(/[^/]*)?".toList
  | tree => "/.*".toList
  | children => "/[^/]*".toList

/-- The forms in the order in which they are tried. -/
def all : List Trailing :=
  [selfAndTree, selfAndChildren, tree, children]

/-- Whether the form also covers the directory that it follows. -/
def coversSelf : Trailing → Bool
  | selfAndTree | selfAndChildren => true
  | tree | children => false

end Trailing

/-- The glob before its trailing form, and the form, if it has one. -/
def splitTrailing (path : List Char) : List Char × Option Trailing :=
  match Trailing.all.findSome? fun t => (Text.dropEnd? t.glob path).map (·, t) with
  | some (body, t) => (body, some t)
  | none => (path, none)

/-- The glob is its body and its trailing form. -/
theorem splitTrailing_append (path : List Char) :
    path = (splitTrailing path).1 ++ ((splitTrailing path).2.map Trailing.glob).getD [] := by
  rw [splitTrailing]
  split
  · rename_i body t h
    obtain ⟨u, _, hu⟩ := List.exists_of_findSome?_eq_some h
    obtain ⟨front, hf, heq⟩ := Option.map_eq_some_iff.1 hu
    obtain ⟨rfl, rfl⟩ : front = body ∧ u = t := by simpa using heq
    exact Text.dropEnd?_eq_some_iff.1 hf
  · simp

theorem wildCount_splitTrailing_le (path : List Char) :
    wildCount (splitTrailing path).1 ≤ wildCount path := by
  conv => rhs; rw [splitTrailing_append path]
  rw [wildCount, wildCount, List.countP_append]
  exact Nat.le_add_right _ _

/-! ### Patterns of globs -/

/-- The characters that are special in patterns and plain in globs. -/
def specials : List Char :=
  ['[', ']', '(', ')', '^', '+', '.']

/-- The pattern of a glob without its trailing form.  `escaped` says that an odd number of
backslashes stands before. -/
def patternBody : Bool → List Char → List Char
  | _, [] => []
  | false, '?' :: rest => '[' :: '^' :: '/' :: ']' :: patternBody false rest
  | false, '*' :: '*' :: rest => '.' :: '*' :: patternBody false rest
  | false, '*' :: rest => '[' :: '^' :: '/' :: ']' :: '*' :: patternBody false rest
  | escaped, c :: rest =>
    if c ∈ specials then '\\' :: c :: patternBody false rest
    else c :: patternBody (c == '\\' && !escaped) rest

def toPattern (path : List Char) : List Char :=
  match splitTrailing path with
  | (body, some t) => patternBody false body ++ t.regex
  | (body, none) => patternBody false body

/-! ### Literal parts of patterns -/

/-- The characters that are special in patterns, the backslash apart. -/
def metacharacters : List Char :=
  ['.', '^', '$', '?', '*', '+', '|', '[', ']', '(', ')', '\x7b', '\x7d']

/-- The part of a pattern before its first special character; escapes are kept as written. -/
def fixedStart : List Char → List Char
  | '\\' :: c :: rest => '\\' :: c :: fixedStart rest
  | '\\' :: [] => ['\\']
  | c :: rest => if c ∈ metacharacters then [] else c :: fixedStart rest
  | [] => []

/-- A literal part of a pattern without the backslashes that escape. -/
def unescape : List Char → List Char
  | '\\' :: c :: rest => c :: unescape rest
  | '\\' :: [] => []
  | c :: rest => c :: unescape rest
  | [] => []

/-- Whether a wildcard stands in a text after an even number of backslashes; `escaped` says that
an odd number stands before the text. -/
def hasWildcardFrom (escaped : Bool) : List Char → Bool
  | [] => false
  | c :: rest => (isWild c && !escaped) || hasWildcardFrom (c == '\\' && !escaped) rest

/-- Whether a glob has a wildcard that no backslash takes the meaning off. -/
def hasWildcard (path : List Char) : Bool :=
  hasWildcardFrom false path

/-! ### Where a resource lives -/

/-- The directory that a resource lives in.  A path whose trailing form also covers the directory
before it names that directory, so the parent is one level further up. -/
def directory (path : List Char) : List Char :=
  match (splitTrailing path).2 with
  | some t => if t.coversSelf then parentOf (parentOf path) else parentOf path
  | none => parentOf path

/-- The name of a resource in its directory; none if the path has a trailing form. -/
def fileName (path : List Char) : List Char :=
  match (splitTrailing path).2 with
  | some _ => []
  | none => leafOf path

end TypeEnforcement.Path
