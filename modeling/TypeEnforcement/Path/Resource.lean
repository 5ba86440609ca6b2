/-
What is derived from the path of a declared resource.

* `Path.labelPattern` — the pattern that labels the resource;
* `Path.relabelled` — the paths that a relabelling tool is given for it.
-/
import TypeEnforcement.Path.Glob
import TypeEnforcement.Path.Link

namespace TypeEnforcement.Path

/-- The text with every occurrence of `old` replaced; the first `skip` characters are dropped, as
they belong to an occurrence that was replaced. -/
def replaceFrom (old new : List Char) : Nat → List Char → List Char
  | _, [] => []
  | skip + 1, _ :: rest => replaceFrom old new skip rest
  | 0, c :: rest =>
    if old.isPrefixOf (c :: rest) then new ++ replaceFrom old new (old.length - 1) rest
    else c :: replaceFrom old new 0 rest

/-- The text with every occurrence of `old` replaced, from left to right. -/
def replaceAll (old new text : List Char) : List Char :=
  replaceFrom old new 0 text

/-- Whether `part` occurs in a text. -/
def occursIn (part : List Char) : List Char → Bool
  | [] => part.isEmpty
  | c :: rest => part.isPrefixOf (c :: rest) || occursIn part rest

/-- The pattern that labels a resource: that of its folded path. -/
def labelPattern (path : List Char) : List Char :=
  toPattern (fold path)

/-- The paths that a relabelling tool is given for a resource.  A tree is given by its children; a
form that covers the directory itself gives two paths, and so does a directory. -/
def relabelled (path : List Char) (isDir : Bool) : List (List Char) :=
  let folded := replaceAll Trailing.tree.glob Trailing.children.glob (fold path)
  let both := Trailing.selfAndChildren.glob
  let (first, second) :=
    if occursIn both folded then
      (replaceAll both [] folded, some (replaceAll both Trailing.children.glob folded))
    else if isDir then (folded, some (dropSlashes folded ++ Trailing.children.glob))
    else (folded, none)
  match second with
  | none => [first]
  | some other => if first = other then [first] else [first, other]

end TypeEnforcement.Path
