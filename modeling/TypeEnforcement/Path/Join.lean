/-
Paths of files on the machine that runs the program.

* `Path.join` — a path inside a directory.
-/

namespace TypeEnforcement.Path

/-- Whether a path begins at the root. -/
def isAbsolute (path : String) : Bool :=
  path.toList.head? = some '/'

/-- The path that a name has inside a directory; an absolute path stays what it is. -/
def join (directory name : String) : String :=
  if isAbsolute name || directory = "" then name
  else if directory.toList.getLast? = some '/' then directory ++ name
  else directory ++ "/" ++ name

/-- A path inside nested directories. -/
def joinAll (directory : String) (names : List String) : String :=
  names.foldl join directory

end TypeEnforcement.Path
