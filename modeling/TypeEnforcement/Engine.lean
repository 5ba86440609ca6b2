/-
Engines: the ways in which applications can be confined.

* `Engine.all` — the engines;
* `Engine.find?` — the engine of a name, in letters of either case.
-/

namespace TypeEnforcement

/-- A way in which applications can be confined. -/
inductive Engine where
  /-- Policy modules of a type-enforcement policy. -/
  | selinux
deriving DecidableEq

namespace Engine

/-- The name of an engine on the command line. -/
def name : Engine → String
  | selinux => "selinux"

/-- What an engine does, in one line. -/
def description : Engine → String
  | selinux => "compiles projects into SELinux type-enforcement modules"

/-- The engines, in the order in which they are listed. -/
def all : List Engine :=
  [selinux]

/-- The engine of a name; the case of ASCII letters does not count. -/
def find? (text : String) : Option Engine :=
  all.find? fun engine =>
    engine.name.toList.map Char.toLower = text.toList.map Char.toLower

end Engine

end TypeEnforcement
