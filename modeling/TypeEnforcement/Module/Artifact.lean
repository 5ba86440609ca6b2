/-
The files that accompany the source of a module.

* `PolicyModule.configText` — the name of the module and its types, as shell variables;
* `PolicyModule.relabelScript` — a script that relabels what the file contexts of the module cover;
* `Project.relabelList` — the paths of a project, for relabelling tools.
-/
import TypeEnforcement.Module.Basic
import TypeEnforcement.Names.Distinct
import TypeEnforcement.Path.Resource
import TypeEnforcement.Project.Basic

namespace TypeEnforcement

namespace PolicyModule

/-- The name of a module and the types that it defines, as shell variables. -/
def configText (m : PolicyModule) : String :=
  "MODULE=" ++ m.name ++ "\nTYPES=\"" ++ "|".intercalate m.definedTypes ++ "\"\n"

/-- The path under which everything lies that an entry covers. -/
def relabelScope (entry : FileContext) : String :=
  String.ofList (Path.unescape entry.literalStart)

/-- The paths under which everything lies that the file contexts of a module cover. -/
def relabelScopes (m : PolicyModule) : NameSet :=
  .ofList ((m.fileContexts.map relabelScope).filter (· ≠ ""))

/-- A script that relabels what the file contexts of a module cover. -/
def relabelScript (m : PolicyModule) : String :=
  "#!/bin/sh\n" ++
    String.join (m.relabelScopes.toList.map fun scope => "restorecon -iR '" ++ scope ++ "'\n")

end PolicyModule

/-- The paths that a relabelling tool is given for a resource. -/
def Resource.relabelled (resource : Resource) : List String :=
  let isDirectory := (FileClass.ofKeyword? resource.classWord).any (·.1 = .directory)
  (Path.relabelled resource.path.toList isDirectory).map String.ofList

/-- The paths that a relabelling tool is given for a project, each once. -/
def Project.relabelList (project : Project) : List String :=
  distinct (project.resources.flatMap Resource.relabelled)

end TypeEnforcement
