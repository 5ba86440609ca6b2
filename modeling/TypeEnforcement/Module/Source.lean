/-
The source texts of policy modules.

Names are written in increasing order, rules and file contexts in the order in which they were
added.

* `PolicyModule.typeEnforcement` — the rules, definitions and requirements;
* `PolicyModule.fileContextText` — the file contexts.
-/
import TypeEnforcement.Module.Basic

namespace TypeEnforcement.PolicyModule

/-- The statements that require the names of a module. -/
def requirementLines (required : Requirements) : List String :=
  required.roles.toList.map (fun role => "\trole " ++ role ++ ";\n") ++
  required.types.toList.map (fun name => "\ttype " ++ name ++ ";\n") ++
  required.attributes.toList.map (fun name => "\tattribute " ++ name ++ ";\n") ++
  (required.classes.entries.filter fun entry => !entry.2.isEmpty).map fun (name, permissions) =>
    "\tclass " ++ name ++ " \x7b " ++ " ".intercalate permissions.toList ++ " \x7d;\n"

/-- The statements that define the names of a module. -/
def definitionLines (defined : Definitions) : List String :=
  (defined.roles.entries.flatMap fun (role, types) =>
    types.toList.map fun name => "role " ++ role ++ " types " ++ name ++ ";\n") ++
  defined.types.entries.map fun (name, attributes) =>
    "type " ++ ", ".intercalate (name :: attributes.toList) ++ ";\n"

def typeEnforcement (m : PolicyModule) : String :=
  "module " ++ m.name ++ " " ++ m.version ++ ";\n\n" ++
  "require\n\x7b\n" ++ String.join (requirementLines m.requirements) ++ "\x7d;\n\n" ++
  String.join (definitionLines m.definitions) ++ "\n" ++
  String.join (m.permissive.map fun domain => "permissive " ++ domain ++ ";\n") ++ "\n" ++
  String.join (m.accessRules.map AccessRule.text) ++ "\n" ++
  String.join (m.transitionRules.map TransitionRule.text) ++ "\n"

def fileContextText (m : PolicyModule) : String :=
  String.join (m.fileContexts.map FileContext.line)

end TypeEnforcement.PolicyModule
