/-
The parts that a permission must have.

* `Grant.requireParts` — refusing a permission without them.
-/
import TypeEnforcement.Project.Basic

namespace TypeEnforcement.Grant

/-- Refuse a permission without actions, or without resources where it needs some. -/
def requireParts (needsResources : Bool) (permission : Permission) : Except Fault Unit :=
  if needsResources then
    if permission.actions = [] ∨ permission.resources = [] then
      .error (.permission (.needsResourcesAndActions permission.kindWord))
    else .ok ()
  else if permission.actions = [] then .error (.permission (.needsActions permission.kindWord))
  else .ok ()

end TypeEnforcement.Grant
