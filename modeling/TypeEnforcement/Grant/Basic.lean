/-
The rules that permissions of a project stand for.

* `Grant.Context` — what the rules depend on;
* `Grant.ofPermission` — the rules of one permission, by its kind.
-/
import TypeEnforcement.Grant.Capability
import TypeEnforcement.Grant.Filesystem
import TypeEnforcement.Grant.Network

namespace TypeEnforcement.Grant

/-- What the rules of permissions depend on, apart from the permissions. -/
structure Context where
  /-- The labels and domains of the project. -/
  allocation : Allocation
  /-- The policy of the host. -/
  policy : SystemPolicy
  /-- The domain that executables without one lead into. -/
  fallbackDomain : String

/-- The rules for a permission of an application; reports are made under `origin`.  A permission of
an unknown kind is reported and has no rules. -/
def ofPermission (context : Context) (origin : String) (app : ConfinedApplication)
    (permission : Permission) : Report (List Rule) :=
  match PermissionKind.ofKeyword? permission.kindWord with
  | some .filesystem =>
    Report.ofExcept (filesystem context.allocation context.fallbackDomain app.domain permission)
  | some .capability => Report.ofExcept (capability app.domain permission)
  | some .network => network context.policy origin app.domain permission
  | none => do
    Report.note .warning origin ("skipping unsupported permission type " ++
      Text.quoted permission.kindWord ++ " of " ++ app.path)
    pure []

end TypeEnforcement.Grant
