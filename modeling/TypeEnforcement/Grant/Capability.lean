/-
Rules for capabilities.

The policy language spreads the capabilities over two object classes, by their numbers.

* `Capability.classOf` — the class that a capability belongs to;
* `Grant.capability` — the rules of a permission.
-/
import TypeEnforcement.Grant.Parts
import TypeEnforcement.Names.Distinct
import TypeEnforcement.Rule.Bundle

namespace TypeEnforcement

namespace Capability

/-- The capabilities that a project may ask for. -/
def all : List String := [
  "audit_control", "audit_read", "audit_write", "block_suspend", "bpf", "checkpoint_restore",
  "chown", "dac_override", "dac_read_search", "fowner", "fsetid", "ipc_lock", "ipc_owner", "kill",
  "lease", "linux_immutable", "mac_admin", "mac_override", "mknod", "net_admin",
  "net_bind_service", "net_broadcast", "net_raw", "perfmon", "setgid", "setfcap", "setpcap",
  "setuid", "sys_admin", "sys_boot", "sys_chroot", "sys_module", "sys_nice", "sys_pacct",
  "sys_ptrace", "sys_rawio", "sys_resource", "sys_time", "sys_tty_config", "syslog", "wake_alarm"]

/-- The capabilities with a number above 31. -/
def second : List String := [
  "mac_override", "mac_admin", "syslog", "wake_alarm", "block_suspend", "audit_read", "perfmon",
  "bpf", "checkpoint_restore"]

/-- The object class that a capability belongs to. -/
def classOf (name : String) : String :=
  if name ∈ second then "capability2" else "capability"

def check (name : String) : Except Fault Unit :=
  if name ∈ all then .ok () else .error (.permission (.capability name))

end Capability

namespace Grant

/-- The rules for a capability permission of a domain.  A process may also set its capabilities and
ask for them. -/
def capability (domain : String) (permission : Permission) : Except Fault (List Rule) := do
  requireParts false permission
  permission.actions.forM Capability.check
  let rulesOf (className : String) : List Rule :=
    let names := (distinct permission.actions).filter (Capability.classOf · = className)
    if names.isEmpty then [] else [Bundle.allow domain domain className names]
  pure (rulesOf "capability" ++ rulesOf "capability2" ++
    [Bundle.allow domain domain "process" ["setcap", "getcap"]])

end Grant

end TypeEnforcement
