/-
Rules that every domain gets.

* `Grant.base` — the terminal and the directories on the way to files;
* `Grant.entry` — the way into a domain;
* `Grant.unconfined` — the grants of a domain that is not confined;
* `Grant.unconfinedAttributes` — the attributes that such a domain has.
-/
import TypeEnforcement.Rule.Bundle

namespace TypeEnforcement.Grant

def domainAttribute : String := "domain"

/-- The attribute of every type of ordinary files. -/
def fileAttribute : String := "file_type"

/-- The attributes that exempt a domain from confinement. -/
def unconfinedAttributes : List String := [
  "corenet_unconfined_type", "dbusd_unconfined", "devices_unconfined_type",
  "files_unconfined_type", "filesystem_unconfined_type", "kern_unconfined",
  "selinux_unconfined_type", "sepgsql_unconfined_type", "storage_unconfined_type",
  "unconfined_domain_type", "unconfined_usertype", "xserver_unconfined_type"]

/-- Access to the terminal, and to the directories on the way to files. -/
def base (domain : String) : List Rule := [
  Bundle.allow domain "user_devpts_t" "chr_file" ["append", "read", "write", "getattr", "ioctl"],
  Bundle.allow domain fileAttribute "dir" ["search", "getattr"]]

/-- Whoever executes a file of the type `entryType` ends up in the domain. -/
def entry (domain entryType : String) : List Rule :=
  Bundle.domainTransition domainAttribute entryType domain

/-- Every capability and every control over processes. -/
def unconfined (domain : String) (hasSecondClass : Bool) : List Rule :=
  Bundle.everyCapability domain hasSecondClass ++ Bundle.everyProcess domain

end TypeEnforcement.Grant
