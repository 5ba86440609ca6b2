/-
Rules that are always needed together.

* `Bundle.fileAccess` — accesses to files of a type, for every kind of object of a class;
* `Bundle.namedTransition` — the type of new files with a name;
* `Bundle.domainTransition` — a process that enters a domain by executing a file;
* `Bundle.privateType` — what a type needs that only its own applications may use;
* `Bundle.everyCapability`, `Bundle.everyProcess` — the grants of unconfined applications.
-/
import TypeEnforcement.Label.FileClass
import TypeEnforcement.Rule.Basic

namespace TypeEnforcement.Bundle

/-- What a domain needs on the executable that it is entered by. -/
def entryPermissions : List String :=
  ["entrypoint", "execute", "getattr", "open", "read", "map"]

/-- What a process needs on a file to execute it. -/
def executePermissions : List String :=
  ["execute", "getattr", "open", "read", "map"]

/-- What the labelling tools need on a file of a private type. -/
def relabelPermissions : List String :=
  ["getattr", "relabelto", "relabelfrom"]

def allow (subject object className : String) (permissions : List String) : Rule :=
  .access (.allow subject object className permissions)

/-- Allow accesses to the files of a type, one rule for each kind of object. -/
def fileAccess (subject object : String) (fileClass : FileClass) (permissions : List String) :
    List Rule :=
  fileClass.kernelClasses.map fun c => allow subject object c permissions

/-- Give new files with a name in directories of a type their own type, one rule for each kind of
object. -/
def namedTransition (subject parent : String) (fileClass : FileClass) (target name : String) :
    List Rule :=
  fileClass.kernelClasses.map fun c =>
    .transition (.make subject parent c target (some name))

/-- Let a subject that executes a file of the type `entry` end up in the domain `target`. -/
def domainTransition (subject entry target : String) : List Rule := [
  .transition (.make subject entry "process" target none),
  allow target entry "file" entryPermissions,
  allow subject entry "file" executePermissions,
  allow target entry "process" ["sigchld"],
  allow subject target "process" ["rlimitinh", "siginh", "transition"]]

/-- Let the labelling tools handle files of a private type, and the type live on a file system. -/
def privateType (fileType : String) (fileClass : FileClass) : List Rule :=
  fileClass.kernelClasses.flatMap (fun c => [
    allow "unconfined_t" fileType c relabelPermissions,
    allow "restorecond_t" fileType c relabelPermissions]) ++
  [allow fileType "fs_t" "filesystem" ["associate"]]

/-- Every capability, of the second class too if the policy has it. -/
def everyCapability (domain : String) (hasSecondClass : Bool) : List Rule :=
  allow domain domain "capability" ["*"] ::
    if hasSecondClass then [allow domain domain "capability2" ["*"]] else []

/-- Every control over the processes of every domain. -/
def everyProcess (domain : String) : List Rule :=
  [allow domain "domain" "process" ["*"]]

end TypeEnforcement.Bundle
