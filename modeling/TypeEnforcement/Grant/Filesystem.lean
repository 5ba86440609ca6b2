/-
Rules for filesystem permissions.

An action is a word for several permissions of the object classes, and which ones depends on the
class.  A word that is no action stands for the permission of its name.  Creating and removing files
needs access to the directory they live in, executing them leads into another domain, and mounting
is about file systems.

* `FileAction.permissions?` — the permissions of an action on a kind of object;
* `FileAction.permissionsOf` — the permissions of several actions;
* `Grant.filesystem` — the rules of a permission.
-/
import TypeEnforcement.Allocation
import TypeEnforcement.Grant.Parts
import TypeEnforcement.Rule.Bundle

namespace TypeEnforcement

namespace FileAction

/-- The action that is about file systems and not about files. -/
def mount : String := "mount"

/-- What changing the entries of a directory needs. -/
def directoryWrite : List String :=
  ["open", "getattr", "setattr", "write", "create", "add_name", "remove_name", "rmdir", "search"]

/-- What reading a directory needs. -/
def directoryRead : List String :=
  ["open", "getattr", "read", "search"]

/-- What mounting needs on a file system. -/
def mountPermissions : List String :=
  ["mount", "remount", "unmount", "getattr"]

/-- What reading an object of a class needs. -/
def read : FileClass → List String
  | .directory => directoryRead
  | .block | .character => ["open", "getattr", "read", "ioctl"]
  | _ => ["open", "getattr", "read"]

/-- What writing an object of a class needs. -/
def write : FileClass → List String
  | .directory => directoryWrite
  | .block | .character => ["open", "getattr", "setattr", "write", "ioctl"]
  | _ => ["open", "getattr", "setattr", "write", "create"]

/-- What removing an object of a class needs. -/
def remove : FileClass → List String
  | .directory => ["getattr", "remove_name", "rmdir"]
  | _ => ["getattr", "unlink"]

/-- What executing an object of a class needs. -/
def execute : FileClass → List String
  | .file => ["open", "read", "execute", "execute_no_trans"]
  | _ => ["execute", "open", "read", "getattr"]

/-- What searching an object of a class needs; only directories can be searched. -/
def search : FileClass → List String
  | .directory => directoryRead
  | _ => []

/-- The permissions of an action on an object of a class; none if the word is no action. -/
def permissions? (fileClass : FileClass) (action : String) : Option (List String) :=
  match action with
  | "create" => some ["open", "getattr", "setattr", "write", "create"]
  | "read" => some (read fileClass)
  | "write" => some (write fileClass)
  | "append" => some ["open", "getattr", "setattr", "write", "create", "append"]
  | "rename" | "link" => some ["getattr", "setattr", "rename", "unlink", "link"]
  | "remove" => some (remove fileClass)
  | "lock" => some ["lock"]
  | "map" => some ["map"]
  | "ioctl" => some ["ioctl"]
  | "mounton" => some ["mounton"]
  | "exec" => some (execute fileClass)
  | "search" => some (search fileClass)
  | _ => none

/-- The permissions that a list of actions stands for, in the order of the actions. -/
def permissionsOf (fileClass : FileClass) (actions : List String) : List String :=
  distinct ((actions.filter (· ≠ mount)).flatMap fun action =>
    (permissions? fileClass action).getD [action])

end FileAction

namespace Grant

/-- Rules about a file itself, one kind of object at a time, because each has permissions of its
own. -/
def fileItself (domain : String) (file : LabelledFile) (actions : List String) : List Rule :=
  file.fileClass.members.flatMap fun c =>
    let permissions := FileAction.permissionsOf c actions
    if permissions.isEmpty then [] else Bundle.fileAccess domain file.typeName c permissions

/-- Rules for changing the entries of directories of a type. -/
def directoryChange (domain directoryType : String) : List Rule :=
  Bundle.fileAccess domain directoryType .directory FileAction.directoryWrite

/-- Rules for creating a file.  A new file gets the type of its directory unless a rule names it, so
one does, if the path has a name without wildcards and the types differ. -/
def fileCreation (domain : String) (file : LabelledFile) : List Rule :=
  let name := String.ofList (Path.fileName file.path.toList)
  directoryChange domain file.parentType ++
    if file.typeName = file.parentType ∨ Path.hasWildcard file.path.toList = true ∨ name = "" then
      []
    else Bundle.namedTransition domain file.parentType file.fileClass file.typeName name

/-- The rules for actions on a file.  A file without a domain of its own is executed in
`fallback`. -/
def fileActions (fallback domain : String) (actions : List String) (file : LabelledFile) :
    List Rule :=
  fileItself domain file actions ++
  (if "exec" ∈ actions then
    Bundle.domainTransition domain file.typeName (file.domain.getD fallback) else []) ++
  (if "create" ∈ actions then fileCreation domain file else []) ++
  (if "remove" ∈ actions then directoryChange domain file.parentType else []) ++
  (if FileAction.mount ∈ actions then
    [Bundle.allow domain file.typeName "filesystem" FileAction.mountPermissions] else [])

/-- The rules for a filesystem permission of a domain. -/
def filesystem (allocation : Allocation) (fallback domain : String) (permission : Permission) :
    Except Fault (List Rule) := do
  requireParts true permission
  let files ← permission.resources.mapM fun path =>
    match allocation.file? path with
    | some file => .ok file
    | none => .error (.undefined .resource path)
  pure (files.flatMap (fileActions fallback domain permission.actions))

/-- The rules of a filesystem permission are those for the files that it names. -/
theorem exists_of_filesystem {allocation : Allocation} {fallback domain : String}
    {permission : Permission} {rules : List Rule}
    (h : filesystem allocation fallback domain permission = .ok rules) :
    ∃ files : List LabelledFile,
      rules = files.flatMap (fileActions fallback domain permission.actions) ∧
      (∀ path ∈ permission.resources, ∃ file ∈ files, allocation.file? path = some file) ∧
      ∀ file ∈ files, ∃ path ∈ permission.resources, allocation.file? path = some file := by
  -- What is read for a path is the file that the allocation has under it.
  have hfound {path : String} {file : LabelledFile}
      (hfile : (match allocation.file? path with
        | some file => Except.ok file
        | none => Except.error (.undefined .resource path)) = Except.ok (ε := Fault) file) :
      allocation.file? path = some file := by
    split at hfile
    · rwa [← Except.ok.inj hfile]
    · cases hfile
  rw [filesystem, bind_eq_ok_iff] at h
  obtain ⟨_, -, h⟩ := h
  rw [bind_eq_ok_iff] at h
  obtain ⟨files, hfiles, h⟩ := h
  refine ⟨files, (Except.ok.inj h).symm, fun path hpath => ?_, fun file hfile => ?_⟩
  · obtain ⟨file, hfile, heq⟩ := exists_of_mapM_eq_ok hfiles path hpath
    exact ⟨file, hfile, hfound heq⟩
  · obtain ⟨path, hpath, heq⟩ := exists_item_of_mapM_eq_ok hfiles file hfile
    exact ⟨path, hpath, hfound heq⟩

end Grant

end TypeEnforcement
