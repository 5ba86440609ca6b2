/-
A machine in memory: a tree of files, and tools that change it.

* `FileTree` — directories and files by their paths;
* `FileTree.machine` — the machine of a tree, given what its tools do.
-/
import TypeEnforcement.Machine.Basic
import TypeEnforcement.Text.Split

namespace TypeEnforcement

/-- What may lie at a path. -/
inductive FileNode where
  | directory
  | file (content : ByteArray) (executable : Bool)

/-- A tree of files.  Paths are lists of components from the root, whose node needs no entry. -/
structure FileTree where
  nodes : List (List String × FileNode) := []
  /-- The directory that relative paths start from. -/
  workingDirectory : List String := []

namespace FileTree

/-- The components of a path from the root. -/
def resolve (tree : FileTree) (path : String) : List String :=
  let start := if path.toList.head? = some '/' then [] else tree.workingDirectory
  (Text.split '/' path).foldl (fun components name =>
    if name = "" ∨ name = "." then components
    else if name = ".." then components.dropLast
    else components ++ [name]) start

/-- The node at components from the root. -/
def nodeAt (tree : FileTree) (components : List String) : Option FileNode :=
  if components = [] then some .directory else tree.nodes.lookup components

/-- The node at a path.  A path that ends in a slash is that of a directory, and there is nothing at
the empty path. -/
def node? (tree : FileTree) (path : String) : Option FileNode :=
  if path = "" then none
  else match tree.nodeAt (tree.resolve path) with
    | some (.file content executable) =>
      if path.toList.getLast? = some '/' then none else some (.file content executable)
    | found => found

/-- Whether a file stands where the path of some components needs a directory. -/
def isBlocked (tree : FileTree) (components : List String) : Bool :=
  (List.range components.length).any fun count =>
    match tree.nodeAt (components.take (count + 1)) with
    | some (.file _ _) => true
    | _ => false

/-- The names inside a directory. -/
def namesIn (tree : FileTree) (components : List String) : List String :=
  tree.nodes.filterMap fun (path, _) =>
    if path.dropLast = components then path.getLast? else none

def put (tree : FileTree) (components : List String) (node : FileNode) : FileTree :=
  { tree with nodes := tree.nodes.filter (·.1 ≠ components) ++ [(components, node)] }

def content? (tree : FileTree) (path : String) : Option ByteArray :=
  match tree.node? path with
  | some (.file content _) => some content
  | _ => none

/-- The names inside the directory at a path. -/
def list (tree : FileTree) (path : String) : DirectoryListing :=
  match tree.node? path with
  | some .directory => .entries (tree.namesIn (tree.resolve path))
  | some (.file _ _) => .unreadable
  | none => if tree.isBlocked (tree.resolve path) then .unreadable else .missing

/-- Whether a directory lies at a path. -/
def isDirectory (tree : FileTree) (path : String) : Bool :=
  match tree.node? path with
  | some .directory => true
  | _ => false

/-- Whether a file lies at a path. -/
def isFile (tree : FileTree) (path : String) : Bool :=
  match tree.node? path with
  | some (.file _ _) => true
  | _ => false

/-- The tree with the directory of some components and those that it lies in. -/
def addDirectories (tree : FileTree) (components : List String) : FileTree :=
  (List.range components.length).foldl (fun tree count =>
    let path := components.take (count + 1)
    if (tree.nodeAt path).isSome then tree else tree.put path .directory) tree

/-- The tree with a file at a path, and the directories that it lies in. -/
def addFile (tree : FileTree) (path : String) (content : ByteArray) (executable : Bool) :
    FileTree :=
  let components := tree.resolve path
  (tree.addDirectories components.dropLast).put components (.file content executable)

/-- The files below the directory at a path, with their contents, and the empty directories, by
their paths from there.  An empty directory has itself for its only leaf. -/
def leavesBelow (tree : FileTree) (path : String) : List (String × Option ByteArray) :=
  let base := tree.resolve path
  tree.nodes.filterMap fun (components, node) =>
    let name := "/".intercalate (components.drop base.length)
    if !base.isPrefixOf components then none
    else match node with
      | .file content _ => if components = base then none else some (name, some content)
      | .directory => if tree.namesIn components = [] then some (name, none) else none

/-- The tree with a directory at a path, and those that it lies in, unless a file is in the way. -/
def createDirectories (tree : FileTree) (path : String) : Option FileTree :=
  let components := tree.resolve path
  if tree.isBlocked components then none else some (tree.addDirectories components)

/-- The tree with a content for the file at a path, if its directory is there and no directory is in
the way. -/
def writeFile (tree : FileTree) (path : String) (content : ByteArray) : Option FileTree :=
  let components := tree.resolve path
  if path = "" ∨ path.toList.getLast? = some '/' then none
  else match tree.nodeAt components.dropLast, tree.nodeAt components with
    | some .directory, none => some (tree.put components (.file content false))
    | some .directory, some (.file _ executable) =>
      some (tree.put components (.file content executable))
    | _, _ => none

/-- The tree without the directory at a path and everything in it. -/
def removeTree (tree : FileTree) (path : String) : FileTree :=
  let components := tree.resolve path
  if tree.isDirectory path then
    { tree with nodes := tree.nodes.filter fun entry => !components.isPrefixOf entry.1 }
  else tree

/-- What a tool does when it is run with some arguments: its result and the tree that it leaves, if
it can be started. -/
abbrev Tools := String → List String → FileTree → Option (ToolResult × FileTree)

def machine (tools : Tools) : Machine (StateM FileTree) where
  readFile path := return (← get).content? path
  listDirectory path := return (← get).list path
  isDirectory path := return (← get).isDirectory path
  isFile path := return (← get).isFile path
  pathExists path := return ((← get).node? path).isSome
  createDirectories path := do
    match (← get).createDirectories path with
    | some tree => set tree; pure true
    | none => pure false
  writeFile path content := do
    match (← get).writeFile path content.toUTF8 with
    | some tree => set tree; pure true
    | none => pure false
  removeTree path := modify (·.removeTree path)
  runTool program arguments := do
    match tools program arguments (← get) with
    | some (result, tree) => set tree; pure (some result)
    | none => pure none

end FileTree

end TypeEnforcement
