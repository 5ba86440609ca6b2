/-
Classes of file objects.

A class is a kind of file system object, or any of them.  The policy language, the file-context
files and the projects each have their own words for the classes.

* `FileClass` — the classes;
* `FileClass.concrete` — the kinds of objects, in the order in which rules list them;
* `FileClass.kernelClasses` — the object classes of the policy language that a class stands for;
* `FileClass.Compatible` — whether an entry for one class may answer a question about another.
-/

namespace TypeEnforcement

/-- The class of a file object. -/
inductive FileClass where
  /-- Any kind of object. -/
  | any
  | block
  | character
  | directory
  | fifo
  | link
  | socket
  /-- A regular file. -/
  | file
deriving DecidableEq, Repr

namespace FileClass

/-- The kinds of objects, in the order in which rules list them. -/
def concrete : List FileClass :=
  [file, character, block, directory, fifo, link, socket]

/-- The class that a project names with a word, and whether the word names an executable. -/
def ofKeyword? : String → Option (FileClass × Bool)
  | "file" => some (file, false)
  | "exec_file" => some (file, true)
  | "sock_file" => some (socket, false)
  | "lnk_file" => some (link, false)
  | "fifo_file" => some (fifo, false)
  | "chr_file" => some (character, false)
  | "blk_file" => some (block, false)
  | "dir" => some (directory, false)
  | "all" | "" => some (any, false)
  | _ => none

/-- The sign of a class in file-context files; any class has none. -/
def sign : FileClass → String
  | any => ""
  | block => "-b"
  | character => "-c"
  | directory => "-d"
  | fifo => "-p"
  | link => "-l"
  | socket => "-s"
  | file => "--"

def ofSign? : String → Option FileClass
  | "--" => some file
  | "-d" => some directory
  | "-c" => some character
  | "-b" => some block
  | "-p" => some fifo
  | "-l" => some link
  | "-s" => some socket
  | _ => none

/-- The object class of the policy language for one kind of object; any class has none. -/
def kernelClass : FileClass → String
  | any => ""
  | block => "blk_file"
  | character => "chr_file"
  | directory => "dir"
  | fifo => "fifo_file"
  | link => "lnk_file"
  | socket => "sock_file"
  | file => "file"

/-- The kinds of objects that a class stands for. -/
def members : FileClass → List FileClass
  | any => concrete
  | c => [c]

/-- The object classes of the policy language that a class stands for. -/
def kernelClasses (c : FileClass) : List String :=
  c.members.map kernelClass

/-- What a class adds to a synthesised type name. -/
def nameSuffix : FileClass → String
  | any => ""
  | block => "_blk"
  | character => "_chr"
  | directory => "_dir"
  | fifo => "_fifo"
  | link => "_lnk"
  | socket => "_sock"
  | file => "_file"

/-- Two classes are compatible if one is any class or both are the same. -/
def Compatible (a b : FileClass) : Prop :=
  a = any ∨ b = any ∨ a = b

instance (a b : FileClass) : Decidable (a.Compatible b) :=
  inferInstanceAs (Decidable (_ ∨ _ ∨ _))

theorem Compatible.symm {a b : FileClass} (h : a.Compatible b) : b.Compatible a := by
  rcases h with h | h | h
  · exact .inr (.inl h)
  · exact .inl h
  · exact .inr (.inr h.symm)

theorem ofSign?_sign {c : FileClass} (h : c ≠ any) : ofSign? c.sign = some c := by
  cases c with
  | any => exact absurd rfl h
  | _ => rfl

end FileClass

end TypeEnforcement
