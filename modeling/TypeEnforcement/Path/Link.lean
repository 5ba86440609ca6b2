/-
Linked directory trees.

Some trees are reached under a second name, by a link or by a rule of the labelling tools.  Labels
are kept for the canonical name only, so paths are folded before they are looked up or installed.

* `Path.Link` — one linked tree;
* `Path.fold` — a path with the longest linked start replaced by the tree it stands for.
-/
import TypeEnforcement.Text.Split

namespace TypeEnforcement.Path

/-- A tree that is reached under a second name. -/
structure Link where
  source : String
  target : String

def links : List Link := [
  ⟨"/run", "/var/run"⟩,
  ⟨"/run/lock", "/var/lock"⟩,
  ⟨"/run/systemd/system", "/usr/lib/systemd/system"⟩,
  ⟨"/run/systemd/generator", "/usr/lib/systemd/system"⟩,
  ⟨"/run/systemd/generator.late", "/usr/lib/systemd/system"⟩,
  ⟨"/lib", "/usr/lib"⟩,
  ⟨"/lib64", "/usr/lib"⟩,
  ⟨"/usr/lib64", "/usr/lib"⟩,
  ⟨"/usr/local/lib64", "/usr/lib"⟩,
  ⟨"/usr/local/lib32", "/usr/lib"⟩,
  ⟨"/etc/systemd/system", "/usr/lib/systemd/system"⟩,
  ⟨"/var/lib/xguest/home", "/home"⟩,
  ⟨"/var/named/chroot/usr/lib64", "/usr/lib"⟩,
  ⟨"/var/named/chroot/lib64", "/usr/lib"⟩,
  ⟨"/var/home", "/home"⟩,
  ⟨"/home/home-inst", "/home"⟩,
  ⟨"/var/roothome", "/root"⟩,
  ⟨"/sbin", "/usr/sbin"⟩,
  ⟨"/sysroot/tmp", "/tmp"⟩,
  ⟨"/bin", "/usr/bin"⟩]

/-- What follows the linked tree in a path that is the tree or lies in it. -/
def Link.rest? (link : Link) (path : List Char) : Option (List Char) :=
  (Text.dropStart? link.source.toList path).filter fun rest =>
    rest.isEmpty || rest.head? == some '/'

/-- The link with the longest source that a path starts with, and the rest of the path. -/
def bestLink (path : List Char) : Option (Link × List Char) :=
  links.foldl (fun best link =>
    match link.rest? path, best with
    | none, _ => best
    | some rest, none => some (link, rest)
    | some rest, some (_, other) =>
      if rest.length ≤ other.length then some (link, rest) else best) none

/-- The canonical form of a path. -/
def fold (path : List Char) : List Char :=
  match bestLink path with
  | some (link, rest) => link.target.toList ++ rest
  | none => path

end TypeEnforcement.Path
