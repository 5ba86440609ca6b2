/-
Which file a named transition is for.

A transition with a name gives a file its type when the file is made under that name in a directory
of a certain type.  The name is the last component of the declared path, and the type is that of the
folded directory of the declared path, while the label of the file is installed for the folded path.
These belong to one file unless the path is the root of a linked tree: such a root is named in the
directory above the link and labelled where the link leads to.

* `Path.EndsIn` — paths in which one slash separates the last component from the rest.

Main statements:
* `EndsIn.join_parentOf` — the path of the name in the directory of a path is the path;
* `EndsIn.join_fold_parentOf_iff` — when the name in the folded directory is the folded path;
* `named_files` — so for which files the rules for creating them name the file that is labelled;
* `runRoot_not_named` — a root of a linked tree, and other paths, whose names are for other files.
-/
import TypeEnforcement.Proofs.FoldedParents
import TypeEnforcement.Proofs.ReadBack

namespace TypeEnforcement

/-! ### Names in directories -/

namespace Path

variable {path front leaf : List Char}

/-- The path is a text, one slash and a last component. -/
structure EndsIn (path front leaf : List Char) : Prop where
  path_eq : path = front ++ '/' :: leaf
  nonempty : leaf ≠ []
  noSlash : '/' ∉ leaf
  single : dropSlashes front = front

instance (path front leaf : List Char) : Decidable (EndsIn path front leaf) :=
  decidable_of_iff (path = front ++ '/' :: leaf ∧ leaf ≠ [] ∧ '/' ∉ leaf ∧
    dropSlashes front = front)
    ⟨fun ⟨path_eq, nonempty, noSlash, single⟩ => { path_eq, nonempty, noSlash, single },
      fun h => ⟨h.path_eq, h.nonempty, h.noSlash, h.single⟩⟩

theorem isAbsolute_ofList (hname : '/' ∉ leaf) : isAbsolute (String.ofList leaf) = false := by
  simpa [isAbsolute] using fun hslash => hname (List.mem_of_mem_head? hslash)

/-- A name inside the root. -/
theorem toList_join_root (hname : '/' ∉ leaf) :
    (join (String.ofList ['/']) (String.ofList leaf)).toList = '/' :: leaf := by
  have hempty : String.ofList ['/'] ≠ "" := by decide
  have hlast : (String.ofList ['/']).toList.getLast? = some '/' := by decide
  rw [join, isAbsolute_ofList hname, if_neg (by simp [hempty]), if_pos hlast, String.toList_append,
    String.toList_ofList, String.toList_ofList, List.singleton_append]

/-- A name inside a directory that has no slash at its end. -/
theorem toList_join (hdirectory : front ≠ []) (htrimmed : dropSlashes front = front)
    (hname : '/' ∉ leaf) :
    (join (String.ofList front) (String.ofList leaf)).toList = front ++ '/' :: leaf := by
  have hempty : String.ofList front ≠ "" := by
    simpa [← String.toList_inj] using hdirectory
  have hlast : (String.ofList front).toList.getLast? ≠ some '/' := by
    rw [String.toList_ofList, List.getLast?_eq_some_getLast hdirectory]
    simpa using List.rdropWhile_eq_self_iff.1 htrimmed hdirectory
  have hslash : "/".toList = ['/'] := rfl
  rw [join, isAbsolute_ofList hname, if_neg (by simp [hempty]), if_neg hlast, String.toList_append,
    String.toList_append, hslash, String.toList_ofList, String.toList_ofList, List.append_assoc,
    List.singleton_append]

namespace EndsIn

theorem dropSlashes_path (h : EndsIn path front leaf) : dropSlashes path = path := by
  rw [h.path_eq]
  exact dropSlashes_append_cons front h.nonempty h.noSlash

theorem parentOf_path (h : EndsIn path front leaf) :
    parentOf path = if front = [] then ['/'] else front := by
  have hpath : path ≠ [] := by
    rw [h.path_eq]
    exact List.append_ne_nil_of_right_ne_nil _ (List.cons_ne_nil _ _)
  unfold parentOf
  simp only [h.dropSlashes_path, if_neg hpath]
  rw [h.path_eq, Text.splitLast_append_cons front h.noSlash]
  simp only [h.single]

theorem leafOf_path (h : EndsIn path front leaf) : leafOf path = leaf := by
  rw [h.path_eq]
  exact leafOf_append_cons front h.nonempty h.noSlash

/-- The path of the name in the directory of a path is the path. -/
theorem join_parentOf (h : EndsIn path front leaf) :
    (join (String.ofList (parentOf path)) (String.ofList leaf)).toList = path := by
  rw [h.parentOf_path]
  split
  · rename_i hroot
    rw [toList_join_root h.noSlash, h.path_eq, hroot, List.nil_append]
  · rename_i hfront
    rw [toList_join hfront h.single h.noSlash, h.path_eq]

/-- Below the root of a linked tree, the name in the folded directory of a path makes the folded
path. -/
theorem join_fold_parentOf_of_isBest (h : EndsIn path front leaf) {link : Link} {rest : List Char}
    (hbest : link.IsBest links path rest) (hinside : dropSlashes rest ≠ []) :
    (join (String.ofList (fold (parentOf path))) (String.ofList leaf)).toList = fold path := by
  obtain ⟨hpath, -⟩ := Link.rest?_eq_some_iff.1 hbest.applies
  obtain ⟨hsource, htarget⟩ := isTree_of_mem_links hbest.mem
  obtain ⟨up, hup, -⟩ := isBest_parentOf hbest hinside
  obtain ⟨hparent, -⟩ := Link.rest?_eq_some_iff.1 hup.applies
  have hfront : parentOf path = front := by
    rw [h.parentOf_path]
    refine if_neg fun hnil => ?_
    have happlies := hup.applies
    rw [h.parentOf_path, if_pos hnil, (rest?_start_eq_none link hbest.mem).1] at happlies
    cases happlies
  -- The front of the path is the source and something that follows it, so the same follows the
  -- target in the folded path.
  have hfrontSource : front = link.source.toList ++ up := hfront.symm.trans hparent
  have hrest : rest = up ++ '/' :: leaf := by
    have hsame := hpath.symm.trans h.path_eq
    rw [hfrontSource, List.append_assoc] at hsame
    exact List.append_cancel_left hsame
  have hup' : dropSlashes up = up := by
    have hsingle := h.single
    rw [hfrontSource, hsource.dropSlashes_append] at hsingle
    exact List.append_cancel_left hsingle
  rw [fold_of_isBest hup, fold_of_isBest hbest, toList_join
    (List.append_ne_nil_of_left_ne_nil htarget.nonempty _)
    (by rw [htarget.dropSlashes_append, hup']) h.noSlash, hrest, List.append_assoc]

/-- The path of the name in the folded directory of a path is the folded path, just if the path is
not the root of a linked tree. -/
theorem join_fold_parentOf_iff (h : EndsIn path front leaf) :
    (join (String.ofList (fold (parentOf path))) (String.ofList leaf)).toList = fold path ↔
      ∀ link ∈ links, path ≠ link.source.toList := by
  have hcases := link_cases path
  rw [h.dropSlashes_path] at hcases
  obtain ⟨link, rest, hbest, -, hsource⟩ | ⟨hno, hinside⟩ := hcases
  · -- No target of a link has the name of the source, in the folded directory of the source.
    have hlinks : ∀ link ∈ links, (join (String.ofList (fold (parentOf link.source.toList)))
        (String.ofList (leafOf link.source.toList))).toList ≠ link.target.toList := by
      decide +kernel
    have hrest : rest = [] := by
      obtain ⟨hpath, -⟩ := Link.rest?_eq_some_iff.1 hbest.applies
      rw [hsource] at hpath
      exact List.append_cancel_left (hpath.symm.trans (List.append_nil _).symm)
    refine iff_of_false ?_ fun hno => hno link hbest.mem hsource
    rw [fold_of_isBest hbest, hrest, List.append_nil, ← h.leafOf_path, hsource]
    exact hlinks link hbest.mem
  · refine iff_of_true ?_ hno
    obtain ⟨link, rest, hbest, hrest⟩ | hnone := hinside
    · exact h.join_fold_parentOf_of_isBest hbest hrest
    · rw [fold_of_forall_none (rest?_parentOf_eq_none hnone), fold_of_forall_none hnone]
      exact h.join_parentOf

end EndsIn

/-- A path without wildcards lies in its parent, under its last component. -/
theorem IsLiteral.directory_eq (h : IsLiteral path) : directory path = parentOf path := by
  rw [directory, splitTrailing_of_not_wild h.not_wild]

theorem IsLiteral.fileName_eq (h : IsLiteral path) : fileName path = leafOf path := by
  rw [fileName, splitTrailing_of_not_wild h.not_wild]

end Path

/-! ### Named transitions -/

namespace Grant

/-- A name in the rules for creating a file is the last component of its path. -/
theorem eq_fileName_of_mem {domain name : String} {file : LabelledFile} {rule : TransitionRule}
    (h : .transition rule ∈ fileCreation domain file) (hname : name ∈ rule.name) :
    name = String.ofList (Path.fileName file.path.toList) := by
  obtain ⟨c, -, rfl⟩ := exists_of_transition_mem_fileCreation h
  exact (Option.mem_some_iff.1 (Rule.mem_name_make.1 hname).1).symm

/-- A file without wildcards in its path, and with another type than its directory, is created under
its name. -/
theorem exists_transition_mem_fileCreation (domain : String) (file : LabelledFile) (c : FileClass)
    (hc : c ∈ file.fileClass.members) (htype : file.typeName ≠ file.parentType)
    (hplain : Path.hasWildcard file.path.toList = false)
    (hname : Path.fileName file.path.toList ≠ []) :
    ∃ rule, .transition rule ∈ fileCreation domain file ∧
      String.ofList (Path.fileName file.path.toList) ∈ rule.name := by
  have hnonempty : String.ofList (Path.fileName file.path.toList) ≠ "" := by
    simpa [← String.toList_inj] using hname
  have hnamed : ¬(file.typeName = file.parentType ∨ Path.hasWildcard file.path.toList = true ∨
      String.ofList (Path.fileName file.path.toList) = "") := by
    simp [htype, hplain, hnonempty]
  refine ⟨.make domain file.parentType c.kernelClass file.typeName
    (some (String.ofList (Path.fileName file.path.toList))), ?_,
    Rule.mem_name_make.2 ⟨Option.mem_some_self _, hnonempty⟩⟩
  refine List.mem_append_right _ ?_
  rw [if_neg hnamed]
  exact List.mem_map_of_mem (List.mem_map_of_mem hc)

end Grant

namespace Allocation

open LabelledFile (lookupPath parentPath)
open TypeEnforcement.Path (EndsIn IsLiteral directory join links)

/-- Take any file of an allocation whose path has no character with a meaning and one slash before
its last component, and any name in the rules for creating the file.  The name is this component,
and the pattern of the file matches the folded path of the name in the directory of the file, and
nothing else.  That is the path of the name in the folded directory just if the file is not the root
of a linked tree. -/
theorem named_files {project : Project} {catalog last : Catalog} {own : List Installed}
    {allocation : Allocation} (h : make project catalog own = .ok (allocation, last)) :
    ∀ file ∈ allocation.files, IsLiteral file.path.toList →
      ∀ front leaf, EndsIn file.path.toList front leaf →
      ∀ domain rule name, .transition rule ∈ Grant.fileCreation domain file → name ∈ rule.name →
        name = String.ofList leaf ∧ ∃ p, Pattern.compile file.pattern = some p ∧
          (∀ text : String, p.search text.toList = true ↔
            text = lookupPath (join (String.ofList (directory file.path.toList)) name)) ∧
          (p.search (join (parentPath file.path) name).toList = true ↔
            ∀ link ∈ links, file.path ≠ link.source) := by
  intro file hfile hliteral front leaf hends domain rule name hrule hname
  obtain ⟨resource, -, hdescribes⟩ := exists_of_forall₂_of_mem_right (describes_make h) hfile
  have hleaf : name = String.ofList leaf := by
    rw [Grant.eq_fileName_of_mem hrule hname, hliteral.fileName_eq, hends.leafOf_path]
  obtain ⟨p, hcompile, hsearch⟩ := Pattern.exists_compile_labelPattern hliteral
  have hpattern : Pattern.compile file.pattern = some p := by
    rw [hdescribes.pattern, ← hdescribes.path]
    exact hcompile
  refine ⟨hleaf, p, hpattern, fun text => ?_, ?_⟩
  · rw [hsearch, hleaf, hliteral.directory_eq, lookupPath, hends.join_parentOf, ← String.toList_inj,
      String.toList_ofList]
  · rw [hsearch, hleaf, parentPath, hliteral.directory_eq, hends.join_fold_parentOf_iff]
    exact forall₂_congr fun link _ => not_congr String.toList_inj

/-- The file in a linked tree is created under its name, and labelled where the link leads to. -/
theorem runTool_named : ∃ allocation last tool root rule p,
    make runTree varCatalog [] = .ok (allocation, last) ∧ allocation.files = [tool, root] ∧
      .transition rule ∈ Grant.fileCreation "app_t" tool ∧ "tool" ∈ rule.name ∧
      Pattern.compile tool.pattern = some p ∧ p.search (join "/var/run" "tool").toList = true := by
  obtain ⟨allocation, last, tool, root, hmake, hfiles, htype, hparent, -⟩ := exists_make_runTree
  have hdescribes := describes_make hmake
  have hnamed := named_files hmake
  rw [hfiles] at hdescribes hnamed
  have htool := (List.forall₂_cons.1 hdescribes).1
  have hpath : tool.path = "/run/tool" := htool.path
  have hclass : tool.fileClass = .file := htool.fileClass_eq rfl
  have hname : Path.fileName "/run/tool".toList = "tool".toList := by decide
  have hplain : Path.hasWildcard "/run/tool".toList = false := by decide
  have hliteral : IsLiteral "/run/tool".toList := by decide
  have hends : EndsIn "/run/tool".toList "/run".toList "tool".toList := by decide
  obtain ⟨rule, hrule, hrulename⟩ := Grant.exists_transition_mem_fileCreation "app_t" tool .file
    (by rw [hclass]; decide) (by rw [htype, hparent]; decide) (by rw [hpath, hplain])
    (by rw [hpath, hname]; decide)
  rw [hpath, hname, String.ofList_toList] at hrulename
  obtain ⟨-, p, hcompile, -, hinside⟩ := hnamed tool List.mem_cons_self (hpath ▸ hliteral) _ _
    (hpath ▸ hends) "app_t" rule "tool" hrule hrulename
  have hdirectory : parentPath "/run/tool" = "/var/run" := by decide +kernel
  have hroots : ∀ link ∈ links, "/run/tool" ≠ link.source := by decide +kernel
  rw [hpath, hdirectory] at hinside
  exact ⟨allocation, last, tool, root, rule, p, hmake, hfiles, hrule, hrulename, hcompile,
    hinside.2 hroots⟩

open Assembly (fileCatalog fileMaker)

/-- A path without wildcards, braces, `|` and `$`, such that the rules for creating a file there
have a name that is not for the file that the pattern labels. -/
def IsMisnamed (path : String) : Prop :=
  Path.hasWildcard path.toList = false ∧ (∀ c ∈ path.toList, c ∉ ['\x7b', '\x7d', '|', '$']) ∧
  ∃ allocation last app file rule name p,
    make (fileMaker path) fileCatalog [] = .ok (allocation, last) ∧
    allocation.files = [app, file] ∧ file.path = path ∧ file.isSystem = false ∧
    .transition rule ∈ Grant.fileCreation "app_t" file ∧ name ∈ rule.name ∧
    Pattern.compile file.pattern = some p ∧
    ¬p.search (join (parentPath file.path) name).toList = true

/-- Whether a file is misnamed can be seen from its path, once it has a type and a directory. -/
theorem isMisnamed_of_make {path : String}
    (hanswer : (make (fileMaker path) fileCatalog []).toOption.any (fun answer =>
      answer.1.files.map LabelledFile.typeName = ["app_exec_t", "two_t"] ∧
      answer.1.files.map LabelledFile.parentType = ["dir_t", "dir_t"]) = true)
    (hplain : Path.hasWildcard path.toList = false)
    (hsigns : ∀ c ∈ path.toList, c ∉ ['\x7b', '\x7d', '|', '$'])
    (hname : Path.fileName path.toList ≠ [])
    (hother : (Pattern.compile (String.ofList (Path.labelPattern path.toList))).any (fun p =>
      !p.search (join (parentPath path) (String.ofList (Path.fileName path.toList))).toList) =
        true) :
    IsMisnamed path := by
  obtain ⟨⟨allocation, last⟩, hmake, htypes, hparents⟩ := exists_of_any_toOption hanswer
  -- The second file is the one at the path.
  obtain ⟨app, file, hfiles⟩ : ∃ app file, allocation.files = [app, file] :=
    List.length_eq_two.1 (by simpa using congrArg List.length htypes)
  have hdescribes := describes_make hmake
  rw [hfiles] at htypes hparents hdescribes
  have hfile := (List.forall₂_cons.1 (List.forall₂_cons.1 hdescribes).2).1
  have hfilePath : file.path = path := hfile.path
  have hclass : file.fileClass = .file := hfile.fileClass_eq rfl
  simp only [List.map_cons, List.map_nil, List.cons.injEq, and_true] at htypes hparents
  obtain ⟨rule, hrule, hrulename⟩ := Grant.exists_transition_mem_fileCreation "app_t" file .file
    (by rw [hclass]; decide) (by rw [htypes.2, hparents.2]; decide) (by rw [hfilePath, hplain])
    (by rwa [hfilePath])
  obtain ⟨p, hcompile, hsearch⟩ := (Option.any_eq_true _ _).1 hother
  rw [← hfilePath] at hsearch
  refine ⟨hplain, hsigns, allocation, last, app, file, rule, _, p, hmake, hfiles, hfilePath,
    hfile.isSystem, hrule, hrulename, hfile.pattern ▸ hcompile, ?_⟩
  simpa using hsearch

/-- The root of a linked tree is created under its name in the directory above the link and labelled
where the link leads to.  A backslash stays in the name, while the pattern matches a path without
it, and more slashes before the name, or one behind it, are in the pattern only. -/
theorem runRoot_not_named : (fileMaker "/run").check = .ok () ∧ IsMisnamed "/run" ∧
    IsMisnamed "/a/b\\*c" ∧ IsMisnamed "/a//b" ∧ IsMisnamed "/a/b/" := by
  have hmisnamed : ∀ path ∈ ["/run", "/a/b\\*c", "/a//b", "/a/b/"], IsMisnamed path := by
    have hmakes : ∀ path ∈ ["/run", "/a/b\\*c", "/a//b", "/a/b/"],
        (make (fileMaker path) fileCatalog []).toOption.any (fun answer =>
          answer.1.files.map LabelledFile.typeName = ["app_exec_t", "two_t"] ∧
          answer.1.files.map LabelledFile.parentType = ["dir_t", "dir_t"]) = true := by
      decide +kernel
    have hpaths : ∀ path ∈ ["/run", "/a/b\\*c", "/a//b", "/a/b/"],
        Path.hasWildcard path.toList = false ∧
        (∀ c ∈ path.toList, c ∉ ['\x7b', '\x7d', '|', '$']) ∧
        Path.fileName path.toList ≠ [] ∧
        (Pattern.compile (String.ofList (Path.labelPattern path.toList))).any (fun p =>
          !p.search (join (parentPath path) (String.ofList (Path.fileName path.toList))).toList) =
            true := by
      decide +kernel
    intro path hpath
    obtain ⟨hplain, hsigns, hname, hother⟩ := hpaths path hpath
    exact isMisnamed_of_make (hmakes path hpath) hplain hsigns hname hother
  exact ⟨by decide +kernel, hmisnamed _ (by simp), hmisnamed _ (by simp), hmisnamed _ (by simp),
    hmisnamed _ (by simp)⟩

end Allocation

end TypeEnforcement
