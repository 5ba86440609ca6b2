/-
Whether a relabelling script reaches what its module labels.

The script names, for each file context of a module, the literal start of its pattern, and the tool
relabels the tree that begins there.  That is the tree of a path only if the literal start ends
where a component of the path ends.  The literal start of `/srv/app[^/]*` is `/srv/app`, and what
lies in the tree of `/srv/app` has nothing to do with `/srv/apple`.

* `PolicyModule.Relabels` — the script of a module reaches a path.

Main statements:
* `exists_resource_of_entry` — the file contexts of a project are those of its resources;
* `covers_cases` — what an entry is for, by its scope;
* `forall_relabels_iff` — when a script reaches all that an entry is for;
* `relabelled_labels` — when the scopes of a module have it.
-/
import TypeEnforcement.Module.Artifact
import TypeEnforcement.Proofs.LiteralParts

namespace TypeEnforcement

open TypeEnforcement.Path (IsPlainGlob IsRooted LiesUnder literalPart labelPattern)

/-! ### Scopes of entries -/

namespace FileContext

open PolicyModule (relabelScope)

variable {entry : FileContext} {path : List Char}

/-- The scope of a plain glob is its literal part. -/
theorem relabelScope_of_isPlainGlob (h : IsPlainGlob path)
    (hpattern : entry.pattern = String.ofList (labelPattern path)) :
    (relabelScope entry).toList = literalPart (Path.fold path) := by
  obtain ⟨body, form, hbody, hform, hfold⟩ := h.exists_fold_eq_of_coversSelf
  rw [relabelScope, literalStart, hpattern, String.toList_ofList, String.toList_ofList,
    labelPattern, hfold]
  exact Path.unescape_fixedStart_toPattern hbody hform

/-- The scope of an absolute path is absolute. -/
theorem head?_relabelScope (h : path.head? = some '/')
    (hpattern : entry.pattern = String.ofList (labelPattern path)) :
    (relabelScope entry).toList.head? = some '/' := by
  have hfirst := Path.head?_labelPattern h
  rw [relabelScope, literalStart, hpattern, String.toList_ofList, String.toList_ofList]
  cases hlabel : labelPattern path with
  | nil =>
    rw [hlabel] at hfirst
    cases hfirst
  | cons c rest =>
    rw [hlabel] at hfirst
    obtain rfl : c = '/' := by simpa using hfirst
    rw [Path.fixedStart_cons (by decide), if_neg (by decide), Path.unescape_cons (by decide)]
    rfl

/-- What a valid entry of a plain glob is for begins with the literal part of the glob.  It lies
under it just if the literal part ends where a component ends; otherwise it goes on with any other
character as well. -/
theorem covers_cases (h : IsPlainGlob path)
    (hpattern : entry.pattern = String.ofList (labelPattern path)) (hvalid : entry.valid = true) :
    (∀ s fileClass, entry.covers s fileClass = true → literalPart (Path.fold path) <+: s.toList) ∧
    (IsRooted (Path.fold path) → ∀ s fileClass, entry.covers s fileClass = true →
      LiesUnder s.toList (literalPart (Path.fold path))) ∧
    (¬IsRooted (Path.fold path) → ∀ c, c ≠ '/' → c ≠ '\n' → ∃ s tail,
      entry.covers s entry.fileClass = true ∧
        s.toList = literalPart (Path.fold path) ++ c :: tail) := by
  obtain ⟨body, form, hbody, hform, hfold⟩ := h.exists_fold_eq_of_coversSelf
  have hbodyPattern := hpattern.trans (by rw [labelPattern, hfold])
  have hlanguage {s : String} {fileClass : FileClass} (hs : entry.covers s fileClass = true) :
      s.toList ∈ Path.language body form :=
    ((covers_iff_mem_language hbody hbodyPattern).1 hs).2.2
  rw [hfold]
  refine ⟨fun s fileClass hs => ?_, fun hrooted s fileClass hs => ?_,
    fun hrooted c hslash hline => ?_⟩
  · exact Path.literalPart_prefix_of_mem_language hbody hform (hlanguage hs)
  · exact Path.liesUnder_of_mem_language hbody hform hrooted (hlanguage hs)
  · obtain ⟨tail, htail⟩ := Path.exists_cons_mem_language hbody hform hrooted hslash hline
    refine ⟨String.ofList _, tail, (covers_iff_mem_language hbody hbodyPattern).2
      ⟨hvalid, .inr (.inr rfl), ?_⟩, String.toList_ofList⟩
    rwa [String.toList_ofList]

end FileContext

namespace Assembly

variable {project : Project} {catalog : Catalog} {own : Except Fault (List Installed)}
  {fallbackDomain : String} {assembly : Assembly} {m : PolicyModule} {entry : FileContext}

/-! ### Entries of projects -/

/-- The file contexts of a project are those of the resources that it labels, and those of plain
globs are valid. -/
theorem exists_resource_of_entry
    (h : (ofProject project catalog own fallbackDomain).result = .ok assembly)
    (hm : m ∈ assembly.modules) (hentry : entry ∈ m.fileContexts) :
    ∃ resource ∈ project.resources, resource.isSystem = false ∧
      entry.pattern = String.ofList (labelPattern resource.path.toList) ∧
      (IsPlainGlob resource.path.toList → entry.valid = true) := by
  obtain ⟨context, collected, hallocated, hcollected, rfl⟩ := exists_of_ofProject h
  obtain ⟨labels, rest, hmodules, hlabels, hrest⟩ := exists_labels hcollected
  have hmem := List.mem_flatMap_of_mem hm hentry
  rw [fileContexts_resolved hmodules hlabels hrest] at hmem
  obtain ⟨before, hbefore, rfl⟩ := List.mem_map.1 hmem
  obtain ⟨settled, hsettled, rfl⟩ := List.mem_map.1 hbefore
  obtain ⟨hsettled, hnew⟩ := List.mem_filter.1 hsettled
  have hnew : settled.isSystem = false := by simpa using hnew
  obtain ⟨resource, hresource, hdescribes⟩ :=
    exists_of_forall₂_of_mem_right (describes_of_allocate hallocated) hsettled
  refine ⟨resource, hresource, hdescribes.isSystem.symm.trans hnew, hdescribes.pattern,
    fun hplain => ?_⟩
  obtain ⟨installed, allocation, last, -, hallocation, rfl⟩ := exists_of_allocate hallocated
  obtain ⟨held, ownTypes, origin, file, hmake, parentLabel, domain, rfl⟩ :=
    Allocation.exists_make_of_mem_files hallocation hsettled
  -- The entry was made for a resource with the same path, whose class is in order.
  have hpath : origin.path = resource.path :=
    (LabelledFile.describes_make hmake).path.symm.trans hdescribes.path
  exact (LabelledFile.isOf_fileContext hmake hnew (by rwa [hpath])).valid_eq_true

end Assembly

/-! ### Scripts -/

/-- The script of a module reaches a path: the path is in the tree of one of its scopes. -/
def PolicyModule.Relabels (m : PolicyModule) (path : String) : Prop :=
  ∃ scope ∈ m.relabelScopes, LiesUnder path.toList scope.toList

instance (m : PolicyModule) (path : String) : Decidable (m.Relabels path) :=
  inferInstanceAs (Decidable (∃ scope ∈ m.relabelScopes.toList, _))

namespace PolicyModule

variable {m : PolicyModule} {entry : FileContext} {path : List Char}

/-- An entry has a scope in the script of its module. -/
theorem relabelScope_mem (hentry : entry ∈ m.fileContexts) (hne : relabelScope entry ≠ "") :
    relabelScope entry ∈ m.relabelScopes :=
  NameSet.mem_ofList.2 (List.mem_filter.2 ⟨List.mem_map_of_mem hentry, by simpa using hne⟩)

/-- The script reaches all that an entry is for, if the literal part of its glob ends where a
component ends. -/
theorem relabels_of_isRooted (h : IsPlainGlob path)
    (hpattern : entry.pattern = String.ofList (labelPattern path)) (hvalid : entry.valid = true)
    (hscope : relabelScope entry ∈ m.relabelScopes) (hrooted : IsRooted (Path.fold path)) :
    ∀ s fileClass, entry.covers s fileClass = true → m.Relabels s := by
  intro s fileClass hcovers
  obtain ⟨-, hunder, -⟩ := FileContext.covers_cases h hpattern hvalid
  refine ⟨_, hscope, ?_⟩
  rw [FileContext.relabelScope_of_isPlainGlob h hpattern]
  exact hunder hrooted s fileClass hcovers

/-- Whether the script reaches all that an entry of a plain glob is for. -/
theorem forall_relabels_iff (h : IsPlainGlob path)
    (hpattern : entry.pattern = String.ofList (labelPattern path)) (hvalid : entry.valid = true)
    (hscope : relabelScope entry ∈ m.relabelScopes)
    (hfree : ∃ c, c ≠ '/' ∧ c ≠ '\n' ∧ ∀ scope ∈ m.relabelScopes, c ∉ scope.toList) :
    (∀ s fileClass, entry.covers s fileClass = true → m.Relabels s) ↔
      IsRooted (Path.fold path) ∨ ∃ scope ∈ m.relabelScopes, scope ≠ relabelScope entry ∧
        LiesUnder (relabelScope entry).toList scope.toList := by
  obtain ⟨hbegins, -, hfurther⟩ := FileContext.covers_cases h hpattern hvalid
  have hliteral := FileContext.relabelScope_of_isPlainGlob h hpattern
  constructor
  · intro hall
    refine or_iff_not_imp_left.2 fun hnot => ?_
    obtain ⟨c, hslash, hline, hc⟩ := hfree
    -- A text that goes on with a character of no scope is in a tree that begins before it.
    obtain ⟨s, tail, hcovers, hs⟩ := hfurther hnot c hslash hline
    obtain ⟨scope, hmem, hunder⟩ := hall s _ hcovers
    rw [hs, ← hliteral] at hunder
    refine ⟨scope, hmem, ?_, Path.liesUnder_of_append_cons hunder hslash (hc scope hmem)⟩
    rintro rfl
    refine Path.not_liesUnder_append_cons hslash (fun hends => hnot (.inl ?_)) hunder
    rwa [← hliteral]
  · rintro (hrooted | ⟨scope, hmem, hne, hunder⟩)
    · exact relabels_of_isRooted h hpattern hvalid hscope hrooted
    · intro s fileClass hcovers
      obtain ⟨rest, hs⟩ := hbegins s fileClass hcovers
      refine ⟨scope, hmem, ?_⟩
      rw [← hs, ← hliteral]
      exact hunder.append (fun heq => hne (String.toList_inj.1 heq).symm) rest

end PolicyModule

namespace Assembly

open PolicyModule (relabelScope)

variable {project : Project} {catalog : Catalog} {own : Except Fault (List Installed)}
  {fallbackDomain : String} {assembly : Assembly}

/-- What the scripts of a project reach.  Each file context of a module has a scope in its script.
If the file context comes from a plain glob, then the scope is the literal part of the glob, and
what the entry is for begins with it.  The script reaches all of this if the literal part ends where
a component ends, or if it lies under another scope.  Unless the scopes have all characters, it
misses something otherwise. -/
theorem relabelled_labels (hcheck : project.check = .ok ())
    (h : (ofProject project catalog own fallbackDomain).result = .ok assembly) :
    ∀ m ∈ assembly.modules, ∀ entry ∈ m.fileContexts,
      ∃ resource ∈ project.resources, resource.isSystem = false ∧
        entry.pattern = String.ofList (labelPattern resource.path.toList) ∧
        relabelScope entry ∈ m.relabelScopes ∧
        (IsPlainGlob resource.path.toList →
          let glob := Path.fold resource.path.toList
          (relabelScope entry).toList = literalPart glob ∧
          (∀ s fileClass, entry.covers s fileClass = true → literalPart glob <+: s.toList) ∧
          (IsRooted glob → ∀ s fileClass, entry.covers s fileClass = true → m.Relabels s) ∧
          ((∃ c, c ≠ '/' ∧ c ≠ '\n' ∧ ∀ scope ∈ m.relabelScopes, c ∉ scope.toList) →
            ((∀ s fileClass, entry.covers s fileClass = true → m.Relabels s) ↔
              IsRooted glob ∨ ∃ scope ∈ m.relabelScopes, scope ≠ relabelScope entry ∧
                LiesUnder (relabelScope entry).toList scope.toList))) := by
  intro m hm entry hentry
  obtain ⟨resource, hresource, hnew, hpattern, hvalid⟩ := exists_resource_of_entry h hm hentry
  obtain ⟨-, -, -, hpaths, -⟩ := Project.check_cases hcheck
  have habsolute : resource.path.toList.head? = some '/' :=
    ((Project.checkPaths_eq_ok_iff.1 hpaths).1 resource hresource).1
  have hscope : relabelScope entry ∈ m.relabelScopes := by
    refine PolicyModule.relabelScope_mem hentry fun hempty => ?_
    have hfirst := FileContext.head?_relabelScope habsolute hpattern
    rw [hempty] at hfirst
    cases hfirst
  refine ⟨resource, hresource, hnew, hpattern, hscope, fun hplain => ?_⟩
  obtain ⟨hbegins, -, -⟩ := FileContext.covers_cases hplain hpattern (hvalid hplain)
  exact ⟨FileContext.relabelScope_of_isPlainGlob hplain hpattern, hbegins,
    PolicyModule.relabels_of_isRooted hplain hpattern (hvalid hplain) hscope,
    PolicyModule.forall_relabels_iff hplain hpattern (hvalid hplain) hscope⟩

/-- The files in a directory are all reached by the scope of the directory. -/
theorem childFiles_relabelled : (fileMaker "/a/*").check = .ok () ∧ ∃ assembly,
    (ofProject (fileMaker "/a/*") fileCatalog (.ok []) "init_t").result = .ok assembly ∧
    ∃ m ∈ assembly.modules, ∃ entry ∈ m.fileContexts, relabelScope entry = "/a/" ∧
      ∀ s fileClass, entry.covers s fileClass = true → m.Relabels s := by
  have hcheck : (fileMaker "/a/*").check = .ok () := by decide +kernel
  have hanswer : (ofProject (fileMaker "/a/*") fileCatalog (.ok [])
      "init_t").result.toOption.any fun assembly =>
        decide (∃ m ∈ assembly.modules, ∃ entry ∈ m.fileContexts, relabelScope entry = "/a/") := by
    decide +kernel
  obtain ⟨assembly, hassembly, m, hm, entry, hentry, hscope⟩ := exists_of_any_toOption hanswer
  obtain ⟨resource, hresource, hnew, -, -, hplain⟩ :=
    relabelled_labels hcheck hassembly m hm entry hentry
  have hforms : ∀ resource ∈ (fileMaker "/a/*").resources, resource.isSystem = false →
      IsPlainGlob resource.path.toList ∧ IsRooted (Path.fold resource.path.toList) := by
    decide +kernel
  obtain ⟨hglob, hrooted⟩ := hforms resource hresource hnew
  obtain ⟨-, -, hreached, -⟩ := hplain hglob
  exact ⟨hcheck, assembly, hassembly, m, hm, entry, hentry, hscope, hreached hrooted⟩

/-- A file with a star behind the beginning of its name is labelled under names that are not in the
tree of this beginning. -/
theorem starredName_not_relabelled : (fileMaker "/a/app*").check = .ok () ∧ ∃ assembly,
    (ofProject (fileMaker "/a/app*") fileCatalog (.ok []) "init_t").result = .ok assembly ∧
    ∃ m ∈ assembly.modules, ∃ entry ∈ m.fileContexts,
      entry.covers "/a/apple" .file = true ∧ ¬m.Relabels "/a/apple" := by
  have hanswer : (ofProject (fileMaker "/a/app*") fileCatalog (.ok [])
      "init_t").result.toOption.any fun assembly =>
        decide (∃ m ∈ assembly.modules, ∃ entry ∈ m.fileContexts,
          entry.covers "/a/apple" .file = true ∧ ¬m.Relabels "/a/apple") := by
    decide +kernel
  exact ⟨by decide +kernel, exists_of_any_toOption hanswer⟩

end Assembly

end TypeEnforcement
