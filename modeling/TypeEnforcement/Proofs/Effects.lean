/-
What a machine may do to its files when anything may fail.

A machine has a tree of files in its state.  Its writes and its tools may fail at any time and for
any reason; what they then leave behind stays where they were asked to work.  The state may hold
more than the tree, and nothing is said about when something fails.

* `FileTree.inside` — what lies at the paths that start from a directory;
* `FileTree.IsAbsent`, `FileTree.IsFree`, `FileTree.HoldsExactly` — what may be said of a directory;
* `Machine.Obeys` — the laws of a machine with a tree of files;
* `Keeps` — a program that leaves the files, or what else is seen of a state, alone;
* `Leads` — where a program leads that may fail, whether it does or not.

Main statements:
* `inside_of_changesOnly` — what happens in one directory does not reach into another;
* `isAbsent_removeTree` — nothing is left of a directory that has been removed;
* `HoldsExactly.of_changesOnly` — a directory keeps its files while others are written next to them;
* `Leads.bind` — programs that may fail, one after another.
-/
import TypeEnforcement.Build
import TypeEnforcement.Proofs.Footprint

namespace TypeEnforcement

namespace FileTree

/-! ### What a directory holds -/

/-- What lies at the paths that start from a directory. -/
def inside (tree : FileTree) (directory : String) (rest : List String) : Option FileNode :=
  tree.nodeAt (tree.resolve directory ++ rest)

/-- There is nothing at a path. -/
def IsAbsent (tree : FileTree) (path : String) : Prop :=
  ∀ rest, tree.inside path rest = none

/-- There is a directory at a path, or nothing. -/
def IsFree (tree : FileTree) (path : String) : Prop :=
  tree.inside path [] = some .directory ∨ tree.IsAbsent path

/-- A directory is there, and has nothing in it but entries of some names that have nothing in
them. -/
structure HasOnly (tree : FileTree) (directory : String) (names : List String) : Prop where
  there : tree.inside directory [] = some .directory
  mem : ∀ rest ≠ [], tree.inside directory rest ≠ none → ∃ name ∈ names, rest = [name]

/-- A directory has some files with their contents, and besides them only entries of the names
`others`. -/
structure HoldsExactly (tree : FileTree) (directory : String) (files : List (String × String))
    (others : List String) : Prop where
  content : ∀ file ∈ files, ∃ executable,
    tree.inside directory [file.1] = some (.file file.2.toUTF8 executable)
  hasOnly : tree.HasOnly directory (files.map Prod.fst ++ others)

variable {tree next after : FileTree} {out directory name other : String}
  {names others : List String} {files : List (String × String)}

theorem HasOnly.isFree (h : tree.HasOnly directory names) : tree.IsFree directory :=
  .inl h.there

theorem HasOnly.mono (h : tree.HasOnly directory names) (hsubset : names ⊆ others) :
    tree.HasOnly directory others := by
  refine ⟨h.there, fun rest hrest hsome => ?_⟩
  obtain ⟨name, hname, heq⟩ := h.mem rest hrest hsome
  exact ⟨name, hsubset hname, heq⟩

/-! ### Directories apart from each other -/

theorem IsAbsent.of_inside (heq : after.inside directory = tree.inside directory)
    (h : tree.IsAbsent directory) : after.IsAbsent directory := by
  rwa [IsAbsent, heq]

theorem IsFree.of_inside (heq : after.inside directory = tree.inside directory)
    (h : tree.IsFree directory) : after.IsFree directory := by
  rwa [IsFree, IsAbsent, heq]

theorem HoldsExactly.of_inside (heq : after.inside directory = tree.inside directory)
    (h : tree.HoldsExactly directory files others) :
    after.HoldsExactly directory files others := by
  obtain ⟨hcontent, hthere, hmem⟩ := h
  exact ⟨by rwa [heq], by rwa [heq], by rwa [heq]⟩

/-- What lies in a directory stays there when changes are made elsewhere. -/
theorem inside_of_forall_not {p : List String → Prop} (h : ChangesOnly p tree after)
    (hout : ∀ rest, ¬p (tree.resolve directory ++ rest)) :
    after.inside directory = tree.inside directory := by
  funext rest
  rw [inside, inside, h.resolve_eq, h.nodeAt _ (hout rest)]

/-- Directories of different names lie apart. -/
theorem not_around_of_ne (tree : FileTree) (out : String) (hname : IsPlain name)
    (hother : IsPlain other) (hne : name ≠ other) (rest : List String) :
    ¬Around (tree.resolve (Path.join out other)) (tree.resolve (Path.join out name) ++ rest) := by
  rw [resolve_join tree out hname, resolve_join tree out hother, List.append_assoc]
  rintro (hinside | hbeside)
  · rw [List.prefix_append_right_inj] at hinside
    exact hne (List.cons_prefix_cons.1 hinside).1.symm
  · rw [List.prefix_append_right_inj] at hbeside
    exact hne (List.cons_prefix_cons.1 hbeside).1

/-- What happens in one directory does not reach into another one next to it. -/
theorem inside_of_changesOnly (hname : IsPlain name) (hother : IsPlain other) (hne : name ≠ other)
    (h : ChangesOnly (Around (tree.resolve (Path.join out other))) tree after) :
    after.inside (Path.join out name) = tree.inside (Path.join out name) :=
  inside_of_forall_not h (not_around_of_ne tree out hname hother hne)

/-! ### Removing and making a directory -/

theorem join_ne_empty (directory : String) (hname : IsPlain name) :
    Path.join directory name ≠ "" := by
  have hne := hname.ne_empty
  unfold Path.join
  split
  · exact hne
  · split <;> simp [hne]

/-- Nothing is left of a directory that has been removed. -/
theorem isAbsent_removeTree (hname : IsPlain name) (h : tree.IsFree (Path.join out name)) :
    (tree.removeTree (Path.join out name)).IsAbsent (Path.join out name) := by
  obtain hthere | habsent := h
  · have hdirectory : tree.isDirectory (Path.join out name) = true := by
      rw [inside, List.append_nil] at hthere
      rw [isDirectory, node?, if_neg (join_ne_empty out hname), hthere]
    intro rest
    have hplace : tree.resolve (Path.join out name) ++ rest ≠ [] := by
      simp [resolve_join tree out hname]
    have hinside := List.isPrefixOf_iff_prefix.2
      (List.prefix_append (tree.resolve (Path.join out name)) rest)
    rw [inside, (changesOnly_removeTree tree _).resolve_eq, removeTree, if_pos hdirectory, nodeAt,
      if_neg hplace, lookup_filter fun path => !(tree.resolve (Path.join out name)).isPrefixOf path]
    simp [hinside]
  · -- There is nothing to remove.
    have hdirectory : tree.isDirectory (Path.join out name) ≠ true := by
      have hnone := habsent []
      rw [inside, List.append_nil] at hnone
      rw [isDirectory, node?, if_neg (join_ne_empty out hname), hnone]
      simp
    rwa [removeTree, if_neg hdirectory]

/-- A directory stays free, or absent, when one next to it or it itself is removed. -/
theorem IsFree.removeTree (h : tree.IsFree (Path.join out name)) (hname : IsPlain name)
    (hother : IsPlain other) :
    (tree.removeTree (Path.join out other)).IsFree (Path.join out name) := by
  by_cases heq : name = other
  · rw [← heq]
    exact .inr (isAbsent_removeTree hname h)
  · exact h.of_inside (inside_of_changesOnly hname hother heq
      ((changesOnly_removeTree tree _).mono fun _ => .inl))

theorem IsAbsent.removeTree (h : tree.IsAbsent (Path.join out name)) (hname : IsPlain name)
    (hother : IsPlain other) :
    (tree.removeTree (Path.join out other)).IsAbsent (Path.join out name) := by
  by_cases heq : name = other
  · rw [← heq]
    exact isAbsent_removeTree hname (.inr h)
  · exact h.of_inside (inside_of_changesOnly hname hother heq
      ((changesOnly_removeTree tree _).mono fun _ => .inl))

/-- Directories have been made on the way to a place where there was nothing. -/
structure MadeTo (place : List String) (tree after : FileTree) : Prop where
  workingDirectory : after.workingDirectory = tree.workingDirectory
  nodeAt : ∀ components, after.nodeAt components = tree.nodeAt components ∨
    components <+: place ∧ tree.nodeAt components = none ∧
      after.nodeAt components = some .directory

theorem MadeTo.changesOnly {place : List String} (h : MadeTo place tree after) :
    ChangesOnly (· <+: place) tree after :=
  ⟨h.workingDirectory, fun components hout => (h.nodeAt components).resolve_right fun hmade =>
    hout hmade.1⟩

/-- Whether the directory is made or not, there is nothing in it. -/
theorem MadeTo.inside_eq_none (h : MadeTo (tree.resolve directory) tree after)
    (habsent : tree.IsAbsent directory) {rest : List String} (hrest : rest ≠ []) :
    after.inside directory rest = none := by
  rw [inside, h.changesOnly.resolve_eq, h.changesOnly.nodeAt]
  · exact habsent rest
  · intro habove
    have hlength := habove.length_le
    rw [List.length_append] at hlength
    exact hrest (List.eq_nil_of_length_eq_zero (by omega))

theorem MadeTo.isFree (h : MadeTo (tree.resolve directory) tree after)
    (habsent : tree.IsAbsent directory) : after.IsFree directory := by
  have hplace := h.nodeAt (tree.resolve directory)
  rw [← h.changesOnly.resolve_eq directory, ← List.append_nil (after.resolve directory)] at hplace
  obtain hkept | ⟨-, -, hmade⟩ := hplace
  · refine .inr fun rest => ?_
    by_cases hrest : rest = []
    · rw [hrest, inside, hkept, h.changesOnly.resolve_eq]
      exact habsent []
    · exact h.inside_eq_none habsent hrest
  · exact .inl hmade

theorem MadeTo.hasOnly (h : MadeTo (tree.resolve directory) tree after)
    (habsent : tree.IsAbsent directory)
    (hthere : after.nodeAt (tree.resolve directory) = some .directory) :
    after.HasOnly directory [] := by
  constructor
  · rwa [inside, List.append_nil, h.changesOnly.resolve_eq]
  · exact fun rest hrest hsome => absurd (h.inside_eq_none habsent hrest) hsome

/-! ### Changes to the entries of a directory -/

/-- A change of some entries of a directory. -/
abbrev ChangesEntries (directory : String) (names : List String) (tree after : FileTree) : Prop :=
  ChangesOnly (fun components => ∃ name ∈ names, components = tree.resolve directory ++ [name])
    tree after

theorem ChangesEntries.changesOnly (h : ChangesEntries directory names tree after) :
    ChangesOnly (Around (tree.resolve directory)) tree after := by
  refine h.mono ?_
  rintro _ ⟨name, -, rfl⟩
  exact .inl (List.prefix_append _ _)

theorem ChangesEntries.inside_eq (h : ChangesEntries directory names tree after)
    {rest : List String} (hrest : ∀ name ∈ names, rest ≠ [name]) :
    after.inside directory rest = tree.inside directory rest := by
  rw [inside, inside, h.resolve_eq, h.nodeAt]
  rintro ⟨name, hname, heq⟩
  exact hrest name hname (List.append_cancel_left heq)

theorem HasOnly.of_changesEntries (h : tree.HasOnly directory names)
    (hchanges : ChangesEntries directory others tree after) :
    after.HasOnly directory (names ++ others) := by
  constructor
  · rw [hchanges.inside_eq fun _ _ => by simp]
    exact h.there
  · intro rest hrest hsome
    by_cases hnew : ∃ name ∈ others, rest = [name]
    · obtain ⟨name, hname, heq⟩ := hnew
      exact ⟨name, List.mem_append_right _ hname, heq⟩
    · rw [hchanges.inside_eq fun name hname heq => hnew ⟨name, hname, heq⟩] at hsome
      obtain ⟨name, hname, heq⟩ := h.mem rest hrest hsome
      exact ⟨name, List.mem_append_left _ hname, heq⟩

/-- A directory keeps its files while other entries of it change. -/
theorem HoldsExactly.of_changesEntries (h : tree.HoldsExactly directory files others)
    (hchanges : ChangesEntries directory names tree after)
    (hapart : ∀ file ∈ files, file.1 ∉ names) (hnames : names ⊆ others) :
    after.HoldsExactly directory files others := by
  constructor
  · intro file hfile
    rw [hchanges.inside_eq]
    · exact h.content file hfile
    · intro name hname heq
      obtain ⟨rfl, -⟩ := List.cons.inj heq
      exact hapart file hfile hname
  · refine (h.hasOnly.of_changesEntries hchanges).mono ?_
    exact List.append_subset.2 ⟨List.Subset.refl _, List.subset_append_of_subset_right _ hnames⟩

/-- A file that has been written joins the others. -/
theorem HoldsExactly.append {content : String} {executable : Bool}
    (h : tree.HoldsExactly directory files [])
    (hchanges : ChangesEntries directory [name] tree after) (hnew : name ∉ files.map Prod.fst)
    (hwritten : after.inside directory [name] = some (.file content.toUTF8 executable)) :
    after.HoldsExactly directory (files ++ [(name, content)]) [] := by
  constructor
  · refine List.forall_mem_append.2 ⟨fun file hfile => ?_, ?_⟩
    · rw [hchanges.inside_eq]
      · exact h.content file hfile
      · intro other hother heq
        obtain ⟨rfl, -⟩ := List.cons.inj heq
        obtain rfl := List.mem_singleton.1 hother
        exact hnew (List.mem_map_of_mem hfile)
    · exact List.forall_mem_singleton.2 ⟨executable, hwritten⟩
  · have honly := h.hasOnly.of_changesEntries hchanges
    simpa using honly

end FileTree

/-! ### Machines with a tree of files -/

open FileTree (ChangesOnly ChangesEntries MadeTo)

variable {σ α β : Type}

/-- The laws of a machine that has a tree of files in its state.  A directory is removed with
everything in it.  Everything else may fail, and leaves changes behind only where it was asked to
work: on the way to a directory, in a file, or in the two files that a tool makes of a module. -/
structure Machine.Obeys (machine : Machine (StateM σ)) (files : σ → FileTree) : Prop where
  readFile : ∀ path state, files ((machine.readFile path).run state).2 = files state
  listDirectory : ∀ path state, files ((machine.listDirectory path).run state).2 = files state
  isDirectory : ∀ path state, files ((machine.isDirectory path).run state).2 = files state
  createDirectories : ∀ path state,
    let ran := (machine.createDirectories path).run state
    let place := (files state).resolve path
    MadeTo place (files state) (files ran.2) ∧
      (ran.1 = true → (files ran.2).nodeAt place = some .directory)
  writeFile : ∀ path content state,
    let ran := (machine.writeFile path content).run state
    let place := (files state).resolve path
    ChangesOnly (· = place) (files state) (files ran.2) ∧
      (ran.1 = true → ∃ executable,
        (files ran.2).nodeAt place = some (.file content.toUTF8 executable))
  removeTree : ∀ path state,
    files ((machine.removeTree path).run state).2 = (files state).removeTree path
  runTool : ∀ tool arguments directory name state,
    Build.modulePath directory name ".mod" ∈ arguments →
      ChangesOnly (fun components => ∃ extension ∈ [".mod", ".pp"],
          components = (files state).resolve (Build.modulePath directory name extension))
        (files state) (files ((machine.runTool tool arguments).run state).2)

namespace FileTree

/-- Tools that are given a compiled module write it and its package, and nothing else. -/
def Tools.KeepToModules (tools : Tools) : Prop :=
  ∀ tool arguments directory name tree result after,
    Build.modulePath directory name ".mod" ∈ arguments →
    tools tool arguments tree = some (result, after) →
      ChangesOnly (fun components => ∃ extension ∈ [".mod", ".pp"],
        components = tree.resolve (Build.modulePath directory name extension)) tree after

/-- A machine on which the files of some paths cannot be written; they are left empty. -/
def spoilingMachine (tools : Tools) (spoiled : String → Bool) : Machine (StateM FileTree) :=
  { machine tools with
    writeFile := fun path content => do
      let written ← (machine tools).writeFile path (if spoiled path then "" else content)
      pure (written && !spoiled path) }

/-- Every step of making a directory adds one directory on the way, unless there is something. -/
theorem madeTo_addDirectories (tree : FileTree) (place : List String) :
    MadeTo place tree (tree.addDirectories place) ∧
      (tree.addDirectories place).nodeAt place ≠ none := by
  have hsteps (count : Nat) (hcount : count ≤ place.length) :
      let made := (List.range count).foldl (fun tree count =>
        let path := place.take (count + 1)
        if (tree.nodeAt path).isSome then tree else tree.put path .directory) tree
      MadeTo place tree made ∧ made.nodeAt (place.take count) ≠ none := by
    induction count with
    | zero => exact ⟨⟨rfl, fun _ => .inl rfl⟩, by simp [nodeAt]⟩
    | succ count ih =>
      obtain ⟨hmade, -⟩ := ih (Nat.le_of_succ_le hcount)
      simp only [List.range_succ, List.foldl_append, List.foldl_cons, List.foldl_nil]
      generalize (List.range count).foldl _ tree = made at hmade ⊢
      split
      · rename_i hsome
        exact ⟨hmade, Option.isSome_iff_ne_none.1 hsome⟩
      · rename_i hnone
        have hplace : place.take (count + 1) ≠ [] := by
          have hlength := List.length_take_of_le hcount
          exact List.ne_nil_of_length_pos (by omega)
        -- The step puts a directory at the next prefix, and the others keep what they have.
        refine ⟨⟨hmade.workingDirectory, fun components => ?_⟩, ?_⟩
        · rw [nodeAt_put made hplace]
          by_cases heq : components = place.take (count + 1)
          · have hbefore : tree.nodeAt components = none := by
              rw [Option.not_isSome_iff_eq_none, ← heq] at hnone
              rcases hmade.nodeAt components with hkept | ⟨-, hbefore, -⟩
              · exact hkept ▸ hnone
              · exact hbefore
            exact .inr ⟨heq ▸ List.take_prefix _ _, hbefore, if_pos heq⟩
          · rw [if_neg heq]
            exact hmade.nodeAt components
        · rw [nodeAt_put made hplace, if_pos rfl]
          simp
  have hall := hsteps place.length (Nat.le_refl _)
  rwa [List.take_length] at hall

theorem createDirectories_eq_some {tree made : FileTree} {path : String}
    (h : tree.createDirectories path = some made) :
    MadeTo (tree.resolve path) tree made ∧
      made.nodeAt (tree.resolve path) = some .directory := by
  unfold createDirectories at h
  dsimp only at h
  split at h
  · cases h
  · rename_i hfree
    cases h
    obtain ⟨hmade, hsome⟩ := madeTo_addDirectories tree (tree.resolve path)
    refine ⟨hmade, ?_⟩
    rcases hmade.nodeAt (tree.resolve path) with hkept | ⟨-, -, hdirectory⟩
    · -- What was there before is no file, which would be in the way.
      rw [hkept] at hsome ⊢
      cases hnode : tree.nodeAt (tree.resolve path) with
      | none => exact absurd hnode hsome
      | some node =>
        cases node with
        | directory => rfl
        | file content executable =>
          refine absurd ?_ hfree
          have hplace : tree.resolve path ≠ [] := fun hnil => by simp [hnil, nodeAt] at hnode
          have hlength := List.length_pos_iff.2 hplace
          refine List.any_eq_true.2 ⟨(tree.resolve path).length - 1, ?_, ?_⟩
          · exact List.mem_range.2 (Nat.sub_lt hlength Nat.one_pos)
          · rw [Nat.sub_add_cancel hlength, List.take_length, hnode]
    · exact hdirectory

theorem nodeAt_of_content? {tree : FileTree} {path : String} {content : ByteArray}
    (h : tree.content? path = some content) :
    ∃ executable, tree.nodeAt (tree.resolve path) = some (.file content executable) := by
  unfold content? node? at h
  split at h
  · rename_i content' executable hnode
    cases h
    split at hnode
    · cases hnode
    · split at hnode
      · rename_i hplace
        split at hnode
        · cases hnode
        · cases hnode
          exact ⟨executable, hplace⟩
      · exact ⟨executable, hnode⟩
  · cases h

theorem run_spoilingMachine_writeFile (tools : Tools) (spoiled : String → Bool) (tree : FileTree)
    (path content : String) : ((spoilingMachine tools spoiled).writeFile path content).run tree =
      match tree.writeFile path (if spoiled path then "" else content).toUTF8 with
      | some written => (!spoiled path, written)
      | none => (false, tree) := by
  have hrun : ((spoilingMachine tools spoiled).writeFile path content).run tree =
      let ran := ((machine tools).writeFile path (if spoiled path then "" else content)).run tree
      (ran.1 && !spoiled path, ran.2) := rfl
  rw [hrun, run_writeFile]
  cases tree.writeFile path (if spoiled path then "" else content).toUTF8 <;> simp

/-- The laws hold of a machine in memory, whichever of its writes fail. -/
theorem obeys_spoilingMachine {tools : Tools} (htools : tools.KeepToModules)
    (spoiled : String → Bool) : (spoilingMachine tools spoiled).Obeys id where
  readFile _ _ := rfl
  listDirectory _ _ := rfl
  isDirectory _ _ := rfl
  createDirectories path tree := by
    have hran : ((spoilingMachine tools spoiled).createDirectories path).run tree =
      _ := run_createDirectories tools tree path
    dsimp only [id]
    rw [hran]
    cases hmade : tree.createDirectories path with
    | none => exact ⟨⟨rfl, fun _ => .inl rfl⟩, fun h => absurd h Bool.false_ne_true⟩
    | some made =>
      obtain ⟨hmade, hthere⟩ := createDirectories_eq_some hmade
      exact ⟨hmade, fun _ => hthere⟩
  writeFile path content tree := by
    dsimp only [id]
    rw [run_spoilingMachine_writeFile]
    cases hwritten : tree.writeFile path (if spoiled path then "" else content).toUTF8 with
    | none => exact ⟨.refl _ tree, fun h => absurd h Bool.false_ne_true⟩
    | some written =>
      obtain ⟨hchanges, hcontent⟩ := changesOnly_writeFile hwritten
      refine ⟨hchanges, fun hdone => ?_⟩
      -- A write that says it is done is not one of those that spoil their file.
      have hspoiled : spoiled path = false := by simpa using hdone
      obtain ⟨executable, hnode⟩ := nodeAt_of_content? hcontent
      rw [hspoiled, hchanges.resolve_eq] at hnode
      exact ⟨executable, hnode⟩
  removeTree _ _ := rfl
  runTool tool arguments directory name tree hcompiled := by
    simp only [spoilingMachine, machine, StateT.run_bind, StateT.run_get, pure_bind]
    cases h : tools tool arguments tree with
    | none => exact .refl _ tree
    | some outcome =>
      exact htools tool arguments directory name tree outcome.1 outcome.2 hcompiled h

end FileTree

/-- Reading leaves what is seen of the state as it is. -/
structure Machine.Reads {γ : Type} (machine : Machine (StateM σ)) (view : σ → γ) : Prop where
  readFile : ∀ path state, view ((machine.readFile path).run state).2 = view state
  listDirectory : ∀ path state, view ((machine.listDirectory path).run state).2 = view state
  isDirectory : ∀ path state, view ((machine.isDirectory path).run state).2 = view state

theorem Machine.Obeys.reads {machine : Machine (StateM σ)} {files : σ → FileTree}
    (h : machine.Obeys files) : machine.Reads files :=
  ⟨h.readFile, h.listDirectory, h.isDirectory⟩

/-- Whatever state a program is run in, it leaves what is seen of it as it is. -/
def Keeps {γ : Type} (view : σ → γ) (program : StateM σ α) : Prop :=
  ∀ state, view (program.run state).2 = view state

namespace Keeps

variable {γ ε : Type} {view : σ → γ}

theorem pure (view : σ → γ) (value : α) : Keeps view (Pure.pure value : StateM σ α) :=
  fun _ => rfl

theorem bind {program : StateM σ α} {next : α → StateM σ β} (h : Keeps view program)
    (hnext : ∀ value, Keeps view (next value)) : Keeps view (program >>= next) :=
  fun state => (hnext _ _).trans (h state)

theorem bindExcept {program : ExceptT ε (StateM σ) α} {next : α → ExceptT ε (StateM σ) β}
    (h : Keeps view program.run) (hnext : ∀ value, Keeps view (next value).run) :
    Keeps view (program >>= next).run := by
  have hrest : ∀ outcome, Keeps view (ExceptT.bindCont next outcome) := by
    intro outcome
    cases outcome with
    | ok value => exact hnext value
    | error fault => exact .pure view _
  exact h.bind hrest

theorem lift {program : StateM σ α} (h : Keeps view program) :
    Keeps view (liftM program : ExceptT ε (StateM σ) α).run :=
  h

theorem mapM {f : α → ExceptT ε (StateM σ) β} (h : ∀ item, Keeps view (f item).run)
    (items : List α) : Keeps view (items.mapM f).run := by
  induction items with
  | nil => exact .pure view _
  | cons item rest ih =>
    rw [List.mapM_cons]
    exact .bindExcept (h item) fun _ => .bindExcept ih fun _ => .pure view _

theorem filterMapM {f : α → StateM σ (Option β)} (h : ∀ item, Keeps view (f item))
    (items : List α) : Keeps view (items.filterMapM f) := by
  induction items with
  | nil => exact .pure view _
  | cons item rest ih =>
    rw [List.filterMapM_cons]
    refine .bind (h item) fun found => ?_
    cases found with
    | none => exact ih
    | some value => exact .bind ih fun _ => .pure view _

end Keeps

/-! ### Programs that may fail -/

/-- Run where `p` holds of the files, a program gives a value and ends where `q` holds, or it fails
and ends where `r` holds. -/
def Leads (files : σ → FileTree) (p : FileTree → Prop) (program : ExceptT Fault (StateM σ) α)
    (q : α → FileTree → Prop) (r : FileTree → Prop) : Prop :=
  ∀ state, p (files state) → match program.run.run state with
    | (.ok value, after) => q value (files after)
    | (.error _, after) => r (files after)

namespace Leads

variable {files : σ → FileTree} {p : FileTree → Prop} {program : ExceptT Fault (StateM σ) α}
  {q : α → FileTree → Prop} {r : FileTree → Prop}

theorem bind {next : α → ExceptT Fault (StateM σ) β} {q' : β → FileTree → Prop}
    (h : Leads files p program q r) (hnext : ∀ value, Leads files (q value) (next value) q' r) :
    Leads files p (program >>= next) q' r := by
  intro state hp
  have hfirst := h state hp
  have hrun : (program >>= next).run.run state =
      (ExceptT.bindCont next (program.run.run state).1).run (program.run.run state).2 := rfl
  rw [hrun]
  generalize program.run.run state = ran at hfirst ⊢
  obtain ⟨outcome, after⟩ := ran
  cases outcome with
  | ok value => exact hnext value after hfirst
  | error fault => exact hfirst

theorem pure (value : α) (h : ∀ tree, p tree → q value tree) :
    Leads files p (Pure.pure value) q r :=
  fun _ hp => h _ hp

theorem lift {step : StateM σ α}
    (h : ∀ state, p (files state) → q (step.run state).1 (files (step.run state).2)) :
    Leads files p (liftM step) q r :=
  fun state hp => h state hp

theorem fail {fault : Fault} (h : ∀ tree, p tree → r tree) :
    Leads files p (throw fault) q r :=
  fun _ hp => h _ hp

/-- Start from less and promise less. -/
theorem mono {p' : FileTree → Prop} {q' : α → FileTree → Prop} (h : Leads files p program q r)
    (hp : ∀ tree, p' tree → p tree) (hq : ∀ value tree, q value tree → q' value tree) :
    Leads files p' program q' r := by
  intro state hstart
  have hran := h state (hp _ hstart)
  generalize program.run.run state = ran at hran ⊢
  obtain ⟨outcome, after⟩ := ran
  cases outcome with
  | ok value => exact hq value _ hran
  | error fault => exact hran

end Leads

end TypeEnforcement
