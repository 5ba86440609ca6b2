/-
What a step leaves alone in a tree of files.

A step that works on the files of a directory may make the directory and those that it lies in, and
may change everything inside it.  All else stays as it is.

* `FileTree.IsPlain` — a name that is one component of a path;
* `FileTree.ChangesOnly` — a tree differs from another only in some places;
* `FileTree.Confined` — a program that stays in a directory, whatever it is run on;
* `FileTree.Contains` — a directory has some files in it.

Main statements:
* `resolve_join` — where a plain name inside a directory leads;
* `changesOnly_put`, `changesOnly_removeTree`, `changesOnly_addDirectories` — what the operations of
  a tree change;
* `confined_removeTree`, `confined_createDirectories`, `confined_writeFile`, `confined_runTool` —
  what a machine does stays in the directory that it is asked to work in;
* `Contains.of_confined` — the files of a directory survive what happens in another.
-/
import TypeEnforcement.Machine.FileTree
import TypeEnforcement.Path.Join

namespace TypeEnforcement

/-! ### Pieces of a joined text -/

namespace Text

theorem pieces_append {isSep : Char → Bool} {sep : Char} (hsep : isSep sep = true)
    (front back : List Char) :
    pieces isSep (front ++ sep :: back) = pieces isSep front ++ pieces isSep back := by
  induction front with
  | nil => simp [pieces, hsep]
  | cons c rest ih =>
    rw [List.cons_append, pieces, pieces, ih]
    split
    · rfl
    · -- The first piece gets one character more on both sides.
      cases hrest : pieces isSep rest with
      | nil => exact absurd hrest (pieces_ne_nil isSep rest)
      | cons piece others => rfl

theorem pieces_of_forall_not {isSep : Char → Bool} {text : List Char}
    (h : ∀ c ∈ text, isSep c = false) : pieces isSep text = [text] := by
  induction text with
  | nil => rfl
  | cons c rest ih =>
    obtain ⟨hc, hrest⟩ := List.forall_mem_cons.1 h
    rw [pieces, ih hrest]
    simp [hc]

end Text

namespace FileTree

/-! ### Names inside directories -/

/-- A name that is one component of a path. -/
structure IsPlain (name : String) : Prop where
  ne_empty : name ≠ ""
  ne_dot : name ≠ "."
  ne_dots : name ≠ ".."
  no_slash : '/' ∉ name.toList

theorem isPlain_of_toList {name : String} {c : Char} {rest : List Char}
    (h : name.toList = c :: rest) (hc : c ≠ '.') (hslash : '/' ∉ name.toList) : IsPlain name where
  ne_empty := by
    rintro rfl
    cases h
  ne_dot := by
    rintro rfl
    cases h
    exact hc rfl
  ne_dots := by
    rintro rfl
    cases h
    exact hc rfl
  no_slash := hslash

/-- One component more on a path. -/
def enter (components : List String) (name : String) : List String :=
  if name = "" ∨ name = "." then components
  else if name = ".." then components.dropLast
  else components ++ [name]

theorem enter_of_isPlain {name : String} (h : IsPlain name) (components : List String) :
    enter components name = components ++ [name] := by
  simp [enter, h.ne_empty, h.ne_dot, h.ne_dots]

theorem resolve_eq (tree : FileTree) (path : String) : tree.resolve path =
    (Text.split '/' path).foldl enter
      (if path.toList.head? = some '/' then [] else tree.workingDirectory) := rfl

theorem split_of_isPlain {name : String} (h : IsPlain name) : Text.split '/' name = [name] := by
  have hpieces : Text.pieces (· == '/') name.toList = [name.toList] :=
    Text.pieces_of_forall_not fun c hc => by
      have hne : c ≠ '/' := fun heq => h.no_slash (heq ▸ hc)
      simpa using hne
  simp [Text.split, hpieces]

/-- The components of a path are those before a slash and then those after it. -/
theorem resolve_of_toList (tree : FileTree) {path : String} {front back : List Char}
    (h : path.toList = front ++ '/' :: back) : tree.resolve path =
      ((Text.pieces (· == '/') back).map String.ofList).foldl enter
        (((Text.pieces (· == '/') front).map String.ofList).foldl enter
          (if (front ++ ['/']).head? = some '/' then [] else tree.workingDirectory)) := by
  have hhead : path.toList.head? = (front ++ ['/']).head? := by
    rw [h]
    cases front <;> rfl
  rw [resolve_eq, Text.split, hhead, h, Text.pieces_append (by simp), List.map_append,
    List.foldl_append]

/-- A plain name leads one step further into a directory. -/
theorem resolve_join (tree : FileTree) (directory : String) {name : String} (h : IsPlain name) :
    tree.resolve (Path.join directory name) = tree.resolve directory ++ [name] := by
  have hname : (Text.pieces (· == '/') name.toList).map String.ofList = [name] := split_of_isPlain h
  have hrelative : name.toList.head? ≠ some '/' := fun hhead =>
    h.no_slash (List.mem_of_mem_head? hhead)
  unfold Path.join
  split
  · -- There is no directory to start from.
    rename_i hwhole
    have hempty : directory = "" := by simpa [Path.isAbsolute, hrelative] using hwhole
    rw [hempty, resolve_eq, resolve_eq, if_neg hrelative, split_of_isPlain h]
    exact enter_of_isPlain h _
  · rename_i hpart
    have hdirectory : directory.toList ≠ [] := by
      intro hnil
      have hempty : directory = "" := String.toList_eq_nil_iff.1 hnil
      simp [hempty] at hpart
    split
    · -- The slash that ends the directory is the one before the name.
      rename_i hlast
      obtain ⟨front, hfront⟩ := List.getLast?_eq_some_iff.1 hlast
      have hjoined : (directory ++ name).toList = front ++ '/' :: name.toList := by
        rw [String.toList_append, hfront, List.append_assoc]
        rfl
      rw [resolve_of_toList tree hjoined, resolve_of_toList tree hfront, hname]
      exact enter_of_isPlain h _
    · have hjoined : (directory ++ "/" ++ name).toList =
          directory.toList ++ '/' :: name.toList := by
        simp [String.toList_append]
      have hhead : (directory.toList ++ ['/']).head? = directory.toList.head? := by
        obtain ⟨c, rest, hcons⟩ := List.exists_cons_of_ne_nil hdirectory
        rw [hcons]
        rfl
      rw [resolve_of_toList tree hjoined, hname, hhead]
      exact enter_of_isPlain h _

/-! ### What lies where -/

theorem lookup_filter (p : List String → Bool) (nodes : List (List String × FileNode))
    (components : List String) :
    (nodes.filter fun entry => p entry.1).lookup components =
      if p components then nodes.lookup components else none := by
  induction nodes with
  | nil => simp
  | cons entry rest ih =>
    obtain ⟨path, node⟩ := entry
    by_cases heq : components = path
    · subst heq
      by_cases hp : p components = true
      · simp [hp]
      · simp [hp, ih]
    · have hne : (components == path) = false := by simpa using heq
      by_cases hp : p path = true
      · simp [hp, List.lookup_cons, hne, ih]
      · simp [hp, List.lookup_cons, hne, ih]

/-- A node that is put somewhere lies there, and nothing else has changed. -/
theorem nodeAt_put (tree : FileTree) {place : List String} (hplace : place ≠ [])
    (node : FileNode) (components : List String) :
    (tree.put place node).nodeAt components =
      if components = place then some node else tree.nodeAt components := by
  have hlookup : (tree.put place node).nodes.lookup components =
      if components = place then some node else tree.nodes.lookup components := by
    rw [put, List.lookup_append, lookup_filter (fun path => decide (path ≠ place))]
    by_cases heq : components = place
    · simp [heq]
    · have hne : (components == place) = false := by simpa using heq
      simp [heq, List.lookup_cons, hne]
  unfold nodeAt
  rw [hlookup]
  -- The root is a directory whatever the entries are.
  by_cases hnil : components = []
  · simp [hnil, hplace.symm]
  · simp [hnil]

/-! ### Changes -/

/-- A tree differs from an earlier one at most in the places that satisfy `p`. -/
structure ChangesOnly (p : List String → Prop) (tree after : FileTree) : Prop where
  workingDirectory : after.workingDirectory = tree.workingDirectory
  nodeAt : ∀ components, ¬p components → after.nodeAt components = tree.nodeAt components

namespace ChangesOnly

variable {p q : List String → Prop} {tree next after : FileTree}

theorem refl (p : List String → Prop) (tree : FileTree) : ChangesOnly p tree tree :=
  ⟨rfl, fun _ _ => rfl⟩

theorem trans (h : ChangesOnly p tree next) (h' : ChangesOnly p next after) :
    ChangesOnly p tree after :=
  ⟨h'.workingDirectory.trans h.workingDirectory,
    fun components hp => (h'.nodeAt components hp).trans (h.nodeAt components hp)⟩

theorem mono (h : ChangesOnly p tree after) (hpq : ∀ components, p components → q components) :
    ChangesOnly q tree after :=
  ⟨h.workingDirectory, fun components hq => h.nodeAt components fun hp => hq (hpq components hp)⟩

/-- Paths still lead to the same places. -/
theorem resolve_eq (h : ChangesOnly p tree after) (path : String) :
    after.resolve path = tree.resolve path := by
  rw [FileTree.resolve_eq, FileTree.resolve_eq, h.workingDirectory]

theorem content?_eq (h : ChangesOnly p tree after) {path : String}
    (hpath : ¬p (tree.resolve path)) : after.content? path = tree.content? path := by
  rw [content?, content?, node?, node?, h.resolve_eq path, h.nodeAt _ hpath]

end ChangesOnly

theorem changesOnly_put (tree : FileTree) {place : List String} (hplace : place ≠ [])
    (node : FileNode) : ChangesOnly (· = place) tree (tree.put place node) := by
  refine ⟨rfl, fun components hne => ?_⟩
  rw [nodeAt_put tree hplace, if_neg hne]

/-- Removing a directory changes nothing outside it. -/
theorem changesOnly_removeTree (tree : FileTree) (path : String) :
    ChangesOnly (tree.resolve path <+: ·) tree (tree.removeTree path) := by
  unfold removeTree
  dsimp only
  split
  · refine ⟨rfl, fun components hout => ?_⟩
    have hp : (tree.resolve path).isPrefixOf components = false :=
      Bool.eq_false_iff.2 fun hprefix => hout (List.isPrefixOf_iff_prefix.1 hprefix)
    simp only [nodeAt, lookup_filter (fun path' => !(tree.resolve path).isPrefixOf path'), hp]
    simp
  · exact .refl _ tree

/-- Making a directory changes nothing but what it lies in. -/
theorem changesOnly_addDirectories (tree : FileTree) (directory : List String) :
    ChangesOnly (· <+: directory) tree (tree.addDirectories directory) := by
  unfold addDirectories
  refine List.foldlRecOn (motive := fun made : FileTree => ChangesOnly (· <+: directory) tree made)
    _ _ (.refl _ tree) fun made hmade count hcount => ?_
  dsimp only
  split
  · exact hmade
  · -- The root itself is never put.
    have hplace : directory.take (count + 1) ≠ [] := by
      have hlength := List.mem_range.1 hcount
      have hdirectory : directory ≠ [] := List.ne_nil_of_length_pos (Nat.zero_lt_of_lt hlength)
      simp [List.take_eq_nil_iff, hdirectory]
    refine hmade.trans ((changesOnly_put made hplace _).mono ?_)
    rintro _ rfl
    exact List.take_prefix _ _

/-- A file that can be written has its content afterwards, and nothing else has changed. -/
theorem changesOnly_writeFile {tree after : FileTree} {path : String} {content : ByteArray}
    (h : tree.writeFile path content = some after) :
    ChangesOnly (· = tree.resolve path) tree after ∧ after.content? path = some content := by
  unfold writeFile at h
  dsimp only at h
  split at h
  · cases h
  · rename_i hpath
    obtain ⟨hempty, hslash⟩ := not_or.1 hpath
    -- The root is a directory, which no file takes the place of.
    have hput (hplace : tree.resolve path ≠ []) (executable : Bool) :
        ChangesOnly (· = tree.resolve path) tree
            (tree.put (tree.resolve path) (.file content executable)) ∧
          (tree.put (tree.resolve path) (.file content executable)).content? path =
            some content := by
      have hchanges := changesOnly_put tree hplace (.file content executable)
      refine ⟨hchanges, ?_⟩
      rw [content?, node?, if_neg hempty, hchanges.resolve_eq, nodeAt_put tree hplace, if_pos rfl]
      simp [hslash]
    have hroot (hplace : tree.resolve path = []) : tree.nodeAt (tree.resolve path) =
        some .directory := by
      rw [hplace]
      rfl
    split at h
    · rename_i hnone
      cases h
      exact hput (fun hplace => by simp [hroot hplace] at hnone) false
    · rename_i executable _ hfile
      cases h
      exact hput (fun hplace => by simp [hroot hplace] at hfile) executable
    · cases h

/-! ### Programs that stay in a directory -/

/-- Whether a place is a directory, lies inside it or on the way to it. -/
def Around (directory components : List String) : Prop :=
  directory <+: components ∨ components <+: directory

/-- Whatever a program is run on, it changes nothing but a directory and the way to it. -/
def Confined {α : Type} (directory : String) (program : StateM FileTree α) : Prop :=
  ∀ tree : FileTree, ChangesOnly (Around (tree.resolve directory)) tree (program.run tree).2

theorem run_lift_bind {α β ε : Type} (program : StateM FileTree α)
    (next : α → ExceptT ε (StateM FileTree) β) (tree : FileTree) :
    (liftM program >>= next : ExceptT ε (StateM FileTree) β).run.run tree =
      (next (program.run tree).1).run.run (program.run tree).2 :=
  rfl

/-- Two steps that may fail have a value if the first has one, and the second has it where the
first ends. -/
theorem exists_of_run_bind {α β ε : Type} {program : ExceptT ε (StateM FileTree) α}
    {next : α → ExceptT ε (StateM FileTree) β} {tree after : FileTree} {value : β}
    (h : (program >>= next).run.run tree = (.ok value, after)) :
    ∃ first mid, program.run.run tree = (.ok first, mid) ∧
      (next first).run.run mid = (.ok value, after) := by
  have hrun : (program >>= next).run.run tree =
      (ExceptT.bindCont next (program.run.run tree).1).run (program.run.run tree).2 := rfl
  rw [hrun] at h
  generalize program.run.run tree = ran at h ⊢
  obtain ⟨outcome, mid⟩ := ran
  cases outcome with
  | ok first => exact ⟨first, mid, rfl, h⟩
  | error fault => cases h

/-! ### The machine of a tree -/

/-- A tool writes its output, which is the argument after a flag, and nothing else. -/
def Tools.KeepToOutput (tools : Tools) : Prop :=
  ∀ program flag output rest tree result after,
    tools program (flag :: output :: rest) tree = some (result, after) →
      ChangesOnly (· = tree.resolve output) tree after

variable {tools : Tools} {tree after : FileTree} {directory name : String}

theorem run_createDirectories (tools : Tools) (tree : FileTree) (path : String) :
    ((machine tools).createDirectories path).run tree =
      match tree.createDirectories path with
      | some made => (true, made)
      | none => (false, tree) := by
  simp only [machine, StateT.run_bind, StateT.run_get, pure_bind]
  cases tree.createDirectories path <;> rfl

theorem run_writeFile (tools : Tools) (tree : FileTree) (path content : String) :
    ((machine tools).writeFile path content).run tree =
      match tree.writeFile path content.toUTF8 with
      | some written => (true, written)
      | none => (false, tree) := by
  simp only [machine, StateT.run_bind, StateT.run_get, pure_bind]
  cases tree.writeFile path content.toUTF8 <;> rfl

theorem changesOnly_runTool (htools : tools.KeepToOutput) (program flag output : String)
    (rest : List String) (tree : FileTree) :
    ChangesOnly (· = tree.resolve output) tree
      (((machine tools).runTool program (flag :: output :: rest)).run tree).2 := by
  simp only [machine, StateT.run_bind, StateT.run_get, pure_bind]
  cases h : tools program (flag :: output :: rest) tree with
  | none => exact .refl _ tree
  | some outcome => exact htools program flag output rest tree outcome.1 outcome.2 h

/-- A place right inside a directory. -/
theorem around_of_eq {components : List String} (hname : IsPlain name)
    (h : components = tree.resolve (Path.join directory name)) :
    Around (tree.resolve directory) components := by
  rw [h, resolve_join tree directory hname]
  exact .inl (List.prefix_append _ _)

theorem confined_removeTree (tools : Tools) (directory : String) :
    Confined directory ((machine tools).removeTree directory) :=
  fun tree => (changesOnly_removeTree tree directory).mono fun _ => .inl

theorem confined_createDirectories (tools : Tools) (directory : String) :
    Confined directory ((machine tools).createDirectories directory) := by
  intro tree
  rw [run_createDirectories, createDirectories]
  split
  · rename_i made h
    split at h
    · cases h
    · cases h
      exact (changesOnly_addDirectories tree _).mono fun _ => .inr
  · exact .refl _ tree

theorem confined_writeFile (tools : Tools) (directory content : String) (hname : IsPlain name) :
    Confined directory ((machine tools).writeFile (Path.join directory name) content) := by
  intro tree
  rw [run_writeFile]
  split
  · rename_i written h
    exact (changesOnly_writeFile h).1.mono fun _ => around_of_eq hname
  · exact .refl _ tree

theorem confined_runTool (htools : tools.KeepToOutput) (program flag : String)
    (hname : IsPlain name) (rest : List String) :
    Confined directory
      ((machine tools).runTool program (flag :: Path.join directory name :: rest)) :=
  fun tree => (changesOnly_runTool htools program flag _ rest tree).mono fun _ => around_of_eq hname

/-! ### The files of a directory -/

/-- A directory has some files with their contents in it. -/
def Contains (tree : FileTree) (directory : String) (files : List (String × String)) : Prop :=
  ∀ file ∈ files, tree.content? (Path.join directory file.1) = some file.2.toUTF8

theorem Contains.of_changesOnly {p : List String → Prop} {files : List (String × String)}
    (hchanges : ChangesOnly p tree after)
    (hfiles : ∀ file ∈ files, ¬p (tree.resolve (Path.join directory file.1)))
    (h : tree.Contains directory files) : after.Contains directory files := by
  intro file hfile
  rw [hchanges.content?_eq (hfiles file hfile)]
  exact h file hfile

/-- A file of a directory has one content. -/
theorem Contains.content_eq {files others : List (String × String)} {content other : String}
    (h : tree.Contains directory files) (h' : tree.Contains directory others)
    (hfile : (name, content) ∈ files) (hother : (name, other) ∈ others) : content = other := by
  have heq : some content.toUTF8 = some other.toUTF8 := (h _ hfile).symm.trans (h' _ hother)
  exact String.toByteArray_inj.1 (Option.some.inj heq)

/-- What happens in one directory leaves the files of another one alone. -/
theorem Contains.of_confined {α : Type} {out other : String} {files : List (String × String)}
    {program : StateM FileTree α} (hprogram : Confined (Path.join out other) program)
    (hname : IsPlain name) (hother : IsPlain other) (hne : name ≠ other)
    (hfiles : ∀ file ∈ files, IsPlain file.1) (h : tree.Contains (Path.join out name) files) :
    (program.run tree).2.Contains (Path.join out name) files := by
  refine h.of_changesOnly (hprogram tree) fun file hfile => ?_
  rw [resolve_join tree _ (hfiles file hfile), resolve_join tree out hname,
    resolve_join tree out hother, List.append_assoc]
  rintro (hinside | houtside)
  · rw [List.prefix_append_right_inj] at hinside
    exact hne (List.cons_prefix_cons.1 hinside).1.symm
  · simpa using houtside.length_le

end FileTree

end TypeEnforcement
