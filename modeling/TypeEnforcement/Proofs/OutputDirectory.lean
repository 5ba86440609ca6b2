/-
The directory of a build.

What a build asks a machine for is settled by its modules.  It is about paths that lead from the
directory of the build through names without slashes, none of which is a step up or no step.  So
nothing outside that directory is touched; the directories on the way to it are made if they are
missing.

* `Build.requests` — what a build can ask for;
* `FileTree.LiesBelow`, `Request.StaysBelow` — paths and requests below a directory;
* `FileTree.ChangesInside` — a tree has changed in a directory only, or on the way to it;
* `Machine.Records`, `Machine.recorded` — machines that note what they are asked for.

Main statements:
* `LiesBelow.resolve_eq` — a path below a directory leads into it;
* `isPlain_moduleNames_of_check` — the names of the modules of a project that is accepted;
* `respects_runWith` — a build leads along every relation that its requests lead along;
* `staysBelow_of_mem_requests` — the requests of a build stay below its directory;
* `stays_below_output` — what a build asks for, and what it changes.
-/
import TypeEnforcement.Proofs.Outcomes
import TypeEnforcement.Proofs.Requests

namespace TypeEnforcement

open Assembly (twoDirectories creator fileCatalog)
open FileTree (IsPlain ChangesOnly MadeTo resolve_join)

variable {σ α γ : Type}

/-! ### The requests of a build -/

namespace Build

/-- What the modules of a project can ask for, those that are left out and those that are written.
-/
def requests (settings : Settings) (project : Project) (out : String) (assembly : Assembly) :
    List Request :=
  (assembly.failures.map fun failure => .removeTree (Path.join out failure.1)) ++
    assembly.modules.flatMap fun m =>
      moduleRequests settings.tools project.relabelList (Path.join out m.name) m

/-- A build leads along a relation if all that its modules can ask for does. -/
theorem respects_runWith {machine : Machine (StateM σ)} {view : σ → γ} {p : Request → Prop}
    {R : γ → γ → Prop} (hmoves : machine.Moves view p R) (settings : Settings) (project : Project)
    (catalog : Catalog) (out : String) (h : ∀ own assembly,
      (Assembly.ofProject project catalog own settings.fallbackDomain).result = .ok assembly →
        ∀ request ∈ requests settings project out assembly, p request) :
    Respects view R (runWith machine settings project catalog out) := by
  unfold runWith
  have hown := Respects.of_keeps hmoves (keeps_ownModules_of_reads hmoves.reads settings project)
  refine .bind hmoves hown fun own => ?_
  dsimp only
  cases hassembled : (Assembly.ofProject project catalog own settings.fallbackDomain).result with
  | error fault => exact .pure hmoves _
  | ok assembly =>
    have hall := h own assembly hassembled
    simp only [requests, List.forall_mem_append, List.forall_mem_map, List.forall_mem_flatMap]
      at hall
    obtain ⟨hfailures, hmodules⟩ := hall
    refine .bind hmoves (.forM hmoves fun failure hfailure => ?_) fun _ => ?_
    · exact respects_removeTree hmoves (hfailures failure hfailure)
    · refine .bind hmoves (.foldlM hmoves (fun m hm state => ?_) _) fun _ => .pure hmoves _
      exact respects_addModule hmoves (hmodules m hm) state

end Build

/-! ### Below a directory -/

namespace FileTree

/-- A path leads from a directory through some names, each of them one component. -/
def LiesBelow (out path : String) : Prop :=
  ∃ names, names ≠ [] ∧ (∀ name ∈ names, IsPlain name) ∧ path = Path.joinAll out names

variable {out path name : String} {tree next after : FileTree}

theorem liesBelow_join (out : String) (h : IsPlain name) : LiesBelow out (Path.join out name) :=
  ⟨[name], List.cons_ne_nil _ _, List.forall_mem_singleton.2 h, rfl⟩

theorem LiesBelow.join (h : LiesBelow out path) (hname : IsPlain name) :
    LiesBelow out (Path.join path name) := by
  obtain ⟨names, -, hplain, rfl⟩ := h
  refine ⟨names ++ [name], by simp,
    List.forall_mem_append.2 ⟨hplain, List.forall_mem_singleton.2 hname⟩, ?_⟩
  rw [Path.joinAll, Path.joinAll, List.foldl_append, List.foldl_cons, List.foldl_nil]

/-- In every tree a path below a directory leads into that directory, and further. -/
theorem LiesBelow.resolve_eq (h : LiesBelow out path) (tree : FileTree) :
    ∃ names, names ≠ [] ∧ tree.resolve path = tree.resolve out ++ names := by
  obtain ⟨names, hne, hplain, rfl⟩ := h
  refine ⟨names, hne, ?_⟩
  clear hne
  induction names generalizing out with
  | nil => rw [List.append_nil, Path.joinAll, List.foldl_nil]
  | cons name rest ih =>
    obtain ⟨hname, hrest⟩ := List.forall_mem_cons.1 hplain
    have hjoin : tree.resolve (Path.joinAll (Path.join out name) rest) =
        tree.resolve (Path.join out name) ++ rest := ih hrest
    rw [resolve_join tree out hname, List.append_assoc] at hjoin
    exact hjoin

/-- A place inside a directory, and not the directory itself. -/
def Inside (directory components : List String) : Prop :=
  directory <+: components ∧ components ≠ directory

theorem inside_append {directory names : List String} (h : names ≠ []) (rest : List String) :
    Inside directory (directory ++ names ++ rest) := by
  refine ⟨⟨names ++ rest, (List.append_assoc _ _ _).symm⟩, fun heq => h ?_⟩
  rw [List.append_assoc, List.append_right_eq_self, List.append_eq_nil_iff] at heq
  exact heq.1

theorem LiesBelow.inside_resolve (h : LiesBelow out path) (tree : FileTree) :
    Inside (tree.resolve out) (tree.resolve path) := by
  obtain ⟨names, hne, hplace⟩ := h.resolve_eq tree
  rw [hplace, ← List.append_nil (_ ++ _)]
  exact inside_append hne []

/-- Nothing has changed but what lies inside a directory, and directories that were missing on the
way to it. -/
structure ChangesInside (directory : List String) (tree after : FileTree) : Prop where
  workingDirectory : after.workingDirectory = tree.workingDirectory
  nodeAt : ∀ components, after.nodeAt components = tree.nodeAt components ∨
    Inside directory components ∨
    components <+: directory ∧ tree.nodeAt components = none ∧
      after.nodeAt components = some .directory

namespace ChangesInside

variable {directory : List String}

theorem of_changesOnly (h : ChangesOnly (Inside directory) tree after) :
    ChangesInside directory tree after := by
  refine ⟨h.workingDirectory, fun components => ?_⟩
  by_cases hinside : Inside directory components
  · exact .inr (.inl hinside)
  · exact .inl (h.nodeAt components hinside)

theorem refl (directory : List String) (tree : FileTree) : ChangesInside directory tree tree :=
  .of_changesOnly (.refl _ tree)

theorem trans (h : ChangesInside directory tree next) (h' : ChangesInside directory next after) :
    ChangesInside directory tree after := by
  refine ⟨h'.workingDirectory.trans h.workingDirectory, fun components => ?_⟩
  rcases h'.nodeAt components with hkept | hinside | ⟨hway, hnone, hmade⟩
  · rw [hkept]
    exact h.nodeAt components
  · exact .inr (.inl hinside)
  · rcases h.nodeAt components with hkept | hinside | ⟨-, -, hbefore⟩
    · exact .inr (.inr ⟨hway, hkept ▸ hnone, hmade⟩)
    · exact .inr (.inl hinside)
    · -- What has been made is not made again.
      cases hbefore.symm.trans hnone

/-- Making a directory inside another one makes what is missing on the way to that one, too. -/
theorem of_madeTo {place : List String} (hplace : Inside directory place)
    (h : MadeTo place tree after) : ChangesInside directory tree after := by
  refine ⟨h.workingDirectory, fun components => ?_⟩
  rcases h.nodeAt components with hkept | ⟨hway, hnone, hmade⟩
  · exact .inl hkept
  · rcases List.prefix_or_prefix_of_prefix hway hplace.1 with habove | hbelow
    · exact .inr (.inr ⟨habove, hnone, hmade⟩)
    · by_cases heq : components = directory
      · exact .inr (.inr ⟨heq ▸ List.prefix_rfl, hnone, hmade⟩)
      · exact .inr (.inl ⟨hbelow, heq⟩)

end ChangesInside

end FileTree

open FileTree (LiesBelow Inside ChangesInside)

/-- The flags that tools are given. -/
def Build.toolFlags : List String :=
  ["-mMo", "-o", "-m", "-f"]

/-- A tool works on a module below a directory: it is given the compiled module, and besides flags
nothing but paths below the directory. -/
structure Build.WorksBelow (out : String) (arguments : List String) : Prop where
  compiled : ∃ directory name, LiesBelow out directory ∧ ModuleName.check name = .ok () ∧
    modulePath directory name ".mod" ∈ arguments
  below : ∀ argument ∈ arguments, argument ∈ toolFlags ∨ LiesBelow out argument

/-- A request is about paths below a directory. -/
def Request.StaysBelow (out : String) : Request → Prop
  | .makeDirectories path => LiesBelow out path
  | .writeFile path _ => LiesBelow out path
  | .removeTree path => LiesBelow out path
  | .runTool _ arguments => Build.WorksBelow out arguments

/-! ### The modules of a project -/

/-- Directories may be named after the modules of a project that is accepted. -/
theorem isPlain_moduleNames_of_check {project : Project} (h : project.check = .ok ()) :
    ∀ name ∈ project.moduleNames, IsPlain name := by
  obtain ⟨hname, -⟩ := Project.check_cases h
  refine List.forall_mem_cons.2 ⟨?_, fun name hmem => ?_⟩
  · unfold Project.baseName
    split
    · exact isPlain_name hname
    · exact isPlain_of_check hname (by decide)
  · split at hmem
    · cases hmem
    · obtain ⟨spec, -, rfl⟩ := List.mem_map.1 hmem
      rw [Project.specName, String.append_assoc]
      refine isPlain_of_check hname ?_
      rw [String.toList_append, List.mem_append, not_or]
      exact ⟨by decide, spec.slash_not_mem_stem⟩

/-- The modules of a project, and those that are left out, have names that directories may have. -/
theorem Assembly.isPlain_names {project : Project} {catalog : Catalog}
    {own : Except Fault (List Installed)} {fallbackDomain : String} {assembly : Assembly}
    (h : (ofProject project catalog own fallbackDomain).result = .ok assembly) :
    ∀ name ∈ assembly.failures.map Prod.fst ++ assembly.modules.map PolicyModule.name,
      IsPlain name :=
  fun _ hname => isPlain_moduleNames h _ ((perm_names_of_ofProject h).subset hname)

namespace Build

variable {out directory : String}

theorem worksBelow_of_mem_packageRequests {tools : ToolSettings} {name : String}
    (hdirectory : LiesBelow out directory) (hname : ModuleName.check name = .ok ()) :
    ∀ request ∈ packageRequests tools directory name, request.StaysBelow out := by
  have hpath (extension : String) (hextension : '/' ∉ extension.toList) :
      LiesBelow out (modulePath directory name extension) :=
    hdirectory.join (isPlain_of_check hname hextension)
  have hmod := hpath ".mod" (by decide)
  have hte := hpath ".te" (by decide)
  have hpp := hpath ".pp" (by decide)
  have hfc := hpath ".fc" (by decide)
  refine List.forall_mem_cons.2 ⟨⟨⟨directory, name, hdirectory, hname, by simp⟩, ?_⟩,
    List.forall_mem_singleton.2 ⟨⟨directory, name, hdirectory, hname, by simp⟩, ?_⟩⟩
  · simp only [List.forall_mem_cons]
    exact ⟨.inl (by decide), .inr hmod, .inr hte, List.forall_mem_nil _⟩
  · simp only [List.forall_mem_cons]
    exact ⟨.inl (by decide), .inr hpp, .inl (by decide), .inr hmod, .inl (by decide), .inr hfc,
      List.forall_mem_nil _⟩

theorem staysBelow_of_mem_moduleRequests {tools : ToolSettings} {relabelList : List String}
    {built : PolicyModule} (hdirectory : LiesBelow out directory)
    (hname : ModuleName.check built.name = .ok ()) :
    ∀ request ∈ moduleRequests tools relabelList directory built, request.StaysBelow out := by
  simp only [moduleRequests, List.forall_mem_append, List.forall_mem_cons, List.forall_mem_map]
  refine ⟨⟨⟨hdirectory, hdirectory, List.forall_mem_nil _⟩, fun file hfile => ?_⟩, ?_⟩
  · exact hdirectory.join (isPlain_artifacts relabelList hname file hfile)
  · split
    · exact worksBelow_of_mem_packageRequests hdirectory hname
    · exact List.forall_mem_nil _

/-- All that a build can ask for is about paths below its directory. -/
theorem staysBelow_of_mem_requests {settings : Settings} {project : Project} {catalog : Catalog}
    {own : Except Fault (List Installed)} {assembly : Assembly}
    (h : (Assembly.ofProject project catalog own settings.fallbackDomain).result = .ok assembly) :
    ∀ request ∈ requests settings project out assembly, request.StaysBelow out := by
  obtain ⟨hfailures, hmodules⟩ := List.forall_mem_append.1 (Assembly.isPlain_names h)
  simp only [requests, List.forall_mem_append, List.forall_mem_map, List.forall_mem_flatMap]
  refine ⟨fun failure hfailure => ?_, fun m hm => ?_⟩
  · exact FileTree.liesBelow_join out (hfailures _ (List.mem_map_of_mem hfailure))
  · exact staysBelow_of_mem_moduleRequests
      (FileTree.liesBelow_join out (hmodules _ (List.mem_map_of_mem hm)))
      (Assembly.check_name_of_ofProject h m hm)

end Build

/-! ### Machines that note their requests -/

/-- The state of a machine has a list of what it was asked for. -/
structure Machine.Records (machine : Machine (StateM σ)) (log : σ → List Request) : Prop where
  reads : machine.Reads log
  request : ∀ request state, log (machine.after request state) = log state ++ [request]

namespace Machine

/-- A program that runs beside a list of requests. -/
def beside (program : StateM σ α) : StateM (σ × List Request) α := fun state =>
  let ran := program.run state.1
  (ran.1, ran.2, state.2)

/-- A program that notes a request. -/
def noting (request : Request) (program : StateM σ α) : StateM (σ × List Request) α := fun state =>
  let ran := program.run state.1
  (ran.1, ran.2, state.2 ++ [request])

/-- A machine that does what another one does, and notes what it was asked for. -/
def recorded (machine : Machine (StateM σ)) : Machine (StateM (σ × List Request)) where
  readFile path := beside (machine.readFile path)
  listDirectory path := beside (machine.listDirectory path)
  isDirectory path := beside (machine.isDirectory path)
  isFile path := beside (machine.isFile path)
  pathExists path := beside (machine.pathExists path)
  createDirectories path := noting (.makeDirectories path) (machine.createDirectories path)
  writeFile path content := noting (.writeFile path content) (machine.writeFile path content)
  removeTree path := noting (.removeTree path) (machine.removeTree path)
  runTool program arguments :=
    noting (.runTool program arguments) (machine.runTool program arguments)

theorem records_recorded (machine : Machine (StateM σ)) : machine.recorded.Records Prod.snd where
  reads := ⟨fun _ _ => rfl, fun _ _ => rfl, fun _ _ => rfl⟩
  request request _ := by cases request <;> rfl

theorem Obeys.recorded {machine : Machine (StateM σ)} {files : σ → FileTree}
    (h : machine.Obeys files) : machine.recorded.Obeys fun state => files state.1 where
  readFile path state := h.readFile path state.1
  listDirectory path state := h.listDirectory path state.1
  isDirectory path state := h.isDirectory path state.1
  createDirectories path state := h.createDirectories path state.1
  writeFile path content state := h.writeFile path content state.1
  removeTree path state := h.removeTree path state.1
  runTool tool arguments directory name state := h.runTool tool arguments directory name state.1

end Machine

/-- A list of requests has grown by requests below a directory. -/
def Request.GrowsBelow (out : String) (before after : List Request) : Prop :=
  ∃ more, after = before ++ more ∧ ∀ request ∈ more, request.StaysBelow out

theorem Machine.Records.moves {machine : Machine (StateM σ)} {log : σ → List Request}
    (h : machine.Records log) (out : String) :
    machine.Moves log (Request.StaysBelow out) (Request.GrowsBelow out) where
  reads := h.reads
  refl before := ⟨[], (List.append_nil before).symm, List.forall_mem_nil _⟩
  trans := by
    rintro before _ _ ⟨first, rfl, hfirst⟩ ⟨second, rfl, hsecond⟩
    exact ⟨first ++ second, List.append_assoc _ _ _, List.forall_mem_append.2 ⟨hfirst, hsecond⟩⟩
  request request hrequest state :=
    ⟨[request], h.request request state, List.forall_mem_singleton.2 hrequest⟩

/-- Requests below a directory change nothing outside it. -/
theorem Machine.Obeys.moves {machine : Machine (StateM σ)} {files : σ → FileTree}
    (h : machine.Obeys files) (out : String) :
    machine.Moves files (Request.StaysBelow out)
      fun tree after => ChangesInside (tree.resolve out) tree after where
  reads := h.reads
  refl tree := .refl _ tree
  trans {tree next after} hfirst hsecond := by
    have hplace : next.resolve out = tree.resolve out := by
      rw [FileTree.resolve_eq, FileTree.resolve_eq, hfirst.workingDirectory]
    exact hfirst.trans (hplace ▸ hsecond)
  request request hrequest state := by
    cases request with
    | makeDirectories path =>
      have hpath : LiesBelow out path := hrequest
      exact .of_madeTo (hpath.inside_resolve _) (h.createDirectories path state).1
    | writeFile path content =>
      have hpath : LiesBelow out path := hrequest
      refine .of_changesOnly ((h.writeFile path content state).1.mono ?_)
      rintro _ rfl
      exact hpath.inside_resolve _
    | removeTree path =>
      have hpath : LiesBelow out path := hrequest
      have hremoved : files (machine.after (.removeTree path) state) =
          (files state).removeTree path := h.removeTree path state
      rw [hremoved]
      refine .of_changesOnly ((FileTree.changesOnly_removeTree (files state) path).mono ?_)
      rintro _ ⟨rest, rfl⟩
      obtain ⟨names, hne, hplace⟩ := hpath.resolve_eq (files state)
      rw [hplace]
      exact FileTree.inside_append hne rest
    | runTool program arguments =>
      have hworks : Build.WorksBelow out arguments := hrequest
      obtain ⟨directory, name, hdirectory, hname, hcompiled⟩ := hworks.compiled
      have hchanges := h.runTool program arguments directory name state hcompiled
      refine .of_changesOnly (hchanges.mono ?_)
      rintro _ ⟨extension, hextension, rfl⟩
      have hslash : ∀ extension ∈ [".mod", ".pp"], '/' ∉ extension.toList := by decide
      have hpath : LiesBelow out (Build.modulePath directory name extension) :=
        hdirectory.join (isPlain_of_check hname (hslash extension hextension))
      exact hpath.inside_resolve _

namespace Build

/-- What a build does outside its directory: nothing but to make what is missing on the way to it.
The names of the modules of a project that is accepted, and of those that are assembled or have
failed, are not empty, have no slash, and are no steps to the same directory or up.  So all that a
machine is asked to make, to write, to remove or to run tools on is about paths that lead from the
directory of the build through such names; and what has changed in the end lies inside that
directory. -/
theorem stays_below_output {machine : Machine (StateM σ)} {files : σ → FileTree}
    {log : σ → List Request} (hmachine : machine.Obeys files) (hlog : machine.Records log)
    (settings : Settings) (project : Project) (catalog : Catalog) (out : String) (state : σ) :
    let ran := (runWith machine settings project catalog out).run state
    (project.check = .ok () → ∀ name ∈ project.moduleNames, IsPlain name) ∧
    (∀ own fallbackDomain assembly,
      (Assembly.ofProject project catalog own fallbackDomain).result = .ok assembly →
        (assembly.failures.map Prod.fst ++ assembly.modules.map PolicyModule.name).Perm
            project.moduleNames ∧
          ∀ name ∈ assembly.failures.map Prod.fst ++ assembly.modules.map PolicyModule.name,
            IsPlain name) ∧
    (∃ more, log ran.2 = log state ++ more ∧ ∀ request ∈ more, request.StaysBelow out) ∧
    ∀ components, (files ran.2).nodeAt components = (files state).nodeAt components ∨
      Inside ((files state).resolve out) components ∨
      components <+: (files state).resolve out ∧ (files state).nodeAt components = none ∧
        (files ran.2).nodeAt components = some .directory := by
  intro ran
  refine ⟨isPlain_moduleNames_of_check, fun own fallbackDomain assembly h => ?_, ?_, ?_⟩
  · exact ⟨Assembly.perm_names_of_ofProject h, Assembly.isPlain_names h⟩
  · exact respects_runWith (hlog.moves out) settings project catalog out
      (fun _ _ h => staysBelow_of_mem_requests h) state
  · have hchanges := respects_runWith (hmachine.moves out) settings project catalog out
      (fun _ _ h => staysBelow_of_mem_requests h) state
    exact hchanges.nodeAt

/-- Two specs whose names lead up and to another directory; the stem of the second one is no part of
the name of a module. -/
def strangeSpecs : Project :=
  twoDirectories [creator "a/.." ["/a/x"], creator "../x y.json" ["/a/x"]]

/-- A file of the first module cannot be written, and the name of the last module is refused; their
directories are removed, and nothing else. -/
theorem strangeSpecs_stays_below_output :
    strangeSpecs.check = .ok () ∧
    strangeSpecs.moduleNames = ["demo_public", "demo_.", "demo_x y"] ∧
    (∀ name ∈ strangeSpecs.moduleNames, IsPlain name) ∧
    ∃ assembly more tree,
      (Assembly.ofProject strangeSpecs fileCatalog (.ok []) "unconfined_t").result = .ok assembly ∧
      assembly.failures.map Prod.fst = ["demo_x y"] ∧
      assembly.modules.map PolicyModule.name = ["demo_public", "demo_."] ∧
      ((runWith (FileTree.spoilingMachine (idleTools "")
        (· = "/out/demo_public/config")).recorded withoutStore strangeSpecs fileCatalog "/out").run
          ({}, [])).2 = (tree, more) ∧
      (∀ request ∈ more, request.StaysBelow "/out") ∧
      tree.nodeAt ["a"] = none := by
  have hcheck : strangeSpecs.check = .ok () := by decide +kernel
  have hanswer : (Assembly.ofProject strangeSpecs fileCatalog (.ok [])
      "unconfined_t").result.toOption.any fun assembly =>
        assembly.failures.map Prod.fst = ["demo_x y"] ∧
        assembly.modules.map PolicyModule.name = ["demo_public", "demo_."] := by
    decide +kernel
  obtain ⟨assembly, hassembly, hfailures, hmodules⟩ := exists_of_any_toOption hanswer
  have hmachine := FileTree.obeys_spoilingMachine (keepToModules_idleTools "")
    (· = "/out/demo_public/config")
  obtain ⟨hnames, -, ⟨more, hlog, hmore⟩, htree⟩ := stays_below_output hmachine.recorded
    (Machine.records_recorded _) withoutStore strangeSpecs fileCatalog "/out" ({}, [])
  refine ⟨hcheck, rfl, hnames hcheck, assembly, more, _, hassembly, hfailures, hmodules,
    Prod.ext rfl hlog, hmore, ?_⟩
  -- There was nothing at this place, which is not inside the directory of the build.
  rcases htree ["a"] with hkept | ⟨hinside, -⟩ | ⟨hway, -⟩
  · exact hkept.trans rfl
  · exact absurd hinside (by decide)
  · exact absurd hway (by decide)

end Build

end TypeEnforcement
