/-
The directories of the modules of a build.

Each module is written into a directory that is named after it, in place of what was there.  Modules
with different names do not meet: what happens to one of them leaves the files of the others alone.

* `Build.IsDelivered` — a module has failed, or its files are in its directory.

Main statements:
* `confined_addModule` — what happens to a module stays in its directory;
* `contains_of_writeModule` — a module that is written has its files in its directory;
* `isDelivered_of_foldlM` — modules with different names all get what they are due;
* `modules_apart` — when the names of the modules of a project differ, and what follows for a build.
-/
import TypeEnforcement.Build
import TypeEnforcement.Proofs.Ambiguity
import TypeEnforcement.Proofs.ModuleNames
import TypeEnforcement.Proofs.Requests

namespace TypeEnforcement

open Assembly (twoDirectories creator fileCatalog)
open FileTree (IsPlain ChangesOnly Around Confined Tools exists_of_run_bind resolve_join)

namespace Build

/-! ### The steps that write a module -/

/-- Make a directory. -/
def makeDirectory {m : Type → Type} [Monad m] (machine : Machine m) (path : String) :
    ExceptT Fault m Unit := do
  if !(← machine.createDirectories path) then throw (.io path)

theorem writeModule_eq {m : Type → Type} [Monad m] [LawfulMonad m] (machine : Machine m)
    (tools : ToolSettings) (relabelList : List String) (directory : String)
    (built : PolicyModule) : writeModule machine tools relabelList directory built = (do
      machine.removeTree directory
      makeDirectory machine directory
      (artifacts relabelList built).forM fun file =>
        writeFile machine (Path.join directory file.1) file.2
      (if tools.enabled then packageModule machine tools directory built.name else pure ())
      pure tools.enabled) := by
  unfold writeModule makeDirectory
  refine bind_congr fun _ => ?_
  rw [bind_assoc]
  refine bind_congr fun made => ?_
  cases made <;> cases tools.enabled <;> simp

variable {tools : Tools} {tree after : FileTree} {directory name out : String}
  {toolSettings : ToolSettings} {relabelList : List String}

/-- Running a tool does to the tree what the machine does, whatever is made of the result. -/
theorem snd_runTool (tools : Tools) (tool : String) (arguments : List String) (tree : FileTree) :
    ((runTool (FileTree.machine tools) tool arguments).run.run tree).2 =
      (((FileTree.machine tools).runTool tool arguments).run tree).2 := by
  rw [runTool, FileTree.run_lift_bind]
  cases (((FileTree.machine tools).runTool tool arguments).run tree).1 with
  | none => rfl
  | some result =>
    dsimp only
    split <;> rfl

/-! ### The files of a module -/

theorem isPlain_modulePath (hname : ModuleName.check name = .ok ()) :
    IsPlain (name ++ ".mod") ∧ IsPlain (name ++ ".pp") :=
  ⟨isPlain_of_check hname (by decide), isPlain_of_check hname (by decide)⟩

theorem isPlain_artifacts (relabelList : List String) {built : PolicyModule}
    (hname : ModuleName.check built.name = .ok ()) :
    ∀ file ∈ artifacts relabelList built, IsPlain file.1 := by
  simp only [artifacts, List.forall_mem_cons]
  exact ⟨isPlain_of_check hname (by decide), isPlain_of_check hname (by decide),
    FileTree.isPlain_of_toList rfl (by decide) (by decide),
    FileTree.isPlain_of_toList rfl (by decide) (by decide),
    FileTree.isPlain_of_toList rfl (by decide) (by decide), by simp⟩

/-- The files of a module and those that its tools make all have different names. -/
theorem nodup_files (relabelList : List String) (built : PolicyModule) :
    ((artifacts relabelList built).map Prod.fst ++
      [built.name ++ ".mod", built.name ++ ".pp"]).Nodup := by
  -- The last characters of the names tell them apart.
  refine List.Nodup.of_map (fun text : String => text.toList.getLast?) ?_
  simp [artifacts, String.toList_append, List.getLast?_append]

theorem ne_of_nodup_files {relabelList : List String} {built : PolicyModule}
    {file : String × String} (hfile : file ∈ artifacts relabelList built) :
    file.1 ≠ built.name ++ ".mod" ∧ file.1 ≠ built.name ++ ".pp" := by
  obtain ⟨-, -, hapart⟩ := List.nodup_append.1 (nodup_files relabelList built)
  have hname := List.mem_map_of_mem (f := Prod.fst) hfile
  exact ⟨hapart _ hname _ (by simp), hapart _ hname _ (by simp)⟩

/-! ### What stays in the directory of a module -/

/-- Whatever is asked for to write a module stays in its directory. -/
theorem moves_machine (htools : tools.KeepToOutput) (toolSettings : ToolSettings)
    (relabelList : List String) (directory : String) {built : PolicyModule}
    (hname : ModuleName.check built.name = .ok ()) :
    (FileTree.machine tools).Moves id (· ∈ moduleRequests toolSettings relabelList directory built)
      fun tree after => ChangesOnly (Around (tree.resolve directory)) tree after where
  reads := ⟨fun _ _ => rfl, fun _ _ => rfl, fun _ _ => rfl⟩
  refl tree := .refl _ tree
  trans hfirst hsecond := by
    rw [hfirst.resolve_eq directory] at hsecond
    exact hfirst.trans hsecond
  request := by
    have hplain := isPlain_artifacts relabelList hname
    obtain ⟨hcompiled, hpackaged⟩ := isPlain_modulePath hname
    simp only [moduleRequests, List.forall_mem_append, List.forall_mem_cons, List.forall_mem_map]
    refine ⟨⟨⟨?_, ?_, List.forall_mem_nil _⟩, fun file hfile => ?_⟩, ?_⟩
    · exact FileTree.confined_removeTree tools directory
    · exact FileTree.confined_createDirectories tools directory
    · exact FileTree.confined_writeFile tools directory file.2 (hplain file hfile)
    · split
      · simp only [packageRequests, List.forall_mem_cons]
        exact ⟨FileTree.confined_runTool htools _ _ hcompiled _,
          FileTree.confined_runTool htools _ _ hpackaged _, List.forall_mem_nil _⟩
      · exact List.forall_mem_nil _

/-- What happens to a module changes nothing outside its directory. -/
theorem confined_addModule (htools : tools.KeepToOutput) (toolSettings : ToolSettings)
    (relabelList : List String) (origin out : String) (state : List Diagnostic × BuildReport)
    {built : PolicyModule} (hname : ModuleName.check built.name = .ok ()) :
    Confined (Path.join out built.name)
      (addModule (FileTree.machine tools) toolSettings relabelList origin out state built) :=
  respects_addModule (moves_machine htools toolSettings relabelList _ hname)
    (fun _ hrequest => hrequest) state

/-! ### What a module that is written has -/

theorem writeFile_eq_some {path content : String}
    (h : (writeFile (FileTree.machine tools) path content).run.run tree = (.ok (), after)) :
    tree.writeFile path content.toUTF8 = some after := by
  rw [writeFile, FileTree.run_lift_bind, FileTree.run_writeFile] at h
  cases hwritten : tree.writeFile path content.toUTF8 with
  | none =>
    rw [hwritten] at h
    cases h
  | some written =>
    rw [hwritten] at h
    cases h
    rfl

/-- Files with different names that are written one after another are all there in the end. -/
theorem contains_of_forM {files : List (String × String)}
    (hplain : ∀ file ∈ files, IsPlain file.1) (hnames : (files.map Prod.fst).Nodup)
    (h : (files.forM fun file => writeFile (FileTree.machine tools)
      (Path.join directory file.1) file.2).run.run tree = (.ok (), after)) :
    ChangesOnly (fun components => ∃ file ∈ files,
        components = tree.resolve directory ++ [file.1]) tree after ∧
      after.Contains directory files := by
  induction files generalizing tree with
  | nil =>
    cases h
    exact ⟨.refl _ _, fun _ hfile => absurd hfile List.not_mem_nil⟩
  | cons file rest ih =>
    obtain ⟨hfile, hrest⟩ := List.forall_mem_cons.1 hplain
    obtain ⟨hnew, hothers⟩ := List.nodup_cons.1 hnames
    obtain ⟨_, next, hwritten, h⟩ := exists_of_run_bind h
    obtain ⟨hfirst, hcontent⟩ := FileTree.changesOnly_writeFile (writeFile_eq_some hwritten)
    obtain ⟨hlater, hcontains⟩ := ih hrest hothers h
    rw [hfirst.resolve_eq] at hlater
    have hplace := resolve_join tree directory hfile
    constructor
    · refine (hfirst.mono fun components hc => ?_).trans (hlater.mono ?_)
      · exact ⟨file, List.mem_cons_self, hc.trans hplace⟩
      · rintro components ⟨other, hother, hc⟩
        exact ⟨other, List.mem_cons_of_mem _ hother, hc⟩
    · refine List.forall_mem_cons.2 ⟨?_, hcontains⟩
      rw [hlater.content?_eq, hcontent]
      -- The files that are written later have other names.
      rintro ⟨other, hother, hc⟩
      rw [hfirst.resolve_eq, hplace, List.append_cancel_left_eq] at hc
      have hsame : file.1 = other.1 := (List.cons.inj hc).1
      exact hnew (hsame ▸ List.mem_map_of_mem hother)

theorem changesOnly_runTool (htools : tools.KeepToOutput) {tool flag output : String}
    {rest : List String} {outcome : Except Fault Unit}
    (h : (runTool (FileTree.machine tools) tool (flag :: output :: rest)).run.run tree =
      (outcome, after)) : ChangesOnly (· = tree.resolve output) tree after := by
  have hchanges := FileTree.changesOnly_runTool htools tool flag output rest tree
  rwa [← snd_runTool, h] at hchanges

/-- The tools that package a module leave the files that were written alone. -/
theorem changesOnly_packageModule (htools : tools.KeepToOutput)
    (hname : ModuleName.check name = .ok ())
    (h : (packageModule (FileTree.machine tools) toolSettings directory name).run.run tree =
      (.ok (), after)) :
    ChangesOnly (fun components => components = tree.resolve directory ++ [name ++ ".mod"] ∨
      components = tree.resolve directory ++ [name ++ ".pp"]) tree after := by
  obtain ⟨hcompiled, hpackaged⟩ := isPlain_modulePath hname
  obtain ⟨_, next, hcompile, hpackage⟩ := exists_of_run_bind h
  have hfirst := changesOnly_runTool htools hcompile
  have hsecond := changesOnly_runTool htools hpackage
  rw [hfirst.resolve_eq, modulePath, resolve_join tree directory hpackaged] at hsecond
  rw [modulePath, resolve_join tree directory hcompiled] at hfirst
  exact (hfirst.mono fun _ => .inl).trans (hsecond.mono fun _ => .inr)

/-- A module that is written has its files in its directory. -/
theorem contains_of_writeModule (htools : tools.KeepToOutput) {built : PolicyModule}
    (hname : ModuleName.check built.name = .ok ()) {packaged : Bool}
    (h : (writeModule (FileTree.machine tools) toolSettings relabelList directory built).run.run
      tree = (.ok packaged, after)) : after.Contains directory (artifacts relabelList built) := by
  rw [writeModule_eq] at h
  -- What was there before does not matter: the files are all written after the directory is made.
  obtain ⟨_, removed, -, h⟩ := exists_of_run_bind h
  obtain ⟨_, made, -, h⟩ := exists_of_run_bind h
  obtain ⟨_, written, hfiles, h⟩ := exists_of_run_bind h
  obtain ⟨_, last, hpackage, h⟩ := exists_of_run_bind h
  cases h
  have hplain := isPlain_artifacts relabelList hname
  obtain ⟨-, hcontains⟩ := contains_of_forM hplain
    (List.nodup_append.1 (nodup_files relabelList built)).1 hfiles
  split at hpackage
  · refine hcontains.of_changesOnly (changesOnly_packageModule htools hname hpackage) ?_
    intro file hfile
    rw [resolve_join written directory (hplain file hfile), List.append_cancel_left_eq,
      List.append_cancel_left_eq]
    obtain ⟨hcompiled, hpackaged⟩ := ne_of_nodup_files hfile
    simp [hcompiled, hpackaged]
  · cases hpackage
    exact hcontains

/-! ### One module after another -/

/-- A module is among those that failed and not among those that were written, or it is among those
that were written, and its directory has its files. -/
def IsDelivered (tree : FileTree) (relabelList : List String) (out : String)
    (written : List BuiltModule) (failed : List (String × Fault)) (m : PolicyModule) : Prop :=
  ((∃ fault, (m.name, fault) ∈ failed) ∧ m.name ∉ written.map BuiltModule.name) ∨
    ∃ packaged, ⟨m.name, Path.join out m.name, packaged⟩ ∈ written ∧
      tree.Contains (Path.join out m.name) (artifacts relabelList m)

namespace IsDelivered

variable {written written' : List BuiltModule} {failed failed' : List (String × Fault)}
  {m : PolicyModule}

/-- A module stays delivered when modules of other names follow that leave its files alone. -/
theorem before (h : IsDelivered tree relabelList out written failed m)
    (hothers : m.name ∉ written'.map BuiltModule.name)
    (hkept : tree.Contains (Path.join out m.name) (artifacts relabelList m) →
      after.Contains (Path.join out m.name) (artifacts relabelList m)) :
    IsDelivered after relabelList out (written ++ written') (failed ++ failed') m := by
  obtain ⟨⟨fault, hfault⟩, hunwritten⟩ | ⟨packaged, hpackaged, hcontains⟩ := h
  · refine .inl ⟨⟨fault, List.mem_append_left _ hfault⟩, ?_⟩
    rw [List.map_append, List.mem_append]
    exact not_or.2 ⟨hunwritten, hothers⟩
  · exact .inr ⟨packaged, List.mem_append_left _ hpackaged, hkept hcontains⟩

/-- It does not matter to a module that modules of other names came before it. -/
theorem behind (h : IsDelivered tree relabelList out written' failed' m)
    (hothers : m.name ∉ written.map BuiltModule.name) :
    IsDelivered tree relabelList out (written ++ written') (failed ++ failed') m := by
  obtain ⟨⟨fault, hfault⟩, hunwritten⟩ | ⟨packaged, hpackaged, hcontains⟩ := h
  · refine .inl ⟨⟨fault, List.mem_append_right _ hfault⟩, ?_⟩
    rw [List.map_append, List.mem_append]
    exact not_or.2 ⟨hothers, hunwritten⟩
  · exact .inr ⟨packaged, List.mem_append_right _ hpackaged, hcontains⟩

end IsDelivered

variable (htools : tools.KeepToOutput) (toolSettings : ToolSettings) (relabelList : List String)
  (origin out : String)

include htools

/-- A module is delivered, and reported as written or as failed. -/
theorem addModule_cases (state : List Diagnostic × BuildReport) {built : PolicyModule}
    (hname : ModuleName.check built.name = .ok ()) (tree : FileTree) :
    ∃ diagnostics written failed after,
      (addModule (FileTree.machine tools) toolSettings relabelList origin out state
        built).run tree =
        ((diagnostics, { modules := state.2.modules ++ written
                         failures := state.2.failures ++ failed }), after) ∧
      (written.map BuiltModule.name).Sublist [built.name] ∧
      (∀ w ∈ written, w.directory = Path.join out w.name) ∧
      IsDelivered after relabelList out written failed built := by
  unfold addModule
  dsimp only
  rw [StateT.run_bind]
  generalize hwritten : (writeModule (FileTree.machine tools) toolSettings relabelList
    (Path.join out built.name) built).run.run tree = ran
  obtain ⟨outcome, after⟩ := ran
  cases outcome with
  | ok packaged =>
    let message := "module " ++ built.name ++ " written to " ++ Path.join out built.name
    refine ⟨state.1 ++ [⟨.info, origin, message⟩],
      [⟨built.name, Path.join out built.name, packaged⟩], [], after, ?_, ?_, ?_, ?_⟩
    · rw [List.append_nil]
      rfl
    · exact .refl _
    · exact List.forall_mem_singleton.2 rfl
    · exact .inr ⟨packaged, List.mem_singleton_self _,
        contains_of_writeModule htools hname hwritten⟩
  | error fault =>
    -- What a failed module has left in its directory is removed.
    let message := "module " ++ built.name ++ " failed: " ++ fault.text
    refine ⟨state.1 ++ [⟨.error, origin, message⟩], [], [(built.name, fault)],
      after.removeTree (Path.join out built.name), ?_, List.nil_sublist _, ?_, ?_⟩
    · rw [List.append_nil]
      rfl
    · exact fun _ hw => absurd hw List.not_mem_nil
    · exact .inl ⟨⟨fault, List.mem_singleton_self _⟩, List.not_mem_nil⟩

/-- Modules leave the files in directories of other names alone. -/
theorem contains_of_foldlM {modules : List PolicyModule}
    (hchecked : ∀ m ∈ modules, ModuleName.check m.name = .ok ())
    (state : List Diagnostic × BuildReport) {tree : FileTree} {name : String}
    {files : List (String × String)} (hname : IsPlain name)
    (hfiles : ∀ file ∈ files, IsPlain file.1) (hother : name ∉ modules.map PolicyModule.name)
    (h : tree.Contains (Path.join out name) files) :
    ((modules.foldlM (addModule (FileTree.machine tools) toolSettings relabelList origin out)
      state).run tree).2.Contains (Path.join out name) files := by
  induction modules generalizing state tree with
  | nil => exact h
  | cons m rest ih =>
    obtain ⟨hm, hrest⟩ := List.forall_mem_cons.1 hchecked
    obtain ⟨hne, hlater⟩ := not_or.1 (fun hmem => hother (List.mem_cons.2 hmem))
    rw [List.foldlM_cons, StateT.run_bind]
    refine ih hrest _ hlater ?_
    exact FileTree.Contains.of_confined
      (confined_addModule htools toolSettings relabelList origin out state hm) hname
      (isPlain_name hm) hne hfiles h

/-- Modules with different names are all delivered. -/
theorem isDelivered_of_foldlM {modules : List PolicyModule}
    (hchecked : ∀ m ∈ modules, ModuleName.check m.name = .ok ())
    (hnames : (modules.map PolicyModule.name).Nodup) (state : List Diagnostic × BuildReport)
    (tree : FileTree) :
    ∃ diagnostics written failed after,
      (modules.foldlM (addModule (FileTree.machine tools) toolSettings relabelList origin out)
          state).run tree =
        ((diagnostics, { modules := state.2.modules ++ written
                         failures := state.2.failures ++ failed }), after) ∧
      (written.map BuiltModule.name).Sublist (modules.map PolicyModule.name) ∧
      (∀ w ∈ written, w.directory = Path.join out w.name) ∧
      ∀ m ∈ modules, IsDelivered after relabelList out written failed m := by
  induction modules generalizing state tree with
  | nil =>
    refine ⟨state.1, [], [], tree, ?_, .refl _, ?_, ?_⟩
    · rw [List.append_nil, List.append_nil]
      rfl
    · exact fun _ hw => absurd hw List.not_mem_nil
    · exact fun _ hm => absurd hm List.not_mem_nil
  | cons m rest ih =>
    obtain ⟨hm, hrest⟩ := List.forall_mem_cons.1 hchecked
    obtain ⟨hnew, hothers⟩ := List.nodup_cons.1 hnames
    obtain ⟨diagnostics, written, failed, next, hrun, hsub, hdirectory, hfirst⟩ :=
      addModule_cases htools toolSettings relabelList origin out state hm tree
    obtain ⟨diagnostics', written', failed', after, hrun', hsub', hdirectory', hlater⟩ :=
      ih hrest hothers (diagnostics, { modules := state.2.modules ++ written
                                       failures := state.2.failures ++ failed }) next
    refine ⟨diagnostics', written ++ written', failed ++ failed', after, ?_, ?_, ?_, ?_⟩
    · rw [List.foldlM_cons, StateT.run_bind, hrun, ← List.append_assoc, ← List.append_assoc]
      exact hrun'
    · rw [List.map_append]
      exact hsub.append hsub'
    · exact List.forall_mem_append.2 ⟨hdirectory, hdirectory'⟩
    · refine List.forall_mem_cons.2 ⟨?_, fun other hother => ?_⟩
      · refine hfirst.before (fun hmem => hnew (hsub'.subset hmem)) fun hcontains => ?_
        -- What comes later has other names, so it leaves the first module alone.
        have hkept := contains_of_foldlM htools toolSettings relabelList origin out hrest
          (diagnostics, { modules := state.2.modules ++ written
                          failures := state.2.failures ++ failed }) (isPlain_name hm)
          (isPlain_artifacts relabelList hm) hnew hcontains
        rwa [hrun'] at hkept
      · have hne : other.name ≠ m.name := fun heq => hnew (heq ▸ List.mem_map_of_mem hother)
        exact (hlater other hother).behind fun hmem =>
          hne (List.mem_singleton.1 (hsub.subset hmem))

omit htools

/-! ### A whole build -/

/-- A project that is assembled gets a report, which its modules add to one after another. -/
theorem exists_runWith (tools : Tools) (settings : Settings) {project : Project}
    {catalog : Catalog} (out : String) {tree : FileTree} {assembly : Assembly}
    (h : (Assembly.ofProject project catalog
      ((ownModules (FileTree.machine tools) settings project).run tree).1
      settings.fallbackDomain).result = .ok assembly) :
    ∃ diagnostics begun, (runWith (FileTree.machine tools) settings project catalog out).run tree =
      let ran := (assembly.modules.foldlM (addModule (FileTree.machine tools) settings.tools
        project.relabelList project.name out) (diagnostics, { failures := assembly.failures })).run
        begun
      ((ran.1.1, .ok ran.1.2), ran.2) := by
  unfold runWith
  rw [StateT.run_bind]
  generalize (ownModules (FileTree.machine tools) settings project).run tree = ran at h ⊢
  obtain ⟨own, cleared⟩ := ran
  refine ⟨⟨.info, project.name, "building project " ++ project.name⟩ ::
      (Assembly.ofProject project catalog own settings.fallbackDomain).diagnostics,
    ((assembly.failures.forM fun failure => (FileTree.machine tools).removeTree
      (Path.join out failure.1)).run cleared).2, ?_⟩
  dsimp only [bind]
  rw [h]
  rfl

/-- Modules of a project have different names if and only if they have different endings, where
every spec that has a module counts.  A build writes modules with different names into different
directories, and in the end every module that has not failed is where the report says, with all of
its files. -/
theorem modules_apart (project : Project) (catalog : Catalog) :
    (∀ own fallbackDomain assembly,
      (Assembly.ofProject project catalog own fallbackDomain).result = .ok assembly →
        ∃ context, Assembly.allocate project catalog own fallbackDomain = .ok context ∧
          ((assembly.modules.map PolicyModule.name).Nodup ↔ project.monolithic = true ∨
            (Project.endings (Assembly.builtSpecs context project)).Nodup) ∧
          (project.monolithic = false → assembly.failures = [] →
            Assembly.builtSpecs context project = project.specs)) ∧
    ∀ tools : Tools, tools.KeepToOutput → ∀ settings out tree assembly,
      (Assembly.ofProject project catalog
        ((ownModules (FileTree.machine tools) settings project).run tree).1
        settings.fallbackDomain).result = .ok assembly →
      (assembly.modules.map PolicyModule.name).Nodup →
      ∃ diagnostics written failed after,
        (runWith (FileTree.machine tools) settings project catalog out).run tree =
          ((diagnostics, .ok { modules := written, failures := assembly.failures ++ failed }),
            after) ∧
        (written.map BuiltModule.name).Sublist (assembly.modules.map PolicyModule.name) ∧
        (written.map fun w => after.resolve w.directory).Nodup ∧
        ∀ m ∈ assembly.modules, IsDelivered after project.relabelList out written failed m := by
  refine ⟨fun _ _ _ => Assembly.nodup_names_of_ofProject, ?_⟩
  intro tools htools settings out tree assembly h hnames
  have hchecked := Assembly.check_name_of_ofProject h
  obtain ⟨diagnostics, begun, hrun⟩ := exists_runWith tools settings out h
  obtain ⟨diagnostics', written, failed, after, hmodules, hsub, hdirectory, hdelivered⟩ :=
    isDelivered_of_foldlM htools settings.tools project.relabelList project.name out hchecked
      hnames (diagnostics, { failures := assembly.failures }) begun
  rw [hmodules] at hrun
  refine ⟨diagnostics', written, failed, after, hrun, hsub, ?_, hdelivered⟩
  -- A directory is named after its module, so the modules can be told from their directories.
  have hplaces : (written.map fun w => after.resolve w.directory) =
      (written.map BuiltModule.name).map fun name => after.resolve out ++ [name] := by
    rw [List.map_map]
    refine List.map_congr_left fun w hw => ?_
    obtain ⟨m, hm, hname⟩ := List.mem_map.1 (hsub.subset (List.mem_map_of_mem hw))
    rw [hdirectory w hw, ← hname, resolve_join after out (isPlain_name (hchecked m hm))]
    simp [hname]
  rw [hplaces]
  refine (hnames.sublist hsub).map fun name other heq => ?_
  exact (List.cons.inj (List.append_cancel_left_eq .. ▸ heq)).1

/-- Tools that leave an empty file for their output. -/
def emptyOutput : Tools := fun _ arguments tree =>
  match arguments with
  | _ :: output :: _ =>
    (tree.writeFile output .empty).map fun after => (⟨true, .empty, .empty⟩, after)
  | _ => none

theorem keepToOutput_emptyOutput : emptyOutput.KeepToOutput := by
  intro program flag output rest tree result after h
  obtain ⟨written, hwritten, heq⟩ := Option.map_eq_some_iff.1 h
  cases heq
  exact (FileTree.changesOnly_writeFile hwritten).1

/-- Settings of a host whose store of modules is not looked at. -/
def withoutStore : Settings where
  store := { enabled := false }

theorem oneSpec_modules_apart :
    let project := twoDirectories [creator "app.json" ["/a/x"]]
    ∃ assembly,
      (Assembly.ofProject project fileCatalog (.ok []) "unconfined_t").result = .ok assembly ∧
      (assembly.modules.map PolicyModule.name) = ["demo_public", "demo_app"] ∧
      ∃ diagnostics written failed after,
        (runWith (FileTree.machine emptyOutput) withoutStore project fileCatalog "/out").run {} =
          ((diagnostics, .ok { modules := written, failures := failed }), after) ∧
        (written.map fun w => after.resolve w.directory).Nodup ∧
        ∀ m ∈ assembly.modules, IsDelivered after project.relabelList "/out" written failed m := by
  intro project
  have hanswer : (Assembly.ofProject project fileCatalog (.ok [])
      "unconfined_t").result.toOption.any fun assembly => assembly.failures = [] ∧
        assembly.modules.map PolicyModule.name = ["demo_public", "demo_app"] := by
    decide +kernel
  obtain ⟨assembly, hassembly, hwhole, hnames⟩ := exists_of_any_toOption hanswer
  obtain ⟨-, hbuild⟩ := modules_apart project fileCatalog
  have hdistinct : (assembly.modules.map PolicyModule.name).Nodup := by
    rw [hnames]
    decide
  obtain ⟨diagnostics, written, failed, after, hrun, -, hplaces, hdelivered⟩ :=
    hbuild emptyOutput keepToOutput_emptyOutput withoutStore "/out" {} assembly hassembly hdistinct
  rw [hwhole] at hrun
  exact ⟨assembly, hassembly, hnames, diagnostics, written, failed, after, hrun, hplaces,
    hdelivered⟩

/-- Two specs whose names have one stem get modules of one name, which have different sources.  No
tree has the files of both. -/
theorem sameStem_modules_overwritten :
    let project := twoDirectories [creator "web.json" ["/a/x"], creator "web.yml" ["/b/x"]]
    project.check = .ok () ∧ ∃ assembly,
      (Assembly.ofProject project fileCatalog (.ok []) "unconfined_t").result = .ok assembly ∧
      assembly.failures = [] ∧ ¬(assembly.modules.map PolicyModule.name).Nodup ∧
      ∀ (tree : FileTree) (out : String), ∃ m ∈ assembly.modules,
        ¬tree.Contains (Path.join out m.name) (artifacts project.relabelList m) := by
  intro project
  have hanswer : (Assembly.ofProject project fileCatalog (.ok [])
      "unconfined_t").result.toOption.any fun assembly => assembly.failures = [] ∧
        ¬(assembly.modules.map PolicyModule.name).Nodup ∧ ∃ m ∈ assembly.modules, ∃ other ∈
          assembly.modules, m.name = other.name ∧ m.typeEnforcement ≠ other.typeEnforcement := by
    decide +kernel
  obtain ⟨assembly, hassembly, hwhole, hnames, m, hm, other, hother, hname, hsource⟩ :=
    exists_of_any_toOption hanswer
  refine ⟨by decide +kernel, assembly, hassembly, hwhole, hnames, ?_⟩
  intro tree out
  -- A tree with the files of both would have two contents in one file.
  by_contra hall
  have hthere : ∀ m ∈ assembly.modules,
      tree.Contains (Path.join out m.name) (artifacts project.relabelList m) := fun m hm =>
    by_contra fun hgone => hall ⟨m, hm, hgone⟩
  have hfirst := hthere m hm
  have hsecond := hthere other hother
  rw [← hname] at hsecond
  refine hsource (hfirst.content_eq hsecond List.mem_cons_self ?_)
  rw [hname]
  exact List.mem_cons_self

end Build

end TypeEnforcement
