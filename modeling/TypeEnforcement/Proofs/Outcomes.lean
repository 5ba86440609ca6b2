/-
What a build leaves behind when anything may fail.

A module is written as a whole or not at all.  Whatever fails, a directory is left that is there or
not, and it is removed then; so a failed module has no directory, and one that is written has its
own files and nothing from before.

* `Project.moduleNames` — the modules that a project is expected to have;
* `Build.IsFilled`, `Build.LeavesFree` — what writing a module comes to;
* `Build.IsSettled` — a report that is true of the files.

Main statements:
* `leads_writeModule` — a module is written as a whole, or its directory is free to be removed;
* `isSettled_addModule` — one module after which the report is still true;
* `isSettled_foldlM` — all modules;
* `keeps_ownModules` — looking for installed modules changes nothing;
* `all_or_nothing` — a build that does not start changes nothing, and any other one settles every
  module of the project.
-/
import TypeEnforcement.Proofs.Directories
import TypeEnforcement.Proofs.Effects

namespace TypeEnforcement

open Assembly (twoDirectories creator fileCatalog)
open FileTree (IsPlain ChangesOnly ChangesEntries Around resolve_join)

namespace Build

variable {σ : Type} {machine : Machine (StateM σ)} {files : σ → FileTree} {tree start : FileTree}
  {out directory name : String} {written : List (String × String)} {others : List String}

/-! ### Writing a module -/

/-- Nothing has changed but a directory and the way to it, and the directory is there or not. -/
structure LeavesFree (start : FileTree) (directory : String) (tree : FileTree) : Prop where
  changes : ChangesOnly (Around (start.resolve directory)) start tree
  isFree : tree.IsFree directory

/-- Nothing has changed but a directory and the way to it, and the directory has some files. -/
structure IsFilled (start : FileTree) (directory : String) (written : List (String × String))
    (others : List String) (tree : FileTree) : Prop where
  changes : ChangesOnly (Around (start.resolve directory)) start tree
  holds : tree.HoldsExactly directory written others

theorem IsFilled.leavesFree (h : IsFilled start directory written others tree) :
    LeavesFree start directory tree :=
  ⟨h.changes, h.holds.hasOnly.isFree⟩

/-- The files that the tools make of a module. -/
def packageFiles (name : String) : List String :=
  [name ++ ".mod", name ++ ".pp"]

variable (hmachine : machine.Obeys files)

include hmachine

/-- Before anything is written, there is a directory with nothing in it. -/
theorem leads_makeDirectory : Leads files
    (fun tree => ChangesOnly (Around (start.resolve directory)) start tree ∧
      tree.IsAbsent directory)
    (makeDirectory machine directory)
    (fun _ => IsFilled start directory [] []) (LeavesFree start directory) := by
  refine .bind (q := fun made tree => LeavesFree start directory tree ∧
    (made = true → IsFilled start directory [] [] tree)) (.lift ?_) fun made => ?_
  · rintro state ⟨hchanges, habsent⟩
    obtain ⟨hmade, hthere⟩ := hmachine.createDirectories directory state
    have hway := hmade.changesOnly.mono (q := Around (start.resolve directory)) fun _ habove =>
      .inr (hchanges.resolve_eq directory ▸ habove)
    refine ⟨⟨hchanges.trans hway, hmade.isFree habsent⟩, fun hdone => ?_⟩
    refine ⟨hchanges.trans hway, ⟨fun _ hfile => absurd hfile List.not_mem_nil, ?_⟩⟩
    exact hmade.hasOnly habsent (hthere hdone)
  · cases made with
    | true => exact .pure () fun _ hfilled => hfilled.2 rfl
    | false => exact .fail fun _ hfree => hfree.1

/-- A file that cannot be written leaves the directory free to be removed. -/
theorem leads_writeFile (hname : IsPlain name) (hnew : name ∉ written.map Prod.fst)
    (content : String) : Leads files (IsFilled start directory written [])
      (writeFile machine (Path.join directory name) content)
      (fun _ => IsFilled start directory (written ++ [(name, content)]) [])
      (LeavesFree start directory) := by
  refine .bind (q := fun done tree => LeavesFree start directory tree ∧
    (done = true → IsFilled start directory (written ++ [(name, content)]) [] tree)) (.lift ?_)
    fun done => ?_
  · rintro state ⟨hchanges, hholds⟩
    obtain ⟨hplace, hcontent⟩ := hmachine.writeFile (Path.join directory name) content state
    rw [resolve_join _ directory hname] at hplace hcontent
    have hentry : ChangesEntries directory [name] (files state)
        (files ((machine.writeFile (Path.join directory name) content).run state).2) :=
      hplace.mono fun _ heq => ⟨name, List.mem_singleton_self name, heq⟩
    have hafter := hentry.changesOnly
    rw [hchanges.resolve_eq] at hafter
    refine ⟨⟨hchanges.trans hafter, ?_⟩, fun hdone => ⟨hchanges.trans hafter, ?_⟩⟩
    · -- A write that fails may leave a part of its file, which the directory can be removed with.
      exact (hholds.hasOnly.of_changesEntries hentry).isFree
    · obtain ⟨executable, hnode⟩ := hcontent hdone
      rw [← hentry.resolve_eq] at hnode
      exact hholds.append hentry hnew hnode
  · cases done with
    | true => exact .pure () fun _ hfilled => hfilled.2 rfl
    | false => exact .fail fun _ hfree => hfree.1

/-- Files of different names are all written, or one of them cannot be. -/
theorem leads_forM {rest : List (String × String)} (hplain : ∀ file ∈ rest, IsPlain file.1)
    (hnames : ((written ++ rest).map Prod.fst).Nodup) :
    Leads files (IsFilled start directory written [])
      (rest.forM fun file => writeFile machine (Path.join directory file.1) file.2)
      (fun _ => IsFilled start directory (written ++ rest) []) (LeavesFree start directory) := by
  induction rest generalizing written with
  | nil =>
    rw [List.append_nil]
    exact .pure () fun _ hfilled => hfilled
  | cons file rest ih =>
    obtain ⟨hfile, hrest⟩ := List.forall_mem_cons.1 hplain
    rw [List.append_cons] at hnames ⊢
    have hnew : file.1 ∉ written.map Prod.fst := by
      rw [List.map_append, List.map_append] at hnames
      have hfirst := (List.nodup_append.1 hnames).1
      intro hmem
      exact (List.nodup_append.1 hfirst).2.2 _ hmem _ (by simp) rfl
    exact .bind (leads_writeFile hmachine hfile hnew file.2) fun _ => ih hrest hnames

/-- Whether it succeeds or not, a tool leaves alone what has been written. -/
theorem leads_runTool {tool : String} {arguments : List String}
    (hcompiled : modulePath directory name ".mod" ∈ arguments)
    (hname : ModuleName.check name = .ok ())
    (hapart : ∀ file ∈ written, file.1 ∉ packageFiles name) :
    Leads files (IsFilled start directory written (packageFiles name))
      (runTool machine tool arguments)
      (fun _ => IsFilled start directory written (packageFiles name))
      (LeavesFree start directory) := by
  refine .bind (q := fun _ => IsFilled start directory written (packageFiles name)) (.lift ?_)
    fun result => ?_
  · rintro state ⟨hchanges, hholds⟩
    obtain ⟨hmod, hpp⟩ := isPlain_modulePath hname
    have hentries : ChangesEntries directory (packageFiles name) (files state)
        (files ((machine.runTool tool arguments).run state).2) := by
      refine (hmachine.runTool tool arguments directory name state hcompiled).mono ?_
      simp only [packageFiles, List.exists_mem_cons_iff, List.not_mem_nil, false_and, exists_false,
        or_false, modulePath, resolve_join _ directory hmod, resolve_join _ directory hpp]
      exact fun _ hplace => hplace
    have hafter := hentries.changesOnly
    rw [hchanges.resolve_eq] at hafter
    exact ⟨hchanges.trans hafter,
      hholds.of_changesEntries hentries hapart (List.Subset.refl _)⟩
  · cases result with
    | none => exact .fail fun _ hfilled => hfilled.leavesFree
    | some result =>
      dsimp only
      split
      · exact .fail fun _ hfilled => hfilled.leavesFree
      · exact .pure () fun _ hfilled => hfilled

theorem leads_packageModule (toolSettings : ToolSettings) (hname : ModuleName.check name = .ok ())
    (hapart : ∀ file ∈ written, file.1 ∉ packageFiles name) :
    Leads files (IsFilled start directory written (packageFiles name))
      (packageModule machine toolSettings directory name)
      (fun _ => IsFilled start directory written (packageFiles name))
      (LeavesFree start directory) :=
  .bind (leads_runTool hmachine (by simp) hname hapart) fun _ =>
    leads_runTool hmachine (by simp) hname hapart

/-- A module is written as a whole, in place of what was there, or its directory is free to be
removed. -/
theorem leads_writeModule (tools : ToolSettings) (relabelList : List String) (out : String)
    {built : PolicyModule} (hname : ModuleName.check built.name = .ok ())
    (hfree : start.IsFree (Path.join out built.name)) :
    Leads files (· = start)
      (writeModule machine tools relabelList (Path.join out built.name) built)
      (fun packaged tree => packaged = tools.enabled ∧
        IsFilled start (Path.join out built.name) (artifacts relabelList built)
          (if tools.enabled then packageFiles built.name else []) tree)
      (LeavesFree start (Path.join out built.name)) := by
  rw [writeModule_eq]
  have hplain := isPlain_artifacts relabelList hname
  obtain ⟨hnames, -, -⟩ := List.nodup_append.1 (nodup_files relabelList built)
  have hremoved : Leads files (· = start)
      (liftM (machine.removeTree (Path.join out built.name)))
      (fun _ tree => ChangesOnly (Around (start.resolve (Path.join out built.name))) start tree ∧
        tree.IsAbsent (Path.join out built.name))
      (LeavesFree start (Path.join out built.name)) := by
    refine .lift fun state hstart => ?_
    rw [hmachine.removeTree, hstart]
    exact ⟨(FileTree.changesOnly_removeTree start _).mono fun _ => .inl,
      FileTree.isAbsent_removeTree (isPlain_name hname) hfree⟩
  refine .bind hremoved fun _ => .bind (leads_makeDirectory hmachine) fun _ =>
    .bind (leads_forM hmachine hplain hnames) fun _ => ?_
  refine .bind (q := fun _ => IsFilled start (Path.join out built.name)
    (artifacts relabelList built) (if tools.enabled then packageFiles built.name else [])) ?_
    fun _ => .pure _ fun _ hfilled => ⟨rfl, hfilled⟩
  split
  · -- The tools write files of other names than the module does.
    have hapart : ∀ file ∈ artifacts relabelList built, file.1 ∉ packageFiles built.name := by
      intro file hfile
      obtain ⟨hmod, hpp⟩ := ne_of_nodup_files hfile
      simp [packageFiles, hmod, hpp]
    refine (leads_packageModule hmachine tools hname hapart).mono (fun tree hfilled => ?_)
      fun _ _ hfilled => hfilled
    exact ⟨hfilled.changes, hfilled.holds.content, hfilled.holds.hasOnly.mono (by simp)⟩
  · exact .pure () fun _ hfilled => hfilled

omit hmachine

/-! ### Reports -/

/-- A report is true of the files: it has every module of the names once; a module that failed has
no directory, and one that was written has its own files and, if it is packaged, those of the
tools. -/
structure IsSettled (tree : FileTree) (tools : ToolSettings) (relabelList : List String)
    (out : String) (modules : List PolicyModule) (names : List String) (report : BuildReport) :
    Prop where
  names : (report.modules.map BuiltModule.name ++ report.failures.map Prod.fst).Perm names
  absent : ∀ failure ∈ report.failures, tree.IsAbsent (Path.join out failure.1)
  filled : ∀ built ∈ report.modules, ∃ m ∈ modules,
    built = ⟨m.name, Path.join out m.name, tools.enabled⟩ ∧
      tree.HoldsExactly built.directory (artifacts relabelList m)
        (if tools.enabled then packageFiles m.name else [])

variable {tools : ToolSettings} {relabelList : List String} {modules : List PolicyModule}
  {names : List String} {report : BuildReport} {after : FileTree}

/-- A report stays true while something happens in a directory of another name. -/
theorem IsSettled.of_changesOnly (h : IsSettled tree tools relabelList out modules names report)
    (hplain : ∀ other ∈ names, IsPlain other) (hname : IsPlain name) (hnew : name ∉ names)
    (hchanges : ChangesOnly (Around (tree.resolve (Path.join out name))) tree after) :
    IsSettled after tools relabelList out modules names report := by
  have hkept {other : String} (hother : other ∈ names) :
      after.inside (Path.join out other) = tree.inside (Path.join out other) :=
    FileTree.inside_of_changesOnly (hplain other hother) hname (fun heq => hnew (heq ▸ hother))
      hchanges
  refine ⟨h.names, fun failure hfailure => ?_, fun built hbuilt => ?_⟩
  · refine (h.absent failure hfailure).of_inside (hkept (h.names.subset ?_))
    exact List.mem_append_right _ (List.mem_map_of_mem hfailure)
  · obtain ⟨m, hm, rfl, hholds⟩ := h.filled built hbuilt
    refine ⟨m, hm, rfl, hholds.of_inside (hkept (h.names.subset ?_))⟩
    exact List.mem_append_left _ (List.mem_map_of_mem hbuilt)

theorem IsSettled.addBuilt (h : IsSettled tree tools relabelList out modules names report)
    {m : PolicyModule} (hm : m ∈ modules) (hholds : tree.HoldsExactly (Path.join out m.name)
      (artifacts relabelList m) (if tools.enabled then packageFiles m.name else [])) :
    IsSettled tree tools relabelList out modules (names ++ [m.name])
      { report with modules :=
          report.modules ++ [⟨m.name, Path.join out m.name, tools.enabled⟩] } := by
  refine ⟨?_, h.absent, List.forall_mem_append.2 ⟨h.filled, ?_⟩⟩
  · simp only [List.map_append, List.append_assoc]
    refine (List.perm_append_comm.append_left _).trans ?_
    rw [← List.append_assoc]
    exact h.names.append_right _
  · exact List.forall_mem_singleton.2 ⟨m, hm, rfl, hholds⟩

theorem IsSettled.addFailure (h : IsSettled tree tools relabelList out modules names report)
    (fault : Fault) (habsent : tree.IsAbsent (Path.join out name)) :
    IsSettled tree tools relabelList out modules (names ++ [name])
      { report with failures := report.failures ++ [(name, fault)] } := by
  refine ⟨?_, List.forall_mem_append.2 ⟨h.absent, ?_⟩, h.filled⟩
  · simp only [List.map_append, ← List.append_assoc]
    exact h.names.append_right _
  · exact List.forall_mem_singleton.2 habsent

/-! ### One module after another -/

include hmachine

/-- A module is added to the files and to the report, or to the report alone. -/
theorem isSettled_addModule (origin : String) (state : List Diagnostic × BuildReport) {s : σ}
    (h : IsSettled (files s) tools relabelList out modules names state.2)
    (hplain : ∀ other ∈ names, IsPlain other) {m : PolicyModule} (hm : m ∈ modules)
    (hname : ModuleName.check m.name = .ok ()) (hnew : m.name ∉ names)
    (hfree : (files s).IsFree (Path.join out m.name)) :
    let ran := (addModule machine tools relabelList origin out state m).run s
    ChangesOnly (Around ((files s).resolve (Path.join out m.name))) (files s) (files ran.2) ∧
      IsSettled (files ran.2) tools relabelList out modules (names ++ [m.name]) ran.1.2 := by
  have hwritten := leads_writeModule hmachine tools relabelList out hname hfree s rfl
  unfold addModule
  dsimp only
  rw [StateT.run_bind]
  generalize (writeModule machine tools relabelList (Path.join out m.name) m).run.run s = ran
    at hwritten ⊢
  obtain ⟨outcome, s'⟩ := ran
  have hothers (hchanges : ChangesOnly (Around ((files s).resolve (Path.join out m.name))) (files s)
      (files s')) : IsSettled (files s') tools relabelList out modules names state.2 :=
    h.of_changesOnly hplain (isPlain_name hname) hnew hchanges
  cases outcome with
  | ok packaged =>
    obtain ⟨rfl, hchanges, hholds⟩ := hwritten
    exact ⟨hchanges, (hothers hchanges).addBuilt hm hholds⟩
  | error fault =>
    obtain ⟨hchanges, hleft⟩ := hwritten
    -- What is left of a module that failed is removed before the next one is written.
    show ChangesOnly _ _ (files ((machine.removeTree (Path.join out m.name)).run s').2) ∧
      IsSettled (files ((machine.removeTree (Path.join out m.name)).run s').2) _ _ _ _ _ _
    rw [hmachine.removeTree]
    have hremoved := (FileTree.changesOnly_removeTree (files s') (Path.join out m.name)).mono
      (q := Around ((files s).resolve (Path.join out m.name))) fun _ hinside =>
        .inl (hchanges.resolve_eq _ ▸ hinside)
    have hchanges := hchanges.trans hremoved
    exact ⟨hchanges, (h.of_changesOnly hplain (isPlain_name hname) hnew hchanges).addFailure fault
      (FileTree.isAbsent_removeTree (isPlain_name hname) hleft)⟩

theorem isSettled_foldlM (origin : String) {rest : List PolicyModule}
    (state : List Diagnostic × BuildReport) {s : σ}
    (h : IsSettled (files s) tools relabelList out modules names state.2)
    (hplain : ∀ other ∈ names, IsPlain other) (hrest : rest ⊆ modules)
    (hchecked : ∀ m ∈ rest, ModuleName.check m.name = .ok ())
    (hnames : (names ++ rest.map PolicyModule.name).Nodup)
    (hfree : ∀ m ∈ rest, (files s).IsFree (Path.join out m.name)) :
    let ran := (rest.foldlM (addModule machine tools relabelList origin out) state).run s
    IsSettled (files ran.2) tools relabelList out modules (names ++ rest.map PolicyModule.name)
      ran.1.2 := by
  induction rest generalizing state s names with
  | nil =>
    rw [List.map_nil, List.append_nil]
    exact h
  | cons m rest ih =>
    obtain ⟨hm, hrest⟩ := List.cons_subset.1 hrest
    obtain ⟨hname, hchecked⟩ := List.forall_mem_cons.1 hchecked
    obtain ⟨hmfree, hfree⟩ := List.forall_mem_cons.1 hfree
    obtain ⟨-, hlater, hapart⟩ := List.nodup_append.1 hnames
    have hnew : m.name ∉ names := fun hmem => hapart _ hmem _ List.mem_cons_self rfl
    obtain ⟨hchanges, hsettled⟩ := isSettled_addModule hmachine origin state h hplain hm hname hnew
      hmfree
    rw [List.map_cons, List.append_cons] at hnames ⊢
    rw [List.foldlM_cons, StateT.run_bind]
    refine ih _ hsettled ?_ hrest hchecked hnames fun other hother => ?_
    · exact List.forall_mem_append.2 ⟨hplain, List.forall_mem_singleton.2 (isPlain_name hname)⟩
    · -- The directories of the modules to come are as they were.
      have hne : other.name ≠ m.name := fun heq =>
        (List.nodup_cons.1 hlater).1 (heq ▸ List.mem_map_of_mem hother)
      exact (hfree other hother).of_inside (FileTree.inside_of_changesOnly
        (isPlain_name (hchecked other hother)) (isPlain_name hname) hne hchanges)

/-- The directories of modules that are left out are removed, and other directories stay as free as
they were. -/
theorem isAbsent_of_forM {failures : List (String × Fault)}
    (hfailures : ∀ failure ∈ failures, failure.1 ∈ names) (hplain : ∀ other ∈ names, IsPlain other)
    {s : σ} (hfree : ∀ other ∈ names, (files s).IsFree (Path.join out other)) :
    let last := (failures.forM fun failure =>
      machine.removeTree (Path.join out failure.1)).run s
    ∀ other ∈ names, (files last.2).IsFree (Path.join out other) ∧
      (other ∈ failures.map Prod.fst ∨ (files s).IsAbsent (Path.join out other) →
        (files last.2).IsAbsent (Path.join out other)) := by
  induction failures generalizing s with
  | nil => exact fun other hother => ⟨hfree other hother, fun h => h.resolve_left List.not_mem_nil⟩
  | cons failure rest ih =>
    obtain ⟨hfailure, hrest⟩ := List.forall_mem_cons.1 hfailures
    have hremoved := hmachine.removeTree (Path.join out failure.1) s
    have hlater := ih hrest (s := ((machine.removeTree (Path.join out failure.1)).run s).2)
      fun other hother => by
        rw [hremoved]
        exact (hfree other hother).removeTree (hplain other hother) (hplain _ hfailure)
    rw [hremoved] at hlater
    intro last other hother
    obtain ⟨hstays, hgone⟩ := hlater other hother
    refine ⟨hstays, fun h => hgone ?_⟩
    rcases h with hmem | hbefore
    · rcases List.mem_cons.1 hmem with rfl | hmem
      · exact .inr (FileTree.isAbsent_removeTree (hplain _ hother) (hfree _ hother))
      · exact .inl hmem
    · exact .inr (hbefore.removeTree (hplain other hother) (hplain _ hfailure))

omit hmachine

/-! ### Looking for installed modules -/

variable {γ : Type} {view : σ → γ} (hreads : machine.Reads view)

include hreads

theorem keeps_readText (path : String) : Keeps view (machine.readText path) :=
  .bind (hreads.readFile path) fun _ => .pure view _

theorem keeps_policyType (settings : SystemSettings) :
    Keeps view (Host.policyType machine settings) := by
  unfold Host.policyType
  split
  · exact .pure view _
  · exact .bind (keeps_readText hreads _) fun _ => .pure view _

theorem keeps_priority (store : ModuleStore) (name : String) :
    Keeps view (store.priority machine name).run := by
  refine .bindExcept (.lift (hreads.listDirectory _)) fun listing => ?_
  cases listing with
  | entries names =>
    have hfound : Keeps view (store.prioritiesAmong machine name names) :=
      .bind (.filterMapM (fun _ => .bind (hreads.isDirectory _) fun _ => .pure view _) _)
        fun found => .pure view found
    exact .bindExcept (.lift hfound) fun _ => .pure view _
  | missing => exact .pure view _
  | unreadable => exact .pure view _

theorem keeps_readDeclarations (path : String) :
    Keeps view (ModuleStore.readDeclarations machine path).run := by
  refine .bindExcept (.lift (hreads.readFile path)) fun content => ?_
  cases content with
  | none => exact .pure view _
  | some bytes =>
    dsimp only
    split
    · split <;> exact .pure view _
    · exact .pure view _

theorem keeps_installedAmong (store : ModuleStore) (names : List String) :
    Keeps view (store.installedAmong machine names).run := by
  have hinstalled (name : String) : Keeps view (store.installed machine name).run := by
    refine .bindExcept (keeps_priority hreads store name) fun priority => ?_
    cases priority with
    | none => exact .pure view _
    | some priority =>
      exact .bindExcept (keeps_readDeclarations hreads _) fun _ => .pure view _
  refine .bindExcept (.mapM (fun name => ?_) names) fun _ => .pure view _
  exact .bind (hinstalled name) fun _ => .pure view _

/-- Looking for installed modules only reads. -/
theorem keeps_ownModules_of_reads (settings : Settings) (project : Project) :
    Keeps view (ownModules machine settings project) := by
  unfold ownModules
  split
  · exact .bind (keeps_policyType hreads _) fun _ => keeps_installedAmong hreads _ _
  · exact .pure view _

omit hreads

/-- Looking for installed modules changes nothing. -/
theorem keeps_ownModules (hmachine : machine.Obeys files) (settings : Settings)
    (project : Project) : Keeps files (ownModules machine settings project) :=
  keeps_ownModules_of_reads hmachine.reads settings project

end Build

/-! ### The modules of a project -/

/-- The names of the modules that a project is expected to have. -/
def Project.moduleNames (project : Project) : List String :=
  project.baseName :: if project.monolithic then [] else project.specs.map project.specName

namespace Text

/-- What follows the last separator of a text has none, and neither has a text without a last one.
-/
theorem not_mem_of_splitLast (sep : Char) (text : List Char) : match splitLast sep text with
    | some (_, after) => sep ∉ after
    | none => sep ∉ text := by
  induction text with
  | nil => simp [splitLast]
  | cons c rest ih =>
    rw [splitLast]
    cases hrest : splitLast sep rest with
    | some cut =>
      rw [hrest] at ih
      exact ih
    | none =>
      rw [hrest] at ih
      by_cases hc : c = sep
      · rw [if_pos hc]
        exact ih
      · rw [if_neg hc]
        simp [Ne.symm hc, ih]

theorem cutLast_eq_some {sep : Char} {text before after : String}
    (h : cutLast sep text = some (before, after)) :
    text.toList = before.toList ++ sep :: after.toList ∧ sep ∉ after.toList := by
  obtain ⟨⟨front, back⟩, hcut, heq⟩ := Option.map_eq_some_iff.1 h
  have hback := not_mem_of_splitLast sep text.toList
  rw [hcut] at hback
  cases heq
  simp only [String.toList_ofList]
  exact ⟨splitLast_eq_some hcut, hback⟩

theorem not_mem_of_cutLast_eq_none {sep : Char} {text : String} (h : cutLast sep text = none) :
    sep ∉ text.toList := by
  have htext := not_mem_of_splitLast sep text.toList
  rwa [Option.map_eq_none_iff.1 h] at htext

end Text

/-- The stem of a spec is one component of a path. -/
theorem Spec.slash_not_mem_stem (spec : Spec) : '/' ∉ spec.stem.toList := by
  unfold stem
  extract_lets file
  have hfile : '/' ∉ file.toList := by
    unfold file
    split
    · rename_i hcut
      exact (Text.cutLast_eq_some hcut).2
    · rename_i hcut
      exact Text.not_mem_of_cutLast_eq_none hcut
  split
  · rename_i hcut
    split
    · exact hfile
    · rw [(Text.cutLast_eq_some hcut).1, List.mem_append] at hfile
      exact fun hmem => hfile (.inl hmem)
  · exact hfile

namespace Assembly

variable {context : Grant.Context} {project : Project} {catalog : Catalog}
  {own : Except Fault (List Installed)} {fallbackDomain : String} {assembly collected : Assembly}

/-- Every spec has a module or a failure. -/
theorem perm_names_specs (context : Grant.Context) (project : Project) (specs : List Spec) :
    ((specFailures context project specs).map Prod.fst ++
      (specModules context project specs).map PolicyModule.name).Perm
        (specs.map project.specName) := by
  induction specs with
  | nil => exact .refl _
  | cons spec rest ih =>
    rw [specFailures_cons, specModules_cons, List.map_append, List.map_append, List.map_cons]
    cases hspec : (specModule context project spec).result with
    | ok m =>
      simp only [specFailures, specModules, hspec, List.filterMap_cons, List.filterMap_nil,
        Except.toOption, List.map_nil, List.nil_append, List.map_cons, name_specModule hspec]
      exact List.perm_middle.trans (ih.cons _)
    | error fault =>
      simp only [specFailures, specModules, hspec, List.filterMap_cons, List.filterMap_nil,
        Except.toOption, List.map_nil, List.nil_append, List.map_cons]
      exact ih.cons _

/-- Every module that a project is expected to have is there or has failed. -/
theorem perm_names_of_ofProject
    (h : (ofProject project catalog own fallbackDomain).result = .ok assembly) :
    (assembly.failures.map Prod.fst ++ assembly.modules.map PolicyModule.name).Perm
      project.moduleNames := by
  obtain ⟨context, collected, -, hcollected, rfl⟩ := exists_of_ofProject h
  obtain ⟨empty, base, hempty, hbase, hlayout⟩ := collect_cases hcollected
  have hname := name_fillBase hempty hbase
  rw [names_resolved]
  obtain ⟨hmonolithic, full, hfull, rfl⟩ | ⟨hsplit, rfl⟩ := hlayout
  · have hfullName : full.name = project.baseName := by rw [(makes_addSpecs hfull).name, hname]
    simp [resolved, Project.moduleNames, hmonolithic, hfullName]
  · simp only [resolved, Project.moduleNames, hsplit, List.map_cons, hname]
    exact List.perm_middle.trans ((perm_names_specs context project _).cons _)

/-- A spec may give its name to a directory if a base module may be named after the project. -/
theorem isPlain_specName (hsplit : project.monolithic = false)
    (h : ModuleName.check project.baseName = .ok ()) (spec : Spec) :
    FileTree.IsPlain (project.specName spec) := by
  have hbase : project.baseName = (project.name ++ "_") ++ "public" := by
    rw [Project.baseName, if_neg (by simp [hsplit]), String.append_assoc]
    rfl
  have hslash := (isPlain_name h).no_slash
  obtain ⟨hwell, -⟩ := ModuleName.check_eq_ok_iff.1 h
  obtain ⟨hform, -⟩ := Bool.and_eq_true_iff.1 hwell
  rw [hbase, String.toList_append] at hform hslash
  -- Both names start with the name of the project and an underscore.
  obtain ⟨c, rest, hchars⟩ : ∃ c rest, (project.name ++ "_").toList = c :: rest :=
    List.exists_cons_of_ne_nil (by simp [String.toList_append])
  rw [hchars] at hform hslash
  have hname : (project.specName spec).toList = c :: (rest ++ spec.stem.toList) := by
    rw [Project.specName, String.toList_append, hchars, List.cons_append]
  refine FileTree.isPlain_of_toList hname ?_ ?_
  · rintro rfl
    obtain ⟨hfirst, -⟩ := Bool.and_eq_true_iff.1 hform
    exact absurd hfirst (by decide)
  · rw [hname, ← List.cons_append, List.mem_append, not_or]
    exact ⟨fun hmem => hslash (List.mem_append_left _ hmem), spec.slash_not_mem_stem⟩

/-- Directories may be named after the modules that a project is expected to have. -/
theorem isPlain_moduleNames
    (h : (ofProject project catalog own fallbackDomain).result = .ok assembly) :
    ∀ name ∈ project.moduleNames, FileTree.IsPlain name := by
  obtain ⟨context, collected, -, hcollected, -⟩ := exists_of_ofProject h
  obtain ⟨empty, base, hempty, -, -⟩ := collect_cases hcollected
  have hchecked := PolicyModule.check_name_of_make hempty
  refine List.forall_mem_cons.2 ⟨isPlain_name hchecked, fun name hname => ?_⟩
  cases hmonolithic : project.monolithic with
  | true => simp [hmonolithic] at hname
  | false =>
    simp only [hmonolithic, Bool.false_eq_true, if_false] at hname
    obtain ⟨spec, -, rfl⟩ := List.mem_map.1 hname
    exact isPlain_specName hmonolithic hchecked spec

end Assembly

/-! ### A whole build -/

namespace Build

variable {σ : Type} {machine : Machine (StateM σ)} {files : σ → FileTree}

theorem run_runWith_of_error (machine : Machine (StateM σ)) (settings : Settings)
    {project : Project} {catalog : Catalog} (out : String) (state : σ) {fault : Fault}
    (h : (Assembly.ofProject project catalog ((ownModules machine settings project).run state).1
      settings.fallbackDomain).result = .error fault) :
    ∃ diagnostics, (runWith machine settings project catalog out).run state =
      ((diagnostics, .error fault), ((ownModules machine settings project).run state).2) := by
  unfold runWith
  rw [StateT.run_bind]
  generalize (ownModules machine settings project).run state = ran at h ⊢
  obtain ⟨own, begun⟩ := ran
  refine ⟨⟨.info, project.name, "building project " ++ project.name⟩ ::
    (Assembly.ofProject project catalog own settings.fallbackDomain).diagnostics, ?_⟩
  dsimp only [bind]
  rw [h]
  rfl

/-- The directories of the modules that are left out are removed, and then the others are written.
-/
theorem run_runWith_of_ok (machine : Machine (StateM σ)) (settings : Settings)
    {project : Project} {catalog : Catalog} (out : String) (state : σ) {assembly : Assembly}
    (h : (Assembly.ofProject project catalog ((ownModules machine settings project).run state).1
      settings.fallbackDomain).result = .ok assembly) :
    ∃ diagnostics, (runWith machine settings project catalog out).run state =
      let removed := (assembly.failures.forM fun failure =>
        machine.removeTree (Path.join out failure.1)).run
          ((ownModules machine settings project).run state).2
      let ran := (assembly.modules.foldlM (addModule machine settings.tools project.relabelList
        project.name out) (diagnostics, { failures := assembly.failures })).run removed.2
      ((ran.1.1, .ok ran.1.2), ran.2) := by
  unfold runWith
  rw [StateT.run_bind]
  generalize (ownModules machine settings project).run state = ran at h ⊢
  obtain ⟨own, begun⟩ := ran
  refine ⟨⟨.info, project.name, "building project " ++ project.name⟩ ::
    (Assembly.ofProject project catalog own settings.fallbackDomain).diagnostics, ?_⟩
  dsimp only [bind]
  rw [h]
  rfl

/-- A build that does not start changes nothing.  Any other build settles every module that the
project is expected to have, whatever fails, if the modules have different names and their
directories are there or not. -/
theorem all_or_nothing (hmachine : machine.Obeys files) (settings : Settings) (project : Project)
    (catalog : Catalog) (out : String) (state : σ) (hnames : project.moduleNames.Nodup)
    (hfree : ∀ name ∈ project.moduleNames, (files state).IsFree (Path.join out name)) :
    let ran := (runWith machine settings project catalog out).run state
    (∀ fault, ran.1.2 = .error fault → files ran.2 = files state) ∧
    ∀ report, ran.1.2 = .ok report → ∃ assembly,
      (Assembly.ofProject project catalog ((ownModules machine settings project).run state).1
        settings.fallbackDomain).result = .ok assembly ∧
      IsSettled (files ran.2) settings.tools project.relabelList out assembly.modules
        project.moduleNames report := by
  have hkept := keeps_ownModules hmachine settings project state
  cases hassembled : (Assembly.ofProject project catalog
      ((ownModules machine settings project).run state).1 settings.fallbackDomain).result with
  | error fault =>
    obtain ⟨diagnostics, hrun⟩ := run_runWith_of_error machine settings out state hassembled
    rw [hrun]
    refine ⟨fun _ _ => hkept, fun report hreport => ?_⟩
    cases hreport
  | ok assembly =>
    obtain ⟨diagnostics, hrun⟩ := run_runWith_of_ok machine settings out state hassembled
    have hperm := Assembly.perm_names_of_ofProject hassembled
    have hplain := Assembly.isPlain_moduleNames hassembled
    have hfailed : ∀ failure ∈ assembly.failures, failure.1 ∈ project.moduleNames :=
      fun failure hfailure =>
        hperm.subset (List.mem_append_left _ (List.mem_map_of_mem hfailure))
    have hbuilt : ∀ m ∈ assembly.modules, m.name ∈ project.moduleNames := fun m hm =>
      hperm.subset (List.mem_append_right _ (List.mem_map_of_mem hm))
    have hremoved := isAbsent_of_forM hmachine hfailed hplain (hkept ▸ hfree)
    rw [hrun]
    refine ⟨fun _ hfault => (nomatch hfault), fun report hreport => ?_⟩
    obtain rfl := Except.ok.inj hreport
    refine ⟨assembly, rfl, ?_⟩
    -- The report starts with the failures, whose directories have been removed.
    have hstart : IsSettled
        (files ((assembly.failures.forM fun failure =>
          machine.removeTree (Path.join out failure.1)).run
            ((ownModules machine settings project).run state).2).2)
        settings.tools project.relabelList out assembly.modules
        (assembly.failures.map Prod.fst) { failures := assembly.failures } :=
      ⟨.refl _, fun failure hfailure => (hremoved failure.1 (hfailed failure hfailure)).2
          (.inl (List.mem_map_of_mem hfailure)),
        fun _ hw => absurd hw List.not_mem_nil⟩
    have hall := isSettled_foldlM hmachine project.name
      (diagnostics, { failures := assembly.failures }) hstart
      (fun other hother => hplain other (hperm.subset (List.mem_append_left _ hother)))
      (List.Subset.refl assembly.modules) (Assembly.check_name_of_ofProject hassembled)
      (hperm.nodup_iff.2 hnames) fun m hm => (hremoved m.name (hbuilt m hm)).1
    exact ⟨hall.names.trans hperm, hall.absent, hall.filled⟩

/-- Tools that do nothing, and fail when they are given one of the files. -/
def idleTools (refused : String) : FileTree.Tools := fun _ arguments tree =>
  some (⟨refused ∉ arguments, .empty, .empty⟩, tree)

theorem keepToModules_idleTools (refused : String) : (idleTools refused).KeepToModules := by
  intro tool arguments directory name tree result after _ h
  cases h
  exact .refl _ tree

/-- Three modules, of which one cannot be packaged and another not be written, over what earlier
builds have left of them. -/
theorem halfSpoiled_all_or_nothing :
    let project := twoDirectories [creator "one.json" ["/a/x"], creator "two.json" ["/b/x"]]
    let tree : FileTree := { nodes := [
      (["out"], .directory),
      (["out", "demo_public"], .directory), (["out", "demo_public", "old"], .file .empty false),
      (["out", "demo_two"], .directory), (["out", "demo_two", "old"], .file .empty false)] }
    let machine := FileTree.spoilingMachine (idleTools "/out/demo_one/demo_one.mod")
      (· = "/out/demo_two/config")
    ∃ diagnostics report after assembly,
      (runWith machine withoutStore project fileCatalog "/out").run tree =
        ((diagnostics, .ok report), after) ∧
      (Assembly.ofProject project fileCatalog (.ok []) "unconfined_t").result = .ok assembly ∧
      IsSettled after {} project.relabelList "/out" assembly.modules
        ["demo_public", "demo_one", "demo_two"] report := by
  intro project tree machine
  have hmachine := FileTree.obeys_spoilingMachine
    (keepToModules_idleTools "/out/demo_one/demo_one.mod") (· = "/out/demo_two/config")
  have hanswer : (Assembly.ofProject project fileCatalog (.ok [])
      "unconfined_t").result.toOption.isSome := by
    decide +kernel
  obtain ⟨assembly, hassembly⟩ := exists_of_isSome_toOption hanswer
  have hown : ((ownModules machine withoutStore project).run tree).1 = .ok [] := rfl
  rw [← hown] at hassembly
  obtain ⟨diagnostics, hrun⟩ := run_runWith_of_ok machine withoutStore "/out" tree hassembly
  have hnames : project.moduleNames = ["demo_public", "demo_one", "demo_two"] := rfl
  have hdistinct : project.moduleNames.Nodup := by
    rw [hnames]
    decide
  have hnothing : tree.IsFree (Path.join "/out" "demo_one") := by
    refine .inr fun rest => ?_
    rw [FileTree.inside, show tree.resolve (Path.join "/out" "demo_one") = ["out", "demo_one"] from
      rfl]
    simp [FileTree.nodeAt, tree, List.lookup_cons]
  have hfree : ∀ name ∈ project.moduleNames, tree.IsFree (Path.join "/out" name) := by
    rw [hnames]
    simp only [List.forall_mem_cons]
    exact ⟨.inl rfl, hnothing, .inl rfl, fun _ hname => absurd hname List.not_mem_nil⟩
  obtain ⟨-, hbuilt⟩ := all_or_nothing hmachine withoutStore project fileCatalog "/out" tree
    hdistinct hfree
  generalize (runWith machine withoutStore project fileCatalog "/out").run tree = ran at hrun hbuilt
  obtain ⟨⟨diagnostics, result⟩, after⟩ := ran
  obtain ⟨assembly', hassembly', hsettled⟩ := hbuilt _ (congrArg (fun ran => ran.1.2) hrun)
  rw [hown] at hassembly'
  rw [hnames, id_eq] at hsettled
  refine ⟨diagnostics, _, after, assembly', ?_, hassembly', hsettled⟩
  rw [show result = _ from congrArg (fun ran => ran.1.2) hrun]

end Build

end TypeEnforcement
