/-
What a machine is asked for.

A machine can be asked to make, to write and to remove, and to run tools.  A relation between states
that holds before and after each request of a kind, and that reading does not leave, holds before
and after a program that makes such requests only.  So the requests that writing a module can make
are listed once, and all that a program is to be shown to keep is shown for the list.

* `Request`, `Machine.after` — what a machine can be asked for, and the state that follows;
* `Machine.Moves`, `Respects` — requests and programs that lead along a relation;
* `Build.packageRequests`, `Build.moduleRequests` — what packaging and writing a module can ask for.

Main statements:
* `Respects.bind`, `Respects.bindExcept`, `Respects.foldlM` — programs that lead along a relation,
  one after another;
* `respects_addModule` — a module leads along every relation that its requests lead along.
-/
import TypeEnforcement.Proofs.Effects

namespace TypeEnforcement

/-! ### Requests -/

/-- What a machine can be asked to change. -/
inductive Request where
  | makeDirectories (path : String)
  | writeFile (path content : String)
  | removeTree (path : String)
  | runTool (program : String) (arguments : List String)
deriving DecidableEq

variable {σ α β γ ε : Type}

namespace Machine

/-- The state of a machine after a request, whatever it answers. -/
def after (machine : Machine (StateM σ)) : Request → σ → σ
  | .makeDirectories path, state => ((machine.createDirectories path).run state).2
  | .writeFile path content, state => ((machine.writeFile path content).run state).2
  | .removeTree path, state => ((machine.removeTree path).run state).2
  | .runTool program arguments, state => ((machine.runTool program arguments).run state).2

/-- Requests of a kind lead from what is seen of a state along a relation, which reading does not
leave. -/
structure Moves (machine : Machine (StateM σ)) (view : σ → γ) (p : Request → Prop)
    (R : γ → γ → Prop) : Prop where
  reads : machine.Reads view
  refl : ∀ x, R x x
  trans : ∀ {x y z}, R x y → R y z → R x z
  request : ∀ request, p request → ∀ state, R (view state) (view (machine.after request state))

end Machine

/-- Whatever state a program is run in, it leads along a relation. -/
def Respects (view : σ → γ) (R : γ → γ → Prop) (program : StateM σ α) : Prop :=
  ∀ state, R (view state) (view (program.run state).2)

namespace Respects

variable {machine : Machine (StateM σ)} {view : σ → γ} {p : Request → Prop} {R : γ → γ → Prop}
  (hmoves : machine.Moves view p R)

include hmoves

theorem of_keeps {program : StateM σ α} (h : Keeps view program) : Respects view R program := by
  intro state
  rw [h state]
  exact hmoves.refl _

theorem pure (value : α) : Respects view R (Pure.pure value : StateM σ α) :=
  of_keeps hmoves (.pure view value)

theorem bind {program : StateM σ α} {next : α → StateM σ β} (h : Respects view R program)
    (hnext : ∀ value, Respects view R (next value)) : Respects view R (program >>= next) :=
  fun state => hmoves.trans (h state) (hnext _ _)

theorem bindExcept {program : ExceptT ε (StateM σ) α} {next : α → ExceptT ε (StateM σ) β}
    (h : Respects view R program.run) (hnext : ∀ value, Respects view R (next value).run) :
    Respects view R (program >>= next).run := by
  have hrest : ∀ outcome, Respects view R (ExceptT.bindCont next outcome) := by
    intro outcome
    cases outcome with
    | ok value => exact hnext value
    | error fault => exact pure hmoves _
  exact bind hmoves h hrest

theorem forM {items : List α} {f : α → StateM σ PUnit}
    (h : ∀ item ∈ items, Respects view R (f item)) : Respects view R (items.forM f) := by
  induction items with
  | nil => exact pure hmoves _
  | cons item rest ih =>
    obtain ⟨hitem, hrest⟩ := List.forall_mem_cons.1 h
    exact bind hmoves hitem fun _ => ih hrest

theorem foldlM {items : List α} {f : β → α → StateM σ β}
    (h : ∀ item ∈ items, ∀ value, Respects view R (f value item)) (init : β) :
    Respects view R (items.foldlM f init) := by
  induction items generalizing init with
  | nil => exact pure hmoves _
  | cons item rest ih =>
    obtain ⟨hitem, hrest⟩ := List.forall_mem_cons.1 h
    rw [List.foldlM_cons]
    exact bind hmoves (hitem init) fun _ => ih hrest _

omit hmoves

end Respects

/-! ### The requests of a build -/

namespace Build

/-- What packaging a module can ask for. -/
def packageRequests (tools : ToolSettings) (directory name : String) : List Request := [
  .runTool tools.compiler
    ["-mMo", modulePath directory name ".mod", modulePath directory name ".te"],
  .runTool tools.packager
    ["-o", modulePath directory name ".pp", "-m", modulePath directory name ".mod", "-f",
      modulePath directory name ".fc"]]

/-- What writing a module can ask for. -/
def moduleRequests (tools : ToolSettings) (relabelList : List String) (directory : String)
    (built : PolicyModule) : List Request :=
  [.removeTree directory, .makeDirectories directory] ++
    (artifacts relabelList built).map (fun file =>
      .writeFile (Path.join directory file.1) file.2) ++
    if tools.enabled then packageRequests tools directory built.name else []

variable {machine : Machine (StateM σ)} {view : σ → γ} {p : Request → Prop} {R : γ → γ → Prop}
  {directory path : String}

section

variable (hmoves : machine.Moves view p R)

include hmoves

theorem respects_removeTree (h : p (.removeTree path)) :
    Respects view R (machine.removeTree path) :=
  hmoves.request _ h

theorem respects_writeFile {content : String} (h : p (.writeFile path content)) :
    Respects view R (writeFile machine path content).run := by
  refine .bindExcept hmoves (hmoves.request _ h) fun written => ?_
  split <;> exact .pure hmoves _

theorem respects_runTool {tool : String} {arguments : List String}
    (h : p (.runTool tool arguments)) : Respects view R (runTool machine tool arguments).run := by
  refine .bindExcept hmoves (hmoves.request _ h) fun result => ?_
  cases result with
  | none => exact .pure hmoves _
  | some result =>
    dsimp only
    split <;> exact .pure hmoves _

theorem respects_packageModule {tools : ToolSettings} {name : String}
    (h : ∀ request ∈ packageRequests tools directory name, p request) :
    Respects view R (packageModule machine tools directory name).run := by
  simp only [packageRequests, List.forall_mem_cons] at h
  obtain ⟨hcompile, hpackage, -⟩ := h
  exact .bindExcept hmoves (respects_runTool hmoves hcompile) fun _ =>
    respects_runTool hmoves hpackage

theorem respects_writeArtifacts {files : List (String × String)}
    (h : ∀ file ∈ files, p (.writeFile (Path.join directory file.1) file.2)) :
    Respects view R (files.forM fun file =>
      writeFile machine (Path.join directory file.1) file.2).run := by
  induction files with
  | nil => exact .pure hmoves _
  | cons file rest ih =>
    obtain ⟨hfile, hrest⟩ := List.forall_mem_cons.1 h
    exact .bindExcept hmoves (respects_writeFile hmoves hfile) fun _ => ih hrest

theorem respects_writeModule {tools : ToolSettings} {relabelList : List String}
    {built : PolicyModule}
    (h : ∀ request ∈ moduleRequests tools relabelList directory built, p request) :
    Respects view R (writeModule machine tools relabelList directory built).run := by
  simp only [moduleRequests, List.forall_mem_append, List.forall_mem_cons, List.forall_mem_map] at h
  obtain ⟨⟨⟨hremove, hmake, -⟩, hwrite⟩, hpackage⟩ := h
  unfold writeModule
  refine .bindExcept hmoves (respects_removeTree hmoves hremove) fun _ => ?_
  refine .bindExcept hmoves (hmoves.request _ hmake) fun made => ?_
  cases made with
  | false => exact .pure hmoves _
  | true =>
    refine .bindExcept hmoves (respects_writeArtifacts hmoves hwrite) fun _ => ?_
    cases henabled : tools.enabled with
    | false => exact .pure hmoves _
    | true =>
      rw [if_pos henabled] at hpackage
      exact .bindExcept hmoves (respects_packageModule hmoves hpackage) fun _ => .pure hmoves _

/-- One module may be written and removed again. -/
theorem respects_addModule {tools : ToolSettings} {relabelList : List String} {origin out : String}
    {built : PolicyModule}
    (h : ∀ request ∈ moduleRequests tools relabelList (Path.join out built.name) built, p request)
    (state : List Diagnostic × BuildReport) :
    Respects view R (addModule machine tools relabelList origin out state built) := by
  unfold addModule
  refine .bind hmoves (respects_writeModule hmoves h) fun outcome => ?_
  have hremove : p (.removeTree (Path.join out built.name)) := h _ (by simp [moduleRequests])
  split
  · exact .pure hmoves _
  · exact .bind hmoves (respects_removeTree hmoves hremove) fun _ => .pure hmoves _

end

end Build

end TypeEnforcement
