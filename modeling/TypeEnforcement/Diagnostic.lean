/-
Reports on the progress of a build.

* `Diagnostic` — one report, with its severity and what it concerns;
* `Report` — a computation that may fail and that makes reports on its way, also before it fails.

Main statements:
* `Report.pure_bind`, `Report.bind_assoc` — reports are kept in order through any composition;
* `Report.result_bind` — results compose without the reports.
-/
import TypeEnforcement.Fault

namespace TypeEnforcement

inductive Severity where
  | info
  | warning
  | error
deriving DecidableEq

def Severity.word : Severity → String
  | info => "info"
  | warning => "warning"
  | error => "error"

/-- A report, with the project or module it concerns. -/
structure Diagnostic where
  severity : Severity
  origin : String
  message : String
deriving DecidableEq

/-- A report as it is shown. -/
def Diagnostic.text (d : Diagnostic) : String :=
  "[" ++ d.severity.word ++ "] " ++ d.origin ++ ": " ++ d.message

/-- The result of a computation that may fail, with the reports made on the way. -/
structure Report (α : Type) where
  diagnostics : List Diagnostic
  result : Except Fault α

namespace Report

variable {α β γ : Type}

/-- A result without reports. -/
def pure (value : α) : Report α :=
  ⟨[], .ok value⟩

/-- Go on with the result, if there is one. -/
def bind (r : Report α) (next : α → Report β) : Report β :=
  match r.result with
  | .ok value => ⟨r.diagnostics ++ (next value).diagnostics, (next value).result⟩
  | .error fault => ⟨r.diagnostics, .error fault⟩

instance : Monad Report where
  pure := pure
  bind := bind

def note (severity : Severity) (origin message : String) : Report Unit :=
  ⟨[⟨severity, origin, message⟩], .ok ()⟩

/-- A computation that makes no reports. -/
def ofExcept (result : Except Fault α) : Report α :=
  ⟨[], result⟩

def fail (fault : Fault) : Report α :=
  ⟨[], .error fault⟩

/-- Go on whether a computation fails or not, with its result. -/
def attempt (r : Report α) : Report (Except Fault α) :=
  ⟨r.diagnostics, .ok r.result⟩

/-- Report the fault of a computation from a scope. -/
def inScope (scope : Scope) (r : Report α) : Report α :=
  ⟨r.diagnostics, scope.wrap r.result⟩

theorem pure_bind (value : α) (next : α → Report β) : (pure value).bind next = next value := by
  simp [pure, bind]

theorem bind_assoc (r : Report α) (f : α → Report β) (g : β → Report γ) :
    (r.bind f).bind g = r.bind fun a => (f a).bind g := by
  obtain ⟨ds, result⟩ := r
  cases result with
  | error fault => simp [bind]
  | ok value =>
    simp only [bind]
    cases (f value).result <;> simp

theorem bind_pure (r : Report α) : r.bind pure = r := by
  obtain ⟨ds, result⟩ := r
  cases result with
  | error fault => rfl
  | ok value => simp [bind, pure]

instance : LawfulMonad Report :=
  LawfulMonad.mk' Report bind_pure pure_bind bind_assoc

/-! The result of a computation does not depend on the reports made on its way. -/

@[simp] theorem result_pure (value : α) : (Pure.pure value : Report α).result = .ok value := rfl

@[simp] theorem result_bind (r : Report α) (next : α → Report β) :
    (r >>= next).result = r.result >>= fun a => (next a).result := by
  obtain ⟨ds, result⟩ := r
  cases result <;> rfl

@[simp] theorem result_ofExcept (result : Except Fault α) : (ofExcept result).result = result := rfl

@[simp] theorem result_attempt (r : Report α) : r.attempt.result = .ok r.result := rfl

@[simp] theorem result_inScope (scope : Scope) (r : Report α) :
    (r.inScope scope).result = scope.wrap r.result := rfl

@[simp] theorem result_mapM (f : α → Report β) (items : List α) :
    (items.mapM f).result = items.mapM fun item => (f item).result := by
  induction items with
  | nil => rfl
  | cons item rest ih =>
    rw [List.mapM_cons, List.mapM_cons, result_bind]
    simp only [result_bind, ih, result_pure]
    rfl

@[simp] theorem result_foldlM (f : β → α → Report β) (init : β) (items : List α) :
    (items.foldlM f init).result = items.foldlM (fun b item => (f b item).result) init := by
  induction items generalizing init with
  | nil => rfl
  | cons item rest ih => simp only [List.foldlM_cons, result_bind, ih]

end Report

end TypeEnforcement
