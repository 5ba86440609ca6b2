/-
Policy rules.

* `AccessRule` — what a subject may do to the objects of a type and a class, and the kinds of rules
  that say which accesses are recorded;
* `TransitionRule` — the type that a new object or process gets;
* `Rule.text`, `Rule.parse` — a rule as a statement of the policy language;
* `AccessRule.Grants` — the accesses that a rule speaks of.

Main statements:
* `AccessRule.grants_merge` — merging two rules with one target neither adds nor loses accesses.
-/
import TypeEnforcement.Fault
import TypeEnforcement.Rule.Actions
import TypeEnforcement.Text.Split

namespace TypeEnforcement

/-! ### Access rules -/

inductive AccessKind where
  | allow
  | dontAudit
  | auditAllow
  | neverAllow
deriving DecidableEq

namespace AccessKind

def keyword : AccessKind → String
  | allow => "allow"
  | dontAudit => "dontaudit"
  | auditAllow => "auditallow"
  | neverAllow => "neverallow"

def ofKeyword? : String → Option AccessKind
  | "allow" => some allow
  | "dontaudit" => some dontAudit
  | "auditallow" => some auditAllow
  | "neverallow" => some neverAllow
  | _ => none

theorem ofKeyword?_keyword (kind : AccessKind) : ofKeyword? kind.keyword = some kind := by
  cases kind <;> rfl

end AccessKind

/-- Who accesses what: the part of an access rule that decides which rules may be merged. -/
structure AccessTarget where
  kind : AccessKind
  /-- The type or attribute of the process. -/
  subject : String
  /-- The type or attribute of the object. -/
  object : String
  className : String
deriving DecidableEq

structure AccessRule extends AccessTarget where
  actions : Actions
deriving DecidableEq

namespace AccessRule

def allow (subject object className : String) (permissions : List String) : AccessRule :=
  { kind := .allow, subject, object, className, actions := .ofList permissions }

/-- The accesses that a rule speaks of. -/
def Grants (rule : AccessRule) (target : AccessTarget) (permission : String) : Prop :=
  rule.toAccessTarget = target ∧ rule.actions.Covers permission

/-- The rule with the actions of another one added, if they have one target. -/
def merge? (rule other : AccessRule) : Option AccessRule :=
  if rule.toAccessTarget = other.toAccessTarget then
    some { rule with actions := rule.actions.union other.actions }
  else none

/-- The statement of a rule, with its line feed. -/
def text (rule : AccessRule) : String :=
  rule.kind.keyword ++ " " ++ rule.subject ++ " " ++ rule.object ++ " : " ++ rule.className ++
    " " ++ rule.actions.text ++ ";\n"

theorem grants_merge {rule other merged : AccessRule} {target : AccessTarget}
    {permission : String} (h : rule.merge? other = some merged) :
    merged.Grants target permission ↔
      rule.Grants target permission ∨ other.Grants target permission := by
  unfold merge? at h
  split at h
  · rename_i heq
    cases h
    simp only [Grants, Actions.covers_union, heq]
    exact and_or_left
  · exact absurd h (by simp)

end AccessRule

/-! ### Transition rules -/

/-- A rule that gives new objects or processes a type. -/
structure TransitionRule where
  subject : String
  /-- The type of the directory or of the executable. -/
  object : String
  className : String
  /-- The type that the new object or process gets. -/
  target : String
  /-- The name of the objects that the rule is for, if it is not for all. -/
  name : Option String
deriving DecidableEq

namespace TransitionRule

/-- A rule for the objects of a name; an empty name is none. -/
def make (subject object className target : String) (name : Option String) : TransitionRule :=
  { subject, object, className, target, name := name.filter (· ≠ "") }

/-- Two rules conflict if only their targets differ. -/
def ConflictsWith (a b : TransitionRule) : Prop :=
  a.subject = b.subject ∧ a.object = b.object ∧ a.className = b.className ∧ a.name = b.name ∧
    a.target ≠ b.target

instance (a b : TransitionRule) : Decidable (a.ConflictsWith b) :=
  inferInstanceAs (Decidable (_ ∧ _))

/-- The statement of a rule, with its line feed. -/
def text (rule : TransitionRule) : String :=
  let head := "type_transition " ++ rule.subject ++ " " ++ rule.object ++ " : " ++
    rule.className ++ " " ++ rule.target
  match rule.name with
  | some name => head ++ " \"" ++ name ++ "\";\n"
  | none => head ++ ";\n"

end TransitionRule

/-! ### Any rule -/

/-- A rule of either kind. -/
inductive Rule where
  | access (rule : AccessRule)
  | transition (rule : TransitionRule)
deriving DecidableEq

namespace Rule

/-- The object class that a rule is for. -/
def className : Rule → String
  | access rule => rule.className
  | transition rule => rule.className

/-- The statement of a rule, with its line feed. -/
def text : Rule → String
  | access rule => rule.text
  | transition rule => rule.text

/-- The words on both sides of the one colon of a statement. -/
def sides? (line : String) : Option (List String × List String) :=
  let statement := Text.trim line
  match Text.split ':' ((Text.beforeEnd? ";" statement).getD statement) with
  | [head, tail] => some (Text.words head, Text.words tail)
  | _ => none

/-- A permission without the braces that stand next to it. -/
def withoutBraces (word : String) : String :=
  String.ofList (Text.trimEnd (· == '\x7d') (Text.trimStart (· == '\x7b') word.toList))

/-- Read the statement of an access rule. -/
def parseAccess? (line : String) : Option AccessRule := do
  match ← sides? line with
  | ([kind, subject, object], className :: words) =>
    let kind ← AccessKind.ofKeyword? kind
    let permissions := (words.map withoutBraces).filter (· ≠ "")
    if permissions = [] then none
    else some { kind, subject, object, className, actions := .ofList permissions }
  | _ => none

/-- Read the statement of a transition rule; what follows the name does not count. -/
def parseTransition? (line : String) : Option TransitionRule := do
  match ← sides? line with
  | (["type_transition", subject, object], [className, target]) =>
    some (.make subject object className target none)
  | (["type_transition", subject, object], className :: target :: name :: _) =>
    some (.make subject object className target (some (Text.trimChar '"' name)))
  | _ => none

/-- Read a statement; its first word tells the kind of the rule. -/
def parse (line : String) : Except Fault Rule :=
  let refuse (reason : RuleFault) : Except Fault Rule := .error (.rule (Text.trim line) reason)
  match Text.words line with
  | "type_transition" :: _ =>
    match parseTransition? line with
    | some rule => .ok (transition rule)
    | none => refuse .malformedTransition
  | word :: _ =>
    if (AccessKind.ofKeyword? word).isNone then refuse .unknownKeyword
    else match parseAccess? line with
      | some rule => .ok (access rule)
      | none => refuse .malformedAccess
  | [] => refuse .unknownKeyword

end Rule

end TypeEnforcement
