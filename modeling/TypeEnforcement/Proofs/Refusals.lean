/-
What is left of rules of which one is refused.

Rules are added one after another, and each is checked before anything of it is recorded.  Nothing
that comes after the check can fail: the class that a rule requires is the one that it was checked
against.  So rules are added up to the first one that does not keep to the policy, and of this one
and of those behind it the module has nothing.

Main statements:
* `check_ne_undefinedClass` — no check refuses a rule as requiring a missing class does;
* `addUpTo_append`, `addUpTo_append_cons` — rules that keep to the policy, and one behind them that
  does not;
* `stops_at_first_refused` — where the rules of a list end, with which fault and in which module.
-/
import TypeEnforcement.Module.Basic

namespace TypeEnforcement

namespace PolicyModule

variable {policy : SystemPolicy}

/-- All of some rules keep to the policy. -/
def KeepToPolicy (policy : SystemPolicy) (rules : List Rule) : Prop :=
  ∀ rule ∈ rules, ∃ permissions, rule.check policy = .ok permissions

/-- A check has reasons of its own for refusing a rule. -/
theorem check_ne_undefinedClass (rule : Rule) (line className : String) :
    rule.check policy ≠ .error (.rule line (.undefinedClass className)) := by
  intro h
  rcases Rule.check_cases policy rule with ⟨reason, hreason, herror⟩ | ⟨_, -, hok, -⟩
  · -- Which statement is reported does not matter.
    obtain ⟨-, heq⟩ := Fault.rule.inj (Except.error.inj (herror.symm.trans h))
    exact hreason className heq
  · exact absurd (hok.symm.trans h) (by simp)

/-- Rules that keep to the policy are all added, and then those behind them. -/
theorem addUpTo_append {before : List Rule} (h : KeepToPolicy policy before) (m : PolicyModule)
    (rest : List Rule) :
    m.addUpTo policy (before ++ rest) = (m.addUpTo policy before).1.addUpTo policy rest ∧
      (m.addUpTo policy before).2 = none := by
  induction before generalizing m with
  | nil => exact ⟨rfl, rfl⟩
  | cons rule others ih =>
    obtain ⟨⟨permissions, hcheck⟩, hothers⟩ := List.forall_mem_cons.1 h
    rw [List.cons_append, addUpTo_cons, addUpTo_cons, hcheck]
    exact ih hothers _

/-- The first rule that does not keep to the policy ends the list. -/
theorem addUpTo_append_cons {before : List Rule} (h : KeepToPolicy policy before) {bad : Rule}
    {fault : Fault} (hbad : bad.check policy = .error fault) (m : PolicyModule)
    (after : List Rule) :
    m.addUpTo policy (before ++ bad :: after) = ((m.addUpTo policy before).1, some fault) := by
  rw [(addUpTo_append h m _).1, addUpTo_cons, hbad]

/-- Either all rules of a list keep to the policy, or there is a first one that does not. -/
theorem keepToPolicy_or_exists (policy : SystemPolicy) (rules : List Rule) :
    KeepToPolicy policy rules ∨ ∃ before bad after fault, rules = before ++ bad :: after ∧
      KeepToPolicy policy before ∧ bad.check policy = .error fault := by
  induction rules with
  | nil => exact .inl fun _ h => absurd h List.not_mem_nil
  | cons rule rest ih =>
    cases hcheck : rule.check policy with
    | error fault =>
      exact .inr ⟨[], rule, rest, fault, rfl, fun _ h => absurd h List.not_mem_nil, hcheck⟩
    | ok permissions =>
      have hcons {rules : List Rule} (h : KeepToPolicy policy rules) :
          KeepToPolicy policy (rule :: rules) := List.forall_mem_cons.2 ⟨⟨permissions, hcheck⟩, h⟩
      rcases ih with h | ⟨before, bad, after, fault, rfl, h, hbad⟩
      · exact .inl (hcons h)
      · exact .inr ⟨rule :: before, bad, after, fault, rfl, hcons h, hbad⟩

/-- Rules are refused if and only if one of them does not keep to the policy.  Then the fault is
that of the first such rule, and the module has the rules before it and nothing else.  No rule is
ever refused because its class is missing when it is required. -/
theorem stops_at_first_refused (policy : SystemPolicy) (m : PolicyModule) (rules : List Rule) :
    ((∃ fault, (m.addUpTo policy rules).2 = some fault) ↔
      ∃ rule ∈ rules, ∃ fault, rule.check policy = .error fault) ∧
    (∀ before bad after fault, rules = before ++ bad :: after → KeepToPolicy policy before →
      bad.check policy = .error fault →
      m.addUpTo policy rules = ((m.addUpTo policy before).1, some fault) ∧
        (m.addUpTo policy before).2 = none) ∧
    ∀ line className,
      (m.addUpTo policy rules).2 ≠ some (.rule line (.undefinedClass className)) := by
  refine ⟨?_, ?_, fun line className => ?_⟩
  · rcases keepToPolicy_or_exists policy rules with h | ⟨before, bad, after, fault, rfl, h, hbad⟩
    · have hnone : (m.addUpTo policy rules).2 = none := (addUpTo_append h m []).2
      constructor
      · rintro ⟨fault, hfault⟩
        exact absurd (hnone.symm.trans hfault) (by simp)
      · rintro ⟨rule, hrule, fault, hfault⟩
        obtain ⟨permissions, hcheck⟩ := h rule hrule
        exact absurd (hcheck.symm.trans hfault) (by simp)
    · rw [addUpTo_append_cons h hbad]
      exact ⟨fun _ => ⟨bad, by simp, fault, hbad⟩, fun _ => ⟨fault, rfl⟩⟩
  · rintro before bad after fault rfl h hbad
    exact ⟨addUpTo_append_cons h hbad m after, (addUpTo_append h m []).2⟩
  · rcases keepToPolicy_or_exists policy rules with h | ⟨before, bad, after, fault, rfl, h, hbad⟩
    · rw [(addUpTo_append h m []).2]
      simp
    · rw [addUpTo_append_cons h hbad]
      rintro heq
      cases heq
      exact check_ne_undefinedClass bad line className hbad

/-- Of three rules of which the second names a permission that its class does not have, the first
one is added and requires its names, and the third one is as if it had never been there. -/
theorem misspelledRead_stops :
    let policy : SystemPolicy := { classes := .ofList [("file", .ofList ["open", "read"])] }
    let log : AccessRule := .allow "app_t" "log_t" "file" ["read"]
    let key : AccessRule := .allow "app_t" "key_t" "file" ["raed"]
    let tmp : AccessRule := .allow "app_t" "tmp_t" "file" ["open"]
    let m : PolicyModule := { name := "demo", version := "1.0" }
    let (next, fault) := m.addUpTo policy [.access log, .access key, .access tmp]
    fault = some (.rule "allow app_t key_t : file \x7b raed \x7d;"
      (.unknownPermission "file" "raed")) ∧
    next.accessRules = [log] ∧ next.requirements.types = .ofList ["app_t", "log_t"] ∧
    next.requirements.classes = .ofList [("file", .ofList ["read"])] := by
  intro policy log key tmp m
  have hlog : KeepToPolicy policy [.access log] :=
    List.forall_mem_singleton.2 ⟨.ofList ["open", "read"], rfl⟩
  have htext : Text.trimRight key.text = "allow app_t key_t : file \x7b raed \x7d;" := by
    decide +kernel
  have hkey : (Rule.access key).check policy =
      .error (.rule (Text.trimRight key.text) (.unknownPermission "file" "raed")) := rfl
  obtain ⟨-, hstops, -⟩ :=
    stops_at_first_refused policy m [.access log, .access key, .access tmp]
  obtain ⟨heq, -⟩ := hstops [.access log] (.access key) [.access tmp] _ rfl hlog hkey
  rw [heq, htext]
  refine ⟨rfl, ?_, ?_, ?_⟩
  · decide +kernel
  · decide +kernel
  · decide +kernel

end PolicyModule

end TypeEnforcement
