/-
Whether permissions are additive.

A permission lists actions and resources.  What it says is what each of its actions says on each of
its resources: no action changes what another one means, and no resource does either.  So a
permission may be split into several ones, or written in another order, and one that lists more says
more.

* `Provision`, `SaidBy` — what rules say: accesses, and the transitions themselves;
* `Pointwise` — what several actions bring about if one of them does;
* `Meaning` — what a kind of permission accepts, and what one action says on one resource;
* `IsUnion`, `IsPart` — the answers for permissions that are split, or that list less.

Main statements:
* `describes_ofPermission` — the rules of a permission are those of its single actions on its single
  resources, whatever its kind;
* `permissions_additive` — splitting a permission by its actions or by its resources.
-/
import TypeEnforcement.Proofs.Support

namespace TypeEnforcement

/-! ### What rules say -/

/-- Something that rules say. -/
inductive Provision where
  /-- An access is among those that a rule speaks of. -/
  | access (target : AccessTarget) (permission : String)
  | transition (rule : TransitionRule)

/-- One of some rules says this. -/
def SaidBy (rules : List Rule) : Provision → Prop
  | .access target permission => GrantedBy rules target permission
  | .transition rule => .transition rule ∈ rules

variable {rules a b : List Rule} {provision : Provision} {subject object className : String}
  {permissions : List String}

@[simp] theorem not_saidBy_nil : ¬ SaidBy [] provision := by
  cases provision <;> simp [SaidBy, GrantedBy]

@[simp] theorem saidBy_append :
    SaidBy (a ++ b) provision ↔ SaidBy a provision ∨ SaidBy b provision := by
  cases provision with
  | access target permission =>
    simp only [SaidBy, GrantedBy, List.mem_append, or_and_right, exists_or]
  | transition rule => simp [SaidBy]

@[simp] theorem saidBy_flatMap {α : Type} {items : List α} {f : α → List Rule} :
    SaidBy (items.flatMap f) provision ↔ ∃ item ∈ items, SaidBy (f item) provision := by
  induction items with
  | nil => simp
  | cons item rest ih => simp [ih]

@[simp] theorem saidBy_ite {c : Prop} [Decidable c] :
    SaidBy (if c then a else []) provision ↔ c ∧ SaidBy a provision := by
  split <;> simp [*]

theorem saidBy_allow_access {target : AccessTarget} {permission : String} :
    SaidBy [Bundle.allow subject object className permissions] (.access target permission) ↔
      ⟨.allow, subject, object, className⟩ = target ∧
        ("*" ∈ permissions ∨ permission ∈ permissions) := by
  simp only [SaidBy, GrantedBy, Bundle.allow, List.mem_singleton, Rule.access.injEq,
    exists_eq_left, AccessRule.Grants, AccessRule.allow, Actions.covers_ofList]

theorem not_saidBy_allow_transition {rule : TransitionRule} :
    ¬ SaidBy [Bundle.allow subject object className permissions] (.transition rule) := by
  simp [SaidBy, Bundle.allow]

/-- A rule without permissions says nothing. -/
theorem not_saidBy_allow_nil : ¬ SaidBy [Bundle.allow subject object className []] provision := by
  cases provision with
  | access target permission => simp [saidBy_allow_access]
  | transition rule => exact not_saidBy_allow_transition

theorem saidBy_fileAccess {fileClass : FileClass} :
    SaidBy (Bundle.fileAccess subject object fileClass permissions) provision ↔
      ∃ c ∈ fileClass.kernelClasses,
        SaidBy [Bundle.allow subject object c permissions] provision := by
  rw [Bundle.fileAccess, List.map_eq_flatMap, saidBy_flatMap]

/-- Leaving out a rule for no permissions leaves out nothing. -/
@[simp] theorem saidBy_allowAny :
    SaidBy (Grant.allowAny subject object className permissions) provision ↔
      SaidBy [Bundle.allow subject object className permissions] provision := by
  cases permissions with
  | nil => simp [Grant.allowAny, not_saidBy_allow_nil]
  | cons permission rest => simp [Grant.allowAny]

/-! ### Actions that count one by one -/

/-- Several actions bring something about if and only if one of them does. -/
def Pointwise (P : List String → Prop) : Prop :=
  ∀ actions, actions ≠ [] → (P actions ↔ ∃ action ∈ actions, P [action])

namespace Pointwise

variable {P Q : List String → Prop}

theorem congr (h : Pointwise P) (heq : ∀ actions, Q actions ↔ P actions) : Pointwise Q := by
  obtain rfl : Q = P := funext fun actions => propext (heq actions)
  exact h

/-- What is always there comes with every action. -/
theorem const (p : Prop) : Pointwise fun _ => p := by
  intro actions hactions
  obtain ⟨action, haction⟩ := List.exists_mem_of_ne_nil actions hactions
  exact ⟨fun h => ⟨action, haction, h⟩, fun ⟨_, _, h⟩ => h⟩

theorem any (P : String → Prop) : Pointwise fun actions => ∃ action ∈ actions, P action := by
  intro actions _
  simp

theorem mem (name : String) : Pointwise fun actions => name ∈ actions :=
  (any (name = ·)).congr fun actions => by simp

theorem or (hP : Pointwise P) (hQ : Pointwise Q) :
    Pointwise fun actions => P actions ∨ Q actions := by
  intro actions hactions
  show P actions ∨ Q actions ↔ ∃ action ∈ actions, P [action] ∨ Q [action]
  rw [hP actions hactions, hQ actions hactions]
  simp only [and_or_left, exists_or]

theorem and_const (hP : Pointwise P) (q : Prop) : Pointwise fun actions => P actions ∧ q := by
  intro actions hactions
  show P actions ∧ q ↔ ∃ action ∈ actions, P [action] ∧ q
  rw [hP actions hactions]
  constructor
  · rintro ⟨⟨action, haction, h⟩, hq⟩
    exact ⟨action, haction, h, hq⟩
  · rintro ⟨action, haction, h, hq⟩
    exact ⟨⟨action, haction, h⟩, hq⟩

theorem exists_mem {α : Type} (items : List α) {P : α → List String → Prop}
    (h : ∀ item, Pointwise (P item)) :
    Pointwise fun actions => ∃ item ∈ items, P item actions := by
  intro actions hactions
  constructor
  · rintro ⟨item, hitem, hP⟩
    obtain ⟨action, haction, hP⟩ := (h item actions hactions).1 hP
    exact ⟨action, haction, item, hitem, hP⟩
  · rintro ⟨action, haction, item, hitem, hP⟩
    exact ⟨item, hitem, (h item actions hactions).2 ⟨action, haction, hP⟩⟩

/-- The rule for the permissions of several actions says what those for each action say. -/
theorem allow {names : List String → List String}
    (h : ∀ name, Pointwise fun actions => name ∈ names actions) :
    Pointwise fun actions => SaidBy [Bundle.allow subject object className (names actions)]
      provision := by
  cases provision with
  | access target permission =>
    have hcovered := ((h "*").or (h permission)).and_const
      (⟨.allow, subject, object, className⟩ = target)
    exact hcovered.congr fun actions => saidBy_allow_access.trans and_comm
  | transition rule =>
    exact (const False).congr fun actions => iff_false_intro not_saidBy_allow_transition

end Pointwise

/-! ### Files -/

namespace Grant

theorem pointwise_fileItself (domain : String) (file : LabelledFile) :
    Pointwise fun actions => SaidBy (fileItself domain file actions) provision := by
  have hclass (c : FileClass) : Pointwise fun actions => ∃ k ∈ c.kernelClasses,
      SaidBy [Bundle.allow domain file.typeName k (FileAction.permissionsOf c actions)]
        provision := by
    refine .exists_mem _ fun k => .allow fun name => ?_
    exact (Pointwise.any _).congr fun actions => FileAction.mem_permissionsOf
  refine (Pointwise.exists_mem file.fileClass.members hclass).congr fun actions => ?_
  rw [fileItself, saidBy_flatMap]
  refine exists_congr fun c => and_congr_right fun _ => ?_
  rw [← saidBy_fileAccess]
  -- A class on which no action means anything has no rules.
  cases hnames : FileAction.permissionsOf c actions with
  | nil => simp [saidBy_fileAccess, not_saidBy_allow_nil]
  | cons name rest => simp

theorem pointwise_fileActions (fallback domain : String) (file : LabelledFile) :
    Pointwise fun actions => SaidBy (fileActions fallback domain actions file) provision := by
  simp only [fileActions, saidBy_append, saidBy_ite]
  refine .or (.or (.or (.or ?_ ?_) ?_) ?_) ?_
  · exact pointwise_fileItself domain file
  · exact (Pointwise.mem "exec").and_const _
  · exact (Pointwise.mem "create").and_const _
  · exact (Pointwise.mem "remove").and_const _
  · exact (Pointwise.mem FileAction.mount).and_const _

/-! ### Sockets -/

theorem pointwise_lifecycle (socketClass name : String) :
    Pointwise fun actions => name ∈ Socket.lifecycle socketClass actions := by
  simp only [Socket.lifecycle, mem_distinct, List.mem_append, List.mem_flatMap]
  exact (Pointwise.any _).or (.const _)

theorem pointwise_onPort (socketClass name : String) :
    Pointwise fun actions => name ∈ Socket.onPort socketClass actions := by
  simp only [Socket.onPort, mem_distinct, List.mem_flatMap]
  exact Pointwise.any _

theorem pointwise_onPackets (receiving sending : List String) (socketClass name : String) :
    Pointwise fun actions => name ∈ Socket.onPackets receiving sending socketClass actions := by
  unfold Socket.onPackets
  split
  · exact (Pointwise.const False).congr fun _ => by simp
  · simp only [mem_distinct, List.mem_flatMap]
    exact Pointwise.any _

theorem pointwise_onPorts (policy : SystemPolicy) (domain : String) (resource : NetResource) :
    Pointwise fun actions => SaidBy (onPorts policy domain actions resource) provision := by
  simp only [onPorts, saidBy_flatMap]
  refine .exists_mem _ fun socketClass => ?_
  cases Protocol.ofSocketClass? socketClass with
  | none => exact Pointwise.const (SaidBy [] provision)
  | some protocol =>
    simp only [saidBy_allowAny]
    exact .allow (pointwise_onPort socketClass)

theorem pointwise_onSocket (domain socketClass : String) :
    Pointwise fun actions => SaidBy (onSocket domain actions socketClass) provision := by
  simp only [onSocket, saidBy_append, saidBy_allowAny]
  refine .or (.or (.or (.or (.or (.const _) ?_) ?_) ?_) (.const _)) (.const _)
  · exact .allow (pointwise_lifecycle socketClass)
  · exact .allow (pointwise_onPackets _ _ socketClass)
  · exact .allow (pointwise_onPackets _ _ socketClass)

/-! ### Kinds of permissions -/

/-- What a kind of permission accepts, and what it says action by action and resource by
resource. -/
structure Meaning where
  /-- The actions that are not refused. -/
  Admits : String → Prop
  /-- The resources that are not refused. -/
  Serves : String → Prop
  /-- What an action says on a resource. -/
  Says : (resource action : String) → Provision → Prop

/-- How a kind of permission is answered, from its resources and its actions. -/
abbrev Answers : Type :=
  List String → List String → Except Fault (List Rule)

/-- A permission is accepted if all its actions and resources are, and then it says what they say
one by one. -/
structure Meaning.Describes (meaning : Meaning) (answer : Answers) : Prop where
  accepts : ∀ {resources actions}, resources ≠ [] → actions ≠ [] →
    ((∃ rules, answer resources actions = .ok rules) ↔
      (∀ action ∈ actions, meaning.Admits action) ∧ ∀ path ∈ resources, meaning.Serves path)
  saidBy_iff : ∀ {resources actions rules}, resources ≠ [] → actions ≠ [] →
    answer resources actions = .ok rules → ∀ provision, SaidBy rules provision ↔
      ∃ path ∈ resources, ∃ action ∈ actions, meaning.Says path action provision

/-- The meaning of a kind whose resources are read one by one, and have rules for all actions
together. -/
def Meaning.ofReadings {α : Type} (read : String → Option α) (Admits : String → Prop)
    (rulesOf : List String → α → List Rule) : Meaning where
  Admits
  Serves path := ∃ value, read path = some value
  Says path action provision :=
    ∃ value, read path = some value ∧ SaidBy (rulesOf [action] value) provision

/-- Files that the project declares; every word is an action. -/
def filesystemMeaning (allocation : Allocation) (fallback domain : String) : Meaning :=
  .ofReadings allocation.file? (fun _ => True) (fileActions fallback domain)

/-- The rules for one network resource. -/
def onResource (policy : SystemPolicy) (domain : String) (actions : List String)
    (resource : NetResource) : List Rule :=
  onPorts policy domain actions resource ++
    (Socket.classesOf resource).flatMap (onSocket domain actions)

/-- Network resources that can be read, with the actions on sockets. -/
def networkMeaning (policy : SystemPolicy) (domain : String) : Meaning :=
  .ofReadings (fun line => (NetResource.parse line).toOption) (· ∈ Socket.actions)
    (onResource policy domain)

/-- Capabilities are actions, and resources do not count. -/
def capabilityMeaning (domain : String) : Meaning where
  Admits name := name ∈ Capability.all
  Serves _ := True
  Says _ name provision :=
    SaidBy [Bundle.allow domain domain (Capability.classOf name) [name]] provision ∨
      SaidBy [Bundle.allow domain domain "process" ["setcap", "getcap"]] provision

/-- A kind that is unknown refuses nothing and says nothing. -/
def unknownMeaning : Meaning where
  Admits _ := True
  Serves _ := True
  Says _ _ _ := False

/-- What the permissions of a kind mean. -/
def meaningOf (context : Context) (domain : String) : Option PermissionKind → Meaning
  | some .filesystem => filesystemMeaning context.allocation context.fallbackDomain domain
  | some .capability => capabilityMeaning domain
  | some .network => networkMeaning context.policy domain
  | none => unknownMeaning

/-- No part is missing from a permission with actions and resources. -/
theorem requireParts_eq_ok {kindWord : String} {resources actions : List String}
    (needsResources : Bool) (hresources : resources ≠ []) (hactions : actions ≠ []) :
    requireParts needsResources { kindWord, resources, actions } = .ok () := by
  cases needsResources <;> simp [requireParts, hresources, hactions]

/-- The items of a list all have values if each of them has one. -/
theorem exists_mapM_eq_ok_iff {α β : Type} {f : α → Except Fault β} {items : List α} :
    (∃ values, items.mapM f = .ok values) ↔ ∀ item ∈ items, ∃ value, f item = .ok value := by
  induction items with
  | nil => simp [pure, Except.pure]
  | cons item rest ih =>
    rw [List.forall_mem_cons, ← ih]
    constructor
    · rintro ⟨values, h⟩
      obtain ⟨value, others, hvalue, hothers, -⟩ := mapM_cons_eq_ok_iff.1 h
      exact ⟨⟨value, hvalue⟩, others, hothers⟩
    · rintro ⟨⟨value, hvalue⟩, others, hothers⟩
      exact ⟨_, mapM_cons_eq_ok_iff.2 ⟨value, others, hvalue, hothers, rfl⟩⟩

/-- A kind of permission is described by the rules for its single resources if every resource is
read in its turn, and what the rules for all of them say is said for one of them. -/
theorem describes_ofReadings {α : Type} {read : String → Option α} {Admits : String → Prop}
    {rulesOf : List String → α → List Rule} {answer : Answers} (step : String → Except Fault α)
    (whole : List String → List α → List Rule)
    (hstep : ∀ path value, step path = .ok value ↔ read path = some value)
    (hanswer : ∀ {resources actions rules}, resources ≠ [] → actions ≠ [] →
      (answer resources actions = .ok rules ↔ (∀ action ∈ actions, Admits action) ∧
        ∃ values, resources.mapM step = .ok values ∧ whole actions values = rules))
    (hwhole : ∀ actions values provision, SaidBy (whole actions values) provision ↔
      ∃ value ∈ values, SaidBy (rulesOf actions value) provision)
    (hpointwise : ∀ value provision, Pointwise fun actions =>
      SaidBy (rulesOf actions value) provision) :
    (Meaning.ofReadings read Admits rulesOf).Describes answer where
  accepts := by
    intro resources actions hresources hactions
    have hserves : (∀ path ∈ resources, ∃ value, read path = some value) ↔
        ∃ values, resources.mapM step = .ok values := by
      simp only [exists_mapM_eq_ok_iff, hstep]
    show _ ↔ (∀ action ∈ actions, Admits action) ∧
      ∀ path ∈ resources, ∃ value, read path = some value
    rw [hserves]
    constructor
    · rintro ⟨rules, h⟩
      obtain ⟨hadmits, values, hvalues, -⟩ := (hanswer hresources hactions).1 h
      exact ⟨hadmits, values, hvalues⟩
    · rintro ⟨hadmits, values, hvalues⟩
      exact ⟨_, (hanswer hresources hactions).2 ⟨hadmits, values, hvalues, rfl⟩⟩
  saidBy_iff := by
    intro resources actions rules hresources hactions h provision
    obtain ⟨-, values, hvalues, rfl⟩ := (hanswer hresources hactions).1 h
    rw [hwhole]
    constructor
    · rintro ⟨value, hvalue, hsaid⟩
      obtain ⟨path, hpath, hread⟩ := exists_item_of_mapM_eq_ok hvalues value hvalue
      obtain ⟨action, haction, hsaid⟩ := (hpointwise value provision actions hactions).1 hsaid
      exact ⟨path, hpath, action, haction, value, (hstep path value).1 hread, hsaid⟩
    · rintro ⟨path, hpath, action, haction, value, hread, hsaid⟩
      -- A resource is read the same way alone and among the others.
      obtain ⟨found, hfound, hstepped⟩ := exists_of_mapM_eq_ok hvalues path hpath
      obtain rfl : found = value :=
        Option.some.inj (((hstep path found).1 hstepped).symm.trans hread)
      exact ⟨found, hfound,
        (hpointwise found provision actions hactions).2 ⟨action, haction, hsaid⟩⟩

theorem describes_filesystem (allocation : Allocation) (fallback domain kindWord : String) :
    (filesystemMeaning allocation fallback domain).Describes fun resources actions =>
      filesystem allocation fallback domain { kindWord, resources, actions } := by
  let fileAt (path : String) : Except Fault LabelledFile :=
    (allocation.file? path).elim (.error (.undefined .resource path)) .ok
  refine describes_ofReadings fileAt
    (fun actions files => files.flatMap (fileActions fallback domain actions)) ?_ ?_ ?_ ?_
  · intro path file
    simp only [fileAt]
    cases allocation.file? path <;> simp
  · intro resources actions rules hresources hactions
    rw [filesystem, requireParts_eq_ok true hresources hactions]
    -- However the reading of a resource is written, only what it answers counts.
    have hread (step : String → Except Fault LabelledFile)
        (hstep : ∀ path, step path = fileAt path) :
        (resources.mapM step >>= fun files =>
          pure (files.flatMap (fileActions fallback domain actions))) = .ok rules ↔
        (∀ action ∈ actions, True) ∧ ∃ files, resources.mapM fileAt = .ok files ∧
          files.flatMap (fileActions fallback domain actions) = rules := by
      obtain rfl : step = fileAt := funext hstep
      simp only [bind_eq_ok_iff, pure, Except.pure, Except.ok.injEq, implies_true, true_and]
    refine hread _ fun path => ?_
    simp only [fileAt]
    cases allocation.file? path <;> rfl
  · intro actions files provision
    exact saidBy_flatMap
  · exact fun file _ => pointwise_fileActions fallback domain file

theorem describes_network (policy : SystemPolicy) (origin domain kindWord : String) :
    (networkMeaning policy domain).Describes fun resources actions =>
      (network policy origin domain { kindWord, resources, actions }).result := by
  refine describes_ofReadings (fun line => (readNetResource origin line).result)
    (fun actions resources => resources.flatMap (onPorts policy domain actions) ++
      (resources.flatMap Socket.classesOf).flatMap (onSocket domain actions)) ?_ ?_ ?_ ?_
  · intro line resource
    rw [Assembly.result_readNetResource, Scope.wrap_eq_ok_iff, toOption_eq_some_iff]
  · intro resources actions rules hresources hactions
    rw [result_network_eq_ok_iff, requireParts_eq_ok true hresources hactions]
    simp only [true_and]
  · intro actions resources provision
    simp only [List.flatMap_assoc, onResource, saidBy_append, saidBy_flatMap, and_or_left,
      exists_or]
  · intro resource provision
    simp only [onResource, saidBy_append, saidBy_flatMap]
    exact (pointwise_onPorts policy domain resource).or
      (.exists_mem _ fun socketClass => pointwise_onSocket domain socketClass)

/-- The rules for the capabilities of one class among some. -/
def onCapabilities (domain className : String) (names : List String) : List Rule :=
  allowAny domain domain className
    ((distinct names).filter (Capability.classOf · = className))

theorem saidBy_onCapabilities {domain className : String} {names : List String} :
    SaidBy (onCapabilities domain className names) provision ↔
      ∃ name ∈ names, Capability.classOf name = className ∧
        SaidBy [Bundle.allow domain domain className [name]] provision := by
  rw [onCapabilities, saidBy_allowAny]
  cases provision with
  | access target permission =>
    simp only [saidBy_allow_access, List.mem_filter, mem_distinct, List.mem_singleton,
      decide_eq_true_eq]
    constructor
    · rintro ⟨htarget, ⟨hmem, hclass⟩ | ⟨hmem, hclass⟩⟩
      · -- The capability `*` stands for every permission of its class.
        exact ⟨"*", hmem, hclass, htarget, .inl rfl⟩
      · exact ⟨permission, hmem, hclass, htarget, .inr rfl⟩
    · rintro ⟨name, hmem, hclass, htarget, rfl | rfl⟩
      · exact ⟨htarget, .inl ⟨hmem, hclass⟩⟩
      · exact ⟨htarget, .inr ⟨hmem, hclass⟩⟩
  | transition rule => simp [not_saidBy_allow_transition]

theorem forM_check_eq_ok_iff {names : List String} :
    names.forM Capability.check = .ok () ↔ ∀ name ∈ names, name ∈ Capability.all := by
  induction names with
  | nil => simp [pure, Except.pure]
  | cons name rest ih =>
    show (Capability.check name >>= fun _ => rest.forM Capability.check) = .ok () ↔ _
    rw [bind_eq_ok_iff, List.forall_mem_cons, ← ih]
    simp [Capability.check]

theorem capability_eq_ok_iff {domain kindWord : String} {resources actions : List String}
    (hresources : resources ≠ []) (hactions : actions ≠ []) {rules : List Rule} :
    capability domain { kindWord, resources, actions } = .ok rules ↔
      (∀ name ∈ actions, name ∈ Capability.all) ∧
        onCapabilities domain "capability" actions ++ onCapabilities domain "capability2" actions ++
          [Bundle.allow domain domain "process" ["setcap", "getcap"]] = rules := by
  rw [capability, requireParts_eq_ok false hresources hactions]
  simp only [bind_eq_ok_iff, pure, Except.pure, Except.ok.injEq, ← forM_check_eq_ok_iff]
  constructor
  · rintro ⟨_, -, _, hcheck, h⟩
    exact ⟨hcheck, h⟩
  · rintro ⟨hcheck, h⟩
    exact ⟨(), trivial, (), hcheck, h⟩

/-- Every capability belongs to one of two classes. -/
theorem classOf_eq (name : String) :
    Capability.classOf name = "capability" ∨ Capability.classOf name = "capability2" := by
  unfold Capability.classOf
  split
  · exact .inr rfl
  · exact .inl rfl

theorem describes_capability (domain kindWord : String) :
    (capabilityMeaning domain).Describes fun resources actions =>
      capability domain { kindWord, resources, actions } where
  accepts := by
    intro resources actions hresources hactions
    simp [capability_eq_ok_iff hresources hactions, capabilityMeaning]
  saidBy_iff := by
    intro resources actions rules hresources hactions h provision
    obtain ⟨-, rfl⟩ := (capability_eq_ok_iff hresources hactions).1 h
    obtain ⟨path, hpath⟩ := List.exists_mem_of_ne_nil resources hresources
    obtain ⟨action, haction⟩ := List.exists_mem_of_ne_nil actions hactions
    simp only [saidBy_append, saidBy_onCapabilities]
    constructor
    · rintro ((⟨name, hname, hclass, h⟩ | ⟨name, hname, hclass, h⟩) | h)
      · exact ⟨path, hpath, name, hname, .inl (hclass ▸ h)⟩
      · exact ⟨path, hpath, name, hname, .inl (hclass ▸ h)⟩
      · exact ⟨path, hpath, action, haction, .inr h⟩
    · rintro ⟨_, -, name, hname, h | h⟩
      · rcases classOf_eq name with hclass | hclass
        · exact .inl (.inl ⟨name, hname, hclass, hclass ▸ h⟩)
        · exact .inl (.inr ⟨name, hname, hclass, hclass ▸ h⟩)
      · exact .inr h

theorem describes_unknown : unknownMeaning.Describes fun _ _ => .ok [] where
  accepts := by
    intro resources actions _ _
    simp [unknownMeaning]
  saidBy_iff := by
    intro resources actions rules _ _ h provision
    cases h
    simp [unknownMeaning]

/-- The rules of a permission, whatever its kind, are those of its single actions on its single
resources. -/
theorem describes_ofPermission (context : Context) (origin : String) (app : ConfinedApplication)
    (kindWord : String) :
    (meaningOf context app.domain (PermissionKind.ofKeyword? kindWord)).Describes
      fun resources actions =>
        (ofPermission context origin app { kindWord, resources, actions }).result := by
  cases hkind : PermissionKind.ofKeyword? kindWord with
  | none =>
    simp only [ofPermission, hkind]
    exact describes_unknown
  | some kind =>
    cases kind with
    | filesystem =>
      simp only [ofPermission, hkind]
      exact describes_filesystem _ _ _ kindWord
    | capability =>
      simp only [ofPermission, hkind]
      exact describes_capability _ kindWord
    | network =>
      simp only [ofPermission, hkind]
      exact describes_network _ origin _ kindWord

/-! ### Permissions that are split -/

/-- What is answered for a whole is what is answered for two parts: it is refused if one of them is,
and says what either of them says. -/
structure IsUnion (whole first second : Except Fault (List Rule)) : Prop where
  accepts : (∃ rules, whole = .ok rules) ↔
    (∃ rules, first = .ok rules) ∧ ∃ rules, second = .ok rules
  grants : ∀ {rules a b : List Rule}, whole = .ok rules → first = .ok a → second = .ok b →
    ∀ target permission, GrantedBy rules target permission ↔
      GrantedBy a target permission ∨ GrantedBy b target permission
  transitions : ∀ {rules a b : List Rule}, whole = .ok rules → first = .ok a → second = .ok b →
    ∀ rule, .transition rule ∈ rules ↔ .transition rule ∈ a ∨ .transition rule ∈ b

/-- What is answered for a part is among what is answered for the whole, and the part is not refused
if the whole is not. -/
structure IsPart (part whole : Except Fault (List Rule)) : Prop where
  accepts : (∃ rules, whole = .ok rules) → ∃ rules, part = .ok rules
  grants : ∀ {rules all : List Rule}, part = .ok rules → whole = .ok all →
    ∀ target permission, GrantedBy rules target permission → GrantedBy all target permission
  transitions : ∀ {rules all : List Rule}, part = .ok rules → whole = .ok all →
    ∀ rule, .transition rule ∈ rules → .transition rule ∈ all

theorem IsUnion.of_saidBy {whole first second : Except Fault (List Rule)}
    (haccepts : (∃ rules, whole = .ok rules) ↔
      (∃ rules, first = .ok rules) ∧ ∃ rules, second = .ok rules)
    (hsaid : ∀ {rules a b : List Rule}, whole = .ok rules → first = .ok a → second = .ok b →
      ∀ provision, SaidBy rules provision ↔ SaidBy a provision ∨ SaidBy b provision) :
    IsUnion whole first second where
  accepts := haccepts
  grants hrules ha hb target permission := hsaid hrules ha hb (.access target permission)
  transitions hrules ha hb rule := hsaid hrules ha hb (.transition rule)

namespace Meaning

variable {meaning : Meaning} {answer : Answers} {resources more actions others : List String}

/-- Splitting a permission by its actions. -/
theorem Describes.append_actions (h : meaning.Describes answer) (hresources : resources ≠ [])
    (hactions : actions ≠ []) (hothers : others ≠ []) :
    IsUnion (answer resources (actions ++ others)) (answer resources actions)
      (answer resources others) := by
  have hall : actions ++ others ≠ [] := List.append_ne_nil_of_left_ne_nil hactions others
  refine .of_saidBy ?_ fun hrules ha hb provision => ?_
  · rw [h.accepts hresources hall, h.accepts hresources hactions, h.accepts hresources hothers,
      List.forall_mem_append]
    exact and_and_right
  · rw [h.saidBy_iff hresources hall hrules, h.saidBy_iff hresources hactions ha,
      h.saidBy_iff hresources hothers hb]
    simp only [List.mem_append, or_and_right, and_or_left, exists_or]

/-- Splitting a permission by its resources. -/
theorem Describes.append_resources (h : meaning.Describes answer) (hresources : resources ≠ [])
    (hmore : more ≠ []) (hactions : actions ≠ []) :
    IsUnion (answer (resources ++ more) actions) (answer resources actions)
      (answer more actions) := by
  have hall : resources ++ more ≠ [] := List.append_ne_nil_of_left_ne_nil hresources more
  refine .of_saidBy ?_ fun hrules ha hb provision => ?_
  · rw [h.accepts hall hactions, h.accepts hresources hactions, h.accepts hmore hactions,
      List.forall_mem_append]
    exact and_and_left
  · rw [h.saidBy_iff hall hactions hrules, h.saidBy_iff hresources hactions ha,
      h.saidBy_iff hmore hactions hb]
    simp only [List.mem_append, or_and_right, exists_or]

/-- A permission that lists more says more. -/
theorem Describes.isPart (h : meaning.Describes answer) (hresources : resources ≠ [])
    (hactions : actions ≠ []) (hmore : resources ⊆ more) (hothers : actions ⊆ others) :
    IsPart (answer resources actions) (answer more others) := by
  have hsays {rules all : List Rule} (hrules : answer resources actions = .ok rules)
      (hall : answer more others = .ok all) (provision : Provision)
      (hsaid : SaidBy rules provision) : SaidBy all provision := by
    obtain ⟨path, hpath, action, haction, hsays⟩ :=
      (h.saidBy_iff hresources hactions hrules provision).1 hsaid
    have hmore' : more ≠ [] := List.ne_nil_of_mem (hmore hpath)
    have hothers' : others ≠ [] := List.ne_nil_of_mem (hothers haction)
    exact (h.saidBy_iff hmore' hothers' hall provision).2
      ⟨path, hmore hpath, action, hothers haction, hsays⟩
  refine ⟨fun haccepted => ?_, fun hrules hall target permission => ?_, fun hrules hall rule => ?_⟩
  · have hmore' : more ≠ [] := fun hnil => hresources (List.subset_nil.1 (hnil ▸ hmore))
    have hothers' : others ≠ [] := fun hnil => hactions (List.subset_nil.1 (hnil ▸ hothers))
    obtain ⟨hadmits, hserves⟩ := (h.accepts hmore' hothers').1 haccepted
    exact (h.accepts hresources hactions).2
      ⟨fun action haction => hadmits action (hothers haction),
        fun path hpath => hserves path (hmore hpath)⟩
  · exact hsays hrules hall (.access target permission)
  · exact hsays hrules hall (.transition rule)

end Meaning

/-- A permission may be split by its actions or by its resources; one that lists more is refused
whenever one that lists less is, and says at least as much; and only the sets of actions and of
resources count. -/
theorem permissions_additive (context : Context) (origin : String) (app : ConfinedApplication)
    (kindWord : String) {resources more actions others : List String} (hresources : resources ≠ [])
    (hmore : more ≠ []) (hactions : actions ≠ []) (hothers : others ≠ []) :
    let answer (resources actions : List String) : Except Fault (List Rule) :=
      (ofPermission context origin app { kindWord, resources, actions }).result
    IsUnion (answer resources (actions ++ others)) (answer resources actions)
      (answer resources others) ∧
    IsUnion (answer (resources ++ more) actions) (answer resources actions)
      (answer more actions) ∧
    (resources ⊆ more → actions ⊆ others →
      IsPart (answer resources actions) (answer more others)) ∧
    ((∀ path, path ∈ resources ↔ path ∈ more) → (∀ action, action ∈ actions ↔ action ∈ others) →
      IsPart (answer resources actions) (answer more others) ∧
      IsPart (answer more others) (answer resources actions)) := by
  intro answer
  have h := describes_ofPermission context origin app kindWord
  refine ⟨h.append_actions hresources hactions hothers,
    h.append_resources hresources hmore hactions, h.isPart hresources hactions, ?_⟩
  intro hpaths hwords
  exact ⟨h.isPart hresources hactions (fun path => (hpaths path).1) fun action => (hwords action).1,
    h.isPart hmore hothers (fun path => (hpaths path).2) fun action => (hwords action).2⟩

/-- Locking and executing a file at once is allowed if both are allowed separately; it says what
locking says, and leads into another domain as executing does. -/
theorem lockAndExecute_additive :
    let file : LabelledFile :=
      { path := "/a/x", pattern := "/a/x", fileClass := .file, label := .object "one_t" }
    let context : Context :=
      { allocation := { files := [file] }, policy := {}, fallbackDomain := "run_t" }
    let app : ConfinedApplication :=
      { path := "/app", domain := "app_t", isPermissive := false, isUnconfined := false }
    let answer (actions : List String) : Except Fault (List Rule) :=
      (ofPermission context "app.json" app
        { kindWord := "filesystem", resources := ["/a/x"], actions }).result
    ∃ rules, answer (["lock"] ++ ["exec"]) = .ok rules ∧
      GrantedBy rules ⟨.allow, "app_t", "one_t", "file"⟩ "lock" ∧
      .transition (.make "app_t" "one_t" "process" "run_t" none) ∈ rules := by
  intro file context app answer
  have hlock : answer ["lock"] = .ok [Bundle.allow "app_t" "one_t" "file" ["lock"]] := rfl
  have hexec : answer ["exec"] = .ok
      (Bundle.allow "app_t" "one_t" "file" (FileAction.execute .file) ::
        Bundle.domainTransition "app_t" "one_t" "run_t") := rfl
  have hpath : ["/a/x"] ≠ [] := List.cons_ne_nil _ _
  obtain ⟨hunion, -⟩ := permissions_additive context "app.json" app "filesystem" hpath hpath
    (List.cons_ne_nil "lock" []) (List.cons_ne_nil "exec" [])
  obtain ⟨rules, hrules⟩ := hunion.accepts.2 ⟨⟨_, hlock⟩, _, hexec⟩
  refine ⟨rules, hrules, ?_, ?_⟩
  · refine (hunion.grants hrules hlock hexec _ _).2 (.inl ?_)
    exact allowsAll_of_mem List.mem_cons_self (fun _ hmem => hmem) "lock" List.mem_cons_self
  · exact (hunion.transitions hrules hlock hexec _).2
      (.inr (List.mem_cons_of_mem _ List.mem_cons_self))

end Grant

end TypeEnforcement
