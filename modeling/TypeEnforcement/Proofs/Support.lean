/-
Whether transitions come with the accesses that they need.

A process that is to enter a domain must be allowed to execute the file and to make the transition,
and the domain must be allowed to be entered by the file; a process that is to create an object must
be allowed to create objects of the type and to change the directory.  Rules for permissions bring
transitions and accesses together.  Rules of one module are renamed together, so a transition keeps
the accesses, whatever they are called.

* `EntersDomain`, `CreatesObject` — what a transition of a process or of another object needs;
* `SupportsAll` — rules grant what each transition among them needs;
* `AccessOnly` — there is no transition among rules.

Main statements:
* `supportsAll_domainTransition`, `supports_fileCreation` — rules that are made together;
* `supports_rounds` — renaming leaves every transition what it needs;
* `transitions_supported` — the transitions of the modules of every project.
-/
import TypeEnforcement.Proofs.DeclaredAccess

namespace TypeEnforcement

/-! ### What transitions need -/

/-- A subject is allowed permissions on the objects of a type and a class. -/
def AllowsAll (Grants : AccessTarget → String → Prop) (subject object className : String)
    (permissions : List String) : Prop :=
  ∀ permission ∈ permissions, Grants ⟨.allow, subject, object, className⟩ permission

/-- The subject of a transition may execute files of the type that it is for and enter the domain
that it names, and the domain may be entered by these files. -/
structure EntersDomain (Grants : AccessTarget → String → Prop) (rule : TransitionRule) : Prop where
  entry : AllowsAll Grants rule.target rule.object "file"
    ["entrypoint", "execute", "getattr", "open", "read", "map"]
  execute : AllowsAll Grants rule.subject rule.object "file"
    ["execute", "getattr", "open", "read", "map"]
  transition : AllowsAll Grants rule.subject rule.target "process"
    ["rlimitinh", "siginh", "transition"]

/-- The subject of a transition may create objects of the type that it names, and add them to the
directories that it is for. -/
structure CreatesObject (Grants : AccessTarget → String → Prop) (rule : TransitionRule) : Prop where
  create : AllowsAll Grants rule.subject rule.target rule.className ["create"]
  addition : AllowsAll Grants rule.subject rule.object "dir" ["write", "add_name", "search"]

/-- A transition has the accesses that it needs. -/
structure Supports (Grants : AccessTarget → String → Prop) (rule : TransitionRule) : Prop where
  ofProcess : rule.className = "process" → EntersDomain Grants rule
  ofObject : rule.className ≠ "process" → CreatesObject Grants rule

variable {Grants More : AccessTarget → String → Prop} {rule : TransitionRule}

/-- A renamed transition has the accesses that it needs where the accesses are renamed with it. -/
theorem Supports.mapNames {s : String → String} (h : Supports Grants rule)
    (hrename : ∀ kind subject object className permission,
      Grants ⟨kind, subject, object, className⟩ permission →
      More ⟨kind, s subject, s object, className⟩ permission) :
    Supports More (rule.mapNames s) := by
  have hall {subject object className : String} {permissions : List String}
      (h : AllowsAll Grants subject object className permissions) :
      AllowsAll More (s subject) (s object) className permissions :=
    fun permission hmem => hrename _ _ _ _ _ (h permission hmem)
  constructor
  · intro hclass
    have h := h.ofProcess hclass
    exact ⟨hall h.entry, hall h.execute, hall h.transition⟩
  · intro hclass
    have h := h.ofObject hclass
    exact ⟨hall h.create, hall h.addition⟩

theorem Supports.mono (h : Supports Grants rule)
    (hmore : ∀ target permission, Grants target permission → More target permission) :
    Supports More rule :=
  h.mapNames (s := id) fun _ _ _ _ _ => hmore _ _

/-! ### Lists of rules -/

/-- The accesses that rules grant. -/
def GrantedBy (rules : List Rule) (target : AccessTarget) (permission : String) : Prop :=
  ∃ rule, .access rule ∈ rules ∧ rule.Grants target permission

theorem GrantedBy.mono {rules others : List Rule} (hsubset : ∀ r ∈ rules, r ∈ others)
    {target : AccessTarget} {permission : String} (h : GrantedBy rules target permission) :
    GrantedBy others target permission := by
  obtain ⟨rule, hrule, hgrants⟩ := h
  exact ⟨rule, hsubset _ hrule, hgrants⟩

theorem allowsAll_of_mem {rules : List Rule} {subject object className : String}
    {granted permissions : List String}
    (h : Bundle.allow subject object className granted ∈ rules)
    (hsubset : ∀ permission ∈ permissions, permission ∈ granted) :
    AllowsAll (GrantedBy rules) subject object className permissions := by
  intro permission hmem
  exact ⟨_, h, rfl, Actions.covers_ofList.2 (.inr (hsubset permission hmem))⟩

/-- Rules grant what each transition among them needs. -/
def SupportsAll (rules : List Rule) : Prop :=
  ∀ rule, .transition rule ∈ rules → Supports (GrantedBy rules) rule

/-- There is no transition among rules. -/
def AccessOnly (rules : List Rule) : Prop :=
  ∀ rule, .transition rule ∉ rules

theorem AccessOnly.supportsAll {rules : List Rule} (h : AccessOnly rules) : SupportsAll rules :=
  fun rule hrule => absurd hrule (h rule)

theorem AccessOnly.append {a b : List Rule} (ha : AccessOnly a) (hb : AccessOnly b) :
    AccessOnly (a ++ b) := by
  intro rule hmem
  rcases List.mem_append.1 hmem with hmem | hmem
  · exact ha rule hmem
  · exact hb rule hmem

theorem AccessOnly.flatMap {α : Type} {items : List α} {f : α → List Rule}
    (h : ∀ item ∈ items, AccessOnly (f item)) : AccessOnly (items.flatMap f) := by
  intro rule hmem
  obtain ⟨item, hitem, hmem⟩ := List.mem_flatMap.1 hmem
  exact h item hitem rule hmem

theorem accessOnly_nil : AccessOnly [] :=
  fun _ => List.not_mem_nil

theorem AccessOnly.cons {subject object className : String} {permissions : List String}
    {rules : List Rule} (h : AccessOnly rules) :
    AccessOnly (Bundle.allow subject object className permissions :: rules) := by
  intro rule hmem
  rcases List.mem_cons.1 hmem with heq | hmem
  · cases heq
  · exact h rule hmem

theorem accessOnly_ite {c : Prop} [Decidable c] {a b : List Rule} (ha : AccessOnly a)
    (hb : AccessOnly b) : AccessOnly (if c then a else b) := by
  split
  · exact ha
  · exact hb

theorem SupportsAll.append {a b : List Rule} (ha : SupportsAll a) (hb : SupportsAll b) :
    SupportsAll (a ++ b) := by
  intro rule hmem
  rcases List.mem_append.1 hmem with hmem | hmem
  · exact (ha rule hmem).mono fun _ _ => GrantedBy.mono fun r => List.mem_append_left b
  · exact (hb rule hmem).mono fun _ _ => GrantedBy.mono fun r => List.mem_append_right a

theorem SupportsAll.flatMap {α : Type} {items : List α} {f : α → List Rule}
    (h : ∀ item ∈ items, SupportsAll (f item)) : SupportsAll (items.flatMap f) := by
  intro rule hmem
  obtain ⟨item, hitem, hmem⟩ := List.mem_flatMap.1 hmem
  exact (h item hitem rule hmem).mono fun _ _ =>
    GrantedBy.mono fun r hr => List.mem_flatMap.2 ⟨item, hitem, hr⟩

/-! ### Rules that are made together -/

theorem supportsAll_domainTransition (subject entry target : String) :
    SupportsAll (Bundle.domainTransition subject entry target) := by
  intro rule hmem
  have heq : rule = .make subject entry "process" target none := by
    simpa [Bundle.domainTransition, Bundle.allow] using hmem
  subst heq
  have hentry : Bundle.allow target entry "file" Bundle.entryPermissions ∈
      Bundle.domainTransition subject entry target := by
    simp [Bundle.domainTransition]
  have hexecute : Bundle.allow subject entry "file" Bundle.executePermissions ∈
      Bundle.domainTransition subject entry target := by
    simp [Bundle.domainTransition]
  have htransition : Bundle.allow subject target "process" ["rlimitinh", "siginh", "transition"] ∈
      Bundle.domainTransition subject entry target := by
    simp [Bundle.domainTransition]
  refine ⟨fun _ => ⟨?_, ?_, ?_⟩, fun hclass => absurd rfl hclass⟩
  · exact allowsAll_of_mem hentry fun _ hp => hp
  · exact allowsAll_of_mem hexecute fun _ hp => hp
  · exact allowsAll_of_mem htransition fun _ hp => hp

theorem accessOnly_fileAccess (subject object : String) (fileClass : FileClass)
    (permissions : List String) :
    AccessOnly (Bundle.fileAccess subject object fileClass permissions) := by
  intro rule hmem
  obtain ⟨c, -, heq⟩ := List.mem_map.1 hmem
  cases heq

theorem accessOnly_privateType (fileType : String) (fileClass : FileClass) :
    AccessOnly (Bundle.privateType fileType fileClass) := by
  refine .append (.flatMap fun c _ => ?_) accessOnly_nil.cons
  exact accessOnly_nil.cons.cons

namespace Grant

theorem accessOnly_base (domain : String) : AccessOnly (base domain) :=
  accessOnly_nil.cons.cons

theorem accessOnly_unconfined (domain : String) (hasSecondClass : Bool) :
    AccessOnly (unconfined domain hasSecondClass) := by
  refine .append (.cons (accessOnly_ite ?_ accessOnly_nil)) ?_
  · exact accessOnly_nil.cons
  · exact accessOnly_nil.cons

theorem accessOnly_fileItself (domain : String) (file : LabelledFile) (actions : List String) :
    AccessOnly (fileItself domain file actions) := by
  refine .flatMap fun c _ => ?_
  exact accessOnly_ite accessOnly_nil (accessOnly_fileAccess _ _ c _)

theorem accessOnly_directoryChange (domain directoryType : String) :
    AccessOnly (directoryChange domain directoryType) :=
  accessOnly_fileAccess domain directoryType .directory FileAction.directoryWrite

/-- The transitions for a new file are for the kinds of objects that its class stands for, and for
its name. -/
theorem exists_of_transition_mem_fileCreation {domain : String} {file : LabelledFile}
    {rule : TransitionRule} (h : .transition rule ∈ fileCreation domain file) :
    ∃ c ∈ file.fileClass.members, rule = .make domain file.parentType c.kernelClass file.typeName
      (some (String.ofList (Path.fileName file.path.toList))) := by
  rcases List.mem_append.1 h with h | h
  · exact absurd h (accessOnly_directoryChange _ _ rule)
  · split at h
    · cases h
    · obtain ⟨className, hclassName, heq⟩ := List.mem_map.1 h
      obtain ⟨c, hc, rfl⟩ := List.mem_map.1 hclassName
      exact ⟨c, hc, (Rule.transition.inj heq).symm⟩

/-- Creating a file is an action on the file, and it brings the changes of the directory. -/
theorem supports_fileCreation {domain : String} {file : LabelledFile} {actions : List String}
    (hcreate : "create" ∈ actions) {rule : TransitionRule}
    (h : .transition rule ∈ fileCreation domain file) :
    Supports (GrantedBy (fileItself domain file actions ++ fileCreation domain file)) rule := by
  obtain ⟨c, hc, rfl⟩ := exists_of_transition_mem_fileCreation h
  constructor
  · intro hclass
    -- What is created is a file of some class and no process.
    have hne : c.kernelClass ≠ "process" := by
      cases c <;> decide
    exact absurd hclass hne
  · intro _
    constructor
    · intro permission hpermission
      obtain rfl := List.mem_singleton.1 hpermission
      have hmeans : "create" ∈ FileAction.permissionsOf c ["create"] :=
        FileAction.mem_permissionsOf.2 ⟨"create", List.mem_singleton_self _, by decide,
          by simp [FileAction.permissions?]⟩
      have hgranted : GrantedBy (fileItself domain file actions)
          ⟨.allow, domain, file.typeName, c.kernelClass⟩ "create" :=
        allows_fileItself domain file actions "create" hcreate (by decide) c hc "create" hmeans
      exact hgranted.mono fun r => List.mem_append_left _
    · have hchange : Bundle.allow domain file.parentType "dir" FileAction.directoryWrite ∈
          fileItself domain file actions ++ fileCreation domain file := by
        refine List.mem_append_right _ (List.mem_append_left _ ?_)
        exact List.mem_singleton_self _
      exact allowsAll_of_mem hchange (by decide)

theorem supportsAll_fileActions (fallback domain : String) (actions : List String)
    (file : LabelledFile) : SupportsAll (fileActions fallback domain actions file) := by
  intro rule hmem
  -- A part supports its own transitions, and more rules take nothing away.
  have hpart {part : List Rule} (h : Supports (GrantedBy part) rule)
      (hsubset : ∀ r ∈ part, r ∈ fileActions fallback domain actions file) :
      Supports (GrantedBy (fileActions fallback domain actions file)) rule :=
    h.mono fun _ _ => GrantedBy.mono hsubset
  have hparts := hmem
  simp only [fileActions, List.mem_append, or_assoc] at hparts
  rcases hparts with hmem | hmem | hmem | hmem | hmem
  · exact absurd hmem (accessOnly_fileItself _ _ _ rule)
  · split at hmem
    · rename_i hexec
      refine hpart (supportsAll_domainTransition _ _ _ rule hmem) fun r hr => ?_
      simp [fileActions, hexec, hr]
    · cases hmem
  · split at hmem
    · rename_i hcreate
      refine hpart (supports_fileCreation hcreate hmem) fun r hr => ?_
      rcases List.mem_append.1 hr with hr | hr
      · simp [fileActions, hr]
      · simp [fileActions, hcreate, hr]
    · cases hmem
  · exact absurd hmem (accessOnly_ite (accessOnly_directoryChange _ _) accessOnly_nil rule)
  · exact absurd hmem (accessOnly_ite accessOnly_nil.cons accessOnly_nil rule)

theorem supportsAll_filesystem {allocation : Allocation} {fallback domain : String}
    {permission : Permission} {rules : List Rule}
    (h : filesystem allocation fallback domain permission = .ok rules) : SupportsAll rules := by
  obtain ⟨files, rfl, -⟩ := exists_of_filesystem h
  exact .flatMap fun file _ => supportsAll_fileActions _ _ _ file

theorem accessOnly_capability {domain : String} {permission : Permission} {rules : List Rule}
    (h : capability domain permission = .ok rules) : AccessOnly rules := by
  rw [capability, bind_eq_ok_iff] at h
  obtain ⟨_, -, h⟩ := h
  rw [bind_eq_ok_iff] at h
  obtain ⟨_, -, h⟩ := h
  cases h
  refine .append (.append ?_ ?_) accessOnly_nil.cons
  · exact accessOnly_ite accessOnly_nil accessOnly_nil.cons
  · exact accessOnly_ite accessOnly_nil accessOnly_nil.cons

theorem accessOnly_allowAny (subject object className : String) (permissions : List String) :
    AccessOnly (allowAny subject object className permissions) :=
  accessOnly_ite accessOnly_nil accessOnly_nil.cons

theorem accessOnly_onPorts (policy : SystemPolicy) (domain : String) (actions : List String)
    (resource : NetResource) : AccessOnly (onPorts policy domain actions resource) := by
  refine .flatMap fun socketClass _ => ?_
  split
  · exact accessOnly_nil
  · exact accessOnly_allowAny _ _ _ _

theorem accessOnly_onSocket (domain : String) (actions : List String) (socketClass : String) :
    AccessOnly (onSocket domain actions socketClass) := by
  refine .append (.append (.append (.append (.append ?_ ?_) ?_) ?_) ?_) ?_
  · exact accessOnly_ite (.append (accessOnly_fileAccess _ _ _ _) (accessOnly_fileAccess _ _ _ _))
      accessOnly_nil
  · exact accessOnly_nil.cons
  · exact accessOnly_allowAny _ _ _ _
  · exact accessOnly_allowAny _ _ _ _
  · exact accessOnly_ite accessOnly_nil.cons accessOnly_nil
  · exact accessOnly_ite accessOnly_nil.cons accessOnly_nil

/-- A network permission is refused if it lacks a part, if an action is none of sockets, or if a
resource cannot be read, and otherwise it has the rules of its resources. -/
theorem result_network_eq_ok_iff {policy : SystemPolicy} {origin domain : String}
    {permission : Permission} {rules : List Rule} :
    (network policy origin domain permission).result = .ok rules ↔
      requireParts true permission = .ok () ∧
      (∀ action ∈ permission.actions, action ∈ Socket.actions) ∧
      ∃ resources, permission.resources.mapM (fun line => (readNetResource origin line).result) =
          .ok resources ∧
        resources.flatMap (onPorts policy domain permission.actions) ++
          (resources.flatMap Socket.classesOf).flatMap (onSocket domain permission.actions) =
            rules := by
  rw [network]
  cases hfind : permission.actions.find? (· ∉ Socket.actions) with
  | some action =>
    have hunknown : action ∉ Socket.actions := by
      have hfound := List.find?_some hfind
      exact of_decide_eq_true hfound
    constructor
    · intro h
      simp only [Report.result_bind, bind_eq_ok_iff] at h
      obtain ⟨_, -, _, hfail, -⟩ := h
      cases hfail
    · rintro ⟨-, hknown, -⟩
      exact absurd (hknown action (List.mem_of_find?_eq_some hfind)) hunknown
  | none =>
    have hknown : ∀ action ∈ permission.actions, action ∈ Socket.actions := by
      simpa using List.find?_eq_none.1 hfind
    simp only [Report.result_bind, Report.result_mapM, Report.result_ofExcept, Report.result_pure,
      bind_eq_ok_iff, Except.ok.injEq]
    constructor
    · rintro ⟨_, hparts, h⟩
      exact ⟨hparts, hknown, h⟩
    · rintro ⟨hparts, -, h⟩
      exact ⟨(), hparts, h⟩

/-- A network permission that is not refused has the rules of its resources. -/
theorem exists_of_network {policy : SystemPolicy} {origin domain : String}
    {permission : Permission} {rules : List Rule}
    (h : (network policy origin domain permission).result = .ok rules) :
    ∃ resources, permission.resources.mapM (fun line => (readNetResource origin line).result) =
        .ok resources ∧
      rules = resources.flatMap (onPorts policy domain permission.actions) ++
        (resources.flatMap Socket.classesOf).flatMap (onSocket domain permission.actions) := by
  obtain ⟨-, -, resources, hresources, h⟩ := result_network_eq_ok_iff.1 h
  exact ⟨resources, hresources, h.symm⟩

theorem accessOnly_network {policy : SystemPolicy} {origin domain : String}
    {permission : Permission} {rules : List Rule}
    (h : (network policy origin domain permission).result = .ok rules) : AccessOnly rules := by
  obtain ⟨resources, -, rfl⟩ := exists_of_network h
  refine .append (.flatMap fun resource _ => ?_) (.flatMap fun socketClass _ => ?_)
  · exact accessOnly_onPorts _ _ _ resource
  · exact accessOnly_onSocket _ _ socketClass

/-- Whatever a permission stands for, its transitions come with what they need. -/
theorem supportsAll_ofPermission {context : Context} {origin : String} {app : ConfinedApplication}
    {permission : Permission} {rules : List Rule}
    (h : (ofPermission context origin app permission).result = .ok rules) : SupportsAll rules := by
  unfold ofPermission at h
  split at h
  · exact supportsAll_filesystem h
  · exact (accessOnly_capability h).supportsAll
  · exact (accessOnly_network h).supportsAll
  · cases h
    exact accessOnly_nil.supportsAll

end Grant

/-! ### Renaming -/

theorem exists_of_mem_transitionRules_rounds {m last : PolicyModule}
    {replacements : List Replacement} (h : Rounds m replacements last) {rule : TransitionRule}
    (hrule : rule ∈ last.transitionRules) :
    ∃ old ∈ m.transitionRules, rule = old.mapNames (renameAll replacements) := by
  induction h with
  | done m => exact ⟨rule, hrule, rfl⟩
  | @step m next last r rest hround _ ih =>
    obtain ⟨-, rfl⟩ := hround
    obtain ⟨middle, hmiddle, rfl⟩ := ih hrule
    obtain ⟨old, hold, rfl⟩ := mem_replaceTransitions.1 hmiddle
    exact ⟨old, hold, rfl⟩

/-- Rounds leave every transition what it needs. -/
theorem supports_rounds {m last : PolicyModule} {replacements : List Replacement}
    (hrounds : Rounds m replacements last)
    (h : ∀ rule ∈ m.transitionRules, Supports m.Grants rule) :
    ∀ rule ∈ last.transitionRules, Supports last.Grants rule := by
  intro rule hrule
  obtain ⟨old, hold, rfl⟩ := exists_of_mem_transitionRules_rounds hrounds hrule
  refine (h old hold).mapNames fun kind subject object className permission hgrants => ?_
  exact hrounds.grants_iff.2 ⟨subject, object, rfl, rfl, hgrants⟩

namespace Assembly

variable {context : Grant.Context} {project : Project} {catalog : Catalog}
  {own : Except Fault (List Installed)} {fallbackDomain : String} {collected assembly : Assembly}

/-! ### The modules of a project -/

theorem supportsAll_rulesOfEntry (context : Grant.Context) (entry : ApplicationEntry) :
    SupportsAll (rulesOfEntry context entry) := by
  unfold rulesOfEntry
  split
  · rename_i app file _ _
    refine .append (.append (.append ?_ ?_) ?_) (.flatMap fun permission _ => ?_)
    · exact (Grant.accessOnly_base _).supportsAll
    · exact (accessOnly_ite (Grant.accessOnly_unconfined _ _) accessOnly_nil).supportsAll
    · exact supportsAll_domainTransition _ _ _
    · unfold permissionRules
      split
      · rename_i rules hrules
        exact Grant.supportsAll_ofPermission hrules
      · exact accessOnly_nil.supportsAll
  · exact accessOnly_nil.supportsAll

theorem supportsAll_specContent (context : Grant.Context) (spec : Spec) :
    SupportsAll (specContent context spec).rules :=
  .flatMap fun entry _ => supportsAll_rulesOfEntry context entry

/-- The base of a project has no transitions other than hand-written ones. -/
theorem accessOnly_baseContent
    (hextra : ∀ text ∈ project.extraRules, ∀ rule, Rule.parse text ≠ .ok (.transition rule)) :
    AccessOnly (baseContent context project).rules := by
  have hwritten : AccessOnly (handWrittenRules project) := by
    refine .flatMap fun text htext rule hmem => ?_
    rw [Option.mem_toList, toOption_eq_some_iff] at hmem
    exact hextra text htext rule hmem
  have hfiles : AccessOnly (context.allocation.files.flatMap privateRules) := by
    refine .flatMap fun file _ => ?_
    exact accessOnly_ite (accessOnly_privateType _ _) accessOnly_nil
  -- The content of an application has no rules: its entry and permissions bring them.
  have happlications : context.allocation.applications.flatMap
      (fun app => (applicationContent context.policy app).rules) = [] :=
    List.flatMap_eq_nil_iff.2 fun app _ => rules_applicationContent context.policy app
  have heq : (baseContent context project).rules =
      handWrittenRules project ++ context.allocation.files.flatMap privateRules := by
    simp [baseContent, Content.ofAll, fileContent, happlications]
  rw [heq]
  exact hwritten.append hfiles

/-- A module that holds some rules grants what the transitions among them need. -/
theorem supports_of_holds {m : PolicyModule} {content : Content} (hholds : Holds [m] content)
    (hsupports : SupportsAll content.rules) :
    ∀ rule ∈ m.transitionRules, Supports m.Grants rule := by
  intro rule hrule
  have hmem : .transition rule ∈ content.rules :=
    (hholds.transitions rule).1 ⟨m, List.mem_singleton_self m, hrule⟩
  refine (hsupports rule hmem).mono fun target permission hgranted => ?_
  obtain ⟨other, hother, hgrants⟩ := (hholds.grants target permission).2 hgranted
  rwa [List.mem_singleton.1 hother] at hgrants

theorem supports_of_collect (h : (collect context project).result = .ok collected)
    (hextra : ∀ text ∈ project.extraRules, ∀ rule, Rule.parse text ≠ .ok (.transition rule)) :
    ∀ m ∈ collected.modules, ∀ rule ∈ m.transitionRules, Supports m.Grants rule := by
  have hbase : SupportsAll (baseContent context project).rules :=
    (accessOnly_baseContent hextra).supportsAll
  intro m hm
  obtain ⟨-, full, -, hfull, rfl⟩ | ⟨-, base, -, hholds, rfl⟩ := layout_cases h
  · obtain rfl := List.mem_singleton.1 hm
    exact supports_of_holds hfull
      (hbase.append (.flatMap fun spec _ => supportsAll_specContent context spec))
  · obtain rfl | hm := List.mem_cons.1 hm
    · exact supports_of_holds hholds hbase
    · obtain ⟨spec, -, hm⟩ := mem_specModules.1 hm
      exact supports_of_holds (holds_specModule hm) (supportsAll_specContent context spec)

/-- Every transition in a module of a project can be used, whatever the layout and whatever types
gave way to others, unless the project has hand-written transitions: a process may execute the file,
make the transition and enter the domain by the file, and an object may be created and added to the
directory. -/
theorem transitions_supported
    (h : (ofProject project catalog own fallbackDomain).result = .ok assembly)
    (hextra : ∀ text ∈ project.extraRules, ∀ rule, Rule.parse text ≠ .ok (.transition rule)) :
    ∀ m ∈ assembly.modules, ∀ rule ∈ m.transitionRules,
      (rule.className = "process" → EntersDomain m.Grants rule) ∧
      (rule.className ≠ "process" → CreatesObject m.Grants rule) := by
  obtain ⟨context, collected, -, hcollected, rfl⟩ := exists_of_ofProject h
  intro m hm rule hrule
  obtain ⟨before, hbefore, rfl⟩ := List.mem_map.1 hm
  have hsupports : Supports before.resolve.1.Grants rule :=
    supports_rounds (rounds_resolve before) (supports_of_collect hcollected hextra before hbefore)
      rule hrule
  exact ⟨hsupports.ofProcess, hsupports.ofObject⟩

/-- In one module, the file that was allocated the type `two_t` is created with the type that took
its place, and the application may do so. -/
theorem twoDirectories_transitions_supported :
    let project := { twoDirectories [creator "app.json" ["/a/x", "/b/x"]] with
      monolithic := true, extraRules := ["allow init_t one_t:file read;"] }
    ∃ assembly, (ofProject project fileCatalog (.ok []) "init_t").result = .ok assembly ∧
      (∀ text ∈ project.extraRules, ∀ rule, Rule.parse text ≠ .ok (.transition rule)) ∧
      ∃ m ∈ assembly.modules,
        AllowsAll m.Grants "app_t" "one_t" "file" ["create"] ∧
        AllowsAll m.Grants "app_t" "app_exec_t" "file"
          ["entrypoint", "execute", "getattr", "open", "read", "map"] := by
  intro project
  have hextra : ∀ text ∈ project.extraRules, ∀ rule, Rule.parse text ≠ .ok (.transition rule) := by
    intro text htext rule hparse
    obtain rfl := List.mem_singleton.1 htext
    have haccess : (Rule.parse "allow init_t one_t:file read;").toOption =
        some (.access (.allow "init_t" "one_t" "file" ["read"])) := by decide +kernel
    rw [hparse] at haccess
    cases haccess
  have hanswer : (ofProject project fileCatalog (.ok []) "init_t").result.toOption.any
      fun assembly => decide (∃ m ∈ assembly.modules,
        .make "app_t" "dir_t" "file" "one_t" (some "x") ∈ m.transitionRules ∧
        .make "domain" "app_exec_t" "process" "app_t" none ∈ m.transitionRules) := by
    decide +kernel
  obtain ⟨assembly, hassembly, m, hm, hcreation, hentry⟩ := exists_of_any_toOption hanswer
  have hsupported := transitions_supported hassembly hextra m hm
  exact ⟨assembly, hassembly, hextra, m, hm, ((hsupported _ hcreation).2 (by decide)).create,
    ((hsupported _ hentry).1 rfl).entry⟩

end Assembly

end TypeEnforcement
