/-
Private types and the attribute of ordinary files.

The module with the definitions defines the type of a new resource.  An ordinary one gets the
attribute that lets every domain see such files; a private one is kept out of it, and rules for the
labelling tools make up for that.  This is decided for one resource after another.  So a type that
the host has is only required, also for a private resource, and a type that an ordinary resource
defines as well has the attribute all the same.

* `Resource.takesHostType` — resources that choose a type of the host;
* `LabelledFile.StandsFor` — what a file takes over from a private resource;
* `PolicyModule.Guards` — what a module has for a private type.

Main statements:
* `typeExists_make` — whether the type of a new resource exists;
* `membership_mem_baseContent_iff` — which types get the attribute of ordinary files;
* `exists_definingModule` — one module has all declarations, and what the resources call for;
* `private_types_guarded` — what that module has for the types of private resources;
* `key_not_guarded` — a private resource with a type of the host, and one that shares its type.
-/
import TypeEnforcement.Proofs.Allocated
import TypeEnforcement.Proofs.Duplicates
import TypeEnforcement.Proofs.Identifiers

namespace TypeEnforcement

/-! ### Types of private resources -/

/-- Whether a resource chooses a type that the host defines and that no earlier build of the project
installed. -/
def Resource.takesHostType (policy : SystemPolicy) (ownTypes : List String) (resource : Resource) :
    Bool :=
  (resource.typeName.filter (· ≠ "")).any fun name =>
    decide (name ∉ ownTypes) && policy.definesType name

namespace LabelledFile

/-- What a file takes over from a private resource. -/
structure StandsFor (policy : SystemPolicy) (ownTypes : List String) (resource : Resource)
    (file : LabelledFile) : Prop where
  describes : Describes resource file
  isPrivate : file.isPrivate = resource.isPrivate
  nonempty : resource.isPrivate = true → file.typeName ≠ ""
  typeExists : resource.isPrivate = true →
    file.typeExists = resource.takesHostType policy ownTypes

variable {catalog : Catalog} {policy : SystemPolicy} {ownTypes : List String} {resource : Resource}
  {file next : LabelledFile}

/-- The type of a new resource exists just if the resource takes it from the host. -/
theorem typeExists_make (h : make catalog ownTypes resource = .ok file)
    (hnew : resource.isSystem = false) :
    file.typeExists = resource.takesHostType catalog.policy ownTypes := by
  obtain ⟨fileClass, isExecutable, -, -, ⟨hsystem, -⟩ | ⟨-, -, hlabelled⟩⟩ := make_eq_ok_iff.1 h
  · cases hsystem.symm.trans hnew
  · unfold newlyLabelled at hlabelled
    unfold Resource.takesHostType
    cases hchosen : resource.typeName.filter (· ≠ "") with
    | none =>
      simp only [hchosen] at hlabelled
      cases hlabelled
      rfl
    | some name =>
      simp only [hchosen] at hlabelled
      unfold chooseType at hlabelled
      dsimp only at hlabelled
      rw [Option.any_some]
      split at hlabelled
      · cases hlabelled
      · split at hlabelled
        · -- An earlier build has installed the type.
          rename_i hown
          cases hlabelled
          simp [unlabelled, hown]
        · rename_i hforeign
          split at hlabelled
          · cases hlabelled
          · cases hlabelled
            simp [hforeign]

theorem standsFor_make (h : make catalog ownTypes resource = .ok file) :
    StandsFor catalog.policy ownTypes resource file := by
  have hfollows := follows_make h
  have hnew : resource.isPrivate = true → resource.isSystem = false := by
    intro hprivate
    rw [← hfollows.describes.isSystem]
    refine Bool.eq_false_iff.2 fun hsystem => ?_
    rw [← hfollows.isPrivate, hfollows.notPrivate hsystem] at hprivate
    cases hprivate
  refine ⟨hfollows.describes, hfollows.isPrivate, fun hprivate hempty => ?_,
    fun hprivate => typeExists_make h (hnew hprivate)⟩
  have hidentifier := (typedFor_make h).isIdentifier (hnew hprivate)
  rw [hempty] at hidentifier
  cases hidentifier

theorem StandsFor.of_isSettled (h : StandsFor policy ownTypes resource file)
    (hnext : Allocation.IsSettled file next) : StandsFor policy ownTypes resource next := by
  obtain ⟨parentLabel, domain, rfl⟩ := hnext
  obtain ⟨hdescribes, hprivate, hnonempty, hexists⟩ := h
  exact ⟨⟨hdescribes.path, hdescribes.pattern, hdescribes.fileClass, hdescribes.isSystem⟩,
    hprivate, hnonempty, hexists⟩

end LabelledFile

open LabelledFile (Describes StandsFor)

/-- The files of an allocation stand for its resources. -/
theorem Allocation.forall₂_standsFor {project : Project} {catalog last : Catalog}
    {own : List Installed} {allocation : Allocation}
    (h : make project catalog own = .ok (allocation, last)) :
    List.Forall₂ (StandsFor catalog.policy allocation.ownTypes) project.resources
      allocation.files := by
  obtain ⟨labelled, inherited, applications, hmake, hinherited, -, rfl⟩ := make_eq_ok_iff.1 h
  have hpolicy := (Catalog.maskAll_frame catalog (own.flatMap Installed.patterns)).1
  have hlabelled : List.Forall₂ (StandsFor catalog.policy (own.flatMap Installed.types))
      project.resources labelled :=
    (LabelledFile.forall₂_makeAll hmake).imp fun resource file ⟨before, hbefore, hfile⟩ =>
      hpolicy ▸ hbefore ▸ LabelledFile.standsFor_make hfile
  exact forall₂_comp hlabelled (forall₂_isSettled project.entries hinherited)
    fun _ _ _ hfile hnext => hfile.of_isSettled hnext

/-! ### The attribute of ordinary files -/

theorem Declaration.membership_mem_ofType_iff {name other attr : String}
    {attributes : List String} :
    .membership name attr ∈ ofType other attributes ↔
      name ≠ "" ∧ name = other ∧ attr ∈ attributes := by
  unfold ofType
  split
  · rename_i hother
    subst hother
    simp +contextual
  · rename_i hother
    simp only [List.mem_cons, reduceCtorEq, false_or, List.mem_map, membership.injEq]
    constructor
    · rintro ⟨_, hattr, rfl, rfl⟩
      exact ⟨hother, rfl, hattr⟩
    · rintro ⟨-, rfl, hattr⟩
      exact ⟨attr, hattr, rfl, rfl⟩

namespace Assembly

variable {context : Grant.Context} {policy : SystemPolicy} {project : Project}

theorem membership_mem_fileContent_iff {file : LabelledFile} {name : String} :
    .membership name Grant.fileAttribute ∈ (fileContent file).declarations ↔
      name ≠ "" ∧ name = file.typeName ∧ file.typeExists = false ∧ file.isPrivate = false := by
  unfold fileContent
  cases file.typeExists <;> cases file.isPrivate <;>
    simp [Declaration.membership_mem_ofType_iff]

/-- Domains have other attributes. -/
theorem membership_not_mem_applicationContent (app : ConfinedApplication) (name : String) :
    .membership name Grant.fileAttribute ∉ (applicationContent policy app).declarations := by
  have hdomain : Grant.fileAttribute ∉ [Grant.domainAttribute] := by decide
  have hunconfined : Grant.fileAttribute ∉ Grant.unconfinedAttributes := by decide
  have hrole (role : String) :
      .membership name Grant.fileAttribute ∉ Declaration.ofRole role app.domain := by
    unfold Declaration.ofRole
    split <;> simp
  have hattributes : ¬∃ attr ∈ Grant.unconfinedAttributes,
      .membership name Grant.fileAttribute ∈ Declaration.ofType app.domain [attr] := by
    rintro ⟨attr, hattr, hmem⟩
    obtain ⟨-, -, hmem⟩ := Declaration.membership_mem_ofType_iff.1 hmem
    exact hunconfined (List.mem_singleton.1 hmem ▸ hattr)
  have hown : .membership name Grant.fileAttribute ∉
      Declaration.ofType app.domain [Grant.domainAttribute] :=
    fun hmem => hdomain (Declaration.membership_mem_ofType_iff.1 hmem).2.2
  unfold applicationContent
  cases app.isUnconfined with
  | false => cases app.isPermissive <;> simp [Content.ofAll, hrole, hown]
  | true => cases app.isPermissive <;> simpa [Content.ofAll, hrole, hown] using hattributes

/-- A type gets the attribute of ordinary files just if a resource that is not private defines the
type. -/
theorem membership_mem_baseContent_iff {name : String} :
    .membership name Grant.fileAttribute ∈ (baseContent context project).declarations ↔
      name ≠ "" ∧ ∃ file ∈ context.allocation.files,
        name = file.typeName ∧ file.typeExists = false ∧ file.isPrivate = false := by
  have happlications : ¬∃ app ∈ context.allocation.applications,
      .membership name Grant.fileAttribute ∈ (applicationContent context.policy app).declarations :=
    fun ⟨app, _, hmem⟩ => membership_not_mem_applicationContent app name hmem
  simp only [baseContent, Content.declarations_append, Content.ofAll, List.nil_append,
    List.mem_append, List.mem_flatMap, membership_mem_fileContent_iff]
  rw [or_iff_left happlications]
  constructor
  · rintro ⟨file, hfile, hne, hname⟩
    exact ⟨hne, file, hfile, hname⟩
  · rintro ⟨hne, file, hfile, hname⟩
    exact ⟨file, hfile, hne, hname⟩

end Assembly

/-! ### The module with the definitions -/

/-- The domains of the labelling tools. -/
def relabellers : List String :=
  ["unconfined_t", "restorecond_t"]

/-- What a module has for a private type: its definition, the accesses of the labelling tools to
files of the type, and that of the type to a file system. -/
structure PolicyModule.Guards (m : PolicyModule) (name : String) (fileClass : FileClass) :
    Prop where
  defines : m.definitions.types.contains name = true
  relabels : ∀ subject ∈ relabellers, ∀ c ∈ fileClass.kernelClasses,
    AllowsAll m.Grants subject name c ["getattr", "relabelto", "relabelfrom"]
  associates : AllowsAll m.Grants name "fs_t" "filesystem" ["associate"]

namespace Assembly

open PolicyModule (Guards)

variable {context : Grant.Context} {project : Project} {catalog : Catalog}
  {own : Except Fault (List Installed)} {fallbackDomain : String} {assembly : Assembly}

/-- A module that holds what a new private file calls for guards its type. -/
theorem guards_of_holds {base : PolicyModule} {content : Content} (h : Holds [base] content)
    {file : LabelledFile} (hprivate : file.isPrivate = true) (hnew : file.typeExists = false)
    (hne : file.typeName ≠ "") (hrules : ∀ rule ∈ (fileContent file).rules, rule ∈ content.rules)
    (hdeclarations : ∀ d ∈ (fileContent file).declarations, d ∈ content.declarations) :
    base.Guards file.typeName file.fileClass := by
  have hcalled : (fileContent file).rules = Bundle.privateType file.typeName file.fileClass := by
    simp [fileContent, privateRules, hprivate, hnew]
  rw [hcalled] at hrules
  have hgrants {subject object className : String} {permissions : List String}
      (hmem : Bundle.allow subject object className permissions ∈
        Bundle.privateType file.typeName file.fileClass) :
      AllowsAll base.Grants subject object className permissions := by
    intro permission hpermission
    obtain ⟨rule, hrule, hgranted⟩ := allowsAll_of_mem hmem (fun _ hp => hp) permission hpermission
    simpa using (h.grants _ _).2 ⟨rule, hrules _ hrule, hgranted⟩
  refine ⟨?_, fun subject hsubject c hc => hgrants ?_, hgrants ?_⟩
  · have hdeclared := (h.declares (.type file.typeName)).2
      (hdeclarations _ (type_mem_fileContent_iff.2 ⟨hne, hnew, rfl⟩))
    show base.Declares (.type file.typeName)
    simpa using hdeclared
  · refine List.mem_append_left _ (List.mem_flatMap.2 ⟨c, hc, ?_⟩)
    simp only [relabellers, List.mem_cons, List.not_mem_nil, or_false] at hsubject
    obtain rfl | rfl := hsubject
    · exact List.mem_cons_self
    · exact List.mem_cons_of_mem _ List.mem_cons_self
  · exact List.mem_append_right _ (List.mem_singleton_self _)

/-- One module of a project has all declarations, and whatever rules the resources call for. -/
theorem exists_definingModule (h : (collect context project).result = .ok assembly) :
    ∃ base others content, assembly.modules = base :: others ∧ base.name = project.baseName ∧
      Holds [base] content ∧ content.declarations = (baseContent context project).declarations ∧
      (∀ rule ∈ (baseContent context project).rules, rule ∈ content.rules) ∧
      ∀ m ∈ others, ∀ d, ¬m.Declares d := by
  obtain ⟨-, full, hname, hfull, rfl⟩ | ⟨-, base, hname, hbase, rfl⟩ := layout_cases h
  · refine ⟨full, [], projectContent context project, rfl, hname, hfull, ?_, ?_, ?_⟩
    · simp [projectContent, Content.ofAll, specContent]
    · exact fun rule hrule => List.mem_append_left _ hrule
    · exact fun m hm => absurd hm List.not_mem_nil
  · refine ⟨base, _, baseContent context project, rfl, hname, hbase, rfl, fun _ hrule => hrule, ?_⟩
    intro m hm d hdeclares
    obtain ⟨spec, -, hspec⟩ := mem_specModules.1 hm
    have hnone := ((holds_specModule hspec).declares d).1 ⟨m, List.mem_singleton_self m, hdeclares⟩
    exact absurd hnone List.not_mem_nil

/-- When a project is assembled and no type gives way to another, one module has all declarations.
It defines the type of each private resource that does not take a type of the host, with the grants
of the labelling tools for each kind of object of the resource, and keeps it out of the attribute of
ordinary files, if no resource that is not private defines the type too. -/
theorem private_types_guarded
    (hallocated : allocate project catalog own fallbackDomain = .ok context)
    (hassembled : (ofProject project catalog own fallbackDomain).result = .ok assembly)
    (hplain : ∀ collected, (collect context project).result = .ok collected →
      ∀ m ∈ collected.modules, m.resolve.2 = []) :
    ∃ base others, assembly.modules = base :: others ∧ base.name = project.baseName ∧
      (∀ m ∈ others, ∀ d, ¬m.Declares d) ∧
      List.Forall₂ (fun resource file => Describes resource file ∧
        (resource.isPrivate = true →
          resource.takesHostType catalog.policy context.allocation.ownTypes = false →
            base.Guards file.typeName file.fileClass ∧
            ((∀ other ∈ context.allocation.files, other.typeName = file.typeName →
                other.typeExists = false → other.isPrivate = true) →
              ¬base.Declares (.membership file.typeName Grant.fileAttribute))))
        project.resources context.allocation.files := by
  have hcollected := collect_eq_of_plain hallocated hassembled hplain
  obtain ⟨base, others, content, hmodules, hname, hholds, hdeclarations, hrules, hothers⟩ :=
    exists_definingModule hcollected
  obtain ⟨installed, allocation, last, -, hmake, rfl⟩ := exists_of_allocate hallocated
  refine ⟨base, others, hmodules, hname, hothers, ?_⟩
  have hfiles := (List.forall₂_and_left _ _).2
    ⟨fun file hfile => hfile, (Allocation.forall₂_standsFor hmake).flip⟩
  refine hfiles.flip.imp ?_
  rintro resource file ⟨hfile, hstands⟩
  refine ⟨hstands.describes, fun hprivate hhost => ?_⟩
  have hnew : file.typeExists = false := (hstands.typeExists hprivate).trans hhost
  have hne := hstands.nonempty hprivate
  constructor
  · -- What the file calls for is among what all files call for.
    refine guards_of_holds hholds (hstands.isPrivate.trans hprivate) hnew hne
      (fun rule hrule => hrules rule (List.mem_append_left _ (List.mem_append_right _ ?_)))
      (fun d hd => hdeclarations ▸ List.mem_append_left _ (List.mem_append_right _ ?_))
    · exact List.mem_flatMap.2 ⟨file, hfile, hrule⟩
    · exact List.mem_flatMap.2 ⟨file, hfile, hd⟩
  · intro hall hdeclares
    have hmember : .membership file.typeName Grant.fileAttribute ∈ content.declarations :=
      (hholds.declares _).1 ⟨base, List.mem_singleton_self base, hdeclares⟩
    rw [hdeclarations] at hmember
    obtain ⟨-, other, hother, htype, hdefined, hordinary⟩ :=
      membership_mem_baseContent_iff.1 hmember
    cases hordinary.symm.trans (hall other hother htype.symm hdefined)

/-- The key of the project is guarded and not an ordinary file. -/
theorem key_guarded : ∃ context assembly base others,
    AssemblesPlainly keyReader keyCatalog (.ok []) "init_t" context assembly ∧
    assembly.modules = base :: others ∧ base.Guards "key_t" .file ∧
    ¬base.Declares (.membership "key_t" Grant.fileAttribute) := by
  have hanswer : (assemblePlainly? keyReader keyCatalog (.ok []) "init_t").any fun answer =>
      answer.1.allocation.files.map LabelledFile.typeName = ["app_exec_t", "key_t"] ∧
      ∀ file ∈ answer.1.allocation.files, file.typeExists = false → file.isPrivate = true := by
    decide +kernel
  obtain ⟨⟨context, assembly⟩, hanswer, hfiles⟩ := (Option.any_eq_true _ _).1 hanswer
  obtain ⟨htypes, hprivate⟩ := of_decide_eq_true hfiles
  have hassembles := assemblesPlainly_of_eq_some hanswer
  obtain ⟨base, others, hmodules, -, -, hguarded⟩ := private_types_guarded hassembles.allocated
    hassembles.assembled hassembles.plain
  obtain ⟨app, key, happ⟩ : ∃ app key, context.allocation.files = [app, key] :=
    List.length_eq_two.1 (by simpa using congrArg List.length htypes)
  rw [happ] at htypes hprivate hguarded
  simp only [List.map_cons, List.map_nil, List.cons.injEq, and_true] at htypes
  obtain ⟨hdescribes, hkey⟩ := (List.forall₂_cons.1 (List.forall₂_cons.1 hguarded).2).1
  have hlacks : keyCatalog.policy.definesType "key_t" = false := by decide +kernel
  obtain ⟨hguards, hmembership⟩ := hkey rfl (by simp [Resource.takesHostType, hlacks])
  have hclass : key.fileClass = .file := hdescribes.fileClass_eq rfl
  rw [htypes.2, hclass] at hguards
  rw [htypes.2] at hmembership
  exact ⟨context, assembly, base, others, hassembles, hmodules, hguards,
    hmembership fun other hother _ => hprivate other hother⟩

/-- A project with another file that has the type of the key and is not private. -/
def keySharer : Project where
  name := "demo"
  resources := [
    { path := "/app", classWord := "exec_file", isSystem := true },
    { path := "/key", classWord := "file", isPrivate := true, typeName := some "key_t" },
    { path := "/lock", classWord := "file", typeName := some "key_t" }]
  specs := [{ name := "app.json", applications := [{ path := "/app" }] }]

/-- A catalog that has the type of the key. -/
def keyTypeCatalog : Catalog :=
  { keyCatalog with policy := { keyCatalog.policy with types := .ofList ["key_t"] } }

/-- On a host that has the type of the key, the labelling tools get no access to the key; and if
another file shares the type, then it is that of an ordinary file. -/
theorem key_not_guarded : keyReader.check = .ok () ∧ keySharer.check = .ok () ∧
    (∃ context assembly,
      AssemblesPlainly keyReader keyTypeCatalog (.ok []) "init_t" context assembly ∧
      (∃ file ∈ context.allocation.files, file.isPrivate = true ∧ file.typeName = "key_t") ∧
      ¬∃ m ∈ assembly.modules, m.Grants ⟨.allow, "unconfined_t", "key_t", "file"⟩ "relabelto") ∧
    ∃ context assembly, AssemblesPlainly keySharer keyCatalog (.ok []) "init_t" context assembly ∧
      (∃ file ∈ context.allocation.files, file.isPrivate = true ∧ file.typeName = "key_t") ∧
      ∃ m ∈ assembly.modules, m.Declares (.membership "key_t" Grant.fileAttribute) := by
  have hhost : (assemblePlainly? keyReader keyTypeCatalog (.ok []) "init_t").any fun answer =>
      (∃ file ∈ answer.1.allocation.files, file.isPrivate = true ∧ file.typeName = "key_t") ∧
      ∀ m ∈ answer.2.modules, ∀ rule ∈ m.accessRules, rule.subject ≠ "unconfined_t" := by
    decide +kernel
  have hshared : (assemblePlainly? keySharer keyCatalog (.ok []) "init_t").any fun answer =>
      (∃ file ∈ answer.1.allocation.files, file.isPrivate = true ∧ file.typeName = "key_t") ∧
      ∃ m ∈ answer.2.modules,
        (m.definitions.types.find? "key_t").any (Grant.fileAttribute ∈ ·) = true := by
    unfold assemblePlainly? allocate Allocation.make keySharer
    simp only [LabelledFile.makeAll, Catalog.allocate, TierEntries.push,
      TierEntries.searchOrder_eq_insertionSort]
    decide +kernel
  refine ⟨by decide +kernel, by decide +kernel, ?_, ?_⟩
  · obtain ⟨⟨context, assembly⟩, hanswer, hvalues⟩ := (Option.any_eq_true _ _).1 hhost
    obtain ⟨hprivate, hnone⟩ := of_decide_eq_true hvalues
    refine ⟨context, assembly, assemblesPlainly_of_eq_some hanswer, hprivate, ?_⟩
    rintro ⟨m, hm, rule, hrule, htarget, -⟩
    exact hnone m hm rule hrule (congrArg AccessTarget.subject htarget)
  · obtain ⟨⟨context, assembly⟩, hanswer, hvalues⟩ := (Option.any_eq_true _ _).1 hshared
    obtain ⟨hprivate, m, hm, htype⟩ := of_decide_eq_true hvalues
    obtain ⟨attributes, hattributes, hmem⟩ := (Option.any_eq_true _ _).1 htype
    exact ⟨context, assembly, assemblesPlainly_of_eq_some hanswer, hprivate, m, hm, attributes,
      hattributes, of_decide_eq_true hmem⟩

end Assembly

end TypeEnforcement
