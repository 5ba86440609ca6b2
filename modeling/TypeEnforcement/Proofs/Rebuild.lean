/-
Building a project over what an earlier build of it installed.

An installed build has made its types types of the host and its file contexts file contexts of the
system.  The next build reads them off the text of the installed module, masks the patterns and
defines the types again, so that it labels every resource as before.  It takes a type for one of the
host if the declaration of the type is not recognized; and the types that it finds may be more than
those of its resources.

* `Allocation.definedTypes` — the types that a project defines;
* `Allocation.installedText`, `Allocation.installedHost` — the text of an installed build, and the
  host that has it;
* `Allocation.IsMaskable` — what it takes for the installed build to be masked;
* `LabelledFile.rebuilt` — what the next build makes of a file;
* `Catalog.Rebuilds` — a catalog in which an earlier build is masked.

Main statements:
* `makeAll_rebuilt` — the labels of the next build;
* `rebuild_over_installed` — what the next build decides, and when it decides the same;
* `bareType_not_rebuilt` — a type without the ending is taken for one of the host.
-/
import TypeEnforcement.Proofs.Masking
import TypeEnforcement.Proofs.ReadBack
import TypeEnforcement.Proofs.Scraping
import TypeEnforcement.Proofs.StoreReading

namespace TypeEnforcement

/-! ### Names of types -/

namespace TypeName

theorem isWord_of_isNameChar {c : Char} (h : isNameChar c = true) : Text.isWord c = true := by
  have hcode := toNat_of_isNameChar h
  unfold Text.isWord
  rw [if_pos (by omega)]
  exact h

theorem isSymbol_of_isName {name : String} (h : Rule.IsName name)
    (hchars : ∀ c ∈ name.toList, isNameChar c = true) : Installed.IsSymbol name :=
  ⟨h.1, fun hopen => absurd (hchars '(' hopen) (by decide),
    fun hclose => absurd (hchars ')' hclose) (by decide)⟩

/-- The names that are made of paths end like the types that are recognized. -/
theorem recognizes_synthesize (path : String) (fileClass : FileClass) (executable : Bool) :
    Installed.recognizes (synthesize path fileClass executable) = true := by
  have hwords : (synthesize path fileClass executable).toList.all Text.isWord = true :=
    List.all_eq_true.2 fun c hc => isWord_of_isNameChar
      (isNameChar_synthesize path fileClass executable c hc)
  obtain ⟨front, hfront⟩ : ∃ front,
      (if executable then "_exec_t" else fileClass.nameSuffix ++ "_t").toList =
        front ++ ['_', 't'] := by
    cases executable with
    | true => exact ⟨"_exec".toList, by simp⟩
    | false => exact ⟨fileClass.nameSuffix.toList, String.toList_append⟩
  have hname : (synthesize path fileClass executable).toList =
      ("auto_".toList ++ readable path.toList ++ '_' :: hashDigits path ++ front) ++
        ['_', 't'] := by
    unfold synthesize
    simp only [String.toList_ofList, hfront, List.append_assoc]
  rw [Installed.recognizes, hwords, Text.dropEnd?_eq_some_iff.2 hname]
  simp

end TypeName

/-! ### Installed builds -/

/-- A policy with more types. -/
def SystemPolicy.addTypes (policy : SystemPolicy) (types : List String) : SystemPolicy :=
  { policy with types := policy.types.union (.ofList types) }

theorem SystemPolicy.definesType_addTypes {policy : SystemPolicy} {types : List String}
    {name : String} : (policy.addTypes types).definesType name = true ↔
      policy.definesType name = true ∨ name ∈ types := by
  simp [definesType, addTypes]

namespace Allocation

/-- The types that a project defines: those of its resources, unless they exist, and the domains of
its applications. -/
def definedTypes (allocation : Allocation) : List String :=
  distinct ((allocation.files.filter fun file => !file.typeExists).map LabelledFile.typeName ++
    allocation.applications.map ConfinedApplication.domain)

/-- The text of the module that has the definitions of a build, once it is installed. -/
def installedText (allocation : Allocation) : String :=
  Installed.text allocation.definedTypes (Assembly.newFileContexts allocation)

/-- A host on which a build is installed: it has the types of the build and, at the end, its file
contexts. -/
def installedHost (allocation : Allocation) (policy : SystemPolicy)
    (system homes custom : List FileContext) : Catalog :=
  .make (policy.addTypes allocation.definedTypes) (system ++ Assembly.newFileContexts allocation)
    homes custom

/-- What it takes for the installed module of a build to be written, and masked in a catalog: its
names and patterns stand in its text, and other entries do not have the patterns. -/
structure IsMaskable (allocation : Allocation) (others : List FileContext) : Prop where
  domains : ∀ app ∈ allocation.applications, Installed.IsSymbol app.domain
  quoted : ∀ entry ∈ Assembly.newFileContexts allocation, '"' ∉ entry.pattern.toList
  nodup : ((Assembly.newFileContexts allocation).map FileContext.pattern).Nodup
  apart : ∀ other ∈ others,
    other.pattern ∉ (Assembly.newFileContexts allocation).map FileContext.pattern

instance (allocation : Allocation) (others : List FileContext) :
    Decidable (allocation.IsMaskable others) :=
  decidable_of_iff (_ ∧ _ ∧ _ ∧ _)
    ⟨fun ⟨domains, quoted, nodup, apart⟩ => { domains, quoted, nodup, apart },
      fun h => ⟨h.domains, h.quoted, h.nodup, h.apart⟩⟩

end Allocation

/-! ### The types of a project -/

theorem Declaration.type_mem_ofType_iff {name other : String} {attributes : List String} :
    .type name ∈ ofType other attributes ↔ name ≠ "" ∧ name = other := by
  unfold ofType
  split
  · rename_i hother
    subst hother
    simp
  · rename_i hother
    simp only [List.mem_cons, type.injEq, List.mem_map, reduceCtorEq, and_false, exists_false,
      or_false]
    exact ⟨fun heq => ⟨heq ▸ hother, heq⟩, And.right⟩

namespace Assembly

theorem type_mem_fileContent_iff {file : LabelledFile} {name : String} :
    .type name ∈ (fileContent file).declarations ↔
      name ≠ "" ∧ file.typeExists = false ∧ name = file.typeName := by
  unfold fileContent
  cases file.typeExists <;> simp [Declaration.type_mem_ofType_iff]

theorem type_mem_applicationContent_iff {policy : SystemPolicy} {app : ConfinedApplication}
    {name : String} : .type name ∈ (applicationContent policy app).declarations ↔
      name ≠ "" ∧ name = app.domain := by
  have hrole (role : String) : .type name ∉ Declaration.ofRole role app.domain := by
    unfold Declaration.ofRole
    split <;> simp
  -- The attributes of unconfined domains are declared for the same type.
  have hunconfined (attr : String) : .type name ∈ Declaration.ofType app.domain [attr] ↔
      name ≠ "" ∧ name = app.domain := Declaration.type_mem_ofType_iff
  unfold applicationContent
  cases app.isPermissive <;> cases app.isUnconfined <;>
    simp +contextual [Content.ofAll, hrole, hunconfined]
  all_goals exact fun _ _ hne heq => heq ▸ hne

/-- What goes into the module that has the definitions declares the types of the project. -/
theorem type_mem_baseContent_iff {context : Grant.Context} {project : Project} {name : String} :
    .type name ∈ (baseContent context project).declarations ↔
      name ≠ "" ∧ name ∈ context.allocation.definedTypes := by
  simp only [baseContent, Content.declarations_append, Content.ofAll, List.nil_append,
    List.mem_append, List.mem_flatMap, type_mem_fileContent_iff, type_mem_applicationContent_iff,
    Allocation.definedTypes, mem_distinct, List.mem_map, List.mem_filter]
  constructor
  · rintro (⟨file, hfile, hne, hexists, rfl⟩ | ⟨app, happ, hne, rfl⟩)
    · exact ⟨hne, .inl ⟨file, ⟨hfile, by simpa using hexists⟩, rfl⟩⟩
    · exact ⟨hne, .inr ⟨app, happ, rfl⟩⟩
  · rintro ⟨hne, ⟨file, ⟨hfile, hexists⟩, rfl⟩ | ⟨app, happ, rfl⟩⟩
    · exact .inl ⟨file, hfile, hne, by simpa using hexists, rfl⟩
    · exact .inr ⟨app, happ, hne, rfl⟩

end Assembly

/-! ### The catalog of the next build -/

namespace Catalog

/-- The next build sees a catalog with more types, and searches find what they found before. -/
structure Rebuilds (types : List String) (catalog next : Catalog) : Prop where
  policy : next.policy = catalog.policy.addTypes types
  allocated : next.allocated = catalog.allocated
  search (t : Tier) (path : String) (fileClass : FileClass) :
    (next.tier t).find? (·.covers path fileClass) = (catalog.tier t).find? (·.covers path fileClass)

variable {types : List String} {catalog next : Catalog}

theorem Rebuilds.lookup (h : Rebuilds types catalog next) (path : String) (fileClass : FileClass) :
    next.lookup path fileClass = catalog.lookup path fileClass := by
  simp only [Catalog.lookup, Catalog.search, h.search]

theorem Rebuilds.allocate (h : Rebuilds types catalog next) (entry : FileContext) :
    Rebuilds types (catalog.allocate entry) (next.allocate entry) := by
  have hallocated : (next.allocate entry).allocated = (catalog.allocate entry).allocated :=
    congrArg (TierEntries.push · entry) h.allocated
  refine ⟨h.policy, hallocated, fun t path fileClass => ?_⟩
  cases t with
  | allocated => exact congrArg (TierEntries.find? · _) hallocated
  | custom => exact h.search .custom path fileClass
  | homes => exact h.search .homes path fileClass
  | system => exact h.search .system path fileClass

/-- Once the patterns of an installed build are masked, its host looks like it did before. -/
theorem rebuilds_installedHost (policy : SystemPolicy) (system : List FileContext)
    {homes custom : List FileContext} {allocation : Allocation}
    (hnodup : ((Assembly.newFileContexts allocation).map FileContext.pattern).Nodup)
    (hothers : ∀ other ∈ homes ++ custom,
      other.pattern ∉ (Assembly.newFileContexts allocation).map FileContext.pattern) :
    Rebuilds allocation.definedTypes (.make policy system homes custom)
      (Allocation.maskAll (allocation.installedHost policy system homes custom)
        ((Assembly.newFileContexts allocation).map FileContext.pattern)) := by
  obtain ⟨masked, hall, hsearch⟩ :=
    exists_maskAll_eq (policy.addTypes allocation.definedTypes) system hnodup hothers
  rw [Allocation.installedHost, hall]
  refine ⟨rfl, rfl, fun t path fileClass => ?_⟩
  cases t with
  | system => exact hsearch path fileClass
  | _ => rfl

end Catalog

/-! ### The files of the next build -/

namespace LabelledFile

/-- What the next build makes of a file that the project labels: its type exists unless it is found
among the types of the installed build. -/
def rebuilt (ownTypes : List String) (file : LabelledFile) : LabelledFile :=
  { file with
    typeExists := if file.isSystem then file.typeExists else decide (file.typeName ∉ ownTypes) }

variable {catalog next last : Catalog} {types ownTypes : List String} {resource : Resource}
  {file : LabelledFile}

theorem rebuilt_eq_self_iff : file.rebuilt ownTypes = file ↔
    (file.isSystem = false → (file.typeExists = false ↔ file.typeName ∈ ownTypes)) := by
  have hflag : file.rebuilt ownTypes = file ↔
      (file.rebuilt ownTypes).typeExists = file.typeExists :=
    ⟨congrArg typeExists, congrArg fun flag => { file with typeExists := flag }⟩
  rw [hflag, rebuilt]
  cases file.isSystem <;> cases file.typeExists <;> simp

theorem map_rebuilt_eq_self_iff {files : List LabelledFile} :
    files.map (rebuilt ownTypes) = files ↔ ∀ file ∈ files,
      file.isSystem = false → (file.typeExists = false ↔ file.typeName ∈ ownTypes) := by
  have hmap : files.map (rebuilt ownTypes) = files.map id ↔
      ∀ file ∈ files, rebuilt ownTypes file = id file := List.map_inj_left
  rw [List.map_id] at hmap
  exact hmap.trans (forall₂_congr fun file _ => rebuilt_eq_self_iff)

theorem rebuilt_of_isSystem (h : file.isSystem = true) : file.rebuilt ownTypes = file :=
  rebuilt_eq_self_iff.2 fun hfalse => absurd (h.symm.trans hfalse) (by decide)

/-- On a host without a build, a chosen type exists if the policy defines it. -/
theorem chooseType_nil_eq_ok_iff {policy : SystemPolicy} {name : String} {start : LabelledFile} :
    chooseType policy [] name start = .ok file ↔
      TypeName.IsValid name ∧ policy.definesAttribute name = false ∧
        file = { start with label := .object name, typeExists := policy.definesType name } := by
  unfold chooseType
  by_cases hvalid : TypeName.IsValid name
  · cases policy.definesAttribute name <;> simp [hvalid, eq_comm]
  · simp [hvalid]

theorem known_of_keepLabel {found : Option FileContext} {start : LabelledFile}
    (h : keepLabel resource found start = .ok file) :
    file.isSystem = true ∧ file.typeExists = true := by
  obtain ⟨entry, -, rfl⟩ := exists_of_keepLabel h
  exact ⟨rfl, rfl⟩

/-- A type that was chosen is chosen again. -/
theorem chooseType_rebuilt {policy : SystemPolicy} {name : String} {start : LabelledFile}
    (hstart : start.isSystem = false) (hexists : start.typeExists = false)
    (h : chooseType policy [] name start = .ok file)
    (hdefined : file.typeExists = false → file.typeName ∈ types) :
    chooseType (policy.addTypes types) ownTypes name start = .ok (file.rebuilt ownTypes) := by
  obtain ⟨hvalid, hattribute, rfl⟩ := chooseType_nil_eq_ok_iff.1 h
  have hattribute : (policy.addTypes types).definesAttribute name = false := hattribute
  by_cases hname : name ∈ ownTypes
  · simp [chooseType, hvalid, hname, rebuilt, hstart, hexists, typeName, Label.object]
  · have hdefines : (policy.addTypes types).definesType name = true := by
      rw [SystemPolicy.definesType_addTypes]
      cases hpolicy : policy.definesType name with
      | true => exact .inl rfl
      | false => exact .inr (hdefined hpolicy)
    simp [chooseType, hvalid, hname, hattribute, hdefines, rebuilt, hstart, typeName, Label.object]

/-- A resource that was labelled is labelled again. -/
theorem make_rebuilt (hnext : catalog.Rebuilds types next)
    (hown : ∀ name ∈ types, Installed.recognizes name = true → name ∈ ownTypes)
    (h : make catalog [] resource = .ok file)
    (hdefined : file.typeExists = false → file.typeName ∈ types) :
    make next ownTypes resource = .ok (file.rebuilt ownTypes) := by
  obtain ⟨fileClass, isExecutable, hclass, hvalid, hcases⟩ := make_eq_ok_iff.1 h
  refine make_eq_ok_iff.2 ⟨fileClass, isExecutable, hclass, hvalid, ?_⟩
  rw [hnext.lookup]
  rcases hcases with ⟨hsystem, hkeep⟩ | ⟨hsystem, hnew, hlabelled⟩
  · rw [rebuilt_of_isSystem (known_of_keepLabel hkeep).1]
    exact .inl ⟨hsystem, hkeep⟩
  · refine .inr ⟨hsystem, hnew, ?_⟩
    unfold newlyLabelled at hlabelled ⊢
    cases hname : resource.typeName.filter (· ≠ "") with
    | some name =>
      simp only [hname] at hlabelled ⊢
      rw [hnext.policy]
      exact chooseType_rebuilt rfl rfl hlabelled hdefined
    | none =>
      simp only [hname] at hlabelled ⊢
      cases hlabelled
      -- The name is recognized, so the type is found among those of the installed build.
      have hfound := hown _ (hdefined rfl)
        (TypeName.recognizes_synthesize resource.path fileClass isExecutable)
      rw [rebuilt_eq_self_iff.2 fun _ => ⟨fun _ => hfound, fun _ => rfl⟩]
      rfl

/-- The labels of the next build are those of the build that is installed. -/
theorem makeAll_rebuilt (hnext : catalog.Rebuilds types next)
    (hown : ∀ name ∈ types, Installed.recognizes name = true → name ∈ ownTypes)
    {resources : List Resource} {files : List LabelledFile}
    (h : makeAll [] catalog resources = .ok (files, last))
    (hdefined : ∀ file ∈ files, file.typeExists = false → file.typeName ∈ types) :
    ∃ after, makeAll ownTypes next resources = .ok (files.map (rebuilt ownTypes), after) ∧
      last.Rebuilds types after := by
  induction resources generalizing catalog next files with
  | nil =>
    cases h
    exact ⟨next, rfl, hnext⟩
  | cons resource rest ih =>
    obtain ⟨file, others, hfile, hothers, rfl⟩ := makeAll_cons_eq_ok_iff.1 h
    obtain ⟨hfirst, hrest⟩ := List.forall_mem_cons.1 hdefined
    have hagain := make_rebuilt hnext hown hfile hfirst
    have hstep : (addTo catalog file).Rebuilds types (addTo next (file.rebuilt ownTypes)) := by
      show (addTo catalog file).Rebuilds types (addTo next file)
      unfold addTo
      split
      · exact hnext
      · exact hnext.allocate file.fileContext
    obtain ⟨after, hafter, hlast⟩ := ih hstep hothers hrest
    exact ⟨after, makeAll_cons_eq_ok_iff.2 ⟨_, _, hagain, hafter, rfl⟩, hlast⟩

/-- The label of the directory is that of the directory before. -/
theorem inherit_rebuilt (hnext : catalog.Rebuilds types next) {inherited : LabelledFile}
    (h : inherit catalog file = .ok inherited) :
    inherit next (file.rebuilt ownTypes) = .ok (inherited.rebuilt ownTypes) := by
  unfold inherit at h ⊢
  dsimp only [rebuilt] at h ⊢
  rw [hnext.lookup]
  split at h
  · cases h
    rfl
  · cases h

theorem inheritAll_rebuilt (hnext : catalog.Rebuilds types next)
    {files inherited : List LabelledFile} (h : files.mapM (inherit catalog) = .ok inherited) :
    (files.map (rebuilt ownTypes)).mapM (inherit next) =
      .ok (inherited.map (rebuilt ownTypes)) := by
  induction files generalizing inherited with
  | nil =>
    cases h
    rfl
  | cons file files ih =>
    obtain ⟨first, others, hfirst, hothers, rfl⟩ := mapM_cons_eq_ok_iff.1 h
    exact mapM_cons_eq_ok_iff.2 ⟨_, _, inherit_rebuilt hnext hfirst, ih hothers, rfl⟩

end LabelledFile

namespace Allocation

open LabelledFile (rebuilt)

/-- An application has the domain that it had. -/
theorem applicationsOf_rebuilt (ownTypes : List String) (files : List LabelledFile)
    (entries : List ApplicationEntry) :
    applicationsOf (files.map (rebuilt ownTypes)) entries = applicationsOf files entries := by
  have happlication (path : String) :
      applicationOf? (files.map (rebuilt ownTypes)) entries path =
        applicationOf? files entries path := by
    unfold applicationOf?
    rw [List.find?_map, Option.map_map]
    rfl
  unfold applicationsOf
  simp only [happlication]

theorem settleDomains_rebuilt (ownTypes : List String) (entries : List ApplicationEntry)
    (files : List LabelledFile) :
    settleDomains entries (files.map (rebuilt ownTypes)) =
      (settleDomains entries files).map (rebuilt ownTypes) := by
  unfold settleDomains
  rw [List.map_map, List.map_map]
  refine List.map_congr_left fun file _ => ?_
  show (if entries.any (·.path = file.path) then _ else _) = _
  rw [Function.comp_apply]
  split <;> rfl

/-! ### The file contexts of a project -/

/-- What is settled after the labels: the directory of a file and its domain. -/
def IsSettled (file settled : LabelledFile) : Prop :=
  ∃ parentLabel domain, settled = { file with parentLabel := parentLabel, domain := domain }

variable {last : Catalog} {files inherited : List LabelledFile} {entries : List ApplicationEntry}

theorem isSettled_of_inherit {file first : LabelledFile} (h : file.inherit last = .ok first) :
    IsSettled file
      (if entries.any (·.path = first.path) then { first with domain := some first.processDomain }
        else first) := by
  obtain ⟨t, entry, -, rfl⟩ := LabelledFile.exists_of_inherit h
  split
  · exact ⟨entry.label, _, rfl⟩
  · exact ⟨entry.label, _, rfl⟩

theorem exists_settled (h : files.mapM (LabelledFile.inherit last) = .ok inherited)
    {file : LabelledFile} (hfile : file ∈ files) :
    ∃ settled ∈ settleDomains entries inherited, IsSettled file settled := by
  obtain ⟨first, hfirst, hinherit⟩ := exists_of_mapM_eq_ok h file hfile
  exact ⟨_, List.mem_map_of_mem hfirst, isSettled_of_inherit hinherit⟩

theorem exists_of_settled (h : files.mapM (LabelledFile.inherit last) = .ok inherited)
    {settled : LabelledFile} (hsettled : settled ∈ settleDomains entries inherited) :
    ∃ file ∈ files, IsSettled file settled := by
  obtain ⟨first, hfirst, rfl⟩ := List.mem_map.1 hsettled
  obtain ⟨file, hfile, hinherit⟩ := exists_item_of_mapM_eq_ok h first hfirst
  exact ⟨file, hfile, isSettled_of_inherit hinherit⟩

end Allocation

namespace LabelledFile

variable {catalog last : Catalog} {ownTypes : List String} {resource : Resource}
  {file : LabelledFile}

/-- The types that a project gives its resources are symbols. -/
theorem isSymbol_typeName_of_make (h : make catalog ownTypes resource = .ok file)
    (hnew : file.isSystem = false ∨ file.typeExists = false) :
    Installed.IsSymbol file.typeName := by
  obtain ⟨fileClass, isExecutable, -, ⟨-, hkeep⟩ | ⟨-, -, ⟨name, hchoose⟩ | rfl⟩⟩ := make_cases h
  · obtain ⟨hsystem, hexists⟩ := known_of_keepLabel hkeep
    rw [hsystem, hexists] at hnew
    rcases hnew with hnew | hnew <;> cases hnew
  · obtain ⟨hvalid, typeExists, rfl⟩ := exists_of_chooseType hchoose
    exact TypeName.isSymbol_of_isName (TypeName.isName_of_isValid hvalid)
      (TypeName.isNameChar_of_isValid hvalid)
  · exact TypeName.isSymbol_of_isName (TypeName.isName_synthesize _ _ _)
      (TypeName.isNameChar_synthesize _ _ _)

theorem exists_make_of_mem {resources : List Resource} {files : List LabelledFile}
    (h : makeAll ownTypes catalog resources = .ok (files, last)) (hfile : file ∈ files) :
    ∃ before resource, make before ownTypes resource = .ok file := by
  obtain ⟨resource, -, before, -, hmake⟩ :=
    exists_of_forall₂_of_mem_right (forall₂_makeAll h) hfile
  exact ⟨before, resource, hmake⟩

end LabelledFile

namespace Allocation

open LabelledFile (rebuilt)

variable {project : Project} {catalog last : Catalog} {own : List Installed}
  {allocation : Allocation}

/-- Every file of a project was labelled, and then settled. -/
theorem exists_make_of_mem_files (h : make project catalog own = .ok (allocation, last))
    {settled : LabelledFile} (hsettled : settled ∈ allocation.files) :
    ∃ before ownTypes resource file,
      LabelledFile.make before ownTypes resource = .ok file ∧ IsSettled file settled := by
  obtain ⟨files, inherited, applications, hfiles, hinherited, -, rfl⟩ := make_eq_ok_iff.1 h
  obtain ⟨file, hfile, hsettled⟩ := exists_of_settled hinherited hsettled
  obtain ⟨before, resource, hmake⟩ := LabelledFile.exists_make_of_mem hfiles hfile
  exact ⟨before, _, resource, file, hmake, hsettled⟩

/-- The file contexts of a project can be declared, if no pattern has a quote. -/
theorem isDeclarable_newFileContexts (h : make project catalog own = .ok (allocation, last))
    (hquoted : ∀ entry ∈ Assembly.newFileContexts allocation, '"' ∉ entry.pattern.toList) :
    ∀ entry ∈ Assembly.newFileContexts allocation, Installed.IsDeclarable entry := by
  intro entry hentry
  have hplain := hquoted entry hentry
  obtain ⟨settled, hsettled, rfl⟩ := List.mem_map.1 hentry
  obtain ⟨hsettled, hnew⟩ := List.mem_filter.1 hsettled
  obtain ⟨before, ownTypes, resource, file, hmake, parentLabel, domain, rfl⟩ :=
    exists_make_of_mem_files h hsettled
  have hpattern : file.pattern = String.ofList (Path.labelPattern resource.path.toList) :=
    (LabelledFile.describes_make hmake).pattern
  have hsymbol : Installed.IsSymbol file.typeName :=
    LabelledFile.isSymbol_typeName_of_make hmake (.inl (by simpa using hnew))
  refine ⟨hplain, ?_, hsymbol.2.1⟩
  show Path.ClosesApart file.pattern.toList
  rw [hpattern, String.toList_ofList]
  exact Path.closesApart_labelPattern _

/-- The types of a project can be declared, if its domains can. -/
theorem isSymbol_definedTypes (h : make project catalog own = .ok (allocation, last))
    (hdomains : ∀ app ∈ allocation.applications, Installed.IsSymbol app.domain) :
    ∀ name ∈ allocation.definedTypes, Installed.IsSymbol name := by
  intro name hname
  rw [definedTypes, mem_distinct, List.mem_append, List.mem_map, List.mem_map] at hname
  obtain ⟨settled, hsettled, rfl⟩ | ⟨app, happ, rfl⟩ := hname
  · obtain ⟨hsettled, hnew⟩ := List.mem_filter.1 hsettled
    obtain ⟨before, ownTypes, resource, file, hmake, parentLabel, domain, rfl⟩ :=
      exists_make_of_mem_files h hsettled
    have hsymbol : Installed.IsSymbol file.typeName :=
      LabelledFile.isSymbol_typeName_of_make hmake (.inr (by simpa using hnew))
    exact hsymbol
  · exact hdomains app happ

theorem mem_definedTypes {file : LabelledFile} (hfile : file ∈ allocation.files)
    (hdefined : file.typeExists = false) : file.typeName ∈ allocation.definedTypes := by
  rw [definedTypes, mem_distinct]
  exact List.mem_append_left _
    (List.mem_map_of_mem (List.mem_filter.2 ⟨hfile, by simpa using hdefined⟩))

/-! ### The next build -/

/-- The next build makes of every file what is said of it, and has the same applications. -/
theorem make_again (installed : Installed) {host : Catalog} {types : List String}
    (hhost : catalog.Rebuilds types (maskAll host installed.patterns))
    (hown : ∀ name ∈ types, Installed.recognizes name = true → name ∈ installed.types)
    (h : make project catalog [] = .ok (allocation, last))
    (hdefined : ∀ file ∈ allocation.files, file.typeExists = false → file.typeName ∈ types) :
    ∃ after, make project host [installed] = .ok
      ({ allocation with
        files := allocation.files.map (rebuilt installed.types)
        ownTypes := installed.types
        ownPatterns := installed.patterns }, after) := by
  obtain ⟨files, inherited, applications, hfiles, hinherited, happlications, rfl⟩ :=
    make_eq_ok_iff.1 h
  have hlabelled : ∀ file ∈ files, file.typeExists = false → file.typeName ∈ types := by
    intro file hfile hexists
    obtain ⟨settled, hsettled, parentLabel, domain, rfl⟩ := exists_settled hinherited hfile
    exact (hdefined _ hsettled hexists :)
  obtain ⟨after, hafter, hlast⟩ := LabelledFile.makeAll_rebuilt hhost hown hfiles hlabelled
  have hinheritedAgain : (files.map (rebuilt installed.types)).mapM (LabelledFile.inherit after) =
      .ok (inherited.map (rebuilt installed.types)) :=
    LabelledFile.inheritAll_rebuilt hlast hinherited
  have hsame := applicationsOf_rebuilt installed.types inherited project.entries
  refine ⟨after, make_eq_ok_iff.2
    ⟨_, _, _, ?_, hinheritedAgain, hsame.trans happlications, ?_⟩⟩
  · simpa using hafter
  · simp [settleDomains_rebuilt]

section

variable {m : Type → Type} [Monad m] [LawfulMonad m] {machine : Machine m} {store : ModuleStore}
  {policy : SystemPolicy} {system homes custom : List FileContext}

/-- What a project finds of an earlier build of it in the store. -/
theorem read_installed
    (h : make project catalog own = .ok (allocation, last))
    (hstore : store.HoldsOnly machine (ownModules project.name) (project.name ++ "_public")
      allocation.installedText)
    {others : List FileContext} (hmaskable : allocation.IsMaskable others) :
    (store.installedAmong machine (ownModules project.name)).run = pure (.ok [{
      types := allocation.definedTypes.filter Installed.recognizes
      patterns := (Assembly.newFileContexts allocation).map FileContext.pattern }]) := by
  have hread : Installed.parse allocation.installedText = _ :=
    Installed.parse_text (isSymbol_definedTypes h hmaskable.domains)
      (isDeclarable_newFileContexts h hmaskable.quoted)
  have hother : project.name ≠ project.name ++ "_public" := fun heq => by
    have hlength := congrArg String.length heq
    rw [String.length_append] at hlength
    exact absurd hlength (by simp)
  rw [ModuleStore.installedAmong_of_holdsOnly hstore
    (Bzip2.isCompressed_toByteArray Installed.eq_of_mem_head?_text), ← hread]
  simp [ownModules, hother]

/-- The next build over an installed one. -/
theorem make_over_installed
    (h : make project (.make policy system homes custom) [] = .ok (allocation, last))
    (hmaskable : allocation.IsMaskable (homes ++ custom)) :
    ∃ after, make project (allocation.installedHost policy system homes custom) [{
        types := allocation.definedTypes.filter Installed.recognizes
        patterns := (Assembly.newFileContexts allocation).map FileContext.pattern }] = .ok
      ({ allocation with
        files := allocation.files.map
          (rebuilt (allocation.definedTypes.filter Installed.recognizes))
        ownTypes := allocation.definedTypes.filter Installed.recognizes
        ownPatterns := (Assembly.newFileContexts allocation).map FileContext.pattern }, after) :=
  make_again ⟨_, _⟩ (Catalog.rebuilds_installedHost policy system hmaskable.nodup hmaskable.apart)
    (fun _ hname hrecognized => List.mem_filter.2 ⟨hname, hrecognized⟩) h
    fun _ => mem_definedTypes

/-- Building a project again over what a build of it has installed succeeds and gives every resource
the same label and every application the same domain, provided that the installed module can be
written, and its file contexts masked: the patterns can be quoted, differ from each other and stand
in no tier that is searched before that of the system.  A type exists for the next build unless it
is found in the text of the installed module, so the files are the same just if the types that are
found are those that the host lacked. -/
theorem rebuild_over_installed
    (h : make project (.make policy system homes custom) [] = .ok (allocation, last))
    (hstore : store.HoldsOnly machine (ownModules project.name) (project.name ++ "_public")
      allocation.installedText)
    (hmaskable : allocation.IsMaskable (homes ++ custom)) :
    ∃ own, (store.installedAmong machine (ownModules project.name)).run = pure (.ok own) ∧
      ∃ again after, make project (allocation.installedHost policy system homes custom) own =
          .ok (again, after) ∧
        again.applications = allocation.applications ∧
        again.files = allocation.files.map
          (rebuilt (allocation.definedTypes.filter Installed.recognizes)) ∧
        (again.files = allocation.files ↔ ∀ file ∈ allocation.files, file.isSystem = false →
          (file.typeExists = false ↔ file.typeName ∈ allocation.definedTypes ∧
            Installed.recognizes file.typeName = true)) := by
  obtain ⟨after, hagain⟩ := make_over_installed h hmaskable
  refine ⟨_, read_installed h hstore hmaskable, _, after, hagain, rfl, rfl, ?_⟩
  rw [LabelledFile.map_rebuilt_eq_self_iff]
  simp only [List.mem_filter]

end

/-! ### A file with a chosen type -/

/-- A project with an application that reads a file of a chosen type. -/
def typedFile (typeName : String) : Project where
  name := "demo"
  resources := [
    { path := "/app", classWord := "exec_file", isSystem := true },
    { path := "/a/y", classWord := "file", typeName := some typeName }]
  specs := [Assembly.creator "app.json" ["/a/y"]]

/-- The store of a machine that has one module. -/
def loneStore : ModuleStore where
  root := "/store"
  policyType := "targeted"

/-- A machine that has one module, with some text. -/
def loneMachine (text : String) : Machine Id where
  readFile path :=
    if path = "/store/targeted/active/modules/400/demo_public/cil" then some text.toByteArray
    else none
  listDirectory path :=
    if path = "/store/targeted/active/modules" then .entries ["400"] else .missing
  isDirectory path := decide (path = "/store/targeted/active/modules/400/demo_public")
  isFile path := decide (path = "/store/targeted/active/modules/400/demo_public/cil")
  pathExists path := decide (path = "/store/targeted/active/modules/400/demo_public/cil")
  createDirectories _ := false
  writeFile _ _ := false
  removeTree _ := ()
  runTool _ _ := none

theorem holdsOnly_loneStore (text : String) :
    loneStore.HoldsOnly (loneMachine text) (ownModules "demo") ("demo" ++ "_public") text := by
  have hmodules : loneStore.modulesPath = "/store/targeted/active/modules" := by decide +kernel
  have hcontent : Path.joinAll loneStore.modulesPath [Nat.repr 400, "demo" ++ "_public", "cil"] =
      "/store/targeted/active/modules/400/demo_public/cil" := by decide +kernel
  have hlisted : (loneMachine text).listDirectory loneStore.modulesPath =
      (DirectoryListing.entries ["400"] : Id _) := by
    simp only [loneMachine, hmodules, if_true]
  have hread : (loneMachine text).readFile
      (Path.joinAll loneStore.modulesPath [Nat.repr 400, "demo" ++ "_public", "cil"]) =
        (some text.toByteArray : Id _) := by
    simp only [loneMachine, hcontent, if_true]
  refine ⟨400, by decide, hlisted, fun other hother => ?_, hread⟩
  have hdirectory (path : String) : (loneMachine text).isDirectory path =
      (decide (path = "/store/targeted/active/modules/400/demo_public") : Id _) := rfl
  rw [hdirectory]
  obtain rfl | rfl := List.mem_pair.1 hother
  · exact decide_eq_decide.2 (by decide +kernel)
  · exact decide_eq_decide.2 (by decide +kernel)

/-- The types of the next build are those that were installed. -/
theorem typedFile_rebuilt :
    let system := [FileContext.bind "/(a|b)?" .directory (.object "dir_t")]
    let homes := [FileContext.bind "/app" .file (.object "app_exec_t")]
    ∃ allocation last own, make (typedFile "two_t") (.make {} system homes []) [] =
        .ok (allocation, last) ∧
      (loneStore.installedAmong (loneMachine allocation.installedText) (ownModules "demo")).run =
        (pure (.ok own) : Id _) ∧
      ∃ again after, make (typedFile "two_t") (allocation.installedHost {} system homes []) own =
          .ok (again, after) ∧
        again.applications = allocation.applications ∧ again.files = allocation.files := by
  intro system homes
  have hanswer : (make (typedFile "two_t") (.make {} system homes []) []).toOption.any
      fun found => decide (found.1.IsMaskable (homes ++ []) ∧
        ∀ file ∈ found.1.files, file.isSystem = false → (file.typeExists = false ↔
          file.typeName ∈ found.1.definedTypes ∧
            Installed.recognizes file.typeName = true)) := by
    decide +kernel
  obtain ⟨⟨allocation, last⟩, hallocation, hmaskable, hsame⟩ := exists_of_any_toOption hanswer
  obtain ⟨own, hown, again, after, hagain, happlications, -, hfiles⟩ :=
    rebuild_over_installed hallocation (holdsOnly_loneStore _) hmaskable
  exact ⟨allocation, last, own, hallocation, hown, again, after, hagain, happlications,
    hfiles.2 hsame⟩

/-- A type that does not end in `_t` is not found among the types of the installed build, so the
next build takes it for a type of the host. -/
theorem bareType_not_rebuilt :
    let system := [FileContext.bind "/(a|b)?" .directory (.object "dir_t")]
    let homes := [FileContext.bind "/app" .file (.object "app_exec_t")]
    (typedFile "conf").check = .ok () ∧
    ∃ allocation last own, make (typedFile "conf") (.make {} system homes []) [] =
        .ok (allocation, last) ∧
      (loneStore.installedAmong (loneMachine allocation.installedText) (ownModules "demo")).run =
        (pure (.ok own) : Id _) ∧
      ∃ again after, make (typedFile "conf") (allocation.installedHost {} system homes []) own =
          .ok (again, after) ∧
        again.files ≠ allocation.files := by
  intro system homes
  have hanswer : (make (typedFile "conf") (.make {} system homes []) []).toOption.any
      fun found => decide (found.1.IsMaskable (homes ++ []) ∧
        ∃ file ∈ found.1.files, file.isSystem = false ∧ file.typeExists = false ∧
          Installed.recognizes file.typeName = false) := by
    decide +kernel
  obtain ⟨⟨allocation, last⟩, hallocation, hmaskable, file, hfile, hnew, hdefined, hunknown⟩ :=
    exists_of_any_toOption hanswer
  obtain ⟨after, hagain⟩ := make_over_installed hallocation hmaskable
  have hread := read_installed hallocation (holdsOnly_loneStore _) hmaskable
  refine ⟨by decide +kernel, allocation, last, _, hallocation, hread, _, after, hagain,
    fun hsame => ?_⟩
  -- The type that the build defines would have to be found.
  have hfound := (LabelledFile.map_rebuilt_eq_self_iff.1 hsame file hfile hnew).1 hdefined
  have hrecognized := (List.mem_filter.1 hfound).2
  rw [hunknown] at hrecognized
  cases hrecognized

end Allocation

end TypeEnforcement
