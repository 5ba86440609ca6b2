/-
The names that a project uses.

Every name in a generated rule is that of a type, a domain or an attribute, and each of these comes
from the host, from the project or from a path.  The project's own are checked, and those made of
paths have letters, digits and underscores only.  So if the host's names are words, all are.

* `SystemPolicy.IsReadable`, `Catalog.IsReadable` — a host whose names are words;
* `LabelledFile.IsNamed`, `Grant.Context.IsNamed` — files and allocations whose names are words;
* `Rule.IsNamed` — a rule whose names are words.

Main statements:
* `isName_synthesize`, `isName_of_isValid` — made and chosen names are words;
* `isNamed_of_allocate` — all names of an allocated project are words;
* `Grant.allNamed_ofPermission` — so are those of the rules of a permission.
-/
import TypeEnforcement.Proofs.Labelling
import TypeEnforcement.Proofs.Lookup
import TypeEnforcement.Proofs.Statements
import TypeEnforcement.Proofs.Support

namespace TypeEnforcement

open Rule (IsName IsPermission)

/-! ### Names of types -/

namespace TypeName

theorem toNat_of_isNameChar {c : Char} (h : isNameChar c = true) :
    48 ≤ c.toNat ∧ c.toNat ≤ 122 := by
  have hranges : (decide ('A'.val ≤ c.val ∧ c.val ≤ 'Z'.val) ||
      (decide ('a'.val ≤ c.val) && decide (c.val ≤ 'z'.val)) ||
      (decide ('0'.val ≤ c.val) && decide (c.val ≤ '9'.val)) || c == '_') = true := h
  simp only [Bool.or_eq_true, Bool.and_eq_true, decide_eq_true_eq, beq_iff_eq,
    UInt32.le_iff_toNat_le] at hranges
  have hupper : 'A'.val.toNat = 65 ∧ 'Z'.val.toNat = 90 := ⟨rfl, rfl⟩
  have hlower : 'a'.val.toNat = 97 ∧ 'z'.val.toNat = 122 := ⟨rfl, rfl⟩
  have hdigit : '0'.val.toNat = 48 ∧ '9'.val.toNat = 57 := ⟨rfl, rfl⟩
  rcases hranges with hranges | rfl
  · show 48 ≤ c.val.toNat ∧ c.val.toNat ≤ 122
    omega
  · decide

theorem isBlank_of_isNameChar {c : Char} (h : isNameChar c = true) : Text.isBlank c = false := by
  have hcode := toNat_of_isNameChar h
  simp only [Text.isBlank, Bool.or_eq_false_iff, Bool.and_eq_false_iff, decide_eq_false_iff_not,
    beq_eq_false_iff_ne]
  omega

theorem isName_of_isNameChars {name : String} (hne : name ≠ "")
    (h : ∀ c ∈ name.toList, isNameChar c = true) : IsName name := by
  refine ⟨⟨hne, fun c hc => isBlank_of_isNameChar (h c hc)⟩, fun hcolon => ?_⟩
  exact absurd (h ':' hcolon) (by decide)

theorem isNameChar_of_isValid {name : String} (h : IsValid name) :
    ∀ c ∈ name.toList, isNameChar c = true := by
  obtain ⟨-, hidentifier⟩ := h
  unfold isIdentifier at hidentifier
  split at hidentifier
  · cases hidentifier
  · rename_i c rest hname
    rw [Bool.and_eq_true, List.all_eq_true] at hidentifier
    have hfirst : isNameChar c = true := by simp [isNameChar, Char.isAlphanum, hidentifier.1]
    rw [hname]
    exact List.forall_mem_cons.2 ⟨hfirst, hidentifier.2⟩

/-- The names that may be configured are words. -/
theorem isName_of_isValid {name : String} (h : IsValid name) : IsName name := by
  refine isName_of_isNameChars ?_ (isNameChar_of_isValid h)
  rintro rfl
  exact absurd h.2 (by decide)

theorem isNameChar_readable (path : List Char) : ∀ c ∈ readable path, isNameChar c = true := by
  have hword (component : List Char) : ∀ c ∈ wordOf component, isNameChar c = true :=
    fun c hc => (List.mem_filter.1 hc).2
  fun_induction readable path with
  | case1 => decide
  | case2 path hroot stem leaf hwild ih =>
    intro c hc
    rcases List.mem_append.1 hc with hc | hc
    · exact ih c hc
    · rcases List.mem_cons.1 hc with rfl | hc
      · rfl
      · exact hword _ c hc
  | case3 path hroot stem leaf hwild => exact hword _

/-- The characters of a name that is made of a path are those that a name may have. -/
theorem isNameChar_synthesize (path : String) (fileClass : FileClass) (executable : Bool) :
    ∀ c ∈ (synthesize path fileClass executable).toList, isNameChar c = true := by
  have hdigits : ∀ c ∈ hashDigits path, isNameChar c = true := by
    intro c hc
    have hhex : c ∈ Digest.hexDigits := Digest.mem_hexOf (List.mem_of_mem_take hc)
    have hall : ∀ digit ∈ Digest.hexDigits, isNameChar digit = true := by decide
    exact hall c hhex
  have hsuffix : ∀ c ∈ (if executable then "_exec_t" else fileClass.nameSuffix ++ "_t").toList,
      isNameChar c = true := by
    cases executable <;> cases fileClass <;> decide
  have hstart : ∀ c ∈ "auto_".toList, isNameChar c = true := by decide
  unfold synthesize
  rw [String.toList_ofList]
  simp only [List.forall_mem_append, List.forall_mem_cons]
  exact ⟨⟨⟨hstart, isNameChar_readable path.toList⟩, rfl, hdigits⟩, hsuffix⟩

theorem isName_synthesize (path : String) (fileClass : FileClass) (executable : Bool) :
    IsName (synthesize path fileClass executable) := by
  have hmem : '_' ∈ (synthesize path fileClass executable).toList := by
    unfold synthesize
    rw [String.toList_ofList]
    exact List.mem_append_left _ (List.mem_append_right _ List.mem_cons_self)
  refine isName_of_isNameChars (fun hempty => ?_) (isNameChar_synthesize path fileClass executable)
  rw [hempty] at hmem
  cases hmem

/-- A name with more in front of it. -/
theorem isName_append {front back : String} (hback : IsName back)
    (hfront : ∀ c ∈ front.toList, Text.isBlank c = false ∧ c ≠ ':') : IsName (front ++ back) := by
  refine ⟨⟨fun hempty => hback.1.1 (String.append_eq_empty_iff.1 hempty).2, ?_⟩, ?_⟩
  · rw [String.toList_append]
    exact List.forall_mem_append.2 ⟨fun c hc => (hfront c hc).1, hback.1.2⟩
  · rw [String.toList_append, List.mem_append, not_or]
    exact ⟨fun hcolon => (hfront ':' hcolon).2 rfl, hback.2⟩

/-- The domain that a file of a type leads into has a name if the type has one. -/
theorem isName_domainOf {fileType : String} (h : IsName fileType) : IsName (domainOf fileType) := by
  have hchars : ∀ c ∈ fileType.toList, Text.isBlank c = false ∧ c ≠ ':' := fun c hc =>
    ⟨h.1.2 c hc, fun heq => h.2 (heq ▸ hc)⟩
  unfold domainOf
  split
  · rename_i stem hstem
    obtain ⟨front, hfront, rfl⟩ := Option.map_eq_some_iff.1 hstem
    have hsplit := Text.dropEnd?_eq_some_iff.1 hfront
    refine isName_append (by decide) fun c hc => hchars c ?_
    rw [String.toList_ofList] at hc
    exact hsplit ▸ List.mem_append_left _ hc
  · split
    · exact isName_append (by decide) hchars
    · exact isName_append (by decide) hchars

end TypeName

/-! ### The host -/

/-- A policy whose names are words. -/
structure SystemPolicy.IsReadable (policy : SystemPolicy) : Prop where
  roles : ∀ role ∈ policy.roles, IsName role
  classes : ∀ entry ∈ policy.classes.entries,
    IsName entry.1 ∧ ∀ permission ∈ entry.2.toList, IsPermission permission
  ports : ∀ range ∈ policy.ports, IsName range.label.typeName

theorem SystemPolicy.IsReadable.class_of_eq_some {policy : SystemPolicy} (h : policy.IsReadable)
    {className : String} {permissions : NameSet}
    (hfound : policy.permissions? className = some permissions) :
    IsName className ∧ ∀ permission ∈ permissions, IsPermission permission := by
  obtain ⟨before, after, hsplit, -⟩ := List.lookup_eq_some_iff.1 hfound
  exact h.classes (className, permissions) (hsplit ▸ List.mem_append_right _ List.mem_cons_self)

/-- A catalog whose names are words. -/
structure Catalog.IsReadable (catalog : Catalog) : Prop where
  policy : catalog.policy.IsReadable
  labels : ∀ t, ∀ entry ∈ (catalog.tier t).entries, IsName entry.label.typeName

namespace Catalog

variable {catalog : Catalog}

/-- A catalog that is made of a readable policy and of entries whose names are words. -/
theorem isReadable_make {policy : SystemPolicy} {system homes custom : List FileContext}
    (hpolicy : policy.IsReadable)
    (hentries : ∀ entry ∈ system ++ homes ++ custom, IsName entry.label.typeName) :
    (make policy system homes custom).IsReadable := by
  simp only [List.forall_mem_append] at hentries
  obtain ⟨⟨hsystem, hhomes⟩, hcustom⟩ := hentries
  refine ⟨hpolicy, fun t entry hentry => ?_⟩
  cases t with
  | allocated => cases Array.not_mem_empty entry hentry
  | custom => exact hcustom entry (List.mem_toArray.1 hentry)
  | homes => exact hhomes entry (List.mem_toArray.1 hentry)
  | system => exact hsystem entry (List.mem_toArray.1 hentry)

/-- What a search finds is in the tier that it names. -/
theorem mem_of_search {p : FileContext → Bool} {t : Tier} {place : Nat} {entry : FileContext}
    (h : catalog.search p = some (t, place, entry)) :
    (catalog.tier t).entries[place]? = some entry ∧ p entry = true := by
  obtain ⟨other, -, hother⟩ := List.exists_of_findSome?_eq_some h
  obtain ⟨⟨place', entry'⟩, hfind, heq⟩ := Option.map_eq_some_iff.1 hother
  obtain ⟨rfl, rfl, rfl⟩ : other = t ∧ place' = place ∧ entry' = entry := by simpa using heq
  exact TierEntries.find?_sound hfind

theorem IsReadable.lookup (h : catalog.IsReadable) {path : String} {fileClass : FileClass}
    {t : Tier} {entry : FileContext} (hlookup : catalog.lookup path fileClass = some (t, entry)) :
    IsName entry.label.typeName := by
  obtain ⟨⟨t', place, entry'⟩, hsearch, heq⟩ := Option.map_eq_some_iff.1 hlookup
  obtain ⟨rfl, rfl⟩ := Prod.mk.inj heq
  exact h.labels t' entry' (Array.mem_of_getElem? (mem_of_search hsearch).1)

theorem IsReadable.allocate (h : catalog.IsReadable) {entry : FileContext}
    (hentry : IsName entry.label.typeName) : (catalog.allocate entry).IsReadable := by
  refine ⟨h.policy, fun t other hother => ?_⟩
  cases t with
  | allocated =>
    rcases Array.mem_push.1 hother with hother | rfl
    · exact h.labels .allocated other hother
    · exact hentry
  | custom => exact h.labels .custom other hother
  | homes => exact h.labels .homes other hother
  | system => exact h.labels .system other hother

theorem policy_mask (catalog : Catalog) (pattern : String) :
    (catalog.mask pattern).policy = catalog.policy := by
  unfold mask
  split
  · rfl
  · rename_i t _ _ _
    cases t <;> rfl

/-- A mask is not seen in a label. -/
theorem IsReadable.mask (h : catalog.IsReadable) (pattern : String) :
    (catalog.mask pattern).IsReadable := by
  refine ⟨policy_mask catalog pattern ▸ h.policy, fun t other hother => ?_⟩
  unfold Catalog.mask at hother
  split at hother
  · exact h.labels t other hother
  · rename_i found place _ _
    rw [tier_setTier] at hother
    split at hother
    · obtain ⟨i, hi⟩ := Array.mem_iff_getElem?.1 hother
      rw [TierEntries.modify, Array.getElem?_modify] at hi
      split at hi
      · obtain ⟨old, hold, rfl⟩ := Option.map_eq_some_iff.1 hi
        exact h.labels found old (Array.mem_of_getElem? hold)
      · exact h.labels found other (Array.mem_of_getElem? hi)
    · exact h.labels t other hother

theorem IsReadable.maskAll (h : catalog.IsReadable) (patterns : List String) :
    (Allocation.maskAll catalog patterns).IsReadable := by
  unfold Allocation.maskAll
  induction patterns generalizing catalog with
  | nil => exact h
  | cons pattern rest ih => exact ih (h.mask pattern)

end Catalog

/-! ### Allocation -/

namespace LabelledFile

/-- A file whose type and domain are words.  If the project labels it, it has the label of an object
of its type. -/
structure IsNamed (file : LabelledFile) : Prop where
  typeName : IsName file.typeName
  domain : ∀ domain ∈ file.domain, IsName domain
  label : file.isSystem = false → file.label = .object file.typeName

theorem IsNamed.processDomain {file : LabelledFile} (h : file.IsNamed) :
    IsName file.processDomain := by
  unfold LabelledFile.processDomain
  cases hdomain : file.domain with
  | none => exact TypeName.isName_domainOf h.typeName
  | some domain => exact h.domain domain hdomain

variable {catalog last : Catalog} {ownTypes : List String} {resource : Resource}
  {file next : LabelledFile}

/-- A domain that the project chooses is checked. -/
theorem isValid_domain_of_make (h : make catalog ownTypes resource = .ok file) :
    ∀ domain ∈ resource.domain.filter (· ≠ ""), TypeName.IsValid domain := by
  obtain ⟨_, _, -, hvalid, -⟩ := make_eq_ok_iff.1 h
  exact hvalid

theorem isNamed_make (hcatalog : catalog.IsReadable)
    (h : make catalog ownTypes resource = .ok file) : file.IsNamed := by
  obtain ⟨fileClass, isExecutable, -, hcases⟩ := make_cases h
  have hdomain : ∀ domain ∈ (unlabelled resource fileClass isExecutable).domain, IsName domain :=
    fun domain hmem => TypeName.isName_of_isValid (isValid_domain_of_make h domain hmem)
  obtain ⟨hsystem, hkeep⟩ | ⟨hsystem, -, ⟨name, hchoose⟩ | rfl⟩ := hcases
  · obtain ⟨entry, hfound, rfl⟩ := exists_of_keepLabel hkeep
    obtain ⟨⟨t, found⟩, hlookup, rfl⟩ := Option.map_eq_some_iff.1 hfound
    exact ⟨hcatalog.lookup hlookup, hdomain, fun hnew => by cases hnew⟩
  · obtain ⟨hvalid, typeExists, rfl⟩ := exists_of_chooseType hchoose
    exact ⟨TypeName.isName_of_isValid hvalid, hdomain, fun _ => rfl⟩
  · exact ⟨TypeName.isName_synthesize _ _ _, hdomain, fun _ => rfl⟩

/-- The files of resources are named, and so are the labels of the catalog with their entries. -/
theorem isNamed_makeAll (hcatalog : catalog.IsReadable) {resources : List Resource}
    {files : List LabelledFile} (h : makeAll ownTypes catalog resources = .ok (files, last)) :
    (∀ file ∈ files, file.IsNamed) ∧ last.IsReadable := by
  induction resources generalizing catalog files with
  | nil =>
    cases h
    exact ⟨fun _ hfile => absurd hfile List.not_mem_nil, hcatalog⟩
  | cons resource rest ih =>
    obtain ⟨file, others, hfile, hothers, rfl⟩ := makeAll_cons_eq_ok_iff.1 h
    have hnamed := isNamed_make hcatalog hfile
    have hnext : (addTo catalog file).IsReadable := by
      unfold addTo
      split
      · exact hcatalog
      · exact hcatalog.allocate hnamed.typeName
    obtain ⟨hrest, hlast⟩ := ih hnext hothers
    exact ⟨List.forall_mem_cons.2 ⟨hnamed, hrest⟩, hlast⟩

theorem isNamed_inherit (hcatalog : catalog.IsReadable) (hfile : file.IsNamed)
    (h : inherit catalog file = .ok next) : next.IsNamed ∧ IsName next.parentType := by
  obtain ⟨t, entry, hlookup, rfl⟩ := exists_of_inherit h
  exact ⟨⟨hfile.typeName, hfile.domain, hfile.label⟩, hcatalog.lookup hlookup⟩

end LabelledFile

/-- An allocated project whose names are words. -/
structure Grant.Context.IsNamed (context : Grant.Context) : Prop where
  policy : context.policy.IsReadable
  fallback : IsName context.fallbackDomain
  files : ∀ file ∈ context.allocation.files, file.IsNamed ∧ IsName file.parentType
  applications : ∀ app ∈ context.allocation.applications, IsName app.domain

namespace Allocation

theorem isName_applicationsOf {files : List LabelledFile} {entries : List ApplicationEntry}
    {applications : List ConfinedApplication} (hfiles : ∀ file ∈ files, file.IsNamed)
    (h : applicationsOf files entries = .ok applications) :
    ∀ app ∈ applications, IsName app.domain := by
  intro app happ
  obtain ⟨file, hfile, hdomain⟩ := exists_of_mem_applications h happ
  exact hdomain ▸ (hfiles file hfile).processDomain

/-- Settling a domain gives a file the domain that it leads into anyway. -/
theorem isNamed_settleDomains (entries : List ApplicationEntry) {files : List LabelledFile}
    (h : ∀ file ∈ files, file.IsNamed ∧ IsName file.parentType) :
    ∀ file ∈ settleDomains entries files, file.IsNamed ∧ IsName file.parentType := by
  refine List.forall_mem_map.2 fun file hfile => ?_
  obtain ⟨hnamed, hparent⟩ := h file hfile
  split
  · refine ⟨⟨hnamed.typeName, fun domain hdomain => ?_, hnamed.label⟩, hparent⟩
    obtain rfl := Option.some.inj hdomain
    exact hnamed.processDomain
  · exact ⟨hnamed, hparent⟩

end Allocation

/-- All names of an allocated project are words. -/
theorem Assembly.isNamed_of_allocate {project : Project} {catalog : Catalog}
    {own : Except Fault (List Installed)} {fallbackDomain : String} {context : Grant.Context}
    (hcatalog : catalog.IsReadable) (hfallback : IsName fallbackDomain)
    (h : allocate project catalog own fallbackDomain = .ok context) : context.IsNamed := by
  obtain ⟨installed, allocation, last, -, hallocation, rfl⟩ := exists_of_allocate h
  obtain ⟨files, inherited, applications, hfiles, hinherited, happlications, rfl⟩ :=
    Allocation.make_eq_ok_iff.1 hallocation
  obtain ⟨hfiles, hlast⟩ := LabelledFile.isNamed_makeAll (hcatalog.maskAll _) hfiles
  have hinherited : ∀ file ∈ inherited, file.IsNamed ∧ IsName file.parentType := by
    intro file hfile
    obtain ⟨before, hbefore, hinherit⟩ := exists_item_of_mapM_eq_ok hinherited file hfile
    exact LabelledFile.isNamed_inherit hlast (hfiles before hbefore) hinherit
  exact ⟨hlast.policy, hfallback, Allocation.isNamed_settleDomains _ hinherited,
    Allocation.isName_applicationsOf (fun file hfile => (hinherited file hfile).1) happlications⟩

/-! ### Rules -/

namespace Rule

/-- A rule whose names are words.  The class of an access rule is left to the policy. -/
def IsNamed : Rule → Prop
  | access rule => IsName rule.subject ∧ IsName rule.object
  | transition rule => IsName rule.subject ∧ IsName rule.object ∧ IsName rule.className ∧
      IsName rule.target

/-- Rules whose names are all words. -/
def AllNamed (rules : List Rule) : Prop :=
  ∀ rule ∈ rules, rule.IsNamed

theorem IsReadable.isNamed {rule : Rule} (h : rule.IsReadable) : rule.IsNamed := by
  cases rule with
  | access rule => exact ⟨h.subject, h.object⟩
  | transition rule => exact ⟨h.subject, h.object, h.className, h.target⟩

theorem allNamed_nil : AllNamed [] :=
  fun _ hrule => absurd hrule List.not_mem_nil

theorem AllNamed.append {a b : List Rule} (ha : AllNamed a) (hb : AllNamed b) :
    AllNamed (a ++ b) :=
  List.forall_mem_append.2 ⟨ha, hb⟩

theorem AllNamed.flatMap {α : Type} {items : List α} {f : α → List Rule}
    (h : ∀ item ∈ items, AllNamed (f item)) : AllNamed (items.flatMap f) :=
  List.forall_mem_flatMap.2 h

theorem AllNamed.cons {subject object className : String} {permissions : List String}
    {rules : List Rule} (hsubject : IsName subject) (hobject : IsName object)
    (h : AllNamed rules) : AllNamed (Bundle.allow subject object className permissions :: rules) :=
  List.forall_mem_cons.2 ⟨⟨hsubject, hobject⟩, h⟩

theorem allNamed_ite {c : Prop} [Decidable c] {a b : List Rule} (ha : AllNamed a)
    (hb : AllNamed b) : AllNamed (if c then a else b) := by
  split
  · exact ha
  · exact hb

end Rule

open Rule (AllNamed allNamed_nil allNamed_ite)

theorem FileClass.isName_of_mem_kernelClasses {c : FileClass} {name : String}
    (h : name ∈ c.kernelClasses) : IsName name := by
  have hall : ∀ kind ∈ c.members, IsName kind.kernelClass := by
    cases c <;> decide
  obtain ⟨kind, hkind, rfl⟩ := List.mem_map.1 h
  exact hall kind hkind

namespace Bundle

theorem allNamed_fileAccess {subject object : String} (hsubject : IsName subject)
    (hobject : IsName object) (fileClass : FileClass) (permissions : List String) :
    AllNamed (fileAccess subject object fileClass permissions) :=
  List.forall_mem_map.2 fun _ _ => ⟨hsubject, hobject⟩

theorem allNamed_namedTransition {subject parent target : String} (hsubject : IsName subject)
    (hparent : IsName parent) (htarget : IsName target) (fileClass : FileClass) (name : String) :
    AllNamed (namedTransition subject parent fileClass target name) :=
  List.forall_mem_map.2 fun _ hclass =>
    ⟨hsubject, hparent, FileClass.isName_of_mem_kernelClasses hclass, htarget⟩

theorem allNamed_domainTransition {subject entry target : String} (hsubject : IsName subject)
    (hentry : IsName entry) (htarget : IsName target) :
    AllNamed (domainTransition subject entry target) := by
  have hprocess : IsName "process" := by decide
  have haccess : AllNamed [allow target entry "file" entryPermissions,
      allow subject entry "file" executePermissions, allow target entry "process" ["sigchld"],
      allow subject target "process" ["rlimitinh", "siginh", "transition"]] :=
    .cons htarget hentry (.cons hsubject hentry (.cons htarget hentry
      (.cons hsubject htarget allNamed_nil)))
  exact List.forall_mem_cons.2 ⟨⟨hsubject, hentry, hprocess, htarget⟩, haccess⟩

theorem allNamed_privateType {fileType : String} (h : IsName fileType) (fileClass : FileClass) :
    AllNamed (privateType fileType fileClass) := by
  refine .append (.flatMap fun c _ => ?_) (.cons h (by decide) allNamed_nil)
  exact .cons (by decide) h (.cons (by decide) h allNamed_nil)

end Bundle

namespace Grant

variable {domain : String} {file : LabelledFile}

theorem allNamed_base (h : IsName domain) : AllNamed (base domain) :=
  .cons h (by decide) (.cons h (by decide) allNamed_nil)

theorem allNamed_entry {entryType : String} (h : IsName domain) (hentry : IsName entryType) :
    AllNamed (entry domain entryType) :=
  Bundle.allNamed_domainTransition (by decide) hentry h

theorem allNamed_unconfined (h : IsName domain) (hasSecondClass : Bool) :
    AllNamed (unconfined domain hasSecondClass) := by
  refine .append (.cons h h (allNamed_ite ?_ allNamed_nil)) (.cons h (by decide) allNamed_nil)
  exact .cons h h allNamed_nil

theorem allNamed_fileItself (h : IsName domain) (hfile : IsName file.typeName)
    (actions : List String) : AllNamed (fileItself domain file actions) :=
  .flatMap fun c _ => allNamed_ite allNamed_nil (Bundle.allNamed_fileAccess h hfile c _)

theorem allNamed_directoryChange {directoryType : String} (h : IsName domain)
    (hdirectory : IsName directoryType) : AllNamed (directoryChange domain directoryType) :=
  Bundle.allNamed_fileAccess h hdirectory _ _

theorem allNamed_fileCreation (h : IsName domain) (hfile : IsName file.typeName)
    (hparent : IsName file.parentType) : AllNamed (fileCreation domain file) :=
  (allNamed_directoryChange h hparent).append
    (allNamed_ite allNamed_nil (Bundle.allNamed_namedTransition h hparent hfile _ _))

theorem allNamed_fileActions {fallback : String} (h : IsName domain) (hfallback : IsName fallback)
    (hfile : file.IsNamed) (hparent : IsName file.parentType) (actions : List String) :
    AllNamed (fileActions fallback domain actions file) := by
  have hdomain : IsName (file.domain.getD fallback) := by
    cases hfound : file.domain with
    | none => exact hfallback
    | some found => exact hfile.domain found hfound
  refine .append (.append (.append (.append ?_ ?_) ?_) ?_) ?_
  · exact allNamed_fileItself h hfile.typeName actions
  · exact allNamed_ite (Bundle.allNamed_domainTransition h hfile.typeName hdomain) allNamed_nil
  · exact allNamed_ite (allNamed_fileCreation h hfile.typeName hparent) allNamed_nil
  · exact allNamed_ite (allNamed_directoryChange h hparent) allNamed_nil
  · exact allNamed_ite (.cons h hfile.typeName allNamed_nil) allNamed_nil

theorem allNamed_filesystem {allocation : Allocation} {fallback : String}
    {permission : Permission} {rules : List Rule} (h : IsName domain) (hfallback : IsName fallback)
    (hfiles : ∀ file ∈ allocation.files, file.IsNamed ∧ IsName file.parentType)
    (hrules : filesystem allocation fallback domain permission = .ok rules) : AllNamed rules := by
  obtain ⟨files, rfl, -, hfound⟩ := exists_of_filesystem hrules
  refine .flatMap fun file hfile => ?_
  obtain ⟨path, -, hpath⟩ := hfound file hfile
  obtain ⟨hnamed, hparent⟩ := hfiles file (List.mem_of_find?_eq_some hpath)
  exact allNamed_fileActions h hfallback hnamed hparent _

theorem allNamed_capability {permission : Permission} {rules : List Rule} (h : IsName domain)
    (hrules : capability domain permission = .ok rules) : AllNamed rules := by
  rw [capability, bind_eq_ok_iff] at hrules
  obtain ⟨_, -, hrules⟩ := hrules
  rw [bind_eq_ok_iff] at hrules
  obtain ⟨_, -, hrules⟩ := hrules
  cases hrules
  refine .append (.append ?_ ?_) (.cons h h allNamed_nil)
  · exact allNamed_ite allNamed_nil (.cons h h allNamed_nil)
  · exact allNamed_ite allNamed_nil (.cons h h allNamed_nil)

theorem allNamed_allowAny {object : String} (h : IsName domain) (hobject : IsName object)
    (className : String) (permissions : List String) :
    AllNamed (allowAny domain object className permissions) :=
  allNamed_ite allNamed_nil (.cons h hobject allNamed_nil)

theorem isName_portType {policy : SystemPolicy} (hpolicy : policy.IsReadable) (port : Nat)
    (protocol : Protocol) : IsName (portType policy port protocol) := by
  have hdefault : IsName "port_type" := by decide
  unfold portType
  split
  · exact hdefault
  · split
    · rename_i range hrange
      exact hpolicy.ports range (List.mem_of_find?_eq_some hrange)
    · exact hdefault

theorem allNamed_onPorts {policy : SystemPolicy} (hpolicy : policy.IsReadable) (h : IsName domain)
    (actions : List String) (resource : NetResource) :
    AllNamed (onPorts policy domain actions resource) := by
  refine .flatMap fun socketClass _ => ?_
  split
  · exact allNamed_nil
  · exact allNamed_allowAny h (isName_portType hpolicy _ _) _ _

theorem allNamed_onSocket (h : IsName domain) (actions : List String) (socketClass : String) :
    AllNamed (onSocket domain actions socketClass) := by
  refine .append (.append (.append (.append (.append ?_ ?_) ?_) ?_) ?_) ?_
  · exact allNamed_ite (.append (Bundle.allNamed_fileAccess h (by decide) _ _)
      (Bundle.allNamed_fileAccess h (by decide) _ _)) allNamed_nil
  · exact .cons h h allNamed_nil
  · exact allNamed_allowAny h (by decide) _ _
  · exact allNamed_allowAny h (by decide) _ _
  · exact allNamed_ite (.cons h (by decide) allNamed_nil) allNamed_nil
  · exact allNamed_ite (.cons h (by decide) allNamed_nil) allNamed_nil

theorem allNamed_network {policy : SystemPolicy} (hpolicy : policy.IsReadable) (h : IsName domain)
    {origin : String} {permission : Permission} {rules : List Rule}
    (hrules : (network policy origin domain permission).result = .ok rules) : AllNamed rules := by
  obtain ⟨resources, -, rfl⟩ := exists_of_network hrules
  refine .append (.flatMap fun resource _ => ?_) (.flatMap fun socketClass _ => ?_)
  · exact allNamed_onPorts hpolicy h _ resource
  · exact allNamed_onSocket h _ socketClass

/-- The rules of a permission of a named application have words for names. -/
theorem allNamed_ofPermission {context : Context} {origin : String} {app : ConfinedApplication}
    {permission : Permission} {rules : List Rule} (hcontext : context.IsNamed)
    (happ : IsName app.domain)
    (hrules : (ofPermission context origin app permission).result = .ok rules) :
    AllNamed rules := by
  unfold ofPermission at hrules
  split at hrules
  · exact allNamed_filesystem happ hcontext.fallback hcontext.files hrules
  · exact allNamed_capability happ hrules
  · exact allNamed_network hcontext.policy happ hrules
  · cases hrules
    exact allNamed_nil

end Grant

end TypeEnforcement
