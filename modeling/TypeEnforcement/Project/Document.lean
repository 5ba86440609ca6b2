/-
Project documents.

* `Project.decode?` — the project that a value describes;
* `Project.parse` — the project of a document, if it keeps to the rules.
-/
import TypeEnforcement.Json.Decode
import TypeEnforcement.Json.Parser
import TypeEnforcement.Project.Basic

namespace TypeEnforcement

open Json (Value)

/-- Read how a resource is labelled. -/
def Resource.decodeOptions? (resource : Resource) (value : Value) : Option Resource := do
  let fields ← value.fields? ["isSysFile", "isPrivateFile", "type", "domain"]
  let isSystem ← fields.withDefault "isSysFile" Value.boolean? false
  let isPrivate ← fields.withDefault "isPrivateFile" Value.boolean? false
  let typeName ← fields.withDefault "type" Value.optionalString? none
  let domain ← fields.withDefault "domain" Value.optionalString? none
  some { resource with isSystem, isPrivate, typeName, domain }

def Resource.decode? (value : Value) : Option Resource := do
  let fields ← value.fields? ["path", "type", "selinux"]
  let path ← fields.required "path" Value.string?
  let classWord ← fields.withDefault "type" Value.string? ""
  let resource : Resource := { path, classWord }
  fields.withDefault "selinux" resource.decodeOptions? resource

def Permission.decode? (value : Value) : Option Permission := do
  let fields ← value.fields? ["type", "resources", "actions"]
  let kindWord ← fields.required "type" Value.string?
  let resources ← fields.withDefault "resources" (Value.list? Value.string?) []
  let actions ← fields.withDefault "actions" (Value.list? Value.string?) []
  some { kindWord, resources, actions }

/-- Read an application without its permissions. -/
def ApplicationEntry.decodeApplication? (value : Value) : Option ApplicationEntry := do
  let fields ← value.fields? ["path", "isPermissive", "isUnconfined"]
  let path ← fields.required "path" Value.string?
  let isPermissive ← fields.withDefault "isPermissive" Value.boolean? false
  let isUnconfined ← fields.withDefault "isUnconfined" Value.boolean? false
  some { path, isPermissive, isUnconfined }

def ApplicationEntry.decode? (value : Value) : Option ApplicationEntry := do
  let fields ← value.fields? ["application", "permissionList"]
  let entry ← fields.required "application" decodeApplication?
  let permissions ← fields.withDefault "permissionList" (Value.list? Permission.decode?) []
  some { entry with permissions }

def Spec.decode? (value : Value) : Option Spec := do
  let fields ← value.fields? ["name", "applicationList"]
  let name ← fields.required "name" Value.string?
  let applications ← fields.withDefault "applicationList"
    (Value.list? ApplicationEntry.decode?) []
  some { name, applications }

namespace Project

/-- Read whether a project is compiled into one module. -/
def decodeLayout? (value : Value) : Option Bool := do
  let fields ← value.fields? ["monolithic"]
  fields.withDefault "monolithic" Value.boolean? false

/-- Read the layout and the hand-written rules of a project. -/
def decodeOptions? (value : Value) : Option (Bool × List String) := do
  let fields ← value.fields? ["policy", "extraRules"]
  let monolithic ← fields.withDefault "policy" decodeLayout? false
  let extraRules ← fields.withDefault "extraRules" (Value.list? Value.string?) []
  some (monolithic, extraRules)

/-- The project that a value describes.  An empty version stands for the default one. -/
def decode? (value : Value) : Option Project := do
  let fields ← value.fields? ["name", "version", "resources", "specs", "selinux"]
  let name ← fields.required "name" Value.string?
  let version ← fields.withDefault "version" Value.string? ""
  let resources ← fields.withDefault "resources" (Value.list? Resource.decode?) []
  let specs ← fields.withDefault "specs" (Value.list? Spec.decode?) []
  let (monolithic, extraRules) ← fields.withDefault "selinux" decodeOptions? (false, [])
  let version := if version = "" then ModuleVersion.default else version
  some { name, version, resources, specs, monolithic, extraRules }

def parse (document : String) : Except Fault Project := do
  match (Json.parse? document).bind decode? with
  | none => throw (.config .malformedProject)
  | some project =>
    project.check
    pure project

theorem check_of_parse {document : String} {project : Project}
    (h : parse document = .ok project) : project.check = .ok () := by
  unfold parse at h
  split at h
  · cases h
  · rename_i found _
    cases hc : found.check with
    | error fault => simp [hc, bind, Except.bind] at h
    | ok u =>
      simp only [hc, bind, Except.bind, pure, Except.pure] at h
      cases h
      exact hc

end Project

end TypeEnforcement
