/-
Snapshots of a host's policy.

A snapshot is a configuration document with the lists `types`, `attributes` and `roles`, the list
`ports` of labelled intervals, and the table `classes` of permissions.  All of them may be missing.

* `Snapshot.parse` — the policy that a snapshot describes.
-/
import TypeEnforcement.Fault
import TypeEnforcement.Host.SystemPolicy
import TypeEnforcement.Toml.Decode
import TypeEnforcement.Toml.Document

namespace TypeEnforcement.Snapshot

open Toml

/-- A port interval of a snapshot, before its label is read. -/
structure PortEntry where
  protocol : Protocol
  low : Nat
  high : Nat
  label : String

/-- Read a port interval. -/
def PortEntry.decode? (value : Value) : Option PortEntry := do
  let fields ← value.fields? ["protocol", "low", "high", "context"]
  let protocol ← fields.required "protocol" fun value => value.choice?.bind Protocol.ofName?
  let low ← fields.required "low" (Value.natUpTo? maxPort)
  let high ← fields.required "high" (Value.natUpTo? maxPort)
  let label ← fields.required "context" Value.string?
  some { protocol, low, high, label }

/-- The labelled interval of an entry. -/
def PortEntry.range (entry : PortEntry) : Except Fault PortRange :=
  match Label.parse? entry.label with
  | some label => .ok { low := entry.low, high := entry.high, protocol := entry.protocol, label }
  | none => .error (.systemState (.portLabel entry.label))

/-- The parts of a snapshot. -/
structure Document where
  types : List String
  attributes : List String
  roles : List String
  ports : List PortEntry
  classes : NameMap (List String)

/-- Read the parts of a snapshot. -/
def Document.decode? (value : Value) : Option Document := do
  let fields ← value.fields? ["types", "attributes", "roles", "ports", "classes"]
  let names := Value.list? Value.string?
  let types ← fields.withDefault "types" names []
  let attributes ← fields.withDefault "attributes" names []
  let roles ← fields.withDefault "roles" names []
  let ports ← fields.withDefault "ports" (Value.list? PortEntry.decode?) []
  let classes ← fields.withDefault "classes" (Value.map? names) ∅
  some { types, attributes, roles, ports, classes }

def parse (text : String) : Except Fault SystemPolicy := do
  match (Toml.parse? text).bind Document.decode? with
  | none => throw (.systemState .malformedSnapshot)
  | some document =>
    let ports ← document.ports.mapM PortEntry.range
    let classes := document.classes.entries.map fun (name, permissions) =>
      (name, NameSet.ofList permissions)
    pure (.make document.types document.attributes document.roles ports (.ofList classes))

end TypeEnforcement.Snapshot
