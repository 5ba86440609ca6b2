/-
Network resources.

A network resource names an address family, a socket type, a protocol and a port, each in a field of
its own: `domain:inet, type:stream, protocol:tcp, port:80`.  Blanks do not count, letters may be of
either case, and fields may be left out or empty.

* `NetResource.parse` — reading a network resource.
-/
import TypeEnforcement.Fault
import TypeEnforcement.Label.Port
import TypeEnforcement.Text.LowerCase
import TypeEnforcement.Text.Numeral

namespace TypeEnforcement

/-- What a network permission is about; an empty text and the port zero stand for any. -/
structure NetResource where
  /-- The address family. -/
  family : String := ""
  socketType : String := ""
  protocol : String := ""
  port : Nat := 0
deriving DecidableEq

namespace NetResource

/-- The most fields that a network resource may have. -/
def maxFields : Nat := 4

/-- The lower case of a text, without the blanks around it. -/
def normalize (text : String) : String :=
  String.ofList (Text.lowercase (Text.trim text).toList)

/-- The key and the value of a field, which has one colon. -/
def splitField? (field : String) : Option (String × String) :=
  match Text.split ':' field with
  | [key, value] => some (key, value)
  | _ => none

/-- Put the value of a field into a network resource. -/
def setField (line : String) (resource : NetResource) (field : String) :
    Except Fault NetResource :=
  match splitField? field with
  | none => .error (.permission (.malformedField line))
  | some (key, value) =>
    let value := normalize value
    match normalize key with
    | "domain" => .ok { resource with family := value }
    | "type" => .ok { resource with socketType := value }
    | "protocol" => .ok { resource with protocol := value }
    | "port" =>
      if value = "" then .ok resource
      else match Text.readBounded maxPort value with
        | some (port + 1) => .ok { resource with port := port + 1 }
        | _ => .error (.permission (.port value))
    | other => .error (.permission (.unknownField other line))

/-- Read a network resource. -/
def parse (line : String) : Except Fault NetResource := do
  let compact := String.ofList (line.toList.filter fun c => c != ' ' && c != '\t')
  let fields := Text.split ',' compact
  if maxFields < fields.length then throw (.permission (.tooManyFields line))
  let resource ← (fields.filter (· ≠ "")).foldlM (setField line) {}
  if resource.family = "" ∧ resource.socketType = "" ∧ resource.protocol = "" then
    throw (.permission (.nothingNamed line))
  pure resource

end NetResource

end TypeEnforcement
