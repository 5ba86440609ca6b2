/-
The facts about a host's policy that a build consults.

* `SystemPolicy` — types, attributes, roles, labelled ports, and classes with their permissions;
* `SystemPolicy.make` — a policy from its parts; a name listed both as a type and as an attribute is
  an attribute.
-/
import TypeEnforcement.Label.Port
import TypeEnforcement.Names.Map

namespace TypeEnforcement

/-- Object classes with their permissions. -/
abbrev ClassTable := NameMap NameSet

/-- The facts about a host's policy. -/
structure SystemPolicy where
  types : NameSet := ∅
  attributes : NameSet := ∅
  /-- The roles, in the order of the source. -/
  roles : List String := []
  ports : List PortRange := []
  classes : ClassTable := ∅

namespace SystemPolicy

/-- The policy of given parts. -/
def make (types attributes roles : List String) (ports : List PortRange) (classes : ClassTable) :
    SystemPolicy :=
  let attributes := NameSet.ofList attributes
  { types := NameSet.ofList (types.filter (· ∉ attributes)), attributes, roles, ports, classes }

/-- Whether a name is a type of the policy. -/
def definesType (policy : SystemPolicy) (name : String) : Bool :=
  name ∈ policy.types

def definesAttribute (policy : SystemPolicy) (name : String) : Bool :=
  name ∈ policy.attributes

/-- The first labelled interval that holds a port. -/
def port? (policy : SystemPolicy) (port : Nat) (protocol : Protocol) : Option PortRange :=
  policy.ports.find? (·.contains port protocol)

/-- The permissions of a class, if the policy has the class. -/
def permissions? (policy : SystemPolicy) (className : String) : Option NameSet :=
  policy.classes.find? className

def hasClass (policy : SystemPolicy) (className : String) : Bool :=
  policy.classes.contains className

end SystemPolicy

end TypeEnforcement
