/-
Rules for network permissions.

A network resource is reduced to socket classes.  Each class gets rules for its ports, and then
rules for the socket itself and for the interfaces and nodes that its packets pass.

* `Grant.onPorts` — the rules for the ports of one resource;
* `Grant.onSocket` — the rules for a socket class;
* `Grant.network` — the rules of a permission.
-/
import TypeEnforcement.Diagnostic
import TypeEnforcement.Grant.Parts
import TypeEnforcement.Grant.Socket
import TypeEnforcement.Host.SystemPolicy
import TypeEnforcement.Rule.Bundle

namespace TypeEnforcement.Grant

/-- The rule for some permissions, if there are any. -/
def allowAny (subject object className : String) (permissions : List String) : List Rule :=
  if permissions.isEmpty then [] else [Bundle.allow subject object className permissions]

/-- The type of a port: that of its label, or the attribute of all ports if the port is left open or
has no label. -/
def portType (policy : SystemPolicy) (port : Nat) (protocol : Protocol) : String :=
  if port = 0 then "port_type"
  else match policy.port? port protocol with
    | some range => range.label.typeName
    | none => "port_type"

/-- The rules for the ports of a resource, for those of its socket classes that have ports. -/
def onPorts (policy : SystemPolicy) (domain : String) (actions : List String)
    (resource : NetResource) : List Rule :=
  (Socket.classesOf resource).flatMap fun socketClass =>
    match Protocol.ofSocketClass? socketClass with
    | none => []
    | some protocol =>
      allowAny domain (portType policy resource.port protocol) socketClass
        (Socket.onPort socketClass actions)

def onSocket (domain : String) (actions : List String) (socketClass : String) : List Rule :=
  let isInet := socketClass ∈ Socket.inet
  (if isInet then
    Bundle.fileAccess domain "sysctl_net_t" .directory ["search"] ++
    Bundle.fileAccess domain "sysctl_net_t" .file ["getattr", "read", "open"] else []) ++
  [Bundle.allow domain domain socketClass (Socket.lifecycle socketClass actions)] ++
  allowAny domain "netif_type" "netif" (Socket.onInterface socketClass actions) ++
  allowAny domain "node_type" "node" (Socket.onNode socketClass actions) ++
  (if isInet then [Bundle.allow domain "node_type" socketClass ["node_bind"]] else []) ++
  (if socketClass = "unix_stream_socket" then
    [Bundle.allow domain domainOfPeers socketClass ["connectto"]] else [])
where
  /-- The attribute of the processes at the other end. -/
  domainOfPeers : String := "domain"

/-- Read a network resource; one without socket classes is reported. -/
def readNetResource (origin line : String) : Report NetResource := do
  let resource ← Report.ofExcept ((Scope.networkResource line).wrap (NetResource.parse line))
  if (Socket.classesOf resource).isEmpty then
    Report.note .warning origin
      ("network resource " ++ line ++ " matches no socket class; skipped")
  pure resource

/-- The rules for a network permission of a domain; reports are made under `origin`. -/
def network (policy : SystemPolicy) (origin domain : String) (permission : Permission) :
    Report (List Rule) := do
  Report.ofExcept (requireParts true permission)
  if let some action := permission.actions.find? (· ∉ Socket.actions) then
    Report.fail (.permission (.socketAction action))
  let resources ← permission.resources.mapM (readNetResource origin)
  pure (resources.flatMap (onPorts policy domain permission.actions) ++
    (resources.flatMap Socket.classesOf).flatMap (onSocket domain permission.actions))

end TypeEnforcement.Grant
