/-
Sockets: the object classes of network resources, and what actions on them need.

* `Socket.classesOf` — the socket classes that a network resource stands for;
* `Socket.lifecycle`, `Socket.onPort`, `Socket.onInterface`, `Socket.onNode` — what actions need on
  the socket itself, on its port, and on the interfaces and nodes that packets pass.
-/
import TypeEnforcement.Names.Distinct
import TypeEnforcement.Project.NetResource

namespace TypeEnforcement.Socket

/-! ### Classes -/

/-- The socket classes of the internet protocols. -/
def inet : List String :=
  ["tcp_socket", "udp_socket", "dccp_socket", "sctp_socket", "icmp_socket", "rawip_socket"]

/-- The protocols of the netlink family that have a socket class of their own. -/
def netlinkProtocols : List String := [
  "route", "firewall", "tcpdiag", "nflog", "selinux", "audit", "ip6fw", "dnrt", "kobject_uevent",
  "iscsi", "fib_lookup", "connector", "netfilter", "generic", "scsitransport", "rdma", "crypto"]

def netlinkClass (protocol : String) : String :=
  "netlink_" ++ protocol ++ "_socket"

/-- The socket classes of the netlink family; the last one is for all other protocols. -/
def netlink : List String :=
  netlinkProtocols.map netlinkClass ++ ["netlink_socket"]

/-- The families with one socket class, which is named after them. -/
def plainFamilies : List String := [
  "ax25", "ipx", "appletalk", "netrom", "bridge", "atmpvc", "x25", "rose", "decnet", "packet",
  "atmsvc", "irda", "pppox", "bluetooth", "rds", "llc", "can", "tipc", "iucv", "rxrpc", "isdn",
  "phonet", "ieee802154", "caif", "alg", "nfc", "vsock", "mpls", "ib", "smc"]

/-- The internet socket classes of a type and a protocol.  A protocol decides alone. -/
def inetClasses (socketType protocol : String) : List String :=
  match socketType, protocol with
  | "", "" => inet
  | "stream", "" => ["tcp_socket", "sctp_socket"]
  | "dgram", "" => ["udp_socket"]
  | "seqpacket", "" => ["sctp_socket"]
  | "raw", "" => ["rawip_socket", "icmp_socket", "sctp_socket"]
  | _, "tcp" => ["tcp_socket"]
  | _, "udp" => ["udp_socket"]
  | _, "dccp" => ["dccp_socket"]
  | _, "sctp" => ["sctp_socket", "rawip_socket"]
  | _, "icmp" => ["icmp_socket", "rawip_socket"]
  | _, _ => []

/-- The netlink socket classes of a protocol. -/
def netlinkClasses (protocol : String) : List String :=
  if protocol = "" then netlink
  else if protocol ∈ netlinkProtocols then [netlinkClass protocol]
  else []

def unixClasses : String → List String
  | "" => ["unix_stream_socket", "unix_dgram_socket"]
  | "stream" => ["unix_stream_socket"]
  | "dgram" => ["unix_dgram_socket"]
  | _ => []

/-- The socket classes of a resource without an address family: those that its type stands for, or
without a type those that its protocol stands for. -/
def classesWithoutFamily (socketType protocol : String) : List String :=
  if socketType ≠ "" then inetClasses socketType protocol ++ unixClasses socketType
  else if protocol ≠ "" then inetClasses socketType protocol ++ netlinkClasses protocol
  else []

/-- The socket classes that a network resource stands for, each once. -/
def classesOf (resource : NetResource) : List String :=
  distinct <| match resource.family with
    | "inet" | "inet6" => inetClasses resource.socketType resource.protocol
    | "netlink" => netlinkClasses resource.protocol
    | "unix" => unixClasses resource.socketType
    | "" => classesWithoutFamily resource.socketType resource.protocol
    | other => if other ∈ plainFamilies then [other ++ "_socket"] else []

/-! ### Actions -/

/-- The actions that a network permission may name. -/
def actions : List String :=
  ["receive", "send", "connect", "bind", "accept", "listen"]

/-- The socket classes on which messages of the family are read too. -/
def readsMessages (socketClass : String) : Bool :=
  socketClass ∈ ["netlink_route_socket", "netlink_firewall_socket", "netlink_tcpdiag_socket",
    "netlink_xfrm_socket", "netlink_audit_socket", "netlink_ip6fw_socket"]

/-- What every use of a socket needs. -/
def always : List String := [
  "create", "lock", "read", "write", "getattr", "setattr", "getopt", "setopt", "append",
  "shutdown", "ioctl"]

/-- What actions need on the socket itself. -/
def lifecycle (socketClass : String) (requested : List String) : List String :=
  let messages := if readsMessages socketClass then ["nlmsg_read"] else []
  distinct ((requested.flatMap fun action =>
    match action with
    | "accept" | "connect" | "bind" | "listen" => [action]
    | "receive" => "recvfrom" :: messages
    | "send" => "sendto" :: messages
    | _ => []) ++ always)

/-- What actions need on the port of a socket. -/
def onPort (socketClass : String) (requested : List String) : List String :=
  let connects := socketClass ∈ ["tcp_socket", "dccp_socket", "sctp_socket"]
  distinct (requested.flatMap fun action =>
    match action with
    | "bind" => ["name_bind", "node_bind"]
    | "connect" => if connects then ["name_connect"] else []
    | "receive" => ["recv_msg"]
    | "send" => ["send_msg"]
    | _ => [])

/-- What receiving and sending need where each packet is checked: the given permissions, and one
named after the protocol. -/
def onPackets (receiving sending : List String) (socketClass : String)
    (requested : List String) : List String :=
  match (Text.beforeEnd? "_socket" socketClass).filter (· ∈ ["tcp", "udp", "dccp", "rawip"]) with
  | none => []
  | some protocol =>
    distinct (requested.flatMap fun action =>
      match action with
      | "receive" => receiving ++ [protocol ++ "_recv"]
      | "send" => sending ++ [protocol ++ "_send"]
      | _ => [])

/-- What actions need on the interface that packets pass. -/
def onInterface : String → List String → List String :=
  onPackets ["egress", "ingress"] ["egress", "ingress"]

/-- What actions need on the node that packets come from or go to. -/
def onNode : String → List String → List String :=
  onPackets ["enforce_dest", "recvfrom"] ["enforce_dest", "sendto"]

end TypeEnforcement.Socket
