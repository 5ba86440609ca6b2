/-
Labels of network ports.

* `Protocol` — the transport protocols whose ports are labelled;
* `PortRange` — a closed interval of ports of one protocol, bound to a label.
-/
import TypeEnforcement.Label.Basic

namespace TypeEnforcement

/-- A transport protocol. -/
inductive Protocol where
  | tcp
  | udp
  | sctp
  | dccp
deriving DecidableEq

namespace Protocol

def name : Protocol → String
  | tcp => "tcp"
  | udp => "udp"
  | sctp => "sctp"
  | dccp => "dccp"

def ofName? : String → Option Protocol
  | "tcp" => some tcp
  | "udp" => some udp
  | "sctp" => some sctp
  | "dccp" => some dccp
  | _ => none

/-- The protocol whose ports the sockets of a class bind. -/
def ofSocketClass? : String → Option Protocol
  | "tcp_socket" => some tcp
  | "udp_socket" => some udp
  | "sctp_socket" => some sctp
  | "dccp_socket" => some dccp
  | _ => none

end Protocol

/-- The greatest port number. -/
def maxPort : Nat := 65535

/-- A closed interval of ports bound to a label. -/
structure PortRange where
  low : Nat
  high : Nat
  protocol : Protocol
  label : Label
deriving DecidableEq

/-- Whether a port of a protocol lies in the interval. -/
def PortRange.contains (range : PortRange) (port : Nat) (protocol : Protocol) : Bool :=
  range.protocol = protocol && range.low ≤ port && port ≤ range.high

end TypeEnforcement
