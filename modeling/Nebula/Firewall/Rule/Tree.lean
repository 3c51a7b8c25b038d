import Nebula.Firewall.Packet
import Nebula.Rust.HashMap
import Mathlib.Data.Int.Notation

/-! # The compiled rule tree

Four levels of tables: protocol, port key, certificate authority, peer. The port key is an `i32` in
which `portAny` and `portFragment` stand beside the real ports. `default` values match nothing.
-/

namespace Nebula

open Rust

/-- `PORT_ANY`. -/
abbrev portAny : ℤ := 0

/-- `PORT_FRAGMENT`. -/
abbrev portFragment : ℤ := -1

structure LocalCidr where
  any : Bool := false
  nets : List IpNet := []

structure PeerRule where
  any : Option LocalCidr := none
  hosts : HashMap String LocalCidr := .empty
  groups : List (List String × LocalCidr) := []
  cidrs : List (IpNet × LocalCidr) := []

structure CaRule where
  any : Option PeerRule := none
  caNames : HashMap String PeerRule := .empty
  caShas : HashMap String PeerRule := .empty

abbrev PortTable := HashMap ℤ CaRule

structure Direction where
  tcp : PortTable := .empty
  udp : PortTable := .empty
  icmp : PortTable := .empty
  anyProto : PortTable := .empty

structure RuleSet where
  inbound : Direction := {}
  outbound : Direction := {}

section Matches

variable (contains : Contains)

def LocalCidr.matches (lc : LocalCidr) (packet : Packet) : Bool :=
  lc.any || lc.nets.any (contains · packet.localAddr)

def PeerRule.matches (pr : PeerRule) (packet : Packet) (remote : PeerIdentity) : Bool :=
  pr.any.any (·.matches contains packet) ||
    pr.groups.any (fun (groups, lc) =>
      groups.all (remote.groups.contains ·) && lc.matches contains packet) ||
    (pr.hosts.get remote.name).any (·.matches contains packet) ||
    pr.cidrs.any (fun (net, lc) => contains net packet.remoteAddr && lc.matches contains packet)

def CaRule.matches (ca : CaRule) (packet : Packet) (remote : PeerIdentity) : Bool :=
  ca.any.any (·.matches contains packet remote) ||
    (ca.caShas.get remote.caSha).any (·.matches contains packet remote) ||
    (ca.caNames.get remote.caName).any (·.matches contains packet remote)

/-- The key under which a packet is looked up in a port table. -/
def portKey (packet : Packet) (incoming : Bool) : ℤ :=
  if packet.fragment then portFragment
  else if incoming then packet.localPort.toNat
  else packet.remotePort.toNat

def portTableMatches (table : PortTable) (packet : Packet) (incoming : Bool) (remote : PeerIdentity) : Bool :=
  (table.get (portKey packet incoming)).any (·.matches contains packet remote) ||
    (table.get portAny).any (·.matches contains packet remote)

def Direction.matches (dir : Direction) (packet : Packet) (incoming : Bool) (remote : PeerIdentity) : Bool :=
  portTableMatches contains dir.anyProto packet incoming remote ||
    match packet.protocol with
    | .tcp => portTableMatches contains dir.tcp packet incoming remote
    | .udp => portTableMatches contains dir.udp packet incoming remote
    | .icmp | .icmpV6 => portTableMatches contains dir.icmp packet incoming remote
    | .any | .other _ => false

def RuleSet.matches (rules : RuleSet) (packet : Packet) (incoming : Bool) (remote : PeerIdentity) : Bool :=
  let dir := if incoming then rules.inbound else rules.outbound
  dir.matches contains packet incoming remote

end Matches

end Nebula
