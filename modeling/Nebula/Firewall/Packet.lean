import Nebula.Rust.Net

/-! # Packets and peers as the firewall sees them

`Packet` is the addressing 5-tuple with the fragment flag; it is also the key of the conntrack table,
so it is ordered and compared field by field as the derived instances of the source are.
-/

namespace Nebula

open Rust

inductive Protocol where
  | any
  | tcp
  | udp
  | icmp
  | icmpV6
  | other (number : UInt8)
deriving DecidableEq, Repr, Ord

namespace Protocol

/-- `Protocol::from`. -/
def ofNumber (number : UInt8) : Protocol :=
  match number with
  | 0 => .any
  | 6 => .tcp
  | 17 => .udp
  | 1 => .icmp
  | 58 => .icmpV6
  | number => .other number

/-- The two protocols that share the ICMP table. -/
def isIcmp : Protocol → Bool
  | .icmp | .icmpV6 => true
  | _ => false

end Protocol

structure Packet where
  localAddr : IpAddr
  remoteAddr : IpAddr
  localPort : UInt16
  remotePort : UInt16
  protocol : Protocol
  fragment : Bool
deriving DecidableEq, Repr, Ord

/-- What a verified certificate tells the firewall about a peer. -/
structure PeerIdentity where
  name : String
  groups : List String
  caName : String
  caSha : String
  vpnNetworks : List IpNet
  unsafeNetworks : List IpNet
deriving DecidableEq, Repr

/-- `addr` is one of the peer's VPN addresses or lies in one of its unsafe networks. -/
def PeerIdentity.owns (contains : Contains) (peer : PeerIdentity) (addr : IpAddr) : Bool :=
  peer.vpnNetworks.any (contains · addr) || peer.unsafeNetworks.any (contains · addr)

end Nebula
