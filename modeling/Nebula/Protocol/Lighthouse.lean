import Nebula.Protocol.Error

/-! # Lighthouse messages

The client side of the lighthouse protocol: what a host says about itself, what it asks, and the
addresses it reads from an answer. The `prost` codec of these messages is a parameter.
-/

namespace Nebula

open Rust

namespace MetaType

/-- `NebulaMeta.MessageType`, the ones a session sends or dispatches on. -/
abbrev hostQuery : Int32 := 1
abbrev hostQueryReply : Int32 := 2
abbrev hostUpdateNotification : Int32 := 3

end MetaType

structure Addr where
  hi : UInt64
  lo : UInt64
deriving DecidableEq, Repr

structure V4AddrPort where
  addr : UInt32
  port : UInt32
deriving DecidableEq, Repr

structure V6AddrPort where
  hi : UInt64
  lo : UInt64
  port : UInt32
deriving DecidableEq, Repr

/-- The fields a session sets or reads; the others keep their default. -/
structure NebulaMetaDetails where
  vpnAddr : Option Addr
  v4AddrPorts : List V4AddrPort
  v6AddrPorts : List V6AddrPort
deriving DecidableEq, Repr

structure NebulaMeta where
  type : Int32
  details : Option NebulaMetaDetails
deriving DecidableEq, Repr

/-- The `prost` codec of lighthouse messages. -/
structure MetaCodec where
  encode : NebulaMeta → Bytes
  decode : Bytes → Option NebulaMeta

namespace Lighthouse

/-- The sixteen octets of two big-endian halves. -/
def octetsOf (hi lo : UInt64) : Ipv6Addr := ⟨beBytes 8 hi.toNat ++ beBytes 8 lo.toNat, by simp⟩

/-- `::ffff:0:0/96`. -/
def mappedPrefix : Bytes := [0, 0, 0, 0, 0, 0, 0, 0, 0, 0, 0xff, 0xff]

/-- `Ipv6Addr::to_ipv4_mapped`. -/
def toIpv4Mapped (addr : Ipv6Addr) : Option Ipv4Addr :=
  if addr.items.take 12 = mappedPrefix then
    some ⟨addr.items.drop 12, by rw [List.length_drop, addr.size]⟩
  else none

/-- `Ipv4Addr::to_ipv6_mapped`. -/
def toIpv6Mapped (addr : Ipv4Addr) : Ipv6Addr :=
  ⟨mappedPrefix ++ addr.items, by rw [List.length_append, addr.size]; rfl⟩

def addrToIp (addr : Addr) : IpAddr :=
  let v6 := octetsOf addr.hi addr.lo
  match toIpv4Mapped v6 with
  | some v4 => .v4 v4
  | none => .v6 v6

def halves (addr : Ipv6Addr) : UInt64 × UInt64 :=
  (UInt64.ofNat (beNat (addr.items.take 8)), UInt64.ofNat (beNat (addr.items.drop 8)))

def ipToAddr (ip : IpAddr) : Addr :=
  let v6 := match ip with
    | .v4 v4 => toIpv6Mapped v4
    | .v6 v6 => v6
  ⟨(halves v6).1, (halves v6).2⟩

/-- `addr_to_v4_v6`: the endpoint at the end of the list of its family. -/
def addrToV4V6 (lists : List V4AddrPort × List V6AddrPort) (addr : SocketAddr) :
    List V4AddrPort × List V6AddrPort :=
  match addr.ip with
  | .v4 ip => (lists.1 ++ [⟨UInt32.ofNat (beNat ip.items), addr.port.toUInt32⟩], lists.2)
  | .v6 ip => (lists.1, lists.2 ++ [⟨(halves ip).1, (halves ip).2, addr.port.toUInt32⟩])

def hostUpdateNotification (vpnAddr : IpAddr) (reachableAt : List SocketAddr) : NebulaMeta :=
  let (v4, v6) := reachableAt.foldl addrToV4V6 ([], [])
  { type := MetaType.hostUpdateNotification
    details := some { vpnAddr := some (ipToAddr vpnAddr), v4AddrPorts := v4, v6AddrPorts := v6 } }

def hostQuery (vpnAddr : IpAddr) : NebulaMeta where
  type := MetaType.hostQuery
  details := some { vpnAddr := some (ipToAddr vpnAddr), v4AddrPorts := [], v6AddrPorts := [] }

def candidateAddrs (message : NebulaMeta) : List SocketAddr :=
  match message.details with
  | none => []
  | some details =>
    details.v4AddrPorts.map
        (fun v4 => ⟨.v4 ⟨beBytes 4 v4.addr.toNat, length_beBytes _ _⟩, v4.port.toUInt16⟩) ++
      details.v6AddrPorts.map (fun v6 => ⟨.v6 (octetsOf v6.hi v6.lo), v6.port.toUInt16⟩)

end Lighthouse

end Nebula
