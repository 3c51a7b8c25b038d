import Nebula.Rust.Exec

/-! # Network addresses and prefixes

`std::net` addresses are their octets. An `IpNet` is an address with a prefix length valid for its
family, as `IpNet::new` guarantees. Whether a prefix contains an address is decided by the `ipnet`
crate; its test is a parameter `Contains` of everything above, and `prefixContains` is one instance.
-/

namespace Rust

abbrev Ipv4Addr := Arr UInt8 4
abbrev Ipv6Addr := Arr UInt8 16

/-- `Ipv4Addr::new`. -/
def Ipv4Addr.new (a b c d : UInt8) : Ipv4Addr := ⟨[a, b, c, d], rfl⟩

/-- `std::net::IpAddr`. -/
inductive IpAddr where
  | v4 (addr : Ipv4Addr)
  | v6 (addr : Ipv6Addr)
deriving DecidableEq, Repr, Ord

/-- `IpAddr::is_multicast`: 224.0.0.0/4 and ff00::/8. -/
def IpAddr.isMulticast : IpAddr → Bool
  | .v4 addr => addr.items.head?.any fun first => first &&& 0xf0 = 0xe0
  | .v6 addr => addr.items.head? = some 0xff

/-- `std::net::SocketAddr`; an IPv6 endpoint has zero flow info and scope throughout. -/
structure SocketAddr where
  ip : IpAddr
  port : UInt16
deriving DecidableEq, Repr

/-- The longest prefix of the address's family. -/
def IpAddr.maxPrefixLen : IpAddr → UInt8
  | .v4 _ => 32
  | .v6 _ => 128

def IpAddr.octets : IpAddr → Bytes
  | .v4 addr => addr.items
  | .v6 addr => addr.items

/-- `ipnet::IpNet`. -/
structure IpNet where
  addr : IpAddr
  prefixLen : UInt8
  valid : prefixLen ≤ addr.maxPrefixLen
deriving DecidableEq, Repr

/-- `IpNet::new`, which refuses a prefix too long for the family. -/
def IpNet.new (addr : IpAddr) (prefixLen : UInt8) : Option IpNet :=
  if valid : prefixLen ≤ addr.maxPrefixLen then some ⟨addr, prefixLen, valid⟩ else none

/-- The host route of an address, `IpNet::new(addr, max_prefix_len)`. -/
def IpNet.host (addr : IpAddr) : IpNet := ⟨addr, addr.maxPrefixLen, UInt8.le_refl _⟩

/-- `ipnet::IpNet::contains`. -/
abbrev Contains := IpNet → IpAddr → Bool

private def octetBits (octets : Bytes) : List Bool :=
  octets.flatMap fun octet => (List.range 8).map fun place => octet.toNat.testBit (7 - place)

/-- Membership by comparing the first `prefixLen` bits within one family. -/
def prefixContains : Contains := fun net addr =>
  net.addr.maxPrefixLen == addr.maxPrefixLen &&
    (octetBits net.addr.octets).take net.prefixLen.toNat == (octetBits addr.octets).take net.prefixLen.toNat

/-- A prefix contains what a longer one inside it contains. -/
theorem prefixContains_trans {outer inner : IpNet} {addr : IpAddr} (shorter : outer.prefixLen ≤ inner.prefixLen)
    (within : prefixContains outer inner.addr = true) (inside : prefixContains inner addr = true) :
    prefixContains outer addr = true := by
  simp only [prefixContains, Bool.and_eq_true, beq_iff_eq] at within inside ⊢
  refine ⟨within.1.trans inside.1, ?_⟩
  have bits := congrArg (List.take outer.prefixLen.toNat) inside.2
  rw [List.take_take, List.take_take, Nat.min_eq_left (UInt8.le_iff_toNat_le.mp shorter)] at bits
  exact within.2.trans bits

private theorem length_octetBits (octets : Bytes) : (octetBits octets).length = 8 * octets.length := by
  induction octets with
  | nil => rfl
  | cons head rest ih =>
    rw [octetBits, List.flatMap_cons, List.length_append, List.length_map, List.length_range, List.length_cons]
    change 8 + (octetBits rest).length = _
    rw [ih]
    omega

private theorem octet_eq_of_bits {a b : UInt8}
    (same : ((List.range 8).map fun place => a.toNat.testBit (7 - place)) =
      (List.range 8).map fun place => b.toNat.testBit (7 - place)) : a = b := by
  apply UInt8.toNat_inj.mp
  apply Nat.eq_of_testBit_eq
  intro place
  by_cases small : place < 8
  · have bit := List.map_inj_left.mp same (7 - place) (List.mem_range.mpr (by omega))
    rwa [Nat.sub_sub_self (by omega)] at bit
  · have large : 2 ^ 8 ≤ 2 ^ place := Nat.pow_le_pow_right (by omega) (by omega)
    rw [Nat.testBit_lt_two_pow (lt_of_lt_of_le a.toNat_lt large),
      Nat.testBit_lt_two_pow (lt_of_lt_of_le b.toNat_lt large)]

private theorem octetBits_inj {a b : Bytes} (same : octetBits a = octetBits b) : a = b := by
  induction a generalizing b with
  | nil =>
    have lengths := congrArg List.length same
    rw [length_octetBits, length_octetBits] at lengths
    exact (List.length_eq_zero_iff.mp (by simpa using lengths.symm)).symm
  | cons head rest ih =>
    cases b with
    | nil =>
      have lengths := congrArg List.length same
      simp [length_octetBits] at lengths
    | cons head' rest' =>
      obtain ⟨first, others⟩ := List.append_inj same (by simp)
      rw [octet_eq_of_bits first, ih others]

private theorem length_octets (addr : IpAddr) : 8 * addr.octets.length = addr.maxPrefixLen.toNat := by
  cases addr with
  | v4 addr => simp [IpAddr.octets, IpAddr.maxPrefixLen, addr.size]
  | v6 addr => simp [IpAddr.octets, IpAddr.maxPrefixLen, addr.size]

/-- A host route contains its own address and no other. -/
theorem prefixContains_host (addr other : IpAddr) :
    prefixContains (.host addr) other = true ↔ addr = other := by
  constructor
  · intro contained
    obtain ⟨family, bits⟩ := Bool.and_eq_true_iff.mp contained
    have family := eq_of_beq family
    have bits := eq_of_beq bits
    dsimp only [IpNet.host] at family bits
    rw [List.take_of_length_le (by rw [length_octetBits, length_octets]),
      List.take_of_length_le (by rw [length_octetBits, length_octets, family])] at bits
    have octets := octetBits_inj bits
    cases addr with
    | v4 a =>
      cases other with
      | v4 b => rw [Arr.ext octets]
      | v6 b => cases family
    | v6 a =>
      cases other with
      | v4 b => cases family
      | v6 b => rw [Arr.ext octets]
  · rintro rfl
    simp [prefixContains, IpNet.host]

end Rust
