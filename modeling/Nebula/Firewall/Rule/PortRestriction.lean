import Nebula.Firewall.Rule.Meaning

/-! # The port 0 of a rule opens every port

`PORT_ANY` is 0, which a `Single` or a `Range` may contain as well. Such a rule is found by the second
lookup of `port_table_matches` for whatever port the packet has, and for later fragments. The ports of
a direction's rules are therefore as wide as they are written exactly if whomever a rule with port 0
admits, other rules admit with every port and with later fragments.
-/

namespace Nebula

open Rust

/-- The port that rules of a direction are about. -/
def Packet.directedPort (packet : Packet) (incoming : Bool) : UInt16 :=
  if incoming then packet.localPort else packet.remotePort

namespace PortSpec

/-- The port is one of those written in the rule. -/
def Includes : PortSpec → UInt16 → Prop
  | .single port, asked => asked = port
  | .range start stop, asked => start ≤ asked ∧ asked ≤ stop
  | _, _ => False

/-- The packet is one of those that the port of the rule, as it is written, is about. -/
def Names (spec : PortSpec) (packet : Packet) (incoming : Bool) : Prop :=
  match spec with
  | .any => True
  | .fragment => packet.fragment = true
  | spec => packet.fragment = false ∧ spec.Includes (packet.directedPort incoming)

end PortSpec

section Restriction

variable (contains : Contains) (assigned : List IpNet) (hasUnsafe defaultAny : Bool) (rules : List Rule)
  (incoming : Bool)

/-- The rule is of the direction and admits the packet by its protocol and its endpoints, whatever its port. -/
def Rule.Concerns (rule : Rule) (packet : Packet) (remote : PeerIdentity) : Prop :=
  rule.incoming = incoming ∧ rule.ProtoAdmits packet ∧ rule.EndpointsAdmit contains
    (RuleSetBuilder.new assigned hasUnsafe defaultAny).defaultLocalCidr packet remote

/-- The built rules match only whole packets, on ports that rules of the direction include. -/
def StaysInside : Prop :=
  ∀ packet remote, ((RuleSetBuilder.new assigned hasUnsafe defaultAny).addRules rules).build.matches contains
      packet incoming remote = true →
    packet.fragment = false ∧
      ∃ rule ∈ rules, rule.incoming = incoming ∧ rule.port.Includes (packet.directedPort incoming)

/-- Whatever the built rules match is named by the port of a rule that admits it otherwise. -/
def NeverWider : Prop :=
  ∀ packet remote, ((RuleSetBuilder.new assigned hasUnsafe defaultAny).addRules rules).build.matches contains
      packet incoming remote = true →
    ∃ rule ∈ rules, rule.Concerns contains assigned hasUnsafe defaultAny incoming packet remote ∧
      rule.port.Names packet incoming

/-- A rule with port 0 among its ports admits the packet otherwise. -/
def ZeroAdmits (packet : Packet) (remote : PeerIdentity) : Prop :=
  ∃ rule ∈ rules, rule.Accepted ∧ rule.port.Includes 0 ∧
    rule.Concerns contains assigned hasUnsafe defaultAny incoming packet remote

/-- The rules that admit the packet, their ports apart, name it with every port and as a later fragment. -/
def NamesAll (packet : Packet) (remote : PeerIdentity) : Prop :=
  let concerned := fun rule : Rule => rule.Concerns contains assigned hasUnsafe defaultAny incoming packet remote
  (∃ rule ∈ rules, concerned rule ∧ rule.port = .any) ∨
    (∃ rule ∈ rules, concerned rule ∧ rule.port = .fragment) ∧
      ∀ port, ∃ rule ∈ rules, concerned rule ∧ rule.port.Includes port

end Restriction

/-! ## One rule -/

theorem portKey_of_whole {packet : Packet} (whole : packet.fragment = false) (incoming : Bool) :
    portKey packet incoming = (packet.directedPort incoming).toNat := by
  rw [portKey, whole, if_neg Bool.false_ne_true, Packet.directedPort]
  split <;> rfl

theorem portKey_of_fragment {packet : Packet} (later : packet.fragment = true) (incoming : Bool) :
    portKey packet incoming = -1 := by
  rw [portKey, later, if_pos rfl]

theorem portCovers_single {rule : Rule} {port : UInt16} (is_single : rule.port = .single port) (key : ℤ) :
    rule.PortCovers key ↔ key = port.toNat := by
  simp only [Rule.PortCovers, is_single, portBounds, Except.ok.injEq, Prod.mk.injEq]
  constructor
  · rintro ⟨start, stop, ⟨rfl, rfl⟩, low, high⟩
    omega
  · rintro rfl
    exact ⟨_, _, ⟨rfl, rfl⟩, Int.le_refl _, Int.le_refl _⟩

theorem portCovers_range {rule : Rule} {start stop : UInt16} (is_range : rule.port = .range start stop)
    (key : ℤ) : rule.PortCovers key ↔ start.toNat ≤ key ∧ key ≤ stop.toNat := by
  simp only [Rule.PortCovers, is_range, portBounds]
  split
  · next inverted =>
    constructor
    · rintro ⟨_, _, ⟨⟩, _⟩
    · rintro ⟨low, high⟩
      have := UInt16.lt_iff_toNat_lt.mp inverted
      omega
  · simp only [Except.ok.injEq, Prod.mk.injEq]
    constructor
    · rintro ⟨_, _, ⟨rfl, rfl⟩, inside⟩
      exact inside
    · intro inside
      exact ⟨_, _, ⟨rfl, rfl⟩, inside⟩

/-- The keys of a rule with real ports are these ports. -/
theorem portCovers_iff_includes {rule : Rule} (real : rule.port ≠ .any ∧ rule.port ≠ .fragment) (key : ℤ) :
    rule.PortCovers key ↔ ∃ port : UInt16, key = port.toNat ∧ rule.port.Includes port := by
  rcases spec : rule.port with _ | _ | port | ⟨start, stop⟩
  · exact absurd spec real.1
  · exact absurd spec real.2
  · rw [portCovers_single spec]
    constructor
    · rintro rfl
      exact ⟨port, rfl, rfl⟩
    · rintro ⟨asked, rfl, rfl⟩
      rfl
  · rw [portCovers_range spec]
    constructor
    · rintro ⟨low, high⟩
      have bound := stop.toNat_lt
      have small : key.toNat < UInt16.size := by
        change key.toNat < 65536
        omega
      have value : (UInt16.ofNat key.toNat).toNat = key.toNat := UInt16.toNat_ofNat_of_lt' small
      refine ⟨UInt16.ofNat key.toNat, by omega, ?_, ?_⟩
      · rw [UInt16.le_iff_toNat_le]
        omega
      · rw [UInt16.le_iff_toNat_le]
        omega
    · rintro ⟨asked, rfl, low, high⟩
      rw [UInt16.le_iff_toNat_le] at low high
      omega

theorem names_iff {spec : PortSpec} (real : spec ≠ .any ∧ spec ≠ .fragment) (packet : Packet) (incoming : Bool) :
    spec.Names packet incoming ↔ packet.fragment = false ∧ spec.Includes (packet.directedPort incoming) := by
  cases spec with
  | any => exact absurd rfl real.1
  | fragment => exact absurd rfl real.2
  | single port => exact Iff.rfl
  | range start stop => exact Iff.rfl

theorem includes_zero_iff {rule : Rule} (real : rule.port ≠ .any ∧ rule.port ≠ .fragment) :
    rule.PortCovers 0 ↔ rule.port.Includes 0 := by
  rw [portCovers_iff_includes real]
  constructor
  · rintro ⟨port, zero, inside⟩
    obtain rfl : port = 0 := by
      apply UInt16.toNat_inj.mp
      change port.toNat = 0
      omega
    exact inside
  · intro inside
    exact ⟨0, rfl, inside⟩

/-- A rule that is not about ICMP admits the packets its port names, and every packet if its port is 0 or
includes it. -/
theorem portAdmits_iff_names {rule : Rule} (portful : rule.proto.isIcmp = false) (packet : Packet)
    (incoming : Bool) :
    rule.PortAdmits packet incoming ↔ rule.port.Names packet incoming ∨ rule.port.Includes 0 := by
  rw [Rule.PortAdmits, portful, or_iff_right Bool.false_ne_true]
  by_cases any : rule.port = .any
  · have zero : rule.PortCovers 0 := ⟨0, 0, any ▸ rfl, Int.le_refl 0, Int.le_refl 0⟩
    simp [any, PortSpec.Names, zero]
  by_cases fragment : rule.port = .fragment
  · have covers (key : ℤ) : rule.PortCovers key ↔ key = -1 := by
      simp only [Rule.PortCovers, fragment, portBounds, Except.ok.injEq, Prod.mk.injEq]
      constructor
      · rintro ⟨_, _, ⟨rfl, rfl⟩, low, high⟩
        exact Int.le_antisymm high low
      · rintro rfl
        exact ⟨-1, -1, ⟨rfl, rfl⟩, Int.le_refl _, Int.le_refl _⟩
    rw [covers, covers, fragment]
    rcases whole : packet.fragment with _ | _
    · rw [portKey_of_whole whole]
      simp [PortSpec.Names, PortSpec.Includes, whole]
    · simp [portKey_of_fragment whole, PortSpec.Names, whole]
  have real : rule.port ≠ .any ∧ rule.port ≠ .fragment := ⟨any, fragment⟩
  rw [includes_zero_iff real]
  rw [names_iff real, portCovers_iff_includes real]
  rcases whole : packet.fragment with _ | _
  · rw [portKey_of_whole whole]
    simp only [Int.natCast_inj, UInt16.toNat_inj, exists_eq_left', true_and]
  · have negative : ¬ ∃ port : UInt16, portKey packet incoming = port.toNat ∧ rule.port.Includes port := by
      rintro ⟨port, key, -⟩
      rw [portKey_of_fragment whole] at key
      omega
    simp only [negative, Bool.true_eq_false, false_and]

/-! ## All rules of a direction -/

section Direction

variable {contains : Contains} {assigned : List IpNet} {hasUnsafe defaultAny : Bool} {rules : List Rule}
  {incoming : Bool}

/-- The direction's rules are for any protocol, TCP or UDP. -/
def Portful (rules : List Rule) (incoming : Bool) : Prop :=
  ∀ rule ∈ rules, rule.incoming = incoming → rule.proto = .any ∨ rule.proto = .tcp ∨ rule.proto = .udp

theorem Portful.isIcmp (portful : Portful rules incoming) {rule : Rule} (member : rule ∈ rules)
    (side : rule.incoming = incoming) : rule.proto.isIcmp = false := by
  rcases portful rule member side with proto | proto | proto <;> rw [proto] <;> rfl

/-- The built rules match what an accepted rule concerns, if its port names the packet or includes 0. -/
theorem built_matches_portful (portful : Portful rules incoming) (packet : Packet) (remote : PeerIdentity) :
    ((RuleSetBuilder.new assigned hasUnsafe defaultAny).addRules rules).build.matches contains packet incoming
        remote = true ↔
      ∃ rule ∈ rules, rule.Accepted ∧
        rule.Concerns contains assigned hasUnsafe defaultAny incoming packet remote ∧
        (rule.port.Names packet incoming ∨ rule.port.Includes 0) := by
  rw [RuleSetBuilder.addRules_matches, RuleSetBuilder.new_matches, or_iff_right Bool.false_ne_true]
  constructor
  · rintro ⟨rule, member, accepted, side, proto, port, endpoints⟩
    exact ⟨rule, member, accepted, ⟨side, proto, endpoints⟩,
      (portAdmits_iff_names (portful.isIcmp member side) packet incoming).mp port⟩
  · rintro ⟨rule, member, accepted, ⟨side, proto, endpoints⟩, port⟩
    exact ⟨rule, member, accepted, side, proto,
      (portAdmits_iff_names (portful.isIcmp member side) packet incoming).mpr port, endpoints⟩

/-- The packet with another port and fragment flag, which the same rules concern. -/
def Packet.redirected (packet : Packet) (port : UInt16) (fragment : Bool) : Packet :=
  { packet with localPort := port, remotePort := port, fragment }

theorem directedPort_redirected (packet : Packet) (port : UInt16) (fragment incoming : Bool) :
    (packet.redirected port fragment).directedPort incoming = port := by
  cases incoming <;> rfl

/-- Where a rule with port 0 admits a packet, its addresses get in with every port, and as a later fragment. -/
theorem matches_of_zeroAdmits (portful : Portful rules incoming) {packet : Packet} {remote : PeerIdentity}
    (zero : ZeroAdmits contains assigned hasUnsafe defaultAny rules incoming packet remote) (port : UInt16)
    (fragment : Bool) :
    ((RuleSetBuilder.new assigned hasUnsafe defaultAny).addRules rules).build.matches contains
      (packet.redirected port fragment) incoming remote = true := by
  obtain ⟨rule, member, accepted, included, concerned⟩ := zero
  exact (built_matches_portful portful _ remote).mpr ⟨rule, member, accepted, concerned, .inr included⟩

/-- Rules that name everything name the packet. -/
theorem named_of_namesAll {packet : Packet} {remote : PeerIdentity}
    (all : NamesAll contains assigned hasUnsafe defaultAny rules incoming packet remote) :
    ∃ rule ∈ rules, rule.Concerns contains assigned hasUnsafe defaultAny incoming packet remote ∧
      rule.port.Names packet incoming := by
  rcases all with ⟨rule, member, concerned, any⟩ | ⟨⟨rule, member, concerned, fragment⟩, every⟩
  · exact ⟨rule, member, concerned, any ▸ trivial⟩
  · rcases whole : packet.fragment with _ | _
    · obtain ⟨rule, member, concerned, inside⟩ := every (packet.directedPort incoming)
      refine ⟨rule, member, concerned, ?_⟩
      cases spec : rule.port with
      | any => exact trivial
      | fragment => rw [spec] at inside; exact inside.elim
      | single port => exact ⟨whole, spec ▸ inside⟩
      | range start stop => exact ⟨whole, spec ▸ inside⟩
    · exact ⟨rule, member, concerned, fragment ▸ whole⟩

/-- What a rule with port 0 lets in has to be named by others. -/
theorem NeverWider.namesAll (portful : Portful rules incoming)
    (narrow : NeverWider contains assigned hasUnsafe defaultAny rules incoming) {packet : Packet}
    {remote : PeerIdentity}
    (zero : ZeroAdmits contains assigned hasUnsafe defaultAny rules incoming packet remote) :
    NamesAll contains assigned hasUnsafe defaultAny rules incoming packet remote := by
  have named (port : UInt16) (fragment : Bool) : ∃ rule ∈ rules,
      rule.Concerns contains assigned hasUnsafe defaultAny incoming packet remote ∧
        rule.port.Names (packet.redirected port fragment) incoming :=
    narrow _ remote (matches_of_zeroAdmits portful zero port fragment)
  by_contra notAll
  obtain ⟨noAny, uncovered⟩ := not_or.mp notAll
  by_cases fragments : ∃ rule ∈ rules,
      rule.Concerns contains assigned hasUnsafe defaultAny incoming packet remote ∧ rule.port = .fragment
  · -- some port is in no interval, and the rule with port 0 opens it
    obtain ⟨port, missing⟩ := not_forall.mp (not_and.mp uncovered fragments)
    obtain ⟨rule, member, concerned, names⟩ := named port false
    by_cases any : rule.port = .any
    · exact noAny ⟨rule, member, concerned, any⟩
    by_cases fragment : rule.port = .fragment
    · rw [fragment] at names
      cases names
    · rw [names_iff ⟨any, fragment⟩, directedPort_redirected] at names
      exact missing ⟨rule, member, concerned, names.2⟩
  · -- no rule is about later fragments, and the rule with port 0 lets them in
    obtain ⟨rule, member, concerned, names⟩ := named 0 true
    by_cases any : rule.port = .any
    · exact noAny ⟨rule, member, concerned, any⟩
    · rw [names_iff ⟨any, fun fragment => fragments ⟨rule, member, concerned, fragment⟩⟩] at names
      cases names.1

theorem neverWider_of_namesAll (portful : Portful rules incoming)
    (all : ∀ packet remote, ZeroAdmits contains assigned hasUnsafe defaultAny rules incoming packet remote →
      NamesAll contains assigned hasUnsafe defaultAny rules incoming packet remote) :
    NeverWider contains assigned hasUnsafe defaultAny rules incoming := by
  intro packet remote matched
  obtain ⟨rule, member, accepted, concerned, named | included⟩ :=
    (built_matches_portful portful packet remote).mp matched
  · exact ⟨rule, member, concerned, named⟩
  · exact named_of_namesAll (all packet remote ⟨rule, member, accepted, included, concerned⟩)

/-- Rules with ports of their own keep to them unless one has port 0. -/
theorem staysInside_iff (portful : Portful rules incoming)
    (real : ∀ rule ∈ rules, rule.incoming = incoming → rule.port ≠ .any ∧ rule.port ≠ .fragment) :
    StaysInside contains assigned hasUnsafe defaultAny rules incoming ↔
      ¬ ∃ packet remote, ZeroAdmits contains assigned hasUnsafe defaultAny rules incoming packet remote := by
  constructor
  · rintro inside ⟨packet, remote, zero⟩
    -- a later fragment gets in
    cases (inside _ remote (matches_of_zeroAdmits portful zero 0 true)).1
  · intro none packet remote matched
    obtain ⟨rule, member, accepted, concerned, named | included⟩ :=
      (built_matches_portful portful packet remote).mp matched
    · obtain ⟨whole, inside⟩ := (names_iff (real rule member concerned.1) packet incoming).mp named
      exact ⟨whole, rule, member, concerned.1, inside⟩
    · exact absurd ⟨packet, remote, rule, member, accepted, included, concerned⟩ none

end Direction

/-- Rules with intervals of ports only match whole packets on these ports only, exactly if no rule with 0 among its
ports admits any packet otherwise. Among rules with all kinds of ports, what is matched is named by the port of a
rule that admits it otherwise, exactly if whatever a rule with 0 among its ports admits otherwise is named with
every port, and as a later fragment, by the rules that do so too. -/
theorem neverWider_iff (contains : Contains) (assigned : List IpNet) (hasUnsafe defaultAny : Bool)
    (rules : List Rule) (incoming : Bool) (portful : Portful rules incoming) :
    ((∀ rule ∈ rules, rule.incoming = incoming → rule.port ≠ .any ∧ rule.port ≠ .fragment) →
      (StaysInside contains assigned hasUnsafe defaultAny rules incoming ↔
        ¬ ∃ packet remote, ZeroAdmits contains assigned hasUnsafe defaultAny rules incoming packet remote)) ∧
    (NeverWider contains assigned hasUnsafe defaultAny rules incoming ↔
      ∀ packet remote, ZeroAdmits contains assigned hasUnsafe defaultAny rules incoming packet remote →
        NamesAll contains assigned hasUnsafe defaultAny rules incoming packet remote) :=
  ⟨staysInside_iff portful, fun narrow _ _ zero => narrow.namesAll portful zero, neverWider_of_namesAll portful⟩

/-- An inbound TCP rule for every peer. -/
def inboundTcp (port : PortSpec) : Rule where
  incoming := true
  proto := .tcp
  port
  groups := []
  host := none
  cidr := none
  localCidr := .any
  caName := none
  caSha := none

theorem portful_inboundTcp {rules : List Rule} (tcp : ∀ rule ∈ rules, ∃ port, rule = inboundTcp port) :
    Portful rules true := by
  intro rule member _
  obtain ⟨port, rfl⟩ := tcp rule member
  exact .inr (.inl rfl)

/-- Port 0 lets in port 22, and later fragments. -/
theorem port_zero_opens_every_port :
    ¬ StaysInside prefixContains [] false false [inboundTcp (.single 0)] true ∧
      ¬ NeverWider prefixContains [] false false [inboundTcp (.single 0)] true ∧
      ∀ port fragment, ((RuleSetBuilder.new [] false false).addRules [inboundTcp (.single 0)]).build.matches
        prefixContains ⟨.v4 (.new 10 0 0 1), .v4 (.new 10 0 0 2), port, 40000, .tcp, fragment⟩ true
          ⟨"peer", [], "ca", "sha", [], []⟩ = true := by
  have opened (port : UInt16) (fragment : Bool) :
      ((RuleSetBuilder.new [] false false).addRules [inboundTcp (.single 0)]).build.matches
        prefixContains ⟨.v4 (.new 10 0 0 1), .v4 (.new 10 0 0 2), port, 40000, .tcp, fragment⟩ true
          ⟨"peer", [], "ca", "sha", [], []⟩ = true := by
    have portful : Portful [inboundTcp (.single 0)] true :=
      portful_inboundTcp fun rule member => ⟨_, List.mem_singleton.mp member⟩
    apply (built_matches_portful portful _ _).mpr
    refine ⟨_, List.mem_singleton_self _, ?_, ⟨rfl, .inr (.inl ⟨rfl, .inl rfl⟩), ?_⟩, .inr rfl⟩
    · exact (RuleSetBuilder.accepted_iff _).mpr ⟨⟨(0, 0), rfl⟩, fun number => Protocol.noConfusion⟩
    · exact ⟨.inl ⟨rfl, rfl⟩, .inl (.inl ⟨rfl, rfl, rfl⟩), trivial⟩
  refine ⟨fun inside => ?_, fun narrow => ?_, opened⟩
  · cases (inside _ _ (opened 22 true)).1
  · obtain ⟨rule, member, -, names⟩ := narrow _ _ (opened 22 true)
    obtain rfl := List.mem_singleton.mp member
    cases names.1

theorem https_stays_narrow :
    StaysInside prefixContains [] false false [inboundTcp (.single 443), inboundTcp (.range 8000 8080)] true ∧
      NeverWider prefixContains [] false false
        [inboundTcp (.single 443), inboundTcp (.range 8000 8080), inboundTcp .fragment] true := by
  have positive (port : PortSpec) (listed : port ∈ [.single 443, .range 8000 8080, .fragment]) :
      ¬ port.Includes 0 := by
    simp only [List.mem_cons, List.not_mem_nil, or_false] at listed
    rcases listed with rfl | rfl | rfl
    · change ¬ (0 : UInt16) = 443
      decide
    · change ¬ ((8000 : UInt16) ≤ 0 ∧ (0 : UInt16) ≤ 8080)
      decide
    · exact id
  have ported (rules : List Rule) (tcp : ∀ rule ∈ rules, ∃ port, rule = inboundTcp port) := neverWider_iff
    prefixContains [] false false rules true (portful_inboundTcp tcp)
  constructor
  · refine ((ported _ ?_).1 ?_).mpr ?_
    · simp
    · simp [inboundTcp]
    · rintro ⟨packet, remote, rule, member, -, zero, -⟩
      have listed : rule.port ∈ [.single 443, .range 8000 8080, .fragment] := by
        simp only [List.mem_cons, List.not_mem_nil, or_false] at member
        rcases member with rfl | rfl <;> simp [inboundTcp]
      exact positive rule.port listed zero
  · refine (ported _ ?_).2.mpr ?_
    · simp
    · rintro packet remote ⟨rule, member, -, zero, -⟩
      have listed : rule.port ∈ [.single 443, .range 8000 8080, .fragment] := by
        simp only [List.mem_cons, List.not_mem_nil, or_false] at member
        rcases member with rfl | rfl | rfl <;> simp [inboundTcp]
      exact absurd zero (positive rule.port listed)

end Nebula
