import Nebula.Firewall.Rule.Meaning
import Nebula.Listener.HeaderChain

/-! # ICMP identifiers and the rules

`parse` puts an echo identifier into `remote_port`, which is the port key of an outbound lookup. Rules
for ICMP are filed under the wildcard and do not see it. A rule for any protocol with ports of its
own does: which echo packets it lets out depends on their identifier, unless another rule lets all
of them out.
-/

namespace Nebula.Listener

open Rust

/-- No two ICMP packets that differ in their identifier only are told apart by the rules. -/
def IdentifierBlind (contains : Contains) (rules : RuleSet) (incoming : Bool) : Prop :=
  ∀ (remote : PeerIdentity) (raw₁ raw₂ : Bytes) (p₁ p₂ : Packet),
    parse raw₁ incoming = .ok (some p₁) → parse raw₂ incoming = .ok (some p₂) →
    p₁.protocol.isIcmp = true → { p₁ with remotePort := p₂.remotePort } = p₂ →
    rules.matches contains p₁ incoming remote = rules.matches contains p₂ incoming remote

/-- The packets that carry an identifier: ICMP between IPv4 addresses, ICMPv6 between IPv6 ones. -/
def IsEcho (packet : Packet) : Prop :=
  packet.localPort = 0 ∧ packet.fragment = false ∧
    ((∃ here there, packet.localAddr = .v4 here ∧ packet.remoteAddr = .v4 there ∧ packet.protocol = .icmp) ∨
      ∃ here there, packet.localAddr = .v6 here ∧ packet.remoteAddr = .v6 there ∧ packet.protocol = .icmpV6)

/-- The rule is for any protocol and its ports are real ones, not the wildcard. -/
def PicksPorts (rule : Rule) : Prop :=
  rule.proto = .any ∧ ¬ rule.PortCovers 0 ∧ ∃ port : UInt16, rule.PortCovers port.toNat

/-- The rule admits ICMP whatever the identifier. -/
def OpenToIcmp (rule : Rule) : Prop := rule.proto.isIcmp = true ∨ (rule.proto = .any ∧ rule.PortCovers 0)

/-! ## What `parse` says about ICMP -/

/-- The 5-tuple of an ICMP packet has no ports, and an identifier only if it is an echo. -/
def EchoShape (t : FiveTuple) : Prop :=
  t.protocol.isIcmp = true → t.srcPort = 0 ∧ t.dstPort = 0 ∧
    (t.icmpIdentifier ≠ none → t.fragment = false ∧
      ((∃ src dst, t.src = .v4 src ∧ t.dst = .v4 dst ∧ t.protocol = .icmp) ∨
        ∃ src dst, t.src = .v6 src ∧ t.dst = .v6 dst ∧ t.protocol = .icmpV6))

theorem landing_echoShape {raw : Bytes} {src dst : Ipv6Addr} {offset : ℕ} {number : UInt8} {t : FiveTuple}
    (landing : Landing raw (.v6 src) (.v6 dst) offset number t) : EchoShape t := by
  intro icmp
  cases landing with
  | ended nothing => rcases nothing with rfl | rfl <;> simp [Protocol.ofNumber, Protocol.isIcmp] at icmp
  | icmp fits id => exact ⟨rfl, rfl, fun _ => ⟨rfl, .inr ⟨src, dst, rfl, rfl, rfl⟩⟩⟩
  | ports transport fits srcPort dstPort =>
    rcases transport with rfl | rfl <;> simp [Protocol.ofNumber, Protocol.isIcmp] at icmp
  | laterFragment next => exact ⟨rfl, rfl, fun some => absurd rfl some⟩

theorem readIpv6_v6 {raw : Bytes} {start stop : ℕ} {addr : IpAddr}
    (read : readIpv6 raw start stop = .ok addr) :
    ∃ octets, addr = .v6 octets := by
  obtain ⟨_, -, rest⟩ := bind_eq_ok.mp read
  obtain ⟨octets, -, same⟩ := bind_eq_ok.mp rest
  exact ⟨octets, (Except.ok.inj same).symm⟩

theorem readIpv4_v4 {raw : Bytes} {i : ℕ} {addr : IpAddr} (read : readIpv4 raw i = .ok addr) :
    ∃ octets, addr = .v4 octets := by
  obtain ⟨_, -, read⟩ := bind_eq_ok.mp read
  obtain ⟨_, -, read⟩ := bind_eq_ok.mp read
  obtain ⟨_, -, read⟩ := bind_eq_ok.mp read
  obtain ⟨_, -, same⟩ := bind_eq_ok.mp read
  exact ⟨_, (Except.ok.inj same).symm⟩

theorem parseIpv6_echoShape {raw : Bytes} {t : FiveTuple} (found : parseIpv6 raw = .ok (some t)) :
    EchoShape t := by
  unfold parseIpv6 at found
  split_ifs at found
  · cases found
  obtain ⟨src, atSrc, rest⟩ := bind_eq_ok.mp found
  obtain ⟨dst, atDst, walk⟩ := bind_eq_ok.mp rest
  obtain ⟨src, rfl⟩ := readIpv6_v6 atSrc
  obtain ⟨dst, rfl⟩ := readIpv6_v6 atDst
  -- nothing has to be carried along: the turn that stops decides the shape
  refine Loop.run_induction (headerWalk raw (.v6 src) (.v6 dst)) (P := fun _ => True)
    (Q := fun result => ∀ t, result = .ok (some t) → EchoShape t) (fun _ _ => trivial) ?_ trivial t walk
  intro c result _ turn t same
  obtain ⟨number, -, landing⟩ := headerTurn_done (same ▸ turn)
  exact landing_echoShape landing

theorem parseIpv4Body_echoShape {raw : Bytes} {ihl : ℕ} {src dst : Ipv4Addr} {protocol : Protocol}
    {fragOffset : UInt16} {t : FiveTuple}
    (found : parseIpv4Body raw ihl (.v4 src) (.v4 dst) protocol fragOffset = .ok (some t)) : EchoShape t := by
  intro icmp
  unfold parseIpv4Body at found
  by_cases first : fragOffset = 0
  · rw [if_pos first] at found
    by_cases short : raw.length < ihl + if protocol = .icmp then 6 else 4
    · rw [if_pos short] at found
      cases found
    rw [if_neg short] at found
    by_cases ports : protocol = .tcp ∨ protocol = .udp
    · have plain : protocol ≠ .icmp := by rintro rfl; simp at ports
      simp only [if_pos ports, if_neg plain] at found
      obtain ⟨l4, -, found⟩ := bind_eq_ok.mp found
      obtain ⟨⟨srcPort, dstPort⟩, -, found⟩ := bind_eq_ok.mp found
      cases found
      rcases ports with rfl | rfl <;> simp [Protocol.isIcmp] at icmp
    · simp only [if_neg ports] at found
      obtain ⟨⟨srcPort, dstPort⟩, zero, found⟩ := bind_eq_ok.mp found
      cases zero
      dsimp only at found
      split_ifs at found with echo
      · obtain ⟨id, -, found⟩ := bind_eq_ok.mp found
        cases found
        exact ⟨rfl, rfl, fun _ => ⟨rfl, .inl ⟨src, dst, rfl, rfl, echo⟩⟩⟩
      · cases found
        exact ⟨rfl, rfl, fun some => absurd rfl some⟩
  · rw [if_neg first] at found
    cases found
    exact ⟨rfl, rfl, fun some => absurd rfl some⟩

theorem parseIpv4_echoShape {raw : Bytes} {t : FiveTuple} (found : parseIpv4 raw = .ok (some t)) :
    EchoShape t := by
  unfold parseIpv4 at found
  split_ifs at found
  · cases found
  obtain ⟨first, -, found⟩ := bind_eq_ok.mp found
  dsimp only at found
  split_ifs at found
  · cases found
  obtain ⟨number, -, found⟩ := bind_eq_ok.mp found
  obtain ⟨word, -, found⟩ := bind_eq_ok.mp found
  obtain ⟨src, atSrc, found⟩ := bind_eq_ok.mp found
  obtain ⟨dst, atDst, found⟩ := bind_eq_ok.mp found
  obtain ⟨src, rfl⟩ := readIpv4_v4 atSrc
  obtain ⟨dst, rfl⟩ := readIpv4_v4 atDst
  exact parseIpv4Body_echoShape found

theorem parse_orient {raw : Bytes} {incoming : Bool} {packet : Packet}
    (found : parse raw incoming = .ok (some packet)) :
    ∃ t : FiveTuple, EchoShape t ∧ packet = t.orient incoming := by
  unfold parse at found
  split at found
  next => cases found
  next first _ =>
    split at found
    · obtain ⟨result, read, same⟩ := bind_eq_ok.mp found
      obtain ⟨t, rfl, rfl⟩ := Option.map_eq_some_iff.mp (Except.ok.inj same)
      exact ⟨t, parseIpv4_echoShape read, rfl⟩
    · obtain ⟨result, read, same⟩ := bind_eq_ok.mp found
      obtain ⟨t, rfl, rfl⟩ := Option.map_eq_some_iff.mp (Except.ok.inj same)
      exact ⟨t, parseIpv6_echoShape read, rfl⟩
    · cases found

/-- An ICMP packet has no local port, and a remote port only if it is an echo with that identifier. -/
theorem parse_icmp {raw : Bytes} {incoming : Bool} {packet : Packet}
    (found : parse raw incoming = .ok (some packet)) (icmp : packet.protocol.isIcmp = true) :
    packet.localPort = 0 ∧ (packet.remotePort ≠ 0 → IsEcho packet) := by
  obtain ⟨t, shape, rfl⟩ := parse_orient found
  obtain ⟨noSrc, noDst, echo⟩ := shape icmp
  rcases identifier : t.icmpIdentifier with _ | id
  · cases incoming <;> simp [FiveTuple.orient, identifier, noSrc, noDst]
  · obtain ⟨whole, families⟩ := echo (by simp [identifier])
    refine ⟨by cases incoming <;> simp [FiveTuple.orient, identifier], fun _ => ⟨?_, whole, ?_⟩⟩
    · cases incoming <;> simp [FiveTuple.orient, identifier]
    · rcases families with ⟨src, dst, isSrc, isDst, proto⟩ | ⟨src, dst, isSrc, isDst, proto⟩
      · left
        cases incoming
        · exact ⟨src, dst, isSrc, isDst, proto⟩
        · exact ⟨dst, src, isDst, isSrc, proto⟩
      · right
        cases incoming
        · exact ⟨src, dst, isSrc, isDst, proto⟩
        · exact ⟨dst, src, isDst, isSrc, proto⟩

/-- An IPv4 echo request with a plain 20-byte header. -/
def ipv4Echo (src dst : Ipv4Addr) (id : UInt16) : Bytes :=
  [0x45, 0, 0, 0, 0, 0, 0, 0, 64, 1, 0, 0] ++ src.items ++ dst.items ++ [8, 0, 0, 0] ++ u16ToBe id

theorem parse_ipv4Echo (src dst : Ipv4Addr) (id : UInt16) :
    parse (ipv4Echo src dst id) false = .ok (some
      { localAddr := .v4 src, remoteAddr := .v4 dst, localPort := 0, remotePort := id, protocol := .icmp,
        fragment := false }) := by
  obtain ⟨items, size⟩ := src
  obtain ⟨items', size'⟩ := dst
  obtain ⟨a, b, c, d, rfl⟩ := List.length_eq_four.mp size
  obtain ⟨a', b', c', d', rfl⟩ := List.length_eq_four.mp size'
  rw [ipv4Echo, u16ToBe_eq]
  conv_rhs => rw [← u16FromBe_toBe id]
  generalize UInt8.ofNat (id.toNat / 256) = high
  generalize UInt8.ofNat id.toNat = low
  rfl

/-- Every echo can be sent with every identifier. -/
theorem exists_echo {packet : Packet} (echo : IsEcho packet) (id : UInt16) :
    ∃ raw, parse raw false = .ok (some { packet with remotePort := id }) := by
  obtain ⟨noPort, whole, families⟩ := echo
  rcases families with ⟨here, there, isHere, isThere, proto⟩ | ⟨here, there, isHere, isThere, proto⟩
  · refine ⟨ipv4Echo here there id, ?_⟩
    rw [parse_ipv4Echo]
    cases packet
    simp_all
  · let fixed : FixedHeader := ⟨0x60, by decide, .replicate 5 0, 64, here, there⟩
    let p : Ipv6Packet := ⟨fixed, [], .icmpV6 128 0 0 id, []⟩
    refine ⟨p.bytes.take p.bytes.length, ?_⟩
    rw [p.parse_take, if_neg (by simp [Ipv6Packet.bytes])]
    cases packet
    simp_all [p, fixed, Ipv6Packet.expected]

/-! ## Which rules see the identifier -/

section Rules

variable (contains : Contains) (default : LocalCidrDefault)

/-- An accepted outbound rule of `rules` that `Q` holds of admits the addresses and the peer. -/
def SomeOutbound (Q : Rule → Prop) (rules : List Rule) (packet : Packet) (remote : PeerIdentity) : Prop :=
  ∃ rule ∈ rules, rule.Accepted ∧ rule.incoming = false ∧ Q rule ∧
    rule.EndpointsAdmit contains default packet remote

theorem protoAdmits_echo {rule : Rule} {packet : Packet} (echo : IsEcho packet) :
    rule.ProtoAdmits packet ↔ rule.proto = .any ∨ rule.proto.isIcmp = true := by
  obtain ⟨-, -, ⟨_, _, -, -, proto⟩ | ⟨_, _, -, -, proto⟩⟩ := echo <;>
    simp [Rule.ProtoAdmits, proto, Protocol.isIcmp]

theorem portKey_echo {packet : Packet} (echo : IsEcho packet) :
    portKey packet false = packet.remotePort.toNat := by
  rw [portKey, echo.2.1]
  rfl

theorem ports_echo {rule : Rule} {packet : Packet} (echo : IsEcho packet) :
    rule.ProtoAdmits packet ∧ rule.PortAdmits packet false ↔
      OpenToIcmp rule ∨ (PicksPorts rule ∧ rule.PortCovers packet.remotePort.toNat) := by
  rw [protoAdmits_echo echo, Rule.PortAdmits, portKey_echo echo]
  by_cases wildcard : rule.PortCovers 0
  · simp only [OpenToIcmp, PicksPorts, wildcard, or_true, and_true, not_true, false_and, and_false, or_false]
    exact or_comm
  · constructor
    · rintro ⟨proto, icmp | covers | zero⟩
      · exact .inl (.inl icmp)
      · rcases proto with any | icmp
        · exact .inr ⟨⟨any, wildcard, _, covers⟩, covers⟩
        · exact .inl (.inl icmp)
      · exact absurd zero wildcard
    · rintro ((icmp | ⟨_, zero⟩) | ⟨⟨any, _, _⟩, covers⟩)
      · exact ⟨.inr icmp, .inl icmp⟩
      · exact absurd zero wildcard
      · exact ⟨.inl any, .inr (.inl covers)⟩

/-- An echo leaves by a rule open to ICMP, or by one that picks its identifier as a port. -/
theorem admits_echo_iff {rules : List Rule} {packet : Packet} {remote : PeerIdentity} (echo : IsEcho packet) :
    (∃ rule ∈ rules, rule.Accepted ∧ rule.Admits contains default packet false remote) ↔
      SomeOutbound contains default OpenToIcmp rules packet remote ∨
        SomeOutbound contains default (fun rule => PicksPorts rule ∧ rule.PortCovers packet.remotePort.toNat)
          rules packet remote := by
  simp only [SomeOutbound, ← exists_or]
  apply exists_congr
  intro rule
  rw [← and_or_left, Rule.Admits, ← and_assoc (b := rule.PortAdmits packet false), ports_echo echo]
  simp only [or_and_right, and_or_left]

/-- Incoming packets are looked up under their local port, which ICMP packets do not have. -/
theorem matches_incoming {rules : RuleSet} {packet : Packet} (id : UInt16) (remote : PeerIdentity) :
    rules.matches contains { packet with remotePort := id } true remote =
      rules.matches contains packet true remote :=
  rfl

end Rules

section Built

variable (contains : Contains) (assigned : List IpNet) (hasUnsafe defaultAny : Bool) (rules : List Rule)

theorem built_matches_echo (packet : Packet) (remote : PeerIdentity) (echo : IsEcho packet) :
    ((RuleSetBuilder.new assigned hasUnsafe defaultAny).addRules rules).build.matches contains packet false remote =
        true ↔
      SomeOutbound contains (RuleSetBuilder.new assigned hasUnsafe defaultAny).defaultLocalCidr OpenToIcmp
          rules packet remote ∨
        SomeOutbound contains (RuleSetBuilder.new assigned hasUnsafe defaultAny).defaultLocalCidr
          (fun rule => PicksPorts rule ∧ rule.PortCovers packet.remotePort.toNat) rules packet remote := by
  rw [RuleSetBuilder.addRules_matches, RuleSetBuilder.new_matches, admits_echo_iff contains _ echo]
  simp

theorem isIcmp_of_echo {packet : Packet} (echo : IsEcho packet) : packet.protocol.isIcmp = true := by
  obtain ⟨-, -, ⟨_, _, -, -, proto⟩ | ⟨_, _, -, -, proto⟩⟩ := echo <;> rw [proto] <;> rfl

/-- Every port-picking rule that lets an echo out is joined by a rule open to ICMP. -/
def PickedEchoesOpen : Prop :=
  ∀ remote packet, IsEcho packet →
    SomeOutbound contains (RuleSetBuilder.new assigned hasUnsafe defaultAny).defaultLocalCidr PicksPorts
      rules packet remote →
    SomeOutbound contains (RuleSetBuilder.new assigned hasUnsafe defaultAny).defaultLocalCidr OpenToIcmp
      rules packet remote

/-- An identifier that a rule picks and the identifier 0, which none picks, would be told apart. -/
theorem pickedEchoesOpen_of_blind
    (blind : IdentifierBlind contains
      ((RuleSetBuilder.new assigned hasUnsafe defaultAny).addRules rules).build false) :
    PickedEchoesOpen contains assigned hasUnsafe defaultAny rules := by
  intro remote packet echo picking
  obtain ⟨rule, member, accepted, outbound, ⟨any, real, port, covers⟩, endpoints⟩ := picking
  obtain ⟨raw, sent⟩ := exists_echo echo port
  obtain ⟨raw', sent'⟩ := exists_echo echo 0
  have same := blind remote raw raw' _ _ sent sent' (isIcmp_of_echo echo) rfl
  have picked :=
    (built_matches_echo contains assigned hasUnsafe defaultAny rules { packet with remotePort := port }
    remote echo).mpr (.inr ⟨rule, member, accepted, outbound, ⟨⟨any, real, port, covers⟩, covers⟩, endpoints⟩)
  rw [picked] at same
  rcases (built_matches_echo contains assigned hasUnsafe defaultAny rules { packet with remotePort := 0 }
    remote echo).mp same.symm with opened | ⟨_, _, _, _, ⟨⟨_, real', _⟩, zero⟩, _⟩
  · exact opened
  · exact absurd zero real'

theorem built_matches_iff_open (opens : PickedEchoesOpen contains assigned hasUnsafe defaultAny rules)
    (packet : Packet) (remote : PeerIdentity) (echo : IsEcho packet) :
    ((RuleSetBuilder.new assigned hasUnsafe defaultAny).addRules rules).build.matches contains packet false remote =
        true ↔
      SomeOutbound contains (RuleSetBuilder.new assigned hasUnsafe defaultAny).defaultLocalCidr OpenToIcmp
          rules packet remote := by
  rw [built_matches_echo _ _ _ _ _ _ _ echo]
  apply or_iff_left_of_imp
  rintro ⟨rule, member, accepted, outbound, ⟨picks, _⟩, endpoints⟩
  exact opens remote packet echo ⟨rule, member, accepted, outbound, picks, endpoints⟩

/-- The rules never tell echo packets apart by their identifier, exactly if they are asked about incoming
packets, or every rule for any protocol that picks ports is, for each peer and pair of addresses it
admits, joined by a rule open to all of ICMP. -/
theorem identifierBlind_iff (incoming : Bool) :
    IdentifierBlind contains
      ((RuleSetBuilder.new assigned hasUnsafe defaultAny).addRules rules).build incoming ↔
      incoming = true ∨ PickedEchoesOpen contains assigned hasUnsafe defaultAny rules := by
  constructor
  · intro blind
    cases incoming with
    | true => exact .inl rfl
    | false => exact .inr (pickedEchoesOpen_of_blind contains assigned hasUnsafe defaultAny rules blind)
  · intro condition remote raw₁ raw₂ p₁ p₂ found₁ found₂ icmp same
    rcases incoming with _ | _
    · have opens := condition.resolve_left (by simp)
      by_cases ports : p₁.remotePort = p₂.remotePort
      · rw [← same, ← ports]
      have echo : IsEcho p₁ := by
        by_cases zero : p₁.remotePort = 0
        · have echo₂ := (parse_icmp found₂ (same ▸ icmp)).2 (fun none => ports (zero.trans none.symm))
          rwa [← same] at echo₂
        · exact (parse_icmp found₁ icmp).2 zero
      rw [← same, Bool.eq_iff_iff, built_matches_iff_open _ _ _ _ _ opens _ remote echo]
      exact (built_matches_iff_open _ _ _ _ _ opens { p₁ with remotePort := p₂.remotePort } remote echo).symm
    · rw [← same]
      exact (matches_incoming contains p₂.remotePort remote).symm

end Built

/-- `outbound any 5`, open to every peer. -/
def outboundPortFive : Rule where
  incoming := false
  proto := .any
  port := .single 5
  groups := []
  host := none
  cidr := none
  localCidr := .any
  caName := none
  caSha := none

/-- The rule lets out the echo with identifier 5 and drops the one with identifier 6. -/
theorem outbound_port_filters_identifiers :
    ¬ IdentifierBlind prefixContains
      ((RuleSetBuilder.new [] false false).addRules [outboundPortFive]).build false := by
  intro blind
  have same := blind ⟨"peer", [], "ca", "sha", [], []⟩ _ _ _ _
    (parse_ipv4Echo ⟨[10, 0, 0, 1], rfl⟩ ⟨[10, 0, 0, 2], rfl⟩ 5)
    (parse_ipv4Echo ⟨[10, 0, 0, 1], rfl⟩ ⟨[10, 0, 0, 2], rfl⟩ 6) rfl rfl
  revert same
  decide

end Nebula.Listener
