import Nebula.Listener.HeaderChain

/-! # Upper-layer protocols taken for extension headers

The default arm of the walk steps over every number it does not name. The numbers of IPv6 extension
headers are among them, and so are the numbers of other upper-layer protocols, whose payload the walk
then reads as if it were a chain of headers. A packet that leads the walk to a transport header in
this way is exactly one whose bytes spell out a chain with such a number in it.
-/

namespace Nebula.Listener

open Rust

/-- The numbers of the IPv6 extension headers. -/
def extensionNumbers : List UInt8 := [0, 43, 44, 51, 60, 135, 139, 140, 253, 254]

/-- The walk over `raw` stepped over a header called `number`. -/
def Traversed (raw : Bytes) (number : UInt8) : Prop :=
  ∃ src dst visited t, readIpv6 raw 8 24 = .ok src ∧ readIpv6 raw 24 40 = .ok dst ∧
    (headerWalk raw src dst).Turns .start visited t ∧ ∃ c ∈ visited, raw[c.protoAt]? = some number

def IsVersion6 (raw : Bytes) : Prop := ∃ first, raw.head? = some first ∧ first >>> 4 = 6

def isTransport (protocol : Protocol) : Prop := protocol = .tcp ∨ protocol = .udp ∨ protocol = .icmpV6

/-- A transport header found in `raw` stands behind extension headers only. -/
def TransportBehindExtensions (raw : Bytes) (incoming : Bool) : Prop :=
  ∀ packet, parse raw incoming = .ok (some packet) → packet.fragment = false → isTransport packet.protocol →
    ∀ number, Traversed raw number → number ∈ extensionNumbers

def Terminal.isTransport : Terminal → Prop
  | laterFragment _ _ _ _ _ => False
  | _ => True

/-- The bytes spell out a chain that leads to a transport header over a number of another protocol. -/
def SpellsForeignChain (raw : Bytes) : Prop :=
  ∃ p : Ipv6Packet, raw = p.bytes ∧ p.terminal.isTransport ∧ ∃ h ∈ p.chain, h.number ∉ extensionNumbers

section Spelling

variable {raw : Bytes} {src dst : IpAddr} {c : Cursor}

theorem byte_at {i : ℕ} (bound : i < raw.length) : ∃ byte, raw[i]? = some byte :=
  ⟨_, List.getElem?_eq_getElem bound⟩

theorem spell_u16 {i : ℕ} (bound : i + 2 ≤ raw.length) :
    ∃ word, readU16 raw i = .ok word ∧ raw.drop i = u16ToBe word ++ raw.drop (i + 2) := by
  obtain ⟨high, atHigh⟩ := byte_at (by omega : i < raw.length)
  obtain ⟨low, atLow⟩ := byte_at (by omega : i + 1 < raw.length)
  refine ⟨u16FromBe high low, readU16_eq_ok atHigh atLow, ?_⟩
  rw [u16ToBe_fromBe, drop_eq_cons atHigh, drop_eq_cons atLow]
  rfl

theorem spell_arr {i : ℕ} (n : ℕ) (bound : i + n ≤ raw.length) :
    ∃ bytes : Arr UInt8 n, raw.drop i = bytes.items ++ raw.drop (i + n) := by
  refine ⟨⟨(raw.drop i).take n, ?_⟩, drop_eq_take_append raw i n⟩
  rw [List.length_take, List.length_drop]
  omega

/-- A header the walk stepped over is one of the grammar if all its bytes are there. -/
theorem header_of_stride {offset size : ℕ} {number next : UInt8} (stride : Stride raw offset number size)
    (name : raw[offset]? = some next) (fits : offset + size ≤ raw.length) :
    ∃ h : Header, h.number = number ∧ h.size = size ∧
      raw.drop offset = h.bytes next ++ raw.drop (offset + size) := by
  rw [drop_eq_cons name]
  cases stride with
  | fragment _ read first =>
    obtain ⟨reserved, atReserved⟩ := byte_at (by omega : offset + 1 < raw.length)
    obtain ⟨word, word', spelled⟩ := spell_u16 (by omega : offset + 2 + 2 ≤ raw.length)
    obtain rfl := Except.ok.inj (read.symm.trans word')
    obtain ⟨identification, rest⟩ := spell_arr 4 (by omega : offset + 2 + 2 + 4 ≤ raw.length)
    refine ⟨.firstFragment reserved _ first identification, rfl, rfl, ?_⟩
    rw [Header.bytes, drop_eq_cons atReserved, spelled, rest]
    simp
  | @auth len read =>
    obtain ⟨body, rest⟩ := spell_arr (len.toNat * 4 + 6)
      (by omega : offset + 2 + (len.toNat * 4 + 6) ≤ raw.length)
    refine ⟨.auth len body, rfl, rfl, ?_⟩
    rw [Header.bytes, drop_eq_cons read, rest,
      (by omega : offset + 2 + (len.toNat * 4 + 6) = offset + (len.toNat + 2) * 4)]
    rfl
  | @standard _ len unnamed read =>
    obtain ⟨body, rest⟩ := spell_arr (len.toNat * 8 + 6)
      (by omega : offset + 2 + (len.toNat * 8 + 6) ≤ raw.length)
    refine ⟨.standard number unnamed len body, rfl, rfl, ?_⟩
    rw [Header.bytes, drop_eq_cons read, rest,
      (by omega : offset + 2 + (len.toNat * 8 + 6) = offset + (len.toNat + 1) * 8)]
    rfl

/-- The walk stops with a transport protocol at a terminal header of the grammar only. -/
theorem terminal_of_done {tuple : FiveTuple} (turn : headerTurn raw src dst c = .done (.ok (some tuple)))
    (whole : tuple.fragment = false) (transport : isTransport tuple.protocol) :
    ∃ t : Terminal, t.isTransport ∧ raw[c.protoAt]? = some t.number ∧
      ∃ payload, raw.drop c.offset = t.bytes ++ payload := by
  obtain ⟨number, named, landing⟩ := headerTurn_done turn
  rw [named]
  cases landing with
  | ended nothing => rcases nothing with rfl | rfl <;> simp [isTransport, Protocol.ofNumber] at transport
  | icmp fits id =>
    obtain ⟨kind, atKind⟩ := byte_at (by omega : c.offset < raw.length)
    obtain ⟨code, atCode⟩ := byte_at (by omega : c.offset + 1 < raw.length)
    obtain ⟨checksum, -, first⟩ := spell_u16 (by omega : c.offset + 2 + 2 ≤ raw.length)
    obtain ⟨identifier, -, second⟩ := spell_u16 (by omega : c.offset + 2 + 2 + 2 ≤ raw.length)
    refine ⟨.icmpV6 kind code checksum identifier, trivial, rfl, raw.drop (c.offset + 2 + 2 + 2), ?_⟩
    rw [Terminal.bytes, drop_eq_cons atKind, drop_eq_cons atCode, first, second]
    simp
  | ports named fits _ _ =>
    obtain ⟨srcPort, -, first⟩ := spell_u16 (by omega : c.offset + 2 ≤ raw.length)
    obtain ⟨dstPort, -, second⟩ := spell_u16 (by omega : c.offset + 2 + 2 ≤ raw.length)
    have spelled : raw.drop c.offset = (u16ToBe srcPort ++ u16ToBe dstPort) ++
      raw.drop (c.offset + 2 + 2) := by
      rw [first, second, List.append_assoc]
    rcases named with rfl | rfl
    · exact ⟨.tcp srcPort dstPort, trivial, rfl, _, spelled⟩
    · exact ⟨.udp srcPort dstPort, trivial, rfl, _, spelled⟩
  | laterFragment next => cases whole

/-- A walk that ends with a transport protocol went along a chain that the bytes spell out. -/
theorem chain_of_run {tuple : FiveTuple} (found : (headerWalk raw src dst).run c = .ok (some tuple))
    (whole : tuple.fragment = false) (transport : isTransport tuple.protocol) :
    ∃ (chain : List Header) (t : Terminal) (payload : Bytes), t.isTransport ∧
      raw[c.protoAt]? = some (firstNumber t.number chain) ∧
      raw.drop c.offset = chainBytes t.number chain ++ (t.bytes ++ payload) := by
  fun_induction (headerWalk raw src dst).run c with
  | case1 c result turn =>
    subst found
    obtain ⟨t, isTransport, named, payload, here⟩ := terminal_of_done turn whole transport
    exact ⟨[], t, payload, isTransport, named, here⟩
  | case2 c next turn ih =>
    obtain ⟨number, size, forward, named, stride, rfl⟩ := headerTurn_next turn
    obtain ⟨chain, t, payload, isTransport, name, rest⟩ := ih found
    have fits : c.offset + size ≤ raw.length := by
      have two := two_le_length_terminal t
      have length := congrArg List.length rest
      simp only [Cursor.advance, List.length_drop, List.length_append] at length
      omega
    obtain ⟨h, rfl, rfl, here⟩ := header_of_stride stride name fits
    refine ⟨h :: chain, t, payload, isTransport, named, ?_⟩
    rw [here, chainBytes, List.append_assoc]
    exact congrArg _ rest

/-- The walk steps over the headers of the chain in front of it, one by one. -/
theorem turns_chain {last : UInt8} {rest : Bytes} (chain : List Header) {c : Cursor}
    (named : raw[c.protoAt]? = some (firstNumber last chain))
    (here : raw.drop c.offset = chainBytes last chain ++ rest)
    (fits : c.offset + (chainBytes last chain).length ≤ raw.length) :
    ∃ visited t, (headerWalk raw src dst).Turns c visited t ∧ raw[t.protoAt]? = some last ∧
      raw.drop t.offset = rest ∧ visited.map (raw[·.protoAt]?) = chain.map (some ·.number) := by
  induction chain generalizing c with
  | nil => exact ⟨[], c, .nil c, named, here, rfl⟩
  | cons h chain ih =>
    rw [chainBytes, List.append_assoc] at here
    rw [chainBytes, List.length_append, Header.length_bytes, ← Nat.add_assoc] at fits
    obtain ⟨next, after⟩ := behind_header here
    obtain ⟨visited, t, turns, name, rest', numbers⟩ := ih (c := c.advance h.size h.size_pos) next after fits
    have turn : headerTurn (raw.take raw.length) src dst c = .next (c.advance h.size h.size_pos) := by
      apply headerTurn_header named here
      have := need_le_size h
      omega
    rw [List.take_length] at turn
    refine ⟨c :: visited, t, .cons turn turns, name, rest', ?_⟩
    rw [List.map_cons, List.map_cons, numbers, named]
    rfl

end Spelling

section Exact

theorem fixed_of_bytes {raw : Bytes} (version : IsVersion6 raw) (bound : 40 ≤ raw.length) :
    ∃ (fixed : FixedHeader) (next : UInt8), raw = fixed.bytes next ++ raw.drop 40 := by
  obtain ⟨first, head, six⟩ := version
  obtain ⟨flow, afterFlow⟩ := spell_arr 5 (by omega : 1 + 5 ≤ raw.length)
  obtain ⟨next, atNext⟩ := byte_at (by omega : 6 < raw.length)
  obtain ⟨hopLimit, atHop⟩ := byte_at (by omega : 7 < raw.length)
  obtain ⟨src, afterSrc⟩ := spell_arr 16 (by omega : 8 + 16 ≤ raw.length)
  obtain ⟨dst, afterDst⟩ := spell_arr 16 (by omega : 24 + 16 ≤ raw.length)
  refine ⟨⟨first, six, flow, hopLimit, src, dst⟩, next, ?_⟩
  calc raw = raw.drop 0 := rfl
    _ = first :: raw.drop 1 := drop_eq_cons (List.head?_eq_getElem? ▸ head)
    _ = _ := by
      rw [afterFlow, drop_eq_cons atNext, drop_eq_cons atHop, afterSrc, afterDst]
      simp [FixedHeader.bytes]

/-- A version 6 packet in which a transport header is found is one of the grammar. -/
theorem spelled_of_parse {raw : Bytes} {incoming : Bool} {packet : Packet} (version : IsVersion6 raw)
    (found : parse raw incoming = .ok (some packet)) (whole : packet.fragment = false)
    (transport : isTransport packet.protocol) : ∃ p : Ipv6Packet, raw = p.bytes ∧ p.terminal.isTransport := by
  have bound : 40 ≤ raw.length := by
    apply Nat.not_lt.mp
    intro short
    obtain ⟨first, head, six⟩ := version
    rw [Ipv6Packet.parse_short short (by simp_all)] at found
    cases found
  obtain ⟨fixed, next, split⟩ := fixed_of_bytes version bound
  rw [split, FixedHeader.parse_bytes, ← split] at found
  rcases walk : (headerWalk raw (.v6 fixed.src) (.v6 fixed.dst)).run .start with cause | _ | tuple
  · simp [walk, bind, Except.bind] at found
  · simp [walk, bind, Except.bind, pure, Except.pure] at found
  · obtain rfl : tuple.orient incoming = packet := by
      simpa [walk, bind, Except.bind, pure, Except.pure] using found
    obtain ⟨chain, t, payload, isTransport, named, here⟩ := chain_of_run walk whole transport
    refine ⟨⟨fixed, chain, t, payload⟩, ?_, isTransport⟩
    have name : next = firstNumber t.number chain := by
      rw [split, Cursor.start, FixedHeader.getElem?_next] at named
      exact Option.some.inj named
    rw [Cursor.start] at here
    rw [split, here, name]
    simp [Ipv6Packet.bytes, Ipv6Packet.head]

/-- Behind a complete chain of headers nothing else has been stepped over when the walk stops there. -/
theorem traversed_chain {fixed : FixedHeader} {chain : List Header} {last : UInt8} {rest : Bytes}
    (stops : ∀ {raw src dst} {c : Cursor}, raw[c.protoAt]? = some last → raw.drop c.offset = rest →
      ∃ result, headerTurn raw src dst c = .done result) (number : UInt8) :
    Traversed (fixed.bytes (firstNumber last chain) ++ (chainBytes last chain ++ rest)) number ↔
      ∃ h ∈ chain, h.number = number := by
  generalize whole : fixed.bytes (firstNumber last chain) ++ (chainBytes last chain ++ rest) = raw
  have src : readIpv6 raw 8 24 = .ok (.v6 fixed.src) := whole ▸ fixed.readIpv6_src _ _
  have dst : readIpv6 raw 24 40 = .ok (.v6 fixed.dst) := whole ▸ fixed.readIpv6_dst _ _
  obtain ⟨visited, t, turns, name, here, numbers⟩ :
      ∃ visited t, (headerWalk raw (.v6 fixed.src) (.v6 fixed.dst)).Turns .start visited t ∧
        raw[t.protoAt]? = some last ∧ raw.drop t.offset = rest ∧
        visited.map (raw[·.protoAt]?) = chain.map (some ·.number) := by
    subst whole
    exact turns_chain chain (fixed.getElem?_next _ _) (List.drop_left' (fixed.length_bytes _))
      (by simp [Cursor.start])
  have member : (∃ c ∈ visited, raw[c.protoAt]? = some number) ↔ ∃ h ∈ chain, h.number = number := by
    have same := congrArg (some number ∈ ·) numbers
    simpa using same
  rw [← member]
  constructor
  · rintro ⟨src', dst', visited', t', atSrc, atDst, turns', c, visit, number'⟩
    obtain rfl := Except.ok.inj (atSrc.symm.trans src)
    obtain rfl := Except.ok.inj (atDst.symm.trans dst)
    obtain ⟨result, left⟩ := stops name here
    exact ⟨c, turns.subset_of_done left turns' visit, number'⟩
  · rintro ⟨c, visit, number'⟩
    exact ⟨_, _, visited, t, src, dst, turns, c, visit, number'⟩

/-- The headers stepped over in a packet of the grammar are those of its chain. -/
theorem traversed_packet (p : Ipv6Packet) (number : UInt8) :
    Traversed p.bytes number ↔ ∃ h ∈ p.chain, h.number = number := by
  have split : p.bytes = p.fixed.bytes (firstNumber p.terminal.number p.chain) ++
      (chainBytes p.terminal.number p.chain ++ (p.terminal.bytes ++ p.payload)) := by
    simp only [Ipv6Packet.bytes, Ipv6Packet.head, List.append_assoc]
  rw [split]
  apply traversed_chain
  intro raw src dst c named here
  exact ⟨_, headerTurn_terminal named here⟩

/-- The upper-layer numbers that have an arm of their own. -/
def upperLayerNumbers : List UInt8 := [nhTcp, nhUdp, nhIcmpv6, nhEsp, nhNoNext]

theorem headerTurn_upperLayer {raw : Bytes} {src dst : IpAddr} {c : Cursor} {number : UInt8}
    (upper : number ∈ upperLayerNumbers) (named : raw[c.protoAt]? = some number) :
    ∃ result, headerTurn raw src dst c = .done result := by
  simp only [upperLayerNumbers, List.mem_cons, List.not_mem_nil, or_false] at upper
  rcases upper with rfl | rfl | rfl | rfl | rfl <;> simp [headerTurn, named]

theorem expected_transport {p : Ipv6Packet} (transport : p.terminal.isTransport) (incoming : Bool) :
    (p.expected incoming).fragment = false ∧ isTransport (p.expected incoming).protocol := by
  rcases p with ⟨fixed, chain, _ | _ | _ | _, payload⟩
  · cases incoming <;> simp [Ipv6Packet.expected, isTransport]
  · cases incoming <;> simp [Ipv6Packet.expected, isTransport]
  · simp [Ipv6Packet.expected, isTransport]
  · exact transport.elim

theorem behindExtensions_iff {raw : Bytes} (version : IsVersion6 raw) (incoming : Bool) :
    TransportBehindExtensions raw incoming ↔ ¬ SpellsForeignChain raw := by
  constructor
  · rintro behind ⟨p, rfl, transport, h, member, foreign⟩
    obtain ⟨whole, isTransport⟩ := expected_transport transport incoming
    have found : parse p.bytes incoming = .ok (some (p.expected incoming)) := by
      have taken := p.parse_take incoming p.bytes.length
      rwa [List.take_length, if_neg (by simp [Ipv6Packet.bytes])] at taken
    exact foreign (behind _ found whole isTransport _ ((traversed_packet p _).mpr ⟨h, member, rfl⟩))
  · intro plain packet found whole transport number traversed
    obtain ⟨p, rfl, isTransport⟩ := spelled_of_parse version found whole transport
    obtain ⟨h, member, rfl⟩ := (traversed_packet p number).mp traversed
    by_contra foreign
    exact plain ⟨p, rfl, isTransport, h, member, foreign⟩

theorem isVersion6_fixed (fixed : FixedHeader) (next : UInt8) (rest : Bytes) :
    IsVersion6 (fixed.bytes next ++ rest) :=
  ⟨fixed.first, rfl, fixed.version⟩

/-- Behind an unnamed number, eight bytes read as a header lead on to a TCP header. -/
theorem spellsForeignChain_of_unnamed (fixed : FixedHeader) (chain : List Header) {number : UInt8}
    (unnamed : number ∉ namedNumbers) (foreign : number ∉ extensionNumbers) :
    ∃ rest, SpellsForeignChain
      (fixed.bytes (firstNumber number chain) ++ (chainBytes number chain ++ rest)) := by
  let h : Header := .standard number unnamed 0 (.replicate 6 0)
  refine ⟨h.bytes nhTcp ++ (Terminal.tcp 0 0).bytes, ⟨fixed, chain ++ [h], .tcp 0 0, []⟩, ?_, trivial, h,
    by simp, foreign⟩
  simp only [Ipv6Packet.bytes, Ipv6Packet.head, firstNumber_concat, chainBytes_concat, List.append_nil,
    List.append_assoc]
  rfl

/-- Only extension headers are stepped over on the way to a transport header, exactly if the bytes do not
spell out a chain with the number of another protocol in it. Whatever follows a chain of extension
headers is safe from being read as such a chain exactly if the upper-layer number has an arm. -/
theorem transportBehindExtensions_iff (incoming : Bool) :
    (∀ raw, IsVersion6 raw → (TransportBehindExtensions raw incoming ↔ ¬ SpellsForeignChain raw)) ∧
      ∀ (fixed : FixedHeader) (genuine : List Header) (number : UInt8),
        (∀ h ∈ genuine, h.number ∈ extensionNumbers) → number ∉ extensionNumbers →
        ((∀ rest, TransportBehindExtensions
          (fixed.bytes (firstNumber number genuine) ++ (chainBytes number genuine ++ rest)) incoming) ↔
          number ∈ upperLayerNumbers) := by
  refine ⟨fun raw version => behindExtensions_iff version incoming, ?_⟩
  intro fixed genuine number extensions upper
  constructor
  · intro behind
    by_contra unnamed
    have unarmed : number ∉ namedNumbers := by
      simp_all [namedNumbers, upperLayerNumbers, extensionNumbers]
    obtain ⟨rest, spells⟩ := spellsForeignChain_of_unnamed fixed genuine unarmed upper
    exact (behindExtensions_iff (isVersion6_fixed _ _ _) incoming).mp (behind rest) spells
  · intro armed rest packet _ _ _ other traversed
    rw [traversed_chain (fun named _ => headerTurn_upperLayer armed named)] at traversed
    obtain ⟨h, member, rfl⟩ := traversed
    exact extensions h member

/-- An SCTP packet whose first eight bytes read as a header in front of TCP ports 22 and 80. -/
def sctpPacket : Bytes :=
  [0x60, 0, 0, 0, 0, 12, 132, 64] ++ List.replicate 16 0xfd ++ List.replicate 16 0xfe ++
    [6, 0, 0, 0, 0, 0, 0, 0, 0, 22, 0, 80]

theorem sctp_payload_taken_for_headers :
    IsVersion6 sctpPacket ∧ parse sctpPacket true = .ok (some
      { localAddr := .v6 (.replicate 16 0xfe), remoteAddr := .v6 (.replicate 16 0xfd), localPort := 80,
        remotePort := 22, protocol := .tcp, fragment := false }) ∧
      ¬ TransportBehindExtensions sctpPacket true := by
  have version : IsVersion6 sctpPacket := ⟨0x60, rfl, by decide⟩
  refine ⟨version, by decide +kernel, ?_⟩
  rw [behindExtensions_iff version, not_not]
  let fixed : FixedHeader := ⟨0x60, by decide, ⟨[0, 0, 0, 0, 12], rfl⟩, 64, .replicate 16 0xfd,
    .replicate 16 0xfe⟩
  let sctp : Header := .standard 132 (by decide) 0 (.replicate 6 0)
  exact ⟨⟨fixed, [sctp], .tcp 22 80, []⟩, by decide, trivial, sctp, by simp, by decide⟩

/-- Every UDP packet behind a Hop-by-Hop header of eight bytes. -/
theorem udp_stands_behind_extensions :
    let fixed : FixedHeader := ⟨0x60, by decide, .replicate 5 0, 64, .replicate 16 0xfd, .replicate 16 0xfe⟩
    let hopByHop : Header := .standard 0 (by decide) 0 (.replicate 6 0)
    hopByHop.number ∈ extensionNumbers ∧ nhUdp ∉ extensionNumbers ∧ ∀ rest, TransportBehindExtensions
      (fixed.bytes (firstNumber nhUdp [hopByHop]) ++ (chainBytes nhUdp [hopByHop] ++ rest)) true := by
  intro fixed hopByHop
  have extension : hopByHop.number ∈ extensionNumbers := by decide
  have upper : nhUdp ∉ extensionNumbers := by decide
  refine ⟨extension, upper, ?_⟩
  apply ((transportBehindExtensions_iff true).2 fixed [hopByHop] nhUdp _ upper).mpr (by decide)
  intro h member
  rwa [List.mem_singleton.mp member]

end Exact

end Nebula.Listener
