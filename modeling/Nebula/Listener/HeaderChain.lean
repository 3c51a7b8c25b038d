import Nebula.Listener.Packet

/-! # IPv6 packets as chains of headers

The grammar of an IPv6 packet: a fixed header, headers that are stepped over, a terminal header and
a payload. Each header carries the bytes its length field announces, so a value of these types is a
well-formed packet, and `Ipv6Packet.expected` is the 5-tuple a reader of the grammar would give it.
`parse` of the packet's bytes is shown to be that 5-tuple, and `parse` of anything that ends before
the terminal header does to be nothing.
-/

namespace Nebula.Listener

open Rust

/-- A header that is stepped over, without the byte that names the header behind it. -/
inductive Header where
  /-- `(len + 1) * 8` bytes: Hop-by-Hop, Routing, Destination-Options and every number without an arm. -/
  | standard (number : UInt8) (unnamed : number ∉ namedNumbers) (len : UInt8)
      (body : Arr UInt8 (len.toNat * 8 + 6))
  /-- `(len + 2) * 4` bytes. -/
  | auth (len : UInt8) (body : Arr UInt8 (len.toNat * 4 + 6))
  /-- A Fragment header whose offset is zero. -/
  | firstFragment (reserved : UInt8) (word : UInt16) (first : word &&& ~~~ 0x7 = 0)
      (identification : Arr UInt8 4)

namespace Header

def number : Header → UInt8
  | standard number _ _ _ => number
  | auth _ _ => nhAh
  | firstFragment _ _ _ _ => nhFragment

/-- The header's bytes in front of a header called `next`. -/
def bytes (next : UInt8) : Header → Bytes
  | standard _ _ len body => next :: len :: body.items
  | auth len body => next :: len :: body.items
  | firstFragment reserved word _ identification => next :: reserved :: (u16ToBe word ++ identification.items)

def size : Header → ℕ
  | standard _ _ len _ => (len.toNat + 1) * 8
  | auth len _ => (len.toNat + 2) * 4
  | firstFragment _ _ _ _ => 8

@[simp] theorem length_bytes (next : UInt8) (h : Header) : (h.bytes next).length = h.size := by
  rcases h with ⟨_, _, len, body⟩ | ⟨len, body⟩ | ⟨_, word, _, identification⟩
  · simp only [bytes, size, List.length_cons, body.size]
    omega
  · simp only [bytes, size, List.length_cons, body.size]
    omega
  · simp [bytes, size, u16ToBe, identification.size]

theorem getElem?_bytes_zero (next : UInt8) (h : Header) (rest : Bytes) :
    (h.bytes next ++ rest)[0]? = some next := by
  rcases h with _ | _ | _ <;> rfl

theorem size_pos (h : Header) : 0 < h.size := by
  rcases h with _ | _ | _ <;> simp [size]

end Header

/-- The header the walk ends at, up to the last byte it needs. -/
inductive Terminal where
  | tcp (srcPort dstPort : UInt16)
  | udp (srcPort dstPort : UInt16)
  | icmpV6 (kind code : UInt8) (checksum identifier : UInt16)
  /-- A Fragment header whose offset is not zero. -/
  | laterFragment (next reserved : UInt8) (word : UInt16) (later : word &&& ~~~ 0x7 ≠ 0)
      (identification : Arr UInt8 4)

namespace Terminal

def number : Terminal → UInt8
  | tcp _ _ => nhTcp
  | udp _ _ => nhUdp
  | icmpV6 _ _ _ _ => nhIcmpv6
  | laterFragment _ _ _ _ _ => nhFragment

def bytes : Terminal → Bytes
  | tcp srcPort dstPort | udp srcPort dstPort => u16ToBe srcPort ++ u16ToBe dstPort
  | icmpV6 kind code checksum identifier => kind :: code :: (u16ToBe checksum ++ u16ToBe identifier)
  | laterFragment next reserved word _ identification =>
    next :: reserved :: (u16ToBe word ++ identification.items)

@[simp] theorem length_bytes (t : Terminal) : t.bytes.length = match t with
    | tcp _ _ | udp _ _ => 4
    | icmpV6 _ _ _ _ => 6
    | laterFragment _ _ _ _ _ => 8 := by
  rcases t with _ | _ | _ | ⟨_, _, word, _, identification⟩ <;> simp [bytes, u16ToBe]
  rw [identification.size]

/-- The 5-tuple of a packet between `src` and `dst` that ends in this header. -/
def tuple (src dst : IpAddr) : Terminal → FiveTuple
  | tcp srcPort dstPort =>
    { src, dst, protocol := .tcp, srcPort, dstPort, icmpIdentifier := none, fragment := false }
  | udp srcPort dstPort =>
    { src, dst, protocol := .udp, srcPort, dstPort, icmpIdentifier := none, fragment := false }
  | icmpV6 kind _ _ identifier =>
    { src, dst, protocol := .icmpV6, srcPort := 0, dstPort := 0,
      icmpIdentifier := if kind = 128 ∨ kind = 129 then some identifier else none, fragment := false }
  | laterFragment next _ _ _ _ =>
    { src, dst, protocol := .ofNumber next, srcPort := 0, dstPort := 0, icmpIdentifier := none,
      fragment := true }

end Terminal

/-- The number of the header a chain in front of `last` starts with. -/
def firstNumber (last : UInt8) : List Header → UInt8
  | [] => last
  | h :: _ => h.number

/-- The bytes of a chain of headers in front of a header called `last`. -/
def chainBytes (last : UInt8) : List Header → Bytes
  | [] => []
  | h :: rest => h.bytes (firstNumber last rest) ++ chainBytes last rest

theorem firstNumber_concat (last : UInt8) (h : Header) (chain : List Header) :
    firstNumber last (chain ++ [h]) = firstNumber h.number chain := by
  cases chain <;> rfl

theorem chainBytes_concat (last : UInt8) (h : Header) (chain : List Header) :
    chainBytes last (chain ++ [h]) = chainBytes h.number chain ++ h.bytes last := by
  induction chain with
  | nil => simp [chainBytes, firstNumber]
  | cons first chain ih =>
    rw [List.cons_append, chainBytes, chainBytes, ih, firstNumber_concat, List.append_assoc]

/-- The 40-byte header, without the byte that names the header behind it. -/
structure FixedHeader where
  first : UInt8
  version : first >>> 4 = 6
  /-- The rest of the traffic class and flow label, and the payload length. -/
  flow : Arr UInt8 5
  hopLimit : UInt8
  src : Ipv6Addr
  dst : Ipv6Addr

def FixedHeader.bytes (fixed : FixedHeader) (next : UInt8) : Bytes :=
  fixed.first :: (fixed.flow.items ++ next :: fixed.hopLimit :: (fixed.src.items ++ fixed.dst.items))

structure Ipv6Packet where
  fixed : FixedHeader
  chain : List Header
  terminal : Terminal
  payload : Bytes

namespace Ipv6Packet

/-- The packet up to the last byte of its terminal header that `parse` needs. -/
def head (p : Ipv6Packet) : Bytes :=
  p.fixed.bytes (firstNumber p.terminal.number p.chain) ++
    (chainBytes p.terminal.number p.chain ++ p.terminal.bytes)

def bytes (p : Ipv6Packet) : Bytes := p.head ++ p.payload

/-- The packet's addresses by direction and its terminal header's data. -/
def expected (p : Ipv6Packet) (incoming : Bool) : Packet :=
  let (localAddr, remoteAddr) :=
    if incoming then (IpAddr.v6 p.fixed.dst, IpAddr.v6 p.fixed.src) else (.v6 p.fixed.src, .v6 p.fixed.dst)
  let flow localPort remotePort protocol fragment : Packet :=
    { localAddr, remoteAddr, localPort, remotePort, protocol, fragment }
  match p.terminal with
  | .tcp srcPort dstPort =>
    if incoming then flow dstPort srcPort .tcp false else flow srcPort dstPort .tcp false
  | .udp srcPort dstPort =>
    if incoming then flow dstPort srcPort .udp false else flow srcPort dstPort .udp false
  | .icmpV6 kind _ _ identifier =>
    flow 0 (if kind = 128 ∨ kind = 129 then identifier else 0) .icmpV6 false
  | .laterFragment next _ _ _ _ => flow 0 0 (.ofNumber next) true

end Ipv6Packet

section Walk

variable {raw full : Bytes} {src dst : IpAddr} {c : Cursor}

/-- The bytes of a header the walk asks for before it goes on or stops. -/
def need (number : UInt8) : ℕ :=
  if number = nhIcmpv6 then 6 else if number = nhTcp ∨ number = nhUdp then 4
  else if number = nhFragment then 8 else 2

theorem two_le_need (number : UInt8) : 2 ≤ need number := by
  unfold need
  split_ifs <;> decide

/-- A buffer that ends before the byte naming a header, or inside what the header must have, is dropped. -/
theorem headerTurn_cut {number : UInt8} (named : full[c.protoAt]? = some number)
    (known : number ≠ nhEsp ∧ number ≠ nhNoNext) {n : ℕ} (short : n < c.offset + need number) :
    headerTurn (full.take n) src dst c = .done (.ok none) := by
  have length : (full.take n).length ≤ n := List.length_take_le n full
  unfold headerTurn
  rcases cut : (full.take n)[c.protoAt]? with _ | other
  · rfl
  obtain rfl : other = number := by
    rw [List.getElem?_take] at cut
    split_ifs at cut
    exact Option.some.inj (cut.symm.trans named)
  unfold need at short
  simp only [if_neg (not_or.mpr known)]
  split_ifs at short with icmp ports fragment
  · rw [if_pos icmp, if_pos (by omega)]
  · rw [if_neg icmp, if_pos ports, if_pos (by omega)]
  · rw [if_neg icmp, if_neg ports, if_pos fragment, if_pos (by omega)]
  · have missing : (full.take n)[c.offset + 1]? = none := List.getElem?_eq_none (by omega)
    rw [if_neg icmp, if_neg ports, if_neg fragment]
    simp only [missing, ite_self]

/-- A header of the grammar that the buffer reaches far enough into is stepped over. -/
theorem stride_of_bytes {h : Header} {next : UInt8} {rest : Bytes} {offset : ℕ}
    (here : full.drop offset = h.bytes next ++ rest) {n : ℕ} (reaches : offset + need h.number ≤ n) :
    Stride (full.take n) offset h.number h.size := by
  have read (k : ℕ) (bound : offset + k < n) : (full.take n)[offset + k]? = (h.bytes next ++ rest)[k]? := by
    rw [List.getElem?_take, if_pos bound, ← here, List.getElem?_drop]
  have two := two_le_need h.number
  rcases h with ⟨number, unnamed, len, body⟩ | ⟨len, body⟩ | ⟨reserved, word, first, identification⟩
  · apply Stride.standard unnamed
    rw [read 1 (by omega)]
    rfl
  · apply Stride.auth
    rw [read 1 (by omega)]
    rfl
  · have length := congrArg List.length here
    simp only [List.length_drop, List.length_append, Header.length_bytes, Header.size] at length
    have eight : need nhFragment = 8 := rfl
    rw [Header.number, eight] at reaches
    refine Stride.fragment ?_ ((readU16_eq_ok (read 2 (by omega)) (read 3 (by omega))).trans ?_) first
    · rw [List.length_take]
      omega
    · rw [u16FromBe_toBe]

theorem headerTurn_header {h : Header} {next : UInt8} {rest : Bytes}
    (named : full[c.protoAt]? = some h.number) (here : full.drop c.offset = h.bytes next ++ rest)
    {n : ℕ} (reaches : c.offset + need h.number ≤ n) :
    headerTurn (full.take n) src dst c = .next (c.advance h.size h.size_pos) := by
  have lag := c.lag
  apply headerTurn_stride _ (stride_of_bytes here reaches)
  rw [List.getElem?_take, if_pos (by omega), named]

/-- Behind a header stands the header that its first byte names. -/
theorem behind_header {h : Header} {next : UInt8} {rest : Bytes} {offset : ℕ}
    (here : full.drop offset = h.bytes next ++ rest) :
    full[offset]? = some next ∧ full.drop (offset + h.size) = rest := by
  constructor
  · rw [← Nat.add_zero offset, ← List.getElem?_drop, here, Header.getElem?_bytes_zero]
  · rw [← List.drop_drop, here, List.drop_left' (h.length_bytes _)]

theorem need_terminal (t : Terminal) : need t.number = t.bytes.length := by
  rcases t with _ | _ | _ | _ <;> simp [need, Terminal.number]

theorem readPorts_bytes (srcPort dstPort : UInt16) (rest : Bytes) :
    readPorts ((u16ToBe srcPort ++ u16ToBe dstPort) ++ rest) = .ok (srcPort, dstPort) := by
  have enough : ¬ ((u16ToBe srcPort ++ u16ToBe dstPort) ++ rest).length < 4 := by
    simp [u16ToBe]
    omega
  rw [readPorts, if_neg enough, readU16_eq_ok rfl rfl, readU16_eq_ok rfl rfl, u16FromBe_toBe, u16FromBe_toBe]
  rfl

/-- The walk stops at a terminal header whose bytes are all there, with that header's data. -/
theorem headerTurn_terminal {t : Terminal} {rest : Bytes} (named : raw[c.protoAt]? = some t.number)
    (here : raw.drop c.offset = t.bytes ++ rest) :
    headerTurn raw src dst c = .done (.ok (some (t.tuple src dst))) := by
  have read (k : ℕ) : raw[c.offset + k]? = (t.bytes ++ rest)[k]? := by rw [← here, List.getElem?_drop]
  have length := congrArg List.length here
  simp only [List.length_drop, List.length_append, Terminal.length_bytes] at length
  rcases t with ⟨srcPort, dstPort⟩ | ⟨srcPort, dstPort⟩ | ⟨kind, code, checksum, identifier⟩ |
    ⟨next, reserved, word, later, identification⟩
  all_goals dsimp only at length
  · have ports : readPorts (raw.drop c.offset) = .ok (srcPort, dstPort) := here ▸ readPorts_bytes _ _ rest
    have enough : ¬ raw.length < c.offset + 4 := by omega
    simp [headerTurn, named, Terminal.number, Terminal.tuple, enough,
      sliceFrom_eq_ok (by omega : c.offset ≤ raw.length), ports, bind, Except.bind, Protocol.ofNumber]
  · have ports : readPorts (raw.drop c.offset) = .ok (srcPort, dstPort) := here ▸ readPorts_bytes _ _ rest
    have enough : ¬ raw.length < c.offset + 4 := by omega
    simp [headerTurn, named, Terminal.number, Terminal.tuple, enough,
      sliceFrom_eq_ok (by omega : c.offset ≤ raw.length), ports, bind, Except.bind, Protocol.ofNumber]
  · have type : index raw c.offset = .ok kind := index_eq_ok (read 0)
    have echo : readU16 raw (c.offset + 4) = .ok identifier :=
      (readU16_eq_ok (read 4) (read 5)).trans (by rw [u16FromBe_toBe])
    have enough : ¬ raw.length < c.offset + 6 := by omega
    simp [headerTurn, named, Terminal.number, Terminal.tuple, enough, type, echo, bind, Except.bind,
      Protocol.ofNumber]
    split_ifs <;> simp
  · have name : index raw c.offset = .ok next := index_eq_ok (read 0)
    have fragOffset : readU16 raw (c.offset + 2) = .ok word :=
      (readU16_eq_ok (read 2) (read 3)).trans (by rw [u16FromBe_toBe])
    have enough : ¬ raw.length < c.offset + 8 := by omega
    simp [headerTurn, named, Terminal.number, Terminal.tuple, enough, name, fragOffset, later, bind,
      Except.bind, pure, Except.pure]

theorem two_le_length_terminal (t : Terminal) : 2 ≤ t.bytes.length := need_terminal t ▸ two_le_need t.number

/-- The number of a header of the grammar is never one at which there is nothing to find. -/
theorem firstNumber_known (t : Terminal) (chain : List Header) :
    firstNumber t.number chain ≠ nhEsp ∧ firstNumber t.number chain ≠ nhNoNext := by
  rcases chain with _ | ⟨⟨number, unnamed, _, _⟩ | _ | _, _⟩
  · rcases t with _ | _ | _ | _ <;> simp [firstNumber, Terminal.number]
  · simp only [List.mem_cons, not_or] at unnamed
    exact ⟨unnamed.1, unnamed.2.1⟩
  · simp [firstNumber, Header.number]
  · simp [firstNumber, Header.number]

theorem need_le_size (h : Header) : need h.number ≤ h.size := by
  rcases h with ⟨number, unnamed, len, _⟩ | ⟨len, _⟩ | _
  · have : need number = 2 := by simp_all [need]
    rw [Header.number, this, Header.size]
    omega
  · change 2 ≤ (len.toNat + 2) * 4
    omega
  · exact Nat.le_refl 8

/-- From a cursor in front of a chain the walk ends at the chain's terminal header, or finds the buffer cut. -/
theorem run_chain (t : Terminal) (payload : Bytes) (n : ℕ) (chain : List Header) {c : Cursor}
    (named : full[c.protoAt]? = some (firstNumber t.number chain))
    (here : full.drop c.offset = chainBytes t.number chain ++ (t.bytes ++ payload)) :
    (headerWalk (full.take n) src dst).run c =
      .ok (if n < c.offset + (chainBytes t.number chain ++ t.bytes).length then none
        else some (t.tuple src dst)) := by
  have lag := c.lag
  induction chain generalizing c with
  | nil =>
    rw [chainBytes, List.nil_append] at here ⊢
    rw [firstNumber] at named
    rcases Nat.lt_or_ge n (c.offset + t.bytes.length) with cut | reach
    · rw [if_pos cut]
      exact Loop.run_done (headerTurn_cut named (firstNumber_known t []) (need_terminal t ▸ cut))
    · have named' : (full.take n)[c.protoAt]? = some t.number := by
        rw [List.getElem?_take, if_pos (by omega), named]
      have here' : (full.take n).drop c.offset = t.bytes ++ payload.take (n - c.offset - t.bytes.length) := by
        rw [List.drop_take, here, List.take_append, List.take_of_length_le (by omega)]
      rw [if_neg (Nat.not_lt.mpr reach)]
      exact Loop.run_done (headerTurn_terminal named' here')
  | cons h rest ih =>
    rw [chainBytes, List.append_assoc] at here
    rw [firstNumber] at named
    have length : (chainBytes t.number (h :: rest) ++ t.bytes).length =
        h.size + (chainBytes t.number rest ++ t.bytes).length := by
      simp [chainBytes]
    rcases Nat.lt_or_ge n (c.offset + need h.number) with cut | reach
    · have := need_le_size h
      rw [if_pos (by omega)]
      exact Loop.run_done (headerTurn_cut named (firstNumber_known t (h :: rest)) cut)
    · obtain ⟨next, after⟩ := behind_header here
      rw [Loop.run_next (headerTurn_header named here reach),
        ih (c := c.advance h.size h.size_pos) next after (Cursor.lag _), length]
      simp only [Cursor.advance, Nat.add_assoc]

end Walk

namespace FixedHeader

variable (fixed : FixedHeader) (next : UInt8) (tail : Bytes)

@[simp] theorem length_bytes : (fixed.bytes next).length = 40 := by
  simp [bytes, fixed.flow.size, fixed.src.size, fixed.dst.size]

theorem getElem?_next : (fixed.bytes next ++ tail)[6]? = some next := by
  simp [bytes, fixed.flow.size]

theorem bytes_eq : fixed.bytes next ++ tail =
    (fixed.first :: (fixed.flow.items ++ [next, fixed.hopLimit])) ++
      (fixed.src.items ++ (fixed.dst.items ++ tail)) := by
  simp [bytes]

theorem readIpv6_src : readIpv6 (fixed.bytes next ++ tail) 8 24 = .ok (.v6 fixed.src) := by
  rw [readIpv6, bytes_eq, slice_middle (by simp [fixed.flow.size]) (by rw [fixed.src.size])]
  simp only [bind, Except.bind, Arr.copyFromSlice_eq_ok fixed.src.size]
  rfl

theorem readIpv6_dst : readIpv6 (fixed.bytes next ++ tail) 24 40 = .ok (.v6 fixed.dst) := by
  rw [readIpv6, bytes_eq, ← List.append_assoc,
    slice_middle (by simp [fixed.flow.size, fixed.src.size]) (by rw [fixed.dst.size])]
  simp only [bind, Except.bind, Arr.copyFromSlice_eq_ok fixed.dst.size]
  rfl

/-- Behind a complete fixed header, `parse` is the header walk. -/
theorem parse_bytes (incoming : Bool) :
    parse (fixed.bytes next ++ tail) incoming = do
      return (← (headerWalk (fixed.bytes next ++ tail) (.v6 fixed.src) (.v6 fixed.dst)).run .start).map
        (·.orient incoming) := by
  have enough : ¬ (fixed.bytes next ++ tail).length < 40 := by simp
  have head : (fixed.bytes next ++ tail).head? = some fixed.first := rfl
  rw [parse, head]
  simp only [fixed.version, parseIpv6, if_neg enough, readIpv6_src, readIpv6_dst, bind, Except.bind]

end FixedHeader

namespace Ipv6Packet

variable (p : Ipv6Packet)

theorem parse_short {raw : Bytes} (short : raw.length < 40)
    (version : ∀ byte, raw.head? = some byte → byte >>> 4 = 6) (incoming : Bool) :
    parse raw incoming = .ok none := by
  unfold parse
  rcases first : raw.head? with _ | byte
  · rfl
  · simp only [version byte first, parseIpv6, if_pos short]
    rfl

theorem orient_tuple (incoming : Bool) :
    (p.terminal.tuple (.v6 p.fixed.src) (.v6 p.fixed.dst)).orient incoming = p.expected incoming := by
  unfold expected
  rcases p.terminal with _ | _ | ⟨kind, _, _, _⟩ | _
  · cases incoming <;> rfl
  · cases incoming <;> rfl
  · by_cases echo : kind = 128 ∨ kind = 129 <;> cases incoming <;>
      simp [FiveTuple.orient, Terminal.tuple, echo]
  · cases incoming <;> rfl

/-- A packet of the grammar is read as its 5-tuple by any buffer that holds its head, and by no shorter one. -/
theorem parse_take (incoming : Bool) (n : ℕ) :
    parse (p.bytes.take n) incoming =
      .ok (if n < p.head.length then none else some (p.expected incoming)) := by
  have length : p.head.length =
      Cursor.start.offset + (chainBytes p.terminal.number p.chain ++ p.terminal.bytes).length := by
    rw [head, List.length_append, FixedHeader.length_bytes]
    rfl
  have split : p.bytes = p.fixed.bytes (firstNumber p.terminal.number p.chain) ++
      (chainBytes p.terminal.number p.chain ++ (p.terminal.bytes ++ p.payload)) := by
    simp only [bytes, head, List.append_assoc]
  rcases Nat.lt_or_ge n 40 with cut | reach
  · rw [if_pos (length ▸ Nat.lt_add_right _ cut)]
    apply parse_short (Nat.lt_of_le_of_lt (List.length_take_le n _) cut)
    intro byte first
    rw [List.head?_take] at first
    split_ifs at first
    obtain rfl : p.fixed.first = byte := Option.some.inj first
    exact p.fixed.version
  · have walk : (headerWalk (p.bytes.take n) (.v6 p.fixed.src) (.v6 p.fixed.dst)).run .start = _ :=
      run_chain p.terminal p.payload n p.chain (by rw [split]; exact p.fixed.getElem?_next _ _)
        (by rw [split]; exact List.drop_left' (p.fixed.length_bytes _))
    have kept : p.bytes.take n = p.fixed.bytes (firstNumber p.terminal.number p.chain) ++
        (chainBytes p.terminal.number p.chain ++ (p.terminal.bytes ++ p.payload)).take (n - 40) := by
      rw [split, List.take_append, List.take_of_length_le (by simpa using reach), FixedHeader.length_bytes]
    rw [kept, FixedHeader.parse_bytes, ← kept, walk, ← length, ← p.orient_tuple incoming]
    rcases Nat.lt_or_ge n p.head.length with cut | whole
    · rw [if_pos cut, if_pos cut]
      rfl
    · rw [if_neg (Nat.not_lt.mpr whole), if_neg (Nat.not_lt.mpr whole)]
      rfl

/-- The walk reads every well-formed packet as the grammar does, and drops it if cut inside its head. -/
theorem parse_eq_expected (incoming : Bool) :
    parse p.bytes incoming = .ok (some (p.expected incoming)) ∧
      ∀ n < p.head.length, parse (p.bytes.take n) incoming = .ok none := by
  constructor
  · have whole := p.parse_take incoming p.bytes.length
    rwa [List.take_length, if_neg (by simp [bytes])] at whole
  · intro n short
    rw [p.parse_take, if_pos short]

end Ipv6Packet

end Nebula.Listener
