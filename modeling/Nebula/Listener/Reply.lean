import Nebula.Listener.ForeignHeaders
import Nebula.Listener.ParseSafety

/-! # A reply has the conntrack key of the packet it answers

A reply is the packet with the two addresses exchanged, and with them the two ports or the ICMP echo
type. `parse` reads an IPv4 packet's layer-4 part in four ways and leaves the IPv6 walk in five; each
is described together with the bytes it was read from, so that the reply's can be given from the
packet's. The walk over the reply steps over the same headers, none of whose bytes was exchanged.
-/

namespace Nebula.Listener

open Rust

/-! ## Replies -/

/-- Exchange the two neighbouring fields of `width` bytes at `start`. -/
def exchange (raw : Bytes) (start width : ℕ) : Bytes :=
  raw.take start ++ ((raw.drop (start + width)).take width ++
    ((raw.drop start).take width ++ raw.drop (start + 2 * width)))

def exchangeAddresses (raw : Bytes) : Bytes :=
  match raw.head? with
  | none => raw
  | some first =>
    match first >>> 4 with
    | 4 => exchange raw 12 4
    | 6 => exchange raw 8 16
    | _ => raw

/-- Where the transport header is: behind the IPv4 header with its options, or where the IPv6 walk stops. -/
inductive TransportAt (raw : Bytes) : ℕ → Prop
  | ipv4 (first : UInt8) (head : raw.head? = some first) (version : first >>> 4 = 4) :
      TransportAt raw ((first &&& 0x0f).toNat * 4)
  | ipv6 (first : UInt8) (head : raw.head? = some first) (version : first >>> 4 = 6) (src dst : IpAddr)
      (visited : List Cursor) (t : Cursor) (turns : (headerWalk raw src dst).Turns .start visited t)
      (number : UInt8) (named : raw[t.protoAt]? = some number)
      (transport : number = nhTcp ∨ number = nhUdp ∨ number = nhIcmpv6) : TransportAt raw t.offset

/-- Between an ICMP echo request's type and its reply's. -/
inductive EchoSwitch : UInt8 → UInt8 → Prop
  | answer : EchoSwitch 8 0
  | ask : EchoSwitch 0 8
  | answerV6 : EchoSwitch 128 129
  | askV6 : EchoSwitch 129 128

def HasPorts (p : Packet) : Prop := p.fragment = false ∧ (p.protocol = .tcp ∨ p.protocol = .udp)

/-- The byte strings that answer `raw`, which was parsed as `p`. -/
inductive Reply (raw : Bytes) (p : Packet) : Bytes → Prop
  | plain (portless : ¬ HasPorts p) : Reply raw p (exchangeAddresses raw)
  | ports (ported : HasPorts p) (offset : ℕ) (there : TransportAt raw offset) :
      Reply raw p (exchange (exchangeAddresses raw) offset 2)
  | echo (whole : p.fragment = false) (icmp : p.protocol.isIcmp = true) (offset : ℕ)
      (there : TransportAt raw offset) (kind kind' : UInt8) (asked : raw[offset]? = some kind)
      (switch : EchoSwitch kind kind') : Reply raw p ((exchangeAddresses raw).set offset kind')

/-! ## Bytes of a reply -/

section Bytes

variable {raw raw' : Bytes} {start width : ℕ}

theorem length_exchange (fits : start + 2 * width ≤ raw.length) :
    (exchange raw start width).length = raw.length := by
  simp only [exchange, List.length_append, List.length_take, List.length_drop]
  omega

theorem getElem?_exchange (fits : start + 2 * width ≤ raw.length) (i : ℕ) :
    (exchange raw start width)[i]? =
      if i < start then raw[i]? else if i < start + width then raw[i + width]?
      else if i < start + 2 * width then raw[i - width]? else raw[i]? := by
  simp only [exchange, List.getElem?_append, List.length_take, List.length_drop, List.getElem?_take,
    List.getElem?_drop]
  have first : min start raw.length = start := by omega
  have second : min width (raw.length - (start + width)) = width := by omega
  have third : min width (raw.length - start) = width := by omega
  rw [first, second, third]
  split_ifs
  all_goals first | rfl | (congr 1; omega)

/-- Two neighbouring fields of `width` bytes at `start` have changed places. -/
structure Exchanged (raw raw' : Bytes) (start width : ℕ) : Prop where
  first : ∀ k < width, raw'[start + k]? = raw[start + width + k]?
  second : ∀ k < width, raw'[start + width + k]? = raw[start + k]?

theorem exchanged_exchange (fits : start + 2 * width ≤ raw.length) :
    Exchanged raw (exchange raw start width) start width := by
  constructor
  · intro k inside
    rw [getElem?_exchange fits, if_neg (by omega), if_pos (by omega)]
    congr 1
    omega
  · intro k inside
    rw [getElem?_exchange fits, if_neg (by omega), if_neg (by omega), if_pos (by omega)]
    congr 1
    omega

theorem exchange_outside (fits : start + 2 * width ≤ raw.length) {i : ℕ}
    (outside : i < start ∨ start + 2 * width ≤ i) : (exchange raw start width)[i]? = raw[i]? := by
  rw [getElem?_exchange fits]
  split_ifs
  all_goals first | rfl | omega

end Bytes

/-! ## Reads -/

section Reads

variable {raw raw' : Bytes}

theorem of_index {i : ℕ} {byte : UInt8} (read : index raw i = .ok byte) : raw[i]? = some byte := by
  unfold index at read
  split at read
  · next present =>
    cases read
    exact present
  · cases read

theorem index_congr {i j : ℕ} (same : raw'[i]? = raw[j]?) : index raw' i = index raw j := by
  rw [index, index, same]

theorem readU16_congr {i j : ℕ} (high : raw'[i]? = raw[j]?) (low : raw'[i + 1]? = raw[j + 1]?) :
    readU16 raw' i = readU16 raw j := by
  rw [readU16, readU16, index_congr high, index_congr low]

theorem readIpv4_congr {i j : ℕ} (same : ∀ k < 4, raw'[i + k]? = raw[j + k]?) :
    readIpv4 raw' i = readIpv4 raw j := by
  have head : index raw' i = index raw j := index_congr (same 0 (by decide))
  rw [readIpv4, readIpv4, head, index_congr (same 1 (by decide)), index_congr (same 2 (by decide)),
    index_congr (same 3 (by decide))]

theorem readIpv6_congr {i j : ℕ} (length : raw'.length = raw.length) (fits : i + 16 ≤ raw.length)
    (fits' : j + 16 ≤ raw.length) (same : ∀ k < 16, raw'[i + k]? = raw[j + k]?) :
    readIpv6 raw' i (i + 16) = readIpv6 raw j (j + 16) := by
  have octets : (raw'.take (i + 16)).drop i = (raw.take (j + 16)).drop j := by
    apply List.ext_getElem?
    intro k
    rw [List.getElem?_drop, List.getElem?_drop, List.getElem?_take, List.getElem?_take]
    by_cases inside : k < 16
    · rw [if_pos (by omega), if_pos (by omega), same k inside]
    · rw [if_neg (by omega), if_neg (by omega)]
  rw [readIpv6, readIpv6, slice_eq_ok (by omega) (by omega), slice_eq_ok (by omega) fits', octets]

/-- Ports are read two bytes apart where both are there. -/
theorem readPorts_drop {offset : ℕ} (fits : offset + 4 ≤ raw.length) :
    readPorts (raw.drop offset) = (do return (← readU16 raw offset, ← readU16 raw (offset + 2))) := by
  have enough : ¬ (raw.drop offset).length < 4 := by
    rw [List.length_drop]
    omega
  have shifted (i : ℕ) : readU16 (raw.drop offset) i = readU16 raw (offset + i) :=
    readU16_congr List.getElem?_drop (by rw [List.getElem?_drop, Nat.add_assoc])
  rw [readPorts, if_neg enough, shifted, shifted]
  rfl

end Reads

/-! ## What a 5-tuple was read from -/

/-- The 5-tuple of the other direction. -/
def FiveTuple.reply (t : FiveTuple) : FiveTuple :=
  { t with src := t.dst, dst := t.src, srcPort := t.dstPort, dstPort := t.srcPort }

theorem FiveTuple.orient_reply (t : FiveTuple) (incoming : Bool) :
    t.reply.orient (!incoming) = t.orient incoming := by
  cases incoming <;> rfl

section Sources

variable (raw : Bytes) (src dst : IpAddr) (offset : ℕ)

/-- What the layer-4 part of an IPv4 packet was found to be, with the bytes that say so. -/
inductive Ipv4Body (protocol : Protocol) (fragOffset : UInt16) : FiveTuple → Prop
  | laterFragment (later : fragOffset ≠ 0) : Ipv4Body protocol fragOffset
      { src, dst, protocol, srcPort := 0, dstPort := 0, icmpIdentifier := none, fragment := true }
  | icmp (first : fragOffset = 0) (icmp : protocol = .icmp) (fits : offset + 6 ≤ raw.length) (id : UInt16)
      (read : readU16 raw (offset + 4) = .ok id) : Ipv4Body protocol fragOffset
      { src, dst, protocol, srcPort := 0, dstPort := 0, icmpIdentifier := some id, fragment := false }
  | ports (first : fragOffset = 0) (transport : protocol = .tcp ∨ protocol = .udp)
      (fits : offset + 4 ≤ raw.length) (srcPort dstPort : UInt16) (readSrc : readU16 raw offset = .ok srcPort)
      (readDst : readU16 raw (offset + 2) = .ok dstPort) : Ipv4Body protocol fragOffset
      { src, dst, protocol, srcPort, dstPort, icmpIdentifier := none, fragment := false }
  | other (first : fragOffset = 0) (other : protocol ≠ .icmp ∧ ¬ (protocol = .tcp ∨ protocol = .udp))
      (fits : offset + 4 ≤ raw.length) : Ipv4Body protocol fragOffset
      { src, dst, protocol, srcPort := 0, dstPort := 0, icmpIdentifier := none, fragment := false }

/-- Where the IPv6 walk ended at the header called `number`, with the bytes that say so. -/
inductive Ipv6End : (number : UInt8) → FiveTuple → Prop
  | sealed_ {number : UInt8} (ended : number = nhEsp ∨ number = nhNoNext) : Ipv6End number
      { src, dst, protocol := .ofNumber number, srcPort := 0, dstPort := 0, icmpIdentifier := none,
        fragment := false }
  | echo (fits : offset + 6 ≤ raw.length) (kind : UInt8) (type : raw[offset]? = some kind)
      (echo : kind = 128 ∨ kind = 129) (id : UInt16) (read : readU16 raw (offset + 4) = .ok id) :
      Ipv6End nhIcmpv6
      { src, dst, protocol := .icmpV6, srcPort := 0, dstPort := 0, icmpIdentifier := some id, fragment := false }
  | icmp (fits : offset + 6 ≤ raw.length) (kind : UInt8) (type : raw[offset]? = some kind)
      (other : ¬ (kind = 128 ∨ kind = 129)) : Ipv6End nhIcmpv6
      { src, dst, protocol := .icmpV6, srcPort := 0, dstPort := 0, icmpIdentifier := none, fragment := false }
  | ports {number : UInt8} (transport : number = nhTcp ∨ number = nhUdp) (fits : offset + 4 ≤ raw.length)
      (srcPort dstPort : UInt16) (readSrc : readU16 raw offset = .ok srcPort)
      (readDst : readU16 raw (offset + 2) = .ok dstPort) : Ipv6End number
      { src, dst, protocol := .ofNumber number, srcPort, dstPort, icmpIdentifier := none, fragment := false }
  | laterFragment (fits : offset + 8 ≤ raw.length) (word : UInt16) (read : readU16 raw (offset + 2) = .ok word)
      (later : word &&& ~~~ 0x7 ≠ 0) (next : UInt8) (name : raw[offset]? = some next) : Ipv6End nhFragment
      { src, dst, protocol := .ofNumber next, srcPort := 0, dstPort := 0, icmpIdentifier := none,
        fragment := true }

end Sources

section Exact

variable {raw : Bytes} {src dst : IpAddr} {offset : ℕ}

theorem parseIpv4Body_iff {protocol : Protocol} {fragOffset : UInt16} {t : FiveTuple}
    (inside : offset ≤ raw.length) :
    parseIpv4Body raw offset src dst protocol fragOffset = .ok (some t) ↔
      Ipv4Body raw src dst offset protocol fragOffset t := by
  constructor
  · intro found
    unfold parseIpv4Body at found
    by_cases first : fragOffset = 0
    · rw [if_pos first] at found
      by_cases short : raw.length < offset + if protocol = .icmp then 6 else 4
      · rw [if_pos short] at found
        cases found
      rw [if_neg short] at found
      by_cases ports : protocol = .tcp ∨ protocol = .udp
      · have plain : protocol ≠ .icmp := by rintro rfl; simp at ports
        rw [if_neg plain] at short
        have fits : offset + 4 ≤ raw.length := by omega
        simp only [if_pos ports, if_neg plain, sliceFrom_eq_ok inside] at found
        obtain ⟨l4, sliced, found⟩ := bind_eq_ok.mp found
        cases sliced
        rw [readPorts_drop fits] at found
        obtain ⟨⟨srcPort, dstPort⟩, read, found⟩ := bind_eq_ok.mp found
        obtain ⟨srcPort', readSrc, read⟩ := bind_eq_ok.mp read
        obtain ⟨dstPort', readDst, read⟩ := bind_eq_ok.mp read
        cases read
        cases found
        exact .ports first ports fits srcPort dstPort readSrc readDst
      · simp only [if_neg ports] at found
        obtain ⟨⟨srcPort, dstPort⟩, zero, found⟩ := bind_eq_ok.mp found
        cases zero
        dsimp only at found
        split_ifs at short found with icmp
        · obtain ⟨id, read, found⟩ := bind_eq_ok.mp found
          obtain ⟨word, read', rfl⟩ := map_eq_ok.mp read
          cases found
          exact .icmp first icmp (by omega) word read'
        · cases found
          exact .other first ⟨icmp, ports⟩ (by omega)
    · rw [if_neg first] at found
      cases found
      exact .laterFragment first
  · intro body
    cases body with
    | laterFragment later => rw [parseIpv4Body, if_neg later]
    | icmp first icmp fits id read =>
      subst icmp
      simp [parseIpv4Body, first, Nat.not_lt.mpr fits, read, bind, Except.bind, pure, Except.pure]
    | ports first transport fits srcPort dstPort readSrc readDst =>
      have plain : protocol ≠ .icmp := by rintro rfl; simp at transport
      simp [parseIpv4Body, first, plain, transport, Nat.not_lt.mpr fits, sliceFrom_eq_ok inside,
        readPorts_drop fits, readSrc, readDst, bind, Except.bind, pure, Except.pure]
    | other first other fits =>
      simp [parseIpv4Body, first, other.1, other.2, Nat.not_lt.mpr fits, bind, Except.bind, pure, Except.pure]

/-- The turn that leaves the walk with a 5-tuple, and what it read. -/
theorem headerTurn_done_iff {c : Cursor} {t : FiveTuple} :
    headerTurn raw src dst c = .done (.ok (some t)) ↔
      ∃ number, raw[c.protoAt]? = some number ∧ Ipv6End raw src dst c.offset number t := by
  constructor
  · intro turn
    unfold headerTurn at turn
    rcases named : raw[c.protoAt]? with _ | number
    · simp [named] at turn
    refine ⟨number, rfl, ?_⟩
    simp only [named] at turn
    split_ifs at turn with ended icmp short ports short fragment short auth
    · cases turn
      exact .sealed_ ended
    · cases turn
    · subst icmp
      obtain ⟨kind, type, rest⟩ := bind_eq_ok.mp (Flow.done.inj turn)
      split_ifs at rest with echo
      · obtain ⟨id, read, rest⟩ := bind_eq_ok.mp rest
        obtain ⟨word, read', rfl⟩ := map_eq_ok.mp read
        cases rest
        exact .echo (by omega) kind (of_index type) echo word read'
      · cases rest
        exact .icmp (by omega) kind (of_index type) echo
    · cases turn
    · have fits : c.offset + 4 ≤ raw.length := by omega
      rw [sliceFrom_eq_ok (by omega)] at turn
      obtain ⟨l4, sliced, rest⟩ := bind_eq_ok.mp (Flow.done.inj turn)
      cases sliced
      rw [readPorts_drop fits] at rest
      obtain ⟨⟨srcPort, dstPort⟩, read, rest⟩ := bind_eq_ok.mp rest
      obtain ⟨srcPort', readSrc, read⟩ := bind_eq_ok.mp read
      obtain ⟨dstPort', readDst, read⟩ := bind_eq_ok.mp read
      cases read
      cases rest
      exact .ports ports fits srcPort dstPort readSrc readDst
    · cases turn
    · subst fragment
      have fits : c.offset + 8 ≤ raw.length := by omega
      obtain ⟨word, read⟩ := returns_readU16 (show c.offset + 2 + 2 ≤ raw.length by omega)
      obtain ⟨name, next⟩ := returns_index (show c.offset < raw.length by omega)
      simp only [read, next, bind, Except.bind] at turn
      split_ifs at turn with first
      · cases turn
      · cases turn
        exact .laterFragment fits word read first name (of_index next)
    · split at turn <;> cases turn
    · split at turn <;> cases turn
  · rintro ⟨number, named, ending⟩
    cases ending with
    | sealed_ ended => simp only [headerTurn, named, if_pos ended]
    | echo fits kind type echo id read =>
      simp [headerTurn, named, Nat.not_lt.mpr fits, index_eq_ok type, echo, read, bind, Except.bind,
        Protocol.ofNumber]
    | icmp fits kind type other =>
      simp [headerTurn, named, Nat.not_lt.mpr fits, index_eq_ok type, other, bind, Except.bind,
        Protocol.ofNumber]
    | ports transport fits srcPort dstPort readSrc readDst =>
      have inside : c.offset ≤ raw.length := by omega
      rcases transport with rfl | rfl <;>
        simp [headerTurn, named, Nat.not_lt.mpr fits, sliceFrom_eq_ok inside, readPorts_drop fits, readSrc, readDst,
          bind, Except.bind, pure, Except.pure]
    | laterFragment fits word read later next name =>
      simp [headerTurn, named, Nat.not_lt.mpr fits, read, later, index_eq_ok name, bind, Except.bind, pure,
        Except.pure]

end Exact

/-! ## The layer-4 part of a reply -/

/-- How the reply's bytes from the transport header on relate to the packet's. -/
inductive Answered (raw raw' : Bytes) (offset : ℕ) (t : FiveTuple) : Prop
  | plain (portless : t.fragment = true ∨ ¬ (t.protocol = .tcp ∨ t.protocol = .udp))
      (same : ∀ i, offset ≤ i → raw'[i]? = raw[i]?)
  | ports (whole : t.fragment = false) (transport : t.protocol = .tcp ∨ t.protocol = .udp)
      (moved : Exchanged raw raw' offset 2)
  | echo (whole : t.fragment = false) (icmp : t.protocol.isIcmp = true) (kind kind' : UInt8)
      (switch : EchoSwitch kind kind') (asked : raw[offset]? = some kind) (answered : raw'[offset]? = some kind')
      (same : ∀ i, offset < i → raw'[i]? = raw[i]?)

section Answer

variable {raw raw' : Bytes} {src dst : IpAddr} {offset : ℕ} {t : FiveTuple}

theorem Exchanged.readU16_first (moved : Exchanged raw raw' offset 2) :
    readU16 raw' offset = readU16 raw (offset + 2) :=
  readU16_congr (moved.first 0 (by decide)) (moved.first 1 (by decide))

theorem Exchanged.readU16_second (moved : Exchanged raw raw' offset 2) :
    readU16 raw' (offset + 2) = readU16 raw offset :=
  readU16_congr (moved.second 0 (by decide)) (moved.second 1 (by decide))

theorem not_ports_of_icmp {protocol : Protocol} (icmp : protocol.isIcmp = true) :
    ¬ (protocol = .tcp ∨ protocol = .udp) := by
  rintro (rfl | rfl) <;> cases icmp

/-- The identifier stands behind the type. -/
theorem Answered.readIdentifier (answer : Answered raw raw' offset t) (icmp : t.protocol.isIcmp = true) :
    readU16 raw' (offset + 4) = readU16 raw (offset + 4) := by
  cases answer with
  | plain portless same => exact readU16_congr (same _ (by omega)) (same _ (by omega))
  | ports whole transport moved => exact absurd transport (not_ports_of_icmp icmp)
  | echo whole icmp kind kind' switch asked answered same =>
    exact readU16_congr (same _ (by omega)) (same _ (by omega))

/-- A packet with ports is answered by exchanging them. -/
theorem Answered.moved (answer : Answered raw raw' offset t) (whole : t.fragment = false)
    (transport : t.protocol = .tcp ∨ t.protocol = .udp) : Exchanged raw raw' offset 2 := by
  cases answer with
  | plain portless same =>
    rcases portless with later | portless
    · cases whole.symm.trans later
    · exact absurd transport portless
  | ports _ _ moved => exact moved
  | echo _ icmp => exact absurd transport (not_ports_of_icmp icmp)

/-- Nothing but the addresses of a later fragment is exchanged. -/
theorem Answered.same_of_fragment (answer : Answered raw raw' offset t) (later : t.fragment = true) :
    ∀ i, offset ≤ i → raw'[i]? = raw[i]? := by
  cases answer with
  | plain _ same => exact same
  | ports whole => cases whole.symm.trans later
  | echo whole => cases whole.symm.trans later

theorem EchoSwitch.isV6 {kind kind' : UInt8} (switch : EchoSwitch kind kind') :
    (kind' = 128 ∨ kind' = 129) ↔ (kind = 128 ∨ kind = 129) := by
  cases switch <;> decide

/-- A type of ICMPv6 stays an echo's, or another's. -/
theorem Answered.type (answer : Answered raw raw' offset t) (icmp : t.protocol.isIcmp = true) {kind : UInt8}
    (type : raw[offset]? = some kind) :
    ∃ kind', raw'[offset]? = some kind' ∧ ((kind' = 128 ∨ kind' = 129) ↔ (kind = 128 ∨ kind = 129)) := by
  cases answer with
  | plain _ same => exact ⟨kind, (same offset (le_refl _)).trans type, Iff.rfl⟩
  | ports _ transport => exact absurd transport (not_ports_of_icmp icmp)
  | echo _ _ asked answer switch was is =>
    obtain rfl := Option.some.inj (type.symm.trans was)
    exact ⟨answer, is, switch.isV6⟩

theorem Ipv4Body.reply {protocol : Protocol} {fragOffset : UInt16}
    (body : Ipv4Body raw src dst offset protocol fragOffset t) (length : raw'.length = raw.length)
    (answer : Answered raw raw' offset t) : Ipv4Body raw' dst src offset protocol fragOffset t.reply := by
  cases body with
  | laterFragment later => exact .laterFragment later
  | icmp first icmp fits id read =>
    exact .icmp first icmp (length ▸ fits) id ((answer.readIdentifier (icmp ▸ rfl)).trans read)
  | ports first transport fits srcPort dstPort readSrc readDst =>
    have moved := answer.moved rfl transport
    exact .ports first transport (length ▸ fits) dstPort srcPort (moved.readU16_first.trans readDst)
      (moved.readU16_second.trans readSrc)
  | other first other fits => exact .other first other (length ▸ fits)

theorem Ipv6End.reply {number : UInt8} (ending : Ipv6End raw src dst offset number t)
    (length : raw'.length = raw.length) (answer : Answered raw raw' offset t) :
    Ipv6End raw' dst src offset number t.reply := by
  cases ending with
  | sealed_ ended => exact .sealed_ ended
  | echo fits kind type echo id read =>
    obtain ⟨kind', type', same⟩ := answer.type rfl type
    exact .echo (length ▸ fits) kind' type' (same.mpr echo) id ((answer.readIdentifier rfl).trans read)
  | icmp fits kind type other =>
    obtain ⟨kind', type', same⟩ := answer.type rfl type
    exact .icmp (length ▸ fits) kind' type' (mt same.mp other)
  | ports transport fits srcPort dstPort readSrc readDst =>
    have moved := answer.moved rfl (by rcases transport with rfl | rfl <;> simp [Protocol.ofNumber])
    exact .ports transport (length ▸ fits) dstPort srcPort (moved.readU16_first.trans readDst)
      (moved.readU16_second.trans readSrc)
  | laterFragment fits word read later next name =>
    have same := answer.same_of_fragment rfl
    have word_same := readU16_congr (same (offset + 2) (by omega)) (same (offset + 2 + 1) (by omega))
    exact .laterFragment (length ▸ fits) word (word_same.trans read) later next
      ((same offset (le_refl _)).trans name)

end Answer

/-! ## The walk over a reply -/

section Walk

variable {raw raw' : Bytes}

theorem Stride.congr {offset size : ℕ} {number : UInt8} (stride : Stride raw offset number size)
    (length : raw'.length = raw.length) (same : ∀ i, offset ≤ i → i < offset + 8 → raw'[i]? = raw[i]?) :
    Stride raw' offset number size := by
  cases stride with
  | fragment fits read first =>
    have word_same := readU16_congr (same (offset + 2) (by omega) (by omega))
      (same (offset + 2 + 1) (by omega) (by omega))
    exact .fragment (length ▸ fits) (word_same.trans read) first
  | auth read => exact .auth ((same _ (by omega) (by omega)).trans read)
  | standard unnamed read => exact .standard unnamed ((same _ (by omega) (by omega)).trans read)

/-- A walk depends on the bytes in front of where it came to only, and on no address. -/
theorem turns_congr {src dst : IpAddr} {s t : Cursor} {visited : List Cursor}
    (turns : (headerWalk raw src dst).Turns s visited t) (length : raw'.length = raw.length)
    (named : raw'[s.protoAt]? = raw[s.protoAt]?)
    (same : ∀ i, s.offset ≤ i → i < t.offset → raw'[i]? = raw[i]?) (src' dst' : IpAddr) :
    (headerWalk raw' src' dst').Turns s visited t ∧ raw'[t.protoAt]? = raw[t.protoAt]? := by
  induction turns with
  | nil s => exact ⟨.nil s, named⟩
  | @cons s mid t visited turn rest ih =>
    obtain ⟨number, size, forward, name, stride, rfl⟩ := headerTurn_next turn
    have eight := stride.eight_le
    obtain ⟨-, far, -, -, -⟩ := turns_forward rest
    change s.offset + size ≤ t.offset at far
    have stride' := stride.congr length fun i behind before => same i behind (by omega)
    obtain ⟨rest', named'⟩ := ih (same s.offset (le_refl _) (by omega))
      fun i behind before => same i (le_trans (Nat.le_add_right _ _) behind) before
    exact ⟨.cons (headerTurn_stride (named.trans name) stride' forward) rest', named'⟩

end Walk

/-! ## Whole packets -/

section Whole

variable {raw raw' : Bytes} {t : FiveTuple}

theorem parseIpv4_iff :
    parseIpv4 raw = .ok (some t) ↔
      ∃ first number word src dst, 20 ≤ raw.length ∧ index raw 0 = .ok first ∧
        20 ≤ (first &&& 0x0f).toNat * 4 ∧ (first &&& 0x0f).toNat * 4 ≤ raw.length ∧ index raw 9 = .ok number ∧
        readU16 raw 6 = .ok word ∧ readIpv4 raw 12 = .ok src ∧ readIpv4 raw 16 = .ok dst ∧
        Ipv4Body raw src dst ((first &&& 0x0f).toNat * 4) (.ofNumber number) (word &&& 0x1fff) t := by
  unfold parseIpv4
  by_cases short : raw.length < 20
  · rw [if_pos short]
    constructor
    · rintro ⟨⟩
    · rintro ⟨_, _, _, _, _, minimum, _⟩
      omega
  rw [if_neg short, bind_eq_ok]
  constructor
  · rintro ⟨first, head, found⟩
    dsimp only at found
    split_ifs at found with outside
    · cases found
    obtain ⟨number, named, found⟩ := bind_eq_ok.mp found
    obtain ⟨word, read, found⟩ := bind_eq_ok.mp found
    obtain ⟨src, atSrc, found⟩ := bind_eq_ok.mp found
    obtain ⟨dst, atDst, found⟩ := bind_eq_ok.mp found
    exact ⟨first, number, word, src, dst, by omega, head, by omega, by omega, named, read, atSrc, atDst,
      (parseIpv4Body_iff (by omega)).mp found⟩
  · rintro ⟨first, number, word, src, dst, minimum, head, least, inside, named, read, atSrc, atDst, body⟩
    refine ⟨first, head, ?_⟩
    dsimp only
    rw [if_neg (by omega), named, read, atSrc, atDst]
    exact (parseIpv4Body_iff inside).mpr body

theorem parseIpv6_iff :
    parseIpv6 raw = .ok (some t) ↔
      ∃ src dst visited c number, 40 ≤ raw.length ∧ readIpv6 raw 8 24 = .ok src ∧ readIpv6 raw 24 40 = .ok dst ∧
        (headerWalk raw src dst).Turns .start visited c ∧ raw[c.protoAt]? = some number ∧
        Ipv6End raw src dst c.offset number t := by
  unfold parseIpv6
  by_cases short : raw.length < 40
  · rw [if_pos short]
    constructor
    · rintro ⟨⟩
    · rintro ⟨_, _, _, _, _, minimum, _⟩
      omega
  rw [if_neg short, bind_eq_ok]
  constructor
  · rintro ⟨src, atSrc, found⟩
    obtain ⟨dst, atDst, found⟩ := bind_eq_ok.mp found
    obtain ⟨visited, c, turns, left⟩ := (headerWalk raw src dst).exists_turns .start
    rw [found] at left
    obtain ⟨number, named, ending⟩ := headerTurn_done_iff.mp left
    exact ⟨src, dst, visited, c, number, by omega, atSrc, atDst, turns, named, ending⟩
  · rintro ⟨src, dst, visited, c, number, minimum, atSrc, atDst, turns, named, ending⟩
    refine ⟨src, atSrc, bind_eq_ok.mpr ⟨dst, atDst, ?_⟩⟩
    rw [turns.run_eq]
    exact Loop.run_done (headerTurn_done_iff.mpr ⟨number, named, ending⟩)

/-- The bytes of a reply by those of the packet with its addresses exchanged. -/
theorem Reply.bytes {p : Packet} {offset : ℕ} (reply : Reply raw p raw') (fragment : p.fragment = t.fragment)
    (protocol : p.protocol = t.protocol) (only : ∀ other, TransportAt raw other → other = offset)
    (length : (exchangeAddresses raw).length = raw.length)
    (behind : ∀ i, offset ≤ i → (exchangeAddresses raw)[i]? = raw[i]?)
    (fits : HasPorts p → offset + 4 ≤ raw.length) :
    raw'.length = raw.length ∧ (∀ i < offset, raw'[i]? = (exchangeAddresses raw)[i]?) ∧
      Answered raw raw' offset t := by
  cases reply with
  | plain portless =>
    refine ⟨length, fun _ _ => rfl, .plain ?_ behind⟩
    rw [HasPorts, fragment, protocol] at portless
    by_cases later : t.fragment = true
    · exact .inl later
    · exact .inr fun ports => portless ⟨(Bool.not_eq_true _).mp later, ports⟩
  | ports ported other there =>
    obtain rfl := only other there
    have room : other + 2 * 2 ≤ (exchangeAddresses raw).length := length ▸ fits ported
    have moved := exchanged_exchange room
    refine ⟨(length_exchange room).trans length, fun i before => exchange_outside room (.inl before), ?_⟩
    rw [HasPorts, fragment, protocol] at ported
    apply Answered.ports ported.1 ported.2
    constructor
    · intro k inside
      rw [moved.first k inside, behind _ (by omega)]
    · intro k inside
      rw [moved.second k inside, behind _ (by omega)]
  | echo whole icmp other there kind kind' asked switch =>
    obtain rfl := only other there
    have room : other < (exchangeAddresses raw).length := length ▸ (List.getElem?_eq_some_iff.mp asked).1
    refine ⟨List.length_set.trans length, fun i before => List.getElem?_set_ne (by omega), ?_⟩
    refine .echo (fragment ▸ whole) (protocol ▸ icmp) kind kind' switch asked (List.getElem?_set_self room) ?_
    intro i past
    rw [List.getElem?_set_ne (by omega), behind i (by omega)]

theorem parseIpv4_reply {p : Packet} (version : ∃ first, raw.head? = some first ∧ first >>> 4 = 4)
    (found : parseIpv4 raw = .ok (some t)) (reply : Reply raw p raw') (fragment : p.fragment = t.fragment)
    (protocol : p.protocol = t.protocol) : raw'.head? = raw.head? ∧ parseIpv4 raw' = .ok (some t.reply) := by
  obtain ⟨first, number, word, src, dst, minimum, head, least, inside, named, read, atSrc, atDst, body⟩ :=
    parseIpv4_iff.mp found
  obtain ⟨first', head', four⟩ := version
  obtain rfl : first' = first := by
    rw [List.head?_eq_getElem?, of_index head] at head'
    exact (Option.some.inj head').symm
  have exchanged : exchangeAddresses raw = exchange raw 12 4 := by
    simp only [exchangeAddresses, head', four]
  have room : 12 + 2 * 4 ≤ raw.length := minimum
  have moved := exchanged_exchange room
  have only (other : ℕ) (there : TransportAt raw other) : other = (first' &&& 0x0f).toNat * 4 := by
    cases there with
    | ipv4 first head =>
      obtain rfl := Option.some.inj (head.symm.trans head')
      rfl
    | ipv6 first head six =>
      obtain rfl := Option.some.inj (head.symm.trans head')
      cases six.symm.trans four
  have fits (ported : HasPorts p) : (first' &&& 0x0f).toNat * 4 + 4 ≤ raw.length := by
    rw [HasPorts, fragment, protocol] at ported
    cases body with
    | laterFragment => cases ported.1
    | icmp _ icmp => exact absurd ported.2 (not_ports_of_icmp (icmp ▸ rfl))
    | ports _ _ fits => exact fits
    | other _ other => exact absurd ported.2 other.2
  obtain ⟨length, front, answer⟩ := reply.bytes fragment protocol only (by rw [exchanged, length_exchange room])
    (fun i past => by rw [exchanged, exchange_outside room (by omega)]) fits
  rw [exchanged] at front
  have same (i : ℕ) (before : i < 12) : raw'[i]? = raw[i]? := by
    rw [front i (by omega), exchange_outside room (by omega)]
  refine ⟨?_, ?_⟩
  · rw [List.head?_eq_getElem?, List.head?_eq_getElem?, same 0 (by decide)]
  apply parseIpv4_iff.mpr
  refine ⟨first', number, word, dst, src, length ▸ minimum, ?_, least, length ▸ inside, ?_, ?_, ?_, ?_,
    body.reply length answer⟩
  · rw [index_congr (same 0 (by decide)), head]
  · rw [index_congr (same 9 (by decide)), named]
  · rw [readU16_congr (same 6 (by decide)) (same 7 (by decide)), read]
  · rw [← atDst]
    apply readIpv4_congr
    intro k four
    rw [front _ (by omega), moved.first k four]
  · rw [← atSrc]
    apply readIpv4_congr
    intro k four
    rw [front _ (by omega)]
    exact moved.second k four

theorem parseIpv6_reply {p : Packet} (version : IsVersion6 raw) (found : parseIpv6 raw = .ok (some t))
    (reply : Reply raw p raw') (fragment : p.fragment = t.fragment) (protocol : p.protocol = t.protocol) :
    raw'.head? = raw.head? ∧ parseIpv6 raw' = .ok (some t.reply) := by
  obtain ⟨src, dst, visited, c, number, minimum, atSrc, atDst, turns, named, ending⟩ := parseIpv6_iff.mp found
  obtain ⟨first, head, six⟩ := version
  have exchanged : exchangeAddresses raw = exchange raw 8 16 := by
    simp only [exchangeAddresses, head, six]
  have room : 8 + 2 * 16 ≤ raw.length := minimum
  have moved := exchanged_exchange room
  obtain ⟨-, far, -, -, -⟩ := turns_forward turns
  change 40 ≤ c.offset at far
  have only (other : ℕ) (there : TransportAt raw other) : other = c.offset := by
    cases there with
    | ipv4 first' head' four =>
      obtain rfl := Option.some.inj (head'.symm.trans head)
      cases four.symm.trans six
    | ipv6 first' head' six' src' dst' visited' t' turns' number' named' transport =>
      obtain ⟨here, -⟩ := turns_congr turns' rfl rfl (fun _ _ _ => rfl) src dst
      have upper : number' ∈ upperLayerNumbers := by
        rcases transport with rfl | rfl | rfl <;> decide
      obtain ⟨result, left⟩ := headerTurn_upperLayer upper named'
      rw [here.unique_of_done left turns (headerTurn_done_iff.mpr ⟨number, named, ending⟩)]
  have fits (ported : HasPorts p) : c.offset + 4 ≤ raw.length := by
    rw [HasPorts, fragment, protocol] at ported
    cases ending with
    | sealed_ ended => rcases ended with rfl | rfl <;> simp [Protocol.ofNumber] at ported
    | echo => cases ported.2 <;> contradiction
    | icmp => cases ported.2 <;> contradiction
    | ports _ fits => exact fits
    | laterFragment => cases ported.1
  obtain ⟨length, front, answer⟩ := reply.bytes fragment protocol only (by rw [exchanged, length_exchange room])
    (fun i past => by rw [exchanged, exchange_outside room (by omega)]) fits
  rw [exchanged] at front
  have same (i : ℕ) (inside : i < c.offset) (outside : i < 8 ∨ 40 ≤ i) : raw'[i]? = raw[i]? := by
    rw [front i inside, exchange_outside room (by omega)]
  obtain ⟨turns', named'⟩ := turns_congr turns length (same 6 (by omega) (by omega))
    (fun i behind before => same i before (.inr behind)) dst src
  refine ⟨?_, ?_⟩
  · rw [List.head?_eq_getElem?, List.head?_eq_getElem?, same 0 (by omega) (by omega)]
  apply parseIpv6_iff.mpr
  refine ⟨dst, src, visited, c, number, length ▸ minimum, ?_, ?_, turns', named'.trans named,
    ending.reply length answer⟩
  · rw [← atDst]
    apply readIpv6_congr length (by omega) minimum
    intro k inside
    rw [front _ (by omega), moved.first k inside]
  · rw [← atSrc]
    apply readIpv6_congr length minimum (by omega)
    intro k inside
    rw [front _ (by omega)]
    exact moved.second k inside

end Whole

/-- A packet with ports has a transport header to find them in. -/
theorem exists_transportAt {raw : Bytes} {incoming : Bool} {p : Packet}
    (found : parse raw incoming = .ok (some p)) (ported : HasPorts p) : ∃ offset, TransportAt raw offset := by
  unfold parse at found
  split at found
  · cases found
  next first head =>
    split at found
    next four => exact ⟨_, .ipv4 first head four⟩
    next six =>
      obtain ⟨result, read, same⟩ := bind_eq_ok.mp found
      obtain ⟨t, rfl, rfl⟩ := Option.map_eq_some_iff.mp (Except.ok.inj same)
      obtain ⟨src, dst, visited, c, number, -, -, -, turns, named, ending⟩ := parseIpv6_iff.mp read
      have transport : number = nhTcp ∨ number = nhUdp ∨ number = nhIcmpv6 := by
        cases ending with
        | sealed_ ended =>
          rcases ended with rfl | rfl <;> cases incoming <;>
            simp [HasPorts, FiveTuple.orient, Protocol.ofNumber] at ported
        | echo => exact .inr (.inr rfl)
        | icmp => exact .inr (.inr rfl)
        | ports transport => exact transport.imp_right .inl
        | laterFragment => cases incoming <;> cases ported.1
      exact ⟨_, .ipv6 first head six src dst visited c turns number named transport⟩
    · cases found

/-- Every reply of a packet has the packet's key in the other direction, and there is one. -/
theorem parse_reply (raw : Bytes) (incoming : Bool) (p : Packet) (found : parse raw incoming = .ok (some p)) :
    (∃ raw', Reply raw p raw') ∧ ∀ raw', Reply raw p raw' → parse raw' (!incoming) = .ok (some p) := by
  constructor
  · by_cases ported : HasPorts p
    · obtain ⟨offset, there⟩ := exists_transportAt found ported
      exact ⟨_, .ports ported offset there⟩
    · exact ⟨_, .plain ported⟩
  intro raw' reply
  unfold parse at found
  split at found
  · cases found
  next first head =>
    split at found
    next four =>
      obtain ⟨result, read, same⟩ := bind_eq_ok.mp found
      obtain ⟨t, rfl, rfl⟩ := Option.map_eq_some_iff.mp (Except.ok.inj same)
      obtain ⟨head', read'⟩ := parseIpv4_reply ⟨first, head, four⟩ read reply (by cases incoming <;> rfl)
        (by cases incoming <;> rfl)
      simp only [parse, head', head, four, read']
      exact congrArg (fun p => Except.ok (some p)) (t.orient_reply incoming)
    next six =>
      obtain ⟨result, read, same⟩ := bind_eq_ok.mp found
      obtain ⟨t, rfl, rfl⟩ := Option.map_eq_some_iff.mp (Except.ok.inj same)
      obtain ⟨head', read'⟩ := parseIpv6_reply ⟨first, head, six⟩ read reply (by cases incoming <;> rfl)
        (by cases incoming <;> rfl)
      simp only [parse, head', head, six, read']
      exact congrArg (fun p => Except.ok (some p)) (t.orient_reply incoming)
    · cases found

/-- A UDP packet from port 22 to port 80 behind a Hop-by-Hop header. -/
def udpBehindOptions : Bytes :=
  [0x60, 0, 0, 0, 0, 12, 0, 64] ++ List.replicate 16 0xfd ++ List.replicate 16 0xfe ++
    [17, 0, 0, 0, 0, 0, 0, 0, 0, 22, 0, 80]

def udpKey : Packet where
  localAddr := .v6 (.replicate 16 0xfe)
  remoteAddr := .v6 (.replicate 16 0xfd)
  localPort := 80
  remotePort := 22
  protocol := .udp
  fragment := false

theorem udpBehindOptions_ports : TransportAt udpBehindOptions 48 := by
  let addr : IpAddr := .v6 (.replicate 16 0)
  have turn : headerTurn udpBehindOptions addr addr .start = .next ⟨40, 48, by decide⟩ := by rfl
  exact .ipv6 0x60 rfl (by decide) addr addr _ ⟨40, 48, by decide⟩ (.cons turn (.nil _)) 17 rfl (by decide)

theorem udp_reply_has_key :
    parse udpBehindOptions true = .ok (some udpKey) ∧
      parse (exchange (exchange udpBehindOptions 8 16) 48 2) false = .ok (some udpKey) := by
  have found : parse udpBehindOptions true = .ok (some udpKey) := by decide +kernel
  exact ⟨found, (parse_reply udpBehindOptions true udpKey found).2 _
    (.ports ⟨rfl, .inr rfl⟩ 48 udpBehindOptions_ports)⟩

end Nebula.Listener
