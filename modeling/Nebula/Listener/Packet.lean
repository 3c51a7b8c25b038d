import Nebula.Firewall.Packet
import Nebula.Rust.Loop

/-! # Parsing an IP packet into the firewall's 5-tuple

`parse` of `nebula-listener/src/packet.rs`. Every `raw[i]` and `&raw[a..b]` of the source is a
checked access into `Exec`, every `raw.get(i)?` an optional one; lengths are computed in `usize`, which
no length of a buffer in memory can overflow here. The IPv6 walk is a loop over a cursor whose
`offset` is always past the byte that names the header there, so that each turn moves forward.
-/

namespace Nebula.Listener

open Rust

/-- The addressing fields of an IP header, before local and remote are assigned. -/
structure FiveTuple where
  src : IpAddr
  dst : IpAddr
  protocol : Protocol
  srcPort : UInt16
  dstPort : UInt16
  icmpIdentifier : Option UInt16
  fragment : Bool
deriving DecidableEq, Repr

def readU16 (raw : Bytes) (at_ : ℕ) : Exec UInt16 := do
  return u16FromBe (← index raw at_) (← index raw (at_ + 1))

theorem readU16_eq_ok {raw : Bytes} {i : ℕ} {high low : UInt8} (first : raw[i]? = some high)
    (second : raw[i + 1]? = some low) : readU16 raw i = .ok (u16FromBe high low) := by
  rw [readU16, index_eq_ok first, index_eq_ok second]
  rfl

def readPorts (l4 : Bytes) : Exec (UInt16 × UInt16) :=
  if l4.length < 4 then .ok (0, 0)
  else do return (← readU16 l4 0, ← readU16 l4 2)

/-- `Ipv4Addr::new(raw[i], raw[i + 1], raw[i + 2], raw[i + 3])`. -/
def readIpv4 (raw : Bytes) (i : ℕ) : Exec IpAddr := do
  return .v4 (.new (← index raw i) (← index raw (i + 1)) (← index raw (i + 2)) (← index raw (i + 3)))

/-- The 16 octets of `raw[start..stop]`. -/
def readIpv6 (raw : Bytes) (start stop : ℕ) : Exec IpAddr := do
  return .v6 (← Arr.copyFromSlice 16 (← slice raw start stop))

/-- The layer-4 part of `parse_ipv4`, from the end of the checked header on. -/
def parseIpv4Body (raw : Bytes) (ihl : ℕ) (src dst : IpAddr) (protocol : Protocol) (fragOffset : UInt16) :
    Exec (Option FiveTuple) :=
  if fragOffset = 0 then
    if raw.length < ihl + (if protocol = .icmp then 6 else 4) then .ok none
    else do
      let (srcPort, dstPort) ←
        if protocol = .tcp ∨ protocol = .udp then readPorts (← sliceFrom raw ihl) else .ok (0, 0)
      let icmpIdentifier ←
        if protocol = .icmp then some <$> readU16 raw (ihl + 4) else .ok none
      return some { src, dst, protocol, srcPort, dstPort, icmpIdentifier, fragment := false }
  else .ok (some { src, dst, protocol, srcPort := 0, dstPort := 0, icmpIdentifier := none, fragment := true })

def parseIpv4 (raw : Bytes) : Exec (Option FiveTuple) :=
  if raw.length < 20 then .ok none
  else do
    let ihl := ((← index raw 0) &&& 0x0f).toNat * 4
    if ihl < 20 ∨ raw.length < ihl then .ok none
    else
      let protocol := Protocol.ofNumber (← index raw 9)
      let fragOffset := (← readU16 raw 6) &&& 0x1fff
      let src ← readIpv4 raw 12
      let dst ← readIpv4 raw 16
      parseIpv4Body raw ihl src dst protocol fragOffset

@[simp] def nhTcp : UInt8 := 6
@[simp] def nhUdp : UInt8 := 17
@[simp] def nhFragment : UInt8 := 44
@[simp] def nhEsp : UInt8 := 50
@[simp] def nhAh : UInt8 := 51
@[simp] def nhIcmpv6 : UInt8 := 58
@[simp] def nhNoNext : UInt8 := 59

/-- `proto_at` is the byte naming the next header and `offset` where that header starts. -/
structure Cursor where
  protoAt : ℕ
  offset : ℕ
  lag : protoAt < offset
deriving DecidableEq, Repr

namespace Cursor

def start : Cursor := ⟨6, 40, by decide⟩

/-- `proto_at = offset; offset += advance`. -/
def advance (c : Cursor) (by_ : ℕ) (forward : 0 < by_) : Cursor := ⟨c.offset, c.offset + by_, by omega⟩

end Cursor

/-- One turn of the header walk of `parse_ipv6`. -/
def headerTurn (raw : Bytes) (src dst : IpAddr) (c : Cursor) : Flow Cursor (Exec (Option FiveTuple)) :=
  let terminal protocol srcPort dstPort icmpIdentifier fragment : Exec (Option FiveTuple) :=
    .ok (some { src, dst, protocol, srcPort, dstPort, icmpIdentifier, fragment })
  match raw[c.protoAt]? with
  | none => .done (.ok none)
  | some nextHeader =>
    let protocol := Protocol.ofNumber nextHeader
    if nextHeader = nhEsp ∨ nextHeader = nhNoNext then .done (terminal protocol 0 0 none false)
    else if nextHeader = nhIcmpv6 then
      .done (if raw.length < c.offset + 6 then .ok none
        else do
          let kind ← index raw c.offset
          let id ← if kind = 128 ∨ kind = 129 then some <$> readU16 raw (c.offset + 4) else .ok none
          terminal protocol 0 0 id false)
    else if nextHeader = nhTcp ∨ nextHeader = nhUdp then
      .done (if raw.length < c.offset + 4 then .ok none
        else do
          let (srcPort, dstPort) ← readPorts (← sliceFrom raw c.offset)
          terminal protocol srcPort dstPort none false)
    else if nextHeader = nhFragment then
      if raw.length < c.offset + 8 then .done (.ok none)
      else .ofExec do
        let fragOffset := (← readU16 raw (c.offset + 2)) &&& ~~~ 0x7
        if fragOffset = 0 then return .next (c.advance 8 (by decide))
        else return .done (terminal (.ofNumber (← index raw c.offset)) 0 0 none true)
    else if nextHeader = nhAh then
      match raw[c.offset + 1]? with
      | none => .done (.ok none)
      | some len => .next (c.advance ((len.toNat + 2) * 4) (by omega))
    else
      match raw[c.offset + 1]? with
      | none => .done (.ok none)
      | some len => .next (c.advance ((len.toNat + 1) * 8) (by omega))

/-- The numbers that have an arm of their own in the walk; every other one takes the default arm. -/
abbrev namedNumbers : List UInt8 := [nhEsp, nhNoNext, nhIcmpv6, nhTcp, nhUdp, nhFragment, nhAh]

/-- How far a turn that goes on steps over the header called `number`. -/
inductive Stride (raw : Bytes) (offset : ℕ) : (number : UInt8) → (size : ℕ) → Prop
  | fragment {word : UInt16} (fits : offset + 8 ≤ raw.length) (read : readU16 raw (offset + 2) = .ok word)
      (first : word &&& ~~~ 0x7 = 0) : Stride raw offset nhFragment 8
  | auth {len : UInt8} (read : raw[offset + 1]? = some len) : Stride raw offset nhAh ((len.toNat + 2) * 4)
  | standard {number len : UInt8} (unnamed : number ∉ namedNumbers) (read : raw[offset + 1]? = some len) :
      Stride raw offset number ((len.toNat + 1) * 8)

/-- A turn goes on only by stepping over the header at `offset`. -/
theorem headerTurn_next {raw : Bytes} {src dst : IpAddr} {c t : Cursor}
    (turn : headerTurn raw src dst c = .next t) :
    ∃ number size forward, raw[c.protoAt]? = some number ∧ Stride raw c.offset number size ∧
      t = c.advance size forward := by
  unfold headerTurn at turn
  split at turn
  next => cases turn
  next number present =>
    simp only at turn
    split_ifs at turn with ended icmp ports fragment short auth
    · subst fragment
      rcases read : readU16 raw (c.offset + 2) with cause | word
      · simp [read, bind, Except.bind, Flow.ofExec] at turn
      simp only [read, bind, Except.bind] at turn
      split_ifs at turn with first
      · cases turn
        exact ⟨_, _, _, present, .fragment (by omega) read first, rfl⟩
      · rcases next : index raw c.offset with cause | name <;>
          simp [next, pure, Except.pure, Flow.ofExec] at turn
    · subst auth
      split at turn
      next => cases turn
      next len read =>
        cases turn
        exact ⟨_, _, _, present, .auth read, rfl⟩
    · split at turn
      next => cases turn
      next len read =>
        cases turn
        refine ⟨_, _, _, present, .standard ?_ read, rfl⟩
        simp_all

/-- What a turn that stops with a 5-tuple found at the header called `number`. -/
inductive Landing (raw : Bytes) (src dst : IpAddr) (offset : ℕ) : (number : UInt8) → FiveTuple → Prop
  | ended {number : UInt8} (sealed_ : number = nhEsp ∨ number = nhNoNext) : Landing raw src dst offset number
      { src, dst, protocol := .ofNumber number, srcPort := 0, dstPort := 0, icmpIdentifier := none,
        fragment := false }
  | icmp (fits : offset + 6 ≤ raw.length) (id : Option UInt16) : Landing raw src dst offset nhIcmpv6
      { src, dst, protocol := .icmpV6, srcPort := 0, dstPort := 0, icmpIdentifier := id, fragment := false }
  | ports {number : UInt8} (transport : number = nhTcp ∨ number = nhUdp) (fits : offset + 4 ≤ raw.length)
      (srcPort dstPort : UInt16) : Landing raw src dst offset number
      { src, dst, protocol := .ofNumber number, srcPort, dstPort, icmpIdentifier := none, fragment := false }
  | laterFragment (next : UInt8) : Landing raw src dst offset nhFragment
      { src, dst, protocol := .ofNumber next, srcPort := 0, dstPort := 0, icmpIdentifier := none,
        fragment := true }

/-- A turn stops with a 5-tuple only at one of four kinds of header. -/
theorem headerTurn_done {raw : Bytes} {src dst : IpAddr} {c : Cursor} {t : FiveTuple}
    (turn : headerTurn raw src dst c = .done (.ok (some t))) :
    ∃ number, raw[c.protoAt]? = some number ∧ Landing raw src dst c.offset number t := by
  unfold headerTurn at turn
  rcases named : raw[c.protoAt]? with _ | number
  · simp [named] at turn
  refine ⟨number, rfl, ?_⟩
  simp only [named] at turn
  split_ifs at turn with ended icmp short ports short fragment short auth
  · cases turn
    exact .ended ended
  · cases turn
  · subst icmp
    obtain ⟨kind, -, rest⟩ := bind_eq_ok.mp (Flow.done.inj turn)
    split_ifs at rest
    all_goals
      obtain ⟨id, -, same⟩ := bind_eq_ok.mp rest
      cases same
      exact .icmp (Nat.not_lt.mp short) id
  · cases turn
  · obtain ⟨l4, -, rest⟩ := bind_eq_ok.mp (Flow.done.inj turn)
    obtain ⟨⟨srcPort, dstPort⟩, -, same⟩ := bind_eq_ok.mp rest
    cases same
    exact .ports ports (Nat.not_lt.mp short) srcPort dstPort
  · cases turn
  · subst fragment
    rcases read : readU16 raw (c.offset + 2) with cause | word
    · simp [read, bind, Except.bind, Flow.ofExec] at turn
    simp only [read, bind, Except.bind] at turn
    split_ifs at turn with first
    · cases turn
    · rcases next : index raw c.offset with cause | name
      · simp [next, Flow.ofExec] at turn
      · rw [next] at turn
        cases turn
        exact .laterFragment name
  · split at turn <;> cases turn
  · split at turn <;> cases turn

/-- Where a header can be stepped over, the turn does so. -/
theorem headerTurn_stride {raw : Bytes} {src dst : IpAddr} {c : Cursor} {number : UInt8} {size : ℕ}
    (named : raw[c.protoAt]? = some number) (stride : Stride raw c.offset number size) (forward : 0 < size) :
    headerTurn raw src dst c = .next (c.advance size forward) := by
  cases stride with
  | fragment fits read first =>
    simp [headerTurn, named, read, first, Nat.not_lt.mpr fits, bind, Except.bind, pure, Except.pure]
  | auth read => simp [headerTurn, named, read]
  | standard unnamed read =>
    simp at unnamed
    simp [headerTurn, named, read, unnamed]

/-- The `loop` of `parse_ipv6`: `offset` strictly increases, so the walk runs past the buffer. -/
def headerWalk (raw : Bytes) (src dst : IpAddr) : Loop Cursor (Exec (Option FiveTuple)) where
  body := headerTurn raw src dst
  rank c := raw.length - c.protoAt
  descends {c t} turn := by
    obtain ⟨number, size, forward, present, -, rfl⟩ := headerTurn_next turn
    have bound := (List.getElem?_eq_some_iff.mp present).1
    have lag := c.lag
    change raw.length - c.offset < raw.length - c.protoAt
    omega

def parseIpv6 (raw : Bytes) : Exec (Option FiveTuple) :=
  if raw.length < 40 then .ok none
  else do
    let src ← readIpv6 raw 8 24
    let dst ← readIpv6 raw 24 40
    (headerWalk raw src dst).run .start

/-- Local and remote by direction; the ICMP identifier is `remote_port` either way. -/
def FiveTuple.orient (t : FiveTuple) (incoming : Bool) : Packet :=
  let (localAddr, remoteAddr, localPort, remotePort) :=
    if incoming then (t.dst, t.src, t.dstPort, t.srcPort) else (t.src, t.dst, t.srcPort, t.dstPort)
  let (localPort, remotePort) :=
    match t.icmpIdentifier with
    | some id => (0, id)
    | none => (localPort, remotePort)
  { localAddr, remoteAddr, localPort, remotePort, protocol := t.protocol, fragment := t.fragment }

def parse (raw : Bytes) (incoming : Bool) : Exec (Option Packet) :=
  match raw.head? with
  | none => .ok none
  | some first =>
    match first >>> 4 with
    | 4 => do return (← parseIpv4 raw).map (·.orient incoming)
    | 6 => do return (← parseIpv6 raw).map (·.orient incoming)
    | _ => .ok none

end Nebula.Listener
