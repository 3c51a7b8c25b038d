import Nebula.Protocol.Waiters

/-! # Addresses in lighthouse messages

An endpoint comes out of a message as it went in. A mesh address travels as an IPv6 one, an IPv4 address as
the IPv4-mapped one, so what is read is the canonical form of what was written. A host asks for an address
and files its sender under the address as it is: the reply finds that sender unless the address was an
IPv4-mapped one itself.
-/

namespace Nebula

open Rust

variable {lib : Externals}

namespace Lighthouse

/-! ## Octets and words -/

theorem octetsOf_halves (addr : Ipv6Addr) : octetsOf (halves addr).1 (halves addr).2 = addr := by
  have size := addr.size
  have word (bytes : Bytes) (length : bytes.length = 8) :
      beBytes 8 (UInt64.ofNat (beNat bytes)).toNat = bytes := by
    have bound : beNat bytes < 2 ^ 64 := by simpa [length] using beNat_lt bytes
    rw [UInt64.toNat_ofNat_of_lt' bound, beBytes_beNat length]
  apply Arr.ext
  simp only [octetsOf, halves]
  rw [word _ (by simp [size]), word _ (by simp [size]), List.take_append_drop]

theorem toIpv4Mapped_toIpv6Mapped (addr : Ipv4Addr) : toIpv4Mapped (toIpv6Mapped addr) = some addr :=
  if_pos rfl

/-- The IPv4 address that an IPv4-mapped IPv6 address stands for. -/
def ipv4Mapped : IpAddr → Option Ipv4Addr
  | .v4 _ => none
  | .v6 addr => toIpv4Mapped addr

/-- `IpAddr::to_canonical`. -/
def toCanonical (addr : IpAddr) : IpAddr := ((ipv4Mapped addr).map IpAddr.v4).getD addr

/-- An address is read in its canonical form. -/
theorem addrToIp_ipToAddr (ip : IpAddr) : addrToIp (ipToAddr ip) = toCanonical ip := by
  cases ip with
  | v4 addr => simp only [addrToIp, ipToAddr, octetsOf_halves, toIpv4Mapped_toIpv6Mapped, toCanonical, ipv4Mapped,
      Option.map_none, Option.getD_none]
  | v6 addr =>
    simp only [addrToIp, ipToAddr, octetsOf_halves, toCanonical, ipv4Mapped]
    cases toIpv4Mapped addr with
    | none => rfl
    | some v4 => rfl

theorem toCanonical_of_mapped {addr : IpAddr} {v4 : Ipv4Addr} (mapped : ipv4Mapped addr = some v4) :
    toCanonical addr = .v4 v4 := by
  rw [toCanonical, mapped]
  rfl

theorem toCanonical_of_not_mapped {addr : IpAddr} (plain : ipv4Mapped addr = none) : toCanonical addr = addr := by
  rw [toCanonical, plain]
  rfl

/-! ## Endpoints -/

/-- `SocketAddr::is_ipv4`. -/
def isIpv4 (addr : SocketAddr) : Bool :=
  match addr.ip with
  | .v4 _ => true
  | .v6 _ => false

/-- `SocketAddr::is_ipv6`. -/
def isIpv6 (addr : SocketAddr) : Bool :=
  match addr.ip with
  | .v4 _ => false
  | .v6 _ => true

/-- The octets of an IPv4 address in a message. -/
def octetsOfV4 (addr : UInt32) : Ipv4Addr := ⟨beBytes 4 addr.toNat, length_beBytes _ _⟩

/-- The endpoints of both lists, as `candidateAddrs` reads them. -/
def endpoints (lists : List V4AddrPort × List V6AddrPort) : List SocketAddr × List SocketAddr :=
  (lists.1.map fun v4 => ⟨.v4 (octetsOfV4 v4.addr), v4.port.toUInt16⟩,
    lists.2.map fun v6 => ⟨.v6 (octetsOf v6.hi v6.lo), v6.port.toUInt16⟩)

/-- An endpoint comes back at the end of the list of its family. -/
theorem endpoints_addrToV4V6 (lists : List V4AddrPort × List V6AddrPort) (addr : SocketAddr) :
    endpoints (addrToV4V6 lists addr) =
      ((endpoints lists).1 ++ [addr].filter isIpv4, (endpoints lists).2 ++ [addr].filter isIpv6) := by
  obtain ⟨ip, port⟩ := addr
  cases ip with
  | v4 ip =>
    have read : octetsOfV4 (UInt32.ofNat (beNat ip.items)) = ip := by
      have bound : beNat ip.items < 2 ^ 32 := by simpa [ip.size] using beNat_lt ip.items
      apply Arr.ext
      change beBytes 4 (UInt32.ofNat (beNat ip.items)).toNat = ip.items
      rw [UInt32.toNat_ofNat_of_lt' bound, beBytes_beNat ip.size]
    have kept : [(⟨.v4 ip, port⟩ : SocketAddr)].filter isIpv4 = [⟨.v4 ip, port⟩] := rfl
    have dropped : [(⟨.v4 ip, port⟩ : SocketAddr)].filter isIpv6 = [] := rfl
    simp only [addrToV4V6, endpoints, kept, dropped, List.map_append, List.map_cons, List.map_nil, read,
      List.append_nil, UInt16.toUInt16_toUInt32]
  | v6 ip =>
    have dropped : [(⟨.v6 ip, port⟩ : SocketAddr)].filter isIpv4 = [] := rfl
    have kept : [(⟨.v6 ip, port⟩ : SocketAddr)].filter isIpv6 = [⟨.v6 ip, port⟩] := rfl
    simp only [addrToV4V6, endpoints, kept, dropped, List.map_append, List.map_cons, List.map_nil,
      octetsOf_halves, List.append_nil, UInt16.toUInt16_toUInt32]

theorem endpoints_foldl (reachableAt : List SocketAddr) (lists : List V4AddrPort × List V6AddrPort) :
    endpoints (reachableAt.foldl addrToV4V6 lists) =
      ((endpoints lists).1 ++ reachableAt.filter isIpv4, (endpoints lists).2 ++ reachableAt.filter isIpv6) := by
  induction reachableAt generalizing lists with
  | nil => simp
  | cons addr rest ih =>
    have split (keep : SocketAddr → Bool) : (addr :: rest).filter keep = [addr].filter keep ++ rest.filter keep :=
      List.filter_append [addr] rest
    rw [List.foldl_cons, ih, endpoints_addrToV4V6, split, split, List.append_assoc, List.append_assoc]

theorem candidateAddrs_hostUpdateNotification (vpnAddr : IpAddr) (reachableAt : List SocketAddr) :
    candidateAddrs (hostUpdateNotification vpnAddr reachableAt) =
      reachableAt.filter isIpv4 ++ reachableAt.filter isIpv6 := by
  have read := endpoints_foldl reachableAt ([], [])
  obtain ⟨v4, v6⟩ := Prod.mk.inj read
  exact congrArg₂ (· ++ ·) v4 v6

/-! ## Replies -/

/-- A reply to a query: it echoes the mesh address and has an endpoint. -/
structure RepliesTo (query reply : NebulaMeta) : Prop where
  type : reply.type = MetaType.hostQueryReply
  echoed : reply.details.bind (·.vpnAddr) = query.details.bind (·.vpnAddr)
  endpoint : ∃ details, reply.details = some details ∧ (details.v4AddrPorts ≠ [] ∨ details.v6AddrPorts ≠ [])

/-- What is asked about an address is answered for its canonical form. -/
theorem RepliesTo.announces {vpnAddr : IpAddr} {reply : NebulaMeta} (replies : RepliesTo (hostQuery vpnAddr) reply) :
    ∃ first rest, Announces reply (toCanonical vpnAddr) first rest := by
  obtain ⟨details, given, some⟩ := replies.endpoint
  have present : candidateAddrs reply ≠ [] := by
    simp only [candidateAddrs, given]
    intro empty
    obtain ⟨v4, v6⟩ := List.append_eq_nil_iff.mp empty
    exact some.elim (· (List.map_eq_nil_iff.mp v4)) (· (List.map_eq_nil_iff.mp v6))
  obtain ⟨first, rest, candidates⟩ := List.exists_cons_of_ne_nil present
  exact ⟨first, rest, .inl replies.type, candidates, ipToAddr vpnAddr, replies.echoed, addrToIp_ipToAddr vpnAddr⟩

end Lighthouse

open Lighthouse

section Run

variable (lib) (caCert hostCert : Certificate) (hostPrivateKey : Key) (cipher : Cipher) (vpnAddr : IpAddr)
  (lighthouses : List IpAddr) (staticHosts : List (IpAddr × SocketAddr))

/-- In a reachable state, an announcement inside a tunnel makes its first endpoint known, and every `resolve`
that waits for the host hears all of them. -/
theorem announcement_heard (events : List CallersEvent) {v : IpAddr} {message : NebulaMeta} {first : SocketAddr}
    {rest : List SocketAddr} {datagram body : Bytes} {hdr : Header} {peer : Peer} (source : SocketAddr)
    (ambient : Ambient) (decoded : lib.metaCodec.decode body = some message)
    (announces : Announces message v first rest) :
    let state := (callers lib).exec
      ⟨.new caCert hostCert hostPrivateKey cipher vpnAddr lighthouses staticHosts, []⟩ events
    LighthouseTraffic lib state.inner datagram hdr peer body →
      let next := ((callers lib).step state (.other (.datagram datagram source ambient))).1
      next.inner.knownAddrs.get v = some first ∧
        ∀ (i : ℕ) (caller : Caller), state.callers[i]? = some caller → caller.vpnAddr = v →
          caller.stage.awaitsAddrs → ∃ asked, next.callers[i]? =
            some { caller with stage := .asking (.value (first :: rest)) asked } := by
  intro state traffic next
  have filed : WaitersFiled state :=
    waitersFiled_run lib caCert hostCert hostPrivateKey cipher vpnAddr lighthouses staticHosts events
  constructor
  · change (handleDatagram lib state.inner datagram source ambient).1.knownAddrs.get v = _
    rw [handleDatagram_lighthouse traffic, handleLighthouse_announced decoded announces]
    exact HashMap.get_insert_self _ _ _
  · rintro i caller here rfl waits
    exact filed.answered source ambient here waits
      ⟨hdr, peer, body, message, first, rest, traffic, decoded, announces, rfl⟩

/-- What a host says of itself reads back as its IPv4 endpoints followed by its IPv6 ones. A reply that
echoes the address of the query for `v`, with any endpoint, makes the first endpoint the known address of `v` and
wakes the waiter of `v`, and so any `resolve(v)` that waits in a reachable state, unless `v` is an
IPv4-mapped IPv6 address: then the reply is about the IPv4 address, and nothing is known or heard of `v`. -/
theorem lighthouse_addresses_survive (events : List CallersEvent) :
    let state := (callers lib).exec
      ⟨.new caCert hostCert hostPrivateKey cipher vpnAddr lighthouses staticHosts, []⟩ events
    (∀ self reachableAt, candidateAddrs (hostUpdateNotification self reachableAt) =
      reachableAt.filter isIpv4 ++ reachableAt.filter isIpv6) ∧
    ∀ v reply body, RepliesTo (hostQuery v) reply → lib.metaCodec.decode body = some reply →
      ∃ first rest, candidateAddrs reply = first :: rest ∧
        (ipv4Mapped v = none →
          (∀ inner : lib.Inner,
            let handled := handleLighthouse lib inner body
            handled.1.knownAddrs.get v = some first ∧
              ∀ waiter, inner.lighthouseWaiters.get v = some waiter →
                handled.2 = [.answer waiter (first :: rest)] ∧ handled.1.lighthouseWaiters.get v = none) ∧
          ∀ datagram source ambient hdr peer, LighthouseTraffic lib state.inner datagram hdr peer body →
            let next := ((callers lib).step state (.other (.datagram datagram source ambient))).1
            next.inner.knownAddrs.get v = some first ∧
              ∀ (i : ℕ) (caller : Caller), state.callers[i]? = some caller → caller.vpnAddr = v →
                caller.stage.awaitsAddrs → ∃ asked, next.callers[i]? =
                  some { caller with stage := .asking (.value (first :: rest)) asked }) ∧
        ∀ v4, ipv4Mapped v = some v4 → ∀ inner : lib.Inner,
          let handled := handleLighthouse lib inner body
          handled.1.knownAddrs.get (.v4 v4) = some first ∧
            handled.1.knownAddrs.get v = inner.knownAddrs.get v ∧
            handled.1.lighthouseWaiters.get v = inner.lighthouseWaiters.get v ∧
            handled.2 = (inner.lighthouseWaiters.get (.v4 v4)).toList.map (Effect.answer · (first :: rest)) := by
  intro state
  refine ⟨candidateAddrs_hostUpdateNotification, ?_⟩
  intro v reply body replies decoded
  obtain ⟨first, rest, announces⟩ := replies.announces
  refine ⟨first, rest, announces.2.1, ?_, ?_⟩
  · intro plain
    rw [toCanonical_of_not_mapped plain] at announces
    refine ⟨?_, ?_⟩
    · intro inner handled
      have after : handled = _ := handleLighthouse_announced decoded announces
      rw [after]
      refine ⟨HashMap.get_insert_self _ _ _, ?_⟩
      intro waiter filed
      rw [filed]
      exact ⟨rfl, HashMap.get_remove_self _ _⟩
    · intro datagram source ambient hdr peer traffic
      exact announcement_heard lib caCert hostCert hostPrivateKey cipher vpnAddr lighthouses staticHosts events
        source ambient decoded announces traffic
  · intro v4 mapped inner handled
    rw [toCanonical_of_mapped mapped] at announces
    have after : handled = _ := handleLighthouse_announced decoded announces
    have other : v ≠ .v4 v4 := by
      rintro rfl
      cases mapped
    rw [after]
    exact ⟨HashMap.get_insert_self _ _ _, HashMap.get_insert_of_ne _ _ other, HashMap.get_remove_of_ne _ other, rfl⟩

end Run

/-! ## One reply to two queries -/

namespace TestNetwork

/-- Host A as the lighthouse of host B says where host C is. -/
def replyForC : NebulaMeta :=
  { Lighthouse.hostUpdateNotification (vpn 3) [endpoint 66] with type := MetaType.hostQueryReply }

/-- Host C's address as an IPv6 one. -/
def mappedC : IpAddr := .v6 (Lighthouse.toIpv6Mapped (.new 10 100 0 3))

/-- The test network with an AEAD that opens packets, and this one lighthouse message. -/
def askingNetwork : Externals :=
  { meshNetwork with metaCodec := ⟨protobufMeta, fun payload => [replyForC].find? (protobufMeta · = payload)⟩ }

/-- Host B with host A's tunnel, until a call of `resolve` waits that has asked host A. -/
def untilAsked (v : IpAddr) : List CallersEvent :=
  [.other (.datagram stage0Datagram (endpoint 1) (ambient 2)), .call false v,
    .advance 0 (ambient 3), .advance 0 (ambient 3), .advance 0 (ambient 3)]

def askingB : Callers askingNetwork := ⟨.new ca hostB keyB .aesGcm (vpn 2) [vpn 1] [], []⟩

def replyDatagram : Bytes := trafficHeader.encode ++ (protobufMeta replyForC ++ List.replicate 16 3)

end TestNetwork

section

open TestNetwork

instance : DecidableEq askingNetwork.snow.HandshakeState := inferInstanceAs (DecidableEq Party)

theorem replyForC_replies (v : IpAddr) (asks : Lighthouse.ipToAddr v = Lighthouse.ipToAddr (vpn 3)) :
    RepliesTo (hostQuery v) replyForC :=
  ⟨rfl, congrArg some asks.symm, _, rfl, .inl (by decide)⟩

/-- Host A's reply wakes the `resolve` of host C's address. -/
theorem resolve_hears_reply :
    let next := (callers askingNetwork).exec askingB
      (untilAsked (vpn 3) ++ [.other (.datagram replyDatagram (endpoint 1) (ambient 4))])
    next.inner.knownAddrs.get (vpn 3) = some (endpoint 66) ∧
      ∃ asked, next.callers[0]? = some ⟨false, vpn 3, .asking (.value [endpoint 66]) asked⟩ := by
  have opened : (openPacket askingNetwork ((callers askingNetwork).exec askingB (untilAsked (vpn 3))).inner
      trafficHeader (replyDatagram.take Header.len) (replyDatagram.drop Header.len)).2.map Prod.snd =
        some (protobufMeta replyForC) := by decide +kernel
  obtain ⟨⟨peer, bytes⟩, opened, rfl⟩ := Option.map_eq_some_iff.mp opened
  have traffic : LighthouseTraffic askingNetwork ((callers askingNetwork).exec askingB (untilAsked (vpn 3))).inner
      replyDatagram trafficHeader peer (protobufMeta replyForC) :=
    ⟨Header.parse_encode trafficHeader (by decide) (by decide) _, rfl, opened⟩
  have decoded : askingNetwork.metaCodec.decode (protobufMeta replyForC) = some replyForC := by decide +kernel
  have calls : ((callers askingNetwork).exec askingB (untilAsked (vpn 3))).callers[0]? =
      some ⟨false, vpn 3, .asking .nothing []⟩ := by decide +kernel
  obtain ⟨-, survives⟩ := lighthouse_addresses_survive askingNetwork ca hostB keyB .aesGcm (vpn 2) [vpn 1] []
    (untilAsked (vpn 3))
  obtain ⟨first, rest, candidates, plain, -⟩ :=
    survives (vpn 3) replyForC _ (replyForC_replies (vpn 3) rfl) decoded
  obtain ⟨rfl, rfl⟩ : endpoint 66 = first ∧ [] = rest := List.cons.inj candidates
  obtain ⟨known, heard⟩ := (plain rfl).2 replyDatagram (endpoint 1) (ambient 4) trafficHeader peer traffic
  have woken := heard 0 ⟨false, vpn 3, .asking .nothing []⟩ calls rfl rfl
  dsimp only
  rw [Machine.System.exec_concat]
  unfold askingB
  exact ⟨known, woken⟩

/-- Asked for the same address as an IPv4-mapped IPv6 one, host A gives the same reply. It makes the IPv4
address known and leaves the `resolve` of the IPv6 one waiting. -/
theorem mapped_address_hears_nothing :
    RepliesTo (hostQuery mappedC) replyForC ∧
    askingNetwork.metaCodec.decode (protobufMeta replyForC) = some replyForC ∧
    let next := (callers askingNetwork).exec askingB
      (untilAsked mappedC ++ [.other (.datagram replyDatagram (endpoint 1) (ambient 4))])
    next.inner.knownAddrs.get mappedC = none ∧ next.inner.knownAddrs.get (vpn 3) = some (endpoint 66) ∧
      next.inner.lighthouseWaiters.get mappedC = some 0 ∧
      next.callers = [⟨false, mappedC, .asking .nothing []⟩] :=
  ⟨replyForC_replies mappedC rfl, by decide +kernel⟩

end

end Nebula
