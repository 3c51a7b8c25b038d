import Nebula.Protocol.RejectedReply

/-! # Who may tell a session where a host is

Lighthouse traffic is taken from inside any established tunnel; nothing asks whether the peer at its
other end is one of the configured lighthouses. What such a packet can do is bounded by its message: one
that announces an address for a host sets that host's known address and answers the call that waits for
it, every other leaves both tables alone.
-/

namespace Nebula

open Rust

variable {lib : Externals}

/-- The message says where the host can be reached, first of all at `first`. -/
def Announces (message : NebulaMeta) (vpnAddr : IpAddr) (first : SocketAddr) (rest : List SocketAddr) : Prop :=
  (message.type = MetaType.hostQueryReply ∨ message.type = MetaType.hostUpdateNotification) ∧
    Lighthouse.candidateAddrs message = first :: rest ∧
    ∃ addr, message.details.bind (·.vpnAddr) = some addr ∧ Lighthouse.addrToIp addr = vpnAddr

/-- An announcement sets the known address of the host it names and answers who waits for it. -/
theorem handleLighthouse_announced {inner : lib.Inner} {body : Bytes} {message : NebulaMeta} {vpnAddr : IpAddr}
    {first : SocketAddr} {rest : List SocketAddr} (decoded : lib.metaCodec.decode body = some message)
    (announces : Announces message vpnAddr first rest) :
    handleLighthouse lib inner body =
      ({ inner with
          knownAddrs := inner.knownAddrs.insert vpnAddr first
          lighthouseWaiters := inner.lighthouseWaiters.remove vpnAddr },
        (inner.lighthouseWaiters.get vpnAddr).toList.map (Effect.answer · (first :: rest))) := by
  obtain ⟨type, candidates, addr, named, rfl⟩ := announces
  simp only [handleLighthouse, decoded, type, if_true, candidates, named]
  cases waiting : inner.lighthouseWaiters.get (Lighthouse.addrToIp addr) with
  | none =>
    rw [HashMap.remove_of_absent _ waiting]
    rfl
  | some waiter => rfl

/-- Whatever announces nothing does nothing. -/
theorem handleLighthouse_other (inner : lib.Inner) {body : Bytes}
    (other : ∀ message vpnAddr first rest, lib.metaCodec.decode body = some message →
      ¬ Announces message vpnAddr first rest) :
    handleLighthouse lib inner body = (inner, []) := by
  unfold handleLighthouse
  split
  · rfl
  next message decoded =>
    split
    next type =>
      split
      · rfl
      next first rest candidates =>
        split
        · rfl
        next addr named =>
          exact absurd ⟨type, candidates, addr, named, rfl⟩ (other message _ first rest decoded)
    · rfl

variable (lib) in
/-- The datagram is lighthouse traffic that the session decrypts under the tunnel of `peer`. -/
def LighthouseTraffic (inner : lib.Inner) (datagram : Bytes) (hdr : Header) (peer : Peer) (bytes : Bytes) :
    Prop :=
  Header.parse datagram = .ok hdr ∧ hdr.type_ = Header.lighthouse ∧
    (openPacket lib inner hdr (datagram.take Header.len) (datagram.drop Header.len)).2 = some (peer, bytes)

section Step

variable {inner : lib.Inner} {datagram bytes : Bytes} {hdr : Header} {peer : Peer} {source : SocketAddr}
  {ambient : Ambient}

theorem handleDatagram_lighthouse (traffic : LighthouseTraffic lib inner datagram hdr peer bytes) :
    handleDatagram lib inner datagram source ambient =
      handleLighthouse lib
        (openPacket lib inner hdr (datagram.take Header.len) (datagram.drop Header.len)).1 bytes := by
  obtain ⟨parsed, type, opened⟩ := traffic
  simp only [handleDatagram, parsed, type, handleLighthousePacket]
  rcases ran : openPacket lib inner hdr (datagram.take Header.len) (datagram.drop Header.len) with ⟨next, found⟩
  rw [ran] at opened
  cases opened
  rfl

/-- The tunnel that decrypts is one of the session's. -/
theorem LighthouseTraffic.established (traffic : LighthouseTraffic lib inner datagram hdr peer bytes) :
    inner.peersByIndex.get hdr.remoteIndex = some (.established peer) := by
  obtain ⟨-, -, opened⟩ := traffic
  rcases openPacket_spec inner hdr (datagram.take Header.len) (datagram.drop Header.len) with
    same | ⟨peer, peer', found, was, -, same, owner⟩
  · rw [same] at opened
    cases opened
  · rw [same] at opened
    obtain ⟨rfl, -⟩ := owner _ _ opened
    exact was

/-- The tables that lighthouse traffic is about. -/
def Inner.lighthouseTables {H : Type} (inner : Inner H) : HashMap IpAddr SocketAddr × HashMap IpAddr WaiterId :=
  (inner.knownAddrs, inner.lighthouseWaiters)

theorem TunnelsOnly.lighthouseTables {next : lib.Inner} (only : TunnelsOnly inner next) :
    next.lighthouseTables = inner.lighthouseTables := Prod.ext only.knownAddrs only.lighthouseWaiters

/-- No other datagram touches these tables. -/
theorem lighthouseTraffic_of_changed
    (changed : (handleDatagram lib inner datagram source ambient).1.lighthouseTables ≠ inner.lighthouseTables) :
    ∃ hdr peer bytes, LighthouseTraffic lib inner datagram hdr peer bytes := by
  unfold handleDatagram at changed
  split at changed
  · exact absurd rfl changed
  next hdr parsed =>
    have unopened := (tunnelsOnly_openPacket inner hdr (datagram.take Header.len)
      (datagram.drop Header.len)).lighthouseTables
    dsimp only at changed
    split_ifs at changed with handshake message lighthouse
    · exact absurd (tunnelsOnly_handleHandshake ..).lighthouseTables changed
    · unfold handleMessage at changed
      split at changed
      next next peer bytes opened =>
        rw [opened] at unopened
        exact absurd unopened changed
      next next opened =>
        rw [opened] at unopened
        exact absurd unopened changed
    · unfold handleLighthousePacket at changed
      split at changed
      next next peer bytes opened => exact ⟨hdr, peer, bytes, parsed, lighthouse, by rw [opened]⟩
      next next opened =>
        rw [opened] at unopened
        exact absurd unopened changed
    · exact absurd rfl changed

/-- Only a datagram of lighthouse traffic changes a known address. -/
theorem lighthouseTraffic_of_knownAddrs {event : SessionEvent}
    (changed : ((session lib).step inner event).1.knownAddrs ≠ inner.knownAddrs) :
    ∃ datagram source ambient hdr peer bytes, event = .datagram datagram source ambient ∧
      LighthouseTraffic lib inner datagram hdr peer bytes := by
  cases event with
  | datagram datagram source ambient =>
    have tables : (handleDatagram lib inner datagram source ambient).1.lighthouseTables ≠
        inner.lighthouseTables := fun same => changed (congrArg Prod.fst same)
    obtain ⟨hdr, peer, bytes, traffic⟩ := lighthouseTraffic_of_changed tables
    exact ⟨datagram, source, ambient, hdr, peer, bytes, rfl, traffic⟩
  | resolveKnown vpnAddr => exact absurd rfl changed
  | awaitLighthouse vpnAddr waiter => exact absurd rfl changed
  | openHandshake vpnAddr remote waiter ambient =>
    exact absurd (tunnelsOnly_openHandshake inner vpnAddr remote waiter ambient).knownAddrs changed
  | sendTyped vpnAddr type_ payload =>
    exact absurd (tunnelsOnly_sendTyped inner vpnAddr type_ payload).knownAddrs changed
  | peerInfo vpnAddr => exact absurd rfl changed
  | recv =>
    refine absurd ?_ changed
    change (recv lib inner).1.knownAddrs = _
    unfold recv
    split
    · rfl
    · rfl

end Step

/-- In every reachable state, lighthouse traffic under any established tunnel, which is a verified one, sets
the known address of the host its message announces and takes the waiter of that host, and leaves both
tables alone if it announces none. No other datagram changes these tables, and no other step a known address. -/
theorem lighthouse_traffic_from_any_tunnel (caCert hostCert : Certificate) (hostPrivateKey : Key)
    (cipher : Cipher) (vpnAddr : IpAddr) (lighthouses : List IpAddr) (staticHosts : List (IpAddr × SocketAddr))
    (events : List SessionEvent) :
    let start : lib.Inner := .new caCert hostCert hostPrivateKey cipher vpnAddr lighthouses staticHosts
    let log := (session lib).log start events
    let reached := (session lib).exec start events
    (∀ datagram source ambient hdr peer bytes, LighthouseTraffic lib reached datagram hdr peer bytes →
      VerifiedTunnel lib start log reached hdr.remoteIndex peer.vpnAddr peer ∧
      (∀ message host first rest, lib.metaCodec.decode bytes = some message → Announces message host first rest →
        let next := ((session lib).step reached (.datagram datagram source ambient)).1
        next.knownAddrs = reached.knownAddrs.insert host first ∧
          next.lighthouseWaiters = reached.lighthouseWaiters.remove host) ∧
      ((∀ message host first rest, lib.metaCodec.decode bytes = some message →
          ¬ Announces message host first rest) →
        ((session lib).step reached (.datagram datagram source ambient)).1.lighthouseTables =
          reached.lighthouseTables)) ∧
    (∀ datagram source ambient,
      ((session lib).step reached (.datagram datagram source ambient)).1.lighthouseTables ≠
        reached.lighthouseTables →
      ∃ hdr peer bytes, LighthouseTraffic lib reached datagram hdr peer bytes) ∧
    ∀ event, ((session lib).step reached event).1.knownAddrs ≠ reached.knownAddrs →
      ∃ datagram source ambient, event = .datagram datagram source ambient := by
  intro start log reached
  have sound : Sound lib start log reached :=
    sound_run caCert hostCert hostPrivateKey cipher vpnAddr lighthouses staticHosts events
  refine ⟨?_, ?_, ?_⟩
  · intro datagram source ambient hdr peer bytes traffic
    have here := traffic.established
    have untouched := tunnelsOnly_openPacket reached hdr (datagram.take Header.len) (datagram.drop Header.len)
    refine ⟨⟨here, rfl, sound.established _ peer here⟩, ?_, ?_⟩
    · intro message host first rest decoded announces next
      have after : next = (handleLighthouse lib (openPacket lib reached hdr (datagram.take Header.len)
          (datagram.drop Header.len)).1 bytes).1 := congrArg Prod.fst (handleDatagram_lighthouse traffic)
      rw [after, handleLighthouse_announced decoded announces]
      exact ⟨congrArg (·.insert host first) untouched.knownAddrs,
        congrArg (·.remove host) untouched.lighthouseWaiters⟩
    · intro other
      rw [step_datagram, handleDatagram_lighthouse traffic, handleLighthouse_other _ other]
      exact untouched.lighthouseTables
  · intro datagram source ambient changed
    exact lighthouseTraffic_of_changed changed
  · intro event changed
    obtain ⟨datagram, source, ambient, -, -, -, cause, -⟩ := lighthouseTraffic_of_knownAddrs changed
    exact ⟨datagram, source, ambient, cause⟩

/-! ## A host that announces another -/

namespace TestNetwork

/-- The Protocol Buffers encoding of lighthouse messages, which leaves out fields with their default. -/
def protobufMeta (message : NebulaMeta) : Bytes :=
  let number (tag : UInt8) (value : ℕ) : Bytes := if value = 0 then [] else tag :: varint 10 value
  let bytes (tag : UInt8) (content : Bytes) : Bytes := tag :: (varint 10 content.length ++ content)
  let v4 (endpoint : V4AddrPort) : Bytes := number 0x08 endpoint.addr.toNat ++ number 0x10 endpoint.port.toNat
  let v6 (endpoint : V6AddrPort) : Bytes :=
    number 0x08 endpoint.hi.toNat ++ number 0x10 endpoint.lo.toNat ++ number 0x18 endpoint.port.toNat
  let details (d : NebulaMetaDetails) : Bytes :=
    d.v4AddrPorts.flatMap (fun endpoint => bytes 0x12 (v4 endpoint)) ++
      d.v6AddrPorts.flatMap (fun endpoint => bytes 0x22 (v6 endpoint)) ++
      (d.vpnAddr.map fun addr => bytes 0x32 (number 0x08 addr.hi.toNat ++ number 0x10 addr.lo.toNat)).getD []
  number 0x08 message.type.toInt.toNat ++ (message.details.map fun d => bytes 0x12 (details d)).getD []

/-- An AEAD in the clear, whose tag is the first half of the key. -/
def clearAead : Aead where
  encrypt _ key _ _ plaintext := some (plaintext ++ key.items.take 16)
  decrypt _ key _ _ ciphertext :=
    if 16 ≤ ciphertext.length ∧ ciphertext.drop (ciphertext.length - 16) = key.items.take 16 then
      some (ciphertext.take (ciphertext.length - 16))
    else none

/-- Host A says that host C is at another endpoint than the one host B has been given. -/
def misleading : NebulaMeta := Lighthouse.hostUpdateNotification (vpn 3) [endpoint 66]

/-- The test network with an AEAD that opens packets, and this one lighthouse message. -/
def meshNetwork : Externals :=
  { network with
    metaCodec := ⟨protobufMeta, fun payload => [misleading].find? (protobufMeta · = payload)⟩
    aead := clearAead }

/-- Host B, with host C as a static host and a lighthouse that is neither host A nor host C. -/
def meshB : meshNetwork.Inner := .new ca hostB keyB .aesGcm (vpn 2) [vpn 9] [(vpn 3, endpoint 3)]

def answeredMeshA : meshNetwork.Inner :=
  (session meshNetwork).exec meshB [.datagram stage0Datagram (endpoint 1) (ambient 2)]

def trafficHeader : Header where
  version := Header.currentVersion
  type_ := Header.lighthouse
  subtype := 0
  remoteIndex := indexB
  messageCounter := 3

/-- The message under host A's send key, which the handshake mixed from the two ephemeral keys. -/
def misleadingDatagram : Bytes := trafficHeader.encode ++ (protobufMeta misleading ++ List.replicate 16 3)

end TestNetwork

section

open TestNetwork

instance : DecidableEq meshNetwork.snow.HandshakeState := inferInstanceAs (DecidableEq Party)

/-- The tunnel of host A, which is no lighthouse of host B's. -/
theorem misleading_traffic :
    ∃ peer, LighthouseTraffic meshNetwork answeredMeshA misleadingDatagram trafficHeader peer
        (protobufMeta misleading) ∧ peer.vpnAddr = vpn 1 := by
  have opened : (openPacket meshNetwork answeredMeshA trafficHeader (misleadingDatagram.take Header.len)
      (misleadingDatagram.drop Header.len)).2.map (fun (peer, bytes) => (peer.vpnAddr, bytes)) =
        some (vpn 1, protobufMeta misleading) := by decide +kernel
  obtain ⟨⟨peer, bytes⟩, opened, same⟩ := Option.map_eq_some_iff.mp opened
  obtain ⟨vpnAddr, rfl⟩ := Prod.mk.inj same
  exact ⟨peer, ⟨Header.parse_encode trafficHeader (by decide) (by decide) _, rfl, opened⟩, vpnAddr⟩

/-- Host A is not a lighthouse of host B's, yet overrides the static address of host C there. -/
theorem host_overrides_static_address :
    (∃ peer bytes, LighthouseTraffic meshNetwork answeredMeshA misleadingDatagram trafficHeader peer bytes ∧
      peer.vpnAddr ∉ answeredMeshA.lighthouses) ∧
    answeredMeshA.knownAddrs.get (vpn 3) = some (endpoint 3) ∧
    ((session meshNetwork).step answeredMeshA
      (.datagram misleadingDatagram (endpoint 1) (ambient 3))).1.knownAddrs.get (vpn 3) =
        some (endpoint 66) := by
  obtain ⟨peer, traffic, vpnAddr⟩ := misleading_traffic
  refine ⟨⟨peer, _, traffic, ?_⟩, by decide +kernel, by decide +kernel⟩
  rw [vpnAddr]
  decide +kernel

/-- Host A's announcement sets the address of host C and nothing else. -/
theorem announcement_sets_one_address :
    ((session meshNetwork).step answeredMeshA
      (.datagram misleadingDatagram (endpoint 1) (ambient 3))).1.knownAddrs =
        answeredMeshA.knownAddrs.insert (vpn 3) (endpoint 66) := by
  obtain ⟨peer, traffic, -⟩ := misleading_traffic
  have announces : Announces misleading (vpn 3) (endpoint 66) [] :=
    ⟨.inr rfl, by decide, Lighthouse.ipToAddr (vpn 3), rfl, by decide⟩
  have decoded : meshNetwork.metaCodec.decode (protobufMeta misleading) = some misleading := by decide +kernel
  have effect := (@lighthouse_traffic_from_any_tunnel meshNetwork ca hostB keyB .aesGcm (vpn 2) [vpn 9]
    [(vpn 3, endpoint 3)] [.datagram stage0Datagram (endpoint 1) (ambient 2)]).1
  obtain ⟨-, announced, -⟩ := effect misleadingDatagram (endpoint 1) (ambient 3) trafficHeader peer _ traffic
  unfold answeredMeshA meshB
  exact (announced misleading (vpn 3) (endpoint 66) [] decoded announces).1

end

end Nebula
