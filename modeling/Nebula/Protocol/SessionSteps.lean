import Nebula.Protocol.Session
import Mathlib.Tactic.Common

/-! # What one section of a session can do

`Change` says once what any step can do to the tables of a session: leave them alone, file a pending
handshake under a free index, forget a pending handshake, establish a tunnel under a free index or one
that was pending, or use an established tunnel. Everything about runs follows from it.
-/

namespace Nebula

open Rust

variable (lib : Externals)

/-- What a session is configured with, and no step changes. -/
def Inner.identity {H : Type} (inner : Inner H) : Certificate × Certificate × Key × Cipher :=
  (inner.caCert, inner.hostCert, inner.hostPrivateKey, inner.cipher)

/-- The same tunnel, whatever packets have gone through it since. -/
structure SameTunnel (a b : Peer) : Prop where
  sendCipher : b.transport.sendCipher = a.transport.sendCipher
  recvCipher : b.transport.recvCipher = a.transport.recvCipher
  remote : b.remote = a.remote
  vpnAddr : b.vpnAddr = a.vpnAddr
  cert : b.cert = a.cert
  remoteIndex : b.remoteIndex = a.remoteIndex

theorem SameTunnel.refl (peer : Peer) : SameTunnel peer peer := ⟨rfl, rfl, rfl, rfl, rfl, rfl⟩

theorem SameTunnel.trans {a b c : Peer} (first : SameTunnel a b) (second : SameTunnel b c) : SameTunnel a c :=
  ⟨second.sendCipher.trans first.sendCipher, second.recvCipher.trans first.recvCipher,
    second.remote.trans first.remote, second.vpnAddr.trans first.vpnAddr, second.cert.trans first.cert,
    second.remoteIndex.trans first.remoteIndex⟩

/-- The datagram completed a handshake that yielded the peer's key and the tunnel's keys, and the peer's
certificate held at that moment. -/
structure Admission (inner : lib.Inner) (datagram : Bytes) (ambient : Ambient) (peer : Peer) : Prop where
  verified : verifyHostCert lib.crypto peer.cert inner.caCert ambient.nowUnix = .ok ()
  handshake : ∃ hs, Completes lib.snow inner.cipher inner.hostPrivateKey (datagram.drop Header.len) hs ∧
    lib.snow.getRemoteStatic hs = some peer.cert.publicKey ∧
    (peer.transport.sendCipher, peer.transport.recvCipher) =
      (if lib.snow.isInitiator hs then
        (⟨inner.cipher, (lib.snow.rawSplit hs).1⟩, ⟨inner.cipher, (lib.snow.rawSplit hs).2⟩)
      else (⟨inner.cipher, (lib.snow.rawSplit hs).2⟩, ⟨inner.cipher, (lib.snow.rawSplit hs).1⟩))
  network : peer.cert.details.networks.head?.map Network.addr = some peer.vpnAddr
  index : peer.remoteIndex ≠ 0

/-- The event is a data packet for the tunnel at `index` whose body its receive key opens to `bytes`. -/
def Opens (event : SessionEvent) (index : UInt32) (peer : Peer) (bytes : Bytes) : Prop :=
  ∃ datagram source ambient hdr, event = .datagram datagram source ambient ∧ Header.parse datagram = .ok hdr ∧
    hdr.type_ = Header.message ∧ hdr.remoteIndex = index ∧
    peer.transport.recvCipher.decrypt lib.aead hdr.messageCounter (datagram.take Header.len)
      (datagram.drop Header.len) = .ok bytes

/-- The section is that of `connect` which starts a handshake. -/
def SessionEvent.opensHandshake : SessionEvent → Bool
  | .openHandshake .. => true
  | _ => false

/-- What a step can do to the tables of a session. -/
inductive Change (inner : lib.Inner) (event : SessionEvent) (next : lib.Inner) : Prop
  | aside (peers : next.peersByIndex = inner.peersByIndex)
      (indices : next.indexByVpnAddr = inner.indexByVpnAddr)
      (inbox : ∃ taken, inner.inbox = taken ++ next.inbox)
  | pending {index : UInt32} {hs : lib.snow.HandshakeState} (cause : event.opensHandshake)
      (nonzero : index ≠ 0)
      (free : inner.peersByIndex.get index = none)
      (peers : next.peersByIndex = inner.peersByIndex.insert index (.handshaking hs))
      (indices : next.indexByVpnAddr = inner.indexByVpnAddr) (inbox : next.inbox = inner.inbox)
  | forgotten {index : UInt32} {hs : lib.snow.HandshakeState}
      (was : inner.peersByIndex.get index = some (.handshaking hs))
      (peers : next.peersByIndex = inner.peersByIndex.remove index)
      (indices : next.indexByVpnAddr = inner.indexByVpnAddr) (inbox : next.inbox = inner.inbox)
  | established {datagram : Bytes} {source : SocketAddr} {ambient : Ambient} {index : UInt32} {peer : Peer}
      (cause : event = .datagram datagram source ambient) (nonzero : index ≠ 0)
      (unused : ∀ other, inner.peersByIndex.get index ≠ some (.established other))
      (admission : Admission lib inner datagram ambient peer)
      (peers : next.peersByIndex = inner.peersByIndex.insert index (.established peer))
      (indices : next.indexByVpnAddr = inner.indexByVpnAddr.insert peer.vpnAddr index)
      (inbox : next.inbox = inner.inbox)
  | used {index : UInt32} {peer peer' : Peer} (was : inner.peersByIndex.get index = some (.established peer))
      (same : SameTunnel peer peer')
      (peers : next.peersByIndex = inner.peersByIndex.insert index (.established peer'))
      (indices : next.indexByVpnAddr = inner.indexByVpnAddr)
      (inbox : next.inbox = inner.inbox ∨
        ∃ bytes, Opens lib event index peer bytes ∧ next.inbox = inner.inbox ++ [(peer.vpnAddr, bytes)])

variable {lib} {inner : lib.Inner}

/-- A step keeps the configuration and makes one of the changes. -/
structure Stepped (inner : lib.Inner) (event : SessionEvent) (next : lib.Inner) : Prop where
  identity : next.identity = inner.identity
  change : Change lib inner event next

theorem Stepped.unchanged {event : SessionEvent} : Stepped inner event inner :=
  ⟨rfl, .aside rfl rfl ⟨[], rfl⟩⟩

theorem allocateIndex_spec {readings : List UInt32} {index : UInt32}
    (allocated : allocateIndex lib inner readings = some index) :
    index ≠ 0 ∧ inner.peersByIndex.get index = none := by
  have accepted := List.find?_some allocated
  simpa [HashMap.containsKey] using accepted

theorem admitCert_spec {details : NebulaHandshakeDetails} {keys : SplitKeys} {nowUnix : Int64}
    {cert : Certificate} {vpnAddr : IpAddr}
    (admitted : admitCert lib inner details keys nowUnix = some (cert, vpnAddr)) :
    verifyHostCert lib.crypto cert inner.caCert nowUnix = .ok () ∧
      Certificate.recombine details.cert keys.remoteStatic .curve25519 = .ok cert ∧
      cert.details.networks.head?.map Network.addr = some vpnAddr := by
  unfold admitCert at admitted
  split at admitted
  · cases admitted
  next cert' recombined =>
    split at admitted
    · cases admitted
    next verified =>
      obtain ⟨network, first, same⟩ := Option.map_eq_some_iff.mp admitted
      cases same
      exact ⟨verified, recombined, by rw [first]; rfl⟩

/-- A completed handshake with an admitted certificate is an admission of the peer it establishes. -/
theorem admission_of_handshake {datagram : Bytes} {ambient : Ambient} {details : NebulaHandshakeDetails}
    {keys : SplitKeys} {cert : Certificate} {vpnAddr : IpAddr} {hs : lib.snow.HandshakeState}
    (source : SocketAddr) {remoteIndex : UInt32}
    (completes : Completes lib.snow inner.cipher inner.hostPrivateKey (datagram.drop Header.len) hs)
    (split : splitKeys lib.snow hs = .ok keys)
    (admitted : admitCert lib inner details keys ambient.nowUnix = some (cert, vpnAddr))
    (usable : remoteIndex ≠ 0) :
    Admission lib inner datagram ambient
      { transport := .new inner.cipher keys.sendKey keys.recvKey, remote := source, vpnAddr, cert,
        remoteIndex } := by
  obtain ⟨verified, recombined, network⟩ := admitCert_spec admitted
  have publicKey := Certificate.publicKey_recombine recombined
  obtain ⟨remoteStatic, halves⟩ := splitKeys_spec split
  refine ⟨verified, ⟨hs, completes, publicKey ▸ remoteStatic, ?_⟩, network, usable⟩
  cases side : lib.snow.isInitiator hs with
  | true =>
    rw [side, if_pos rfl] at halves
    rw [if_pos rfl, ← halves]
    rfl
  | false =>
    rw [side, if_neg Bool.false_ne_true, Prod.mk.injEq] at halves
    rw [if_neg Bool.false_ne_true, ← halves.1, ← halves.2]
    rfl

/-! ## The handlers of the receive loop -/

section Handlers

variable {datagram : Bytes} {source : SocketAddr} {ambient : Ambient}

theorem stepped_handleStage0 :
    Stepped inner (.datagram datagram source ambient)
      (handleStage0 lib inner (datagram.drop Header.len) source ambient).1 := by
  unfold handleStage0
  split
  · exact .unchanged
  next index allocated =>
    split
    · exact .unchanged
    next details reply keys answered =>
      split
      · exact .unchanged
      next cert vpnAddr admitted =>
        obtain ⟨nonzero, free⟩ := allocateIndex_spec allocated
        obtain ⟨usable, hs, completes, split⟩ := respond_spec answered
        exact ⟨rfl, .established rfl nonzero (by simp [free])
          (admission_of_handshake source completes split admitted usable) rfl rfl rfl⟩

theorem stepped_handleStage2 {index : UInt32} (nonzero : index ≠ 0) :
    Stepped inner (.datagram datagram source ambient)
      (handleStage2 lib inner index (datagram.drop Header.len) source ambient).1 := by
  unfold handleStage2
  split
  next hs pending =>
    dsimp only
    split
    · exact ⟨rfl, .forgotten pending rfl rfl rfl⟩
    next details keys finished =>
      split
      · exact ⟨rfl, .forgotten pending rfl rfl rfl⟩
      next cert vpnAddr admitted =>
        obtain ⟨usable, hs', completes, split⟩ :=
          finishInitiator_spec inner.cipher inner.hostPrivateKey finished
        have admission := admission_of_handshake source completes split admitted usable
        split
        · exact ⟨rfl, .established rfl nonzero (by simp [pending]) admission
            (HashMap.insert_remove _ _ _) rfl rfl⟩
        · exact ⟨rfl, .established rfl nonzero (by simp [pending]) admission
            (HashMap.insert_remove _ _ _) rfl rfl⟩
  · exact .unchanged

/-- Decrypting touches the window of a transport only, and what it returns is what its key opens. -/
theorem decrypt_spec (aead : Aead) (transport : Transport) (counter : UInt64) (aad body out : Bytes) :
    (transport.decrypt aead counter aad body out).1.sendCipher = transport.sendCipher ∧
      (transport.decrypt aead counter aad body out).1.recvCipher = transport.recvCipher ∧
      ∀ len plain, (transport.decrypt aead counter aad body out).2 = .ok (len, plain) →
        transport.recvCipher.decrypt aead counter aad body = .ok (plain.take len) := by
  unfold Transport.decrypt
  dsimp only
  split
  · exact ⟨rfl, rfl, by simp⟩
  · refine ⟨rfl, rfl, ?_⟩
    intro len plain opened
    obtain ⟨plaintext, decrypted, copied⟩ := bind_eq_ok.mp opened
    rw [take_copyOut copied]
    exact decrypted

/-- A packet leaves the session alone, or is put through the tunnel it names. -/
theorem openPacket_spec (inner : lib.Inner) (hdr : Header) (headerBytes body : Bytes) :
    openPacket lib inner hdr headerBytes body = (inner, none) ∨
      ∃ peer peer' opened, inner.peersByIndex.get hdr.remoteIndex = some (.established peer) ∧
        SameTunnel peer peer' ∧
        openPacket lib inner hdr headerBytes body =
          ({ inner with
            peersByIndex := inner.peersByIndex.insert hdr.remoteIndex (.established peer') }, opened) ∧
        ∀ owner bytes, opened = some (owner, bytes) → owner = peer ∧
          peer.transport.recvCipher.decrypt lib.aead hdr.messageCounter headerBytes body = .ok bytes := by
  rcases found : inner.peersByIndex.get hdr.remoteIndex with _ | ⟨hs⟩ | ⟨peer⟩
  · exact .inl (by simp only [openPacket, found])
  · exact .inl (by simp only [openPacket, found])
  · right
    obtain ⟨sendCipher, recvCipher, decrypts⟩ :=
      decrypt_spec lib.aead peer.transport hdr.messageCounter headerBytes
      body (List.replicate body.length 0)
    simp only [openPacket, found]
    rcases ran : peer.transport.decrypt lib.aead hdr.messageCounter headerBytes body
      (List.replicate body.length 0)
      with ⟨transport, failure | ⟨len, plain⟩⟩
    · rw [ran] at sendCipher recvCipher
      exact ⟨peer, { peer with transport }, none, rfl, ⟨sendCipher, recvCipher, rfl, rfl, rfl, rfl⟩,
        rfl, by simp⟩
    · rw [ran] at sendCipher recvCipher decrypts
      refine ⟨peer, { peer with transport }, some (peer, plain.take len), rfl,
        ⟨sendCipher, recvCipher, rfl, rfl, rfl, rfl⟩, rfl, ?_⟩
      rintro owner bytes same
      cases same
      exact ⟨rfl, decrypts len plain rfl⟩

theorem stepped_handleMessage {hdr : Header} (parsed : Header.parse datagram = .ok hdr)
    (type_ : hdr.type_ = Header.message) :
    Stepped inner (.datagram datagram source ambient)
      (handleMessage lib inner hdr (datagram.take Header.len) (datagram.drop Header.len)).1 := by
  unfold handleMessage
  rcases openPacket_spec inner hdr (datagram.take Header.len) (datagram.drop Header.len) with
    same | ⟨peer, peer', opened, was, tunnel, same, decrypts⟩ <;> rw [same]
  · exact .unchanged
  · rcases opened with _ | ⟨owner, bytes⟩
    · exact ⟨rfl, .used was tunnel rfl rfl (.inl rfl)⟩
    · obtain ⟨rfl, decrypted⟩ := decrypts owner bytes rfl
      exact ⟨rfl, .used was tunnel rfl rfl
        (.inr ⟨bytes, ⟨datagram, source, ambient, hdr, rfl, parsed, type_, rfl, decrypted⟩, rfl⟩)⟩

/-- Lighthouse traffic touches the known addresses and those who wait for one. -/
theorem handleLighthouse_spec (inner : lib.Inner) (body : Bytes) :
    (handleLighthouse lib inner body).1.identity = inner.identity ∧
      (handleLighthouse lib inner body).1.peersByIndex = inner.peersByIndex ∧
      (handleLighthouse lib inner body).1.indexByVpnAddr = inner.indexByVpnAddr ∧
      (handleLighthouse lib inner body).1.inbox = inner.inbox := by
  unfold handleLighthouse
  dsimp only
  repeat' split
  all_goals exact ⟨rfl, rfl, rfl, rfl⟩

theorem stepped_handleLighthousePacket {hdr : Header} :
    Stepped inner (.datagram datagram source ambient)
      (handleLighthousePacket lib inner hdr (datagram.take Header.len) (datagram.drop Header.len)).1 := by
  unfold handleLighthousePacket
  rcases openPacket_spec inner hdr (datagram.take Header.len) (datagram.drop Header.len) with
    same | ⟨peer, peer', opened, was, tunnel, same, -⟩ <;> rw [same]
  · exact .unchanged
  · rcases opened with _ | ⟨owner, bytes⟩
    · exact ⟨rfl, .used was tunnel rfl rfl (.inl rfl)⟩
    · obtain ⟨identity, peers, indices, inbox⟩ := handleLighthouse_spec
        { inner with peersByIndex := inner.peersByIndex.insert hdr.remoteIndex (.established peer') } bytes
      exact ⟨identity, .used was tunnel peers indices (.inl inbox)⟩

theorem stepped_handleDatagram :
    Stepped inner (.datagram datagram source ambient)
      (handleDatagram lib inner datagram source ambient).1 := by
  unfold handleDatagram
  split
  · exact .unchanged
  next hdr parsed =>
    dsimp only
    split_ifs with handshake message lighthouse
    · unfold handleHandshake
      split_ifs with fresh
      · exact stepped_handleStage0
      · exact stepped_handleStage2 fresh
    · exact stepped_handleMessage parsed message
    · exact stepped_handleLighthousePacket
    · exact .unchanged

end Handlers

/-! ## Every step -/

theorem stepped_openHandshake (vpnAddr : IpAddr) (remote : SocketAddr) (waiter : WaiterId)
    (ambient : Ambient) :
    Stepped inner (.openHandshake vpnAddr remote waiter ambient)
      (openHandshake lib inner vpnAddr remote waiter ambient).1 := by
  unfold openHandshake
  dsimp only
  split
  · exact ⟨rfl, .aside rfl rfl ⟨[], rfl⟩⟩
  next index allocated =>
    split
    · exact ⟨rfl, .aside rfl rfl ⟨[], rfl⟩⟩
    · obtain ⟨nonzero, free⟩ := allocateIndex_spec allocated
      exact ⟨rfl, .pending rfl nonzero free rfl rfl rfl⟩

theorem stepped_sendTyped {event : SessionEvent} (vpnAddr : IpAddr) (type_ : UInt8) (payload : Bytes) :
    Stepped inner event (sendTyped lib inner vpnAddr type_ payload).1 := by
  unfold sendTyped
  split
  · exact .unchanged
  · split
    next peer was =>
      have same : SameTunnel peer { peer with transport := peer.transport.nextCounter.1 } :=
        ⟨rfl, rfl, rfl, rfl, rfl, rfl⟩
      exact ⟨rfl, .used was same rfl rfl (.inl rfl)⟩
    · exact .unchanged

theorem stepped_step (inner : lib.Inner) (event : SessionEvent) :
    Stepped inner event ((session lib).step inner event).1 := by
  cases event with
  | datagram bytes source ambient => exact stepped_handleDatagram
  | resolveKnown vpnAddr => exact .unchanged
  | awaitLighthouse vpnAddr waiter => exact ⟨rfl, .aside rfl rfl ⟨[], rfl⟩⟩
  | openHandshake vpnAddr remote waiter ambient => exact stepped_openHandshake vpnAddr remote waiter ambient
  | sendTyped vpnAddr type_ payload => exact stepped_sendTyped vpnAddr type_ payload
  | peerInfo vpnAddr => exact .unchanged
  | recv =>
    change Stepped inner .recv (recv lib inner).1
    unfold recv
    split
    · exact .unchanged
    next item rest filled => exact ⟨rfl, .aside rfl rfl ⟨[item], filled⟩⟩

/-! ## What handshakes and tunnels leave alone -/

/-- The states differ in their handshakes and tunnels only. -/
structure TunnelsOnly (inner next : lib.Inner) : Prop where
  knownAddrs : next.knownAddrs = inner.knownAddrs
  lighthouseWaiters : next.lighthouseWaiters = inner.lighthouseWaiters
  inbox : next.inbox = inner.inbox

theorem tunnelsOnly_openPacket (inner : lib.Inner) (hdr : Header) (headerBytes body : Bytes) :
    TunnelsOnly inner (openPacket lib inner hdr headerBytes body).1 := by
  rcases openPacket_spec inner hdr headerBytes body with same | ⟨peer, peer', opened, -, -, same, -⟩
  · rw [same]
    exact ⟨rfl, rfl, rfl⟩
  · rw [same]
    exact ⟨rfl, rfl, rfl⟩

theorem tunnelsOnly_handleHandshake (inner : lib.Inner) (hdr : Header) (body : Bytes) (source : SocketAddr)
    (ambient : Ambient) : TunnelsOnly inner (handleHandshake lib inner hdr body source ambient).1 := by
  unfold handleHandshake
  split
  · unfold handleStage0
    repeat' split
    all_goals exact ⟨rfl, rfl, rfl⟩
  · unfold handleStage2
    dsimp only
    repeat' split
    all_goals exact ⟨rfl, rfl, rfl⟩

theorem tunnelsOnly_openHandshake (inner : lib.Inner) (vpnAddr : IpAddr) (remote : SocketAddr)
    (waiter : WaiterId) (ambient : Ambient) :
    TunnelsOnly inner (openHandshake lib inner vpnAddr remote waiter ambient).1 := by
  unfold openHandshake
  dsimp only
  repeat' split
  all_goals exact ⟨rfl, rfl, rfl⟩

theorem tunnelsOnly_sendTyped (inner : lib.Inner) (vpnAddr : IpAddr) (type_ : UInt8) (payload : Bytes) :
    TunnelsOnly inner (sendTyped lib inner vpnAddr type_ payload).1 := by
  unfold sendTyped
  repeat' split
  all_goals exact ⟨rfl, rfl, rfl⟩

end Nebula
