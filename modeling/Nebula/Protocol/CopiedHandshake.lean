import Nebula.Protocol.RejectedReply

/-! # Copies of a stage-0 message

Nothing remembers which stage-0 messages a session has answered. A copy of one that was accepted is accepted
again: it establishes a second tunnel and moves the address of the peer over to it. The tunnel the address
pointed to before stays in its table, unused by `send`.
-/

namespace Nebula

open Rust

variable {lib : Externals}

/-- An address that points to a tunnel never stops doing so, though it may move to another one. -/
theorem Change.still_indexed {inner next : lib.Inner} {event : SessionEvent}
    (change : Change lib inner event next) {v : IpAddr} {i : UInt32}
    (was : inner.indexByVpnAddr.get v = some i) :
    ∃ i', next.indexByVpnAddr.get v = some i' := by
  cases change with
  | aside _ indices _ => exact ⟨i, indices ▸ was⟩
  | pending _ _ _ _ indices _ => exact ⟨i, indices ▸ was⟩
  | forgotten _ _ indices _ => exact ⟨i, indices ▸ was⟩
  | @established _ _ _ index peer _ _ _ _ _ indices _ =>
    rw [indices, HashMap.get_insert]
    split
    · exact ⟨index, rfl⟩
    · exact ⟨i, was⟩
  | used _ _ _ indices _ => exact ⟨i, indices ▸ was⟩

theorem still_indexed_run (inner : lib.Inner) (events : List SessionEvent) {v : IpAddr} {i : UInt32}
    (was : inner.indexByVpnAddr.get v = some i) :
    ∃ i', ((session lib).exec inner events).indexByVpnAddr.get v = some i' := by
  refine (session lib).state_invariant (fun state => ∃ i', state.indexByVpnAddr.get v = some i') ?_
    ⟨i, was⟩ events
  rintro state event ⟨i', there⟩
  exact (stepped_step state event).change.still_indexed there

variable (caCert hostCert : Certificate) (hostPrivateKey : Key) (cipher : Cipher) (vpnAddr : IpAddr)
  (lighthouses : List IpAddr) (staticHosts : List (IpAddr × SocketAddr))

/-! ## Answering again -/

/-- What is assumed of `snow`: a state that can write one message can write any other that fits, whatever the
randomness, and learns no other static key by writing. -/
structure Snow.AnswersAfresh (snow : Snow) : Prop where
  writes : ∀ {hs hs' : snow.HandshakeState} {entropy payload message : Bytes},
    snow.writeMessage hs entropy payload = some (hs', message) →
    ∀ entropy' payload', payload'.length + 96 ≤ 65535 → (snow.writeMessage hs entropy' payload').isSome
  keepsRemoteStatic : ∀ {hs hs' : snow.HandshakeState} {entropy payload message : Bytes},
    snow.writeMessage hs entropy payload = some (hs', message) →
    snow.getRemoteStatic hs' = snow.getRemoteStatic hs

/-- What a responder sends back. -/
def replyTo (hostCert : Certificate) (initiatorIndex responderIndex : UInt32) (unixNanos : UInt64) :
    NebulaHandshake where
  details := some {
    cert := hostCert.encodeForHandshake, initiatorIndex, responderIndex, cookie := 0, time := unixNanos,
    certVersion := 2 }
  hmac := []

section Respond

variable {snow : Snow} {codec : HandshakeCodec} {key : Key} {body msg : Bytes} {index index' : UInt32}
  {unixNanos unixNanos' : UInt64} {entropy : Bytes} {details : NebulaHandshakeDetails} {keys : SplitKeys}

theorem splitKeys_of_remoteStatic {hs : snow.HandshakeState} {remoteStatic : Bytes}
    (learned : snow.getRemoteStatic hs = some remoteStatic) :
    ∃ keys, splitKeys snow hs = .ok keys ∧ keys.remoteStatic = remoteStatic := by
  cases side : snow.isInitiator hs with
  | true =>
    refine ⟨⟨remoteStatic, (snow.rawSplit hs).1, (snow.rawSplit hs).2⟩, ?_, rfl⟩
    simp [splitKeys, learned, side]
  | false =>
    refine ⟨⟨remoteStatic, (snow.rawSplit hs).2, (snow.rawSplit hs).1⟩, ?_, rfl⟩
    simp [splitKeys, learned, side]

/-- What was answered once is answered again, to the same peer. -/
theorem respond_again (afresh : snow.AnswersAfresh) (entropy' : Bytes)
    (answered : respond snow codec cipher key hostCert.encodeForHandshake index body unixNanos entropy =
      .ok (details, msg, keys))
    (room : (codec.encode (replyTo hostCert details.initiatorIndex index' unixNanos')).length + 96 ≤ 65535) :
    ∃ msg' keys',
      respond snow codec cipher key hostCert.encodeForHandshake index' body unixNanos' entropy' =
        .ok (details, msg', keys') ∧
      keys'.remoteStatic = keys.remoteStatic := by
  obtain ⟨hs₀, built, answered⟩ := bind_eq_ok.mp answered
  obtain ⟨⟨hs₁, payload⟩, read, answered⟩ := bind_eq_ok.mp answered
  obtain ⟨their, decoded, answered⟩ := bind_eq_ok.mp answered
  dsimp only at answered
  split at answered
  · cases answered
  next usable =>
    obtain ⟨⟨hs, reply⟩, wrote, answered⟩ := bind_eq_ok.mp answered
    obtain ⟨keys, split, answered⟩ := bind_eq_ok.mp answered
    cases answered
    have writes := afresh.writes (okOr_eq_ok wrote) entropy' _ room
    obtain ⟨⟨hs', msg'⟩, wrote'⟩ := Option.isSome_iff_exists.mp writes
    have learned : snow.getRemoteStatic hs' = some keys.remoteStatic := by
      rw [afresh.keepsRemoteStatic wrote', ← afresh.keepsRemoteStatic (okOr_eq_ok wrote)]
      exact (splitKeys_spec split).1
    obtain ⟨keys', split', same⟩ := splitKeys_of_remoteStatic learned
    refine ⟨msg', keys', bind_eq_ok.mpr ⟨hs₀, built, bind_eq_ok.mpr ⟨(hs₁, payload), read,
      bind_eq_ok.mpr ⟨details, decoded, ?_⟩⟩⟩, same⟩
    dsimp only
    rw [if_neg usable]
    exact bind_eq_ok.mpr ⟨(hs', msg'), congrArg (okOr _) wrote', bind_eq_ok.mpr ⟨keys', split', rfl⟩⟩

end Respond

theorem admitCert_again {inner inner' : lib.Inner} {details : NebulaHandshakeDetails} {keys keys' : SplitKeys}
    {nowUnix later : Int64} {cert : Certificate} {v : IpAddr}
    (admitted : admitCert lib inner details keys nowUnix = some (cert, v))
    (sameCa : inner'.caCert = inner.caCert) (samePeer : keys'.remoteStatic = keys.remoteStatic)
    (caValid : inner.caCert.isExpired later = false)
    (valid : cert.isExpired later = false) : admitCert lib inner' details keys' later = some (cert, v) := by
  unfold admitCert at admitted ⊢
  rw [samePeer, sameCa]
  split at admitted
  · cases admitted
  next cert' recombined =>
    split at admitted
    · cases admitted
    next verified =>
      obtain ⟨network, -, same⟩ := Option.map_eq_some_iff.mp admitted
      cases same
      rw [verifyHostCert_later verified caValid valid]
      exact admitted

section Stage0

variable {inner : lib.Inner} {datagram : Bytes} {hdr : Header} {source : SocketAddr} {ambient : Ambient}
  {index : UInt32} {peer : Peer} {answer : Bytes}

variable (lib) in
/-- The session accepts the datagram and answers it: it establishes the peer's tunnel at the index, points
the peer's address there and sends the answer to where the datagram came from. -/
def Answered (inner : lib.Inner) (datagram : Bytes) (source : SocketAddr) (ambient : Ambient) (index : UInt32)
    (peer : Peer) (answer : Bytes) : Prop :=
  (session lib).step inner (.datagram datagram source ambient) =
    ({ inner with
        peersByIndex := inner.peersByIndex.insert index (.established peer)
        indexByVpnAddr := inner.indexByVpnAddr.insert peer.vpnAddr index },
      .handled [.sendTo answer source])

theorem handleDatagram_stage0 (parsed : Header.parse datagram = .ok hdr)
    (handshake : hdr.type_ = Header.handshake) (fresh : hdr.remoteIndex = 0) :
    handleDatagram lib inner datagram source ambient =
      handleStage0 lib inner (datagram.drop Header.len) source ambient := by
  rw [handleDatagram_handshake parsed handshake, handleHandshake, if_pos fresh]

/-- What `respond` and the certificate said when a stage-0 message was accepted. -/
theorem answered_stage0 (parsed : Header.parse datagram = .ok hdr) (handshake : hdr.type_ = Header.handshake)
    (fresh : hdr.remoteIndex = 0) (answered : Answered lib inner datagram source ambient index peer answer) :
    ∃ details msg keys,
      respond lib.snow lib.handshakeCodec inner.cipher inner.hostPrivateKey
        inner.hostCert.encodeForHandshake index (datagram.drop Header.len) ambient.unixNanos ambient.entropy =
          .ok (details, msg, keys) ∧
      admitCert lib inner details keys ambient.nowUnix = some (peer.cert, peer.vpnAddr) ∧
      details.initiatorIndex = peer.remoteIndex := by
  unfold Answered at answered
  rw [step_datagram, handleDatagram_stage0 parsed handshake fresh] at answered
  unfold handleStage0 at answered
  split at answered
  · simp at answered
  next index' allocated =>
    split at answered
    · simp at answered
    next details msg keys responded =>
      split at answered
      · simp at answered
      next cert v admitted =>
        obtain ⟨nonzero, free⟩ := allocateIndex_spec allocated
        obtain ⟨tables, -⟩ := Prod.mk.inj answered
        have there := congrArg (fun next => next.peersByIndex.get index') tables
        simp only [establish, HashMap.get_insert_self, HashMap.get_insert] at there
        split at there
        next here =>
          subst here
          cases there
          exact ⟨details, msg, keys, responded, admitted, rfl⟩
        · rw [free] at there
          cases there

/-- Conversely, these make the session accept it. -/
theorem answered_of_respond {details : NebulaHandshakeDetails} {msg : Bytes} {keys : SplitKeys}
    {cert : Certificate} {v : IpAddr} (source : SocketAddr) (parsed : Header.parse datagram = .ok hdr)
    (handshake : hdr.type_ = Header.handshake) (fresh : hdr.remoteIndex = 0)
    (allocated : allocateIndex lib inner ambient.subsecNanos = some index)
    (responded : respond lib.snow lib.handshakeCodec inner.cipher inner.hostPrivateKey
      inner.hostCert.encodeForHandshake index (datagram.drop Header.len) ambient.unixNanos ambient.entropy =
        .ok (details, msg, keys))
    (admitted : admitCert lib inner details keys ambient.nowUnix = some (cert, v)) :
    ∃ answer, Answered lib inner datagram source ambient index
      { transport := .new inner.cipher keys.sendKey keys.recvKey, remote := source, vpnAddr := v, cert
        remoteIndex := details.initiatorIndex } answer := by
  unfold Answered
  rw [step_datagram, handleDatagram_stage0 parsed handshake fresh]
  simp only [handleStage0, allocated, responded, admitted]
  exact ⟨_, rfl⟩

/-- A session of the same configuration answers what was answered once, and gives the same peer a tunnel. -/
theorem answered_again {inner' : lib.Inner} (same : inner'.identity = inner.identity)
    (afresh : lib.snow.AnswersAfresh) (source' : SocketAddr) {ambient' : Ambient} {index' : UInt32}
    (parsed : Header.parse datagram = .ok hdr) (handshake : hdr.type_ = Header.handshake)
    (fresh : hdr.remoteIndex = 0) (answered : Answered lib inner datagram source ambient index peer answer)
    (allocated : allocateIndex lib inner' ambient'.subsecNanos = some index')
    (room : (lib.handshakeCodec.encode
      (replyTo inner.hostCert peer.remoteIndex index' ambient'.unixNanos)).length + 96 ≤ 65535)
    (caValid : inner.caCert.isExpired ambient'.nowUnix = false)
    (valid : peer.cert.isExpired ambient'.nowUnix = false) :
    ∃ details msg keys answer', respond lib.snow lib.handshakeCodec inner'.cipher inner'.hostPrivateKey
        inner'.hostCert.encodeForHandshake index' (datagram.drop Header.len) ambient'.unixNanos
        ambient'.entropy = .ok (details, msg, keys) ∧
      Answered lib inner' datagram source' ambient' index'
        { peer with
          transport := .new inner'.cipher keys.sendKey keys.recvKey
          remote := source' } answer' := by
  simp only [Inner.identity, Prod.mk.injEq] at same
  obtain ⟨sameCa, sameHost, sameKey, sameCipher⟩ := same
  obtain ⟨details, msg, keys, responded, admitted, initiator⟩ :=
    answered_stage0 parsed handshake fresh answered
  rw [← initiator, ← sameHost] at room
  rw [← sameHost, ← sameKey, ← sameCipher] at responded
  obtain ⟨msg', keys', responded', samePeer⟩ := respond_again _ _ afresh ambient'.entropy responded room
  have admitted' := admitCert_again admitted sameCa samePeer caValid valid
  obtain ⟨answer', answered'⟩ :=
    answered_of_respond source' parsed handshake fresh allocated responded' admitted'
  rw [initiator] at answered'
  exact ⟨details, msg', keys', answer', responded', answered'⟩

end Stage0

/-- The datagram gave the owner of `peer`'s certificate a second tunnel, `copy` at `index`: under the keys of a
new run of `respond` and towards the source of the datagram. Its address moved there from another
tunnel; every other address and every tunnel is as before. -/
structure Repointed (inner : lib.Inner) (datagram : Bytes) (source : SocketAddr) (ambient : Ambient)
    (peer copy : Peer) (index : UInt32) (next : lib.Inner) : Prop where
  nonzero : index ≠ 0
  free : inner.peersByIndex.get index = none
  peers : next.peersByIndex = inner.peersByIndex.insert index (.established copy)
  indices : next.indexByVpnAddr = inner.indexByVpnAddr.insert peer.vpnAddr index
  moved : ∃ old, inner.indexByVpnAddr.get peer.vpnAddr = some old ∧ old ≠ index
  cert : copy.cert = peer.cert
  vpnAddr : copy.vpnAddr = peer.vpnAddr
  remoteIndex : copy.remoteIndex = peer.remoteIndex
  remote : copy.remote = source
  keys : ∃ details msg keys, respond lib.snow lib.handshakeCodec inner.cipher inner.hostPrivateKey
    inner.hostCert.encodeForHandshake index (datagram.drop Header.len) ambient.unixNanos ambient.entropy =
      .ok (details, msg, keys) ∧ copy.transport = .new inner.cipher keys.sendKey keys.recvKey

/-- What `send` uses for the address after that. -/
theorem Repointed.sendTyped {inner next : lib.Inner} {datagram : Bytes} {source : SocketAddr}
    {ambient : Ambient} {peer copy : Peer} {index : UInt32}
    (repointed : Repointed inner datagram source ambient peer copy index next)
    {type_ : UInt8} {payload packet : Bytes} {dest : SocketAddr}
    (sent : (sendTyped lib next peer.vpnAddr type_ payload).2 = .ok (packet, dest)) :
    dest = source ∧ SentThrough lib.aead copy payload packet := by
  obtain ⟨i, used, indexed, here, toPeer, through⟩ := sendTyped_spec sent
  rw [repointed.indices, HashMap.get_insert_self] at indexed
  cases indexed
  rw [repointed.peers, HashMap.get_insert_self] at here
  cases here
  exact ⟨toPeer.trans repointed.remote, through⟩

/-- A session that has accepted and answered a stage-0 message once, and goes on in whatever way, accepts and
answers a copy of it from any address while the certificates are valid: it establishes another tunnel to
the same peer at a fresh index, with new keys and towards the copy's source, and moves the peer's address
to it, so that `send` uses the new tunnel from then on. -/
theorem copied_stage0_repoints (afresh : lib.snow.AnswersAfresh) (before after : List SessionEvent)
    (datagram : Bytes) (hdr : Header) (source source' : SocketAddr) (ambient ambient' : Ambient)
    (first index : UInt32) (peer : Peer) (answer : Bytes) (parsed : Header.parse datagram = .ok hdr)
    (handshake : hdr.type_ = Header.handshake) (fresh : hdr.remoteIndex = 0)
    (answered : Answered lib
      ((session lib).exec (.new caCert hostCert hostPrivateKey cipher vpnAddr lighthouses staticHosts) before)
      datagram source ambient first peer answer)
    (allocated : allocateIndex lib
      ((session lib).exec (.new caCert hostCert hostPrivateKey cipher vpnAddr lighthouses staticHosts)
        (before ++ .datagram datagram source ambient :: after)) ambient'.subsecNanos = some index)
    (room : (lib.handshakeCodec.encode
      (replyTo hostCert peer.remoteIndex index ambient'.unixNanos)).length + 96 ≤ 65535)
    (caValid : caCert.isExpired ambient'.nowUnix = false)
    (valid : peer.cert.isExpired ambient'.nowUnix = false) :
    let reached :=
      (session lib).exec (.new caCert hostCert hostPrivateKey cipher vpnAddr lighthouses staticHosts)
      (before ++ .datagram datagram source ambient :: after)
    let next := ((session lib).step reached (.datagram datagram source' ambient')).1
    ∃ copy answer', Answered lib reached datagram source' ambient' index copy answer' ∧
      Repointed reached datagram source' ambient' peer copy index next ∧
      next.indexByVpnAddr ≠ reached.indexByVpnAddr ∧
      ∀ type_ payload packet dest, (sendTyped lib next peer.vpnAddr type_ payload).2 = .ok (packet, dest) →
        dest = source' ∧ SentThrough lib.aead copy payload packet := by
  intro reached next
  have soundBefore :=
    @sound_run lib caCert hostCert hostPrivateKey cipher vpnAddr lighthouses staticHosts before
  have sound := @sound_run lib caCert hostCert hostPrivateKey cipher vpnAddr lighthouses staticHosts
    (before ++ .datagram datagram source ambient :: after)
  obtain ⟨sameCa, others⟩ := Prod.mk.inj soundBefore.identity
  obtain ⟨sameHost, -⟩ := Prod.mk.inj others
  rw [← show _ = caCert from sameCa] at caValid
  rw [← show _ = hostCert from sameHost] at room
  obtain ⟨nonzero, free⟩ := allocateIndex_spec allocated
  obtain ⟨details, msg, keys, answer', responded, answered'⟩ :=
    answered_again (sound.identity.trans soundBefore.identity.symm) afresh source' parsed handshake fresh
      answered allocated room caValid valid
  -- The address has pointed to some tunnel since the original, and the new index is not that one's.
  obtain ⟨old, pointed⟩ : ∃ old, reached.indexByVpnAddr.get peer.vpnAddr = some old := by
    change ∃ old, ((session lib).exec _ _).indexByVpnAddr.get _ = _
    rw [(session lib).exec_append, (session lib).exec_cons, answered]
    exact still_indexed_run _ after (HashMap.get_insert_self _ _ _)
  have moved : old ≠ index := by
    rintro rfl
    obtain ⟨other, there, -⟩ := sound.indexed _ _ pointed
    rw [free] at there
    cases there
  have repointed : Repointed reached datagram source' ambient' peer
      { peer with
        transport := .new reached.cipher keys.sendKey keys.recvKey
        remote := source' } index next :=
    { nonzero, free
      peers := congrArg (·.1.peersByIndex) answered'
      indices := congrArg (·.1.indexByVpnAddr) answered'
      moved := ⟨old, pointed, moved⟩
      cert := rfl, vpnAddr := rfl, remoteIndex := rfl, remote := rfl
      keys := ⟨details, msg, keys, responded, rfl⟩ }
  refine ⟨_, answer', answered', repointed, ?_, ?_⟩
  · intro same
    have there : next.indexByVpnAddr.get peer.vpnAddr = some index := by
      rw [repointed.indices, HashMap.get_insert_self]
    rw [same, pointed] at there
    exact moved (Option.some.inj there)
  · intro type_ payload packet dest sent
    exact repointed.sendTyped sent

section

open TestNetwork

/-- Host B has answered host A's stage-0 message. -/
def answeredA : network.Inner :=
  (session network).exec sessionB [.datagram stage0Datagram (endpoint 1) (ambient 2)]

/-- A copy of that message from elsewhere moves host A's address, and what is sent there, to its source. -/
theorem copied_stage0_moves_address :
    let copied := ((session network).step answeredA (.datagram stage0Datagram (endpoint 9) (ambient 3))).1
    (handleDatagram network sessionB stage0Datagram (endpoint 1) (ambient 2)).2 =
      [.sendTo stage2Datagram (endpoint 1)] ∧
    copied.indexByVpnAddr ≠ answeredA.indexByVpnAddr ∧
    (sendTyped network answeredA (vpn 1) Header.message [1]).2.map Prod.snd = .ok (endpoint 1) ∧
    (sendTyped network copied (vpn 1) Header.message [1]).2.map Prod.snd = .ok (endpoint 9) := by
  intro copied
  -- one evaluation of the two states for all that is asked of them
  have evaluated : (handleDatagram network sessionB stage0Datagram (endpoint 1) (ambient 2)).2 =
        [.sendTo stage2Datagram (endpoint 1)] ∧
      copied.indexByVpnAddr.get (vpn 1) ≠ answeredA.indexByVpnAddr.get (vpn 1) ∧
      (sendTyped network answeredA (vpn 1) Header.message [1]).2.map Prod.snd = .ok (endpoint 1) ∧
      (sendTyped network copied (vpn 1) Header.message [1]).2.map Prod.snd = .ok (endpoint 9) := by
    decide +kernel
  obtain ⟨answered, moved, before, after⟩ := evaluated
  refine ⟨answered, ?_, before, after⟩
  intro same
  exact moved (congrArg (·.get (vpn 1)) same)

/-- The keys of the first handshake, on host B. -/
def firstKeys : SplitKeys where
  remoteStatic := hostA.publicKey
  sendKey := .replicate 32 255
  recvKey := .replicate 32 3

theorem snow_answersAfresh : network.snow.AnswersAfresh where
  writes := by
    intro hs hs' entropy payload message wrote entropy' payload' fits
    exact Option.isSome_iff_exists.mpr ⟨_, if_pos fits⟩
  keepsRemoteStatic := by
    intro hs hs' entropy payload message wrote
    change (if payload.length + 96 ≤ 65535 then some _ else none) = some (hs', message) at wrote
    split at wrote
    · cases wrote
      rfl
    · cases wrote

/-- The copy from elsewhere meets every condition. -/
theorem copy_from_elsewhere_repoints :
    ∃ copy answer,
      Answered network answeredA stage0Datagram (endpoint 9) (ambient 3) (randIndex 3) copy answer ∧
      copy.cert = hostA ∧ copy.remote = endpoint 9 ∧ copy.remoteIndex = indexA := by
  have parsed : Header.parse stage0Datagram = .ok (header 0 1) :=
    Header.parse_encode _ (by decide) (by decide) _
  have responded : respond network.snow network.handshakeCodec .aesGcm keyB hostB.encodeForHandshake indexB
      (stage0Datagram.drop Header.len) (ambient 2).unixNanos (ambient 2).entropy =
        .ok (helloDetails, stage2Datagram.drop Header.len, firstKeys) := by decide +kernel
  have allocated : allocateIndex network sessionB (ambient 2).subsecNanos = some indexB := by decide +kernel
  have admitted : admitCert network sessionB helloDetails firstKeys (ambient 2).nowUnix =
    some (hostA, vpn 1) := by
    decide +kernel
  obtain ⟨answer, answered⟩ := answered_of_respond (endpoint 1) parsed rfl rfl allocated responded admitted
  obtain ⟨copy, answer', again, repointed, -⟩ := copied_stage0_repoints ca hostB keyB .aesGcm (vpn 2) [] []
    snow_answersAfresh [] [] stage0Datagram (header 0 1) (endpoint 1) (endpoint 9) (ambient 2) (ambient 3)
    indexB (randIndex 3) _ answer parsed rfl rfl answered (by decide +kernel) (by decide +kernel)
    (by decide +kernel) (by decide +kernel)
  exact ⟨copy, answer', again, repointed.cert, repointed.remote, repointed.remoteIndex⟩

end

end Nebula
