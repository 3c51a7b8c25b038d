import Nebula.Protocol.Cert.RoundTrip
import Nebula.Protocol.Connected
import Nebula.Protocol.HandshakeAgreement
import Nebula.Protocol.Returning

/-! # A handshake that gets through

What `connect` is there for. Two hosts trust each other, the first message of a handshake arrives at the other host and
the reply comes back: then the call returns `Ok`, and the two sessions hold the ends of a tunnel from then on, whatever
else they do. Of `snow` and `prost` it is assumed that they read what they have written.
-/

namespace Nebula

open Rust Machine

/-! ## The two messages -/

section Messages

/-- Two parties have read each other's messages. -/
structure Snow.Together (snow : Snow) (publicKey : Key → Bytes) (key key' : Key)
    (initiator responder : snow.HandshakeState) : Prop where
  initiates : snow.isInitiator initiator = true
  responds : snow.isInitiator responder = false
  responderKey : snow.getRemoteStatic initiator = some (publicKey key')
  initiatorKey : snow.getRemoteStatic responder = some (publicKey key)
  split : snow.rawSplit initiator = snow.rawSplit responder

/-- What is assumed of `snow`: it writes a message of up to `limit` bytes with 32 bytes of randomness, a responder reads
what an initiator has written, whatever their keys are, and the initiator reads the answer. -/
structure Snow.Working (snow : Snow) (publicKey : Key → Bytes) (limit : ℕ) : Prop where
  opens : ∀ cipher key (entropy payload : Bytes), entropy.length = 32 → payload.length ≤ limit →
    ∃ fresh hs msg, snow.buildInitiator cipher key = some fresh ∧
      snow.writeMessage fresh entropy payload = some (hs, msg)
  reads : ∀ {cipher key} {entropy payload : Bytes} {fresh hs msg}, entropy.length = 32 →
    snow.buildInitiator cipher key = some fresh → snow.writeMessage fresh entropy payload = some (hs, msg) →
    ∀ key', ∃ fresh' hs', snow.buildResponder cipher key' = some fresh' ∧
      snow.readMessage fresh' msg = some (hs', payload)
  answers : ∀ {cipher key} {entropy payload : Bytes} {fresh hs msg key' fresh' hs' found} {entropy' reply : Bytes},
    entropy.length = 32 → snow.buildInitiator cipher key = some fresh →
    snow.writeMessage fresh entropy payload = some (hs, msg) → snow.buildResponder cipher key' = some fresh' →
    snow.readMessage fresh' msg = some (hs', found) → entropy'.length = 32 → reply.length ≤ limit →
    ∃ responder msg' initiator, snow.writeMessage hs' entropy' reply = some (responder, msg') ∧
      snow.readMessage hs msg' = some (initiator, reply) ∧ snow.Together publicKey key key' initiator responder

/-- The codec reads the message that it has written, and a handshake message has room for it. -/
structure HandshakeCodec.Carries (codec : HandshakeCodec) (limit : ℕ) (message : NebulaHandshake) : Prop where
  fits : (codec.encode message).length ≤ limit
  reads : codec.decode (codec.encode message) = some message

/-- What a host says in a handshake; an initiator does not know the other index yet. -/
def handshakeMessage (cert : Bytes) (initiatorIndex responderIndex : UInt32) (time : UInt64) : NebulaHandshake :=
  ⟨some ⟨cert, initiatorIndex, responderIndex, 0, time, 2⟩, []⟩

/-- The keys of the two sides belong together. -/
structure KeysMatch (publicKey : Key → Bytes) (key key' : Key) (mine theirs : SplitKeys) : Prop where
  responderKey : mine.remoteStatic = publicKey key'
  initiatorKey : theirs.remoteStatic = publicKey key
  sends : mine.sendKey = theirs.recvKey
  receives : mine.recvKey = theirs.sendKey

variable {snow : Snow} {codec : HandshakeCodec} {publicKey : Key → Bytes} {limit : ℕ} {cipher : Cipher}
  {key key' : Key} {cert cert' : Bytes} {index index' : UInt32} {time time' : UInt64} {entropy entropy' : Bytes}

theorem Snow.Together.keys {initiator responder : snow.HandshakeState}
    (together : snow.Together publicKey key key' initiator responder) :
    ∃ mine theirs, splitKeys snow initiator = .ok mine ∧ splitKeys snow responder = .ok theirs ∧
      KeysMatch publicKey key key' mine theirs := by
  refine ⟨⟨publicKey key', (snow.rawSplit responder).1, (snow.rawSplit responder).2⟩,
    ⟨publicKey key, (snow.rawSplit responder).2, (snow.rawSplit responder).1⟩, ?_, ?_, rfl, rfl, rfl, rfl⟩
  · simp only [splitKeys, together.responderKey, together.initiates, together.split]
    rfl
  · simp only [splitKeys, together.initiatorKey, together.responds]
    rfl

theorem Snow.Working.stage0 (works : snow.Working publicKey limit) (drawn : entropy.length = 32)
    (carried : codec.Carries limit (handshakeMessage cert index 0 time)) :
    ∃ hs msg, stage0 snow codec cipher key cert index time entropy = .ok (hs, msg) := by
  obtain ⟨fresh, hs, msg, built, wrote⟩ := works.opens cipher key entropy _ drawn carried.fits
  exact ⟨hs, msg, bind_eq_ok.mpr ⟨fresh, okOr_of_some built _, okOr_of_some wrote _⟩⟩

/-- What the codec has written is read as the details that the host wrote. -/
theorem HandshakeCodec.Carries.details (carried : codec.Carries limit (handshakeMessage cert index index' time))
    (missing : String) :
    decodeDetailsOf codec missing (codec.encode (handshakeMessage cert index index' time)) =
      .ok ⟨cert, index, index', 0, time, 2⟩ :=
  bind_eq_ok.mpr ⟨handshakeMessage cert index index' time, okOr_of_some carried.reads _, rfl⟩

/-- A first message that arrives is answered, and the answer completes the handshake that it belongs to. -/
theorem Snow.Working.respond (works : snow.Working publicKey limit) (drawn : entropy.length = 32)
    (drawn' : entropy'.length = 32) (carried : codec.Carries limit (handshakeMessage cert index 0 time))
    (carried' : codec.Carries limit (handshakeMessage cert' index index' time')) (nonzero : index ≠ 0)
    (nonzero' : index' ≠ 0) {hs : snow.HandshakeState} {msg : Bytes}
    (stage : Nebula.stage0 snow codec cipher key cert index time entropy = .ok (hs, msg)) :
    ∃ reply theirs mine,
      Nebula.respond snow codec cipher key' cert' index' msg time' entropy' =
        .ok (⟨cert, index, 0, 0, time, 2⟩, reply, theirs) ∧
      finishInitiator snow codec hs reply = .ok (⟨cert', index, index', 0, time', 2⟩, mine) ∧
      KeysMatch publicKey key key' mine theirs := by
  obtain ⟨fresh, built, wrote⟩ := bind_eq_ok.mp stage
  have built := okOr_eq_ok built
  have wrote := okOr_eq_ok wrote
  obtain ⟨fresh', hs', built', read⟩ := works.reads drawn built wrote key'
  obtain ⟨responder, reply, initiator, wrote', read', together⟩ :=
    works.answers drawn built wrote built' read drawn' carried'.fits
  obtain ⟨mine, theirs, initiatorKeys, responderKeys, matching⟩ := together.keys
  refine ⟨reply, theirs, mine, ?_, ?_, matching⟩
  · refine bind_eq_ok.mpr ⟨fresh', okOr_of_some built' _, ?_⟩
    refine bind_eq_ok.mpr ⟨_, okOr_of_some read _, ?_⟩
    refine bind_eq_ok.mpr ⟨_, carried.details _, ?_⟩
    dsimp only
    rw [if_neg nonzero]
    refine bind_eq_ok.mpr ⟨_, okOr_of_some wrote' _, ?_⟩
    exact bind_eq_ok.mpr ⟨theirs, responderKeys, rfl⟩
  · refine bind_eq_ok.mpr ⟨_, okOr_of_some read' _, ?_⟩
    refine bind_eq_ok.mpr ⟨_, carried'.details _, ?_⟩
    dsimp only
    rw [if_neg nonzero']
    exact bind_eq_ok.mpr ⟨mine, initiatorKeys, rfl⟩

end Messages

variable {lib : Externals}

/-! ## The sections that handle them -/

section Sections

variable {publicKey : Key → Bytes} {inner : lib.Inner} {i : UInt32} {hs : lib.snow.HandshakeState} {body : Bytes}
  {details : NebulaHandshakeDetails} {keys : SplitKeys} {cert : Certificate} {v : IpAddr} {ambient : Ambient}

/-- The certificate is for the host's key. -/
structure BuiltSession.Keyed (host : BuiltSession) (publicKey : Key → Bytes) : Prop where
  publicKey : host.hostCert.publicKey = publicKey host.hostPrivateKey
  curve : host.hostCert.curve = .curve25519

/-- A host that sends its certificate with its own key is admitted as itself. -/
theorem BuiltSession.Keyed.admitted {host : BuiltSession} (keyed : host.Keyed publicKey)
    (sent : details.cert = host.hostCert.encodeForHandshake)
    (static : keys.remoteStatic = publicKey host.hostPrivateKey) {nowUnix : Int64}
    (verified : verifyHostCert lib.crypto host.hostCert inner.caCert nowUnix = .ok ()) :
    admitCert lib inner details keys nowUnix = some (host.hostCert, host.vpnAddr) := by
  obtain ⟨der, decoded⟩ := host.decoded
  have recombined := Certificate.recombine_encodeForHandshake decoded
  rw [keyed.publicKey, keyed.curve] at recombined
  obtain ⟨network, first, addr⟩ := Option.map_eq_some_iff.mp host.first
  unfold admitCert
  rw [sent, static, recombined]
  dsimp only
  rw [verified, first, ← addr]
  rfl

theorem parse_handshake (remoteIndex : UInt32) (counter : UInt64) (body : Bytes) :
    Header.parse ((handshakeHeader remoteIndex counter).encode ++ body) = .ok (handshakeHeader remoteIndex counter) :=
  Header.parse_encode _ (by decide : Header.currentVersion < 16) (by decide : Header.handshake < 16) body

/-- A first message that arrives is answered, by the tunnel of the other side. -/
theorem answers_opening (source : SocketAddr) {reply : Bytes}
    (allocated : allocateIndex lib inner ambient.subsecNanos = some i)
    (responded : Responds lib inner i ambient body details reply keys)
    (admitted : admitCert lib inner details keys ambient.nowUnix = some (cert, v)) :
    handleDatagram lib inner ((handshakeHeader 0 1).encode ++ body) source ambient =
      (establish lib inner i cert v keys source details.initiatorIndex,
        [.sendTo ((handshakeHeader details.initiatorIndex 2).encode ++ reply) source]) := by
  rw [handleDatagram_handshake (parse_handshake 0 1 body) rfl, handleHandshake,
    if_pos (show (handshakeHeader 0 1).remoteIndex = 0 from rfl), List.drop_left' (Header.length_encode _),
    handleStage0]
  unfold Responds at responded
  simp only [allocated, responded, admitted]
  rfl

/-- The answer completes the pending handshake. -/
theorem completes_of_answer (source : SocketAddr) (nonzero : i ≠ 0)
    (pending : inner.peersByIndex.get i = some (.handshaking hs))
    (finished : finishInitiator lib.snow lib.handshakeCodec hs body = .ok (details, keys))
    (admitted : admitCert lib inner details keys ambient.nowUnix = some (cert, v)) :
    let datagram := (handshakeHeader i 2).encode ++ body
    CompletesAsInitiator lib inner datagram ambient v ∧
      (handleDatagram lib inner datagram source ambient).1.peersByIndex.get i =
        some (.established (tunnelOf inner.cipher keys source v cert details.responderIndex)) := by
  intro datagram
  have parsed : Header.parse datagram = .ok (handshakeHeader i 2) := parse_handshake i 2 body
  have rest : datagram.drop Header.len = body := List.drop_left' (Header.length_encode _)
  refine ⟨⟨_, hs, details, keys, cert, parsed, rfl, nonzero, pending, rest ▸ finished, admitted⟩, ?_⟩
  have handled : handleDatagram lib inner datagram source ambient = handleStage2 lib inner i body source ambient := by
    rw [handleDatagram_reply parsed rfl nonzero, rest]
    rfl
  rw [handled, handleStage2]
  simp only [pending, finished]
  change admitCert lib { inner with peersByIndex := inner.peersByIndex.remove i } details keys ambient.nowUnix =
    some (cert, v) at admitted
  simp only [admitted, establish]
  split
  · exact HashMap.get_insert_self _ _ _
  · exact HashMap.get_insert_self _ _ _

/-- The section of `connect` behind `resolve` sends the first message and waits. -/
theorem advance_opening {state : Callers lib} {k : ℕ} {remote : SocketAddr}
    (here : state.callers[k]? = some ⟨true, v, .opening remote⟩)
    (allocated : allocateIndex lib state.inner ambient.subsecNanos = some i)
    (stage : Initiates lib state.inner i ambient hs body) :
    let opened := (callers lib).step state (.advance k ambient)
    opened.1.inner.peersByIndex.get i = some (.handshaking hs) ∧
      opened.1.callers[k]? = some ⟨true, v, .awaiting .nothing⟩ ∧
      Effect.sendTo ((handshakeHeader 0 1).encode ++ body) remote ∈ opened.2 := by
  intro opened
  have ran : openHandshake lib state.inner v remote k ambient =
      ({ state.inner with
          connected := state.inner.connected.insert v k
          peersByIndex := state.inner.peersByIndex.insert i (.handshaking hs) }, some (.ok ()),
        replaced state.inner.connected v ++ [.sendTo ((handshakeHeader 0 1).encode ++ body) remote]) := by
    unfold Initiates at stage
    have allocated : allocateIndex lib { state.inner with connected := state.inner.connected.insert v k }
        ambient.subsecNanos = some i := allocated
    simp only [openHandshake, allocated, stage]
    rfl
  simp only [opened, callers, here, advance, ran]
  exact ⟨HashMap.get_insert_self _ _ _, get_proceed here _ _ _, List.mem_append_right _ (List.mem_singleton_self _)⟩

end Sections

/-! ## What else goes on meanwhile -/

section Meanwhile

/-- The step leaves call `k` alone, which waits for a tunnel to `v`, and the pending handshake at `i`: it is not the end
of the call's five seconds, it opens no other handshake with `v`, and it handles no handshake datagram for `i`. -/
def leavesAlone (k : ℕ) (v : IpAddr) (i : UInt32) (state : Callers lib) : CallersEvent → Bool
  | .call .. => true
  | .advance j _ =>
    match state.callers[j]? with
    | some ⟨_, w, .opening _⟩ => w ≠ v
    | _ => true
  | .timeOut j => j ≠ k
  | .other (.datagram bytes ..) => (handshakeBody bytes).map Prod.fst ≠ some i
  | .other _ => true

variable {inner : lib.Inner} {i : UInt32} {hs : lib.snow.HandshakeState}

theorem pending_insert {peers : HashMap UInt32 (PeerState lib.snow.HandshakeState)}
    (pending : peers.get i = some (.handshaking hs)) {index : UInt32} {was : Option (PeerState lib.snow.HandshakeState)}
    (there : peers.get index = was) (other : was ≠ some (.handshaking hs)) (now : PeerState lib.snow.HandshakeState) :
    (peers.insert index now).get i = some (.handshaking hs) := by
  rw [HashMap.get_insert_of_ne _ _ ?_, pending]
  rintro rfl
  exact other (there.symm.trans pending)

theorem pending_openPacket (pending : inner.peersByIndex.get i = some (.handshaking hs)) (hdr : Header)
    (headerBytes body : Bytes) :
    (openPacket lib inner hdr headerBytes body).1.peersByIndex.get i = some (.handshaking hs) := by
  rcases openPacket_spec inner hdr headerBytes body with same | ⟨peer, peer', opened, was, -, same, -⟩ <;> rw [same]
  · exact pending
  · exact pending_insert pending was (by simp) _

theorem pending_sendTyped (pending : inner.peersByIndex.get i = some (.handshaking hs)) (w : IpAddr) (type_ : UInt8)
    (payload : Bytes) : (sendTyped lib inner w type_ payload).1.peersByIndex.get i = some (.handshaking hs) := by
  rcases sendTyped_cases inner w type_ payload with same | ⟨index, peer, peer', was, same⟩ <;> rw [same]
  · exact pending
  · exact pending_insert pending was (by simp) _

theorem pending_handleHandshake (pending : inner.peersByIndex.get i = some (.handshaking hs)) {hdr : Header}
    (apart : hdr.remoteIndex ≠ i) (body : Bytes) (source : SocketAddr) (ambient : Ambient) :
    (handleHandshake lib inner hdr body source ambient).1.peersByIndex.get i = some (.handshaking hs) := by
  unfold handleHandshake
  split
  · unfold handleStage0
    split
    · exact pending
    next index allocated =>
      split
      · exact pending
      · split
        · exact pending
        · exact pending_insert pending (allocateIndex_spec allocated).2 (by simp) _
  · have removed : (inner.peersByIndex.remove hdr.remoteIndex).get i = some (.handshaking hs) :=
      (HashMap.get_remove_of_ne _ apart.symm).trans pending
    unfold handleStage2
    split
    · dsimp only
      split
      · exact removed
      · split
        · exact removed
        · dsimp only [establish]
          split
          · exact (HashMap.get_insert_of_ne _ _ apart.symm).trans removed
          · exact (HashMap.get_insert_of_ne _ _ apart.symm).trans removed
    · exact pending

theorem pending_datagram (pending : inner.peersByIndex.get i = some (.handshaking hs)) {bytes : Bytes}
    (apart : (handshakeBody bytes).map Prod.fst ≠ some i) (source : SocketAddr) (ambient : Ambient) :
    (handleDatagram lib inner bytes source ambient).1.peersByIndex.get i = some (.handshaking hs) := by
  cases parsed : Header.parse bytes with
  | error failure =>
    simp only [handleDatagram, parsed]
    exact pending
  | ok hdr =>
    have opened := pending_openPacket pending hdr (bytes.take Header.len) (bytes.drop Header.len)
    simp only [handleDatagram, parsed]
    split_ifs with handshake message lighthouse
    · refine pending_handleHandshake pending ?_ _ source ambient
      rintro rfl
      exact apart (by simp [handshakeBody, parsed, handshake])
    · unfold handleMessage
      split
      next ran => rwa [ran] at opened
      next ran => rwa [ran] at opened
    · unfold handleLighthousePacket
      split
      next next peer contents ran =>
        rw [ran] at opened
        rwa [(handleLighthouse_spec next contents).2.1]
      next ran => rwa [ran] at opened
    · exact pending

/-- No section of a call ends a pending handshake. -/
theorem pending_advance {state : Callers lib} (pending : state.inner.peersByIndex.get i = some (.handshaking hs))
    (j : ℕ) (caller : Caller) (ambient : Ambient) :
    (advance lib state j caller ambient).1.inner.peersByIndex.get i = some (.handshaking hs) := by
  unfold advance
  dsimp only
  split
  · split
    · exact pending
    · exact pending
  · exact pending
  next heard lighthouse rest asking =>
    have sent := pending_sendTyped pending lighthouse Header.lighthouse
      (lib.metaCodec.encode (Lighthouse.hostQuery caller.vpnAddr))
    split
    next ran => rwa [ran] at sent
    next ran => rwa [ran] at sent
    next ran => rwa [ran] at sent
  · exact pending
  · exact pending
  next remote opening =>
    rcases openHandshake_cases state.inner caller.vpnAddr remote j ambient with
      busy | ⟨index, allocated, ⟨failure, -, ran⟩ | ⟨hs', msg, packet, -, ran⟩⟩
    · split
      · exact pending
      next ran => cases (congrArg (·.2.1) ran).symm.trans busy
      next ran => cases (congrArg (·.2.1) ran).symm.trans busy
    · rw [ran]
      exact pending
    · rw [ran]
      exact pending_insert pending (allocateIndex_spec allocated).2 (by simp) _
  all_goals exact pending

theorem pending_step {state : Callers lib} (pending : state.inner.peersByIndex.get i = some (.handshaking hs))
    {k : ℕ} {v : IpAddr} {event : CallersEvent} (alone : leavesAlone k v i state event = true) :
    ((callers lib).step state event).1.inner.peersByIndex.get i = some (.handshaking hs) := by
  cases event with
  | call | timeOut => exact pending
  | advance j ambient =>
    rcases here : state.callers[j]? with _ | caller
    · simp only [callers, here]
      exact pending
    · simp only [callers, here]
      exact pending_advance pending j caller ambient
  | other task =>
    cases task with
    | datagram bytes source ambient => exact pending_datagram pending (of_decide_eq_true alone) source ambient
    | sendTyped w type_ payload => exact pending_sendTyped pending w type_ payload
    | peerInfo => exact pending
    | recv =>
      change (recv lib state.inner).1.peersByIndex.get i = _
      unfold recv
      split
      · exact pending
      · exact pending

end Meanwhile

/-! ## The call that waits -/

section Call

variable {state : Callers lib} {k : ℕ} {v : IpAddr} {i : UInt32} {hs : lib.snow.HandshakeState} {stage : Stage}

/-- The call waits for its tunnel, or it has been told that it is there. -/
def Stage.Hopeful (stage : Stage) : Prop := stage = .awaiting .nothing ∨ stage.signalled = true

/-- Nothing takes back what a call has been told. -/
theorem told_run (here : state.callers[k]? = some ⟨true, v, stage⟩) (told : stage.signalled = true)
    (events : List CallersEvent) :
    ∃ stage, ((callers lib).exec state events).callers[k]? = some ⟨true, v, stage⟩ ∧ stage.signalled = true := by
  obtain ⟨stage', now⟩ := still_called here events
  obtain ⟨caller, there, told⟩ := signalled_run lib here told events
  cases now.symm.trans there
  exact ⟨stage', now, told⟩

theorem heardKeeps_awaiting : HeardKeeps fun stage => ∃ heard, stage = .awaiting heard := by
  rintro stage effect ⟨heard, rfl⟩
  rcases (Stage.awaiting heard).waiting_cases with ⟨lighthouses, same⟩ | same | ⟨-, -, deaf⟩
  · cases same
  · cases same
    cases effect with
    | wake => exact ⟨.value (), rfl⟩
    | cancel => exact ⟨.dropped, rfl⟩
    | sendTo | answer => exact ⟨.nothing, rfl⟩
  · exact ⟨heard, deaf effect⟩

theorem hopeful_step (filed : WaitersFiled state) (here : state.callers[k]? = some ⟨true, v, stage⟩)
    (hopeful : stage.Hopeful) {event : CallersEvent} (alone : leavesAlone k v i state event = true) :
    ∃ stage, ((callers lib).step state event).1.callers[k]? = some ⟨true, v, stage⟩ ∧ stage.Hopeful := by
  rcases hopeful with rfl | told
  · obtain ⟨stage, now, heard, rfl⟩ := heardKeeps_awaiting.step here ⟨.nothing, rfl⟩ event
      (by rintro rfl; exact absurd rfl (of_decide_eq_true alone)) fun ambient _ => ⟨_, here, .nothing, rfl⟩
    refine ⟨_, now, ?_⟩
    rcases heard with _ | ⟨⟩ | _
    · exact .inl rfl
    · exact .inr rfl
    · -- only another call for the same peer could have done that
      obtain ⟨j, ambient, ⟨connects, w, stage⟩, rfl, -, there, same, ended⟩ :=
        cancelled_step filed (movement_step state event) here (.inr rfl) now rfl
      obtain ⟨addrs, -⟩ | ⟨-, remote, opening⟩ := ended
      · cases addrs
      · obtain rfl : stage = .opening remote := opening
        obtain rfl : w = v := same
        simp [leavesAlone, there] at alone
  · obtain ⟨stage, now, told⟩ := told_run here told [event]
    exact ⟨stage, now, .inr told⟩

/-- A completed handshake tells the call that waits for it. -/
theorem told_of_completes (filed : WaitersFiled state) (here : state.callers[k]? = some ⟨true, v, stage⟩)
    (hopeful : stage.Hopeful) {datagram : Bytes} (source : SocketAddr) {ambient : Ambient}
    (completes : CompletesAsInitiator lib state.inner datagram ambient v) :
    ∃ stage, ((callers lib).step state (.other (.datagram datagram source ambient))).1.callers[k]? =
      some ⟨true, v, stage⟩ ∧ stage.signalled = true := by
  rcases hopeful with rfl | told
  · have registered := filed.peer.registered k _ here rfl
    refine ⟨.awaiting (.value ()), ?_, rfl⟩
    change ((handleDatagram lib state.inner datagram source ambient).2.foldl deliver state.callers)[k]? = _
    rw [(handleDatagram_completes source completes).2,
      (pointwise_deliver_filed state.callers _ Effect.wake fun _ => rfl).get here, if_pos registered]
    rfl
  · exact told_run here told [_]

theorem advance_told (here : state.callers[k]? = some ⟨true, v, stage⟩) (told : stage.signalled = true)
    (ambient : Ambient) :
    ((callers lib).step state (.advance k ambient)).1.callers[k]? = some ⟨true, v, .returned (.ok ())⟩ := by
  simp only [callers, here]
  rcases stage with _ | _ | _ | _ | ⟨_ | ⟨⟩ | _⟩ | _ | ⟨_ | ⟨⟩⟩
  case awaiting.value => exact get_proceed here _ _ _
  case returned.ok => exact here
  all_goals cases told

theorem still_returned (here : state.callers[k]? = some ⟨true, v, .returned (.ok ())⟩) (events : List CallersEvent) :
    ((callers lib).exec state events).callers[k]? = some ⟨true, v, .returned (.ok ())⟩ := by
  have keeps : HeardKeeps fun stage => stage = .returned (.ok ()) := by
    rintro stage effect rfl
    rfl
  refine (callers lib).state_invariant (fun state => state.callers[k]? = some ⟨true, v, .returned (.ok ())⟩) ?_ here
    events
  intro state event here
  obtain ⟨stage, now, rfl⟩ := keeps.step here rfl event (fun _ => rfl) fun ambient _ => ⟨_, here, rfl⟩
  exact now

/-- A call that has been told returns `Ok` once it goes on. -/
theorem told_returns (here : state.callers[k]? = some ⟨true, v, stage⟩) (told : stage.signalled = true)
    {events : List CallersEvent} {ambient : Ambient} (goesOn : .advance k ambient ∈ events) :
    ((callers lib).exec state events).callers[k]? = some ⟨true, v, .returned (.ok ())⟩ := by
  obtain ⟨before, after, rfl⟩ := List.append_of_mem goesOn
  obtain ⟨stage', now, told⟩ := told_run here told before
  rw [(callers lib).exec_append]
  exact still_returned (advance_told now told ambient) after

/-- The handshake is pending at `i`, and its call waits or has been told. -/
structure UnderWay (k : ℕ) (v : IpAddr) (i : UInt32) (hs : lib.snow.HandshakeState) (state : Callers lib) : Prop where
  filed : WaitersFiled state
  pending : state.inner.peersByIndex.get i = some (.handshaking hs)
  call : ∃ stage, state.callers[k]? = some ⟨true, v, stage⟩ ∧ stage.Hopeful

theorem UnderWay.run (underWay : UnderWay k v i hs state) {events : List CallersEvent}
    (alone : (callers lib).Throughout (leavesAlone k v i · ·) state events) :
    UnderWay k v i hs ((callers lib).exec state events) := by
  refine (callers lib).invariant_of_throughout (UnderWay k v i hs) ?_ underWay alone
  rintro state event alone ⟨filed, pending, stage, here, hopeful⟩
  exact ⟨filed.step (movement_step state event), pending_step pending alone, hopeful_step filed here hopeful alone⟩

end Call

/-! ## The whole handshake -/

section Completion

theorem identity_sections (inner : lib.Inner) (events : List SessionEvent) :
    ((session lib).exec inner events).identity = inner.identity := by
  refine (session lib).state_invariant (fun now => now.identity = inner.identity) ?_ rfl events
  intro now event same
  rw [(stepped_step now event).identity, same]

theorem identity_calls (state : Callers lib) (events : List CallersEvent) :
    ((callers lib).exec state events).inner.identity = state.inner.identity := by
  obtain ⟨sections, same⟩ := inner_run state events
  rw [same, identity_sections]

/-- The ends of a tunnel that host `a` holds at `i` and host `b` at `j`. -/
structure Ends (a b : BuiltSession) (i j : UInt32) (peer other : Peer) : Prop where
  sends : other.transport.recvCipher = peer.transport.sendCipher
  receives : peer.transport.recvCipher = other.transport.sendCipher
  indices : peer.remoteIndex = j ∧ other.remoteIndex = i
  names : peer.vpnAddr = b.vpnAddr ∧ other.vpnAddr = a.vpnAddr
  certs : peer.cert = b.hostCert ∧ other.cert = a.hostCert

/-- The two sessions hold the ends of a tunnel between the hosts. -/
def Joined (a b : BuiltSession) (i j : UInt32) (inner inner' : lib.Inner) : Prop :=
  ∃ peer other, inner.peersByIndex.get i = some (.established peer) ∧
    inner'.peersByIndex.get j = some (.established other) ∧ Ends a b i j peer other

variable {a b : BuiltSession} {i j : UInt32}

theorem Ends.of_sameTunnel {peer peer' other other' : Peer} (ends : Ends a b i j peer other)
    (same : SameTunnel peer peer') (same' : SameTunnel other other') : Ends a b i j peer' other' where
  sends := by rw [same'.recvCipher, same.sendCipher, ends.sends]
  receives := by rw [same.recvCipher, same'.sendCipher, ends.receives]
  indices := by rw [same.remoteIndex, same'.remoteIndex]; exact ends.indices
  names := by rw [same.vpnAddr, same'.vpnAddr]; exact ends.names
  certs := by rw [same.cert, same'.cert]; exact ends.certs

/-- Whatever the two sessions do, they stay joined. -/
theorem Joined.later {state : Callers lib} {inner' : lib.Inner} (joined : Joined a b i j state.inner inner')
    (more : List CallersEvent) (more' : List SessionEvent) :
    Joined a b i j ((callers lib).exec state more).inner ((session lib).exec inner' more') := by
  obtain ⟨peer, other, here, there, ends⟩ := joined
  obtain ⟨sections, ran⟩ := inner_run state more
  obtain ⟨now, here, same⟩ := established_persists state.inner sections here
  obtain ⟨now', there, same'⟩ := established_persists inner' more' there
  rw [ran]
  exact ⟨now, now', here, there, ends.of_sameTunnel same same'⟩

variable {publicKey : Key → Bytes} {limit : ℕ}

/-- What host `b` makes of the first message of host `a`, and host `a` of the answer. -/
theorem exchange (works : lib.snow.Working publicKey limit) (cipher : a.cipher = b.cipher) (keyed : a.Keyed publicKey)
    {inner' : lib.Inner} (identity : inner'.identity = (b.start : lib.Inner).identity) {opened answered : Ambient}
    (drawn : opened.entropy.length = 32) (drawn' : answered.entropy.length = 32) (nonzero : i ≠ 0)
    (free : allocateIndex lib inner' answered.subsecNanos = some j)
    (carried : lib.handshakeCodec.Carries limit
      (handshakeMessage a.hostCert.encodeForHandshake i 0 opened.unixNanos))
    (carried' : lib.handshakeCodec.Carries limit
      (handshakeMessage b.hostCert.encodeForHandshake i j answered.unixNanos))
    (trusted : verifyHostCert lib.crypto a.hostCert b.caCert answered.nowUnix = .ok ()) {hs : lib.snow.HandshakeState}
    {msg : Bytes} (stage : Initiates lib a.start i opened hs msg) (source : SocketAddr) :
    ∃ reply theirs mine,
      handleDatagram lib inner' ((handshakeHeader 0 1).encode ++ msg) source answered =
        (establish lib inner' j a.hostCert a.vpnAddr theirs source i,
          [.sendTo ((handshakeHeader i 2).encode ++ reply) source]) ∧
      finishInitiator lib.snow lib.handshakeCodec hs reply =
        .ok (⟨b.hostCert.encodeForHandshake, i, j, 0, answered.unixNanos, 2⟩, mine) ∧
      KeysMatch publicKey a.hostPrivateKey b.hostPrivateKey mine theirs := by
  obtain ⟨reply, theirs, mine, responded, finished, matching⟩ :=
    works.respond drawn drawn' carried carried' nonzero (allocateIndex_spec free).1 stage
  change respond lib.snow lib.handshakeCodec a.cipher b.hostPrivateKey _ _ _ _ _ = _ at responded
  rw [cipher] at responded
  have responded : Responds lib (b.start : lib.Inner) j answered msg _ reply theirs := responded
  have ca : inner'.caCert = b.caCert := congrArg Prod.fst identity
  refine ⟨reply, theirs, mine, ?_, finished, matching⟩
  exact answers_opening source free (responded.of_identity identity.symm)
    (keyed.admitted rfl matching.initiatorKey (ca ▸ trusted))

variable (lib a b i j publicKey limit) in
/-- Host `a` opens a handshake with host `b` at the index `i`, and host `b` answers at `j`: what either has done before,
what they read from clocks and draw, and what host `a` does before it handles the answer. Each certificate holds when
the other host sees it, and nothing disturbs the handshake. -/
structure Encounter where
  before : List CallersEvent
  call : ℕ
  remote : SocketAddr
  opened : Ambient
  before' : List SessionEvent
  source : SocketAddr
  answered : Ambient
  meanwhile : List CallersEvent
  source' : SocketAddr
  completed : Ambient
  cipher : a.cipher = b.cipher
  keyed : a.Keyed publicKey
  keyed' : b.Keyed publicKey
  drawn : opened.entropy.length = 32
  drawn' : answered.entropy.length = 32
  carried : lib.handshakeCodec.Carries limit
    (handshakeMessage a.hostCert.encodeForHandshake i 0 opened.unixNanos)
  carried' : lib.handshakeCodec.Carries limit
    (handshakeMessage b.hostCert.encodeForHandshake i j answered.unixNanos)
  trusted : verifyHostCert lib.crypto a.hostCert b.caCert answered.nowUnix = .ok ()
  trusted' : verifyHostCert lib.crypto b.hostCert a.caCert completed.nowUnix = .ok ()
  /-- The call is at the section of `connect` behind `resolve`. -/
  calling : ((callers lib).exec ⟨a.start, []⟩ before).callers[call]? = some ⟨true, b.vpnAddr, .opening remote⟩
  free : allocateIndex lib ((callers lib).exec ⟨a.start, []⟩ before).inner opened.subsecNanos = some i
  free' : allocateIndex lib ((session lib).exec b.start before') answered.subsecNanos = some j
  alone : (callers lib).Throughout (leavesAlone call b.vpnAddr i · ·)
    ((callers lib).exec ⟨a.start, []⟩ (before ++ [.advance call opened])) meanwhile

namespace Encounter

/-- What host `a` goes through until it has handled the answer. -/
def events (e : Encounter lib a b i j publicKey limit) (reply : Bytes) : List CallersEvent :=
  e.before ++ .advance e.call e.opened :: e.meanwhile ++ [.other (.datagram reply e.source' e.completed)]

/-- What host `b` goes through until it has answered. -/
def events' (e : Encounter lib a b i j publicKey limit) (datagram : Bytes) : List SessionEvent :=
  e.before' ++ [.datagram datagram e.source e.answered]

/-- The one host sends the datagram, and the other one answers it with the reply. -/
structure Exchanged (e : Encounter lib a b i j publicKey limit) (datagram reply : Bytes) : Prop where
  sent : .sendTo datagram e.remote ∈
    ((callers lib).step ((callers lib).exec ⟨a.start, []⟩ e.before) (.advance e.call e.opened)).2
  answered : (handleDatagram lib ((session lib).exec b.start e.before') datagram e.source e.answered).2 =
    [.sendTo reply e.source]

variable (e : Encounter lib a b i j publicKey limit)

/-- Both messages have been handled, the tunnel has not been used yet, and the call has been told. -/
structure Over (state : Callers lib) (inner' : lib.Inner) : Prop where
  joined : ∃ peer other, state.inner.peersByIndex.get i = some (.established peer) ∧
    inner'.peersByIndex.get j = some (.established other) ∧ Ends a b i j peer other ∧
    other.transport.replay = .new
  told : ∃ stage, state.callers[e.call]? = some ⟨true, b.vpnAddr, stage⟩ ∧ stage.signalled = true

/-- The two messages get through. -/
theorem over_of_working (works : lib.snow.Working publicKey limit) :
    ∃ datagram reply, e.Exchanged datagram reply ∧
      e.Over ((callers lib).exec ⟨a.start, []⟩ (e.events reply)) ((session lib).exec b.start (e.events' datagram)) := by
  obtain ⟨hs, msg, stage⟩ := works.stage0 e.drawn e.carried
  have stage : Initiates lib a.start i e.opened hs msg := stage
  have nonzero := (allocateIndex_spec e.free).1
  obtain ⟨reply, theirs, mine, ran, finished, matching⟩ := exchange works e.cipher e.keyed
    (identity_sections b.start e.before') e.drawn e.drawn' nonzero e.free' e.carried e.carried' e.trusted stage e.source
  obtain ⟨pending, here, sent⟩ := advance_opening e.calling e.free
    (stage.of_identity (identity_calls _ e.before).symm)
  rw [← (callers lib).exec_concat] at pending here
  have underWay : UnderWay e.call b.vpnAddr i hs
      ((callers lib).exec ⟨a.start, []⟩ (e.before ++ [.advance e.call e.opened])) :=
    ⟨waitersFiled_run lib _ _ _ _ _ _ _ _, pending, _, here, .inl rfl⟩
  obtain ⟨filed, pending, call, here, hopeful⟩ := underWay.run e.alone
  rw [← (callers lib).exec_append, List.append_assoc, List.singleton_append] at filed pending here
  generalize waited : (callers lib).exec ⟨a.start, []⟩ (e.before ++ .advance e.call e.opened :: e.meanwhile) = state
    at filed pending here
  have identity : state.inner.identity = (a.start : lib.Inner).identity := waited ▸ identity_calls _ _
  simp only [Inner.identity, Prod.mk.injEq] at identity
  obtain ⟨ca, -, -, own⟩ := identity
  have ca : state.inner.caCert = a.caCert := ca
  obtain ⟨completes, tunnel⟩ := completes_of_answer e.source' nonzero pending finished
    (e.keyed'.admitted rfl matching.responderKey (ca ▸ e.trusted'))
  refine ⟨_, _, ⟨sent, congrArg Prod.snd ran⟩, ?_, ?_⟩
  · have own : state.inner.cipher = b.cipher := own.trans e.cipher
    have theirs : ((session lib).exec b.start e.before').cipher = b.cipher :=
      congrArg (·.2.2.2) (identity_sections b.start e.before')
    rw [events, (callers lib).exec_concat, waited, events', (session lib).exec_concat]
    have other := (congrArg (·.1.peersByIndex.get j) ran).trans (HashMap.get_insert_self _ _ _)
    refine ⟨_, _, tunnel, other, ⟨?_, ?_, ⟨rfl, rfl⟩, ⟨rfl, rfl⟩, rfl, rfl⟩, rfl⟩
    · exact congrArg₂ CipherImpl.mk (theirs.trans own.symm) matching.sends.symm
    · exact congrArg₂ CipherImpl.mk (own.trans theirs.symm) matching.receives
  · rw [events, (callers lib).exec_concat, waited]
    exact told_of_completes filed here hopeful e.source' completes

/-- Host `a` has come to the section of `connect` that opens a handshake with host `b`. What it sends is answered by
host `b`, and where the answer comes back before the call gives up and before anything else that names the handshake,
the call returns `Ok` and the two sessions hold the ends of a tunnel from then on, whatever else either of them does. -/
theorem connect_succeeds (works : lib.snow.Working publicKey limit) :
    ∃ datagram reply, e.Exchanged datagram reply ∧
      (∀ more more', Joined a b i j ((callers lib).exec ⟨a.start, []⟩ (e.events reply ++ more)).inner
        ((session lib).exec b.start (e.events' datagram ++ more'))) ∧
      ∀ more ambient, .advance e.call ambient ∈ more →
        ((callers lib).exec ⟨a.start, []⟩ (e.events reply ++ more)).callers[e.call]? =
          some ⟨true, b.vpnAddr, .returned (.ok ())⟩ := by
  obtain ⟨datagram, reply, exchanged, ⟨peer, other, here, there, ends, -⟩, stage, told, signalled⟩ :=
    e.over_of_working works
  refine ⟨datagram, reply, exchanged, ?_, ?_⟩
  · intro more more'
    rw [(callers lib).exec_append, (session lib).exec_append]
    exact Joined.later ⟨peer, other, here, there, ends⟩ more more'
  · intro more ambient goesOn
    rw [(callers lib).exec_append]
    exact told_returns told signalled goesOn

end Encounter

end Completion

/-! ## Host A connects to host B beside other calls -/

namespace TestNetwork

/-- The public keys of the two hosts. -/
def publicKeyOf (key : Key) : Bytes := if key = keyA then hostA.publicKey else hostB.publicKey

theorem length_publicKeyOf (key : Key) : (publicKeyOf key).length = 32 := length_publicKey true key

theorem snow_writes (hs : Party) (entropy : Bytes) {payload : Bytes} (fits : payload.length ≤ 65439) :
    snow.writeMessage hs entropy payload =
      some ({ hs with ephemerals := hs.ephemerals ++ entropy }, entropy ++ hs.publicKey ++ payload) :=
  if_pos (Nat.add_le_add_right fits 96)

theorem snow_reads (hs : Party) {entropy static : Bytes} (drawn : entropy.length = 32) (size : static.length = 32)
    (payload : Bytes) :
    snow.readMessage hs (entropy ++ static ++ payload) =
      some ({ hs with ephemerals := hs.ephemerals ++ entropy, remoteStatic := some static }, payload) := by
  have long : ¬ (entropy ++ static ++ payload).length < 64 := by
    rw [List.length_append, List.length_append]
    omega
  have head : (entropy ++ static ++ payload).take 32 = entropy := by
    rw [List.append_assoc]
    exact List.take_left' drawn
  have middle : ((entropy ++ static ++ payload).drop 32).take 32 = static := by
    rw [List.append_assoc, List.drop_left' drawn]
    exact List.take_left' size
  have rest : (entropy ++ static ++ payload).drop 64 = payload :=
    List.drop_left' (by rw [List.length_append, drawn, size])
  change (if (entropy ++ static ++ payload).length < 64 then none else some _) = _
  rw [if_neg long, head, middle, rest]
  rfl

theorem snow_wrote {hs hs' : Party} {entropy payload msg : Bytes}
    (wrote : snow.writeMessage hs entropy payload = some (hs', msg)) :
    hs' = { hs with ephemerals := hs.ephemerals ++ entropy } ∧ msg = entropy ++ hs.publicKey ++ payload := by
  change (if _ then some _ else none) = _ at wrote
  split at wrote
  · cases wrote
    exact ⟨rfl, rfl⟩
  · cases wrote

theorem snow_working : snow.Working publicKeyOf 65439 where
  opens cipher key entropy payload _ fits := ⟨newParty true key, _, _, rfl, snow_writes _ entropy fits⟩
  reads := by
    rintro cipher key entropy payload fresh hs msg drawn ⟨⟩ wrote key'
    obtain ⟨-, rfl⟩ := snow_wrote wrote
    exact ⟨newParty false key', _, rfl, snow_reads _ drawn (length_publicKeyOf key) payload⟩
  answers := by
    rintro cipher key entropy payload fresh hs msg key' fresh' hs' found entropy' reply drawn ⟨⟩ wrote ⟨⟩ read drawn'
      fits
    obtain ⟨rfl, rfl⟩ := snow_wrote wrote
    have read := (snow_reads (newParty false key') drawn (length_publicKeyOf key) payload).symm.trans read
    cases read
    exact ⟨_, _, _, snow_writes _ entropy' fits, snow_reads _ drawn' (length_publicKeyOf key') reply,
      rfl, rfl, rfl, rfl, rfl⟩

/-- Host A, which knows where host B is. -/
def knowingA : BuiltSession := { builtA with staticHosts := [(vpn 2, endpoint 2)] }

/-- The first sections of the call. -/
def callRun : List CallersEvent := [.call true (vpn 2), .advance 0 (ambient 1)]

/-- Host A's own message comes back to it, a message for an index that it does not know arrives, and another call gives
up. -/
def besideRun : List CallersEvent :=
  [.call false (vpn 3), .other (.datagram stage0Datagram (endpoint 9) (ambient 3)), .advance 1 (ambient 3),
    .other (.datagram (header indexB 2).encode (endpoint 9) (ambient 3)), .advance 1 (ambient 3), .timeOut 1]

def encounter : Encounter network knowingA builtB indexA indexB publicKeyOf 65439 where
  before := callRun
  call := 0
  remote := endpoint 2
  opened := ambient 1
  before' := []
  source := endpoint 1
  answered := ambient 2
  meanwhile := besideRun
  source' := endpoint 2
  completed := ambient 3
  cipher := rfl
  keyed := ⟨by decide +kernel, rfl⟩
  keyed' := ⟨by decide +kernel, rfl⟩
  drawn := List.length_replicate
  drawn' := List.length_replicate
  carried := ⟨by decide +kernel, by decide +kernel⟩
  carried' := ⟨by decide +kernel, by decide +kernel⟩
  trusted := by decide +kernel
  trusted' := by decide +kernel
  calling := by decide +kernel
  free := by decide +kernel
  free' := by decide +kernel
  alone := by decide +kernel

end TestNetwork

open TestNetwork in
/-- The call returns `Ok`, and the two hosts are joined. -/
theorem connect_beside_others_succeeds :
    ∃ datagram reply, encounter.Exchanged datagram reply ∧
      let reached := (callers network).exec ⟨knowingA.start, []⟩ (encounter.events reply ++ [.advance 0 (ambient 4)])
      reached.callers[0]? = some ⟨true, vpn 2, .returned (.ok ())⟩ ∧
        Joined knowingA builtB indexA indexB reached.inner
          ((session network).exec builtB.start (encounter.events' datagram)) := by
  obtain ⟨datagram, reply, exchanged, joined, returned⟩ := encounter.connect_succeeds snow_working
  refine ⟨datagram, reply, exchanged, returned _ (ambient 4) (List.mem_singleton_self _), ?_⟩
  rw [← List.append_nil (encounter.events' datagram)]
  exact joined _ []

end Nebula
