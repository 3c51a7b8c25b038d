import Nebula.Protocol.CopiedHandshake
import Nebula.Protocol.Cert.RoundTrip
import Mathlib.Logic.Function.Basic

/-! # Two sessions that open tunnels to each other

Two sessions run their sections in any order, and a network between them delivers the handshake datagrams of
either to the other as often and in whatever order it likes. A section holds the lock of its session to its
end, so that the reply of a responder and the tunnel it establishes are one step. `Advance` says what such a
step can do to the handshakes and tunnels of one session and what it sends.
-/

namespace Nebula

open Rust

/-! ## The system -/

inductive Side where
  | left
  | right
deriving DecidableEq, Repr

def Side.other : Side → Side
  | .left => .right
  | .right => .left

@[simp] theorem Side.other_other (side : Side) : side.other.other = side := by
  cases side with
  | left => rfl
  | right => rfl

theorem Side.other_ne (side : Side) : side.other ≠ side := by
  cases side with
  | left => decide
  | right => decide

theorem Side.eq_or_other (side actor : Side) : side = actor ∨ side = actor.other := by
  cases side <;> cases actor <;> decide

def SessionEvent.isDatagram : SessionEvent → Bool
  | .datagram .. => true
  | _ => false

/-- What an output puts on the network, data packets apart. -/
def SessionOutput.packets : SessionOutput → List Bytes
  | .handled effects | .opened _ effects => effects.filterMap fun effect => match effect with
    | .sendTo packet _ => some packet
    | _ => none
  | _ => []

inductive PairEvent where
  /-- A section of a session other than its receive loop, such as those of `connect`. -/
  | act (side : Side) (event : SessionEvent) (own : event.isDatagram = false)
  /-- The network hands a session one of the datagrams of the other. -/
  | deliver (side : Side) (number : ℕ) (source : SocketAddr) (ambient : Ambient)

/-- The randomness a step of the pair may draw. -/
def PairEvent.entropy : PairEvent → Option Bytes
  | .act _ (.openHandshake _ _ _ ambient) _ => some ambient.entropy
  | .act .. => none
  | .deliver _ _ _ ambient => some ambient.entropy

/-- Two sessions and the handshake datagrams each has sent, oldest first. -/
structure Pair (lib : Externals) where
  session : Side → lib.Inner
  sent : Side → List Bytes

section System

variable (lib : Externals)

/-- A section of one of the two sessions. -/
def Pair.advance (pair : Pair lib) (side : Side) (event : SessionEvent) : Pair lib × SessionOutput :=
  let (inner, output) := (Nebula.session lib).step (pair.session side) event
  ({ session := Function.update pair.session side inner
     sent := Function.update pair.sent side (pair.sent side ++ output.packets) }, output)

def pair : Machine.System (Pair lib) PairEvent (Option SessionOutput) where
  step p
    | .act side event _ =>
      let (p, output) := p.advance lib side event
      (p, some output)
    | .deliver side number source ambient =>
      match (p.sent side.other)[number]? with
      | some datagram =>
        let (p, output) := p.advance lib side (.datagram datagram source ambient)
        (p, some output)
      | none => (p, none)

end System

/-- What `Session::build` has decoded: the host's certificate comes out of its file, and the session's address
is that of its first network. -/
structure BuiltSession where
  caCert : Certificate
  hostCert : Certificate
  hostPrivateKey : Key
  cipher : Cipher
  vpnAddr : IpAddr
  lighthouses : List IpAddr
  staticHosts : List (IpAddr × SocketAddr)
  decoded : ∃ der, Certificate.decode der = .ok hostCert
  first : hostCert.details.networks.head?.map Network.addr = some vpnAddr

def BuiltSession.start {H : Type} (built : BuiltSession) : Inner H :=
  .new built.caCert built.hostCert built.hostPrivateKey built.cipher built.vpnAddr built.lighthouses
    built.staticHosts

def Pair.start (lib : Externals) (built : Side → BuiltSession) : Pair lib where
  session side := (built side).start
  sent _ := []

/-! ## One section -/

section Advance

variable (lib : Externals)

def handshakeHeader (remoteIndex : UInt32) (messageCounter : UInt64) : Header where
  version := Header.currentVersion
  type_ := Header.handshake
  subtype := Header.ixPsk0
  remoteIndex
  messageCounter

/-- The session's call of `stage0`. -/
def Initiates (inner : lib.Inner) (index : UInt32) (ambient : Ambient) (hs : lib.snow.HandshakeState)
    (msg : Bytes) : Prop :=
  stage0 lib.snow lib.handshakeCodec inner.cipher inner.hostPrivateKey inner.hostCert.encodeForHandshake index
    ambient.unixNanos ambient.entropy = .ok (hs, msg)

/-- The session's call of `respond`. -/
def Responds (inner : lib.Inner) (index : UInt32) (ambient : Ambient) (body : Bytes)
    (details : NebulaHandshakeDetails) (reply : Bytes) (keys : SplitKeys) : Prop :=
  respond lib.snow lib.handshakeCodec inner.cipher inner.hostPrivateKey inner.hostCert.encodeForHandshake index
    body ambient.unixNanos ambient.entropy = .ok (details, reply, keys)

/-- The tunnel that a completed handshake gives. -/
def tunnelOf (cipher : Cipher) (keys : SplitKeys) (remote : SocketAddr) (vpnAddr : IpAddr) (cert : Certificate)
    (remoteIndex : UInt32) : Peer :=
  { transport := .new cipher keys.sendKey keys.recvKey, remote, vpnAddr, cert, remoteIndex }

/-- The index and the body of a handshake datagram. -/
def handshakeBody (datagram : Bytes) : Option (UInt32 × Bytes) :=
  match Header.parse datagram with
  | .error _ => none
  | .ok hdr => if hdr.type_ = Header.handshake then some (hdr.remoteIndex, datagram.drop Header.len) else none

/-- What a section does to the handshakes and tunnels of its session, and what it sends. -/
inductive Advance (inner : lib.Inner) (event : SessionEvent) (incoming : Option (UInt32 × Bytes)) (ambient : Ambient)
    (next : lib.Inner) : List Bytes → Prop
  | idle (peers : next.peersByIndex = inner.peersByIndex) : Advance inner event incoming ambient next []
  | used {index : UInt32} {peer peer' : Peer} (was : inner.peersByIndex.get index = some (.established peer))
      (same : SameTunnel peer peer')
      (peers : next.peersByIndex = inner.peersByIndex.insert index (.established peer')) :
      Advance inner event incoming ambient next []
  | opened {index : UInt32} {hs : lib.snow.HandshakeState} {msg : Bytes}
      (call : ∃ v remote waiter, event = .openHandshake v remote waiter ambient)
      (allocated : allocateIndex lib inner ambient.subsecNanos = some index)
      (stage : Initiates lib inner index ambient hs msg)
      (peers : next.peersByIndex = inner.peersByIndex.insert index (.handshaking hs)) :
      Advance inner event incoming ambient next [(handshakeHeader 0 1).encode ++ msg]
  | answered {index : UInt32} {body reply : Bytes} {details : NebulaHandshakeDetails} {keys : SplitKeys}
      {cert : Certificate} {v : IpAddr} {source : SocketAddr} (asked : incoming = some (0, body))
      (call : ∃ datagram from_, event = .datagram datagram from_ ambient ∧ handshakeBody datagram = some (0, body))
      (allocated : allocateIndex lib inner ambient.subsecNanos = some index)
      (responded : Responds lib inner index ambient body details reply keys)
      (admitted : admitCert lib inner details keys ambient.nowUnix = some (cert, v))
      (peers : next.peersByIndex = inner.peersByIndex.insert index
        (.established (tunnelOf inner.cipher keys source v cert details.initiatorIndex))) :
      Advance inner event incoming ambient next [(handshakeHeader details.initiatorIndex 2).encode ++ reply]
  | finished {index : UInt32} {body : Bytes} {hs : lib.snow.HandshakeState} {details : NebulaHandshakeDetails}
      {keys : SplitKeys} {cert : Certificate} {v : IpAddr} {source : SocketAddr}
      (asked : incoming = some (index, body)) (nonzero : index ≠ 0)
      (was : inner.peersByIndex.get index = some (.handshaking hs))
      (completed : finishInitiator lib.snow lib.handshakeCodec hs body = .ok (details, keys))
      (peers : next.peersByIndex = inner.peersByIndex.insert index
        (.established (tunnelOf inner.cipher keys source v cert details.responderIndex))) :
      Advance inner event incoming ambient next []
  | forgot {index : UInt32} {hs : lib.snow.HandshakeState}
      (was : inner.peersByIndex.get index = some (.handshaking hs))
      (peers : next.peersByIndex = inner.peersByIndex.remove index) : Advance inner event incoming ambient next []

variable {lib}

theorem advance_handleStage0 (inner : lib.Inner) {datagram body : Bytes}
    (came : handshakeBody datagram = some (0, body)) (source : SocketAddr) (ambient : Ambient) :
    Advance lib inner (.datagram datagram source ambient) (some (0, body)) ambient
      (handleStage0 lib inner body source ambient).1
      (SessionOutput.handled (handleStage0 lib inner body source ambient).2).packets := by
  unfold handleStage0
  split
  · exact .idle rfl
  next index allocated =>
    split
    · exact .idle rfl
    next details reply keys responded =>
      split
      · exact .idle rfl
      next cert v admitted =>
        exact .answered rfl ⟨datagram, source, rfl, came⟩ allocated responded admitted rfl

theorem advance_handleStage2 (inner : lib.Inner) (event : SessionEvent) {index : UInt32} (nonzero : index ≠ 0)
    (body : Bytes) (source : SocketAddr) (ambient : Ambient) :
    Advance lib inner event (some (index, body)) ambient (handleStage2 lib inner index body source ambient).1
      (SessionOutput.handled (handleStage2 lib inner index body source ambient).2).packets := by
  unfold handleStage2
  split
  next hs pending =>
    dsimp only
    split
    · exact .forgot pending rfl
    next details keys finished =>
      split
      · exact .forgot pending rfl
      next cert v admitted =>
        split
        · exact .finished rfl nonzero pending finished (HashMap.insert_remove _ _ _)
        · exact .finished rfl nonzero pending finished (HashMap.insert_remove _ _ _)
  · exact .idle rfl

/-- A data packet puts nothing on the network and at most moves the window of its tunnel. -/
theorem advance_openPacket {inner next : lib.Inner} {event : SessionEvent} {hdr : Header} {headerBytes body : Bytes}
    (incoming : Option (UInt32 × Bytes)) (ambient : Ambient)
    (peers : next.peersByIndex = (openPacket lib inner hdr headerBytes body).1.peersByIndex) :
    Advance lib inner event incoming ambient next [] := by
  rcases openPacket_spec inner hdr headerBytes body with same | ⟨peer, peer', opened, was, tunnel, same, -⟩
  · rw [same] at peers
    exact .idle peers
  · rw [same] at peers
    exact .used was tunnel peers

theorem packets_handleLighthouse (inner : lib.Inner) (body : Bytes) :
    (SessionOutput.handled (handleLighthouse lib inner body).2).packets = [] := by
  unfold handleLighthouse
  dsimp only
  repeat' split
  all_goals rfl

theorem handshakeBody_of_parse {datagram : Bytes} {hdr : Header} (parsed : Header.parse datagram = .ok hdr)
    (handshake : hdr.type_ = Header.handshake) :
    handshakeBody datagram = some (hdr.remoteIndex, datagram.drop Header.len) := by
  unfold handshakeBody
  rw [parsed]
  exact if_pos handshake

theorem advance_handleDatagram (inner : lib.Inner) (datagram : Bytes) (source : SocketAddr) (ambient : Ambient) :
    Advance lib inner (.datagram datagram source ambient) (handshakeBody datagram) ambient
      (handleDatagram lib inner datagram source ambient).1
      (SessionOutput.handled (handleDatagram lib inner datagram source ambient).2).packets := by
  cases parsed : Header.parse datagram with
  | error failure =>
    simp only [handleDatagram, parsed]
    exact .idle rfl
  | ok hdr =>
    simp only [handleDatagram, parsed]
    split_ifs with handshake message lighthouse
    · have came := handshakeBody_of_parse parsed handshake
      rw [came]
      unfold handleHandshake
      split
      next fresh =>
        rw [fresh] at came ⊢
        exact advance_handleStage0 inner came source ambient
      next ours => exact advance_handleStage2 inner _ ours ..
    · unfold handleMessage
      split
      next next owner bytes opened =>
        exact advance_openPacket _ ambient (congrArg (·.1.peersByIndex) opened).symm
      next next opened => exact advance_openPacket _ ambient (congrArg (·.1.peersByIndex) opened).symm
    · unfold handleLighthousePacket
      split
      next next owner bytes opened =>
        rw [packets_handleLighthouse]
        apply advance_openPacket _ ambient
        rw [(handleLighthouse_spec next bytes).2.1]
        exact (congrArg (·.1.peersByIndex) opened).symm
      next next opened => exact advance_openPacket _ ambient (congrArg (·.1.peersByIndex) opened).symm
    · exact .idle rfl

theorem packets_replaced (waiters : HashMap IpAddr WaiterId) (vpnAddr : IpAddr) (result : Option (Res Unit))
    (effects : List Effect) :
    (SessionOutput.opened result (replaced waiters vpnAddr ++ effects)).packets =
      (SessionOutput.opened result effects).packets := by
  unfold SessionOutput.packets replaced
  cases waiters.get vpnAddr with
  | none => rfl
  | some waiter => rfl

theorem advance_openHandshake (inner : lib.Inner) (vpnAddr : IpAddr) (remote : SocketAddr) (waiter : WaiterId)
    (ambient : Ambient) :
    Advance lib inner (.openHandshake vpnAddr remote waiter ambient) none ambient
      (openHandshake lib inner vpnAddr remote waiter ambient).1
      (SessionOutput.opened (openHandshake lib inner vpnAddr remote waiter ambient).2.1
        (openHandshake lib inner vpnAddr remote waiter ambient).2.2).packets := by
  have dropped (result : Option (Res Unit)) :
      (SessionOutput.opened result (replaced inner.connected vpnAddr)).packets = [] := by
    rw [← List.append_nil (replaced inner.connected vpnAddr), packets_replaced]
    rfl
  unfold openHandshake
  dsimp only
  split
  · rw [dropped]
    exact .idle rfl
  next index allocated =>
    split
    · rw [dropped]
      exact .idle rfl
    next hs msg stage =>
      rw [packets_replaced]
      exact .opened ⟨vpnAddr, remote, waiter, rfl⟩ allocated stage rfl

/-- Every other section leaves handshakes alone. -/
theorem advance_act (inner : lib.Inner) (event : SessionEvent) (own : event.isDatagram = false)
    (other : event.opensHandshake = false) (ambient : Ambient) :
    Advance lib inner event none ambient ((session lib).step inner event).1 [] ∧
      ((session lib).step inner event).2.packets = [] := by
  cases event with
  | datagram bytes source ambient => cases own
  | openHandshake vpnAddr remote waiter ambient => cases other
  | resolveKnown vpnAddr => exact ⟨.idle rfl, rfl⟩
  | awaitLighthouse vpnAddr waiter => exact ⟨.idle rfl, rfl⟩
  | peerInfo vpnAddr => exact ⟨.idle rfl, rfl⟩
  | sendTyped vpnAddr type_ payload =>
    refine ⟨?_, rfl⟩
    change Advance lib inner _ none ambient (sendTyped lib inner vpnAddr type_ payload).1 []
    cases (@stepped_sendTyped lib inner .recv vpnAddr type_ payload).change with
    | aside peers _ _ => exact .idle peers
    | used was same peers _ _ => exact .used was same peers
    | pending cause _ _ _ _ _ => cases cause
    | forgotten was peers _ _ => exact .forgot was peers
    | established cause _ _ _ _ _ _ => cases cause
  | recv =>
    refine ⟨.idle ?_, rfl⟩
    change (recv lib inner).1.peersByIndex = _
    unfold recv
    split
    · rfl
    · rfl

/-- A tunnel stays at its index. -/
theorem Advance.persists {inner next : lib.Inner} {event : SessionEvent} {incoming : Option (UInt32 × Bytes)}
    {ambient : Ambient} {packets : List Bytes} (advance : Advance lib inner event incoming ambient next packets)
    {i : UInt32} {peer : Peer} (was : inner.peersByIndex.get i = some (.established peer)) :
    ∃ peer', next.peersByIndex.get i = some (.established peer') ∧ SameTunnel peer peer' := by
  have elsewhere {index : UInt32} {state : PeerState lib.snow.HandshakeState}
      (there : ∀ other, inner.peersByIndex.get index ≠ some (.established other)) :
      (inner.peersByIndex.insert index state).get i = some (.established peer) := by
    rw [HashMap.get_insert_of_ne _ _ (by rintro rfl; exact there peer was), was]
  cases advance with
  | idle peers => exact ⟨peer, peers ▸ was, .refl peer⟩
  | @used index old new held same peers =>
    rw [peers, HashMap.get_insert]
    split
    next here =>
      rw [← here, was] at held
      cases held
      exact ⟨new, rfl, same⟩
    · exact ⟨peer, was, .refl peer⟩
  | opened call allocated stage peers =>
    exact ⟨peer, peers ▸ elsewhere (by simp [(allocateIndex_spec allocated).2]), .refl peer⟩
  | answered asked call allocated responded admitted peers =>
    exact ⟨peer, peers ▸ elsewhere (by simp [(allocateIndex_spec allocated).2]), .refl peer⟩
  | finished asked nonzero pending completed peers =>
    exact ⟨peer, peers ▸ elsewhere (by simp [pending]), .refl peer⟩
  | forgot pending peers =>
    refine ⟨peer, ?_, .refl peer⟩
    rw [peers, HashMap.get_remove_of_ne _ (by rintro rfl; rw [was] at pending; cases pending), was]

/-- Where a pending handshake becomes a tunnel, a reply has completed it. -/
theorem Advance.completes {inner next : lib.Inner} {event : SessionEvent} {incoming : Option (UInt32 × Bytes)}
    {ambient : Ambient} {packets : List Bytes} (advance : Advance lib inner event incoming ambient next packets)
    {i : UInt32} {hs : lib.snow.HandshakeState} {peer : Peer} (was : inner.peersByIndex.get i = some (.handshaking hs))
    (now : next.peersByIndex.get i = some (.established peer)) :
    ∃ body details keys cert v source, incoming = some (i, body) ∧ i ≠ 0 ∧
      finishInitiator lib.snow lib.handshakeCodec hs body = .ok (details, keys) ∧
      peer = tunnelOf inner.cipher keys source v cert details.responderIndex := by
  have elsewhere {index : UInt32} {state : PeerState lib.snow.HandshakeState}
      (peers : next.peersByIndex = inner.peersByIndex.insert index state)
      (there : inner.peersByIndex.get index ≠ some (.handshaking hs)) : False := by
    rw [peers, HashMap.get_insert_of_ne _ _ (by rintro rfl; exact there was), was] at now
    cases now
  cases advance with
  | idle peers =>
    rw [peers, was] at now
    cases now
  | used held same peers => exact (elsewhere peers (by simp [held])).elim
  | opened call allocated stage peers =>
    exact (elsewhere peers (by simp [(allocateIndex_spec allocated).2])).elim
  | answered asked call allocated responded admitted peers =>
    exact (elsewhere peers (by simp [(allocateIndex_spec allocated).2])).elim
  | finished asked nonzero pending completed peers =>
    rw [peers, HashMap.get_insert] at now
    split at now
    next here =>
      subst here
      cases now
      rw [was] at pending
      cases pending
      exact ⟨_, _, _, _, _, _, asked, nonzero, completed, rfl⟩
    · rw [was] at now
      cases now
  | forgot pending peers =>
    rw [peers] at now
    cases was.symm.trans (HashMap.of_get_remove now).2

/-- A section that sends nothing files no handshake. -/
theorem Advance.pending_before {inner next : lib.Inner} {event : SessionEvent} {incoming : Option (UInt32 × Bytes)}
    {ambient : Ambient} (advance : Advance lib inner event incoming ambient next []) {i : UInt32}
    {hs : lib.snow.HandshakeState} (now : next.peersByIndex.get i = some (.handshaking hs)) :
    inner.peersByIndex.get i = some (.handshaking hs) := by
  have elsewhere {index : UInt32} {peer : Peer}
      (peers : next.peersByIndex = inner.peersByIndex.insert index (.established peer)) :
      inner.peersByIndex.get i = some (.handshaking hs) := by
    rw [peers, HashMap.get_insert] at now
    split at now
    · cases now
    · exact now
  cases advance with
  | idle peers => exact peers ▸ now
  | used was same peers => exact elsewhere peers
  | finished asked nonzero was completed peers => exact elsewhere peers
  | forgot was peers =>
    rw [peers] at now
    exact (HashMap.of_get_remove now).2

/-- Where a section that sends nothing leaves a tunnel, there was this tunnel or a pending handshake. -/
theorem Advance.tunnel_before {inner next : lib.Inner} {event : SessionEvent} {incoming : Option (UInt32 × Bytes)}
    {ambient : Ambient} (advance : Advance lib inner event incoming ambient next []) {i : UInt32} {peer : Peer}
    (now : next.peersByIndex.get i = some (.established peer)) :
    (∃ before, inner.peersByIndex.get i = some (.established before) ∧ SameTunnel before peer) ∨
      ∃ hs, inner.peersByIndex.get i = some (.handshaking hs) := by
  cases advance with
  | idle peers => exact .inl ⟨peer, peers ▸ now, .refl peer⟩
  | used was same peers =>
    rw [peers, HashMap.get_insert] at now
    split at now
    next here =>
      cases now
      exact .inl ⟨_, here ▸ was, same⟩
    · exact .inl ⟨peer, now, .refl peer⟩
  | finished asked nonzero was completed peers =>
    rw [peers, HashMap.get_insert] at now
    split at now
    next here => exact .inr ⟨_, here ▸ was⟩
    · exact .inl ⟨peer, now, .refl peer⟩
  | forgot was peers =>
    rw [peers] at now
    exact .inl ⟨peer, (HashMap.of_get_remove now).2, .refl peer⟩

end Advance

/-! ## One step of the pair -/

variable {lib : Externals}

/-- The section that a step of the pair runs, if any. -/
def PairEvent.runs (p : Pair lib) : PairEvent → Option (Side × SessionEvent)
  | .act side event _ => some (side, event)
  | .deliver side number source ambient =>
    (p.sent side.other)[number]?.map fun datagram => (side, .datagram datagram source ambient)

/-- The step is a section of one of the two sessions; if it handles a handshake datagram, that is one the
other has sent. -/
structure Moves (p : Pair lib) (event : PairEvent) (p' : Pair lib) (side : Side) (section_ : SessionEvent)
    (incoming : Option (UInt32 × Bytes)) (ambient : Ambient) (packets : List Bytes) : Prop where
  others : p'.session side.other = p.session side.other ∧ p'.sent side.other = p.sent side.other
  identity : (p'.session side).identity = (p.session side).identity
  advance : Advance lib (p.session side) section_ incoming ambient (p'.session side) packets
  sent : p'.sent side = p.sent side ++ packets
  came : ∀ asked, incoming = some asked → ∃ datagram ∈ p.sent side.other, handshakeBody datagram = some asked
  drawn : packets ≠ [] → event.entropy = some ambient.entropy

theorem moves_advance {p : Pair lib} {event : PairEvent} (side : Side) (section_ : SessionEvent)
    {incoming : Option (UInt32 × Bytes)} {ambient : Ambient}
    (advance : Advance lib (p.session side) section_ incoming ambient
      ((session lib).step (p.session side) section_).1 ((session lib).step (p.session side) section_).2.packets)
    (came : ∀ asked, incoming = some asked →
      ∃ datagram ∈ p.sent side.other, handshakeBody datagram = some asked)
    (drawn : ((session lib).step (p.session side) section_).2.packets ≠ [] →
      event.entropy = some ambient.entropy) :
    Moves p event (p.advance lib side section_).1 side section_ incoming ambient
      ((session lib).step (p.session side) section_).2.packets where
  others := ⟨Function.update_of_ne side.other_ne _ _, Function.update_of_ne side.other_ne _ _⟩
  identity := by
    change (Function.update p.session side _ side).identity = _
    rw [Function.update_self]
    exact (stepped_step (p.session side) section_).identity
  advance := by
    change Advance lib _ _ incoming ambient (Function.update p.session side _ side) _
    rw [Function.update_self]
    exact advance
  sent := Function.update_self ..
  came := came
  drawn := drawn

theorem moves_act (p : Pair lib) (side : Side) (event : SessionEvent) (own : event.isDatagram = false) :
    ∃ incoming ambient packets, Moves p (.act side event own) ((pair lib).step p (.act side event own)).1 side event
      incoming ambient packets := by
  have nothing : ∀ asked, none = some asked →
      ∃ datagram ∈ p.sent side.other, handshakeBody datagram = some asked := by
    rintro asked ⟨⟩
  cases opening : event.opensHandshake with
  | false =>
    -- Such a section draws nothing, so any ambient will do.
    let ambient : Ambient := ⟨0, 0, [], []⟩
    obtain ⟨advance, quiet⟩ := advance_act (p.session side) event own opening ambient
    rw [← quiet] at advance
    exact ⟨none, ambient, _, moves_advance side event advance nothing (fun some => absurd quiet some)⟩
  | true =>
    cases event with
    | openHandshake vpnAddr remote waiter ambient =>
      exact ⟨none, ambient, _, moves_advance side (.openHandshake vpnAddr remote waiter ambient)
        (advance_openHandshake (p.session side) vpnAddr remote waiter ambient) nothing (fun _ => rfl)⟩
    | datagram bytes source ambient => cases own
    | resolveKnown vpnAddr => cases opening
    | awaitLighthouse vpnAddr waiter => cases opening
    | sendTyped vpnAddr type_ payload => cases opening
    | peerInfo vpnAddr => cases opening
    | recv => cases opening

theorem pair_step_cases (p : Pair lib) (event : PairEvent) :
    ((pair lib).step p event).1 = p ∨ ∃ side section_ incoming ambient packets, event.runs p = some (side, section_) ∧
      Moves p event ((pair lib).step p event).1 side section_ incoming ambient packets := by
  cases event with
  | act side event own =>
    obtain ⟨incoming, ambient, packets, moves⟩ := moves_act p side event own
    exact .inr ⟨side, event, incoming, ambient, packets, rfl, moves⟩
  | deliver side number source ambient =>
    cases found : (p.sent side.other)[number]? with
    | none =>
      left
      simp only [pair, found]
    | some datagram =>
      right
      simp only [pair, found]
      refine ⟨side, .datagram datagram source ambient, handshakeBody datagram, ambient, _, ?_,
        moves_advance side (.datagram datagram source ambient)
          (advance_handleDatagram (p.session side) datagram source ambient) ?_ (fun _ => rfl)⟩
      · simp only [PairEvent.runs, found, Option.map_some]
      · intro asked same
        exact ⟨datagram, List.mem_of_getElem? found, same⟩

end Nebula
