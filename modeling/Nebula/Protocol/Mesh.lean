import Nebula.Protocol.HandshakeAgreement
import Nebula.Protocol.ReceivedOnce

/-! # Two sessions and everything between them

Beside opening tunnels to each other, two sessions send and receive payloads, and the network hands either any
datagram at all, whenever it likes. All it cannot do is forge: a handshake message that gives a tunnel is one that
the other session sent, and a packet that opens under a key was sealed with that key by one of the two sessions.
-/

namespace Nebula

open Rust Machine

/-! ## The system -/

/-- A section other than the receive loop's. Callers send messages and lighthouse messages only. -/
def SessionEvent.isCall : SessionEvent → Bool
  | .datagram .. => false
  | .sendTyped _ type_ _ => type_ = Header.message ∨ type_ = Header.lighthouse
  | _ => true

theorem SessionEvent.isDatagram_of_isCall {event : SessionEvent} (own : event.isCall = true) :
    event.isDatagram = false := by
  cases event with
  | datagram => cases own
  | resolveKnown | awaitLighthouse | openHandshake | sendTyped | peerInfo | recv => rfl

inductive MeshEvent where
  | call (side : Side) (event : SessionEvent) (own : event.isCall = true)
  /-- The network hands a session a datagram. -/
  | deliver (side : Side) (datagram : Bytes) (source : SocketAddr) (ambient : Ambient)

namespace MeshEvent

def side : MeshEvent → Side
  | .call side _ _ | .deliver side _ _ _ => side

def step : MeshEvent → SessionEvent
  | .call _ event _ => event
  | .deliver _ datagram source ambient => .datagram datagram source ambient

/-- The event as the handshakes see it. -/
def paired : MeshEvent → PairEvent
  | .call side event own => .act side event (SessionEvent.isDatagram_of_isCall own)
  | .deliver side _ source ambient => .deliver side 0 source ambient

/-- The sections of one session. -/
def stepOf (side : Side) (event : MeshEvent) : List SessionEvent := if event.side = side then [event.step] else []

end MeshEvent

/-- A payload that has gone out sealed. -/
structure Sealing where
  /-- The address that the caller gave. -/
  dest : IpAddr
  payload : Bytes
  /-- The index and the key of the tunnel. -/
  index : UInt32
  cipher : CipherImpl
  header : Header
deriving DecidableEq

def Sealing.nonce (sealing : Sealing) : Bytes := sealing.cipher.nonce sealing.header.messageCounter

variable {lib : Externals}

/-- The payload that a section seals. -/
def sealing (inner : lib.Inner) : SessionEvent → List Sealing
  | .sendTyped v type_ payload =>
    match sender inner (.sendTyped v type_ payload), (sendTyped lib inner v type_ payload).2 with
    | some (i, peer), .ok _ =>
      [⟨v, payload, i, peer.transport.sendCipher,
        dataHeader type_ peer.remoteIndex peer.transport.nextCounter.2⟩]
    | _, _ => []
  | _ => []

variable (lib) in
/-- The packet is the payload sealed under the key, the nonce and the header on record. -/
def Sealing.SealedAs (item : Sealing) (packet : Bytes) : Prop :=
  ∃ ciphertext, lib.aead.encrypt item.cipher.cipher item.cipher.key item.nonce item.header.encode item.payload =
    some ciphertext ∧ packet = item.header.encode ++ ciphertext

/-- The data packet that an output hands to the caller of `send`. -/
def SessionOutput.sentPacket : SessionOutput → List Bytes
  | .sent (.ok (packet, _)) => [packet]
  | _ => []

/-- What goes out is what goes on record. -/
theorem sealing_of_sent (inner : lib.Inner) (event : SessionEvent) :
    List.Forall₂ (Sealing.SealedAs lib) (sealing inner event) ((session lib).step inner event).2.sentPacket := by
  cases event with
  | sendTyped v type_ payload =>
    change List.Forall₂ _ _ (SessionOutput.sent (sendTyped lib inner v type_ payload).2).sentPacket
    rcases sent : (sendTyped lib inner v type_ payload).2 with failure | ⟨packet, dest⟩
    · simp only [sealing, sent]
      rcases sender inner (.sendTyped v type_ payload) with _ | _
      · exact .nil
      · exact .nil
    · obtain ⟨i, peer, indexed, here, -⟩ := sendTyped_spec sent
      obtain ⟨-, ciphertext, packed, encrypted⟩ := (sendTyped_established indexed here type_ payload).2 _ _ sent
      have held := Inner.tunnel_eq_some_iff.mpr here
      simp only [sealing, sender, indexed, held, Option.bind_some, Option.map_some, sent]
      refine .cons ⟨ciphertext, ?_, packed⟩ .nil
      unfold CipherImpl.encrypt at encrypted
      exact okOr_eq_ok encrypted
  | datagram | resolveKnown | awaitLighthouse | openHandshake | peerInfo | recv => exact .nil

variable (lib) in
/-- Two sessions with what each has sent of handshakes, sealed, and given to the callers of its `recv`. -/
structure Mesh where
  session : Side → lib.Inner
  sent : Side → List Bytes
  sealed : Side → List Sealing
  received : Side → List (IpAddr × Bytes)

variable (lib) in
def mesh : System (Mesh lib) MeshEvent SessionOutput where
  step m event :=
    let side := event.side
    let inner := m.session side
    let (next, output) := (session lib).step inner event.step
    ({ session := Function.update m.session side next
       sent := Function.update m.sent side (m.sent side ++ output.packets)
       sealed := Function.update m.sealed side (m.sealed side ++ sealing inner event.step)
       received := Function.update m.received side (m.received side ++ taken inner event.step) }, output)

variable (lib) in
def Mesh.start (built : Side → BuiltSession) : Mesh lib where
  session side := (built side).start
  sent _ := []
  sealed _ := []
  received _ := []

def Mesh.pair (m : Mesh lib) : Pair lib := ⟨m.session, m.sent⟩

/-- What the network cannot do: a handshake message that gives a tunnel carries what the other session sent, and
a packet that opens under a key was sealed with it. -/
structure Unforged (m : Mesh lib) (side : Side) (datagram : Bytes) (source : SocketAddr) (ambient : Ambient) :
    Prop where
  handshake : ∀ i peer, (m.session side).tunnel i = none →
    (handleDatagram lib (m.session side) datagram source ambient).1.tunnel i = some peer →
    ∃ sent ∈ m.sent side.other, handshakeBody sent = handshakeBody datagram
  data : ∀ packet peer plain, (SessionEvent.datagram datagram source ambient).packet = some packet →
    (m.session side).tunnel packet.hdr.remoteIndex = some peer →
    peer.transport.recvCipher.decrypt lib.aead packet.hdr.messageCounter packet.headerBytes packet.body =
      .ok plain →
    ∃ which, ∃ item ∈ m.sealed which, item.cipher = peer.transport.recvCipher ∧
      item.header.encode = packet.headerBytes ∧ item.payload = plain

def MeshEvent.Unforged (m : Mesh lib) : MeshEvent → Prop
  | .call .. => True
  | .deliver side datagram source ambient => Nebula.Unforged m side datagram source ambient

/-- No delivery of the run is forged. -/
def UnforgedRun : Mesh lib → List MeshEvent → Prop
  | _, [] => True
  | m, event :: rest => event.Unforged m ∧ UnforgedRun ((mesh lib).step m event).1 rest

theorem unforgedRun_append {m : Mesh lib} {first second : List MeshEvent} :
    UnforgedRun m (first ++ second) ↔ UnforgedRun m first ∧ UnforgedRun ((mesh lib).exec m first) second := by
  induction first generalizing m with
  | nil => exact (and_iff_right trivial).symm
  | cons event rest ih => rw [List.cons_append, UnforgedRun, UnforgedRun, ih, System.exec_cons, and_assoc]

/-! ## One session of the two -/

section Step

variable {m : Mesh lib} {event : MeshEvent} {side : Side}

theorem session_step_same (m : Mesh lib) (event : MeshEvent) :
    ((mesh lib).step m event).1.session event.side =
      ((session lib).step (m.session event.side) event.step).1 := Function.update_self ..

theorem session_step_other (m : Mesh lib) {event : MeshEvent} {side : Side} (elsewhere : side ≠ event.side) :
    ((mesh lib).step m event).1.session side = m.session side := Function.update_of_ne elsewhere _ _

/-- Each of the two goes through its own sections. -/
theorem session_step (side : Side) (m : Mesh lib) (event : MeshEvent) :
    ((mesh lib).step m event).1.session side = (session lib).exec (m.session side) (event.stepOf side) := by
  unfold MeshEvent.stepOf
  split
  next here =>
    subst here
    exact session_step_same m event
  next elsewhere => exact session_step_other m (Ne.symm elsewhere)

theorem mem_sealing {inner : lib.Inner} {event : SessionEvent} {item : Sealing} (new : item ∈ sealing inner event) :
    ∃ type_ peer, event = .sendTyped item.dest type_ item.payload ∧ sender inner event = some (item.index, peer) ∧
      item.cipher = peer.transport.sendCipher ∧
      item.header = dataHeader type_ peer.remoteIndex peer.transport.nextCounter.2 := by
  cases event with
  | sendTyped v type_ payload =>
    rcases seals : sender inner (.sendTyped v type_ payload) with _ | ⟨i, peer⟩
    · simp only [sealing, seals, List.not_mem_nil] at new
    · rcases sent : (sendTyped lib inner v type_ payload).2 with failure | packet
      · simp only [sealing, seals, sent, List.not_mem_nil] at new
      · simp only [sealing, seals, sent, List.mem_singleton] at new
        subst new
        exact ⟨type_, peer, rfl, rfl, rfl, rfl⟩
  | datagram | resolveKnown | awaitLighthouse | openHandshake | peerInfo | recv => cases new

end Step

/-! ## How a tunnel comes about -/

section Handshake

variable {inner next : lib.Inner} {i : UInt32} {peer : Peer}

/-- Either the section makes no tunnel, and then it does not matter what handshake datagram it handles. -/
theorem Advance.unasked {event : SessionEvent} {incoming : Option (UInt32 × Bytes)} {ambient : Ambient}
    {packets : List Bytes} (advance : Advance lib inner event incoming ambient next packets) :
    Advance lib inner event none ambient next packets ∨
      ∃ i peer, inner.tunnel i = none ∧ next.tunnel i = some peer := by
  cases advance with
  | idle peers => exact .inl (.idle peers)
  | used was same peers => exact .inl (.used was same peers)
  | opened call allocated stage peers => exact .inl (.opened call allocated stage peers)
  | forgot was peers => exact .inl (.forgot was peers)
  | @answered index body reply details keys cert v source asked call allocated responded admitted peers =>
    have free := (allocateIndex_spec allocated).2
    refine .inr ⟨index, tunnelOf inner.cipher keys source v cert details.initiatorIndex, tunnel_of_free free, ?_⟩
    rw [tunnel_of_insert peers, Function.update_self]
    rfl
  | @finished index body hs details keys cert v source asked nonzero was completed peers =>
    refine .inr ⟨index, tunnelOf inner.cipher keys source v cert details.responderIndex, tunnel_of_pending was, ?_⟩
    rw [tunnel_of_insert peers, Function.update_self]
    rfl

/-- The handshake behind a new tunnel, and the certificate that it is for. -/
inductive Admits (lib : Externals) (inner : lib.Inner) (datagram : Bytes) (ambient : Ambient) (i : UInt32)
    (peer : Peer) : Prop
  | answered {body reply : Bytes} {details : NebulaHandshakeDetails} {keys : SplitKeys}
      (asked : handshakeBody datagram = some (0, body))
      (allocated : allocateIndex lib inner ambient.subsecNanos = some i)
      (responded : Responds lib inner i ambient body details reply keys)
      (admitted : admitCert lib inner details keys ambient.nowUnix = some (peer.cert, peer.vpnAddr))
  | finished {body : Bytes} {hs : lib.snow.HandshakeState} {details : NebulaHandshakeDetails} {keys : SplitKeys}
      (asked : handshakeBody datagram = some (i, body)) (nonzero : i ≠ 0)
      (was : inner.peersByIndex.get i = some (.handshaking hs))
      (completed : finishInitiator lib.snow lib.handshakeCodec hs body = .ok (details, keys))
      (admitted : admitCert lib inner details keys ambient.nowUnix = some (peer.cert, peer.vpnAddr))

section Admits

variable {datagram body : Bytes} {source : SocketAddr} {ambient : Ambient}

theorem ne_of_same (free : inner.tunnel i = none) (same : next.tunnel = inner.tunnel) : next.tunnel i ≠ some peer := by
  rw [same, free]
  exact nofun

/-- Where a tunnel is filed, it is the one at `i` if there was none. -/
theorem here_of_insert (free : inner.tunnel i = none) {index : UInt32} {other : Peer}
    (peers : next.peersByIndex = inner.peersByIndex.insert index (.established other))
    (now : next.tunnel i = some peer) : i = index ∧ peer = other := by
  rw [tunnel_of_insert peers, Function.update_apply] at now
  split at now
  next here => exact ⟨here, (Option.some.inj now).symm⟩
  · rw [free] at now
    cases now

theorem admits_of_handleStage0 (asked : handshakeBody datagram = some (0, body)) (free : inner.tunnel i = none)
    (now : (handleStage0 lib inner body source ambient).1.tunnel i = some peer) :
    Admits lib inner datagram ambient i peer := by
  unfold handleStage0 at now
  split at now
  · exact absurd now (ne_of_same free rfl)
  next index allocated =>
    split at now
    · exact absurd now (ne_of_same free rfl)
    next details reply keys responded =>
      split at now
      · exact absurd now (ne_of_same free rfl)
      next cert v admitted =>
        obtain ⟨rfl, rfl⟩ := here_of_insert free rfl now
        exact .answered asked allocated responded admitted

theorem admits_of_handleStage2 {index : UInt32} (asked : handshakeBody datagram = some (index, body))
    (nonzero : index ≠ 0) (free : inner.tunnel i = none)
    (now : (handleStage2 lib inner index body source ambient).1.tunnel i = some peer) :
    Admits lib inner datagram ambient i peer := by
  unfold handleStage2 at now
  split at now
  next hs pending =>
    have gone {next : lib.Inner} (peers : next.peersByIndex = inner.peersByIndex.remove index) :
        next.tunnel = inner.tunnel :=
      (tunnel_of_remove peers).trans (update_tunnel_none (tunnel_of_pending pending))
    dsimp only at now
    split at now
    · exact absurd now (ne_of_same free (gone rfl))
    next details keys finished =>
      split at now
      · exact absurd now (ne_of_same free (gone rfl))
      next cert v admitted =>
        split at now
        · obtain ⟨rfl, rfl⟩ := here_of_insert free (HashMap.insert_remove _ _ _) now
          exact .finished asked nonzero pending finished admitted
        · obtain ⟨rfl, rfl⟩ := here_of_insert free (HashMap.insert_remove _ _ _) now
          exact .finished asked nonzero pending finished admitted
  · exact absurd now (ne_of_same free rfl)

/-- Opening a packet makes no tunnel. -/
theorem ne_of_openPacket (free : inner.tunnel i = none) {hdr : Header} {headerBytes : Bytes}
    (peers : next.peersByIndex = (openPacket lib inner hdr headerBytes body).1.peersByIndex) :
    next.tunnel i ≠ some peer := by
  rw [tunnel_of_peers peers, (tunnel_openPacket inner ⟨hdr, headerBytes, body⟩).1, Function.update_apply]
  split
  next here =>
    rw [← here, free]
    exact nofun
  · rw [free]
    exact nofun

theorem admits_of_tunnel (free : inner.tunnel i = none)
    (now : (handleDatagram lib inner datagram source ambient).1.tunnel i = some peer) :
    Admits lib inner datagram ambient i peer := by
  unfold handleDatagram at now
  split at now
  next failure parsed => exact absurd now (ne_of_same free rfl)
  next hdr parsed =>
    dsimp only at now
    split_ifs at now with handshake message lighthouse
    · have asked := handshakeBody_of_parse parsed handshake
      unfold handleHandshake at now
      split at now
      next fresh => exact admits_of_handleStage0 (fresh ▸ asked) free now
      next ours => exact admits_of_handleStage2 asked ours free now
    · unfold handleMessage at now
      split at now
      next next owner bytes ran =>
        exact absurd now (ne_of_openPacket free (congrArg (·.1.peersByIndex) ran).symm)
      next next ran => exact absurd now (ne_of_openPacket free (congrArg (·.1.peersByIndex) ran).symm)
    · unfold handleLighthousePacket at now
      split at now
      next next owner bytes ran =>
        exact absurd now (ne_of_openPacket free ((handleLighthouse_spec next bytes).2.1.trans
          (congrArg (·.1.peersByIndex) ran).symm))
      next next ran => exact absurd now (ne_of_openPacket free (congrArg (·.1.peersByIndex) ran).symm)
    · exact absurd now (ne_of_same free rfl)

end Admits

end Handshake

/-! ## What a run of the two keeps -/

section Run

variable {built : Side → BuiltSession} {drawn : List Bytes} {m : Mesh lib} {event : MeshEvent} {side : Side}

/-- As far as handshakes go, a step of the two is a step of the pair. -/
theorem mesh_moves (unforged : event.Unforged m) : ∃ incoming ambient packets,
    Moves m.pair event.paired ((mesh lib).step m event).1.pair event.side event.step incoming ambient packets := by
  cases event with
  | call side event own => exact moves_act m.pair side event _
  | deliver side datagram source ambient =>
    have advance := advance_handleDatagram (m.session side) datagram source ambient
    rcases advance.unasked with aside | ⟨i, peer, free, now⟩
    · refine ⟨none, ambient, _, @moves_advance lib m.pair _ side (.datagram datagram source ambient) none ambient
        aside ?_ (fun _ => rfl)⟩
      rintro asked ⟨⟩
    · obtain ⟨sent, member, same⟩ := unforged.handshake i peer free now
      refine ⟨handshakeBody datagram, ambient, _, @moves_advance lib m.pair _ side
        (.datagram datagram source ambient) _ ambient advance ?_ (fun _ => rfl)⟩
      intro asked given
      exact ⟨sent, member, same.trans given⟩

variable (lib) in
/-- The handshakes that the two sessions open and answer in a run. -/
def meshHandshakes (built : Side → BuiltSession) (events : List MeshEvent) : History lib.snow.HandshakeState where
  openings := (mesh lib).gather (fun m event => opens event.side (m.session event.side) event.step)
    (.start lib built) events
  answers := (mesh lib).gather (fun m event => answers event.side (m.session event.side) event.step)
    (.start lib built) events

theorem meshHandshakes_within (built : Side → BuiltSession) (before after : List MeshEvent) :
    (meshHandshakes lib built before).Within (meshHandshakes lib built (before ++ after)) := by
  unfold meshHandshakes
  rw [System.gather_append, System.gather_append]
  exact ⟨List.subset_append_left _ _, List.subset_append_left _ _⟩

/-- What the next step opens and answers is among them. -/
theorem meshHandshakes_step (built : Side → BuiltSession) (before : List MeshEvent) (event : MeshEvent)
    (after : List MeshEvent) :
    (⟨opens event.side (((mesh lib).exec (.start lib built) before).session event.side) event.step,
      answers event.side (((mesh lib).exec (.start lib built) before).session event.side) event.step⟩ :
      History lib.snow.HandshakeState).Within (meshHandshakes lib built (before ++ event :: after)) := by
  constructor
  · intro o member
    exact System.mem_gather_iff.mpr ⟨before, event, after, rfl, member⟩
  · intro a member
    exact System.mem_gather_iff.mpr ⟨before, event, after, rfl, member⟩

theorem identity_mesh (built : Side → BuiltSession) (events : List MeshEvent) (side : Side) :
    (((mesh lib).exec (.start lib built) events).session side).identity =
      (built side).start.identity (H := lib.snow.HandshakeState) := by
  refine (mesh lib).state_invariant (fun m => (m.session side).identity = (built side).start.identity) ?_ rfl events
  intro m event same
  by_cases here : side = event.side
  · subst here
    rw [session_step_same]
    exact (stepped_step (m.session event.side) event.step).identity.trans same
  · rw [session_step_other m here]
    exact same

/-- What is opened and answered is so by the calls of the two sessions. -/
theorem meshHandshakes_calls (built : Side → BuiltSession) (events : List MeshEvent) :
    (meshHandshakes lib built events).Calls lib built := by
  constructor
  · intro o member
    obtain ⟨before, event, after, -, here⟩ := System.mem_gather_iff.mp member
    exact (calls_of_section (identity_mesh built before event.side) event.step).opened o here
  · intro a member
    obtain ⟨before, event, after, -, here⟩ := System.mem_gather_iff.mp member
    exact (calls_of_section (identity_mesh built before event.side) event.step).answered a here

/-- A run of the two that is listed in `all` is explained by a part of `all`. -/
theorem explained_mesh {all : History lib.snow.HandshakeState} (ideal : all.Ideal lib built)
    (events : List MeshEvent) (fresh : (events.filterMap (·.paired.entropy)).Nodup)
    (unforged : UnforgedRun (.start lib built) events) (listed : (meshHandshakes lib built events).Within all) :
    ∃ h : History lib.snow.HandshakeState, h.Within all ∧
      Explained built (events.filterMap (·.paired.entropy)) h ((mesh lib).exec (.start lib built) events).pair := by
  induction events using List.reverseRecOn with
  | nil => exact explained_run ideal [] List.nodup_nil ⟨List.nil_subset _, List.nil_subset _⟩
  | append_singleton events event ih =>
    have drawn : (events ++ [event]).filterMap (·.paired.entropy) =
        events.filterMap (·.paired.entropy) ++ event.paired.entropy.toList := by
      rw [List.filterMap_append]
      cases entropy : event.paired.entropy with
      | none => simp [entropy]
      | some bytes => simp [entropy]
    rw [drawn] at fresh ⊢
    obtain ⟨before, -, apart⟩ := List.nodup_append.mp fresh
    obtain ⟨sofar, now, -⟩ := unforgedRun_append.mp unforged
    obtain ⟨h, within, explained⟩ := ih before sofar ((meshHandshakes_within built events [event]).trans listed)
    obtain ⟨incoming, ambient, packets, moves⟩ := mesh_moves now
    rw [System.exec_concat]
    refine explained.step ideal within moves ((meshHandshakes_step built events event []).trans listed) ?_
    intro entropy drew member
    exact apart entropy member entropy (by simp [drew]) rfl

/-- Every tunnel is for the other session's address, under the contents of its certificate. -/
def Addressed (built : Side → BuiltSession) (m : Mesh lib) : Prop :=
  ∀ side i peer, (m.session side).tunnel i = some peer →
    peer.cert.details = (built side.other).hostCert.details ∧ peer.vpnAddr = (built side.other).vpnAddr

/-- The certificate behind a new tunnel is the one that the other session sent. -/
theorem Admits.hostCert {h all : History lib.snow.HandshakeState} (ideal : all.Ideal lib built)
    (explained : Explained built drawn h m.pair) (within : h.Within all) {datagram : Bytes} {source : SocketAddr}
    {ambient : Ambient} {i : UInt32} {peer : Peer} (admits : Admits lib (m.session side) datagram ambient i peer)
    (listed : answers side (m.session side) (.datagram datagram source ambient) ⊆ all.answers)
    (came : ∃ sent ∈ m.sent side.other, handshakeBody sent = handshakeBody datagram) :
    peer.cert.details = (built side.other).hostCert.details ∧ peer.vpnAddr = (built side.other).vpnAddr := by
  obtain ⟨sent, member, same⟩ := came
  cases admits with
  | @answered body reply details keys asked allocated responded admitted =>
    rw [asked] at same
    rcases explained.sent side.other sent member _ same with ⟨o, opened, owner, from_⟩ | ⟨b, answer, -, from_⟩
    · obtain rfl := (Prod.mk.inj from_).2
      have made : ⟨side, i, ambient, o.msg, details, reply, keys⟩ ∈
          answers side (m.session side) (.datagram datagram source ambient) := by
        simp only [answers, asked, allocated, show _ = Except.ok _ from responded, admitted, List.mem_singleton]
      have read := ideal.reads o (within.openings opened) _ (listed made) rfl
      apply hostCert_of_admitCert admitted
      rw [show details = _ from read, owner]
    · have usable := (respond_spec (explained.genuine.answered b answer)).1
      exact absurd (Prod.mk.inj from_).1.symm usable
  | finished asked nonzero was completed admitted =>
    rw [asked] at same
    obtain ⟨o, opened, -, rfl⟩ := explained.pending side i _ was
    rcases explained.sent side.other sent member _ same with ⟨o', -, -, from_⟩ | ⟨a, answer, owner, from_⟩
    · exact absurd (Prod.mk.inj from_).1 nonzero
    · obtain ⟨rfl, rfl⟩ := Prod.mk.inj from_
      obtain ⟨-, rfl, -, -⟩ := ideal.finishes o (within.openings opened) a (within.answers answer) _ _ completed
      apply hostCert_of_admitCert admitted
      rw [owner]

theorem Addressed.step {h all : History lib.snow.HandshakeState} (ideal : all.Ideal lib built)
    (explained : Explained built drawn h m.pair) (within : h.Within all)
    (listed : answers event.side (m.session event.side) event.step ⊆ all.answers) (addressed : Addressed built m)
    (unforged : event.Unforged m) : Addressed built ((mesh lib).step m event).1 := by
  intro side i peer now
  by_cases here : side = event.side
  · subst here
    rw [session_step_same] at now
    rcases was : (m.session event.side).tunnel i with _ | before
    · cases event with
      | deliver side datagram source ambient =>
        exact (admits_of_tunnel was now).hostCert ideal explained within listed (unforged.handshake i peer was now)
      | call side event own =>
        have change := (stepped_step (m.session side) event).change
        rcases change.established_before (Inner.tunnel_eq_some_iff.mp now) with
          ⟨before, held, -⟩ | ⟨datagram, source, ambient, rfl, -⟩
        · cases was.symm.trans (Inner.tunnel_eq_some_iff.mpr held)
        · cases own
    · have change := (stepped_step (m.session event.side) event.step).change
      obtain ⟨after, held, same⟩ := change.persists (Inner.tunnel_eq_some_iff.mp was)
      obtain rfl := Option.some.inj (now.symm.trans (Inner.tunnel_eq_some_iff.mpr held))
      rw [same.cert, same.vpnAddr]
      exact addressed _ i before was
  · rw [session_step_other m here] at now
    exact addressed side i peer now

/-- The tunnel a payload was sealed under. -/
def Sealing.Under (inner : lib.Inner) (item : Sealing) : Prop :=
  ∃ type_ peer counter, (type_ = Header.message ∨ type_ = Header.lighthouse) ∧
    inner.tunnel item.index = some peer ∧ item.cipher = peer.transport.sendCipher ∧
    item.header = dataHeader type_ peer.remoteIndex counter ∧ item.dest = peer.vpnAddr

/-- What is sealed stays on record with its tunnel, and each session's addresses lead to tunnels for them. -/
structure Kept (m : Mesh lib) : Prop where
  indexed : ∀ side v i, (m.session side).indexByVpnAddr.get v = some i →
    ∃ peer, (m.session side).tunnel i = some peer ∧ peer.vpnAddr = v
  under : ∀ side, ∀ item ∈ m.sealed side, item.Under (m.session side)

theorem tunnel_persists_step (inner : lib.Inner) (event : SessionEvent) {i : UInt32} {peer : Peer}
    (was : inner.tunnel i = some peer) :
    ∃ peer', ((session lib).step inner event).1.tunnel i = some peer' ∧ SameTunnel peer peer' := by
  obtain ⟨peer', held, same⟩ := (stepped_step inner event).change.persists (Inner.tunnel_eq_some_iff.mp was)
  exact ⟨peer', Inner.tunnel_eq_some_iff.mpr held, same⟩

theorem Sealing.Under.step {inner : lib.Inner} {item : Sealing} (under : item.Under inner) (event : SessionEvent) :
    item.Under ((session lib).step inner event).1 := by
  obtain ⟨type_, peer, counter, known, held, cipher, header, dest⟩ := under
  obtain ⟨peer', held', same⟩ := tunnel_persists_step inner event held
  exact ⟨type_, peer', counter, known, held', cipher.trans same.sendCipher.symm, same.remoteIndex ▸ header,
    dest.trans same.vpnAddr.symm⟩

/-- What a call seals it seals under the tunnel for its address. -/
theorem under_of_sealing {inner : lib.Inner} (indexed : ∀ v i, inner.indexByVpnAddr.get v = some i →
    ∃ peer, inner.tunnel i = some peer ∧ peer.vpnAddr = v) {item : Sealing} (new : item ∈ sealing inner event.step) :
    item.Under inner := by
  obtain ⟨type_, peer, call, seals, cipher, header⟩ := mem_sealing new
  obtain ⟨i, found, rest⟩ := Option.bind_eq_some_iff.mp (call ▸ seals)
  obtain ⟨peer', held, same⟩ := Option.map_eq_some_iff.mp rest
  obtain ⟨rfl, rfl⟩ := Prod.mk.inj same
  obtain ⟨peer'', held', address⟩ := indexed _ _ found
  obtain rfl := Option.some.inj (held.symm.trans held')
  refine ⟨type_, peer', peer'.transport.nextCounter.2, ?_, held, cipher, header, address.symm⟩
  cases event with
  | deliver side datagram source ambient => cases call
  | call side event own =>
    change event = _ at call
    subst call
    simpa [SessionEvent.isCall] using own

theorem Kept.step (kept : Kept m) (event : MeshEvent) : Kept ((mesh lib).step m event).1 := by
  have indexed (v : IpAddr) (i : UInt32)
      (now : ((session lib).step (m.session event.side) event.step).1.indexByVpnAddr.get v = some i) :
      ∃ peer, ((session lib).step (m.session event.side) event.step).1.tunnel i = some peer ∧ peer.vpnAddr = v := by
    rcases (stepped_step (m.session event.side) event.step).change.indexed_before now with before | ⟨peer, held, v⟩
    · obtain ⟨peer, held, address⟩ := kept.indexed _ v i before
      obtain ⟨peer', held', same⟩ := tunnel_persists_step (m.session event.side) event.step held
      exact ⟨peer', held', same.vpnAddr.trans address⟩
    · exact ⟨peer, Inner.tunnel_eq_some_iff.mpr held, v⟩
  constructor
  · intro side v i now
    by_cases here : side = event.side
    · subst here
      rw [session_step_same] at now ⊢
      exact indexed v i now
    · rw [session_step_other m here] at now ⊢
      exact kept.indexed side v i now
  · intro side item member
    by_cases here : side = event.side
    · subst here
      rw [session_step_same]
      rw [show ((mesh lib).step m event).1.sealed event.side =
        m.sealed event.side ++ sealing (m.session event.side) event.step from Function.update_self ..] at member
      rcases List.mem_append.mp member with old | new
      · exact (kept.under event.side item old).step event.step
      · exact (under_of_sealing (kept.indexed event.side) new).step event.step
    · rw [show ((mesh lib).step m event).1.sealed side = m.sealed side from Function.update_of_ne here _ _] at member
      rw [session_step_other m here]
      exact kept.under side item member

theorem kept_run (events : List MeshEvent) : Kept ((mesh lib).exec (.start lib built) events) := by
  refine (mesh lib).state_invariant Kept (fun m event kept => kept.step event) ⟨?_, ?_⟩ events
  · intro side v i now
    cases now
  · intro side item member
    cases member

theorem addressed_run {all : History lib.snow.HandshakeState} (ideal : all.Ideal lib built) (events : List MeshEvent)
    (fresh : (events.filterMap (·.paired.entropy)).Nodup) (unforged : UnforgedRun (.start lib built) events)
    (listed : (meshHandshakes lib built events).Within all) :
    Addressed built ((mesh lib).exec (.start lib built) events) := by
  induction events using List.reverseRecOn with
  | nil =>
    intro side i peer now
    cases now
  | append_singleton events event ih =>
    obtain ⟨sofar, now, -⟩ := unforgedRun_append.mp unforged
    rw [List.filterMap_append] at fresh
    have before := (List.nodup_append.mp fresh).1
    have earlier := (meshHandshakes_within built events [event]).trans listed
    obtain ⟨h, within, explained⟩ := explained_mesh ideal events before sofar earlier
    rw [System.exec_concat]
    exact (ih before sofar earlier).step ideal explained within
      ((meshHandshakes_step built events event []).trans listed).answers now

end Run

end Nebula
