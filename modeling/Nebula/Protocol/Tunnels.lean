import Nebula.Machine.Part
import Nebula.Protocol.DataChannel
import Nebula.Protocol.ForgedPackets
import Mathlib.Logic.Function.Basic

/-! # The tunnels of a session, one by one

A section of a session opens a packet under the tunnel it names, seals a payload under one, adds a tunnel where
there is none, or leaves all tunnels alone. So a tunnel opens what its transport would open of the packets
addressed to it if it had them to itself, whatever else the session does.
-/

namespace Nebula

open Rust Machine

variable {lib : Externals}

def PeerState.tunnel {H : Type} : PeerState H → Option Peer
  | .handshaking _ => none
  | .established peer => some peer

/-- The tunnel filed under an index. -/
def Inner.tunnel {H : Type} (inner : Inner H) (i : UInt32) : Option Peer :=
  (inner.peersByIndex.get i).bind PeerState.tunnel

theorem Inner.tunnel_eq_some_iff {H : Type} {inner : Inner H} {i : UInt32} {peer : Peer} :
    inner.tunnel i = some peer ↔ inner.peersByIndex.get i = some (.established peer) := by
  unfold Inner.tunnel
  rcases inner.peersByIndex.get i with _ | hs | other <;> simp [PeerState.tunnel]

/-- A data packet: its header as parsed, the header's bytes, and the body. -/
structure DataPacket where
  hdr : Header
  headerBytes : Bytes
  body : Bytes

/-- The data packet that an event brings in. -/
def SessionEvent.packet : SessionEvent → Option DataPacket
  | .datagram bytes _ _ =>
    match Header.parse bytes with
    | .error _ => none
    | .ok hdr =>
      if hdr.type_ = Header.message ∨ hdr.type_ = Header.lighthouse then
        some ⟨hdr, bytes.take Header.len, bytes.drop Header.len⟩
      else none
  | _ => none

/-- The tunnel that an event seals a payload under. -/
def sender (inner : lib.Inner) : SessionEvent → Option (UInt32 × Peer)
  | .sendTyped v _ _ => (inner.indexByVpnAddr.get v).bind fun i => (inner.tunnel i).map fun peer => (i, peer)
  | _ => none

/-- The tunnel once a packet has been put through it. -/
def Peer.received (peer : Peer) (aead : Aead) (packet : DataPacket) : Peer :=
  { peer with
    transport := (peer.transport.decrypt aead packet.hdr.messageCounter packet.headerBytes packet.body
      (List.replicate packet.body.length 0)).1 }

/-- The tunnel once a counter has been drawn from it. -/
def Peer.drawn (peer : Peer) : Peer := { peer with transport := peer.transport.nextCounter.1 }

/-- All that a section does to tunnels. -/
inductive TunnelStep (inner : lib.Inner) (event : SessionEvent) (next : lib.Inner) : Prop
  | aside (carries : event.packet = none) (seals : sender inner event = none) (tunnels : next.tunnel = inner.tunnel)
  | added (i : UInt32) (peer : Peer) (carries : event.packet = none) (seals : sender inner event = none)
      (free : inner.tunnel i = none) (new : ∃ cipher k₁ k₂, peer.transport = .new cipher k₁ k₂)
      (tunnels : next.tunnel = Function.update inner.tunnel i (some peer))
  | received (packet : DataPacket) (carries : event.packet = some packet) (seals : sender inner event = none)
      (tunnels : next.tunnel = Function.update inner.tunnel packet.hdr.remoteIndex
        ((inner.tunnel packet.hdr.remoteIndex).map (·.received lib.aead packet)))
  | drew (i : UInt32) (peer : Peer) (carries : event.packet = none) (seals : sender inner event = some (i, peer))
      (held : inner.tunnel i = some peer) (tunnels : next.tunnel = Function.update inner.tunnel i (some peer.drawn))

section Step

variable {inner next : lib.Inner} {i : UInt32} {peer : Peer}

theorem tunnel_of_peers (same : next.peersByIndex = inner.peersByIndex) : next.tunnel = inner.tunnel := by
  funext k
  rw [Inner.tunnel, same]
  rfl

theorem tunnel_of_insert {state : PeerState lib.snow.HandshakeState}
    (peers : next.peersByIndex = inner.peersByIndex.insert i state) :
    next.tunnel = Function.update inner.tunnel i state.tunnel := by
  funext k
  rw [Inner.tunnel, peers, HashMap.get_insert, Function.update_apply]
  split
  · rfl
  · rfl

theorem tunnel_of_remove (peers : next.peersByIndex = inner.peersByIndex.remove i) :
    next.tunnel = Function.update inner.tunnel i none := by
  funext k
  rw [Inner.tunnel, peers, HashMap.get_remove, Function.update_apply]
  split
  · rfl
  · rfl

/-- What is pending is no tunnel, and ceases to be pending without a trace. -/
theorem tunnel_of_pending {hs : lib.snow.HandshakeState}
    (was : inner.peersByIndex.get i = some (.handshaking hs)) : inner.tunnel i = none := by
  rw [Inner.tunnel, was]
  rfl

theorem tunnel_of_free (free : inner.peersByIndex.get i = none) : inner.tunnel i = none := by
  rw [Inner.tunnel, free]
  rfl

theorem update_tunnel_none (free : inner.tunnel i = none) : Function.update inner.tunnel i none = inner.tunnel := by
  rw [← free, Function.update_eq_self]

/-- A transport that has taken a packet, with the packet's contents if it opened. -/
def contents (result : Res (ℕ × Bytes)) : Option Bytes :=
  match result with
  | .ok (len, out) => some (out.take len)
  | .error _ => none

/-- The tunnel that a packet names takes it, if there is one. -/
theorem tunnel_openPacket (inner : lib.Inner) (packet : DataPacket) :
    (openPacket lib inner packet.hdr packet.headerBytes packet.body).1.tunnel =
        Function.update inner.tunnel packet.hdr.remoteIndex
          ((inner.tunnel packet.hdr.remoteIndex).map (·.received lib.aead packet)) ∧
      (openPacket lib inner packet.hdr packet.headerBytes packet.body).2 =
        (inner.tunnel packet.hdr.remoteIndex).bind fun peer =>
          (contents (peer.transport.decrypt lib.aead packet.hdr.messageCounter packet.headerBytes packet.body
            (List.replicate packet.body.length 0)).2).map fun bytes => (peer, bytes) := by
  rcases found : inner.peersByIndex.get packet.hdr.remoteIndex with _ | ⟨hs⟩ | ⟨peer⟩
  · have free := tunnel_of_free found
    simp [openPacket, found, free]
  · have free := tunnel_of_pending found
    simp [openPacket, found, free]
  · have held := Inner.tunnel_eq_some_iff.mpr found
    simp only [openPacket, found, held, Option.map_some, Option.bind_some]
    split
    next len out opened =>
      rw [opened]
      exact ⟨@tunnel_of_insert lib inner _ _ (.established (peer.received lib.aead packet)) rfl, rfl⟩
    next failure failed =>
      rw [failed]
      exact ⟨@tunnel_of_insert lib inner _ _ (.established (peer.received lib.aead packet)) rfl, rfl⟩

/-- A handshake datagram leaves the tunnels alone or adds one. -/
theorem tunnel_handleHandshake (inner : lib.Inner) (hdr : Header) (body : Bytes) (source : SocketAddr)
    (ambient : Ambient) :
    (handleHandshake lib inner hdr body source ambient).1.tunnel = inner.tunnel ∨
      ∃ i peer, inner.tunnel i = none ∧ (∃ cipher k₁ k₂, peer.transport = .new cipher k₁ k₂) ∧
        (handleHandshake lib inner hdr body source ambient).1.tunnel =
          Function.update inner.tunnel i (some peer) := by
  unfold handleHandshake
  split
  · unfold handleStage0
    split
    · exact .inl rfl
    next index allocated =>
      split
      · exact .inl rfl
      next details reply keys responded =>
        split
        · exact .inl rfl
        next cert v admitted =>
          let peer : Peer :=
            { transport := .new inner.cipher keys.sendKey keys.recvKey, remote := source, vpnAddr := v, cert,
              remoteIndex := details.initiatorIndex }
          exact .inr ⟨index, peer, tunnel_of_free (allocateIndex_spec allocated).2, ⟨_, _, _, rfl⟩,
            @tunnel_of_insert lib inner _ index (.established peer) rfl⟩
  · unfold handleStage2
    split
    next hs pending =>
      have free := tunnel_of_pending pending
      dsimp only
      split
      · exact .inl ((tunnel_of_remove rfl).trans (update_tunnel_none free))
      next details keys finished =>
        split
        · exact .inl ((tunnel_of_remove rfl).trans (update_tunnel_none free))
        next cert v admitted =>
          let peer : Peer :=
            { transport := .new inner.cipher keys.sendKey keys.recvKey, remote := source, vpnAddr := v, cert,
              remoteIndex := details.responderIndex }
          refine .inr ⟨hdr.remoteIndex, peer, free, ⟨_, _, _, rfl⟩, ?_⟩
          split
          · exact @tunnel_of_insert lib inner _ _ (.established peer) (HashMap.insert_remove _ _ _)
          · exact @tunnel_of_insert lib inner _ _ (.established peer) (HashMap.insert_remove _ _ _)
    · exact .inl rfl

theorem tunnelStep_datagram (inner : lib.Inner) (datagram : Bytes) (source : SocketAddr) (ambient : Ambient) :
    TunnelStep inner (.datagram datagram source ambient) (handleDatagram lib inner datagram source ambient).1 := by
  unfold handleDatagram
  split
  next failure parsed => exact .aside (by simp only [SessionEvent.packet, parsed]) rfl rfl
  next hdr parsed =>
    dsimp only
    have carries : (SessionEvent.datagram datagram source ambient).packet =
        if hdr.type_ = Header.message ∨ hdr.type_ = Header.lighthouse then
          some ⟨hdr, datagram.take Header.len, datagram.drop Header.len⟩ else none := by
      simp only [SessionEvent.packet, parsed]
    have opens := (tunnel_openPacket inner ⟨hdr, datagram.take Header.len, datagram.drop Header.len⟩).1
    split_ifs with handshake message lighthouse
    · rw [if_neg (by rw [handshake]; decide)] at carries
      rcases tunnel_handleHandshake inner hdr (datagram.drop Header.len) source ambient with
        same | ⟨i, peer, free, new, tunnels⟩
      · exact .aside carries rfl same
      · exact .added i peer carries rfl free new tunnels
    · rw [if_pos (.inl message)] at carries
      refine .received _ carries rfl ?_
      rw [← opens]
      unfold handleMessage
      split
      next next peer bytes opened => exact tunnel_of_peers (congrArg (·.1.peersByIndex) opened).symm
      next next opened => exact tunnel_of_peers (congrArg (·.1.peersByIndex) opened).symm
    · rw [if_pos (.inr lighthouse)] at carries
      refine .received _ carries rfl ?_
      rw [← opens]
      unfold handleLighthousePacket
      split
      next next peer bytes opened =>
        exact tunnel_of_peers ((handleLighthouse_spec next bytes).2.1.trans
          (congrArg (·.1.peersByIndex) opened).symm)
      next next opened => exact tunnel_of_peers (congrArg (·.1.peersByIndex) opened).symm
    · exact .aside (carries.trans (if_neg (by simp [message, lighthouse]))) rfl rfl

theorem tunnelStep_sendTyped (inner : lib.Inner) (v : IpAddr) (type_ : UInt8) (payload : Bytes) :
    TunnelStep inner (.sendTyped v type_ payload) (sendTyped lib inner v type_ payload).1 := by
  have unsealed {i : UInt32} (indexed : inner.indexByVpnAddr.get v = some i) (free : inner.tunnel i = none) :
      sender inner (.sendTyped v type_ payload) = none := by
    simp only [sender, indexed, free, Option.bind_some, Option.map_none]
  unfold sendTyped
  split
  next missing => exact .aside rfl (by simp only [sender, missing, Option.bind_none]) rfl
  next i indexed =>
    rcases found : inner.peersByIndex.get i with _ | ⟨hs⟩ | ⟨peer⟩
    · exact .aside rfl (unsealed indexed (tunnel_of_free found)) rfl
    · exact .aside rfl (unsealed indexed (tunnel_of_pending found)) rfl
    · have held := Inner.tunnel_eq_some_iff.mpr found
      refine .drew i peer rfl ?_ held (@tunnel_of_insert lib inner _ i (.established peer.drawn) rfl)
      simp only [sender, indexed, held, Option.bind_some, Option.map_some]

/-- Every section makes one of the steps. -/
theorem tunnelStep (inner : lib.Inner) (event : SessionEvent) :
    TunnelStep inner event ((session lib).step inner event).1 := by
  cases event with
  | datagram bytes source ambient => exact tunnelStep_datagram inner bytes source ambient
  | resolveKnown v => exact .aside rfl rfl rfl
  | awaitLighthouse v waiter => exact .aside rfl rfl rfl
  | openHandshake v remote waiter ambient =>
    refine .aside rfl rfl ?_
    change (openHandshake lib inner v remote waiter ambient).1.tunnel = inner.tunnel
    unfold openHandshake
    dsimp only
    split
    · rfl
    next index allocated =>
      split
      · rfl
      next hs msg opened =>
        have free := tunnel_of_free (allocateIndex_spec allocated).2
        exact (tunnel_of_insert rfl).trans (update_tunnel_none free)
  | sendTyped v type_ payload => exact tunnelStep_sendTyped inner v type_ payload
  | peerInfo v => exact .aside rfl rfl rfl
  | recv =>
    refine .aside rfl rfl (tunnel_of_peers ?_)
    change (recv lib inner).1.peersByIndex = _
    unfold recv
    split
    · rfl
    · rfl

end Step

/-! ## A tunnel by itself -/

/-- A transport that only receives. -/
def receiver (aead : Aead) : System Transport DataPacket (Option Bytes) where
  step t packet :=
    let (t, result) := t.decrypt aead packet.hdr.messageCounter packet.headerBytes packet.body
      (List.replicate packet.body.length 0)
    (t, contents result)

/-- The packet of an event, if it names this tunnel. -/
def addressed (i : UInt32) (event : SessionEvent) : List DataPacket :=
  event.packet.toList.filter fun packet => packet.hdr.remoteIndex = i

variable (lib) in
/-- The packets of an event that name this tunnel, each with what the session opens it to. -/
def openedAt (i : UInt32) (inner : lib.Inner) (event : SessionEvent) : List (DataPacket × Option Bytes) :=
  (addressed i event).map fun packet =>
    (packet, (openPacket lib inner packet.hdr packet.headerBytes packet.body).2.map Prod.snd)

section Receive

variable {inner : lib.Inner} {i : UInt32} {peer peer' : Peer}

/-- What a transport makes of a packet depends on its receiving half alone. -/
theorem decrypt_congr (aead : Aead) {t t' : Transport} (cipher : t.recvCipher = t'.recvCipher)
    (replay : t.replay = t'.replay) (counter : UInt64) (aad body out : Bytes) :
    (t.decrypt aead counter aad body out).2 = (t'.decrypt aead counter aad body out).2 ∧
      (t.decrypt aead counter aad body out).1.replay = (t'.decrypt aead counter aad body out).1.replay ∧
      (t.decrypt aead counter aad body out).1.recvCipher = t.recvCipher := by
  unfold Transport.decrypt
  rw [replay, cipher]
  dsimp only
  split
  · exact ⟨rfl, rfl, rfl⟩
  · exact ⟨rfl, rfl, rfl⟩

/-- The tunnel filed under an index, and a lone transport with the same receiving half. -/
structure ReceivesAs (i : UInt32) (peer : Peer) (inner : lib.Inner) (now : Peer) (t : Transport) : Prop where
  held : inner.tunnel i = some now
  same : SameTunnel peer now
  cipher : now.transport.recvCipher = t.recvCipher
  replay : now.transport.replay = t.replay

/-- Opening a packet keeps the tunnel. -/
theorem sameTunnel_received (peer : Peer) (aead : Aead) (packet : DataPacket) :
    SameTunnel peer (peer.received aead packet) := by
  obtain ⟨sends, receives, -⟩ := decrypt_spec aead peer.transport packet.hdr.messageCounter packet.headerBytes
    packet.body (List.replicate packet.body.length 0)
  exact ⟨sends, receives, rfl, rfl, rfl, rfl⟩

theorem addressed_of_packet {event : SessionEvent} {packet : DataPacket} (carries : event.packet = some packet)
    (i : UInt32) : addressed i event = if packet.hdr.remoteIndex = i then [packet] else [] := by
  rw [addressed, carries, Option.toList_some, List.filter_cons, List.filter_nil]
  simp only [decide_eq_true_eq]

/-- Only a packet addressed to a tunnel moves its receiving half, and it moves it as it moves the lone one. -/
theorem ReceivesAs.step {now : Peer} {t : Transport} (agrees : ReceivesAs i peer inner now t)
    (event : SessionEvent) :
    (∃ now', ReceivesAs i peer ((session lib).step inner event).1 now'
      ((receiver lib.aead).exec t (addressed i event))) ∧
      (receiver lib.aead).log t (addressed i event) = openedAt lib i inner event := by
  have unaddressed (carries : event.packet = none) : addressed i event = [] := by
    rw [addressed, carries]
    rfl
  cases tunnelStep inner event with
  | aside carries seals tunnels =>
    rw [openedAt, unaddressed carries]
    exact ⟨⟨now, by rw [tunnels, agrees.held], agrees.same, agrees.cipher, agrees.replay⟩, rfl⟩
  | added k other carries seals free new tunnels =>
    rw [openedAt, unaddressed carries]
    refine ⟨⟨now, ?_, agrees.same, agrees.cipher, agrees.replay⟩, rfl⟩
    have apart : i ≠ k := by
      rintro rfl
      cases agrees.held.symm.trans free
    rw [tunnels, Function.update_of_ne apart, agrees.held]
  | drew k other carries seals held tunnels =>
    rw [openedAt, unaddressed carries]
    refine ⟨?_, rfl⟩
    by_cases here : i = k
    · subst here
      obtain rfl := Option.some.inj (agrees.held.symm.trans held)
      exact ⟨now.drawn, by rw [tunnels, Function.update_self],
        agrees.same.trans ⟨rfl, rfl, rfl, rfl, rfl, rfl⟩, agrees.cipher, agrees.replay⟩
    · exact ⟨now, by rw [tunnels, Function.update_of_ne here, agrees.held], agrees.same, agrees.cipher,
        agrees.replay⟩
  | received packet carries seals tunnels =>
    rw [openedAt, addressed_of_packet carries i]
    split
    next here =>
      subst here
      obtain ⟨result, replay, cipher⟩ := decrypt_congr lib.aead agrees.cipher agrees.replay
        packet.hdr.messageCounter packet.headerBytes packet.body (List.replicate packet.body.length 0)
      have received := sameTunnel_received now lib.aead packet
      refine ⟨⟨now.received lib.aead packet, ?_, agrees.same.trans received, ?_, replay⟩, ?_⟩
      · rw [tunnels, Function.update_self, agrees.held]
        rfl
      · exact cipher.trans (agrees.cipher.trans (decrypt_congr lib.aead rfl rfl _ _ _ _).2.2.symm)
      · simp only [List.map_cons, List.map_nil, (tunnel_openPacket inner packet).2, agrees.held, Option.bind_some,
          Option.map_map, Function.comp_def, Option.map_id']
        rw [result]
        rfl
    next elsewhere =>
      refine ⟨⟨now, ?_, agrees.same, agrees.cipher, agrees.replay⟩, rfl⟩
      rw [tunnels, Function.update_of_ne (Ne.symm elsewhere), agrees.held]

/-- From any state in which there is a tunnel at `i`, whatever the session does next: what it opens under this
tunnel is what the tunnel's transport by itself opens of the packets that name it, in their order. No other
datagram, call or tunnel plays a part. -/
theorem tunnel_receives_alone (inner : lib.Inner) (i : UInt32) (peer : Peer) (held : inner.tunnel i = some peer)
    (events : List SessionEvent) :
    (session lib).gather (openedAt lib i) inner events =
        (receiver lib.aead).log peer.transport (events.flatMap (addressed i)) ∧
      ∃ now, ((session lib).exec inner events).tunnel i = some now ∧ SameTunnel peer now ∧
        now.transport.replay =
          ((receiver lib.aead).exec peer.transport (events.flatMap (addressed i))).replay := by
  have initial : ∃ now, ReceivesAs i peer inner now peer.transport := ⟨peer, held, .refl peer, rfl, rfl⟩
  obtain ⟨⟨now, agrees⟩, same⟩ := (session lib).part_run (receiver lib.aead) (fun _ => addressed i)
    (openedAt lib i) (fun (_ : List SessionEvent) inner t => ∃ now, ReceivesAs i peer inner now t)
    (fun event _ _ _ ⟨_, agrees⟩ => agrees.step event) initial
  rw [System.gather_flatMap] at agrees same
  exact ⟨same.symm, now, agrees.held, agrees.same, agrees.replay⟩

open TestNetwork in
/-- A packet of host A, a stray stage-0 message in between, and the packet again: host B opens what the tunnel by
itself would. -/
theorem copy_opens_under_its_tunnel :
    let packet := ((sendTyped meshNetwork linkedA (vpn 2) Header.message [1, 2, 3]).2.toOption.map Prod.fst).getD []
    let events : List SessionEvent :=
      [.datagram packet (endpoint 1) (ambient 3), .datagram stage0Datagram (endpoint 1) (ambient 4),
        .datagram packet (endpoint 1) (ambient 5)]
    ((session meshNetwork).gather (openedAt meshNetwork indexB) answeredMeshA events).map Prod.snd =
      [some [1, 2, 3], none] := by
  intro packet events
  have held : answeredMeshA.tunnel indexB = some tunnelToA :=
    Inner.tunnel_eq_some_iff.mpr linkedA_answeredMeshA.there
  rw [(tunnel_receives_alone answeredMeshA indexB tunnelToA held events).1]
  decide +kernel

end Receive

end Nebula
