import Nebula.Listener.MeshToTun

/-! # As whom a received packet is evaluated

The identity under which `mesh_to_tun` evaluates a packet is that of the tunnel its sender's address points to
when the task looks it up. That tunnel is a verified one for the same address as the tunnel that decrypted
the packet, which is still there; it is another one only if a handshake for the address completed after that
tunnel was established.
-/

namespace Nebula.Listener

open Rust

variable {lib : Externals}

/-! ## Tunnels that others have superseded -/

/-- A datagram of the run established a tunnel for `v` at `i` when the one at `old` was there already. -/
def Superseded (start : lib.Inner) (sections : List SessionEvent) (v : IpAddr) (old i : UInt32) : Prop :=
  ∃ before event after peer new, sections = before ++ event :: after ∧
    ((session lib).exec start before).peersByIndex.get old = some (.established peer) ∧
    Establishes lib ((session lib).exec start before) event ((session lib).exec start (before ++ [event])) i new ∧
    new.vpnAddr = v

theorem Superseded.later {start : lib.Inner} {sections more : List SessionEvent} {v : IpAddr} {old i : UInt32}
    (superseded : Superseded start sections v old i) : Superseded start (sections ++ more) v old i := by
  obtain ⟨before, event, after, peer, new, rfl, rest⟩ := superseded
  exact ⟨before, event, after ++ more, peer, new, by simp, rest⟩

/-- Wherever an address does not point to a tunnel for it, that tunnel was superseded. -/
theorem superseded_run (start : lib.Inner)
    (unused : ∀ i peer, start.peersByIndex.get i ≠ some (.established peer)) (sections : List SessionEvent)
    {old i : UInt32} {peer : Peer}
    (here : ((session lib).exec start sections).peersByIndex.get old = some (.established peer))
    (pointed : ((session lib).exec start sections).indexByVpnAddr.get peer.vpnAddr = some i)
    (moved : i ≠ old) : Superseded start sections peer.vpnAddr old i := by
  induction sections using List.reverseRecOn generalizing peer with
  | nil => exact absurd here (unused old peer)
  | append_singleton sections event ih =>
    have change := (stepped_step ((session lib).exec start sections) event).change
    rw [← (session lib).exec_concat] at change
    rcases change.tunnels with ⟨index, new, establishes⟩ | ⟨indices, kept⟩
    · rw [establishes.indices, HashMap.get_insert] at pointed
      rw [establishes.peers, HashMap.get_insert] at here
      split at here
      next first =>
        -- The tunnel was established just now, so its address points to it.
        cases here
        rw [if_pos rfl] at pointed
        exact absurd (first.trans (Option.some.inj pointed)).symm moved
      next other =>
        split at pointed
        next same =>
          cases pointed
          exact ⟨sections, event, [], peer, new, rfl, here, establishes, same.symm⟩
        next elsewhere => exact (ih here pointed).later
    · obtain ⟨before, was, same⟩ := kept old peer here
      rw [indices, same.vpnAddr] at pointed
      rw [same.vpnAddr]
      exact (ih was pointed).later

/-! ## The history of a packet -/

/-- The tunnel decrypted the bytes in one of the sections. -/
def Decrypted (start : lib.Inner) (sections : List SessionEvent) (origin : Origin) (bytes : Bytes) : Prop :=
  ∃ before event after, sections = before ++ event :: after ∧
    delivers lib ((session lib).exec start before) event = some (origin, bytes)

theorem Decrypted.later {start : lib.Inner} {sections : List SessionEvent} {origin : Origin} {bytes : Bytes}
    (decrypted : Decrypted start sections origin bytes) (more : List SessionEvent) :
    Decrypted start (sections ++ more) origin bytes := by
  obtain ⟨before, event, after, rfl, delivered⟩ := decrypted
  exact ⟨before, event, after ++ more, by simp, delivered⟩

theorem established_of_delivers {inner : lib.Inner} {event : SessionEvent} {origin : Origin} {bytes : Bytes}
    (delivered : delivers lib inner event = some (origin, bytes)) :
    inner.peersByIndex.get origin.index = some (.established origin.peer) := by
  cases event with
  | datagram datagram source ambient =>
    unfold delivers at delivered
    dsimp only at delivered
    split at delivered
    · cases delivered
    next hdr parsed =>
      split at delivered
      next message =>
        obtain ⟨⟨peer, plain⟩, opened, same⟩ := Option.map_eq_some_iff.mp delivered
        cases same
        rcases openPacket_spec inner hdr (datagram.take Header.len) (datagram.drop Header.len) with
          unopened | ⟨owner, owner', found, was, -, put, owned⟩
        · rw [unopened] at opened
          cases opened
        · rw [put] at opened
          obtain ⟨rfl, -⟩ := owned _ _ opened
          exact was
      · cases delivered
  | resolveKnown vpnAddr => cases delivered
  | awaitLighthouse vpnAddr waiter => cases delivered
  | openHandshake vpnAddr remote waiter ambient => cases delivered
  | sendTyped vpnAddr type_ payload => cases delivered
  | peerInfo vpnAddr => cases delivered
  | recv => cases delivered

/-- The tunnel that decrypted something stays at its index. -/
theorem Decrypted.kept {start : lib.Inner} {sections : List SessionEvent} {origin : Origin} {bytes : Bytes}
    (decrypted : Decrypted start sections origin bytes) :
    ∃ own, ((session lib).exec start sections).peersByIndex.get origin.index = some (.established own) ∧
      SameTunnel origin.peer own := by
  obtain ⟨before, event, after, rfl, delivered⟩ := decrypted
  rw [(session lib).exec_append]
  exact established_persists _ (event :: after) (established_of_delivers delivered)

/-- The lookup of an identity for what `origin` decrypted found the tunnel `used` at `i`. -/
structure Looked (start : lib.Inner) (before : List SessionEvent) (origin : Origin) (bytes : Bytes)
    (i : UInt32) (used : Peer) : Prop where
  decrypted : Decrypted start before origin bytes
  pointed : ((session lib).exec start before).indexByVpnAddr.get origin.peer.vpnAddr = some i
  verified : VerifiedTunnel lib start ((session lib).log start before) ((session lib).exec start before) i
    origin.peer.vpnAddr used
  kept : ∃ own, ((session lib).exec start before).peersByIndex.get origin.index = some (.established own) ∧
    SameTunnel origin.peer own
  own : i = origin.index → used.cert = origin.peer.cert
  superseded : i ≠ origin.index → Superseded start before origin.peer.vpnAddr origin.index i

/-- The packet in hand was decrypted, and the task's own lookup for it found this identity. -/
structure Identification (start : lib.Inner) (caName caSha : String) (trace : Trace) (bytes : Bytes) (packet : Packet)
    (peer : PeerIdentity) (origin : Origin) (before after : List SessionEvent) (i : UInt32) (used : Peer) : Prop where
  held : trace.inHand = some (origin, bytes)
  parsed : parse bytes true = .ok (some packet)
  sections : trace.sections = before ++ .peerInfo origin.peer.vpnAddr :: after
  lookup : before.length = trace.lookup
  looked : Looked start before origin bytes i used
  identity : identityOf used.cert caName caSha = .ok peer

/-- What is known of the packet that `mesh_to_tun` has in hand. -/
inductive InHand (start : lib.Inner) (caName caSha : String) (trace : Trace) : Progress → Prop
  | receiving : InHand start caName caSha trace .receiving
  | parsed {origin : Origin} {bytes : Bytes} {packet : Packet} (held : trace.inHand = some (origin, bytes))
      (parsed : parse bytes true = .ok (some packet)) (decrypted : Decrypted start trace.sections origin bytes) :
      InHand start caName caSha trace (.parsed origin.peer.vpnAddr bytes packet)
  | identified {bytes : Bytes} {packet : Packet} {peer : PeerIdentity} {origin : Origin}
      {before after : List SessionEvent} {i : UInt32} {used : Peer}
      (known : Identification start caName caSha trace bytes packet peer origin before after i used) :
      InHand start caName caSha trace (.identified bytes packet peer)
  | evaluating {bytes : Bytes} {running : Firewall.Running} {origin : Origin} {before after : List SessionEvent}
      {i : UInt32} {used : Peer}
      (known : Identification start caName caSha trace bytes running.call.packet running.call.remote origin before
        after i used) :
      InHand start caName caSha trace (.evaluating bytes running)
  | unwound (cause : Panic) : InHand start caName caSha trace (.unwound cause)

/-- What every run of a watched listener keeps. -/
structure Tracked (start : lib.Inner) (caName caSha : String) (node : Node lib) (trace : Trace) : Prop where
  named : node.caName = caName ∧ node.caSha = caSha
  ran : node.session = (session lib).exec start trace.sections
  inbox : node.session.inbox = trace.queue.map item
  queue : ∀ origin bytes, (origin, bytes) ∈ trace.queue → Decrypted start trace.sections origin bytes
  inHand : InHand start caName caSha trace node.progress

section Step

variable {start : lib.Inner} {caName caSha : String} {node : Node lib} {trace : Trace}

theorem Identification.after {bytes : Bytes} {packet : Packet} {peer : PeerIdentity} {origin : Origin}
    {before after : List SessionEvent} {i : UInt32} {used : Peer}
    (known : Identification start caName caSha trace bytes packet peer origin before after i used) (inner : lib.Inner)
    (event : SessionEvent) :
    Identification start caName caSha (trace.after lib inner event) bytes packet peer origin before (after ++ [event]) i
      used where
  held := known.held
  parsed := known.parsed
  sections := by
    change trace.sections ++ [event] = _
    rw [known.sections, List.append_assoc, List.cons_append]
  lookup := known.lookup
  looked := known.looked
  identity := known.identity

theorem InHand.after {progress : Progress} (inHand : InHand start caName caSha trace progress)
    (inner : lib.Inner) (event : SessionEvent) :
    InHand start caName caSha (trace.after lib inner event) progress := by
  cases inHand with
  | receiving => exact .receiving
  | parsed held parsed decrypted => exact .parsed held parsed (decrypted.later [event])
  | identified known => exact .identified (known.after inner event)
  | evaluating known => exact .evaluating (known.after inner event)
  | unwound cause => exact .unwound cause

theorem queue_after (tracked : Tracked start caName caSha node trace) (event : SessionEvent)
    (origin : Origin) (bytes : Bytes) (member : (origin, bytes) ∈ (trace.after lib node.session event).queue) :
    Decrypted start (trace.after lib node.session event).sections origin bytes := by
  have new (delivered : (origin, bytes) ∈ trace.queue ++ (delivers lib node.session event).toList) :
      Decrypted start (trace.sections ++ [event]) origin bytes := by
    rcases List.mem_append.mp delivered with before | here
    · exact (tracked.queue origin bytes before).later [event]
    · rw [tracked.ran] at here
      exact ⟨trace.sections, event, [], rfl, Option.mem_toList.mp here⟩
  cases event with
  | recv => exact (tracked.queue origin bytes (List.mem_of_mem_tail member)).later [.recv]
  | datagram datagram source ambient => exact new member
  | resolveKnown vpnAddr => exact new member
  | awaitLighthouse vpnAddr waiter => exact new member
  | openHandshake vpnAddr remote waiter ambient => exact new member
  | sendTyped vpnAddr type_ payload => exact new member
  | peerInfo vpnAddr => exact new member

/-- A section of the session, whoever runs it, leaves what is in hand alone. -/
theorem Tracked.section (tracked : Tracked start caName caSha node trace) (event : SessionEvent) :
    Tracked start caName caSha { node with session := ((session lib).step node.session event).1 }
      (trace.after lib node.session event) where
  named := tracked.named
  ran := by
    change _ = (session lib).exec start (trace.sections ++ [event])
    rw [(session lib).exec_concat, ← tracked.ran]
  inbox := inbox_after event tracked.inbox
  queue := queue_after tracked event
  inHand := tracked.inHand.after node.session event

/-- The task goes on with another packet in hand, or none. -/
theorem Tracked.proceed (tracked : Tracked start caName caSha node trace) (firewall : Firewall)
    {progress : Progress} {held : Option (Origin × Bytes)} {lookup : ℕ}
    (inHand : InHand start caName caSha { trace with inHand := held, lookup } progress) :
    Tracked start caName caSha { node with firewall, progress } { trace with inHand := held, lookup } :=
  ⟨tracked.named, tracked.ran, tracked.inbox, tracked.queue, inHand⟩

variable (contains : Contains) (latest now : Instant)

/-- Receiving a packet hands over the oldest delivery. -/
theorem Tracked.receives (tracked : Tracked start caName caSha node trace) (idle : node.progress = .receiving) :
    Tracked start caName caSha (meshToTun lib contains latest node now).1
      { trace.after lib node.session .recv with inHand := trace.queue.head? } := by
  have received := tracked.section .recv
  rcases queued : trace.queue with _ | ⟨⟨origin, bytes⟩, rest⟩
  · have empty : recv lib node.session = (node.session, none) := by
      unfold recv
      rw [tracked.inbox, queued]
      rfl
    rw [show ((session lib).step node.session .recv).1 = (recv lib node.session).1 from rfl, empty] at received
    simp only [meshToTun, idle, empty]
    exact received.proceed node.firewall .receiving
  · have oldest : recv lib node.session =
        ({ node.session with inbox := rest.map item }, some (origin.peer.vpnAddr, bytes)) := by
      unfold recv
      rw [tracked.inbox, queued]
      rfl
    rw [show ((session lib).step node.session .recv).1 = (recv lib node.session).1 from rfl, oldest] at received
    have decrypted : Decrypted start (trace.sections ++ [.recv]) origin bytes :=
      (tracked.queue origin bytes (by simp [queued])).later [.recv]
    simp only [meshToTun, idle, oldest]
    rcases parsed : parse bytes true with cause | _ | packet
    · exact received.proceed node.firewall (.unwound cause)
    · exact received.proceed node.firewall .receiving
    · exact received.proceed node.firewall (.parsed rfl parsed decrypted)

end Step

/-! ## Every run -/

section Run

variable (contains : Contains) (latest : Instant) (caCert hostCert : Certificate) (hostPrivateKey : Key)
  (cipher : Cipher) (vpnAddr : IpAddr) (lighthouses : List IpAddr) (staticHosts : List (IpAddr × SocketAddr))
  (caName caSha : String)

/-- What a lookup for a decrypted packet finds. -/
theorem looked_of_peerInfo {sections : List SessionEvent} {origin : Origin} {bytes : Bytes} {info : PeerInfo}
    {start : lib.Inner} (new : start = .new caCert hostCert hostPrivateKey cipher vpnAddr lighthouses staticHosts)
    (decrypted : Decrypted start sections origin bytes)
    (known : peerInfo lib ((session lib).exec start sections) origin.peer.vpnAddr = some info) :
    ∃ i used, Looked start sections origin bytes i used ∧
      identityOf used.cert caName caSha = peerIdentity info caName caSha := by
  subst new
  obtain ⟨i, used, pointed, here, rfl⟩ := peerInfo_spec known
  obtain ⟨own, kept, same⟩ := decrypted.kept
  have sound := @sound_run lib caCert hostCert hostPrivateKey cipher vpnAddr lighthouses staticHosts sections
  obtain ⟨other, there, address⟩ := sound.indexed _ i pointed
  obtain rfl : other = used := by simpa [there] using here
  refine ⟨i, other, ⟨decrypted, pointed, ⟨here, address, sound.established i other here⟩, ⟨own, kept, same⟩,
    ?_, ?_⟩, rfl⟩
  · rintro rfl
    rw [here] at kept
    cases kept
    exact same.cert
  · intro moved
    rw [← same.vpnAddr] at pointed ⊢
    exact superseded_run _ (by simp [Inner.new]) sections kept pointed moved

theorem tracked_step {start : lib.Inner}
    (new : start = .new caCert hostCert hostPrivateKey cipher vpnAddr lighthouses staticHosts)
    {state : Node lib × Trace} (event : Event) (tracked : Tracked start caName caSha state.1 state.2) :
    Tracked start caName caSha ((traced lib contains latest).step state event).1.1
      ((traced lib contains latest).step state event).1.2 := by
  obtain ⟨node, trace⟩ := state
  cases event with
  | session event => exact tracked.section event
  | firewall | reload => exact ⟨tracked.named, tracked.ran, tracked.inbox, tracked.queue, tracked.inHand⟩
  | meshToTun now =>
    have inHand := tracked.inHand
    rcases doing : node.progress with _ | ⟨src, bytes, packet⟩ | ⟨bytes, packet, peer⟩ | ⟨bytes, running⟩ | cause
    · simpa [traced, listener, doing] using tracked.receives contains latest now doing
    · have asked := tracked.section (.peerInfo src)
      simp only [traced, listener, doing, meshToTun]
      rw [doing] at inHand
      cases inHand with
      | @parsed origin _ _ held parsed decrypted =>
        split
        · exact asked.proceed node.firewall .receiving
        next info known =>
          rw [tracked.ran] at known
          obtain ⟨i, used, looked, identity⟩ := looked_of_peerInfo caCert hostCert hostPrivateKey cipher vpnAddr
            lighthouses staticHosts node.caName node.caSha new decrypted known
          rw [← identity]
          split
          next cause unwound => exact asked.proceed node.firewall (.unwound cause)
          next peer identified =>
            rw [tracked.named.1, tracked.named.2] at identified
            exact asked.proceed node.firewall (.identified ⟨held, parsed, rfl, rfl, looked, identified⟩)
    · simp only [traced, listener, doing, meshToTun]
      rw [doing] at inHand
      cases inHand with
      | identified known => exact tracked.proceed node.firewall (.evaluating known)
    · simp only [traced, listener, doing, meshToTun]
      rw [doing] at inHand
      cases inHand with
      | evaluating known =>
        rw [← (running.proceed_frame contains latest node.firewall).2.2] at known
        split
        · exact tracked.proceed _ (.evaluating known)
        · exact tracked.proceed _ (.evaluating known)
        · exact tracked.proceed _ (.unwound _)
        · exact tracked.proceed _ .receiving
    · simpa [traced, listener, doing, meshToTun] using tracked

theorem tracked_run (firewall : Firewall) (events : List Event) :
    let start : lib.Inner := .new caCert hostCert hostPrivateKey cipher vpnAddr lighthouses staticHosts
    let state := (traced lib contains latest).exec (⟨start, firewall, caName, caSha, .receiving⟩, .new) events
    Tracked start caName caSha state.1 state.2 := by
  intro start
  refine (traced lib contains latest).state_invariant
    (fun state => Tracked start caName caSha state.1 state.2) ?_ ?_ events
  · intro state event tracked
    exact tracked_step contains latest caCert hostCert hostPrivateKey cipher vpnAddr lighthouses staticHosts
      caName caSha rfl event tracked
  · exact ⟨⟨rfl, rfl⟩, rfl, rfl, by simp [Trace.new], .receiving⟩

/-- In every run, a packet that `mesh_to_tun` evaluates was decrypted by the tunnel the trace names, and is
evaluated under the identity of the verified tunnel for the same address that the address pointed to when
the task looked it up for this packet: the one that decrypted the packet, unless a handshake for the address had
completed after that tunnel was established. -/
theorem evaluated_as_pointed_tunnel (firewall : Firewall) (events : List Event) (now : Instant) :
    let start : lib.Inner := .new caCert hostCert hostPrivateKey cipher vpnAddr lighthouses staticHosts
    let state := (traced lib contains latest).exec (⟨start, firewall, caName, caSha, .receiving⟩, .new) events
    ∀ evaluated, ((traced lib contains latest).step state (.meshToTun now)).2 = some evaluated →
      ∃ origin bytes, state.2.inHand = some (origin, bytes) ∧
        parse bytes true = .ok (some evaluated.packet) ∧
        ∃ before after i used, state.2.sections = before ++ .peerInfo origin.peer.vpnAddr :: after ∧
          before.length = state.2.lookup ∧ Looked start before origin bytes i used ∧
          identityOf used.cert caName caSha = .ok evaluated.peer ∧
          (i = origin.index → identityOf origin.peer.cert caName caSha = .ok evaluated.peer) := by
  intro start state evaluated answered
  have tracked : Tracked start caName caSha state.1 state.2 :=
    tracked_run contains latest caCert hostCert hostPrivateKey cipher vpnAddr lighthouses staticHosts caName caSha
      firewall events
  obtain ⟨bytes, running, doing, packet, peer, -⟩ : ∃ bytes running, state.1.progress = .evaluating bytes running ∧
      running.call.packet = evaluated.packet ∧ running.call.remote = evaluated.peer ∧ _ :=
    evaluating_of_evaluated answered
  have inHand := tracked.inHand
  rw [doing] at inHand
  cases inHand with
  | @evaluating _ _ origin before after i used known =>
    rw [packet, peer] at known
    refine ⟨origin, bytes, known.held, known.parsed, before, after, i, used, known.sections, known.lookup,
      known.looked, known.identity, ?_⟩
    intro own
    rw [← known.looked.own own]
    exact known.identity

end Run

/-! ## A renewed certificate -/

section

open TestNetwork

/-- Host A's certificate after it has joined another group. -/
def renewedA : Certificate :=
  let details := { hostDetails "host-a" 1 with groups := ["test", "admin"] }
  { hostA with details, rawDetails := encodeDetails details, signature := List.replicate 64 7 }

/-- What host A says to open a handshake under it. -/
def renewedHello : NebulaHandshake where
  details := some
    { helloDetails with
      cert := renewedA.encodeForHandshake, initiatorIndex := randIndex 4, time := (ambient 4).unixNanos }
  hmac := []

/-- The test network, in which host A's certificate has been renewed. -/
def renewalNetwork : Externals :=
  { meshNetwork with
    handshakeCodec := ⟨protobuf, fun payload => [hello, renewedHello].find? (protobuf · = payload)⟩
    crypto := { crypto with
      verify key message signature := crypto.verify key message signature ∨
        (key.items = ca.publicKey ∧ message = renewedA.signingBytes ∧ signature.items = renewedA.signature) } }

/-- A UDP packet from host A to host B. -/
def udpPacket : Bytes :=
  [0x45, 0, 0, 24, 0, 0, 0, 0, 64, 17, 0, 0, 10, 100, 0, 1, 10, 100, 0, 2, 0, 53, 0, 53]

def packetHeader : Nebula.Header := { trafficHeader with type_ := Nebula.Header.message }

/-- The packet in the first tunnel. -/
def packetDatagram : Bytes := packetHeader.encode ++ (udpPacket ++ List.replicate 16 3)

def renewedDatagram : Bytes :=
  (header 0 1).encode ++ ((ambient 4).entropy ++ hostA.publicKey ++ protobuf renewedHello)

def nodeB : Node renewalNetwork where
  session := .new ca hostB keyB .aesGcm (vpn 2) [] []
  firewall := .new Firewall.closed ⟨10, 10, 10⟩ [.host (vpn 2)] []
  caName := ca.details.name
  caSha := ""
  progress := .receiving

/-- Host A opens a tunnel and sends a packet; it may open another one before `mesh_to_tun` looks it up. -/
def renewalRun (reopened : Bool) : List Event :=
  [.session (.datagram stage0Datagram (endpoint 1) (ambient 2)),
    .session (.datagram packetDatagram (endpoint 1) (ambient 3))] ++
    (if reopened then [.session (.datagram renewedDatagram (endpoint 1) (ambient 5))] else []) ++
    List.replicate 3 (.meshToTun 0)

def identityA (groups : List String) : PeerIdentity where
  name := "host-a"
  groups
  caName := ca.details.name
  caSha := ""
  vpnNetworks := [.host (vpn 1)]
  unsafeNetworks := []

def packetFromA : Packet where
  localAddr := vpn 2
  remoteAddr := vpn 1
  localPort := 53
  remotePort := 53
  protocol := .udp
  fragment := false

/-- Host B after that. -/
def renewalState (reopened : Bool) : Node renewalNetwork × Trace :=
  (traced renewalNetwork prefixContains 1000).exec (nodeB, .new) (renewalRun reopened)

theorem renewalState_evaluates (reopened : Bool) :
    ((traced renewalNetwork prefixContains 1000).step (renewalState reopened) (.meshToTun 0)).2 =
        some ⟨packetFromA, identityA (if reopened then ["test", "admin"] else ["test"]),
          .ok (.error .noMatchingRule), none⟩ ∧
      (renewalState reopened).2.inHand.map (fun (origin, _) => identityOf origin.peer.cert ca.details.name "") =
        some (.ok (identityA ["test"])) := by
  cases reopened with
  | true => decide +kernel
  | false => decide +kernel

/-- The packet that came through the tunnel of the first certificate is evaluated under the second one. -/
theorem packet_evaluated_as_renewed :
    ∃ evaluated origin bytes,
      ((traced renewalNetwork prefixContains 1000).step (renewalState true) (.meshToTun 0)).2 = some evaluated ∧
      (renewalState true).2.inHand = some (origin, bytes) ∧
      identityOf origin.peer.cert ca.details.name "" ≠ .ok evaluated.peer := by
  obtain ⟨answered, held⟩ := renewalState_evaluates true
  obtain ⟨⟨origin, bytes⟩, held, identity⟩ := Option.map_eq_some_iff.mp held
  refine ⟨_, origin, bytes, answered, held, ?_⟩
  dsimp only at identity
  rw [identity]
  decide

/-- Until the second handshake, the packet is evaluated under the certificate of its own tunnel. -/
theorem packet_evaluated_as_sender :
    ∃ origin bytes before i used, (renewalState false).2.inHand = some (origin, bytes) ∧
      Looked nodeB.session before origin bytes i used ∧
      identityOf used.cert ca.details.name "" = .ok (identityA ["test"]) := by
  have answered := (renewalState_evaluates false).1
  unfold renewalState nodeB at *
  obtain ⟨origin, bytes, held, -, before, after, i, used, -, -, looked, identity, -⟩ :=
    evaluated_as_pointed_tunnel prefixContains 1000 ca hostB keyB .aesGcm (vpn 2) [] [] ca.details.name ""
      (.new Firewall.closed ⟨10, 10, 10⟩ [.host (vpn 2)] []) (renewalRun false) 0 _ answered
  exact ⟨origin, bytes, before, i, used, held, looked, identity⟩

end

end Nebula.Listener
