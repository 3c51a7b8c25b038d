import Nebula.Listener.Gateway
import Nebula.Machine.Part

/-! # What leaves a node

Every datagram that `tun_to_mesh` sends holds a packet it has read, which the firewall has let out to the holder of
the certificate that was found for the packet's destination, sealed under the tunnel that the session has for that
destination. One `Ok` of the firewall is good for one datagram, and the order of the packets stays. The destination
always belongs to the identity the firewall is asked about, so that no packet is refused for a foreign one.
-/

namespace Nebula.Listener

open Rust Machine

variable {lib : Externals} {contains : Contains} {latest : Instant}

/-! ## What a run shows -/

abbrev GatewayLog := List (GatewayEvent × GatewayOutput)

/-- What a section of `tun_to_mesh` reads. -/
def reads (g : Gateway lib) : GatewayEvent → List Bytes
  | .tunToMesh read _ => match g.outgoing with
    | .reading => [read]
    | .lookingUp .. | .connecting .. | .identifying .. | .identified .. | .evaluating .. | .sending ..
    | .unwound _ => []
  | .session _ | .meshToTun _ => []

/-- The packets that the firewall has let out, each with the identity it was asked about. -/
def letOut (log : GatewayLog) : List (Packet × PeerIdentity) :=
  log.filterMap fun (_, output) => match output with
    | .outbound ⟨packet, peer, .ok (.ok ()), _⟩ => some (packet, peer)
    | _ => none

def forwards (log : GatewayLog) : List Forwarded :=
  log.filterMap fun (_, output) => match output with
    | .forwarded forwarded => some forwarded
    | _ => none

/-- Neither a packet that went out nor a call of `tun_to_mesh` to the firewall. -/
def GatewayOutput.quiet : GatewayOutput → Bool
  | .silent | .effects _ | .inbound _ => true
  | .outbound _ | .forwarded _ => false

/-- The packet that `tun_to_mesh` has in hand. -/
def Outgoing.inHand : Outgoing → List Bytes
  | .lookingUp raw _ | .connecting raw _ _ | .identifying raw _ | .identified raw _ _ | .evaluating raw _
  | .sending raw _ _ => [raw]
  | .reading | .unwound _ => []

/-- The packet that it still may send. -/
def Outgoing.cleared : Outgoing → List (Packet × PeerIdentity)
  | .sending _ packet peer => [(packet, peer)]
  | _ => []

/-- The packet in hand, with the peer that was found for it. -/
def Outgoing.known : Outgoing → Option (Bytes × Packet × PeerIdentity)
  | .identified raw packet peer | .sending raw packet peer => some (raw, packet, peer)
  | .evaluating raw running => some (raw, running.call.packet, running.call.remote)
  | .reading | .lookingUp .. | .connecting .. | .identifying .. | .unwound _ => none

/-! ## What is known of a packet on its way -/

/-- The session has this tunnel for the address. -/
def TunnelFor (inner : lib.Inner) (v : IpAddr) (tunnel : Peer) : Prop :=
  ∃ i, inner.indexByVpnAddr.get v = some i ∧ inner.peersByIndex.get i = some (.established tunnel)

section Invariant

variable (lib) (contains) (latest) (caCert : Certificate) (caName caSha : String) (start : Gateway lib)
  (events : List GatewayEvent)

/-- The CA has signed the certificate, and its first network is at `v`. -/
def VerifiedFor (v : IpAddr) (cert : Certificate) : Prop :=
  cert.firstAddr = some v ∧ ∃ nowUnix, verifyHostCert lib.crypto cert caCert nowUnix = .ok ()

/-- `tun_to_mesh` has looked up the peer for the packet it has in hand: the session then had the tunnel `used` for
the destination, and the peer is what the tunnel's verified certificate says. -/
def LookedUp (raw : Bytes) (packet : Packet) (peer : PeerIdentity) (used : Peer) : Prop :=
  VerifiedFor lib caCert packet.remoteAddr used.cert ∧ identityOf used.cert caName caSha = .ok peer ∧
    (gateway lib contains latest).Since
      (fun g => g.outgoing = .identifying raw packet ∧ TunnelFor g.node.session packet.remoteAddr used)
      (fun g => g.outgoing.known = some (raw, packet, peer)) start events

def Outgoing.Sound : Outgoing → Prop
  | .lookingUp raw packet | .connecting raw packet _ | .identifying raw packet =>
    parse raw false = .ok (some packet)
  | .identified raw packet peer | .sending raw packet peer =>
    parse raw false = .ok (some packet) ∧
      ∃ used, LookedUp lib contains latest caCert caName caSha start events raw packet peer used
  | .evaluating raw running =>
    parse raw false = .ok (some running.call.packet) ∧
      (∃ used, LookedUp lib contains latest caCert caName caSha start events raw running.call.packet running.call.remote
        used) ∧
      running.phase ≠ .returned (.ok (.error .invalidRemoteIp))
  | .reading | .unwound _ => True

/-- After these events the datagram is the packet in hand, sealed under the tunnel that the session has for its
destination. -/
structure Forwarded.Sound (forwarded : Forwarded) : Prop where
  parsed : parse forwarded.raw false = .ok (some forwarded.packet)
  identified : ∃ used, LookedUp lib contains latest caCert caName caSha start events forwarded.raw forwarded.packet
    forwarded.peer used
  sent : ∃ tunnel, TunnelFor ((gateway lib contains latest).exec start events).node.session
      forwarded.packet.remoteAddr tunnel ∧
    VerifiedFor lib caCert forwarded.packet.remoteAddr tunnel.cert ∧ forwarded.dest = tunnel.remote ∧
    SentThrough lib.aead tunnel forwarded.raw forwarded.datagram

structure Watched (g : Gateway lib) : Prop where
  reached : (gateway lib contains latest).exec start events = g
  inHand : g.outgoing.Sound lib contains latest caCert caName caSha start events
  read : ((forwards ((gateway lib contains latest).log start events)).map Forwarded.raw ++ g.outgoing.inHand).Sublist
    ((gateway lib contains latest).gather reads start events)
  cleared : ((forwards ((gateway lib contains latest).log start events)).map (fun f => (f.packet, f.peer)) ++
    g.outgoing.cleared).Sublist (letOut ((gateway lib contains latest).log start events))

end Invariant

section Step

variable {caCert hostCert : Certificate} {hostPrivateKey : Key} {cipher : Cipher} {vpnAddr : IpAddr}
  {lighthouses : List IpAddr} {staticHosts : List (IpAddr × SocketAddr)} {firewall : Firewall} {caName caSha : String}
  {inner : lib.Inner} {sections : List SessionEvent} {v : IpAddr}

/-- A tunnel that an address points to is for a verified certificate for that address. -/
theorem TunnelFor.verified {tunnel : Peer} (has : TunnelFor inner v tunnel)
    (ran : inner = (session lib).exec (.new caCert hostCert hostPrivateKey cipher vpnAddr lighthouses staticHosts)
      sections) : VerifiedFor lib caCert v tunnel.cert := by
  subst ran
  obtain ⟨i, indexed, here⟩ := has
  have sound := @sound_run lib caCert hostCert hostPrivateKey cipher vpnAddr lighthouses staticHosts sections
  obtain ⟨other, there, rfl⟩ := sound.indexed v i indexed
  obtain rfl : other = tunnel := by simpa [there] using here
  obtain ⟨_, _, ambient, _, _, admission⟩ := sound.established i other there
  exact ⟨admission.network, ambient.nowUnix, admission.verified⟩

theorem tunnelFor_of_peerInfo {info : PeerInfo} {peer : PeerIdentity} (known : peerInfo lib inner v = some info)
    (identity : peerIdentity info caName caSha = .ok peer) :
    ∃ used, TunnelFor inner v used ∧ identityOf used.cert caName caSha = .ok peer := by
  obtain ⟨i, used, indexed, here, rfl⟩ := peerInfo_spec known
  exact ⟨used, ⟨i, indexed, here⟩, identity⟩

/-- The identity that a verified certificate gives owns the address it was verified for. -/
theorem VerifiedFor.owns (itself : ∀ addr, contains (.host addr) addr = true) {cert : Certificate}
    {peer : PeerIdentity} (verified : VerifiedFor lib caCert v cert)
    (identity : identityOf cert caName caSha = .ok peer) : peer.owns contains v = true := by
  obtain ⟨first, -⟩ := verified
  obtain ⟨unsafeNetworks, -, same⟩ := bind_eq_ok.mp identity
  obtain rfl := Except.ok.inj same
  unfold Certificate.firstAddr at first
  cases networks : cert.details.networks with
  | nil => simp [networks] at first
  | cons network rest =>
    obtain rfl : network.addr = v := by simpa [networks] using first
    simp [PeerIdentity.owns, toHostRoute, itself]

variable {start g next : Gateway lib} {events : List GatewayEvent} {event : GatewayEvent} {output : GatewayOutput}

theorem started_of_reached (new : start = .start lib inner firewall caName caSha)
    (reached : (gateway lib contains latest).exec start events = g) :
    (g.node.caName = caName ∧ g.node.caSha = caSha) ∧
      ∃ sections, g.node.session = (session lib).exec inner sections := by
  rw [← reached, new]
  exact start_run inner firewall caName caSha events

/-- The lookup for the packet in hand stands as long as the packet is in hand. -/
theorem LookedUp.step {raw : Bytes} {packet : Packet} {peer : PeerIdentity} {used : Peer}
    (found : LookedUp lib contains latest caCert caName caSha start events raw packet peer used)
    (reached : (gateway lib contains latest).exec start (events ++ [event]) = next)
    (kept : next.outgoing.known = some (raw, packet, peer)) :
    LookedUp lib contains latest caCert caName caSha start (events ++ [event]) raw packet peer used :=
  ⟨found.1, found.2.1, found.2.2.step (reached ▸ kept)⟩

/-- The lookup has just been made. -/
theorem lookedUp_of_lookup {raw : Bytes} {packet : Packet} {peer : PeerIdentity} {used : Peer}
    (before : (gateway lib contains latest).exec start events = g) (doing : g.outgoing = .identifying raw packet)
    (has : TunnelFor g.node.session packet.remoteAddr used)
    (verified : VerifiedFor lib caCert packet.remoteAddr used.cert)
    (identity : identityOf used.cert caName caSha = .ok peer)
    (reached : (gateway lib contains latest).exec start (events ++ [event]) = next)
    (known : next.outgoing.known = some (raw, packet, peer)) :
    LookedUp lib contains latest caCert caName caSha start (events ++ [event]) raw packet peer used := by
  refine ⟨verified, identity, (gateway lib contains latest).since_step ?_ (reached ▸ known)⟩
  rw [before]
  exact ⟨doing, has⟩

theorem Outgoing.Sound.step {outgoing : Outgoing}
    (sound : outgoing.Sound lib contains latest caCert caName caSha start events)
    (reached : (gateway lib contains latest).exec start (events ++ [event]) = next) (same : next.outgoing = outgoing) :
    outgoing.Sound lib contains latest caCert caName caSha start (events ++ [event]) := by
  subst same
  rcases doing : next.outgoing with _ | _ | _ | _ | ⟨raw, packet, peer⟩ | ⟨raw, running⟩ | ⟨raw, packet, peer⟩ | _
  all_goals rw [doing] at sound
  · trivial
  · exact sound
  · exact sound
  · exact sound
  · obtain ⟨parsed, used, found⟩ := sound
    exact ⟨parsed, used, found.step reached (by rw [doing]; rfl)⟩
  · obtain ⟨parsed, ⟨used, found⟩, unanswered⟩ := sound
    exact ⟨parsed, ⟨used, found.step reached (by rw [doing]; rfl)⟩, unanswered⟩
  · obtain ⟨parsed, used, found⟩ := sound
    exact ⟨parsed, used, found.step reached (by rw [doing]; rfl)⟩
  · trivial

/-- What a step adds to the lists, and what it leaves in hand. -/
theorem Watched.extend (watched : Watched lib contains latest caCert caName caSha start events g)
    (stepped : (gateway lib contains latest).step g event = (next, output))
    (inHand : next.outgoing.Sound lib contains latest caCert caName caSha start (events ++ [event]))
    (read : ((forwards [(event, output)]).map Forwarded.raw ++ next.outgoing.inHand).Sublist
      (g.outgoing.inHand ++ reads g event))
    (cleared : ((forwards [(event, output)]).map (fun f => (f.packet, f.peer)) ++ next.outgoing.cleared).Sublist
      (g.outgoing.cleared ++ letOut [(event, output)])) :
    Watched lib contains latest caCert caName caSha start (events ++ [event]) next where
  reached := by rw [System.exec_concat, watched.reached, stepped]
  inHand := inHand
  read := by
    rw [System.log_concat, System.gather_concat, watched.reached, stepped, show forwards (_ ++ [(event, output)]) =
      forwards _ ++ forwards [(event, output)] from List.filterMap_append, List.map_append, List.append_assoc]
    refine (read.append_left _).trans ?_
    rw [← List.append_assoc]
    exact watched.read.append (List.Sublist.refl _)
  cleared := by
    rw [System.log_concat, watched.reached, stepped, show forwards (_ ++ [(event, output)]) =
      forwards _ ++ forwards [(event, output)] from List.filterMap_append, show letOut (_ ++ [(event, output)]) =
      letOut _ ++ letOut [(event, output)] from List.filterMap_append, List.map_append, List.append_assoc]
    refine (cleared.append_left _).trans ?_
    rw [← List.append_assoc]
    exact watched.cleared.append (List.Sublist.refl _)

/-- A step that asks the firewall nothing and sends nothing. -/
theorem Watched.quiet (watched : Watched lib contains latest caCert caName caSha start events g)
    (stepped : (gateway lib contains latest).step g event = (next, output))
    (inHand : next.outgoing.Sound lib contains latest caCert caName caSha start (events ++ [event]))
    (read : next.outgoing.inHand.Sublist (g.outgoing.inHand ++ reads g event))
    (cleared : next.outgoing.cleared.Sublist g.outgoing.cleared) (quiet : output.quiet = true) :
    Watched lib contains latest caCert caName caSha start (events ++ [event]) next := by
  have nothing : forwards [(event, output)] = [] ∧ letOut [(event, output)] = [] := by
    cases output with
    | forwarded | outbound => cases quiet
    | silent | effects | inbound => exact ⟨rfl, rfl⟩
  refine watched.extend stepped inHand ?_ ?_
  · rw [nothing.1]
    exact read
  · rw [nothing.1, nothing.2, List.append_nil]
    exact cleared

/-- A silent step of `tun_to_mesh`, which keeps its packet or drops it. -/
theorem Watched.onward (watched : Watched lib contains latest caCert caName caSha start events g) {read : Bytes}
    {now : Instant}
    (stepped : ∃ firewall callers outgoing, tunToMesh lib contains latest g read now =
        ({ g with node := { g.node with firewall }, callers, outgoing }, .silent) ∧
      outgoing.Sound lib contains latest caCert caName caSha start (events ++ [.tunToMesh read now]) ∧
      outgoing.inHand.Sublist (g.outgoing.inHand ++ reads g (.tunToMesh read now)) ∧ outgoing.cleared = []) :
    Watched lib contains latest caCert caName caSha start (events ++ [.tunToMesh read now])
      (tunToMesh lib contains latest g read now).1 := by
  obtain ⟨firewall, callers, outgoing, stepped, inHand, kept, cleared⟩ := stepped
  rw [stepped]
  refine watched.quiet stepped inHand kept ?_ rfl
  rw [show Outgoing.cleared _ = [] from cleared]
  exact List.nil_sublist _

/-- What each section of `tun_to_mesh` adds. -/
theorem watched_tunToMesh
    (new : start = .start lib (.new caCert hostCert hostPrivateKey cipher vpnAddr lighthouses staticHosts) firewall
      caName caSha)
    (itself : ∀ addr, contains (.host addr) addr = true)
    (watched : Watched lib contains latest caCert caName caSha start events g) (read : Bytes) (now : Instant) :
    Watched lib contains latest caCert caName caSha start (events ++ [.tunToMesh read now])
      (tunToMesh lib contains latest g read now).1 := by
  obtain ⟨node, callers, outgoing⟩ := g
  have sound := watched.inHand
  have reached : (gateway lib contains latest).exec start (events ++ [.tunToMesh read now]) =
      (tunToMesh lib contains latest ⟨node, callers, outgoing⟩ read now).1 := by
    rw [System.exec_concat, watched.reached]
    rfl
  have asHeld (raw : Bytes) : [raw].Sublist ([raw] ++ []) := List.sublist_append_left _ _
  cases outgoing with
  | reading =>
    refine watched.onward ?_
    unfold tunToMesh
    dsimp only
    split
    · exact ⟨_, _, _, rfl, trivial, List.nil_sublist _, rfl⟩
    · exact ⟨_, _, _, rfl, trivial, List.nil_sublist _, rfl⟩
    next packet parsed => exact ⟨_, _, _, rfl, parsed, List.Sublist.refl _, rfl⟩
  | lookingUp raw packet =>
    refine watched.onward ?_
    unfold tunToMesh
    dsimp only
    split
    · exact ⟨_, _, _, rfl, sound, asHeld raw, rfl⟩
    · split
      · exact ⟨_, _, _, rfl, trivial, List.nil_sublist _, rfl⟩
      · exact ⟨_, _, _, rfl, sound, asHeld raw, rfl⟩
  | connecting raw packet call =>
    refine watched.onward ?_
    unfold tunToMesh
    dsimp only
    split
    · exact ⟨_, _, _, rfl, sound, asHeld raw, rfl⟩
    · exact ⟨_, _, _, rfl, trivial, List.nil_sublist _, rfl⟩
    · exact ⟨_, _, _, rfl, trivial, List.nil_sublist _, rfl⟩
    · exact ⟨_, _, _, rfl, sound, asHeld raw, rfl⟩
  | identifying raw packet =>
    refine watched.onward ?_
    unfold tunToMesh at reached ⊢
    dsimp only at reached ⊢
    split
    · exact ⟨_, _, _, rfl, trivial, List.nil_sublist _, rfl⟩
    next info known =>
      rw [known] at reached
      dsimp only at reached
      split
      · exact ⟨_, _, _, rfl, trivial, List.nil_sublist _, rfl⟩
      next peer identity =>
        rw [identity] at reached
        obtain ⟨named, sections, ran⟩ := started_of_reached new watched.reached
        rw [named.1, named.2] at identity
        obtain ⟨used, has, identity⟩ := tunnelFor_of_peerInfo known identity
        have found := lookedUp_of_lookup watched.reached rfl has (has.verified ran) identity reached rfl
        exact ⟨_, _, _, rfl, ⟨sound, used, found⟩, asHeld raw, rfl⟩
  | identified raw packet peer =>
    obtain ⟨parsed, used, found⟩ := sound
    exact watched.onward ⟨_, _, _, rfl, ⟨parsed, ⟨used, found.step reached rfl⟩, nofun⟩, asHeld raw, rfl⟩
  | evaluating raw running =>
    obtain ⟨parsed, ⟨used, found⟩, unanswered⟩ := sound
    have same := (running.proceed_frame contains latest node.firewall).2.2
    have owned : running.call.remote.owns contains running.call.packet.remoteAddr = true :=
      found.1.owns itself found.2.1
    have admissible := Firewall.Running.answer_of_owner contains latest node.firewall owned unanswered
    rcases stepped : tunToMesh lib contains latest ⟨node, callers, .evaluating raw running⟩ read now with ⟨next, output⟩
    rw [stepped] at reached
    have ran := stepped
    unfold tunToMesh at ran
    dsimp only at ran
    rw [← same] at parsed
    split at ran
    · obtain ⟨rfl, rfl⟩ := Prod.mk.inj ran
      rw [← same] at found
      exact watched.quiet stepped ⟨parsed, ⟨used, found.step reached rfl⟩, admissible⟩ (asHeld raw)
        (List.nil_sublist _) rfl
    · obtain ⟨rfl, rfl⟩ := Prod.mk.inj ran
      rw [← same] at found
      exact watched.quiet stepped ⟨parsed, ⟨used, found.step reached rfl⟩, admissible⟩ (asHeld raw)
        (List.nil_sublist _) rfl
    · obtain ⟨rfl, rfl⟩ := Prod.mk.inj ran
      exact watched.extend stepped trivial (List.nil_sublist _) (List.nil_sublist _)
    next verdict returned =>
      obtain ⟨rfl, rfl⟩ := Prod.mk.inj ran
      rcases verdict with reason | _
      · exact watched.extend stepped trivial (List.nil_sublist _) (List.nil_sublist _)
      · rw [← same] at found
        exact watched.extend stepped ⟨parsed, used, found.step reached rfl⟩ (asHeld raw)
          (List.Sublist.refl _)
  | sending raw packet peer =>
    rcases stepped : tunToMesh lib contains latest ⟨node, callers, .sending raw packet peer⟩ read now with
      ⟨next, output⟩
    have ran := stepped
    unfold tunToMesh at ran
    dsimp only at ran
    split at ran
    · obtain ⟨rfl, rfl⟩ := Prod.mk.inj ran
      exact watched.extend stepped trivial (asHeld raw) (List.Sublist.refl _)
    · obtain ⟨rfl, rfl⟩ := Prod.mk.inj ran
      exact watched.quiet stepped trivial (List.nil_sublist _) (List.nil_sublist _) rfl
    · obtain ⟨rfl, rfl⟩ := Prod.mk.inj ran
      exact watched.quiet stepped trivial (List.nil_sublist _) (List.nil_sublist _) rfl
  | unwound cause => exact watched.onward ⟨_, _, _, rfl, trivial, List.nil_sublist _, rfl⟩

theorem watched_run (itself : ∀ addr, contains (.host addr) addr = true) (firewall : Firewall)
    (events : List GatewayEvent) :
    let start := Gateway.start lib (.new caCert hostCert hostPrivateKey cipher vpnAddr lighthouses staticHosts) firewall
      caName caSha
    Watched lib contains latest caCert caName caSha start events ((gateway lib contains latest).exec start events) := by
  intro start
  induction events using List.reverseRecOn with
  | nil => exact ⟨rfl, trivial, List.nil_sublist _, List.nil_sublist _⟩
  | append_singleton events event watched =>
    rw [System.exec_concat]
    generalize (gateway lib contains latest).exec start events = g at watched ⊢
    rcases stepped : (gateway lib contains latest).step g event with ⟨next, output⟩
    have reached : (gateway lib contains latest).exec start (events ++ [event]) = next := by
      rw [System.exec_concat, watched.reached, stepped]
    have beside (same : next.outgoing = g.outgoing) (quiet : output.quiet = true) :
        Watched lib contains latest caCert caName caSha start (events ++ [event]) next := by
      refine watched.quiet stepped ?_ ?_ ?_ quiet
      · rw [same]
        exact watched.inHand.step reached same
      · rw [same]
        exact List.sublist_append_left _ _
      · rw [same]
    cases event with
    | session event =>
      cases stepped
      exact beside rfl rfl
    | meshToTun now =>
      cases stepped
      refine beside rfl ?_
      dsimp only
      split
      · rfl
      · rfl
    | tunToMesh read now =>
      have after := watched_tunToMesh rfl itself watched read now
      rw [show tunToMesh lib contains latest g read now = (next, output) from stepped] at after
      exact after

/-- What goes out is what the firewall has let out, under the tunnel that the session has by then. -/
theorem Watched.forwarded
    (new : start = .start lib (.new caCert hostCert hostPrivateKey cipher vpnAddr lighthouses staticHosts) firewall
      caName caSha)
    (watched : Watched lib contains latest caCert caName caSha start events g) {forwarded : Forwarded}
    (sent : ((gateway lib contains latest).step g event).2 = .forwarded forwarded) :
    forwarded.Sound lib contains latest caCert caName caSha start events := by
  cases event with
  | session event => cases sent
  | meshToTun now =>
    unfold gateway at sent
    dsimp only at sent
    split at sent
    · cases sent
    · cases sent
  | tunToMesh read now =>
    obtain ⟨doing, out⟩ := sending_of_forwarded sent
    have sound := watched.inHand
    rw [doing] at sound
    obtain ⟨parsed, identified⟩ := sound
    obtain ⟨i, tunnel, indexed, here, dest, through⟩ := sendTyped_spec out
    obtain ⟨-, sections, ran⟩ := started_of_reached new watched.reached
    refine ⟨parsed, identified, tunnel, ?_, ?_, dest, through⟩
    · rw [watched.reached]
      exact ⟨i, indexed, here⟩
    · exact TunnelFor.verified ⟨i, indexed, here⟩ ran

/-- The firewall is asked about an identity that owns the destination. -/
theorem Watched.outbound (itself : ∀ addr, contains (.host addr) addr = true)
    (watched : Watched lib contains latest caCert caName caSha start events g) {evaluated : Evaluated}
    (asked : ((gateway lib contains latest).step g event).2 = .outbound evaluated) :
    evaluated.peer.owns contains evaluated.packet.remoteAddr = true ∧
      evaluated.answer ≠ .ok (.error .invalidRemoteIp) := by
  cases event with
  | session event => cases asked
  | meshToTun now =>
    unfold gateway at asked
    dsimp only at asked
    split at asked
    · cases asked
    · cases asked
  | tunToMesh read now =>
    obtain ⟨raw, running, doing, packet, peer, returned⟩ := evaluating_of_outbound asked
    have sound := watched.inHand
    rw [doing] at sound
    obtain ⟨-, ⟨used, found⟩, unanswered⟩ := sound
    have owned := found.1.owns itself found.2.1
    have admissible := Firewall.Running.answer_of_owner contains latest g.node.firewall owned unanswered
    rw [packet, peer] at owned
    rw [returned] at admissible
    refine ⟨owned, ?_⟩
    intro refused
    exact admissible (congrArg _ refused)

/-- What leaves a node has been read, let out and sealed under the tunnel that its session then has for the
destination, which a verified certificate for it admitted; the identity it was let out for is that of the verified
certificate found for the destination while the packet was in hand. Each packet goes out once for each `Ok` and in the
order of the reads, and the firewall is never asked about an identity that does not own the destination. -/
theorem forwards_what_is_let_out (lib : Externals) (contains : Contains) (latest : Instant)
    (itself : ∀ addr, contains (.host addr) addr = true) (caCert hostCert : Certificate) (hostPrivateKey : Key)
    (cipher : Cipher) (vpnAddr : IpAddr) (lighthouses : List IpAddr) (staticHosts : List (IpAddr × SocketAddr))
    (firewall : Firewall) (caName caSha : String) (events : List GatewayEvent) :
    let start := Gateway.start lib (.new caCert hostCert hostPrivateKey cipher vpnAddr lighthouses staticHosts) firewall
      caName caSha
    let log := (gateway lib contains latest).log start events
    ((forwards log).map Forwarded.raw).Sublist ((gateway lib contains latest).gather reads start events) ∧
      ((forwards log).map fun f => (f.packet, f.peer)).Sublist (letOut log) ∧
      ∀ before event after, events = before ++ event :: after →
        (∀ forwarded, ((gateway lib contains latest).step ((gateway lib contains latest).exec start before) event).2 =
            .forwarded forwarded →
          forwarded.Sound lib contains latest caCert caName caSha start before) ∧
        ∀ evaluated, ((gateway lib contains latest).step ((gateway lib contains latest).exec start before) event).2 =
            .outbound evaluated →
          evaluated.peer.owns contains evaluated.packet.remoteAddr = true ∧
            evaluated.answer ≠ .ok (.error .invalidRemoteIp) := by
  intro start log
  have watched (events : List GatewayEvent) := @watched_run lib contains latest caCert hostCert hostPrivateKey cipher
    vpnAddr lighthouses staticHosts caName caSha itself firewall events
  refine ⟨?_, ?_, ?_⟩
  · exact (List.sublist_append_left _ _).trans (watched events).read
  · exact (List.sublist_append_left _ _).trans (watched events).cleared
  · intro before event after split
    exact ⟨fun forwarded sent => (watched before).forwarded rfl sent,
      fun evaluated asked => (watched before).outbound itself asked⟩

end Step

/-! ## Host B sends a packet to host A -/

section

open TestNetwork

/-- The one rule `outbound any any`. -/
def outboundAny : RuleSet :=
  ((RuleSetBuilder.new [] false false).addRules
    [{ incoming := false, proto := .any, port := .any, groups := ["any"], host := none, cidr := none,
       localCidr := .unset, caName := none, caSha := none }]).build

/-- A UDP packet from host B to host A. -/
def udpFromB : Bytes :=
  [0x45, 0, 0, 24, 0, 0, 0, 0, 64, 17, 0, 0, 10, 100, 0, 2, 10, 100, 0, 1, 0, 53, 0, 53]

def forwarding : Gateway meshNetwork :=
  .start meshNetwork (.new ca hostB keyB .aesGcm (vpn 2) [] []) (.new outboundAny ⟨10, 10, 10⟩ [.host (vpn 2)] [])
    ca.details.name ""

/-- Host A opens a tunnel, and host B reads the packet, which goes through all sections of `tun_to_mesh` but the
last. -/
def forwardingRun : List GatewayEvent :=
  .session (.other (.datagram stage0Datagram (endpoint 1) (ambient 2))) :: List.replicate 6 (.tunToMesh udpFromB 0)

/-- The packet that a section sends. -/
def GatewayOutput.sends : GatewayOutput → Option Bytes
  | .forwarded sent => some sent.raw
  | .silent | .effects _ | .inbound _ | .outbound _ => none

theorem forwardingRun_sends :
    ((gateway meshNetwork prefixContains 1000).step ((gateway meshNetwork prefixContains 1000).exec forwarding
      forwardingRun) (.tunToMesh [] 0)).2.sends = some udpFromB := by decide +kernel

/-- The last section sends it under the tunnel. -/
theorem packet_is_forwarded :
    ∃ forwarded, ((gateway meshNetwork prefixContains 1000).step ((gateway meshNetwork prefixContains 1000).exec
        forwarding forwardingRun) (.tunToMesh [] 0)).2 = .forwarded forwarded ∧ forwarded.raw = udpFromB ∧
      forwarded.Sound meshNetwork prefixContains 1000 ca ca.details.name "" forwarding forwardingRun := by
  have sends := forwardingRun_sends
  obtain ⟨-, -, sound⟩ := forwards_what_is_let_out meshNetwork prefixContains 1000
    (fun addr => (prefixContains_host addr addr).mpr rfl) ca hostB keyB .aesGcm (vpn 2) [] []
    (.new outboundAny ⟨10, 10, 10⟩ [.host (vpn 2)] []) ca.details.name "" (forwardingRun ++ [.tunToMesh [] 0])
  have sound := (sound forwardingRun (.tunToMesh [] 0) [] rfl).1
  rw [← forwarding] at sound
  generalize ((gateway meshNetwork prefixContains 1000).step _ _).2 = output at sends sound
  cases output with
  | forwarded forwarded => exact ⟨forwarded, rfl, Option.some.inj sends, sound forwarded rfl⟩
  | silent | effects | inbound | outbound => cases sends

end

end Nebula.Listener
