import Nebula.Listener.Forwarding

/-! # What reaches the tun device

Every packet that `mesh_to_tun` writes to the tun device is one it has taken from the session, and the firewall has
let it in as the holder of the certificate that was found for the address it came under. Each packet that it takes is
written once at most, and those that are written keep their order.
-/

namespace Nebula.Listener

open Rust Machine

variable {lib : Externals} {contains : Contains} {latest : Instant}

/-- What a section of `mesh_to_tun` takes from the session. -/
def takes (g : Gateway lib) : GatewayEvent → List (IpAddr × Bytes)
  | .meshToTun _ => match g.node.progress with
    | .receiving => (recv lib g.node.session).2.toList
    | .parsed .. | .identified .. | .evaluating .. | .unwound _ => []
  | .session _ | .tunToMesh .. => []

/-- A packet that was written to the tun device, as whom it was evaluated, and what the firewall answered. -/
structure Written where
  bytes : Bytes
  packet : Packet
  peer : PeerIdentity
  answer : Exec (Except DropReason Unit)
deriving DecidableEq

def GatewayOutput.writes : GatewayOutput → Option Written
  | .inbound ⟨packet, peer, answer, written⟩ => written.map fun bytes => ⟨bytes, packet, peer, answer⟩
  | .silent | .effects _ | .outbound _ | .forwarded _ => none

/-- Everything that was written. -/
def writes (log : GatewayLog) : List Written := log.filterMap fun (_, output) => output.writes

/-- The packet that `mesh_to_tun` has in hand. -/
def Progress.inHand : Progress → List Bytes
  | .parsed _ bytes _ | .identified bytes _ _ | .evaluating bytes _ => [bytes]
  | .receiving | .unwound _ => []

/-- The packet in hand, with the peer that was found for it. -/
def Progress.known : Progress → Option (Bytes × Packet × PeerIdentity)
  | .identified bytes packet peer => some (bytes, packet, peer)
  | .evaluating bytes running => some (bytes, running.call.packet, running.call.remote)
  | .receiving | .parsed .. | .unwound _ => none

section Invariant

variable (lib) (contains) (latest) (caCert : Certificate) (caName caSha : String) (start : Gateway lib)
  (events : List GatewayEvent)

/-- `mesh_to_tun` has taken the packet in hand under the address `src` and looked up its sender: the session then had
the tunnel `used` for the address, and the peer is what the tunnel's verified certificate says. -/
structure CameAs (bytes : Bytes) (packet : Packet) (peer : PeerIdentity) (src : IpAddr) (used : Peer) : Prop where
  parsed : parse bytes true = .ok (some packet)
  taken : (src, bytes) ∈ (gateway lib contains latest).gather takes start events
  verified : VerifiedFor lib caCert src used.cert
  identity : identityOf used.cert caName caSha = .ok peer
  found : (gateway lib contains latest).Since
    (fun g => g.node.progress = .parsed src bytes packet ∧ TunnelFor g.node.session src used)
    (fun g => g.node.progress.known = some (bytes, packet, peer)) start events

def Progress.Sound : Progress → Prop
  | .parsed src bytes packet => parse bytes true = .ok (some packet) ∧
      (src, bytes) ∈ (gateway lib contains latest).gather takes start events
  | .identified bytes packet peer =>
    ∃ src used, CameAs lib contains latest caCert caName caSha start events bytes packet peer src used
  | .evaluating bytes running =>
    ∃ src used, CameAs lib contains latest caCert caName caSha start events bytes running.call.packet
      running.call.remote src used
  | .receiving | .unwound _ => True

structure Arriving (g : Gateway lib) : Prop where
  reached : (gateway lib contains latest).exec start events = g
  inHand : g.node.progress.Sound lib contains latest caCert caName caSha start events
  order : ((writes ((gateway lib contains latest).log start events)).map Written.bytes ++
    g.node.progress.inHand).Sublist (((gateway lib contains latest).gather takes start events).map Prod.snd)

end Invariant

section Step

variable {caCert hostCert : Certificate} {hostPrivateKey : Key} {cipher : Cipher} {vpnAddr : IpAddr}
  {lighthouses : List IpAddr} {staticHosts : List (IpAddr × SocketAddr)} {firewall : Firewall} {caName caSha : String}
  {start g next : Gateway lib} {events : List GatewayEvent} {event : GatewayEvent} {output : GatewayOutput}

/-- What is taken stays taken. -/
theorem taken_later {item : IpAddr × Bytes} (taken : item ∈ (gateway lib contains latest).gather takes start events) :
    item ∈ (gateway lib contains latest).gather takes start (events ++ [event]) := by
  rw [System.gather_concat]
  exact List.mem_append_left _ taken

/-- The lookup for the packet in hand stands as long as the packet is in hand. -/
theorem CameAs.step {bytes : Bytes} {packet : Packet} {peer : PeerIdentity} {src : IpAddr} {used : Peer}
    (came : CameAs lib contains latest caCert caName caSha start events bytes packet peer src used)
    (reached : (gateway lib contains latest).exec start (events ++ [event]) = next)
    (kept : next.node.progress.known = some (bytes, packet, peer)) :
    CameAs lib contains latest caCert caName caSha start (events ++ [event]) bytes packet peer src used :=
  ⟨came.parsed, taken_later came.taken, came.verified, came.identity, came.found.step (reached ▸ kept)⟩

theorem Progress.Sound.step {progress : Progress}
    (sound : progress.Sound lib contains latest caCert caName caSha start events)
    (reached : (gateway lib contains latest).exec start (events ++ [event]) = next)
    (same : next.node.progress = progress) :
    progress.Sound lib contains latest caCert caName caSha start (events ++ [event]) := by
  subst same
  rcases doing : next.node.progress with _ | ⟨src, bytes, packet⟩ | ⟨bytes, packet, peer⟩ | ⟨bytes, running⟩ | cause
  all_goals rw [doing] at sound
  · trivial
  · exact ⟨sound.1, taken_later sound.2⟩
  · obtain ⟨src, used, came⟩ := sound
    exact ⟨src, used, came.step reached (by rw [doing]; rfl)⟩
  · obtain ⟨src, used, came⟩ := sound
    exact ⟨src, used, came.step reached (by rw [doing]; rfl)⟩
  · trivial

/-- What a step writes and leaves in hand is what was in hand, or what it takes. -/
theorem Arriving.extend (arriving : Arriving lib contains latest caCert caName caSha start events g)
    (stepped : (gateway lib contains latest).step g event = (next, output))
    (inHand : next.node.progress.Sound lib contains latest caCert caName caSha start (events ++ [event]))
    (order : ((writes [(event, output)]).map Written.bytes ++ next.node.progress.inHand).Sublist
      (g.node.progress.inHand ++ (takes g event).map Prod.snd)) :
    Arriving lib contains latest caCert caName caSha start (events ++ [event]) next where
  reached := by rw [System.exec_concat, arriving.reached, stepped]
  inHand := inHand
  order := by
    rw [System.log_concat, System.gather_concat, arriving.reached, stepped, show writes (_ ++ [(event, output)]) =
      writes _ ++ writes [(event, output)] from List.filterMap_append, List.map_append, List.map_append,
      List.append_assoc]
    refine (order.append_left _).trans ?_
    rw [← List.append_assoc]
    exact arriving.order.append (List.Sublist.refl _)

/-- A section of `mesh_to_tun` that writes nothing. -/
theorem Arriving.onward (arriving : Arriving lib contains latest caCert caName caSha start events g) {now : Instant}
    (stepped : ∃ session firewall progress, meshToTun lib contains latest g.node now =
        ({ g.node with session, firewall, progress }, none) ∧
      progress.Sound lib contains latest caCert caName caSha start (events ++ [.meshToTun now]) ∧
      progress.inHand.Sublist (g.node.progress.inHand ++ (takes g (.meshToTun now)).map Prod.snd)) :
    Arriving lib contains latest caCert caName caSha start (events ++ [.meshToTun now])
      ((gateway lib contains latest).step g (.meshToTun now)).1 := by
  obtain ⟨session, firewall, progress, stepped, inHand, order⟩ := stepped
  rw [step_meshToTun stepped]
  exact arriving.extend (step_meshToTun stepped) inHand order

/-- What each section of `mesh_to_tun` takes and writes. -/
theorem arriving_meshToTun
    (new : start = .start lib (.new caCert hostCert hostPrivateKey cipher vpnAddr lighthouses staticHosts) firewall
      caName caSha)
    (arriving : Arriving lib contains latest caCert caName caSha start events g) (now : Instant) :
    Arriving lib contains latest caCert caName caSha start (events ++ [.meshToTun now])
      ((gateway lib contains latest).step g (.meshToTun now)).1 := by
  obtain ⟨⟨inner, firewall, name, sha, progress⟩, callers, outgoing⟩ := g
  have sound := arriving.inHand
  have reached : (gateway lib contains latest).exec start (events ++ [.meshToTun now]) =
      ⟨(meshToTun lib contains latest ⟨inner, firewall, name, sha, progress⟩ now).1, callers, outgoing⟩ := by
    rw [System.exec_concat, arriving.reached]
    rfl
  have asHeld (bytes : Bytes) : [bytes].Sublist ([bytes] ++ []) := List.sublist_append_left _ _
  cases progress with
  | receiving =>
    refine arriving.onward ?_
    have took (src : IpAddr) (bytes : Bytes) (here : (recv lib inner).2 = some (src, bytes)) :
        takes (⟨⟨inner, firewall, name, sha, .receiving⟩, callers, outgoing⟩ : Gateway lib) (.meshToTun now) =
          [(src, bytes)] := by
      simp only [takes, here, Option.toList_some]
    unfold meshToTun
    dsimp only
    split
    · exact ⟨_, _, _, rfl, trivial, List.nil_sublist _⟩
    next session src bytes received =>
      have taken := took src bytes (congrArg Prod.snd received)
      rw [taken]
      split
      · exact ⟨_, _, _, rfl, trivial, List.nil_sublist _⟩
      · exact ⟨_, _, _, rfl, trivial, List.nil_sublist _⟩
      next packet parsed =>
        refine ⟨_, _, _, rfl, ⟨parsed, ?_⟩, List.Sublist.refl _⟩
        rw [System.gather_concat, arriving.reached, taken]
        exact List.mem_append_right _ List.mem_cons_self
  | parsed src bytes packet =>
    refine arriving.onward ?_
    unfold meshToTun at reached ⊢
    dsimp only at reached ⊢
    split
    · exact ⟨_, _, _, rfl, trivial, List.nil_sublist _⟩
    next info known =>
      rw [known] at reached
      dsimp only at reached
      split
      · exact ⟨_, _, _, rfl, trivial, List.nil_sublist _⟩
      next peer identity =>
        rw [identity] at reached
        obtain ⟨named, sections, ran⟩ := started_of_reached new arriving.reached
        dsimp only at named
        rw [named.1, named.2] at identity
        obtain ⟨used, has, identity⟩ := tunnelFor_of_peerInfo known identity
        refine ⟨_, _, _, rfl, ⟨src, used, sound.1, taken_later sound.2, has.verified ran, identity, ?_⟩,
          asHeld bytes⟩
        refine (gateway lib contains latest).since_step ?_ ?_
        · rw [arriving.reached]
          exact ⟨rfl, has⟩
        · rw [reached]
          rfl
  | identified bytes packet peer =>
    obtain ⟨src, used, came⟩ := sound
    exact arriving.onward ⟨_, _, _, rfl, ⟨src, used, came.step reached rfl⟩, asHeld bytes⟩
  | evaluating bytes running =>
    obtain ⟨src, used, came⟩ := sound
    have same := (running.proceed_frame contains latest firewall).2.2
    rcases ran : meshToTun lib contains latest ⟨inner, firewall, name, sha, .evaluating bytes running⟩ now with
      ⟨node, evaluated⟩
    have stepped := @step_meshToTun lib contains latest ⟨_, callers, outgoing⟩ now node evaluated ran
    rw [ran] at reached
    rw [stepped]
    unfold meshToTun at ran
    dsimp only at ran
    split at ran
    · obtain ⟨rfl, rfl⟩ := Prod.mk.inj ran
      rw [← same] at came
      exact arriving.extend stepped ⟨src, used, came.step reached rfl⟩ (asHeld bytes)
    · obtain ⟨rfl, rfl⟩ := Prod.mk.inj ran
      rw [← same] at came
      exact arriving.extend stepped ⟨src, used, came.step reached rfl⟩ (asHeld bytes)
    · obtain ⟨rfl, rfl⟩ := Prod.mk.inj ran
      exact arriving.extend stepped trivial (List.nil_sublist _)
    next verdict returned =>
      obtain ⟨rfl, rfl⟩ := Prod.mk.inj ran
      rcases verdict with reason | _
      · exact arriving.extend stepped trivial (List.nil_sublist _)
      · exact arriving.extend stepped trivial (asHeld bytes)
  | unwound cause => exact arriving.onward ⟨_, _, _, rfl, trivial, List.nil_sublist _⟩

/-- `tun_to_mesh` has no part in it. -/
theorem beside_tunToMesh (g : Gateway lib) (read : Bytes) (now : Instant) :
    (tunToMesh lib contains latest g read now).1.node.progress = g.node.progress ∧
      (tunToMesh lib contains latest g read now).2.writes = none := by
  unfold tunToMesh
  repeat' split
  all_goals exact ⟨rfl, rfl⟩

theorem arriving_run (firewall : Firewall) (events : List GatewayEvent) :
    let start := Gateway.start lib (.new caCert hostCert hostPrivateKey cipher vpnAddr lighthouses staticHosts) firewall
      caName caSha
    Arriving lib contains latest caCert caName caSha start events
      ((gateway lib contains latest).exec start events) := by
  intro start
  induction events using List.reverseRecOn with
  | nil => exact ⟨rfl, trivial, List.nil_sublist _⟩
  | append_singleton events event arriving =>
    rw [System.exec_concat]
    generalize (gateway lib contains latest).exec start events = g at arriving ⊢
    rcases stepped : (gateway lib contains latest).step g event with ⟨next, output⟩
    have reached : (gateway lib contains latest).exec start (events ++ [event]) = next := by
      rw [System.exec_concat, arriving.reached, stepped]
    have beside (same : next.node.progress = g.node.progress) (silent : output.writes = none) :
        Arriving lib contains latest caCert caName caSha start (events ++ [event]) next := by
      refine arriving.extend stepped ?_ ?_
      · rw [same]
        exact arriving.inHand.step reached same
      · rw [same, show writes [(event, output)] = [] from List.filterMap_cons_none silent]
        exact List.sublist_append_left _ _
    cases event with
    | session event =>
      cases stepped
      exact beside rfl rfl
    | meshToTun now =>
      have after := arriving_meshToTun rfl arriving now
      rw [stepped] at after
      exact after
    | tunToMesh read now =>
      have same : tunToMesh lib contains latest g read now = (next, output) := stepped
      obtain ⟨progress, silent⟩ := @beside_tunToMesh lib contains latest g read now
      rw [same] at progress silent
      exact beside progress silent

/-- What is written the firewall has let in, and it is the packet in hand. -/
theorem Arriving.written (arriving : Arriving lib contains latest caCert caName caSha start events g)
    {written : Written} (wrote : ((gateway lib contains latest).step g event).2.writes = some written) :
    written.answer = .ok (.ok ()) ∧ ∃ src used, CameAs lib contains latest caCert caName caSha start events
      written.bytes written.packet written.peer src used := by
  cases event with
  | session event => cases wrote
  | tunToMesh read now =>
    have silent := (@beside_tunToMesh lib contains latest g read now).2
    cases silent.symm.trans wrote
  | meshToTun now =>
    have sound := arriving.inHand
    unfold gateway at wrote
    dsimp only at wrote
    split at wrote
    next evaluated answered =>
      obtain ⟨bytes, running, doing, packet, peer, out⟩ := evaluating_of_evaluated answered
      rw [doing] at sound
      obtain ⟨bytes', here, rfl⟩ := Option.map_eq_some_iff.mp wrote
      rw [here] at out
      split at out
      next passed =>
        obtain rfl := Option.some.inj out
        rw [← packet, ← peer]
        exact ⟨passed, sound⟩
      · cases out
    · cases wrote

end Step

end Nebula.Listener
