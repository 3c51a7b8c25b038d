import Nebula.Protocol.SessionSteps

/-! # What holds of a session after every run

Every established tunnel goes back to a datagram of the run that completed its handshake and whose
certificate was verified then. The two tables agree, index 0 is never used, and a tunnel once
established stays at its index. Sending, asking about a peer and receiving therefore only ever involve
a tunnel whose verified certificate starts with the address in question.
-/

namespace Nebula

open Rust

variable {lib : Externals}

/-! ## Tunnels stay -/

theorem Change.persists {inner next : lib.Inner} {event : SessionEvent} (change : Change lib inner event next)
    {i : UInt32} {peer : Peer} (was : inner.peersByIndex.get i = some (.established peer)) :
    ∃ peer', next.peersByIndex.get i = some (.established peer') ∧ SameTunnel peer peer' := by
  cases change with
  | aside peers _ _ => exact ⟨peer, peers ▸ was, .refl peer⟩
  | pending _ nonzero free peers _ _ =>
    refine ⟨peer, ?_, .refl peer⟩
    rw [peers, HashMap.get_insert_of_ne _ _ (by rintro rfl; simp [free] at was), was]
  | forgotten hs peers _ _ =>
    refine ⟨peer, ?_, .refl peer⟩
    rw [peers, HashMap.get_remove_of_ne _ (by rintro rfl; simp [hs] at was), was]
  | established _ _ unused _ peers _ _ =>
    refine ⟨peer, ?_, .refl peer⟩
    rw [peers, HashMap.get_insert_of_ne _ _ (by rintro rfl; exact unused _ was), was]
  | @used index peer₁ peer₂ held same peers _ _ =>
    rw [peers, HashMap.get_insert]
    split
    next here =>
      subst here
      obtain rfl : peer₁ = peer := by simpa [held] using was
      exact ⟨peer₂, rfl, same⟩
    · exact ⟨peer, was, .refl peer⟩

theorem established_persists (inner : lib.Inner) (events : List SessionEvent) {i : UInt32} {peer : Peer}
    (was : inner.peersByIndex.get i = some (.established peer)) :
    ∃ peer', ((session lib).exec inner events).peersByIndex.get i = some (.established peer') ∧
      SameTunnel peer peer' := by
  refine (session lib).state_invariant
    (fun state => ∃ peer', state.peersByIndex.get i = some (.established peer') ∧ SameTunnel peer peer') ?_
    ⟨peer, was, .refl peer⟩ events
  rintro state event ⟨peer₁, here, first⟩
  obtain ⟨peer₂, there, second⟩ := (stepped_step state event).change.persists here
  exact ⟨peer₂, there, first.trans second⟩

/-! ## Where a tunnel comes from -/

variable (lib)

abbrev SessionLog := List (SessionEvent × SessionOutput)

/-- A datagram of the run established the peer's tunnel for the session configured like `start`. -/
def AdmittedIn (start : lib.Inner) (log : SessionLog) (peer : Peer) : Prop :=
  ∃ datagram source ambient output, (.datagram datagram source ambient, output) ∈ log ∧
    Admission lib start datagram ambient peer

/-- The tunnel at `i` is established for `v`, by a datagram of the run. -/
structure VerifiedTunnel (start : lib.Inner) (log : SessionLog) (inner : lib.Inner) (i : UInt32) (v : IpAddr)
    (peer : Peer) : Prop where
  present : inner.peersByIndex.get i = some (.established peer)
  vpnAddr : peer.vpnAddr = v
  admitted : AdmittedIn lib start log peer

/-- What every run keeps. -/
structure Sound (start : lib.Inner) (log : SessionLog) (inner : lib.Inner) : Prop where
  identity : inner.identity = start.identity
  zero : inner.peersByIndex.get 0 = none
  established : ∀ i peer, inner.peersByIndex.get i = some (.established peer) → AdmittedIn lib start log peer
  indexed : ∀ v i, inner.indexByVpnAddr.get v = some i →
    ∃ peer, inner.peersByIndex.get i = some (.established peer) ∧ peer.vpnAddr = v
  delivered : ∀ v bytes, (v, bytes) ∈ inner.inbox → ∃ i peer event output,
    inner.peersByIndex.get i = some (.established peer) ∧ peer.vpnAddr = v ∧ (event, output) ∈ log ∧
      Opens lib event i peer bytes

variable {lib}

theorem Admission.of_identity {start inner : lib.Inner} (identity : inner.identity = start.identity)
    {datagram : Bytes} {ambient : Ambient} {peer : Peer}
    (admission : Admission lib inner datagram ambient peer) :
    Admission lib start datagram ambient peer := by
  obtain ⟨verified, handshake, network, index⟩ := admission
  simp only [Inner.identity, Prod.mk.injEq] at identity
  obtain ⟨ca, -, key, cipher⟩ := identity
  rw [ca] at verified
  rw [key, cipher] at handshake
  exact ⟨verified, handshake, network, index⟩

theorem Admission.of_sameTunnel {start : lib.Inner} {datagram : Bytes} {ambient : Ambient} {peer peer' : Peer}
    (same : SameTunnel peer peer') (admission : Admission lib start datagram ambient peer) :
    Admission lib start datagram ambient peer' := by
  obtain ⟨verified, handshake, network, index⟩ := admission
  refine ⟨by rw [same.cert, verified], ?_, by rw [same.cert, same.vpnAddr, network],
    by rw [same.remoteIndex]; exact index⟩
  rw [same.cert, same.sendCipher, same.recvCipher]
  exact handshake

theorem AdmittedIn.of_sameTunnel {start : lib.Inner} {log : SessionLog} {peer peer' : Peer}
    (same : SameTunnel peer peer') (admitted : AdmittedIn lib start log peer) :
    AdmittedIn lib start log peer' := by
  obtain ⟨datagram, source, ambient, output, member, admission⟩ := admitted
  exact ⟨datagram, source, ambient, output, member, admission.of_sameTunnel same⟩

theorem AdmittedIn.later {start : lib.Inner} {log more : SessionLog} {peer : Peer}
    (admitted : AdmittedIn lib start log peer) : AdmittedIn lib start (log ++ more) peer := by
  obtain ⟨datagram, source, ambient, output, member, admission⟩ := admitted
  exact ⟨datagram, source, ambient, output, List.mem_append_left _ member, admission⟩

theorem Opens.of_sameTunnel {event : SessionEvent} {i : UInt32} {peer peer' : Peer} {bytes : Bytes}
    (same : SameTunnel peer peer') (opens : Opens lib event i peer bytes) :
    Opens lib event i peer' bytes := by
  obtain ⟨datagram, source, ambient, hdr, cause, parsed, type_, index, decrypted⟩ := opens
  exact ⟨datagram, source, ambient, hdr, cause, parsed, type_, index, same.recvCipher ▸ decrypted⟩

/-! ## One step -/

section Step

variable {start inner next : lib.Inner} {log : SessionLog} {event : SessionEvent}

theorem Change.zero (change : Change lib inner event next) (zero : inner.peersByIndex.get 0 = none) :
    next.peersByIndex.get 0 = none := by
  cases change with
  | aside peers _ _ => rw [peers, zero]
  | pending _ nonzero _ peers _ _ => rw [peers, HashMap.get_insert_of_ne _ _ nonzero.symm, zero]
  | @forgotten index _ _ peers _ _ =>
    rw [peers, HashMap.get_remove]
    split
    · rfl
    · exact zero
  | established _ nonzero _ _ peers _ _ => rw [peers, HashMap.get_insert_of_ne _ _ nonzero.symm, zero]
  | used was _ peers _ _ =>
    rw [peers, HashMap.get_insert_of_ne _ _ (by rintro rfl; simp [zero] at was), zero]

variable (lib) in
/-- The step establishes the tunnel of `peer` at `index` and points its address there. -/
structure Establishes (inner : lib.Inner) (event : SessionEvent) (next : lib.Inner) (index : UInt32)
    (peer : Peer) : Prop where
  admission : ∃ datagram source ambient, event = .datagram datagram source ambient ∧
    Admission lib inner datagram ambient peer
  unused : ∀ other, inner.peersByIndex.get index ≠ some (.established other)
  peers : next.peersByIndex = inner.peersByIndex.insert index (.established peer)
  indices : next.indexByVpnAddr = inner.indexByVpnAddr.insert peer.vpnAddr index

/-- A step establishes a tunnel, or there are no tunnels after it but those before and every address points
where it did. -/
theorem Change.tunnels (change : Change lib inner event next) :
    (∃ index peer, Establishes lib inner event next index peer) ∨
      (next.indexByVpnAddr = inner.indexByVpnAddr ∧
        ∀ i peer, next.peersByIndex.get i = some (.established peer) →
          ∃ before, inner.peersByIndex.get i = some (.established before) ∧ SameTunnel before peer) := by
  cases change with
  | aside peers indices _ =>
    refine .inr ⟨indices, ?_⟩
    intro i peer now
    exact ⟨peer, peers ▸ now, .refl peer⟩
  | pending _ _ _ peers indices _ =>
    refine .inr ⟨indices, ?_⟩
    intro i peer now
    rw [peers, HashMap.get_insert] at now
    split at now
    · cases now
    · exact ⟨peer, now, .refl peer⟩
  | forgotten _ peers indices _ =>
    refine .inr ⟨indices, ?_⟩
    intro i peer now
    rw [peers] at now
    exact ⟨peer, (HashMap.of_get_remove now).2, .refl peer⟩
  | established cause _ unused admission peers indices _ =>
    exact .inl ⟨_, _, ⟨_, _, _, cause, admission⟩, unused, peers, indices⟩
  | used was same peers indices _ =>
    refine .inr ⟨indices, ?_⟩
    intro i peer now
    rw [peers, HashMap.get_insert] at now
    split at now
    next here =>
      cases now
      exact ⟨_, here ▸ was, same⟩
    · exact ⟨peer, now, .refl peer⟩

/-- An established tunnel was there before, or this step admitted it. -/
theorem Change.established_before (change : Change lib inner event next) {i : UInt32} {peer : Peer}
    (now : next.peersByIndex.get i = some (.established peer)) :
    (∃ before, inner.peersByIndex.get i = some (.established before) ∧ SameTunnel before peer) ∨
      ∃ datagram source ambient, event = .datagram datagram source ambient ∧
        Admission lib inner datagram ambient peer := by
  rcases change.tunnels with ⟨index, new, establishes⟩ | ⟨-, kept⟩
  · rw [establishes.peers, HashMap.get_insert] at now
    split at now
    · cases now
      exact .inr establishes.admission
    · exact .inl ⟨peer, now, .refl peer⟩
  · exact .inl (kept i peer now)

/-- An address points where it pointed before, or to the tunnel this step established for it. -/
theorem Change.indexed_before (change : Change lib inner event next) {v : IpAddr} {i : UInt32}
    (now : next.indexByVpnAddr.get v = some i) :
    inner.indexByVpnAddr.get v = some i ∨
      ∃ peer, next.peersByIndex.get i = some (.established peer) ∧ peer.vpnAddr = v := by
  rcases change.tunnels with ⟨index, new, establishes⟩ | ⟨indices, -⟩
  · rw [establishes.indices, HashMap.get_insert] at now
    split at now
    next here =>
      cases now
      exact .inr ⟨new, by rw [establishes.peers, HashMap.get_insert_self], here.symm⟩
    · exact .inl now
  · exact .inl (indices ▸ now)

/-- An item of the inbox was there before, or this step opened it. -/
theorem Change.delivered_before (change : Change lib inner event next) {item : IpAddr × Bytes}
    (now : item ∈ next.inbox) :
    item ∈ inner.inbox ∨
      ∃ i peer, next.peersByIndex.get i = some (.established peer) ∧ peer.vpnAddr = item.1 ∧
      Opens lib event i peer item.2 := by
  cases change with
  | aside _ _ inbox =>
    obtain ⟨taken, inbox⟩ := inbox
    exact .inl (inbox ▸ List.mem_append_right _ now)
  | pending _ _ _ _ _ inbox => exact .inl (inbox ▸ now)
  | forgotten _ _ _ inbox => exact .inl (inbox ▸ now)
  | established _ _ _ _ _ _ inbox => exact .inl (inbox ▸ now)
  | @used index peer peer' _ same peers _ inbox =>
    rcases inbox with inbox | ⟨bytes, opens, inbox⟩
    · exact .inl (inbox ▸ now)
    · rw [inbox, List.mem_append, List.mem_singleton] at now
      rcases now with before | rfl
      · exact .inl before
      · exact .inr ⟨index, peer', by rw [peers, HashMap.get_insert_self], same.vpnAddr,
          opens.of_sameTunnel same⟩

theorem Sound.step (sound : Sound lib start log inner) (stepped : Stepped inner event next)
    (output : SessionOutput) :
    Sound lib start (log ++ [(event, output)]) next where
  identity := stepped.identity.trans sound.identity
  zero := stepped.change.zero sound.zero
  established := by
    intro i peer now
    rcases stepped.change.established_before now with
      ⟨before, was, same⟩ | ⟨datagram, source, ambient, rfl, admission⟩
    · exact ((sound.established i before was).of_sameTunnel same).later
    · exact ⟨datagram, source, ambient, output, by simp, admission.of_identity sound.identity⟩
  indexed := by
    intro v i now
    rcases stepped.change.indexed_before now with before | new
    · obtain ⟨peer, was, vpnAddr⟩ := sound.indexed v i before
      obtain ⟨peer', here, same⟩ := stepped.change.persists was
      exact ⟨peer', here, same.vpnAddr.trans vpnAddr⟩
    · exact new
  delivered := by
    intro v bytes now
    rcases stepped.change.delivered_before now with before | ⟨i, peer, here, vpnAddr, opens⟩
    · obtain ⟨i, peer, cause, answer, was, vpnAddr, member, opens⟩ := sound.delivered v bytes before
      obtain ⟨peer', here, same⟩ := stepped.change.persists was
      exact ⟨i, peer', cause, answer, here, same.vpnAddr.trans vpnAddr, List.mem_append_left _ member,
        opens.of_sameTunnel same⟩
    · exact ⟨i, peer, event, output, here, vpnAddr, by simp, opens⟩

end Step

/-! ## What the calls of a session use -/

section Calls

variable {inner : lib.Inner} {v : IpAddr}

/-- The packet carries the peer's index and is the payload under the tunnel's send key. -/
def SentThrough (aead : Aead) (peer : Peer) (payload packet : Bytes) : Prop :=
  ∃ (header : Header) (ciphertext : Bytes), header.remoteIndex = peer.remoteIndex ∧
    peer.transport.sendCipher.encrypt aead header.messageCounter header.encode payload = .ok ciphertext ∧
    packet = header.encode ++ ciphertext

/-- The header of a data packet. -/
def dataHeader (type_ : UInt8) (remoteIndex : UInt32) (messageCounter : UInt64) : Header where
  version := Header.currentVersion
  type_
  subtype := 0
  remoteIndex
  messageCounter

/-- `send_typed` spends the next counter of the tunnel at `i` and seals the payload under it. -/
theorem sendTyped_established {i : UInt32} {peer : Peer} (indexed : inner.indexByVpnAddr.get v = some i)
    (here : inner.peersByIndex.get i = some (.established peer)) (type_ : UInt8) (payload : Bytes) :
    (sendTyped lib inner v type_ payload).1 =
        { inner with
          peersByIndex := inner.peersByIndex.insert i
            (.established { peer with transport := peer.transport.nextCounter.1 }) } ∧
      ∀ packet dest, (sendTyped lib inner v type_ payload).2 = .ok (packet, dest) →
        dest = peer.remote ∧
        ∃ ciphertext,
          packet = (dataHeader type_ peer.remoteIndex peer.transport.nextCounter.2).encode ++ ciphertext ∧
          peer.transport.sendCipher.encrypt lib.aead peer.transport.nextCounter.2
            (dataHeader type_ peer.remoteIndex peer.transport.nextCounter.2).encode payload = .ok ciphertext := by
  rw [sendTyped, indexed]
  dsimp only
  rw [here]
  refine ⟨rfl, ?_⟩
  intro packet dest sent
  obtain ⟨⟨len, ciphertext⟩, encrypted, same⟩ := bind_eq_ok.mp sent
  obtain ⟨bytes, encrypted, copied⟩ := bind_eq_ok.mp encrypted
  obtain ⟨packed, toPeer⟩ := Prod.mk.inj (Except.ok.inj same)
  exact ⟨toPeer.symm, bytes, take_copyOut copied ▸ packed.symm, encrypted⟩

theorem sendTyped_spec {type_ : UInt8} {payload packet : Bytes} {dest : SocketAddr}
    (sent : (sendTyped lib inner v type_ payload).2 = .ok (packet, dest)) :
    ∃ i peer, inner.indexByVpnAddr.get v = some i ∧ inner.peersByIndex.get i = some (.established peer) ∧
      dest = peer.remote ∧ SentThrough lib.aead peer payload packet := by
  rcases indexed : inner.indexByVpnAddr.get v with _ | i
  · rw [sendTyped, indexed] at sent
    cases sent
  · rcases here : inner.peersByIndex.get i with _ | _ | peer
    · simp only [sendTyped, indexed, here] at sent
      cases sent
    · simp only [sendTyped, indexed, here] at sent
      cases sent
    · obtain ⟨-, produced⟩ := sendTyped_established indexed here type_ payload
      obtain ⟨toPeer, ciphertext, packed, encrypted⟩ := produced packet dest sent
      exact ⟨i, peer, rfl, here, toPeer, dataHeader type_ peer.remoteIndex peer.transport.nextCounter.2,
        ciphertext, rfl, encrypted, packed⟩

theorem peerInfo_spec {info : PeerInfo} (known : peerInfo lib inner v = some info) :
    ∃ i peer, inner.indexByVpnAddr.get v = some i ∧ inner.peersByIndex.get i = some (.established peer) ∧
      info = ⟨peer.cert.details.name, peer.cert.details.groups, peer.cert.details.networks,
        peer.cert.details.unsafeNetworks⟩ := by
  obtain ⟨i, indexed, known⟩ := Option.bind_eq_some_iff.mp known
  obtain ⟨state, here, known⟩ := Option.bind_eq_some_iff.mp known
  cases state with
  | handshaking hs => cases known
  | established peer => exact ⟨i, peer, indexed, here, (Option.some.inj known).symm⟩

theorem recv_spec {bytes : Bytes} (received : (recv lib inner).2 = some (v, bytes)) :
    (v, bytes) ∈ inner.inbox := by
  unfold recv at received
  split at received
  · cases received
  next item rest inbox =>
    cases received
    rw [inbox]
    exact List.mem_cons_self

end Calls

/-! ## Every run -/

section Run

variable (caCert hostCert : Certificate) (hostPrivateKey : Key) (cipher : Cipher) (vpnAddr : IpAddr)
  (lighthouses : List IpAddr) (staticHosts : List (IpAddr × SocketAddr))

theorem sound_run (events : List SessionEvent) :
    let start : lib.Inner := .new caCert hostCert hostPrivateKey cipher vpnAddr lighthouses staticHosts
    Sound lib start ((session lib).log start events) ((session lib).exec start events) := by
  intro start
  refine (session lib).history_invariant (Sound lib start) ?_ ?_ events
  · exact ⟨rfl, rfl, by simp [start, Inner.new], by simp [start, Inner.new], by simp [start, Inner.new]⟩
  · intro log inner event sound
    exact sound.step (stepped_step inner event) _

/-- In every state a session reaches: index 0 is free; every established tunnel was admitted by a datagram
of the run, with its certificate verified at that moment, its keys from the handshake that proved the
certificate's key, its address the certificate's first and a usable peer index; every address points to
an established tunnel for it; tunnels stay as they are at their index whatever happens next; and
`send`, `peer_info` and `recv` involve only tunnels admitted for the address in question. -/
theorem session_run_sound (events : List SessionEvent) :
    let start : lib.Inner := .new caCert hostCert hostPrivateKey cipher vpnAddr lighthouses staticHosts
    let log := (session lib).log start events
    let reached := (session lib).exec start events
    reached.peersByIndex.get 0 = none ∧
    (∀ i peer, reached.peersByIndex.get i = some (.established peer) →
      VerifiedTunnel lib start log reached i peer.vpnAddr peer) ∧
    (∀ v i, reached.indexByVpnAddr.get v = some i → ∃ peer, VerifiedTunnel lib start log reached i v peer) ∧
    (∀ more i peer, reached.peersByIndex.get i = some (.established peer) →
      ∃ peer', ((session lib).exec reached more).peersByIndex.get i = some (.established peer') ∧
        SameTunnel peer peer') ∧
    (∀ v type_ payload packet dest, (sendTyped lib reached v type_ payload).2 = .ok (packet, dest) →
      ∃ i peer, reached.indexByVpnAddr.get v = some i ∧ VerifiedTunnel lib start log reached i v peer ∧
        dest = peer.remote ∧ SentThrough lib.aead peer payload packet) ∧
    (∀ v info, peerInfo lib reached v = some info →
      ∃ i peer, reached.indexByVpnAddr.get v = some i ∧ VerifiedTunnel lib start log reached i v peer ∧
        info = ⟨peer.cert.details.name, peer.cert.details.groups, peer.cert.details.networks,
          peer.cert.details.unsafeNetworks⟩) ∧
    (∀ v bytes, (recv lib reached).2 = some (v, bytes) →
      ∃ i peer event output, VerifiedTunnel lib start log reached i v peer ∧ (event, output) ∈ log ∧
        Opens lib event i peer bytes) := by
  intro start log reached
  have sound : Sound lib start log reached :=
    sound_run caCert hostCert hostPrivateKey cipher vpnAddr lighthouses staticHosts events
  have pointed {v : IpAddr} {i : UInt32} {peer : Peer} (indexed : reached.indexByVpnAddr.get v = some i)
      (here : reached.peersByIndex.get i = some (.established peer)) :
      VerifiedTunnel lib start log reached i v peer := by
    obtain ⟨other, there, vpnAddr⟩ := sound.indexed v i indexed
    obtain rfl : other = peer := by simpa [there] using here
    exact ⟨here, vpnAddr, sound.established i other here⟩
  refine ⟨sound.zero, ?_, ?_, ?_, ?_, ?_, ?_⟩
  · intro i peer here
    exact ⟨here, rfl, sound.established i peer here⟩
  · intro v i indexed
    obtain ⟨peer, here, -⟩ := sound.indexed v i indexed
    exact ⟨peer, pointed indexed here⟩
  · intro more i peer here
    exact established_persists reached more here
  · intro v type_ payload packet dest sent
    obtain ⟨i, peer, indexed, here, toPeer, through⟩ := sendTyped_spec sent
    exact ⟨i, peer, indexed, pointed indexed here, toPeer, through⟩
  · intro v info known
    obtain ⟨i, peer, indexed, here, same⟩ := peerInfo_spec known
    exact ⟨i, peer, indexed, pointed indexed here, same⟩
  · intro v bytes received
    obtain ⟨i, peer, event, output, here, vpnAddr, member, opens⟩ :=
      sound.delivered v bytes (recv_spec received)
    exact ⟨i, peer, event, output, ⟨here, vpnAddr, sound.established i peer here⟩, member, opens⟩

end Run

end Nebula
