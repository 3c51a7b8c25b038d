import Nebula.Protocol.SessionInvariant
import Nebula.Protocol.RejectedReply

/-! # A peer is reached at the first of its networks

Both branches of `handle_handshake` point one address to a new tunnel: that of the certificate's first
network. In every reachable state the addresses that point to a tunnel are exactly the first addresses of
the established peers' certificates, each pointing to a tunnel whose certificate begins with it. Another
network of a certificate is not reached.
-/

namespace Nebula

open Rust

variable {lib : Externals}

/-- The address of the first network. -/
def Certificate.firstAddr (cert : Certificate) : Option IpAddr := cert.details.networks.head?.map Network.addr

def PeerInfo.of (cert : Certificate) : PeerInfo :=
  ⟨cert.details.name, cert.details.groups, cert.details.networks, cert.details.unsafeNetworks⟩

section Tables

variable {start inner next : lib.Inner} {log : SessionLog} {event : SessionEvent}

theorem Sound.firstAddr (sound : Sound lib start log inner) {i : UInt32} {peer : Peer}
    (here : inner.peersByIndex.get i = some (.established peer)) : peer.cert.firstAddr = some peer.vpnAddr := by
  obtain ⟨_, _, _, _, _, admission⟩ := sound.established i peer here
  exact admission.network

variable (lib) in
/-- Every established peer's address points to an established tunnel for it. -/
def Reached (inner : lib.Inner) : Prop :=
  ∀ i peer, inner.peersByIndex.get i = some (.established peer) →
    ∃ j other, inner.indexByVpnAddr.get peer.vpnAddr = some j ∧
      inner.peersByIndex.get j = some (.established other) ∧ other.vpnAddr = peer.vpnAddr

theorem Reached.step (reached : Reached lib inner) (change : Change lib inner event next) : Reached lib next := by
  -- a tunnel that was there is still reached: its address points where it did, or to the new tunnel
  have kept {i : UInt32} {before : Peer} (was : inner.peersByIndex.get i = some (.established before)) :
      ∃ j other, next.indexByVpnAddr.get before.vpnAddr = some j ∧
        next.peersByIndex.get j = some (.established other) ∧ other.vpnAddr = before.vpnAddr := by
    obtain ⟨j, other, indexed, there, vpnAddr⟩ := reached i before was
    obtain ⟨other', there', same⟩ := change.persists there
    rcases change.tunnels with ⟨index, new, establishes⟩ | ⟨indices, -⟩
    · by_cases repointed : before.vpnAddr = new.vpnAddr
      · refine ⟨index, new, ?_, ?_, repointed.symm⟩
        · rw [establishes.indices, repointed, HashMap.get_insert_self]
        · rw [establishes.peers, HashMap.get_insert_self]
      · refine ⟨j, other', ?_, there', same.vpnAddr.trans vpnAddr⟩
        rw [establishes.indices, HashMap.get_insert_of_ne _ _ repointed, indexed]
    · exact ⟨j, other', indices ▸ indexed, there', same.vpnAddr.trans vpnAddr⟩
  intro i peer now
  rcases change.tunnels with ⟨index, new, establishes⟩ | ⟨-, before⟩
  · rw [establishes.peers, HashMap.get_insert] at now
    split at now
    · cases now
      refine ⟨index, peer, ?_, ?_, rfl⟩
      · rw [establishes.indices, HashMap.get_insert_self]
      · rw [establishes.peers, HashMap.get_insert_self]
    · exact kept now
  · obtain ⟨before, was, same⟩ := before i peer now
    rw [same.vpnAddr]
    exact kept was

end Tables

section Calls

variable {inner : lib.Inner} {v : IpAddr} {i : UInt32} {peer : Peer}

theorem peerInfo_established (indexed : inner.indexByVpnAddr.get v = some i)
    (here : inner.peersByIndex.get i = some (.established peer)) :
    peerInfo lib inner v = some (.of peer.cert) := by
  simp only [peerInfo, indexed, here, bind, Option.bind_some]
  rfl

theorem peerInfo_not_indexed (missing : inner.indexByVpnAddr.get v = none) : peerInfo lib inner v = none := by
  simp only [peerInfo, missing, bind, Option.bind_none]

theorem sendTyped_not_indexed (missing : inner.indexByVpnAddr.get v = none) (type_ : UInt8) (payload : Bytes) :
    (sendTyped lib inner v type_ payload).2 = .error (.err (.peerUnreachable v)) := by
  simp only [sendTyped, missing]

/-- Encryption has one error. -/
theorem encrypt_error {t : Transport} {aead : Aead} {counter : UInt64} {aad plaintext out : Bytes} {error : Error}
    (failed : t.encrypt aead counter aad plaintext out = .error (.err error)) : error = .decryptFailed := by
  rcases bind_eq_error.mp failed with refused | ⟨ciphertext, -, copied⟩
  · unfold CipherImpl.encrypt okOr at refused
    split at refused <;> cases refused
    rfl
  · unfold copyOut at copied
    split at copied <;> cases copied

theorem sendTyped_not_unreachable (indexed : inner.indexByVpnAddr.get v = some i)
    (here : inner.peersByIndex.get i = some (.established peer)) (type_ : UInt8) (payload : Bytes) (addr : IpAddr) :
    (sendTyped lib inner v type_ payload).2 ≠ .error (.err (.peerUnreachable addr)) := by
  simp only [sendTyped, indexed, here]
  intro failed
  rcases bind_eq_error.mp failed with refused | ⟨_, _, ⟨⟩⟩
  cases encrypt_error refused

end Calls

section Run

variable (caCert hostCert : Certificate) (hostPrivateKey : Key) (cipher : Cipher) (vpnAddr : IpAddr)
  (lighthouses : List IpAddr) (staticHosts : List (IpAddr × SocketAddr))

theorem reached_run (events : List SessionEvent) :
    Reached lib ((session lib).exec
      (.new caCert hostCert hostPrivateKey cipher vpnAddr lighthouses staticHosts) events) := by
  refine (session lib).state_invariant (Reached lib) ?_ ?_ events
  · intro inner event reached
    exact reached.step (stepped_step inner event).change
  · intro i peer here
    simp [Inner.new] at here

/-- In every reachable state: an established peer's certificate has a first network, whose address points to
an established tunnel for a certificate that begins with the same address; `peer_info` of that address is
what this certificate says, and `send` to it goes through this tunnel, not to an unreachable peer. No
other address points anywhere: `peer_info` of an address with which no established peer's certificate
begins is nothing, and `send` to it reports it unreachable. -/
theorem first_network_reached (events : List SessionEvent) :
    let reached := (session lib).exec
      (.new caCert hostCert hostPrivateKey cipher vpnAddr lighthouses staticHosts) events
    (∀ i peer, reached.peersByIndex.get i = some (.established peer) →
      ∃ v j other, peer.cert.firstAddr = some v ∧ reached.indexByVpnAddr.get v = some j ∧
        reached.peersByIndex.get j = some (.established other) ∧ other.cert.firstAddr = some v ∧
        peerInfo lib reached v = some (.of other.cert) ∧
        ∀ type_ payload, (sendTyped lib reached v type_ payload).2 ≠ .error (.err (.peerUnreachable v)) ∧
          ∀ packet dest, (sendTyped lib reached v type_ payload).2 = .ok (packet, dest) →
            dest = other.remote ∧ SentThrough lib.aead other payload packet) ∧
    ∀ v, (∀ i peer, reached.peersByIndex.get i = some (.established peer) → peer.cert.firstAddr ≠ some v) →
      reached.indexByVpnAddr.get v = none ∧ peerInfo lib reached v = none ∧
        ∀ type_ payload, (sendTyped lib reached v type_ payload).2 = .error (.err (.peerUnreachable v)) := by
  intro reached
  have sound := @sound_run lib caCert hostCert hostPrivateKey cipher vpnAddr lighthouses staticHosts events
  have mapped : Reached lib reached :=
    reached_run caCert hostCert hostPrivateKey cipher vpnAddr lighthouses staticHosts events
  constructor
  · intro i peer here
    obtain ⟨j, other, indexed, there, same⟩ := mapped i peer here
    refine ⟨peer.vpnAddr, j, other, sound.firstAddr here, indexed, there, same ▸ sound.firstAddr there,
      peerInfo_established indexed there, fun type_ payload => ?_⟩
    refine ⟨sendTyped_not_unreachable indexed there type_ payload _, fun packet dest sent => ?_⟩
    obtain ⟨k, used, indexed', there', toPeer, through⟩ := sendTyped_spec sent
    obtain rfl := Option.some.inj (indexed.symm.trans indexed')
    obtain rfl : other = used := by simpa using there.symm.trans there'
    exact ⟨toPeer, through⟩
  · intro v unused
    have missing : reached.indexByVpnAddr.get v = none := by
      rcases indexed : reached.indexByVpnAddr.get v with _ | i
      · rfl
      · obtain ⟨peer, here, is_v⟩ := sound.indexed v i indexed
        exact absurd (is_v ▸ sound.firstAddr here) (unused i peer here)
    exact ⟨missing, peerInfo_not_indexed missing, sendTyped_not_indexed missing⟩

end Run

/-! ## A certificate with two networks -/

namespace TestNetwork

/-- Host A's certificate, issued again with other details. -/
def reissuedA (details : Details) : Certificate :=
  { hostA with details, rawDetails := encodeDetails details, signature := List.replicate 64 7 }

/-- What host A says to open a handshake under it. -/
def reissuedHello (details : Details) : NebulaHandshake where
  details := some { helloDetails with cert := (reissuedA details).encodeForHandshake }
  hmac := []

/-- The test network, in which host A's certificate has been issued again. -/
def reissuedNetwork (details : Details) : Externals :=
  { network with
    handshakeCodec := ⟨protobuf, fun payload => [reissuedHello details].find? (protobuf · = payload)⟩
    crypto := { crypto with
      verify key message signature := key.items = ca.publicKey ∧ message = (reissuedA details).signingBytes ∧
        signature.items = (reissuedA details).signature } }

def reissuedDatagram (details : Details) : Bytes :=
  (header 0 1).encode ++ ((ambient 1).entropy ++ hostA.publicKey ++ protobuf (reissuedHello details))

/-- Host B after it has answered host A. -/
def answeredReissued (details : Details) : (reissuedNetwork details).Inner :=
  (session (reissuedNetwork details)).exec (.new ca hostB keyB .aesGcm (vpn 2) [] [])
    [.datagram (reissuedDatagram details) (endpoint 1) (ambient 2)]

/-- The details that an established entry has verified. -/
def certDetails {H : Type} : PeerState H → Option Details
  | .handshaking _ => none
  | .established peer => some peer.cert.details

def secondAddr : IpAddr := .v6 ⟨[0xfd, 0, 0, 0, 0, 0, 0, 0, 0, 0, 0, 0, 0, 0, 0, 1], rfl⟩

/-- Host A with an IPv6 network beside its IPv4 one. -/
def dualStack : Details := { hostDetails "host-a" 1 with networks := [⟨vpn 1, 16⟩, ⟨secondAddr, 64⟩] }

end TestNetwork

open TestNetwork in
/-- Host B has answered host A, whose verified certificate has a second network; its address points nowhere,
so host B has no information about it and cannot send to it. -/
theorem second_network_not_reached :
    (∃ peer, (answeredReissued dualStack).peersByIndex.get indexB = some (.established peer) ∧
      peer.cert.details = dualStack) ∧
    secondAddr ∈ dualStack.networks.map Network.addr ∧
    (answeredReissued dualStack).indexByVpnAddr.get secondAddr = none ∧
    peerInfo (reissuedNetwork dualStack) (answeredReissued dualStack) secondAddr = none ∧
    (sendTyped (reissuedNetwork dualStack) (answeredReissued dualStack) secondAddr Header.message []).2 =
      .error (.err (.peerUnreachable secondAddr)) := by
  have missing : (answeredReissued dualStack).indexByVpnAddr.get secondAddr = none := by decide +kernel
  refine ⟨?_, by decide, missing, peerInfo_not_indexed missing, sendTyped_not_indexed missing _ _⟩
  have found : ((answeredReissued dualStack).peersByIndex.get indexB).bind certDetails = some dualStack := by
    decide +kernel
  obtain ⟨state, here, listed⟩ := Option.bind_eq_some_iff.mp found
  cases state with
  | handshaking hs => cases listed
  | established peer => exact ⟨peer, here, Option.some.inj listed⟩

end Nebula
