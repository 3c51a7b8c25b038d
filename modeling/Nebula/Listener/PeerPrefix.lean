import Nebula.Listener.MeshToTun
import Nebula.Protocol.FirstNetwork

/-! # Identities of peers whose certificates have impossible prefixes

`peer_identity` expects every unsafe network of a certificate to have a prefix length that its family
allows. Nothing before it makes sure of that: the decoder takes the byte as it is, and verification does
not look at it. The identity is found exactly if all prefix lengths are valid, and the identities of all
peers of a session, in every state of a run, exactly if the certificates it admitted in the run are so.
-/

namespace Nebula.Listener

open Rust

/-- Every network has a prefix length that is valid for its family. -/
def ValidPrefixes (networks : List Network) : Prop :=
  ∀ network ∈ networks, network.prefixLen ≤ network.addr.maxPrefixLen

theorem returns_toIpnet_iff (n : Network) : Returns (toIpnet n) ↔ n.prefixLen ≤ n.addr.maxPrefixLen := by
  unfold toIpnet IpNet.new
  constructor
  · rintro ⟨net, found⟩
    split at found
    · next valid =>
      split at valid
      · assumption
      · cases valid
    · cases found
  · intro valid
    rw [dif_pos valid]
    exact returns_ok _

theorem returns_peerIdentity_iff (info : PeerInfo) (caName caSha : String) :
    Returns (peerIdentity info caName caSha) ↔ ValidPrefixes info.unsafeNetworks := by
  have networks : Returns (info.unsafeNetworks.mapM toIpnet) ↔ ValidPrefixes info.unsafeNetworks := by
    rw [returns_mapM_iff]
    simp only [returns_toIpnet_iff, ValidPrefixes]
  rw [← networks]
  constructor
  · rintro ⟨peer, found⟩
    obtain ⟨nets, converted, -⟩ := bind_eq_ok.mp found
    exact ⟨nets, converted⟩
  · intro converted
    exact converted.bind fun nets _ => returns_ok _

section Run

variable {lib : Externals}

/-- Every certificate that the session admits in the run, from `start`, satisfies `P`. -/
def AdmitsOnly (P : Certificate → Prop) (start : lib.Inner) (events : List SessionEvent) : Prop :=
  ∀ before event after index peer, events = before ++ event :: after →
    Establishes lib ((session lib).exec start before) event ((session lib).exec start (before ++ [event])) index
      peer →
    P peer.cert

theorem AdmitsOnly.of_append {P : Certificate → Prop} {start : lib.Inner} {before after : List SessionEvent}
    (only : AdmitsOnly P start (before ++ after)) : AdmitsOnly P start before := by
  intro front event rest index peer split
  exact only front event (rest ++ after) index peer (by rw [split, List.append_assoc, List.cons_append])

/-- Established tunnels have admitted certificates only. -/
theorem AdmitsOnly.established {P : Certificate → Prop} {start : lib.Inner}
    (fresh : ∀ i peer, start.peersByIndex.get i ≠ some (.established peer)) (events : List SessionEvent)
    (only : AdmitsOnly P start events) (i : UInt32) (peer : Peer)
    (here : ((session lib).exec start events).peersByIndex.get i = some (.established peer)) : P peer.cert := by
  induction events using List.reverseRecOn generalizing i peer with
  | nil => exact absurd here (fresh i peer)
  | append_singleton events event ih =>
    have stepped := stepped_step ((session lib).exec start events) event
    rw [← (session lib).exec_concat] at stepped
    have earlier := ih only.of_append
    rcases stepped.change.tunnels with ⟨index, new, establishes⟩ | ⟨-, kept⟩
    · have admitted := only events event [] index new rfl establishes
      rw [establishes.peers, HashMap.get_insert] at here
      split at here
      · cases here
        exact admitted
      · exact earlier i peer here
    · obtain ⟨before, was, same⟩ := kept i peer here
      exact same.cert ▸ earlier i before was

/-- A tunnel that the last step established is the one its address points to. -/
theorem peerInfo_of_establishes {inner next : lib.Inner} {event : SessionEvent} {index : UInt32} {peer : Peer}
    (establishes : Establishes lib inner event next index peer) :
    peerInfo lib next peer.vpnAddr = some (.of peer.cert) := by
  apply peerInfo_established
  · rw [establishes.indices, HashMap.get_insert_self]
  · rw [establishes.peers, HashMap.get_insert_self]

variable (lib) in
/-- The identity of a certificate's holder is found exactly if its unsafe networks have valid prefix lengths;
the identity of every peer that `peer_info` knows, in every state of a run, exactly if all certificates
that the session admits in the run have. -/
theorem peerIdentity_returns_iff (caCert hostCert : Certificate) (hostPrivateKey : Key) (cipher : Cipher)
    (vpnAddr : IpAddr) (lighthouses : List IpAddr) (staticHosts : List (IpAddr × SocketAddr))
    (caName caSha : String) :
    let start : lib.Inner := .new caCert hostCert hostPrivateKey cipher vpnAddr lighthouses staticHosts
    (∀ cert, Returns (identityOf cert caName caSha) ↔ ValidPrefixes cert.details.unsafeNetworks) ∧
      ∀ events, (∀ before after, events = before ++ after → ∀ v info,
          peerInfo lib ((session lib).exec start before) v = some info →
            Returns (peerIdentity info caName caSha)) ↔
        AdmitsOnly (fun cert => ValidPrefixes cert.details.unsafeNetworks) start events := by
  intro start
  refine ⟨fun cert => returns_peerIdentity_iff (.of cert) caName caSha, fun events => ⟨?_, ?_⟩⟩
  · intro identified before event after index peer split establishes
    have known := peerInfo_of_establishes establishes
    have returned := identified (before ++ [event]) after (by rw [split, List.append_assoc]; rfl) _ _ known
    exact (returns_peerIdentity_iff (.of peer.cert) caName caSha).mp returned
  · rintro only before after rfl v info known
    obtain ⟨i, peer, -, here, rfl⟩ := peerInfo_spec known
    apply (returns_peerIdentity_iff _ caName caSha).mpr
    refine AdmitsOnly.established ?_ before only.of_append i peer here
    intro i peer fresh
    simp [start, Inner.new] at fresh

end Run

/-! ## A certificate with a prefix of 33 bits -/

open TestNetwork in
/-- Host A's details with an IPv4 network whose prefix is longer than an IPv4 address. -/
def longPrefix : Details := { hostDetails "host-a" 1 with unsafeNetworks := [⟨.v4 (.new 10 0 0 0), 33⟩] }

open TestNetwork in
/-- Host B recombines and verifies host A's certificate and answers, and `peer_info` knows host A; but its
identity panics, which unwinds `mesh_to_tun` at whatever packet host A sends. -/
theorem long_prefix_unwinds_task :
    let lib := reissuedNetwork longPrefix
    let cert := reissuedA longPrefix
    (∃ recombined, Certificate.recombine cert.encodeForHandshake cert.publicKey .curve25519 = .ok recombined ∧
      recombined.details = longPrefix ∧ verifyHostCert lib.crypto recombined ca (ambient 2).nowUnix = .ok ()) ∧
    peerInfo lib (answeredReissued longPrefix) (vpn 1) = some (.of cert) ∧
    peerIdentity (.of cert) ca.details.name "" = .error .expect ∧
    ∀ contains latest firewall bytes packet now,
      (meshToTun lib contains latest
        ⟨answeredReissued longPrefix, firewall, ca.details.name, "", .parsed (vpn 1) bytes packet⟩ now).1.progress =
          .unwound .expect := by
  intro lib cert
  have known : peerInfo lib (answeredReissued longPrefix) (vpn 1) = some (.of cert) := by decide +kernel
  have panics : peerIdentity (.of cert) ca.details.name "" = .error .expect := by decide +kernel
  refine ⟨?_, known, panics, ?_⟩
  · have accepted : (match Certificate.recombine cert.encodeForHandshake cert.publicKey .curve25519 with
        | .ok recombined => some (recombined.details, verifyHostCert lib.crypto recombined ca (ambient 2).nowUnix)
        | .error _ => none) = some (longPrefix, .ok ()) := by decide +kernel
    split at accepted
    · next recombined found =>
      obtain ⟨same, verified⟩ := Prod.mk.inj (Option.some.inj accepted)
      exact ⟨recombined, found, same, verified⟩
    · cases accepted
  · intro contains latest firewall bytes packet now
    simp only [meshToTun, known, panics]

end Nebula.Listener
