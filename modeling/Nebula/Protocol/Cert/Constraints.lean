import Mathlib.Data.Fintype.EquivFin
import Nebula.Protocol.Cert.DetailsRoundTrip
import Nebula.Protocol.Cert.Verify

/-! # What an authority constrains is not checked

A certificate authority's certificate lists the groups and networks it may hand out, and is valid for an
interval of time. `verify_host_cert` compares the host's certificate with none of these: it looks at the
two CA flags, at both intervals now, at the issuer's fingerprint and the signature, and at whether the
host has a network. So an authority's constraints hold of what it issues only where it has none.
-/

namespace Nebula

open Rust

/-- The prefix `outer` is no longer than that of `inner` and contains its address. -/
def Network.Within (inner outer : Network) : Prop :=
  outer.prefixLen ≤ inner.prefixLen ∧
    ∃ net, IpNet.new outer.addr outer.prefixLen = some net ∧ prefixContains net inner.addr = true

/-- The host's details keep to those of the authority. -/
structure Details.KeepsTo (host ca : Details) : Prop where
  groups : ca.groups ≠ [] → ∀ group ∈ host.groups, group ∈ ca.groups
  networks : ca.networks ≠ [] → ∀ network ∈ host.networks, ∃ outer ∈ ca.networks, network.Within outer
  unsafeNetworks : ca.unsafeNetworks ≠ [] →
    ∀ network ∈ host.unsafeNetworks, ∃ outer ∈ ca.unsafeNetworks, network.Within outer
  notBefore : ca.notBefore ≤ host.notBefore
  notAfter : host.notAfter ≤ ca.notAfter

/-- A network within another has its addresses in the other. -/
theorem Network.Within.addresses {inner outer : Network} (within : inner.Within outer) {net : IpNet}
    (is_net : IpNet.new inner.addr inner.prefixLen = some net) :
    ∃ outerNet, IpNet.new outer.addr outer.prefixLen = some outerNet ∧
      ∀ addr, prefixContains net addr = true → prefixContains outerNet addr = true := by
  obtain ⟨shorter, outerNet, is_outer, contained⟩ := within
  refine ⟨outerNet, is_outer, fun addr inside => ?_⟩
  unfold IpNet.new at is_net is_outer
  split at is_net <;> cases is_net
  split at is_outer <;> cases is_outer
  exact prefixContains_trans shorter contained inside

section Verify

variable {crypto : CertCrypto} {cert ca : Certificate} {nowUnix : Int64}

/-- The checks that `verify_host_cert` makes. -/
theorem verifyHostCert_eq_ok_iff :
    verifyHostCert crypto cert ca nowUnix = .ok () ↔
      cert.details.isCa = false ∧ ca.details.isCa = true ∧ ca.isExpired nowUnix = false ∧
        cert.isExpired nowUnix = false ∧ hexEncode cert.details.issuer = ca.fingerprint crypto ∧
        cert.checkSignature crypto ca.publicKey = .ok () ∧ cert.details.networks ≠ [] := by
  unfold verifyHostCert
  constructor
  · intro verified
    split_ifs at verified with kind expired issuer none
    · obtain ⟨⟨⟩, -, ⟨⟩⟩ := bind_eq_ok.mp verified
    · obtain ⟨⟨⟩, signed, -⟩ := bind_eq_ok.mp verified
      simp only [Bool.or_eq_true, Bool.not_eq_true', not_or, Bool.not_eq_true, Bool.not_eq_false] at kind expired
      exact ⟨kind.1, kind.2, expired.1, expired.2, not_not.mp issuer, signed, by simpa using none⟩
  · rintro ⟨host, authority, caValid, valid, issuer, signed, some⟩
    rw [if_neg (by simp [host, authority]), if_neg (by simp [caValid, valid]), if_neg (not_not.mpr issuer)]
    refine bind_eq_ok.mpr ⟨(), signed, ?_⟩
    rw [if_neg (by simpa using some)]
    rfl

/-- What the authority constrains, and what the host has of it, make no difference. -/
theorem verifyHostCert_ignores_lists (groups groups' : List String)
    (networks unsafeNetworks unsafeNetworks' : List Network) :
    verifyHostCert crypto { cert with details := { cert.details with groups, unsafeNetworks } }
        { ca with details := { ca.details with
          groups := groups', networks, unsafeNetworks := unsafeNetworks' } } nowUnix =
      verifyHostCert crypto cert ca nowUnix :=
  rfl

end Verify

/-! ## Authorities that constrain nothing -/

/-- The network 0.0.0.0/0. -/
def Network.allV4 : Network := ⟨.v4 (.new 0 0 0 0), 0⟩

/-- The network ::/0. -/
def Network.allV6 : Network := ⟨.v6 (.replicate 16 0), 0⟩

/-- No network is outside this list: it is empty, which stands for no constraint, or has the whole of both
families. -/
def AllNetworks (networks : List Network) : Prop :=
  networks = [] ∨ (∃ addr, ⟨.v4 addr, 0⟩ ∈ networks) ∧ ∃ addr, ⟨.v6 addr, 0⟩ ∈ networks

/-- The authority leaves every list and interval open. -/
structure Details.Unconstrained (ca : Details) : Prop where
  groups : ca.groups = []
  networks : AllNetworks ca.networks
  unsafeNetworks : AllNetworks ca.unsafeNetworks
  notBefore : ca.notBefore = Int64.minValue
  notAfter : ca.notAfter = Int64.maxValue

/-- Someone holds the private key: every message has a signature that verifies under the authority's key. -/
def CanSign (crypto : CertCrypto) (ca : Certificate) : Prop :=
  ∃ key : Arr UInt8 32, ca.publicKey = key.items ∧ crypto.isVerifyingKey key = true ∧
    ∀ message, ∃ signature, crypto.verify key message signature = true

theorem Network.within_zero {network outer : Network} (whole : outer.prefixLen = 0)
    (family : outer.addr.maxPrefixLen = network.addr.maxPrefixLen) : network.Within outer := by
  refine ⟨whole ▸ UInt8.zero_le, ⟨outer.addr, outer.prefixLen, whole ▸ UInt8.zero_le⟩, dif_pos _, ?_⟩
  simp [prefixContains, whole, family]

theorem Network.zero_of_within {addr : IpAddr} {outer : Network} (within : Network.Within ⟨addr, 0⟩ outer) :
    outer.prefixLen = 0 ∧ outer.addr.maxPrefixLen = addr.maxPrefixLen := by
  obtain ⟨shorter, net, is_net, contained⟩ := within
  refine ⟨UInt8.le_antisymm shorter UInt8.zero_le, ?_⟩
  unfold IpNet.new at is_net
  split at is_net <;> cases is_net
  simp only [prefixContains, Bool.and_eq_true, beq_iff_eq] at contained
  exact contained.1

theorem allNetworks_iff {networks : List Network} :
    AllNetworks networks ↔ (networks ≠ [] → ∀ network : Network, ∃ outer ∈ networks, network.Within outer) := by
  constructor
  · rintro (none | ⟨⟨four, member4⟩, ⟨six, member6⟩⟩) some ⟨addr, prefixLen⟩
    · exact absurd none some
    · cases addr with
      | v4 addr => exact ⟨_, member4, Network.within_zero rfl rfl⟩
      | v6 addr => exact ⟨_, member6, Network.within_zero rfl rfl⟩
  · intro covers
    rcases eq_or_ne networks [] with none | some
    · exact .inl none
    · right
      obtain ⟨⟨addr4, len4⟩, member4, within4⟩ := covers some .allV4
      obtain ⟨⟨addr6, len6⟩, member6, within6⟩ := covers some .allV6
      obtain ⟨rfl, family4⟩ := Network.zero_of_within within4
      obtain ⟨rfl, family6⟩ := Network.zero_of_within within6
      constructor
      · cases addr4 with
        | v4 addr => exact ⟨addr, member4⟩
        | v6 addr => cases family4
      · cases addr6 with
        | v4 addr => cases family6
        | v6 addr => exact ⟨addr, member6⟩

theorem Details.Unconstrained.keepsTo {ca : Details} (free : ca.Unconstrained) (host : Details) :
    host.KeepsTo ca where
  groups some := absurd free.groups some
  networks some network _ := allNetworks_iff.mp free.networks some network
  unsafeNetworks some network _ := allNetworks_iff.mp free.unsafeNetworks some network
  notBefore := free.notBefore ▸ Int64.minValue_le _
  notAfter := free.notAfter ▸ Int64.le_maxValue _

theorem tryIntoArr_items {n : ℕ} {error : Error} (a : Arr UInt8 n) : tryIntoArr n error a.items = .ok a := by
  rw [tryIntoArr, dif_pos a.size]

theorem Certificate.checkSignature_of_verify {crypto : CertCrypto} {c : Certificate} {key : Arr UInt8 32}
    {signature : Arr UInt8 64} (curve : c.curve = .curve25519) (stands : c.signature = signature.items)
    (verifying : crypto.isVerifyingKey key = true)
    (accepted : crypto.verify key c.signingBytes signature = true) :
    c.checkSignature crypto key.items = .ok () := by
  rw [checkSignature, if_neg (not_not.mpr curve), stands]
  refine bind_eq_ok.mpr ⟨key, tryIntoArr_items key, ?_⟩
  rw [if_neg (by simp [verifying])]
  refine bind_eq_ok.mpr ⟨signature, tryIntoArr_items signature, ?_⟩
  rw [if_neg (by simp [accepted])]
  rfl

/-- A host with one group, network and unsafe network, valid at all times. -/
def issuedDetails (crypto : CertCrypto) (ca : Certificate) (group : String) (network unsafeNetwork : Network) :
    Details where
  name := "host"
  networks := [network]
  unsafeNetworks := [unsafeNetwork]
  groups := [group]
  isCa := false
  notBefore := Int64.minValue
  notAfter := Int64.maxValue
  issuer := (crypto.sha256 (ca.signingBytes ++ ca.signature)).items

def issued (crypto : CertCrypto) (ca : Certificate) (group : String) (network unsafeNetwork : Network)
    (signature : Bytes) : Certificate where
  details := issuedDetails crypto ca group network unsafeNetwork
  rawDetails := encodeDetails (issuedDetails crypto ca group network unsafeNetwork)
  curve := .curve25519
  publicKey := List.replicate 32 0
  signature := signature

/-- Whoever holds the key of an authority that is valid can issue a certificate for any group, network and
unsafe network, valid at all times. -/
theorem exists_verified {crypto : CertCrypto} {ca : Certificate} {nowUnix : Int64} (signs : CanSign crypto ca)
    (is_ca : ca.details.isCa = true) (valid : ca.isExpired nowUnix = false) (group : String)
    (network unsafeNetwork : Network) :
    ∃ cert, verifyHostCert crypto cert ca nowUnix = .ok () ∧ cert.details.groups = [group] ∧
      cert.details.networks = [network] ∧ cert.details.unsafeNetworks = [unsafeNetwork] ∧
      cert.details.notBefore = Int64.minValue ∧ cert.details.notAfter = Int64.maxValue := by
  obtain ⟨key, is_key, verifying, signed⟩ := signs
  -- The signature is no part of the signed bytes.
  obtain ⟨signature, accepted⟩ := signed (issued crypto ca group network unsafeNetwork []).signingBytes
  refine ⟨issued crypto ca group network unsafeNetwork signature.items, ?_, rfl, rfl, rfl, rfl, rfl⟩
  refine verifyHostCert_eq_ok_iff.mpr ⟨rfl, is_ca, valid, ?_, rfl, ?_, List.cons_ne_nil _ _⟩
  · simp [Certificate.isExpired, issued, issuedDetails]
  · rw [is_key]
    exact Certificate.checkSignature_of_verify rfl rfl verifying accepted

theorem unconstrained_of_enforced {crypto : CertCrypto} {ca : Certificate} {nowUnix : Int64}
    (signs : CanSign crypto ca) (is_ca : ca.details.isCa = true) (valid : ca.isExpired nowUnix = false)
    (enforced : ∀ cert, verifyHostCert crypto cert ca nowUnix = .ok () → cert.details.KeepsTo ca.details) :
    ca.details.Unconstrained := by
  have kept (group : String) (network unsafeNetwork : Network) :
      (ca.details.groups ≠ [] → group ∈ ca.details.groups) ∧
        (ca.details.networks ≠ [] → ∃ outer ∈ ca.details.networks, network.Within outer) ∧
        (ca.details.unsafeNetworks ≠ [] → ∃ outer ∈ ca.details.unsafeNetworks, unsafeNetwork.Within outer) ∧
        ca.details.notBefore ≤ Int64.minValue ∧ Int64.maxValue ≤ ca.details.notAfter := by
    obtain ⟨cert, verified, groups, networks, unsafeNetworks, notBefore, notAfter⟩ :=
      exists_verified signs is_ca valid group network unsafeNetwork
    have keeps := enforced cert verified
    exact ⟨fun some => keeps.groups some group (groups ▸ List.mem_singleton_self _),
      fun some => keeps.networks some network (networks ▸ List.mem_singleton_self _),
      fun some => keeps.unsafeNetworks some unsafeNetwork (unsafeNetworks ▸ List.mem_singleton_self _),
      notBefore ▸ keeps.notBefore, notAfter ▸ keeps.notAfter⟩
  -- No list holds every group.
  obtain ⟨group, outside⟩ := Infinite.exists_notMem_finset ca.details.groups.toFinset
  obtain ⟨within, -, -, notBefore, notAfter⟩ := kept group .allV4 .allV4
  refine ⟨?_, ?_, ?_, ?_, ?_⟩
  · by_contra some
    exact outside (List.mem_toFinset.mpr (within some))
  · exact allNetworks_iff.mpr fun some network => (kept group network .allV4).2.1 some
  · exact allNetworks_iff.mpr fun some network => (kept group .allV4 network).2.2.1 some
  · exact Int64.le_antisymm notBefore (Int64.minValue_le _)
  · exact Int64.le_antisymm (Int64.le_maxValue _) notAfter

/-- The constraints of an authority are enforced only if nothing is verified under it, or it has none. -/
theorem forall_keepsTo_iff {crypto : CertCrypto} {ca : Certificate} (nowUnix : Int64)
    (signs : CanSign crypto ca) :
    (∀ cert, verifyHostCert crypto cert ca nowUnix = .ok () → cert.details.KeepsTo ca.details) ↔
      ca.details.isCa = false ∨ ca.isExpired nowUnix = true ∨ ca.details.Unconstrained := by
  constructor
  · intro enforced
    rcases Bool.eq_false_or_eq_true ca.details.isCa with is_ca | not_ca
    · rcases Bool.eq_false_or_eq_true (ca.isExpired nowUnix) with expired | valid
      · exact .inr (.inl expired)
      · exact .inr (.inr (unconstrained_of_enforced signs is_ca valid enforced))
    · exact .inl not_ca
  · intro unused cert verified
    obtain ⟨-, is_ca, valid, -⟩ := verifyHostCert_eq_ok_iff.mp verified
    rcases unused with not_ca | expired | free
    · simp [is_ca] at not_ca
    · simp [valid] at expired
    · exact free.keepsTo cert.details

/-- A verified certificate keeps to its authority's, exactly if one of the checks that are made fails or it
happens to: it has no group, network or unsafe network but from a list of the authority's that is not
empty, and its interval is inside the authority's. And where the authority's key is in use, all that are
verified keep to it exactly if nothing is verified or it constrains nothing. -/
theorem verified_keepsTo_iff (crypto : CertCrypto) (ca : Certificate) (nowUnix : Int64) :
    (∀ cert : Certificate,
      (verifyHostCert crypto cert ca nowUnix = .ok () → cert.details.KeepsTo ca.details) ↔
        (cert.details.isCa = true ∨ ca.details.isCa = false ∨ ca.isExpired nowUnix = true ∨
          cert.isExpired nowUnix = true ∨ hexEncode cert.details.issuer ≠ ca.fingerprint crypto ∨
          cert.checkSignature crypto ca.publicKey ≠ .ok () ∨ cert.details.networks = []) ∨
        cert.details.KeepsTo ca.details) ∧
    (CanSign crypto ca →
      ((∀ cert, verifyHostCert crypto cert ca nowUnix = .ok () → cert.details.KeepsTo ca.details) ↔
        ca.details.isCa = false ∨ ca.isExpired nowUnix = true ∨ ca.details.Unconstrained)) := by
  refine ⟨fun cert => ?_, forall_keepsTo_iff nowUnix⟩
  rw [verifyHostCert_eq_ok_iff, imp_iff_not_or]
  simp only [not_and_or, Bool.not_eq_false, Bool.not_eq_true, not_not, ne_eq]

/-! ## A constrained authority -/

namespace Constrained

def network (a b c d prefixLen : UInt8) : Network := ⟨.v4 (.new a b c d), prefixLen⟩

def digest : Arr UInt8 32 := .replicate 32 7

def caDetails : Details where
  name := "constrained CA"
  networks := [network 10 100 0 0 16]
  unsafeNetworks := [network 192 168 0 0 16]
  groups := ["users"]
  isCa := true
  notBefore := 1000
  notAfter := 2000
  issuer := []

def ca : Certificate where
  details := caDetails
  rawDetails := encodeDetails caDetails
  curve := .curve25519
  publicKey := List.replicate 32 1
  signature := List.replicate 64 2

/-- A group, a network, an unsafe network and an interval that the authority may not hand out. -/
def hostDetails : Details where
  name := "host"
  networks := [network 172 16 0 1 24]
  unsafeNetworks := [network 0 0 0 0 0]
  groups := ["admins"]
  isCa := false
  notBefore := 0
  notAfter := Int64.maxValue
  issuer := digest.items

def host : Certificate where
  details := hostDetails
  rawDetails := encodeDetails hostDetails
  curve := .curve25519
  publicKey := List.replicate 32 3
  signature := List.replicate 64 4

def crypto : CertCrypto where
  isVerifyingKey key := key.items = ca.publicKey
  verify key message signature :=
    key.items = ca.publicKey ∧ message = host.signingBytes ∧ signature.items = host.signature
  sha256 _ := digest

def checksum (message : Bytes) : UInt8 := message.foldl UInt8.xor 0

/-- The one signature of a message under a key: the key and a digest of the message. -/
def stamp (key : Arr UInt8 32) (message : Bytes) : Arr UInt8 64 :=
  ⟨key.items ++ List.replicate 32 (checksum message), by simp [key.size]⟩

/-- Keys that sign every message. -/
def stamping : CertCrypto where
  isVerifyingKey key := key.items = ca.publicKey
  verify key message signature := signature = stamp key message
  sha256 message := .replicate 32 (checksum message)

end Constrained

open Constrained in
/-- Both certificates are what is read from their encodings, the host's is verified, and it has a group, a
network, an unsafe network and an interval outside its authority's. -/
theorem constraints_not_enforced :
    Certificate.decode ca.encode = .ok ca ∧ Certificate.decode host.encode = .ok host ∧
      ¬ (verifyHostCert crypto host ca 1500 = .ok () → host.details.KeepsTo ca.details) ∧
      "admins" ∉ ca.details.groups ∧ (∀ outer ∈ ca.details.networks, ¬ (network 172 16 0 1 24).Within outer) ∧
      (∀ outer ∈ ca.details.unsafeNetworks, ¬ (network 0 0 0 0 0).Within outer) ∧
      host.details.notBefore < ca.details.notBefore ∧ ca.details.notAfter < host.details.notAfter := by
  have verified : verifyHostCert crypto host ca 1500 = .ok () := by decide +kernel
  have group : "admins" ∉ ca.details.groups := by decide
  refine ⟨by decide +kernel, by decide +kernel, ?_, group, ?_, ?_, by decide, by decide⟩
  · intro enforced
    exact group ((enforced verified).groups (List.cons_ne_nil _ _) "admins" (List.mem_singleton_self _))
  · intro outer member
    obtain rfl := List.mem_singleton.mp member
    rintro ⟨-, net, is_net, contained⟩
    cases is_net
    revert contained
    decide
  · intro outer member
    obtain rfl := List.mem_singleton.mp member
    rintro ⟨shorter, -⟩
    revert shorter
    decide

open Constrained in
/-- The authority of the example with a key that signs every message: what is verified under it need not
keep to it. -/
theorem constrained_authority_mints :
    CanSign stamping ca ∧
      ¬ ∀ cert, verifyHostCert stamping cert ca 1500 = .ok () → cert.details.KeepsTo ca.details := by
  have signs : CanSign stamping ca :=
    ⟨⟨ca.publicKey, rfl⟩, rfl, by decide, fun message => ⟨stamp ⟨ca.publicKey, rfl⟩ message, by simp [stamping]⟩⟩
  refine ⟨signs, fun enforced => ?_⟩
  rcases ((verified_keepsTo_iff stamping ca 1500).2 signs).mp enforced with not_ca | expired | free
  · cases not_ca
  · revert expired
    decide
  · cases free.groups

end Nebula
