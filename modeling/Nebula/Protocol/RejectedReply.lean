import Nebula.Protocol.SessionInvariant

/-! # Replies that a pending handshake rejects

A reply that does not authenticate costs the session the handshake it names: the pending state is gone
before the reply is read, and nothing puts it back. The genuine reply then finds no handshake to complete.
-/

namespace Nebula

open Rust

variable {lib : Externals}

theorem step_datagram (inner : lib.Inner) (datagram : Bytes) (source : SocketAddr) (ambient : Ambient) :
    (session lib).step inner (.datagram datagram source ambient) =
      ((handleDatagram lib inner datagram source ambient).1,
        .handled (handleDatagram lib inner datagram source ambient).2) := rfl

/-! ## What later steps leave -/

/-- Only `connect` makes an index pending. -/
theorem Change.not_pending {inner next : lib.Inner} {event : SessionEvent}
    (change : Change lib inner event next) (quiet : event.opensHandshake = false) {i : UInt32}
    (was : ∀ hs, inner.peersByIndex.get i ≠ some (.handshaking hs)) (hs : lib.snow.HandshakeState) :
    next.peersByIndex.get i ≠ some (.handshaking hs) := by
  cases change with
  | aside peers _ _ => exact peers ▸ was hs
  | pending cause _ _ _ _ _ =>
    rw [quiet] at cause
    cases cause
  | forgotten _ peers _ _ =>
    rw [peers, HashMap.get_remove]
    split
    · simp
    · exact was hs
  | established _ _ _ _ peers _ _ =>
    rw [peers, HashMap.get_insert]
    split
    · simp
    · exact was hs
  | used _ _ peers _ _ =>
    rw [peers, HashMap.get_insert]
    split
    · simp
    · exact was hs

theorem not_pending_run (inner : lib.Inner) (events : List SessionEvent)
    (quiet : ∀ event ∈ events, event.opensHandshake = false) {i : UInt32}
    (was : ∀ hs, inner.peersByIndex.get i ≠ some (.handshaking hs)) :
    ∀ hs, ((session lib).exec inner events).peersByIndex.get i ≠ some (.handshaking hs) := by
  refine (session lib).invariant_of_allowed (·.opensHandshake = false)
    (fun state => ∀ hs, state.peersByIndex.get i ≠ some (.handshaking hs)) ?_ was events quiet
  intro state event quiet was hs
  exact (stepped_step state event).change.not_pending quiet was hs

/-! ## Two hosts of the test network

The authority and the two hosts are those of `tests/fixtures`, and signatures and digests are answered for
them alone. The first message of the pattern IX is in the clear, as here; this stand-in for `snow` leaves
the second one in the clear too, and mixes the two ephemeral keys into the split keys.
-/

namespace TestNetwork

def vpn (last : UInt8) : IpAddr := .v4 (.new 10 100 0 last)

/-- `tests/fixtures/ca.crt`. -/
def ca : Certificate :=
  let details : Details := {
    name := "nebula-protocol test CA", networks := [⟨vpn 0, 16⟩], unsafeNetworks := [], groups := []
    isCa := true, notBefore := 0x6955b900, notAfter := 0x6d182000, issuer := [] }
  { details, rawDetails := encodeDetails details, curve := .curve25519
    publicKey := beBytes 32 0x939666b293d1e0986e2f4c20b6dbbcb38987b9dd173e9fe937332b2295a0e7a2
    signature := beBytes 32 0xf92d43999f6cf2801615fb2bd373dabf8080fa67f1499ea1888ad972dc210e00 ++
      beBytes 32 0x9ddf4899f2d389d9906cab8223071a7af2abc41cfd5a9034dab433aeda7b2e0f }

/-- The SHA-256 digest of the authority's certificate. -/
def caDigest : Arr UInt8 32 :=
  ⟨beBytes 32 0xdc71e8c0fbbd54bffdeee9603adad3cde390ce602e867bcf9a259fe47fbd254c, by simp⟩

def hostDetails (name : String) (last : UInt8) : Details := {
  name, networks := [⟨vpn last, 16⟩], unsafeNetworks := [], groups := ["test"], isCa := false
  notBefore := 0x6955b900, notAfter := 0x6d182000, issuer := caDigest.items }

/-- `tests/fixtures/host-a.crt`. -/
def hostA : Certificate where
  details := hostDetails "host-a" 1
  rawDetails := encodeDetails (hostDetails "host-a" 1)
  curve := .curve25519
  publicKey := beBytes 32 0xe6dd63a632404b3bbcbd7c4ac1a4b9311b93ed07a601e5e336f33e49a433db33
  signature := beBytes 32 0x7bb65d2c9d33c4f2ec5d9e8310f1223c179f19f0348d8ef5e1a0b142daf05f4d ++
    beBytes 32 0xab357ff0f69a0e9fc9aa16f31406b4abde55bb2fa02cc02726d3522ac729ab07

/-- `tests/fixtures/host-b.crt`. -/
def hostB : Certificate where
  details := hostDetails "host-b" 2
  rawDetails := encodeDetails (hostDetails "host-b" 2)
  curve := .curve25519
  publicKey := beBytes 32 0xbd38af03376dbd077efd9a2bc993dca30155ea4be0f787767cc6d49e19b63430
  signature := beBytes 32 0x57ddc5dc8524481de1b124cb50aaab954e817eb7d156f5cfea10ec0f22bc1f56 ++
    beBytes 32 0x19dbd1bd99778e514799aa721f875da90e24327b67dae1512f2de0e13d27ee0e

def keyA : Key := ⟨beBytes 32 0x164e62ca8caee4c14dca71a02a7593e4add0ad38dad1f9ec13b91036eff2495c, by simp⟩

def keyB : Key := ⟨beBytes 32 0xf3fb7aa5cb70f679f25b5a7373c923f0a8ab89934169ce4f0e659fea9efbfa62, by simp⟩

def crypto : CertCrypto where
  isVerifyingKey key := key.items = ca.publicKey
  verify key message signature := key.items = ca.publicKey ∧
    [hostA, hostB].any fun host => message = host.signingBytes ∧ signature.items = host.signature
  sha256 _ := caDigest

structure Party where
  initiator : Bool
  publicKey : Bytes
  remoteStatic : Option Bytes
  /-- The initiator's ephemeral key and the responder's, as far as they are known. -/
  ephemerals : Bytes
deriving DecidableEq

def newParty (initiator : Bool) (key : Key) : Party :=
  ⟨initiator, if key = keyA then hostA.publicKey else hostB.publicKey, none, []⟩

def snow : Snow where
  HandshakeState := Party
  buildInitiator _ key := some (newParty true key)
  buildResponder _ key := some (newParty false key)
  writeMessage hs entropy payload :=
    if payload.length + 96 ≤ 65535 then
      some ({ hs with ephemerals := hs.ephemerals ++ entropy }, entropy ++ hs.publicKey ++ payload)
    else none
  readMessage hs message :=
    if message.length < 64 then none
    else some ({ hs with
      ephemerals := hs.ephemerals ++ message.take 32
      remoteStatic := some ((message.drop 32).take 32) }, message.drop 64)
  getRemoteStatic hs := hs.remoteStatic
  rawSplit hs :=
    let mix (combine : UInt8 → UInt8 → UInt8) : Key :=
      let mixed := List.zipWith combine (hs.ephemerals.take 32) (hs.ephemerals.drop 32)
      if size : mixed.length = 32 then ⟨mixed, size⟩ else .replicate 32 0
    (mix (· + ·), mix (· - ·))
  isInitiator hs := hs.initiator

def varint : (maxLen value : ℕ) → Bytes
  | 0, _ => []
  | maxLen + 1, value =>
    if value < 128 then [UInt8.ofNat value]
    else UInt8.ofNat (128 + value % 128) :: varint maxLen (value / 128)

/-- The Protocol Buffers encoding, which leaves out fields with their default. -/
def protobuf (message : NebulaHandshake) : Bytes :=
  let number (tag : UInt8) (value : ℕ) : Bytes := if value = 0 then [] else tag :: varint 10 value
  let bytes (tag : UInt8) (content : Bytes) : Bytes := tag :: (varint 10 content.length ++ content)
  let details (d : NebulaHandshakeDetails) : Bytes :=
    bytes 0x0a d.cert ++ number 0x10 d.initiatorIndex.toNat ++ number 0x18 d.responderIndex.toNat ++
      number 0x20 d.cookie.toNat ++ number 0x28 d.time.toNat ++ number 0x40 d.certVersion.toNat
  (message.details.map fun d => bytes 0x0a (details d)).getD [] ++
    if message.hmac.isEmpty then [] else bytes 0x12 message.hmac

def indexA : UInt32 := randIndex 1

def indexB : UInt32 := randIndex 2

/-- A second after the certificates became valid. -/
def ambient (nanos : UInt32) : Ambient where
  nowUnix := 0x6955b901
  unixNanos := 0x6955b901 * 1000000000 + nanos.toUInt64
  subsecNanos := [nanos]
  entropy := List.replicate 32 nanos.toUInt8

def helloDetails : NebulaHandshakeDetails where
  cert := hostA.encodeForHandshake
  initiatorIndex := indexA
  responderIndex := 0
  cookie := 0
  time := (ambient 1).unixNanos
  certVersion := 2

/-- What host A says to open a handshake. -/
def hello : NebulaHandshake := ⟨some helloDetails, []⟩

/-- What host B answers. -/
def welcome : NebulaHandshake where
  details := some {
    cert := hostB.encodeForHandshake, initiatorIndex := indexA, responderIndex := indexB, cookie := 0
    time := (ambient 2).unixNanos, certVersion := 2 }
  hmac := []

def network : Externals where
  snow
  handshakeCodec := ⟨protobuf, fun payload => [hello, welcome].find? (protobuf · = payload)⟩
  metaCodec := ⟨fun _ => [], fun _ => none⟩
  aead := ⟨fun _ _ _ _ plaintext => some (plaintext ++ List.replicate 16 0), fun _ _ _ _ _ => none⟩
  crypto

instance : DecidableEq network.snow.HandshakeState := inferInstanceAs (DecidableEq Party)

def sessionA : network.Inner := .new ca hostA keyA .aesGcm (vpn 1) [] []

def sessionB : network.Inner := .new ca hostB keyB .aesGcm (vpn 2) [] []

def endpoint (last : UInt8) : SocketAddr := ⟨.v4 (.new 192 0 2 last), 4242⟩

def header (remoteIndex : UInt32) (messageCounter : UInt64) : Header where
  version := Header.currentVersion
  type_ := Header.handshake
  subtype := Header.ixPsk0
  remoteIndex
  messageCounter

def stage0Datagram : Bytes :=
  (header 0 1).encode ++ ((ambient 1).entropy ++ hostA.publicKey ++ protobuf hello)

def stage2Datagram : Bytes :=
  (header indexA 2).encode ++ ((ambient 2).entropy ++ hostB.publicKey ++ protobuf welcome)

end TestNetwork

variable (caCert hostCert : Certificate) (hostPrivateKey : Key) (cipher : Cipher) (vpnAddr : IpAddr)
  (lighthouses : List IpAddr) (staticHosts : List (IpAddr × SocketAddr))

/-! ## Rejected replies -/

section RejectedReply

variable {inner : lib.Inner} {datagram : Bytes} {hdr : Header} {source : SocketAddr} {ambient : Ambient}

theorem handleDatagram_handshake (parsed : Header.parse datagram = .ok hdr)
    (handshake : hdr.type_ = Header.handshake) :
    handleDatagram lib inner datagram source ambient =
      handleHandshake lib inner hdr (datagram.drop Header.len) source ambient := by
  simp only [handleDatagram, parsed, handshake, if_true]

theorem handleDatagram_reply (parsed : Header.parse datagram = .ok hdr)
    (handshake : hdr.type_ = Header.handshake) (ours : hdr.remoteIndex ≠ 0) :
    handleDatagram lib inner datagram source ambient =
      handleStage2 lib inner hdr.remoteIndex (datagram.drop Header.len) source ambient := by
  rw [handleDatagram_handshake parsed handshake, handleHandshake, if_neg ours]

/-- A reply that the handshake rejects takes the pending handshake with it. -/
theorem handleStage2_rejected {i : UInt32} {hs : lib.snow.HandshakeState} {body : Bytes}
    (pending : inner.peersByIndex.get i = some (.handshaking hs))
    (rejected : ∀ done, finishInitiator lib.snow lib.handshakeCodec hs body ≠ .ok done) :
    handleStage2 lib inner i body source ambient =
      ({ inner with peersByIndex := inner.peersByIndex.remove i }, []) := by
  simp only [handleStage2, pending]
  split
  · rfl
  next details keys finished => exact absurd finished (rejected _)

theorem handleStage2_not_pending {i : UInt32} {body : Bytes}
    (idle : ∀ hs, inner.peersByIndex.get i ≠ some (.handshaking hs)) :
    handleStage2 lib inner i body source ambient = (inner, []) := by
  unfold handleStage2
  split
  next hs pending => exact absurd pending (idle hs)
  · rfl

end RejectedReply

/-- The tables a failed handshake should leave alone. -/
def SameTables {H : Type} (before after : Inner H) : Prop :=
  after.peersByIndex = before.peersByIndex ∧ after.indexByVpnAddr = before.indexByVpnAddr ∧
    after.connected = before.connected

/-- In every reachable state, a handshake datagram from any address for a pending handshake that rejects it
does not leave the tables as they were: the pending entry is gone, and nothing else has changed. Until
the session connects anew, whatever comes in between, every later reply to that handshake is ignored. -/
theorem rejected_reply_forgets_handshake (events : List SessionEvent) (i : UInt32)
    (hs : lib.snow.HandshakeState) (forged : Bytes) (hdr : Header) (source : SocketAddr)
    (ambient : Ambient)
    (pending :
      ((session lib).exec (.new caCert hostCert hostPrivateKey cipher vpnAddr lighthouses staticHosts)
      events).peersByIndex.get i = some (.handshaking hs))
    (parsed : Header.parse forged = .ok hdr) (handshake : hdr.type_ = Header.handshake)
    (addressed : hdr.remoteIndex = i)
    (rejected : ∀ done, finishInitiator lib.snow lib.handshakeCodec hs (forged.drop Header.len) ≠ .ok done) :
    let reached :=
      (session lib).exec (.new caCert hostCert hostPrivateKey cipher vpnAddr lighthouses staticHosts) events
    let after := ((session lib).step reached (.datagram forged source ambient)).1
    ¬ SameTables reached after ∧
    after = { reached with peersByIndex := reached.peersByIndex.remove i } ∧
    ∀ more, (∀ event ∈ more, event.opensHandshake = false) →
      ∀ reply replyHdr replySource replyAmbient, Header.parse reply = .ok replyHdr →
        replyHdr.type_ = Header.handshake → replyHdr.remoteIndex = i →
        (session lib).step ((session lib).exec after more) (.datagram reply replySource replyAmbient) =
          ((session lib).exec after more, .handled []) := by
  intro reached after
  have sound := @sound_run lib caCert hostCert hostPrivateKey cipher vpnAddr lighthouses staticHosts events
  have nonzero : i ≠ 0 := by
    rintro rfl
    rw [sound.zero] at pending
    cases pending
  have forgotten : after = { reached with peersByIndex := reached.peersByIndex.remove i } := by
    subst addressed
    change ((session lib).step reached _).1 = _
    rw [step_datagram, handleDatagram_reply parsed handshake nonzero, handleStage2_rejected pending rejected]
  refine ⟨?_, forgotten, ?_⟩
  · intro same
    have gone : after.peersByIndex.get i = none := by rw [forgotten, HashMap.get_remove_self]
    rw [same.1, pending] at gone
    cases gone
  · intro more quiet reply replyHdr replySource replyAmbient replyParsed replyHandshake replyAddressed
    have idle : ∀ hs', ((session lib).exec after more).peersByIndex.get i ≠ some (.handshaking hs') := by
      apply not_pending_run _ _ quiet
      intro hs'
      rw [forgotten, HashMap.get_remove_self]
      exact Option.some_ne_none _ |>.symm
    subst replyAddressed
    rw [step_datagram, handleDatagram_reply replyParsed replyHandshake nonzero, handleStage2_not_pending idle]

section

open TestNetwork

/-- Host A has sent its stage-0 message to host B. -/
def awaitingB : network.Inner :=
  (session network).exec sessionA [.openHandshake (vpn 2) (endpoint 2) 0 (ambient 1)]

/-- Host A's side of the handshake. -/
def pendingB : network.snow.HandshakeState := { newParty true keyA with ephemerals := (ambient 1).entropy }

theorem awaitingB_pending : awaitingB.peersByIndex.get indexA = some (.handshaking pendingB) := by
  decide +kernel

theorem pendingB_rejects_nil :
    finishInitiator network.snow network.handshakeCodec pendingB [] = .error (.err .noise) := by
  decide

theorem parse_bareHeader : Header.parse (header indexA 2).encode = .ok (header indexA 2) := by
  simpa using Header.parse_encode (header indexA 2) (by decide) (by decide) []

/-- A bare header from elsewhere is no reply, yet it ends the handshake: host B's reply, which completes it
if it comes first, is ignored after it. -/
theorem bare_header_ends_handshake :
    let bare : SessionEvent := .datagram (header indexA 2).encode (endpoint 9) (ambient 3)
    let reply : SessionEvent := .datagram stage2Datagram (endpoint 2) (ambient 3)
    awaitingB.peersByIndex.get indexA = some (.handshaking pendingB) ∧
    Header.parse (header indexA 2).encode = .ok (header indexA 2) ∧
    finishInitiator network.snow network.handshakeCodec pendingB [] = .error (.err .noise) ∧
    ¬ SameTables awaitingB ((session network).step awaitingB bare).1 ∧
    peerInfo network ((session network).exec awaitingB [reply]) (vpn 2) =
      some ⟨"host-b", ["test"], [⟨vpn 2, 16⟩], []⟩ ∧
    peerInfo network ((session network).exec awaitingB [bare, reply]) (vpn 2) = none := by
  intro bare reply
  refine ⟨awaitingB_pending, parse_bareHeader, pendingB_rejects_nil, ?_, by decide +kernel, by decide +kernel⟩
  intro same
  have gone : ((session network).step awaitingB bare).1.peersByIndex.get indexA = none := by decide +kernel
  rw [same.1, awaitingB_pending] at gone
  cases gone

/-- The bare header is one such reply. -/
theorem bare_header_forgets_handshake :
    ((session network).step awaitingB (.datagram (header indexA 2).encode (endpoint 9) (ambient 3))).1 =
      { awaitingB with peersByIndex := awaitingB.peersByIndex.remove indexA } := by
  have rejected : ∀ done, finishInitiator network.snow network.handshakeCodec pendingB [] ≠ .ok done := by
    intro done finished
    rw [pendingB_rejects_nil] at finished
    cases finished
  exact (rejected_reply_forgets_handshake ca hostA keyA .aesGcm (vpn 1) [] []
    [.openHandshake (vpn 2) (endpoint 2) 0 (ambient 1)] indexA pendingB (header indexA 2).encode
    (header indexA 2) (endpoint 9) (ambient 3) awaitingB_pending parse_bareHeader rfl rfl rejected).2.1

end

end Nebula
