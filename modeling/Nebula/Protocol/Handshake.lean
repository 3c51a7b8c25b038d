import Nebula.Protocol.Cert.Verify
import Nebula.Protocol.Transport

/-! # The Noise IX handshake

`stage0`, `respond` and `finish_initiator` around the `snow` and `prost` crates. Both crates are
parameters: a handshake state is whatever `snow` makes it, reading and writing a message are arbitrary
functions of it, and writing also draws on fresh randomness.
-/

namespace Nebula

open Rust

structure NebulaHandshakeDetails where
  cert : Bytes
  initiatorIndex : UInt32
  responderIndex : UInt32
  cookie : UInt64
  time : UInt64
  certVersion : UInt32
deriving DecidableEq, Repr

structure NebulaHandshake where
  details : Option NebulaHandshakeDetails
  hmac : Bytes
deriving DecidableEq, Repr

/-- The `snow` crate for the pattern IX over Curve25519. -/
structure Snow where
  HandshakeState : Type
  buildInitiator : Cipher → (localPrivateKey : Key) → Option HandshakeState
  buildResponder : Cipher → (localPrivateKey : Key) → Option HandshakeState
  writeMessage : HandshakeState → (entropy payload : Bytes) → Option (HandshakeState × Bytes)
  readMessage : HandshakeState → (message : Bytes) → Option (HandshakeState × Bytes)
  getRemoteStatic : HandshakeState → Option Bytes
  rawSplit : HandshakeState → Key × Key
  isInitiator : HandshakeState → Bool

/-- The `prost` codec of the handshake message. -/
structure HandshakeCodec where
  encode : NebulaHandshake → Bytes
  decode : Bytes → Option NebulaHandshake

structure SplitKeys where
  remoteStatic : Bytes
  sendKey : Key
  recvKey : Key
deriving DecidableEq, Repr

section Handshake

variable (snow : Snow) (codec : HandshakeCodec)

/-- The initiator sends with the first split key, the responder with the second. -/
def splitKeys (hs : snow.HandshakeState) : Res SplitKeys := do
  let remoteStatic ←
    okOr (.handshakeFailed "handshake completed with no remote static key") (snow.getRemoteStatic hs)
  let (k1, k2) := snow.rawSplit hs
  if snow.isInitiator hs then return { remoteStatic, sendKey := k1, recvKey := k2 }
  else return { remoteStatic, sendKey := k2, recvKey := k1 }

/-- The stage-0 message of an initiator, at the time and with the randomness it draws. -/
def stage0 (cipher : Cipher) (localPrivateKey : Key) (myCertHandshakeBytes : Bytes) (initiatorIndex : UInt32)
    (unixNanos : UInt64) (entropy : Bytes) : Res (snow.HandshakeState × Bytes) := do
  let hs ← okOr .noise (snow.buildInitiator cipher localPrivateKey)
  let payload : NebulaHandshake := {
    details := some {
      cert := myCertHandshakeBytes, initiatorIndex, responderIndex := 0, cookie := 0, time := unixNanos,
      certVersion := 2 }
    hmac := [] }
  okOr .noise (snow.writeMessage hs entropy (codec.encode payload))

/-- The details of a handshake message, if it has any. -/
def decodeDetailsOf (missing : String) (payload : Bytes) : Res NebulaHandshakeDetails := do
  let handshake ← okOr .protobufDecode (codec.decode payload)
  okOr (.handshakeFailed missing) handshake.details

def respond (cipher : Cipher) (localPrivateKey : Key) (myCertHandshakeBytes : Bytes) (responderIndex : UInt32)
    (stage0NoisePayload : Bytes) (unixNanos : UInt64) (entropy : Bytes) :
    Res (NebulaHandshakeDetails × Bytes × SplitKeys) := do
  let hs ← okOr .noise (snow.buildResponder cipher localPrivateKey)
  let (hs, payload) ← okOr .noise (snow.readMessage hs stage0NoisePayload)
  let theirDetails ← decodeDetailsOf codec "stage 0 message had no details" payload
  if theirDetails.initiatorIndex = 0 then throw (.err .handshakeInvalidRemoteIndex)
  let reply : NebulaHandshake := {
    details := some {
      cert := myCertHandshakeBytes, initiatorIndex := theirDetails.initiatorIndex, responderIndex,
      cookie := 0,
      time := unixNanos, certVersion := 2 }
    hmac := [] }
  let (hs, msg) ← okOr .noise (snow.writeMessage hs entropy (codec.encode reply))
  let keys ← splitKeys snow hs
  return (theirDetails, msg, keys)

def finishInitiator (hs : snow.HandshakeState) (stage2NoisePayload : Bytes) :
    Res (NebulaHandshakeDetails × SplitKeys) := do
  let (hs, payload) ← okOr .noise (snow.readMessage hs stage2NoisePayload)
  let details ← decodeDetailsOf codec "stage 2 message had no details" payload
  if details.responderIndex = 0 then throw (.err .handshakeInvalidRemoteIndex)
  let keys ← splitKeys snow hs
  return (details, keys)

/-- The state in which a handshake ends that `body` completes, for the side with this private key. -/
inductive Completes (cipher : Cipher) (localPrivateKey : Key) (body : Bytes) : snow.HandshakeState → Prop
  | responder {hs₀ hs₁ hs : snow.HandshakeState} {payload entropy reply msg : Bytes}
      (built : snow.buildResponder cipher localPrivateKey = some hs₀)
      (read : snow.readMessage hs₀ body = some (hs₁, payload))
      (wrote : snow.writeMessage hs₁ entropy reply = some (hs, msg)) :
      Completes cipher localPrivateKey body hs
  | initiator {hs₀ hs : snow.HandshakeState} {payload : Bytes}
      (read : snow.readMessage hs₀ body = some (hs, payload)) : Completes cipher localPrivateKey body hs

variable {snow codec} {cipher : Cipher} {localPrivateKey : Key} {certBytes body msg : Bytes} {index : UInt32}
  {unixNanos : UInt64} {entropy : Bytes} {details : NebulaHandshakeDetails} {keys : SplitKeys}

theorem splitKeys_spec {hs : snow.HandshakeState} (split : splitKeys snow hs = .ok keys) :
    snow.getRemoteStatic hs = some keys.remoteStatic ∧
      (keys.sendKey, keys.recvKey) =
        if snow.isInitiator hs then snow.rawSplit hs else ((snow.rawSplit hs).2, (snow.rawSplit hs).1) := by
  obtain ⟨remoteStatic, known, split⟩ := bind_eq_ok.mp split
  dsimp only at split
  cases side : snow.isInitiator hs <;> rw [side] at split <;> cases split <;>
    exact ⟨okOr_eq_ok known, rfl⟩

/-- A responder that answers names a usable index, and its keys are those of the handshake it completed. -/
theorem respond_spec
    (answered : respond snow codec cipher localPrivateKey certBytes index body unixNanos entropy =
      .ok (details, msg, keys)) :
    details.initiatorIndex ≠ 0 ∧
      ∃ hs, Completes snow cipher localPrivateKey body hs ∧ splitKeys snow hs = .ok keys := by
  obtain ⟨hs₀, built, answered⟩ := bind_eq_ok.mp answered
  obtain ⟨⟨hs₁, payload⟩, read, answered⟩ := bind_eq_ok.mp answered
  obtain ⟨their, -, answered⟩ := bind_eq_ok.mp answered
  dsimp only at answered
  split at answered
  · cases answered
  next usable =>
    obtain ⟨⟨hs, reply⟩, wrote, answered⟩ := bind_eq_ok.mp answered
    obtain ⟨keys', split, answered⟩ := bind_eq_ok.mp answered
    cases answered
    exact ⟨usable, hs, .responder (okOr_eq_ok built) (okOr_eq_ok read) (okOr_eq_ok wrote), split⟩

theorem finishInitiator_spec {hs : snow.HandshakeState} (cipher : Cipher) (localPrivateKey : Key)
    (finished : finishInitiator snow codec hs body = .ok (details, keys)) :
    details.responderIndex ≠ 0 ∧
      ∃ hs, Completes snow cipher localPrivateKey body hs ∧ splitKeys snow hs = .ok keys := by
  obtain ⟨⟨hs₁, payload⟩, read, finished⟩ := bind_eq_ok.mp finished
  obtain ⟨their, -, finished⟩ := bind_eq_ok.mp finished
  dsimp only at finished
  split at finished
  · cases finished
  next usable =>
    obtain ⟨keys', split, finished⟩ := bind_eq_ok.mp finished
    cases finished
    exact ⟨usable, hs₁, .initiator (okOr_eq_ok read), split⟩

end Handshake

end Nebula
