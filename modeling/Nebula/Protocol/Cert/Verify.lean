import Nebula.Protocol.Cert.Der

/-! # Trusting a certificate

`verify_host_cert` against the one configured authority. Ed25519 and SHA-256 are parameters: whether a
32-byte string is a verifying key, whether a signature fits a message, and the digest of a message.
-/

namespace Nebula

open Rust

/-- The `ed25519-dalek` and `sha2` crates. -/
structure CertCrypto where
  isVerifyingKey : Arr UInt8 32 → Bool
  verify : (key : Arr UInt8 32) → (message : Bytes) → (signature : Arr UInt8 64) → Bool
  sha256 : Bytes → Arr UInt8 32

/-- `hex::encode`. -/
def hexEncode (b : Bytes) : String :=
  String.ofList (b.flatMap fun byte => [Nat.digitChar (byte.toNat / 16), Nat.digitChar (byte.toNat % 16)])

/-- `slice.try_into()` into an array, with the error that stands for another length. -/
def tryIntoArr (n : ℕ) (error : Error) (b : Bytes) : Res (Arr UInt8 n) :=
  if size : b.length = n then .ok ⟨b, size⟩ else .error (.err error)

namespace Certificate

def checkSignature (crypto : CertCrypto) (c : Certificate) (signerPublicKey : Bytes) : Res Unit :=
  if c.curve ≠ .curve25519 then .error (.err .certUnsupportedCurve)
  else do
    let key ← tryIntoArr 32 .certSignatureInvalid signerPublicKey
    if !crypto.isVerifyingKey key then throw (.err .certSignatureInvalid)
    let signature ← tryIntoArr 64 .certSignatureInvalid c.signature
    if !crypto.verify key c.signingBytes signature then throw (.err .certSignatureInvalid)

def fingerprint (crypto : CertCrypto) (c : Certificate) : String :=
  hexEncode (crypto.sha256 (c.signingBytes ++ c.signature)).items

def isExpired (c : Certificate) (nowUnix : Int64) : Bool :=
  nowUnix < c.details.notBefore || c.details.notAfter < nowUnix

end Certificate

def verifyHostCert (crypto : CertCrypto) (cert ca : Certificate) (nowUnix : Int64) : Res Unit :=
  if cert.details.isCa || !ca.details.isCa then .error (.err .certSignatureInvalid)
  else if ca.isExpired nowUnix || cert.isExpired nowUnix then .error (.err .certExpired)
  else if hexEncode cert.details.issuer ≠ ca.fingerprint crypto then .error (.err .certUntrusted)
  else do
    cert.checkSignature crypto ca.publicKey
    if cert.details.networks.isEmpty then throw (.err .certNoNetworks)

/-- A certificate that was trusted once is trusted whenever neither it nor its authority has expired. -/
theorem verifyHostCert_later {crypto : CertCrypto} {cert ca : Certificate} {nowUnix : Int64}
    (verified : verifyHostCert crypto cert ca nowUnix = .ok ()) {later : Int64}
    (caValid : ca.isExpired later = false) (valid : cert.isExpired later = false) :
    verifyHostCert crypto cert ca later = .ok () := by
  unfold verifyHostCert at verified ⊢
  split at verified
  · cases verified
  next kind =>
    rw [if_neg kind, if_neg (by simp [caValid, valid])]
    split at verified
    · cases verified
    · exact verified

end Nebula
