import Nebula.Rust.Net

/-! # Errors of the protocol crate

`Error` has the constructors the modelled functions return, with the data and the texts the source
gives them.
-/

namespace Nebula

open Rust

/-- `error.rs`. What the Noise and protobuf crates report is opaque to every caller. -/
inductive Error where
  | headerTooShort (need got : ℕ)
  | der (message : String)
  | certExpired
  | certSignatureInvalid
  | certUnsupportedCurve
  | certUntrusted
  | certNoNetworks
  | replayedPacket
  | decryptFailed
  | noise
  | protobufDecode
  | handshakeFailed (message : String)
  | handshakeInvalidRemoteIndex
  | peerUnreachable (addr : IpAddr)
  | timeout (message : String)
deriving DecidableEq, Repr

/-- `Result<T, Error>` of the protocol crate. -/
abbrev Res := Fallible Error

end Nebula
