import Nebula.Protocol.Error
import Nebula.Rust.BitWords
import Mathlib.Logic.Function.Iterate

/-! # Steady-state packet encryption

`ReplayWindow` is the 1024-entry sliding window and `Transport` the pair of split keys with the
outbound counter. The AEAD crates are the parameter `Aead`: arbitrary functions of the cipher, key,
nonce, associated data and message. An offset into the window is below `windowSize` by its type, so
that every word index is in bounds; nothing else about `check_and_update` is simplified.
-/

namespace Nebula

open Rust

/-- `WINDOW_SIZE`. -/
abbrev windowSize : ℕ := 1024

structure ReplayWindow where
  current : UInt64
  /-- 1024 bits, sixteen words. -/
  seen : Arr UInt64 16
deriving DecidableEq, Repr

namespace ReplayWindow

def new : ReplayWindow := ⟨0, .replicate 16 0⟩

def wordBit (offset : Fin windowSize) : Fin 16 × Fin 64 :=
  (⟨offset / 64, by have : offset.val < 1024 := offset.isLt; omega⟩, ⟨offset % 64, by omega⟩)

def mark (w : ReplayWindow) (offset : Fin windowSize) : ReplayWindow :=
  let (word, bit) := wordBit offset
  { w with seen := w.seen.set word (w.seen.get word ||| 1 <<< UInt64.ofNat bit) }

def isMarked (w : ReplayWindow) (offset : Fin windowSize) : Bool :=
  let (word, bit) := wordBit offset
  w.seen.get word &&& 1 <<< UInt64.ofNat bit != 0

/-- One round of `shift_left`: the inner loop over the words with its carry. -/
def shiftOnce (w : ReplayWindow) : ReplayWindow :=
  { w with seen := ⟨BitWords.shiftWords 0 w.seen.items, by rw [BitWords.length_shiftWords, w.seen.size]⟩ }

def shiftLeft (w : ReplayWindow) (n : ℕ) : ReplayWindow := shiftOnce^[n] w

def checkAndUpdate (w : ReplayWindow) (counter : UInt64) : ReplayWindow × Bool :=
  if w.current < counter then
    let shift := (counter - w.current).toNat
    let shifted := if windowSize ≤ shift then { w with seen := .replicate 16 0 } else w.shiftLeft shift
    (({ shifted with current := counter } : ReplayWindow).mark 0, true)
  else
    let diff := (w.current - counter).toNat
    if inside : diff < windowSize then
      if w.isMarked ⟨diff, inside⟩ then (w, false) else (w.mark ⟨diff, inside⟩, true)
    else (w, false)

end ReplayWindow

/-- `handshake::Cipher`. -/
inductive Cipher where
  | aesGcm
  | chaChaPoly
deriving DecidableEq, Repr

abbrev Key := Arr UInt8 32

/-- The `aes-gcm` and `chacha20poly1305` crates: key, nonce, associated data, message. -/
structure Aead where
  encrypt : Cipher → Key → (nonce aad plaintext : Bytes) → Option Bytes
  decrypt : Cipher → Key → (nonce aad ciphertext : Bytes) → Option Bytes

structure CipherImpl where
  cipher : Cipher
  key : Key
deriving DecidableEq, Repr

namespace CipherImpl

/-- Four zero bytes and the counter, big-endian for AES-GCM and little-endian for ChaChaPoly. -/
def nonce (c : CipherImpl) (counter : UInt64) : Bytes :=
  List.replicate 4 0 ++
    match c.cipher with
    | .aesGcm => beBytes 8 counter.toNat
    | .chaChaPoly => (beBytes 8 counter.toNat).reverse

def encrypt (aead : Aead) (c : CipherImpl) (counter : UInt64) (aad plaintext : Bytes) : Res Bytes :=
  okOr .decryptFailed (aead.encrypt c.cipher c.key (c.nonce counter) aad plaintext)

def decrypt (aead : Aead) (c : CipherImpl) (counter : UInt64) (aad ciphertext : Bytes) : Res Bytes :=
  okOr .decryptFailed (aead.decrypt c.cipher c.key (c.nonce counter) aad ciphertext)

end CipherImpl

structure Transport where
  sendCipher : CipherImpl
  recvCipher : CipherImpl
  sendCounter : UInt64
  replay : ReplayWindow
deriving DecidableEq, Repr

/-- `out[..bytes.len()].copy_from_slice(bytes)`, the length with the buffer's new contents. -/
def copyOut (out bytes : Bytes) : Res (ℕ × Bytes) :=
  if bytes.length ≤ out.length then .ok (bytes.length, bytes ++ out.drop bytes.length)
  else .error (.panic .indexOutOfBounds)

theorem take_copyOut {out bytes copied : Bytes} {len : ℕ} (ok : copyOut out bytes = .ok (len, copied)) :
    copied.take len = bytes := by
  unfold copyOut at ok
  split at ok
  · cases ok
    exact List.take_left
  · cases ok

namespace Transport

def new (cipher : Cipher) (sendKey recvKey : Key) : Transport where
  sendCipher := ⟨cipher, sendKey⟩
  recvCipher := ⟨cipher, recvKey⟩
  sendCounter := 2
  replay := .new

def nextCounter (t : Transport) : Transport × UInt64 :=
  let counter := t.sendCounter + 1
  ({ t with sendCounter := counter }, counter)

def encrypt (aead : Aead) (t : Transport) (counter : UInt64) (aad plaintext out : Bytes) :
    Res (ℕ × Bytes) := do
  let ciphertext ← t.sendCipher.encrypt aead counter aad plaintext
  copyOut out ciphertext

/-- The window is updated before the packet is authenticated, as in the source. -/
def decrypt (aead : Aead) (t : Transport) (counter : UInt64) (aad ciphertext out : Bytes) :
    Transport × Res (ℕ × Bytes) :=
  let (replay, accepted) := t.replay.checkAndUpdate counter
  let t := { t with replay }
  if !accepted then (t, .error (.err .replayedPacket))
  else (t, do
    let plaintext ← t.recvCipher.decrypt aead counter aad ciphertext
    copyOut out plaintext)

end Transport

end Nebula
