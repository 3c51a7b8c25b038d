import Nebula.Protocol.Error

/-! # The fixed 16-byte packet header

Four bits of version and of type, a subtype byte, two reserved bytes, the receiver's index and the
message counter, all big-endian.
-/

namespace Nebula

open Rust

structure Header where
  version : UInt8
  type_ : UInt8
  subtype : UInt8
  remoteIndex : UInt32
  messageCounter : UInt64
deriving DecidableEq, Repr

namespace Header

/-- `header::LEN`. -/
abbrev len : ℕ := 16

/-- `header::VERSION`. -/
abbrev currentVersion : UInt8 := 1

/-- `message_type`, the ones a session sends or dispatches on. -/
abbrev handshake : UInt8 := 0
abbrev message : UInt8 := 1
abbrev lighthouse : UInt8 := 3

/-- `handshake_subtype::IX_PSK0`. -/
abbrev ixPsk0 : UInt8 := 0

def encode (h : Header) : Bytes :=
  [(h.version <<< 4) ||| (h.type_ &&& 0x0f), h.subtype, 0, 0] ++ beBytes 4 h.remoteIndex.toNat ++
    beBytes 8 h.messageCounter.toNat

def parse (b : Bytes) : Res Header :=
  if b.length < len then .error (.err (.headerTooShort len b.length))
  else do
    let first ← orUnwind (index b 0)
    let subtype ← orUnwind (index b 1)
    let remoteIndex ← orUnwind (slice b 4 8)
    let messageCounter ← orUnwind (slice b 8 16)
    return {
      version := (first >>> 4) &&& 0x0f
      type_ := first &&& 0x0f
      subtype
      remoteIndex := UInt32.ofNat (beNat remoteIndex)
      messageCounter := UInt64.ofNat (beNat messageCounter) }

@[simp] theorem length_encode (h : Header) : h.encode.length = len := by
  simp only [encode, len, List.length_append, length_beBytes, List.length_cons, List.length_nil]

/-- Both nibbles of the first byte can be read back. -/
theorem nibbles {version type_ : UInt8} (versionFits : version < 16) (typeFits : type_ < 16) :
    (((version <<< 4) ||| (type_ &&& 0x0f)) >>> 4) &&& 0x0f = version ∧
      ((version <<< 4) ||| (type_ &&& 0x0f)) &&& 0x0f = type_ := by
  have all : ∀ high low : Fin 16,
      (((UInt8.ofNat high <<< 4) ||| (UInt8.ofNat low &&& 0x0f)) >>> 4) &&& 0x0f = UInt8.ofNat high ∧
        ((UInt8.ofNat high <<< 4) ||| (UInt8.ofNat low &&& 0x0f)) &&& 0x0f = UInt8.ofNat low := by decide
  simpa using all ⟨version.toNat, versionFits⟩ ⟨type_.toNat, typeFits⟩

/-- A header whose version and type fit their nibbles is read back from the front of a packet. -/
theorem parse_encode (h : Header) (versionFits : h.version < 16) (typeFits : h.type_ < 16) (body : Bytes) :
    parse (h.encode ++ body) = .ok h := by
  obtain ⟨version, type_⟩ := nibbles versionFits typeFits
  have remoteIndex : slice (h.encode ++ body) 4 8 = .ok (beBytes 4 h.remoteIndex.toNat) := by
    have split : h.encode ++ body = [(h.version <<< 4) ||| (h.type_ &&& 0x0f), h.subtype, 0, 0] ++
        (beBytes 4 h.remoteIndex.toNat ++ (beBytes 8 h.messageCounter.toNat ++ body)) := by simp [encode]
    rw [split]
    exact slice_middle rfl (by simp)
  have messageCounter : slice (h.encode ++ body) 8 16 = .ok (beBytes 8 h.messageCounter.toNat) := by
    unfold encode
    rw [List.append_assoc]
    exact slice_middle (by simp) (by simp)
  have long : ¬ (h.encode ++ body).length < len := by
    rw [List.length_append, length_encode]
    omega
  have indexFits : h.remoteIndex.toNat < 256 ^ 4 := h.remoteIndex.toNat_lt
  have counterFits : h.messageCounter.toNat < 256 ^ 8 := h.messageCounter.toNat_lt
  rw [parse, if_neg long, remoteIndex, messageCounter]
  change Except.ok _ = _
  rw [version, type_, beNat_beBytes _ _ indexFits, beNat_beBytes _ _ counterFits, UInt32.ofNat_toNat,
    UInt64.ofNat_toNat]

end Header

end Nebula
