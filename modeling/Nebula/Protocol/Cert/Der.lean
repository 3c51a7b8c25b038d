import Nebula.Protocol.Error
import Nebula.Rust.Loop

/-! # The DER codec of version 2 certificates

`Reader` is a cursor over a byte string; a read returns what it found with the cursor behind it. A
`usize` has 64 bits, so a checked sum fails at `2 ^ 64`. The repeated elements of a field are read by a
loop that moves the cursor forward at every turn.
-/

namespace Nebula

open Rust

/-- `a.checked_add(b)` in `usize`. -/
def checkedAdd (a b : ℕ) : Option ℕ := if a + b < 2 ^ 64 then some (a + b) else none

/-- A byte as `{:#x}` prints it. -/
def hexTag (byte : UInt8) : String := "0x" ++ String.ofList (Nat.toDigits 16 byte.toNat)

namespace Tag

abbrev certDetails : UInt8 := 0xA0
abbrev certCurve : UInt8 := 0x81
abbrev certPublicKey : UInt8 := 0x82
abbrev certSignature : UInt8 := 0x83
abbrev detailsName : UInt8 := 0x80
abbrev detailsNetworks : UInt8 := 0xA1
abbrev detailsUnsafeNetworks : UInt8 := 0xA2
abbrev detailsGroups : UInt8 := 0xA3
abbrev detailsIsCa : UInt8 := 0x84
abbrev detailsNotBefore : UInt8 := 0x85
abbrev detailsNotAfter : UInt8 := 0x86
abbrev detailsIssuer : UInt8 := 0x87
abbrev octetString : UInt8 := 0x04
abbrev utf8String : UInt8 := 0x0C
abbrev sequence : UInt8 := 0x30

end Tag

/-! ## Writing -/

def writeLength (len : ℕ) : Bytes :=
  if len < 0x80 then [UInt8.ofNat len]
  else
    let significant := (beBytes 8 len).dropWhile (· = 0)
    (0x80 ||| UInt8.ofNat significant.length) :: significant

def writeTlv (tag : UInt8) (content : Bytes) : Bytes := tag :: (writeLength content.length ++ content)

/-- The loop of `encode_der_int`: drop a leading zero byte while the next byte has no sign bit. -/
def trimSign : Bytes → Bytes
  | 0 :: next :: rest => if next &&& 0x80 = 0 then trimSign (next :: rest) else 0 :: next :: rest
  | bytes => bytes

def encodeDerInt (v : Int64) : Bytes := trimSign (beBytes 8 v.toUInt64.toNat)

/-! ## Reading -/

structure Reader where
  data : Bytes
  pos : ℕ
deriving DecidableEq, Repr

namespace Reader

def new (data : Bytes) : Reader := ⟨data, 0⟩

def isEmpty (r : Reader) : Bool := r.data.length ≤ r.pos

def peekTag (r : Reader) : Option UInt8 := r.data[r.pos]?

def readLength (r : Reader) : Res (ℕ × Reader) := do
  let first ← okOr (.der "truncated length") r.data[r.pos]?
  let r := { r with pos := ← orUnwind (usizeAdd r.pos 1) }
  if first &&& 0x80 = 0 then return (first.toNat, r)
  let numBytes := (first &&& 0x7f).toNat
  if numBytes = 0 ∨ 8 < numBytes then throw (.err (.der "unsupported length encoding"))
  let stop ← okOr (.der "length overflow") (checkedAdd r.pos numBytes)
  let part ← okOr (.der "truncated length") (getSlice r.data r.pos stop)
  let buf ← orUnwind (copyIntoFrom (List.replicate 8 0) (← orUnwind (usizeSub 8 numBytes)) part)
  return (beNat buf, { r with pos := stop })

/-- Read a TLV whose tag must be `expectedTag` and return its content. -/
def readTlv (r : Reader) (expectedTag : UInt8) : Res (Bytes × Reader) := do
  let tag ← okOr (.der "truncated tag") r.data[r.pos]?
  if tag ≠ expectedTag then
    throw (.err (.der ("expected tag " ++ hexTag expectedTag ++ ", got " ++ hexTag tag)))
  let r := { r with pos := ← orUnwind (usizeAdd r.pos 1) }
  let (len, r) ← r.readLength
  let stop ← okOr (.der "length overflow") (checkedAdd r.pos len)
  let content ← okOr (.der "truncated content") (getSlice r.data r.pos stop)
  return (content, { r with pos := stop })

/-- Like `readTlv`, with the tag and the length in front of the content. -/
def readTlvRaw (r : Reader) (expectedTag : UInt8) : Res (Bytes × Reader) := do
  let (_, r') ← r.readTlv expectedTag
  return (← orUnwind (slice r'.data r.pos r'.pos), r')

/-- Read a TLV only if the next tag is `expectedTag`. -/
def readTlvOpt (r : Reader) (expectedTag : UInt8) : Res (Option Bytes × Reader) :=
  if r.peekTag = some expectedTag then do
    let (content, r) ← r.readTlv expectedTag
    return (some content, r)
  else .ok (none, r)

theorem checkedAdd_eq_some {a b sum : ℕ} (fits : checkedAdd a b = some sum) : sum = a + b := by
  unfold checkedAdd at fits
  split at fits
  · exact (Option.some.inj fits).symm
  · cases fits

theorem readLength_step {r r' : Reader} {len : ℕ} (read : r.readLength = .ok (len, r')) :
    r'.data = r.data ∧ r.pos < r'.pos := by
  obtain ⟨first, -, read⟩ := bind_eq_ok.mp read
  obtain ⟨behind, stepped, read⟩ := bind_eq_ok.mp read
  obtain ⟨rfl, -⟩ := usizeAdd_eq_ok_iff.mp (orUnwind_eq_ok stepped)
  dsimp only at read
  split at read
  · cases read
    exact ⟨rfl, Nat.lt_succ_self _⟩
  · split at read
    · cases read
    · obtain ⟨stop, sum, read⟩ := bind_eq_ok.mp read
      obtain ⟨part, -, read⟩ := bind_eq_ok.mp read
      obtain ⟨start, -, read⟩ := bind_eq_ok.mp read
      obtain ⟨buf, -, read⟩ := bind_eq_ok.mp read
      cases read
      have stop_eq := checkedAdd_eq_some (okOr_eq_ok sum)
      refine ⟨rfl, ?_⟩
      change r.pos < stop
      change stop = r.pos + 1 + _ at stop_eq
      omega

/-- A TLV is read from the same bytes, and its tag and its length at least are behind the cursor. -/
theorem readTlv_step {r r' : Reader} {tag : UInt8} {content : Bytes}
    (read : r.readTlv tag = .ok (content, r')) :
    r'.data = r.data ∧ r.pos + 2 ≤ r'.pos := by
  obtain ⟨found, -, read⟩ := bind_eq_ok.mp read
  dsimp only at read
  split at read
  · cases read
  · obtain ⟨behind, stepped, read⟩ := bind_eq_ok.mp read
    obtain ⟨rfl, -⟩ := usizeAdd_eq_ok_iff.mp (orUnwind_eq_ok stepped)
    obtain ⟨⟨len, behind⟩, length, read⟩ := bind_eq_ok.mp read
    obtain ⟨stop, sum, read⟩ := bind_eq_ok.mp read
    obtain ⟨part, -, read⟩ := bind_eq_ok.mp read
    cases read
    obtain ⟨same, forward⟩ := readLength_step length
    have stop_eq : stop = behind.pos + len := checkedAdd_eq_some (okOr_eq_ok sum)
    refine ⟨same, ?_⟩
    change r.pos + 1 < behind.pos at forward
    change r.pos + 2 ≤ stop
    omega

end Reader

/-- `while !r.is_empty() { items.push(item(r.read_tlv(tag)?)?) }`. -/
def readItems {α : Type} (tag : UInt8) (item : Bytes → Res α) : Loop (Reader × List α) (Res (List α)) where
  body := fun (r, items) =>
    if r.isEmpty then .done (.ok items)
    else
      match r.readTlv tag with
      | .error failure => .done (.error failure)
      | .ok (content, r) =>
        match item content with
        | .error failure => .done (.error failure)
        | .ok value => .next (r, items ++ [value])
  rank := fun (r, _) => r.data.length - r.pos
  descends {s t} turn := by
    obtain ⟨r, items⟩ := s
    dsimp only at turn
    split at turn
    · cases turn
    next more =>
      split at turn
      · cases turn
      next content r' read =>
        split at turn
        · cases turn
        · cases turn
          obtain ⟨same, forward⟩ := Reader.readTlv_step read
          simp only [Reader.isEmpty, decide_eq_true_eq] at more
          simp only [same]
          omega

section Items

variable {α : Type} {itemTag : UInt8} {item : Bytes → Res α}

/-- The loop stops at the end of the items and nowhere else. -/
theorem readItems_left {r : Reader} {items values : List α}
    (left : (readItems itemTag item).body (r, items) = .done (.ok values)) : r.isEmpty = true ∧ items = values := by
  simp only [readItems] at left
  split at left
  · next empty =>
    cases left
    exact ⟨empty, rfl⟩
  · split at left
    · cases left
    · split at left <;> cases left

/-- A turn of the loop reads one item. -/
theorem readItems_turn_iff {r r' : Reader} {items next : List α} :
    (readItems itemTag item).body (r, items) = .next (r', next) ↔ r.isEmpty = false ∧
      ∃ content value, r.readTlv itemTag = .ok (content, r') ∧ item content = .ok value ∧ next = items ++ [value] := by
  constructor
  · intro turn
    simp only [readItems] at turn
    split at turn
    · cases turn
    next more =>
      split at turn
      · cases turn
      next content r'' tlv =>
        split at turn
        · cases turn
        next value read =>
          cases turn
          exact ⟨eq_false_of_ne_true more, content, value, tlv, read, rfl⟩
  · rintro ⟨more, content, value, tlv, read, rfl⟩
    simp only [readItems, more, tlv, read, Bool.false_eq_true, if_false]

end Items

/-- `i64::from_be_bytes` of the bytes extended by their sign. -/
def decodeDerInt (b : Bytes) : Res Int64 :=
  if b.isEmpty ∨ 8 < b.length then .error (.err (.der "invalid integer length"))
  else do
    let first ← orUnwind (index b 0)
    let sign : UInt8 := if first &&& 0x80 ≠ 0 then 0xff else 0
    let buf ← orUnwind (copyIntoFrom (List.replicate 8 sign) (← orUnwind (usizeSub 8 b.length)) b)
    return (UInt64.ofNat (beNat buf)).toInt64

/-- `String::from_utf8`. -/
def stringFromUtf8 (error : Error) (b : Bytes) : Res String := okOr error (String.fromUTF8? b.toByteArray)

/-! ## Certificates -/

inductive Curve where
  | curve25519
  | p256
deriving DecidableEq, Repr

namespace Curve

def fromByte : UInt8 → Res Curve
  | 0 => .ok .curve25519
  | 1 => .ok .p256
  | b => .error (.err (.der ("unknown curve " ++ toString b.toNat)))

def toByte : Curve → UInt8
  | .curve25519 => 0
  | .p256 => 1

end Curve

structure Network where
  addr : IpAddr
  prefixLen : UInt8
deriving DecidableEq, Repr

namespace Network

def decode (b : Bytes) : Res Network :=
  if b.length = 5 then do
    let addr : Ipv4Addr := .new (← orUnwind (index b 0)) (← orUnwind (index b 1)) (← orUnwind (index b 2))
      (← orUnwind (index b 3))
    return ⟨.v4 addr, ← orUnwind (index b 4)⟩
  else if b.length = 17 then do
    let octets ← orUnwind (Arr.copyFromSlice 16 (← orUnwind (slice b 0 16)))
    return ⟨.v6 octets, ← orUnwind (index b 16)⟩
  else .error (.err (.der ("invalid network length " ++ toString b.length)))

def encode (n : Network) : Bytes := n.addr.octets ++ [n.prefixLen]

end Network

structure Details where
  name : String
  networks : List Network
  unsafeNetworks : List Network
  groups : List String
  isCa : Bool
  notBefore : Int64
  notAfter : Int64
  issuer : Bytes
deriving DecidableEq, Repr

/-- `s.as_bytes()`. -/
def asBytes (s : String) : Bytes := s.toByteArray.toList

/-- A field that holds its items one TLV after another, left out if there are none. -/
def writeItems (tag itemTag : UInt8) (items : List Bytes) : Bytes :=
  if items.isEmpty then [] else writeTlv tag (items.flatMap (writeTlv itemTag))

def encodeDetails (d : Details) : Bytes :=
  writeTlv Tag.certDetails
    (writeTlv Tag.detailsName (asBytes d.name) ++
      writeItems Tag.detailsNetworks Tag.octetString (d.networks.map Network.encode) ++
      writeItems Tag.detailsUnsafeNetworks Tag.octetString (d.unsafeNetworks.map Network.encode) ++
      writeItems Tag.detailsGroups Tag.utf8String (d.groups.map asBytes) ++
      (if d.isCa then writeTlv Tag.detailsIsCa [0xff] else []) ++
      writeTlv Tag.detailsNotBefore (encodeDerInt d.notBefore) ++
      writeTlv Tag.detailsNotAfter (encodeDerInt d.notAfter) ++
      if d.issuer.isEmpty then [] else writeTlv Tag.detailsIssuer d.issuer)

/-- The items of an optional field, none if the field is missing. -/
def readField {α : Type} (r : Reader) (tag itemTag : UInt8) (item : Bytes → Res α) :
    Res (List α × Reader) := do
  match ← r.readTlvOpt tag with
  | (none, r) => return ([], r)
  | (some content, r) => return (← (readItems itemTag item).run (.new content, []), r)

def decodeDetails (rawTlv : Bytes) : Res Details := do
  let (innerBytes, _) ← (Reader.new rawTlv).readTlv Tag.certDetails
  let (nameBytes, r) ← (Reader.new innerBytes).readTlv Tag.detailsName
  let name ← stringFromUtf8 (.der "name is not valid utf-8") nameBytes
  let (networks, r) ← readField r Tag.detailsNetworks Tag.octetString Network.decode
  let (unsafeNetworks, r) ← readField r Tag.detailsUnsafeNetworks Tag.octetString Network.decode
  let (groups, r) ← readField r Tag.detailsGroups Tag.utf8String
    (stringFromUtf8 (.der "group is not valid utf-8"))
  let (isCa, r) ← r.readTlvOpt Tag.detailsIsCa
  let (notBefore, r) ← r.readTlv Tag.detailsNotBefore
  let notBefore ← decodeDerInt notBefore
  let (notAfter, r) ← r.readTlv Tag.detailsNotAfter
  let notAfter ← decodeDerInt notAfter
  let (issuer, _) ← r.readTlvOpt Tag.detailsIssuer
  return {
    name, networks, unsafeNetworks, groups, isCa := isCa.isSome, notBefore, notAfter
    issuer := issuer.getD [] }

structure Certificate where
  details : Details
  /-- The whole details TLV as it was read: the bytes the signature covers. -/
  rawDetails : Bytes
  curve : Curve
  publicKey : Bytes
  signature : Bytes
deriving DecidableEq, Repr

namespace Certificate

def decodeCurve : Option Bytes → Res Curve
  | some b =>
    if b.length = 1 then do Curve.fromByte (← orUnwind (index b 0))
    else .error (.err (.der "invalid curve encoding"))
  | none => .ok .curve25519

def decode (derBytes : Bytes) : Res Certificate := do
  let (envelope, _) ← (Reader.new derBytes).readTlv Tag.sequence
  let (rawDetails, r) ← (Reader.new envelope).readTlvRaw Tag.certDetails
  let details ← decodeDetails rawDetails
  let (curve, r) ← r.readTlvOpt Tag.certCurve
  let curve ← decodeCurve curve
  let (publicKey, r) ← r.readTlv Tag.certPublicKey
  let (signature, _) ← r.readTlv Tag.certSignature
  return { details, rawDetails, curve, publicKey, signature }

def encode (c : Certificate) : Bytes :=
  writeTlv Tag.sequence
    (c.rawDetails ++ (if c.curve ≠ .curve25519 then writeTlv Tag.certCurve [c.curve.toByte] else []) ++
      writeTlv Tag.certPublicKey c.publicKey ++ writeTlv Tag.certSignature c.signature)

/-- The bytes the signature of the authority covers. -/
def signingBytes (c : Certificate) : Bytes := c.rawDetails ++ [c.curve.toByte] ++ c.publicKey

/-- The encoding inside a handshake, without the curve and the key that the handshake itself conveys. -/
def encodeForHandshake (c : Certificate) : Bytes :=
  writeTlv Tag.sequence (c.rawDetails ++ writeTlv Tag.certSignature c.signature)

/-- A certificate from its handshake encoding and the peer's Noise static key. -/
def recombine (handshakeBytes peerPublicKey : Bytes) (curve : Curve) : Res Certificate := do
  let (envelope, _) ← (Reader.new handshakeBytes).readTlv Tag.sequence
  let (rawDetails, r) ← (Reader.new envelope).readTlvRaw Tag.certDetails
  let details ← decodeDetails rawDetails
  let (signature, _) ← r.readTlv Tag.certSignature
  return { details, rawDetails, curve, publicKey := peerPublicKey, signature }

theorem publicKey_recombine {handshakeBytes peerPublicKey : Bytes} {curve : Curve} {cert : Certificate}
    (read : recombine handshakeBytes peerPublicKey curve = .ok cert) : cert.publicKey = peerPublicKey := by
  obtain ⟨⟨envelope, _⟩, -, read⟩ := bind_eq_ok.mp read
  obtain ⟨⟨rawDetails, r⟩, -, read⟩ := bind_eq_ok.mp read
  obtain ⟨details, -, read⟩ := bind_eq_ok.mp read
  obtain ⟨⟨signature, _⟩, -, read⟩ := bind_eq_ok.mp read
  cases read
  rfl

/-- The key and the curve that a certificate is recombined with affect nothing else of it. -/
theorem recombine_rekey {handshakeBytes key : Bytes} {curve : Curve} {cert : Certificate}
    (recombined : recombine handshakeBytes key curve = .ok cert) (key' : Bytes) (curve' : Curve) :
    recombine handshakeBytes key' curve' = .ok { cert with publicKey := key', curve := curve' } := by
  obtain ⟨⟨envelope, r₀⟩, top, read⟩ := bind_eq_ok.mp recombined
  obtain ⟨⟨rawDetails, r⟩, raw, read⟩ := bind_eq_ok.mp read
  obtain ⟨details, decoded, read⟩ := bind_eq_ok.mp read
  obtain ⟨⟨signature, r₁⟩, signed, read⟩ := bind_eq_ok.mp read
  cases read
  exact bind_eq_ok.mpr ⟨(envelope, r₀), top, bind_eq_ok.mpr ⟨(rawDetails, r), raw,
    bind_eq_ok.mpr ⟨details, decoded, bind_eq_ok.mpr ⟨(signature, r₁), signed, rfl⟩⟩⟩⟩

end Certificate

end Nebula
