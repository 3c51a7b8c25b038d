import Nebula.Protocol.Cert.Tlv
import Nebula.Protocol.Cert.Verify

/-! # Certificates and their encodings

`decode` and `recombine` accept exactly the byte strings described by `Spells` and `SpellsReduced`. The
signed bytes begin with the details as they were read, a TLV that no other extends, so they determine
what is signed. Writing what was read gives a string no longer than the one it was read from, which
reads back as the same certificate.
-/

namespace Nebula

open Rust

namespace Certificate

/-! ## What the decoders accept -/

/-- The curve field, left out for the default. -/
inductive CurveField (curve : Curve) : Bytes → Prop
  | default (is_default : curve = .curve25519) : CurveField curve []
  | given (raw : Bytes) (field : IsTlv Tag.certCurve [curve.toByte] raw) : CurveField curve raw

/-- The byte string encodes the certificate, with anything behind the envelope and behind the signature. -/
inductive Spells (c : Certificate) : Bytes → Prop
  | mk (top behind envelope inner curve key signature trailing : Bytes)
    (sequence : IsTlv Tag.sequence envelope top) (fits : top.length < 2 ^ 64)
    (parts : envelope = c.rawDetails ++ (curve ++ (key ++ (signature ++ trailing))))
    (details : IsTlv Tag.certDetails inner c.rawDetails) (decoded : decodeDetails c.rawDetails = .ok c.details)
    (curve_field : CurveField c.curve curve) (key_field : IsTlv Tag.certPublicKey c.publicKey key)
    (signature_field : IsTlv Tag.certSignature c.signature signature) :
    Spells c (top ++ behind)

/-- The byte string is the handshake encoding of the certificate, which leaves out the curve and the key. -/
inductive SpellsReduced (c : Certificate) : Bytes → Prop
  | mk (top behind envelope inner signature trailing : Bytes)
    (sequence : IsTlv Tag.sequence envelope top) (fits : top.length < 2 ^ 64)
    (parts : envelope = c.rawDetails ++ (signature ++ trailing))
    (details : IsTlv Tag.certDetails inner c.rawDetails) (decoded : decodeDetails c.rawDetails = .ok c.details)
    (signature_field : IsTlv Tag.certSignature c.signature signature) :
    SpellsReduced c (top ++ behind)

theorem fromByte_toByte (curve : Curve) : Curve.fromByte curve.toByte = .ok curve := by
  cases curve <;> rfl

theorem toByte_of_fromByte {byte : UInt8} {curve : Curve} (read : Curve.fromByte byte = .ok curve) :
    curve.toByte = byte := by
  unfold Curve.fromByte at read
  split at read
  · cases read
    rfl
  · cases read
    rfl
  · cases read

/-- A curve field holds the byte of the curve. -/
theorem decodeCurve_some_iff {content : Bytes} {curve : Curve} :
    decodeCurve (some content) = .ok curve ↔ content = [curve.toByte] := by
  constructor
  · intro read
    simp only [decodeCurve] at read
    split at read
    · next one =>
      obtain ⟨byte, rfl⟩ := List.length_eq_one_iff.mp one
      rw [toByte_of_fromByte read]
    · cases read
  · rintro rfl
    exact fromByte_toByte curve

/-- The curve is read if and only if its field stands at the cursor, or another field does. -/
theorem readCurve_iff {front rest : Bytes} {curve : Curve} {r' : Reader} :
    (∃ found, (Reader.past front rest).readTlvOpt Tag.certCurve = .ok (found, r') ∧
        decodeCurve found = .ok curve) ↔
      ∃ field behind, rest = field ++ behind ∧ CurveField curve field ∧ r' = .past (front ++ field) behind ∧
        (field ≠ [] → (front ++ field).length < 2 ^ 64) ∧ (field = [] → rest.head? ≠ some Tag.certCurve) := by
  constructor
  · rintro ⟨found, parsed, decoded⟩
    rcases Reader.readTlvOpt_past_iff.mp parsed with ⟨absent, rfl, rfl⟩ | ⟨content, rfl, read⟩
    · cases decoded
      exact ⟨[], rest, rfl, .default rfl, by rw [List.append_nil], fun present => absurd rfl present,
        fun _ => absent⟩
    · obtain ⟨raw, behind, rfl, tlv, rfl, bound⟩ := Reader.readTlv_past_iff.mp read
      obtain rfl := decodeCurve_some_iff.mp decoded
      refine ⟨raw, behind, rfl, .given raw tlv, rfl, fun _ => bound, ?_⟩
      rintro rfl
      cases tlv
  · rintro ⟨field, behind, rfl, field_eq, rfl, bound, absent⟩
    cases field_eq with
    | default is_default =>
      subst is_default
      refine ⟨none, Reader.readTlvOpt_past_iff.mpr (.inl ⟨absent rfl, rfl, ?_⟩), rfl⟩
      rw [List.append_nil, List.nil_append]
    | given _ tlv =>
      refine ⟨some [curve.toByte], Reader.readTlvOpt_past_iff.mpr (.inr ⟨_, rfl, ?_⟩),
        decodeCurve_some_iff.mpr rfl⟩
      refine Reader.readTlv_past_iff.mpr ⟨field, behind, rfl, tlv, rfl, bound ?_⟩
      rintro rfl
      cases tlv

theorem decode_eq_ok_iff {b : Bytes} {c : Certificate} : decode b = .ok c ↔ Spells c b := by
  constructor
  · intro read
    obtain ⟨⟨envelope, _⟩, top_read, parsed⟩ := bind_eq_ok.mp read
    obtain ⟨top, behind, rfl, sequence, -, fits⟩ := Reader.readTlv_new_iff.mp top_read
    obtain ⟨⟨rawDetails, r₁⟩, details_read, parsed⟩ := bind_eq_ok.mp parsed
    obtain ⟨inner, rest, rfl, details, rfl, -⟩ := Reader.readTlvRaw_new_iff.mp details_read
    obtain ⟨decodedDetails, decoded, parsed⟩ := bind_eq_ok.mp parsed
    obtain ⟨⟨found, r₂⟩, curve_read, parsed⟩ := bind_eq_ok.mp parsed
    obtain ⟨curve, curve_decoded, parsed⟩ := bind_eq_ok.mp parsed
    obtain ⟨field, rest, rfl, curve_field, rfl, -, -⟩ := readCurve_iff.mp ⟨found, curve_read, curve_decoded⟩
    obtain ⟨⟨publicKey, r₃⟩, key_read, parsed⟩ := bind_eq_ok.mp parsed
    obtain ⟨key, rest, rfl, key_field, rfl, -⟩ := Reader.readTlv_past_iff.mp key_read
    obtain ⟨⟨signature, r₄⟩, signature_read, parsed⟩ := bind_eq_ok.mp parsed
    obtain ⟨sig, trailing, rfl, signature_field, rfl, -⟩ := Reader.readTlv_past_iff.mp signature_read
    cases parsed
    exact .mk top behind _ inner field key sig trailing sequence fits rfl details decoded curve_field key_field
      signature_field
  · rintro ⟨top, behind, envelope, inner, curve, key, signature, trailing, sequence, fits, rfl, details, decoded,
      curve_field, key_field, signature_field⟩
    -- every cursor inside the envelope stands before the end of the whole TLV
    have inside := sequence.length_content_le
    simp only [List.length_append] at inside
    refine bind_eq_ok.mpr ⟨_, Reader.readTlv_new_iff.mpr ⟨top, behind, rfl, sequence, rfl, fits⟩, ?_⟩
    refine bind_eq_ok.mpr ⟨_, Reader.readTlvRaw_new_iff.mpr ⟨inner, _, rfl, details, rfl, by omega⟩, ?_⟩
    refine bind_eq_ok.mpr ⟨_, decoded, ?_⟩
    have other : (key ++ (signature ++ trailing)).head? ≠ some Tag.certCurve := by
      cases key_field
      simp [Tag.certPublicKey, Tag.certCurve]
    obtain ⟨found, curve_read, curve_decoded⟩ :
        ∃ found, (Reader.past c.rawDetails (curve ++ (key ++ (signature ++ trailing)))).readTlvOpt Tag.certCurve =
          .ok (found, .past (c.rawDetails ++ curve) (key ++ (signature ++ trailing))) ∧
            decodeCurve found = .ok c.curve := by
      refine readCurve_iff.mpr ⟨curve, _, rfl, curve_field, rfl, ?_, ?_⟩
      · intro _
        rw [List.length_append]
        omega
      · rintro rfl
        exact other
    refine bind_eq_ok.mpr ⟨_, curve_read, bind_eq_ok.mpr ⟨_, curve_decoded, ?_⟩⟩
    refine bind_eq_ok.mpr ⟨_, Reader.readTlv_past_iff.mpr ⟨key, _, rfl, key_field, rfl, ?_⟩, ?_⟩
    · simp only [List.length_append]
      omega
    refine bind_eq_ok.mpr ⟨_, Reader.readTlv_past_iff.mpr ⟨signature, _, rfl, signature_field, rfl, ?_⟩, rfl⟩
    simp only [List.length_append]
    omega

theorem recombine_eq_ok_iff {b key : Bytes} {curve : Curve} {c : Certificate} :
    recombine b key curve = .ok c ↔ SpellsReduced c b ∧ c.publicKey = key ∧ c.curve = curve := by
  constructor
  · intro read
    obtain ⟨⟨envelope, _⟩, top_read, parsed⟩ := bind_eq_ok.mp read
    obtain ⟨top, behind, rfl, sequence, -, fits⟩ := Reader.readTlv_new_iff.mp top_read
    obtain ⟨⟨rawDetails, r₁⟩, details_read, parsed⟩ := bind_eq_ok.mp parsed
    obtain ⟨inner, rest, rfl, details, rfl, -⟩ := Reader.readTlvRaw_new_iff.mp details_read
    obtain ⟨decodedDetails, decoded, parsed⟩ := bind_eq_ok.mp parsed
    obtain ⟨⟨signature, r₂⟩, signature_read, parsed⟩ := bind_eq_ok.mp parsed
    obtain ⟨sig, trailing, rfl, signature_field, rfl, -⟩ := Reader.readTlv_past_iff.mp signature_read
    cases parsed
    exact ⟨.mk top behind _ inner sig trailing sequence fits rfl details decoded signature_field, rfl, rfl⟩
  · rintro ⟨⟨top, behind, envelope, inner, signature, trailing, sequence, fits, rfl, details, decoded,
      signature_field⟩, rfl, rfl⟩
    have inside := sequence.length_content_le
    simp only [List.length_append] at inside
    refine bind_eq_ok.mpr ⟨_, Reader.readTlv_new_iff.mpr ⟨top, behind, rfl, sequence, rfl, fits⟩, ?_⟩
    refine bind_eq_ok.mpr ⟨_, Reader.readTlvRaw_new_iff.mpr ⟨inner, _, rfl, details, rfl, by omega⟩, ?_⟩
    refine bind_eq_ok.mpr ⟨_, decoded, ?_⟩
    refine bind_eq_ok.mpr ⟨_, Reader.readTlv_past_iff.mpr ⟨signature, _, rfl, signature_field, rfl, ?_⟩, rfl⟩
    simp only [List.length_append]
    omega

/-! ## What the signed bytes determine -/

/-- The certificate came out of one of the decoders. -/
inductive Obtained (c : Certificate) : Prop
  | decoded (b : Bytes) (read : decode b = .ok c)
  | recombined (b key : Bytes) (curve : Curve) (read : recombine b key curve = .ok c)

/-- The details are one TLV, kept as it was read, and they are what it decodes to. -/
theorem Obtained.details {c : Certificate} (obtained : Obtained c) :
    (∃ inner, IsTlv Tag.certDetails inner c.rawDetails) ∧ decodeDetails c.rawDetails = .ok c.details := by
  cases obtained with
  | decoded b read =>
    cases decode_eq_ok_iff.mp read with
    | mk top behind envelope inner curve key signature trailing sequence fits parts details decoded =>
      exact ⟨⟨inner, details⟩, decoded⟩
  | recombined b key curve read =>
    cases (recombine_eq_ok_iff.mp read).1 with
    | mk top behind envelope inner signature trailing sequence fits parts details decoded =>
      exact ⟨⟨inner, details⟩, decoded⟩

theorem toByte_inj {a b : Curve} (same : a.toByte = b.toByte) : a = b := by
  cases a <;> cases b <;> first | rfl | cases same

/-- The signed bytes determine all that is signed. -/
theorem Obtained.signed_eq {a b : Certificate} (obtained : Obtained a) (obtained' : Obtained b)
    (same : a.signingBytes = b.signingBytes) :
    a.rawDetails = b.rawDetails ∧ a.details = b.details ∧ a.curve = b.curve ∧ a.publicKey = b.publicKey := by
  obtain ⟨⟨inner, tlv⟩, decoded⟩ := obtained.details
  obtain ⟨⟨inner', tlv'⟩, decoded'⟩ := obtained'.details
  unfold signingBytes at same
  rw [List.append_assoc, List.append_assoc] at same
  obtain ⟨raw, -, rest⟩ := tlv.unique tlv' same
  obtain ⟨byte, key⟩ := List.cons.inj rest
  refine ⟨raw, ?_, toByte_inj byte, key⟩
  rw [raw] at decoded
  exact Except.ok.inj (decoded.symm.trans decoded')

/-- Certificates with the same signed bytes agree in all that is signed; with signatures of 64 bytes, those
with the same fingerprint preimage are the same. -/
theorem signingBytes_determine (a b : Certificate) (obtained : Obtained a) (obtained' : Obtained b) :
    (a.signingBytes = b.signingBytes →
      a.rawDetails = b.rawDetails ∧ a.details = b.details ∧ a.curve = b.curve ∧ a.publicKey = b.publicKey) ∧
    (a.signature.length = 64 → b.signature.length = 64 →
      a.signingBytes ++ a.signature = b.signingBytes ++ b.signature → a = b) := by
  refine ⟨obtained.signed_eq obtained', ?_⟩
  intro size size' same
  obtain ⟨signed, signature⟩ := List.append_inj' same (size.trans size'.symm)
  obtain ⟨raw, details, curve, key⟩ := obtained.signed_eq obtained' signed
  cases a
  cases b
  cases raw
  cases details
  cases curve
  cases key
  cases signature
  rfl

/-- Details without a name, whose length takes two bytes where one would do. -/
def lenientDetails : Bytes := [0xA0, 0x81, 8, 0x80, 0, 0x85, 1, 0, 0x86, 1, 1]

def sample (signed : UInt8) : Certificate where
  details := ⟨"", [], [], [], false, 0, 1, []⟩
  rawDetails := lenientDetails
  curve := .curve25519
  publicKey := [7]
  signature := List.replicate 64 signed

/-- The certificate with lengths that are not minimal. -/
def sampleBytes (signed : UInt8) : Bytes :=
  [0x30, 0x81, 0x50] ++ lenientDetails ++ [0x82, 1, 7] ++ [0x83, 0x40] ++ List.replicate 64 signed

/-- The same details signed twice. -/
theorem signed_twice_agree :
    (sample 8).rawDetails = (sample 9).rawDetails ∧ (sample 8).details = (sample 9).details ∧
      (sample 8).curve = (sample 9).curve ∧ (sample 8).publicKey = (sample 9).publicKey :=
  (signingBytes_determine (sample 8) (sample 9) (.decoded (sampleBytes 8) (by decide +kernel))
    (.decoded (sampleBytes 9) (by decide +kernel))).1 rfl

/-! ## Writing and reading back -/

/-- The curve field as `encode` writes it. -/
def curveBytes (curve : Curve) : Bytes := if curve ≠ .curve25519 then writeTlv Tag.certCurve [curve.toByte] else []

theorem curveField_curveBytes (curve : Curve) : CurveField curve (curveBytes curve) := by
  cases curve with
  | curve25519 => exact .default rfl
  | p256 => exact .given _ (isTlv_writeTlv _ (by decide))

theorem length_curveBytes_le {curve : Curve} {field : Bytes} (spelled : CurveField curve field) :
    (curveBytes curve).length ≤ field.length := by
  cases spelled with
  | default is_default =>
    subst is_default
    exact le_refl 0
  | given raw tlv =>
    unfold curveBytes
    split
    · exact tlv.length_writeTlv_le _ (le_refl _)
    · exact Nat.zero_le _

/-- The parts of a certificate as `encode` writes them. -/
def writtenParts (c : Certificate) : Bytes :=
  c.rawDetails ++ (curveBytes c.curve ++ (writeTlv Tag.certPublicKey c.publicKey ++
    (writeTlv Tag.certSignature c.signature ++ [])))

theorem encode_eq (c : Certificate) : c.encode = writeTlv Tag.sequence c.writtenParts ++ [] := by
  simp [encode, writtenParts, curveBytes]

theorem length_writtenParts_le {c : Certificate} {curve key signature : Bytes} (trailing : Bytes)
    (curve_field : CurveField c.curve curve) (key_field : IsTlv Tag.certPublicKey c.publicKey key)
    (signature_field : IsTlv Tag.certSignature c.signature signature) :
    c.writtenParts.length ≤ (c.rawDetails ++ (curve ++ (key ++ (signature ++ trailing)))).length := by
  have curve_le := length_curveBytes_le curve_field
  have key_le := key_field.length_writeTlv_le Tag.certPublicKey (le_refl c.publicKey.length)
  have signature_le := signature_field.length_writeTlv_le Tag.certSignature (le_refl c.signature.length)
  simp only [writtenParts, List.length_append, List.length_nil]
  omega

/-- What was read is written no longer than it was read. -/
theorem spells_encode {b : Bytes} {c : Certificate} (spelled : Spells c b) : Spells c c.encode := by
  cases spelled with
  | mk top behind envelope inner curve key signature trailing sequence fits parts details decoded curve_field
      key_field signature_field =>
    subst parts
    have written := length_writtenParts_le trailing curve_field key_field signature_field
    have shorter := sequence.length_writeTlv_le Tag.sequence written
    rw [encode_eq]
    exact .mk _ [] _ inner _ _ _ [] (isTlv_writeTlv _ (lt_of_le_of_lt written sequence.length_content_lt))
      (lt_of_le_of_lt shorter fits) rfl details decoded (curveField_curveBytes c.curve)
      (isTlv_writeTlv _ key_field.length_content_lt) (isTlv_writeTlv _ signature_field.length_content_lt)

theorem spellsReduced_encodeForHandshake {b : Bytes} {c : Certificate} (spelled : Spells c b) :
    SpellsReduced c c.encodeForHandshake := by
  cases spelled with
  | mk top behind envelope inner curve key signature trailing sequence fits parts details decoded curve_field
      key_field signature_field =>
    subst parts
    have written : (c.rawDetails ++ (writeTlv Tag.certSignature c.signature ++ [])).length ≤
        (c.rawDetails ++ (curve ++ (key ++ (signature ++ trailing)))).length := by
      have signature_le := signature_field.length_writeTlv_le Tag.certSignature (le_refl c.signature.length)
      simp only [List.length_append, List.length_nil]
      omega
    have shorter := sequence.length_writeTlv_le Tag.sequence written
    have encoded : c.encodeForHandshake =
        writeTlv Tag.sequence (c.rawDetails ++ (writeTlv Tag.certSignature c.signature ++ [])) ++ [] := by
      simp [encodeForHandshake]
    rw [encoded]
    exact .mk _ [] _ inner _ [] (isTlv_writeTlv _ (lt_of_le_of_lt written sequence.length_content_lt))
      (lt_of_le_of_lt shorter fits) rfl details decoded (isTlv_writeTlv _ signature_field.length_content_lt)

/-- A certificate that was decoded is recovered from its handshake encoding with its own key and curve. -/
theorem recombine_encodeForHandshake {b : Bytes} {c : Certificate} (read : decode b = .ok c) :
    recombine c.encodeForHandshake c.publicKey c.curve = .ok c :=
  recombine_eq_ok_iff.mpr ⟨spellsReduced_encodeForHandshake (decode_eq_ok_iff.mp read), rfl, rfl⟩

/-- Both encodings of a decoded certificate are inverted, and what a peer recovers from the handshake has the
same signed bytes and the same standing. -/
theorem encodings_inverted (b : Bytes) (c : Certificate) (read : decode b = .ok c) :
    decode c.encode = .ok c ∧ recombine c.encodeForHandshake c.publicKey c.curve = .ok c ∧
      ∀ peer, recombine c.encodeForHandshake c.publicKey c.curve = .ok peer →
        peer.signingBytes = c.signingBytes ∧
          ∀ crypto ca nowUnix, verifyHostCert crypto peer ca nowUnix = verifyHostCert crypto c ca nowUnix := by
  have recombined := recombine_encodeForHandshake read
  refine ⟨decode_eq_ok_iff.mpr (spells_encode (decode_eq_ok_iff.mp read)), recombined, ?_⟩
  intro peer recovered
  obtain rfl := Except.ok.inj (recovered.symm.trans recombined)
  exact ⟨rfl, fun _ _ _ => rfl⟩

/-- The lengths of the details stay as they were, those of the envelope become minimal. -/
theorem lenient_certificate_inverted :
    (sample 8).encode ≠ sampleBytes 8 ∧ decode (sample 8).encode = .ok (sample 8) ∧
      recombine (sample 8).encodeForHandshake [7] .curve25519 = .ok (sample 8) := by
  obtain ⟨decoded, recombined, -⟩ := encodings_inverted (sampleBytes 8) (sample 8) (by decide +kernel)
  exact ⟨by decide, decoded, recombined⟩

end Certificate

end Nebula
