import Nebula.Protocol.Cert.DetailsRoundTrip
import Nebula.Protocol.Cert.RoundTrip

/-! # Which certificates are written as they were read

The decoder checks what it needs to read a certificate and nothing more: nothing asks whether a length or an
integer is the shortest, whether a field could have been left out, or whether anything follows the last
one. So it takes many spellings of one certificate. Exactly the strict one is what `encode` and
`encode_details` give back.
-/

namespace Nebula

open Rust

namespace Certificate

/-- The curve. Strictly, it is missing if it is the default. -/
inductive CurveSpelled (strict : Bool) (curve : Curve) : Bytes → Prop
  | default (is_default : curve = .curve25519) : CurveSpelled strict curve []
  | given {raw : Bytes} (field : TlvField strict Tag.certCurve [curve.toByte] raw)
    (other : strict = true → curve ≠ .curve25519) : CurveSpelled strict curve raw

/-- The byte string spells the certificate, with anything behind the envelope and behind the signature.
Strictly, with nothing there. -/
inductive Spelled (strict : Bool) (c : Certificate) : Bytes → Prop
  | mk (top behind envelope inner curve key signature trailing : Bytes)
    (sequence : TlvField strict Tag.sequence envelope top) (fits : top.length < 2 ^ 64)
    (parts : envelope = c.rawDetails ++ (curve ++ (key ++ (signature ++ trailing))))
    (details : TlvField strict Tag.certDetails inner c.rawDetails) (fields : DetailsFields strict c.details inner)
    (curve_field : CurveSpelled strict c.curve curve) (key_field : TlvField strict Tag.certPublicKey c.publicKey key)
    (signature_field : TlvField strict Tag.certSignature c.signature signature)
    (nothing_behind : strict = true → trailing = [] ∧ behind = []) :
    Spelled strict c (top ++ behind)

variable {b : Bytes} {c : Certificate}

theorem curveSpelled_false_iff {curve : Curve} {raw : Bytes} :
    CurveSpelled false curve raw ↔ CurveField curve raw := by
  constructor
  · intro spelled
    cases spelled with
    | default is_default => exact .default is_default
    | given field => exact .given _ field.tlv
  · intro field
    cases field with
    | default is_default => exact .default is_default
    | given raw field => exact .given (tlvField_false_iff.mpr field) nofun

theorem length_rawDetails_lt {top envelope rest : Bytes} (sequence : IsTlv Tag.sequence envelope top)
    (parts : envelope = c.rawDetails ++ rest) : c.rawDetails.length < 2 ^ 64 := by
  have inside := sequence.length_content_lt
  rw [parts, List.length_append] at inside
  omega

/-- The decoder takes every spelling. -/
theorem decode_eq_ok_iff_spelled : decode b = .ok c ↔ Spelled false c b := by
  rw [decode_eq_ok_iff]
  constructor
  · rintro ⟨top, behind, envelope, inner, curve, key, signature, trailing, sequence, fits, parts, details, decoded,
      curve_field, key_field, signature_field⟩
    have fields := (decodeDetails_eq_ok_iff details (length_rawDetails_lt sequence parts)).mp decoded
    exact .mk top behind envelope inner curve key signature trailing (tlvField_false_iff.mpr sequence) fits parts
      (tlvField_false_iff.mpr details) fields (curveSpelled_false_iff.mpr curve_field)
      (tlvField_false_iff.mpr key_field) (tlvField_false_iff.mpr signature_field) nofun
  · rintro ⟨top, behind, envelope, inner, curve, key, signature, trailing, sequence, fits, parts, details, fields,
      curve_field, key_field, signature_field⟩
    have decoded := (decodeDetails_eq_ok_iff details.tlv (length_rawDetails_lt sequence.tlv parts)).mpr fields
    exact .mk top behind envelope inner curve key signature trailing sequence.tlv fits parts details.tlv decoded
      (curveSpelled_false_iff.mp curve_field) key_field.tlv signature_field.tlv

theorem Spelled.lenient {strict : Bool} (spelled : Spelled strict c b) : Spelled false c b := by
  cases spelled with
  | mk top behind envelope inner curve key signature trailing sequence fits parts details fields curve_field
      key_field signature_field =>
    refine .mk top behind envelope inner curve key signature trailing sequence.lenient fits parts details.lenient
      fields.lenient ?_ key_field.lenient signature_field.lenient nofun
    cases curve_field with
    | default is_default => exact .default is_default
    | given field => exact .given field.lenient nofun

/-! ## The strict spelling is the written one -/

theorem CurveSpelled.eq_written {curve : Curve} {raw : Bytes} (spelled : CurveSpelled true curve raw) :
    raw = curveBytes curve := by
  cases spelled with
  | default is_default =>
    subst is_default
    rfl
  | given field other => rw [field.eq_written, curveBytes, if_pos (other rfl)]

theorem curveSpelled_curveBytes (curve : Curve) : CurveSpelled true curve (curveBytes curve) := by
  cases curve with
  | curve25519 => exact .default rfl
  | p256 => exact .given (tlvField_writeTlv (by decide)) fun _ => nofun

theorem Spelled.eq_written (spelled : Spelled true c b) :
    c.encode = b ∧ encodeDetails c.details = c.rawDetails := by
  cases spelled with
  | mk top behind envelope inner curve key signature trailing sequence fits parts details fields curve_field
      key_field signature_field nothing_behind =>
    obtain ⟨rfl, rfl⟩ := nothing_behind rfl
    rw [curve_field.eq_written, key_field.eq_written, signature_field.eq_written] at parts
    constructor
    · rw [encode_eq, sequence.eq_written, parts]
      rfl
    · rw [details.eq_written, fields.eq_written]

/-- A certificate whose details are kept as they are written is written in its strict spelling. -/
theorem Spelled.encode (spelled : Spelled false c b) (written : encodeDetails c.details = c.rawDetails) :
    Spelled true c c.encode := by
  cases spelled with
  | mk top behind envelope inner curve key signature trailing sequence fits parts details fields curve_field
      key_field signature_field =>
    have bound := length_rawDetails_lt sequence.tlv parts
    subst parts
    have shorter := length_writtenParts_le trailing (curveSpelled_false_iff.mp curve_field) key_field.tlv
      signature_field.tlv
    have whole := sequence.tlv.length_writeTlv_le Tag.sequence shorter
    obtain ⟨inner, raw, inside, fields⟩ := @detailsFields_written true c.details (by rwa [written])
    have details_field : TlvField true Tag.certDetails inner c.rawDetails := by
      rw [← written, raw]
      exact tlvField_writeTlv inside
    rw [encode_eq]
    exact .mk _ [] _ inner _ _ _ [] (tlvField_writeTlv (lt_of_le_of_lt shorter sequence.tlv.length_content_lt))
      (lt_of_le_of_lt whole fits) rfl details_field fields (curveSpelled_curveBytes c.curve)
      (tlvField_writeTlv key_field.tlv.length_content_lt) (tlvField_writeTlv signature_field.tlv.length_content_lt)
      fun _ => ⟨rfl, rfl⟩

/-- The decoder takes exactly the byte strings that spell a certificate. Of those, writing what was read gives
back, in the certificate and in its details, exactly the strict spelling. -/
theorem reproduced_iff_strict (b : Bytes) (c : Certificate) :
    (decode b = .ok c ↔ Spelled false c b) ∧
      ((decode b = .ok c ∧ c.encode = b ∧ encodeDetails c.details = c.rawDetails) ↔ Spelled true c b) := by
  refine ⟨decode_eq_ok_iff_spelled, ?_⟩
  constructor
  · rintro ⟨read, same, written⟩
    rw [← same]
    exact (decode_eq_ok_iff_spelled.mp read).encode written
  · intro spelled
    exact ⟨decode_eq_ok_iff_spelled.mpr spelled.lenient, spelled.eq_written⟩

/-! ## Spellings that are not strict -/

/-- A certificate of these details and this curve field, with bytes behind its signature and its envelope. -/
def spelling (fields curve trailing behind : Bytes) : Bytes :=
  writeTlv Tag.sequence (writeTlv Tag.certDetails fields ++ curve ++ writeTlv Tag.certPublicKey [7] ++
    writeTlv Tag.certSignature [9] ++ trailing) ++ behind

/-- The details of a host without a name, a network and an issuer. -/
def bareFields : Bytes := [0x80, 0, 0x85, 1, 0, 0x86, 1, 1]

def lenientSpellings : List Bytes :=
  [ -- lengths that are not minimal
    sampleBytes 8,
    -- bytes behind the envelope, behind the signature, and behind the details
    spelling bareFields [] [] [0],
    spelling bareFields [] [0] [],
    spelling (bareFields ++ [0x99, 0]) [] [] [],
    -- an integer that is not minimal
    spelling [0x80, 0, 0x85, 2, 0, 0, 0x86, 1, 1] [] [] [],
    -- the default curve
    spelling bareFields [0x81, 1, 0] [] [],
    -- the flag of an authority, set to false
    spelling [0x80, 0, 0x84, 1, 0, 0x85, 1, 0, 0x86, 1, 1] [] [] []]

/-- Each of them is taken, and differs from what its certificate or its details are written as. -/
theorem lenient_spellings_accepted :
    (lenientSpellings.map fun b => (decode b).toOption.map fun c =>
      (decide (c.encode = b), decide (encodeDetails c.details = c.rawDetails))) =
    [some (false, false), some (false, true), some (false, true), some (true, false), some (true, false),
      some (false, true), some (true, false)] := by
  decide +kernel

end Certificate

end Nebula
