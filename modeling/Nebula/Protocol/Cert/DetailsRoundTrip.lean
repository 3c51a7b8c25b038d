import Nebula.Protocol.Cert.Fields

/-! # The details of a certificate are read back as they were written

What is written is spelled strictly, so the decoder takes it, whatever the details are. There is no other
strict spelling: each field spelled strictly is the one that is written.
-/

namespace Nebula

open Rust

theorem length_lt_length_writeTlv (tag : UInt8) (content : Bytes) :
    content.length < (writeTlv tag content).length := by
  simp only [writeTlv, List.length_cons, List.length_append]
  omega

section Fields

variable {strict : Bool} {tag itemTag : UInt8} {content raw behind : Bytes} {contents : List Bytes}

/-! ## Strict spellings are those written -/

theorem TlvField.eq_written (field : TlvField true tag content raw) : raw = writeTlv tag content :=
  field.tlv.shortest_iff.mp (field.shortest rfl)

theorem tlvField_writeTlv (bound : content.length < 2 ^ 64) : TlvField strict tag content (writeTlv tag content) :=
  ⟨isTlv_writeTlv tag bound, fun _ => (isTlv_writeTlv tag bound).shortest_iff.mpr rfl⟩

theorem ItemFields.eq_written (items : ItemFields true itemTag contents raw) :
    raw = contents.flatMap (writeTlv itemTag) := by
  induction items with
  | nil => rfl
  | cons first others ih => rw [first.eq_written, ih, List.flatMap_cons]

theorem itemFields_written (bound : (contents.flatMap (writeTlv itemTag)).length < 2 ^ 64) :
    ItemFields strict itemTag contents (contents.flatMap (writeTlv itemTag)) := by
  induction contents with
  | nil => exact .nil
  | cons content rest ih =>
    have inside := length_lt_length_writeTlv itemTag content
    rw [List.flatMap_cons, List.length_append] at bound
    rw [List.flatMap_cons]
    exact .cons (tlvField_writeTlv (by omega)) (ih (by omega))

theorem ListField.eq_written (field : ListField true tag itemTag contents raw) :
    raw = writeItems tag itemTag contents := by
  cases field with
  | missing none =>
    subst none
    rfl
  | given field items some =>
    have present : contents.isEmpty = false := List.isEmpty_eq_false_iff.mpr (some rfl)
    rw [field.eq_written, items.eq_written, writeItems, present]
    rfl

theorem listField_written (bound : (writeItems tag itemTag contents).length < 2 ^ 64) :
    ListField strict tag itemTag contents (writeItems tag itemTag contents) := by
  cases contents with
  | nil => exact .missing rfl
  | cons content rest =>
    have inside := length_lt_length_writeTlv tag ((content :: rest).flatMap (writeTlv itemTag))
    have whole : writeItems tag itemTag (content :: rest) =
        writeTlv tag ((content :: rest).flatMap (writeTlv itemTag)) := rfl
    rw [whole] at bound ⊢
    have items : ((content :: rest).flatMap (writeTlv itemTag)).length < 2 ^ 64 := lt_trans inside bound
    exact .given (tlvField_writeTlv items) (itemFields_written items) fun _ => List.cons_ne_nil _ _

theorem IsCaField.eq_written {isCa : Bool} (field : IsCaField true isCa raw) :
    raw = if isCa then writeTlv Tag.detailsIsCa [0xff] else [] := by
  cases field with
  | missing host =>
    subst host
    rfl
  | given ca field set =>
    subst ca
    rw [field.eq_written, set rfl]
    rfl

theorem isCaField_written (isCa : Bool) :
    IsCaField strict isCa (if isCa then writeTlv Tag.detailsIsCa [0xff] else []) := by
  cases isCa with
  | false => exact .missing rfl
  | true => exact .given rfl (tlvField_writeTlv (by decide)) fun _ => rfl

theorem IssuerField.eq_written {issuer : Bytes} (field : IssuerField true issuer raw) :
    raw = if issuer.isEmpty then [] else writeTlv Tag.detailsIssuer issuer := by
  cases field with
  | missing none =>
    subst none
    rfl
  | given field some =>
    have present : issuer.isEmpty = false := List.isEmpty_eq_false_iff.mpr (some rfl)
    rw [field.eq_written, present]
    rfl

theorem issuerField_written {issuer : Bytes} (bound : issuer.length < 2 ^ 64) :
    IssuerField strict issuer (if issuer.isEmpty then [] else writeTlv Tag.detailsIssuer issuer) := by
  cases issuer with
  | nil => exact .missing rfl
  | cons first rest => exact .given (tlvField_writeTlv bound) fun _ => List.cons_ne_nil _ _

end Fields

section Integers

variable {strict : Bool} {tag : UInt8} {v : Int64} {raw : Bytes}

theorem IntField.eq_written (field : IntField true tag v raw) : raw = writeTlv tag (encodeDerInt v) := by
  cases field with
  | mk field read trimmed => rw [field.eq_written, (trimmed_iff read).mp (trimmed rfl)]

theorem intField_written : IntField strict tag v (writeTlv tag (encodeDerInt v)) :=
  .mk (tlvField_writeTlv (length_encodeDerInt_lt v)) (decodeDerInt_encodeDerInt v)
    fun _ => (trimmed_iff (decodeDerInt_encodeDerInt v)).mpr rfl

end Integers

/-! ## Details -/

/-- Details spelled strictly are those written. -/
theorem DetailsFields.eq_written {d : Details} {inner : Bytes} (fields : DetailsFields true d inner) :
    writeTlv Tag.certDetails inner = encodeDetails d := by
  cases fields with
  | mk name networks unsafeNetworks groups isCa notBefore notAfter issuer trailing name_field networks_field
      unsafe_field groups_field isCa_field notBefore_field notAfter_field issuer_field last nothing_behind =>
    rw [name_field.eq_written, networks_field.eq_written, unsafe_field.eq_written, groups_field.eq_written,
      isCa_field.eq_written, notBefore_field.eq_written, notAfter_field.eq_written, issuer_field.eq_written,
      nothing_behind rfl, List.append_nil, encodeDetails]
    simp only [List.append_assoc]

theorem detailsFields_written {strict : Bool} (d : Details) (fits : (encodeDetails d).length < 2 ^ 64) :
    ∃ inner, encodeDetails d = writeTlv Tag.certDetails inner ∧ inner.length < 2 ^ 64 ∧
      DetailsFields strict d inner := by
  have inside := lt_trans (length_lt_length_writeTlv _ _) fits
  have fields := inside
  simp only [List.length_append] at fields
  have name := length_lt_length_writeTlv Tag.detailsName (asBytes d.name)
  have issuer : d.issuer.length ≤ (if d.issuer.isEmpty then [] else writeTlv Tag.detailsIssuer d.issuer).length := by
    split
    · next none => rw [List.isEmpty_iff.mp none]
    · exact le_of_lt (length_lt_length_writeTlv _ _)
  have spelled : DetailsFields strict d _ := .mk _ _ _ _ _ _ _ _ [] (tlvField_writeTlv (by omega))
    (listField_written (by omega)) (listField_written (by omega)) (listField_written (by omega))
    (isCaField_written d.isCa) intField_written intField_written (issuerField_written (by omega))
    (fun _ => (Option.some_ne_none _).symm) (fun _ => rfl)
  rw [List.append_nil] at spelled
  simp only [← List.append_assoc] at spelled
  exact ⟨_, rfl, inside, spelled⟩

/-- What is written is read back, if it is no longer than a byte string can be. -/
theorem decodeDetails_encodeDetails (d : Details) (fits : (encodeDetails d).length < 2 ^ 64) :
    decodeDetails (encodeDetails d) = .ok d := by
  obtain ⟨inner, written, inside, fields⟩ := @detailsFields_written false d fits
  rw [written] at fits ⊢
  exact fields.decodeDetails_eq (isTlv_writeTlv _ inside) fits

/-- All optional fields, a name of 128 bytes in characters of one, two and three bytes, a prefix byte that no
address has, and the two extreme times. -/
def extremeDetails : Details where
  name := "ß☃" ++ String.ofList (List.replicate 123 'a')
  networks := [⟨.v4 (.new 10 0 0 1), 255⟩]
  unsafeNetworks := [⟨.v6 (.replicate 16 0), 0⟩]
  groups := ["", "ops"]
  isCa := true
  notBefore := Int64.minValue
  notAfter := Int64.maxValue
  issuer := [0]

theorem decodeDetails_encodeDetails_extreme :
    (encodeDetails extremeDetails).length < 2 ^ 64 ∧
      decodeDetails (encodeDetails extremeDetails) = .ok extremeDetails := by
  have fits : (encodeDetails extremeDetails).length < 2 ^ 64 := by decide +kernel
  exact ⟨fits, decodeDetails_encodeDetails extremeDetails fits⟩

end Nebula
