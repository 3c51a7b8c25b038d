import Nebula.Protocol.Cert.Contents

/-! # How the details of a certificate may be spelled

The reader takes lengths that are not the shortest, integers with zeros in front, optional fields that are
there but empty, and bytes behind the last field. One grammar describes both what it takes and what is
written: where the spelling is strict, none of this is left.
-/

namespace Nebula

open Rust

/-- A TLV that the reader takes. Strictly, none with this content is shorter. -/
structure TlvField (strict : Bool) (tag : UInt8) (content raw : Bytes) : Prop where
  tlv : IsTlv tag content raw
  shortest : strict = true → ∀ raw', IsTlv tag content raw' → raw.length ≤ raw'.length

/-- A TLV that may be missing. -/
inductive OptTlvField (strict : Bool) (tag : UInt8) : Option Bytes → Bytes → Prop
  | missing : OptTlvField strict tag none []
  | given {content raw : Bytes} (field : TlvField strict tag content raw) :
    OptTlvField strict tag (some content) raw

/-- Items, one TLV after another. -/
inductive ItemFields (strict : Bool) (itemTag : UInt8) : List Bytes → Bytes → Prop
  | nil : ItemFields strict itemTag [] []
  | cons {content raw rest : Bytes} {contents : List Bytes} (first : TlvField strict itemTag content raw)
    (others : ItemFields strict itemTag contents rest) :
    ItemFields strict itemTag (content :: contents) (raw ++ rest)

/-- A field of items. Strictly, it is missing if there are none. -/
inductive ListField (strict : Bool) (tag itemTag : UInt8) (contents : List Bytes) : Bytes → Prop
  | missing (none : contents = []) : ListField strict tag itemTag contents []
  | given {content raw : Bytes} (field : TlvField strict tag content raw)
    (items : ItemFields strict itemTag contents content) (some : strict = true → contents ≠ []) :
    ListField strict tag itemTag contents raw

/-- The flag of an authority, which is set by any content. Strictly, the content is the byte `ff`. -/
inductive IsCaField (strict : Bool) (isCa : Bool) : Bytes → Prop
  | missing (host : isCa = false) : IsCaField strict isCa []
  | given {content raw : Bytes} (ca : isCa = true) (field : TlvField strict Tag.detailsIsCa content raw)
    (set : strict = true → content = [0xff]) : IsCaField strict isCa raw

/-- An integer. Strictly, it is trimmed. -/
inductive IntField (strict : Bool) (tag : UInt8) (v : Int64) : Bytes → Prop
  | mk {content raw : Bytes} (field : TlvField strict tag content raw) (read : decodeDerInt content = .ok v)
    (trimmed : strict = true → Trimmed content) : IntField strict tag v raw

/-- The issuer's fingerprint. Strictly, it is missing if it is empty. -/
inductive IssuerField (strict : Bool) (issuer : Bytes) : Bytes → Prop
  | missing (none : issuer = []) : IssuerField strict issuer []
  | given {raw : Bytes} (field : TlvField strict Tag.detailsIssuer issuer raw)
    (some : strict = true → issuer ≠ []) : IssuerField strict issuer raw

/-- The fields of the details, with anything behind them that does not look like an issuer. Strictly, with
nothing behind them. -/
inductive DetailsFields (strict : Bool) (d : Details) : Bytes → Prop
  | mk (name networks unsafeNetworks groups isCa notBefore notAfter issuer trailing : Bytes)
    (name_field : TlvField strict Tag.detailsName (asBytes d.name) name)
    (networks_field : ListField strict Tag.detailsNetworks Tag.octetString (d.networks.map Network.encode) networks)
    (unsafe_field : ListField strict Tag.detailsUnsafeNetworks Tag.octetString
      (d.unsafeNetworks.map Network.encode) unsafeNetworks)
    (groups_field : ListField strict Tag.detailsGroups Tag.utf8String (d.groups.map asBytes) groups)
    (isCa_field : IsCaField strict d.isCa isCa)
    (notBefore_field : IntField strict Tag.detailsNotBefore d.notBefore notBefore)
    (notAfter_field : IntField strict Tag.detailsNotAfter d.notAfter notAfter)
    (issuer_field : IssuerField strict d.issuer issuer)
    (last : issuer = [] → trailing.head? ≠ some Tag.detailsIssuer)
    (nothing_behind : strict = true → trailing = []) :
    DetailsFields strict d (name ++ (networks ++ (unsafeNetworks ++ (groups ++ (isCa ++ (notBefore ++ (notAfter ++
      (issuer ++ trailing))))))))

theorem tlvField_false_iff {tag : UInt8} {content raw : Bytes} :
    TlvField false tag content raw ↔ IsTlv tag content raw :=
  ⟨TlvField.tlv, fun tlv => ⟨tlv, nofun⟩⟩

/-! ## A strict spelling is a spelling -/

section Lenient

variable {strict : Bool} {tag itemTag : UInt8} {content raw : Bytes} {contents : List Bytes}

theorem TlvField.lenient (field : TlvField strict tag content raw) : TlvField false tag content raw :=
  tlvField_false_iff.mpr field.tlv

theorem ItemFields.lenient (items : ItemFields strict itemTag contents raw) :
    ItemFields false itemTag contents raw := by
  induction items with
  | nil => exact .nil
  | cons first others ih => exact .cons first.lenient ih

theorem ListField.lenient (field : ListField strict tag itemTag contents raw) :
    ListField false tag itemTag contents raw := by
  cases field with
  | missing none => exact .missing none
  | given field items => exact .given field.lenient items.lenient nofun

theorem IsCaField.lenient {isCa : Bool} (field : IsCaField strict isCa raw) : IsCaField false isCa raw := by
  cases field with
  | missing host => exact .missing host
  | given ca field => exact .given ca field.lenient nofun

theorem IntField.lenient {v : Int64} (field : IntField strict tag v raw) : IntField false tag v raw := by
  cases field with
  | mk field read => exact .mk field.lenient read nofun

theorem IssuerField.lenient {issuer : Bytes} (field : IssuerField strict issuer raw) :
    IssuerField false issuer raw := by
  cases field with
  | missing none => exact .missing none
  | given field => exact .given field.lenient nofun

theorem DetailsFields.lenient {d : Details} (fields : DetailsFields strict d raw) : DetailsFields false d raw := by
  cases fields with
  | mk name networks unsafeNetworks groups isCa notBefore notAfter issuer trailing name_field networks_field
      unsafe_field groups_field isCa_field notBefore_field notAfter_field issuer_field last =>
    exact .mk name networks unsafeNetworks groups isCa notBefore notAfter issuer trailing name_field.lenient
      networks_field.lenient unsafe_field.lenient groups_field.lenient isCa_field.lenient notBefore_field.lenient
      notAfter_field.lenient issuer_field.lenient last nofun

end Lenient

/-! ## Reading -/

namespace Reader

variable {front rest content : Bytes} {tag : UInt8} {r' : Reader}

/-- A TLV is read if and only if one stands at the cursor. -/
theorem readTlv_iff (fits : (front ++ rest).length < 2 ^ 64) :
    (past front rest).readTlv tag = .ok (content, r') ↔
      ∃ raw behind, rest = raw ++ behind ∧ TlvField false tag content raw ∧ r' = past (front ++ raw) behind := by
  constructor
  · intro read
    obtain ⟨raw, behind, parts, tlv, next, -⟩ := readTlv_past_iff.mp read
    exact ⟨raw, behind, parts, tlvField_false_iff.mpr tlv, next⟩
  · rintro ⟨raw, behind, rfl, field, next⟩
    refine readTlv_past_iff.mpr ⟨raw, behind, rfl, field.tlv, next, ?_⟩
    rw [← List.append_assoc, List.length_append] at fits
    omega

theorem readTlv_start_iff (fits : rest.length < 2 ^ 64) :
    (new rest).readTlv tag = .ok (content, r') ↔
      ∃ raw behind, rest = raw ++ behind ∧ TlvField false tag content raw ∧ r' = past raw behind :=
  @readTlv_iff [] rest content tag r' fits

theorem readTlvOpt_iff (fits : (front ++ rest).length < 2 ^ 64) {found : Option Bytes} :
    (past front rest).readTlvOpt tag = .ok (found, r') ↔
      ∃ raw behind, rest = raw ++ behind ∧ OptTlvField false tag found raw ∧ r' = past (front ++ raw) behind ∧
        (found = none → rest.head? ≠ some tag) := by
  constructor
  · intro read
    rcases readTlvOpt_past_iff.mp read with ⟨absent, rfl, rfl⟩ | ⟨content, rfl, given⟩
    · exact ⟨[], rest, rfl, .missing, by rw [List.append_nil], fun _ => absent⟩
    · obtain ⟨raw, behind, parts, field, next⟩ := (readTlv_iff fits).mp given
      exact ⟨raw, behind, parts, .given field, next, nofun⟩
  · rintro ⟨raw, behind, rfl, field, rfl, absent⟩
    cases field with
    | missing => exact readTlvOpt_past_iff.mpr (.inl ⟨absent rfl, rfl, by rw [List.append_nil, List.nil_append]⟩)
    | given field =>
      exact readTlvOpt_past_iff.mpr (.inr ⟨_, rfl, (readTlv_iff fits).mpr ⟨raw, behind, rfl, field, rfl⟩⟩)

end Reader

section Items

variable {α : Type} {item : Bytes → Res α} {encode : α → Bytes} {tag itemTag : UInt8}

theorem ItemFields.concat {strict : Bool} {contents : List Bytes} {front content raw : Bytes}
    (items : ItemFields strict itemTag contents front) (last : TlvField strict itemTag content raw) :
    ItemFields strict itemTag (contents ++ [content]) (front ++ raw) := by
  induction items with
  | nil => simpa using ItemFields.cons last .nil
  | cons first others ih =>
    rw [List.cons_append, List.append_assoc]
    exact .cons first ih

variable (inverse : ∀ content value, item content = .ok value ↔ content = encode value)

include inverse

theorem run_readItems_of_fields {values done : List α} {front rest : Bytes}
    (fits : (front ++ rest).length < 2 ^ 64) (items : ItemFields false itemTag (values.map encode) rest) :
    (readItems itemTag item).run (.past front rest, done) = .ok (done ++ values) := by
  induction values generalizing done front rest with
  | nil =>
    cases items
    apply Loop.run_done
    simp [readItems, Reader.isEmpty, Reader.past]
  | cons value others ih =>
    cases items with
    | @cons content raw rest contents first behind =>
      have more : (Reader.past front (raw ++ rest)).isEmpty = false := by
        cases first.tlv
        simp [Reader.isEmpty, Reader.past]
      have turn : (readItems itemTag item).body (.past front (raw ++ rest), done) =
          .next (.past (front ++ raw) rest, done ++ [value]) :=
        readItems_turn_iff.mpr ⟨more, encode value, value,
          (Reader.readTlv_iff fits).mpr ⟨raw, rest, rfl, first, rfl⟩, (inverse _ _).mpr rfl, rfl⟩
      rw [Loop.run_next turn, ih (by rwa [List.append_assoc]) behind, List.append_assoc, List.singleton_append]

/-- The items are read if and only if they fill the buffer. -/
theorem run_readItems_iff {whole : Bytes} (fits : whole.length < 2 ^ 64) {values : List α} :
    (readItems itemTag item).run (.new whole, []) = .ok values ↔
      ItemFields false itemTag (values.map encode) whole := by
  constructor
  · refine (readItems itemTag item).run_induction
      (P := fun s => ∃ front rest, s.1 = .past front rest ∧ whole = front ++ rest ∧
        ItemFields false itemTag (s.2.map encode) front)
      (Q := fun result => result = .ok values → ItemFields false itemTag (values.map encode) whole) ?_ ?_
      ⟨[], whole, rfl, rfl, .nil⟩
    · rintro ⟨r, items⟩ ⟨r', next⟩ ⟨front, rest, rfl, rfl, read⟩ turn
      obtain ⟨-, content, value, tlv, item_read, rfl⟩ := readItems_turn_iff.mp turn
      obtain ⟨raw, behind, rfl, field, rfl⟩ := (Reader.readTlv_iff fits).mp tlv
      obtain rfl := (inverse _ _).mp item_read
      refine ⟨front ++ raw, behind, rfl, (List.append_assoc _ _ _).symm, ?_⟩
      rw [List.map_append]
      exact read.concat field
    · rintro ⟨r, items⟩ result ⟨front, rest, rfl, rfl, read⟩ left returned
      subst returned
      obtain ⟨empty, rfl⟩ := readItems_left left
      have none : rest = [] := by
        simp only [Reader.isEmpty, Reader.past, List.length_append, decide_eq_true_eq] at empty
        exact List.length_eq_zero_iff.mp (by omega)
      rw [none, List.append_nil]
      exact read
  · intro items
    have start : ([] ++ whole).length < 2 ^ 64 := fits
    exact run_readItems_of_fields inverse start items

theorem readField_iff {front rest : Bytes} (fits : (front ++ rest).length < 2 ^ 64) {values : List α} {r' : Reader} :
    readField (.past front rest) tag itemTag item = .ok (values, r') ↔
      ∃ raw behind, rest = raw ++ behind ∧ ListField false tag itemTag (values.map encode) raw ∧
        r' = .past (front ++ raw) behind ∧ (raw = [] → rest.head? ≠ some tag) := by
  constructor
  · intro read
    obtain ⟨⟨found, r⟩, optional, read⟩ := bind_eq_ok.mp read
    obtain ⟨raw, behind, rfl, spelled, rfl, absent⟩ := (Reader.readTlvOpt_iff fits).mp optional
    cases spelled with
    | missing =>
      cases read
      exact ⟨[], behind, rfl, .missing rfl, rfl, fun _ => absent rfl⟩
    | @given content _ field =>
      obtain ⟨items, run, returned⟩ := bind_eq_ok.mp read
      cases returned
      have items := (run_readItems_iff inverse field.tlv.length_content_lt).mp run
      refine ⟨raw, behind, rfl, .given field items nofun, rfl, ?_⟩
      rintro rfl
      cases field.tlv
  · rintro ⟨raw, behind, rfl, spelled, rfl, absent⟩
    cases spelled with
    | missing none =>
      obtain rfl := List.map_eq_nil_iff.mp none
      exact bind_eq_ok.mpr ⟨_, (Reader.readTlvOpt_iff fits).mpr
        ⟨[], behind, rfl, .missing, rfl, fun _ => absent rfl⟩, rfl⟩
    | @given content _ field items =>
      refine bind_eq_ok.mpr ⟨_, (Reader.readTlvOpt_iff fits).mpr
        ⟨raw, behind, rfl, .given field, rfl, nofun⟩, ?_⟩
      exact bind_eq_ok.mpr ⟨_, (run_readItems_iff inverse field.tlv.length_content_lt).mpr items, rfl⟩

end Items

/-! ## What the decoder accepts -/

theorem OptTlvField.eq_nil_iff {strict : Bool} {tag : UInt8} {found : Option Bytes} {raw : Bytes}
    (field : OptTlvField strict tag found raw) : raw = [] ↔ found = none := by
  cases field with
  | missing => exact iff_of_true rfl rfl
  | given field =>
    refine iff_of_false ?_ (Option.some_ne_none _)
    rintro rfl
    cases field.tlv

theorem isCaField_iff {isCa : Bool} {raw : Bytes} :
    IsCaField false isCa raw ↔ ∃ found, OptTlvField false Tag.detailsIsCa found raw ∧ found.isSome = isCa := by
  constructor
  · intro field
    cases field with
    | missing host => exact ⟨none, .missing, host.symm⟩
    | given ca field => exact ⟨_, .given field, ca.symm⟩
  · rintro ⟨found, field, rfl⟩
    cases field with
    | missing => exact .missing rfl
    | given field => exact .given rfl field nofun

theorem issuerField_iff {issuer raw : Bytes} :
    IssuerField false issuer raw ↔ ∃ found, OptTlvField false Tag.detailsIssuer found raw ∧ found.getD [] = issuer := by
  constructor
  · intro field
    cases field with
    | missing none => exact ⟨Option.none, .missing, none.symm⟩
    | given field => exact ⟨_, .given field, rfl⟩
  · rintro ⟨found, field, rfl⟩
    cases field with
    | missing => exact .missing rfl
    | given field => exact .given field nofun

section Heads

/-! What follows a field left out begins with another tag. -/

variable {strict : Bool} {tag other : UInt8} {raw behind : Bytes}

theorem TlvField.head?_ne {content : Bytes} (field : TlvField strict tag content raw) (ne : tag ≠ other) :
    (raw ++ behind).head? ≠ some other := by
  cases field.tlv
  rintro ⟨⟩
  exact ne rfl

theorem ListField.head?_ne {itemTag : UInt8} {contents : List Bytes}
    (field : ListField strict tag itemTag contents raw) (ne : tag ≠ other) (others : behind.head? ≠ some other) :
    (raw ++ behind).head? ≠ some other := by
  cases field with
  | missing => exact others
  | given field => exact field.head?_ne ne

theorem IsCaField.head?_ne {isCa : Bool} (field : IsCaField strict isCa raw) (ne : Tag.detailsIsCa ≠ other)
    (others : behind.head? ≠ some other) : (raw ++ behind).head? ≠ some other := by
  cases field with
  | missing => exact others
  | given ca field => exact field.head?_ne ne

theorem IntField.head?_ne {v : Int64} (field : IntField strict tag v raw) (ne : tag ≠ other) :
    (raw ++ behind).head? ≠ some other := by
  cases field with
  | mk field => exact field.head?_ne ne

end Heads

theorem DetailsFields.of_decodeDetails {inner raw : Bytes} {d : Details} (tlv : IsTlv Tag.certDetails inner raw)
    (read : decodeDetails raw = .ok d) : DetailsFields false d inner := by
  obtain ⟨⟨innerBytes, _⟩, outer, read⟩ := bind_eq_ok.mp read
  obtain ⟨raw', behind, parts, tlv', -, -⟩ := Reader.readTlv_new_iff.mp outer
  obtain ⟨-, rfl, -⟩ := tlv.unique tlv' ((List.append_nil raw).trans parts)
  have inside := tlv.length_content_lt
  obtain ⟨⟨nameBytes, r₁⟩, name_read, read⟩ := bind_eq_ok.mp read
  obtain ⟨name, rest, rfl, name_field, rfl⟩ := (Reader.readTlv_start_iff inside).mp name_read
  obtain ⟨nameString, utf8, read⟩ := bind_eq_ok.mp read
  rw [stringFromUtf8_eq_ok_iff.mp utf8] at name_field
  obtain ⟨⟨networks, r₂⟩, networks_read, read⟩ := bind_eq_ok.mp read
  obtain ⟨networksRaw, rest, rfl, networks_field, rfl, -⟩ :=
    (readField_iff (fun _ _ => Network.decode_eq_ok_iff) (by simpa using inside)).mp networks_read
  obtain ⟨⟨unsafeNetworks, r₃⟩, unsafe_read, read⟩ := bind_eq_ok.mp read
  obtain ⟨unsafeRaw, rest, rfl, unsafe_field, rfl, -⟩ :=
    (readField_iff (fun _ _ => Network.decode_eq_ok_iff) (by simpa using inside)).mp unsafe_read
  obtain ⟨⟨groups, r₄⟩, groups_read, read⟩ := bind_eq_ok.mp read
  obtain ⟨groupsRaw, rest, rfl, groups_field, rfl, -⟩ :=
    (readField_iff (fun _ _ => stringFromUtf8_eq_ok_iff) (by simpa using inside)).mp groups_read
  obtain ⟨⟨isCa, r₅⟩, isCa_read, read⟩ := bind_eq_ok.mp read
  obtain ⟨isCaRaw, rest, rfl, isCa_field, rfl, -⟩ := (Reader.readTlvOpt_iff (by simpa using inside)).mp isCa_read
  obtain ⟨⟨notBeforeBytes, r₆⟩, notBefore_read, read⟩ := bind_eq_ok.mp read
  obtain ⟨notBeforeRaw, rest, rfl, notBefore_field, rfl⟩ :=
    (Reader.readTlv_iff (by simpa using inside)).mp notBefore_read
  obtain ⟨notBefore, notBefore_int, read⟩ := bind_eq_ok.mp read
  obtain ⟨⟨notAfterBytes, r₇⟩, notAfter_read, read⟩ := bind_eq_ok.mp read
  obtain ⟨notAfterRaw, rest, rfl, notAfter_field, rfl⟩ :=
    (Reader.readTlv_iff (by simpa using inside)).mp notAfter_read
  obtain ⟨notAfter, notAfter_int, read⟩ := bind_eq_ok.mp read
  obtain ⟨⟨issuer, r₈⟩, issuer_read, read⟩ := bind_eq_ok.mp read
  cases read
  obtain ⟨issuerRaw, trailing, rfl, issuer_field, -, absent⟩ :=
    (Reader.readTlvOpt_iff (by simpa using inside)).mp issuer_read
  refine .mk name networksRaw unsafeRaw groupsRaw isCaRaw notBeforeRaw notAfterRaw issuerRaw trailing name_field
    networks_field unsafe_field groups_field (isCaField_iff.mpr ⟨isCa, isCa_field, rfl⟩)
    (.mk notBefore_field notBefore_int nofun) (.mk notAfter_field notAfter_int nofun)
    (issuerField_iff.mpr ⟨issuer, issuer_field, rfl⟩) ?_ nofun
  rintro rfl
  exact absent (issuer_field.eq_nil_iff.mp rfl)

theorem DetailsFields.decodeDetails_eq {inner raw : Bytes} {d : Details} (fields : DetailsFields false d inner)
    (tlv : IsTlv Tag.certDetails inner raw) (fits : raw.length < 2 ^ 64) : decodeDetails raw = .ok d := by
  have inside := tlv.length_content_lt
  cases fields with
  | mk name networks unsafeNetworks groups isCa notBefore notAfter issuer trailing name_field networks_field
      unsafe_field groups_field isCa_field notBefore_field notAfter_field issuer_field last =>
    obtain ⟨isCaFound, isCa_opt, isCa_eq⟩ := isCaField_iff.mp isCa_field
    obtain ⟨issuerFound, issuer_opt, issuer_eq⟩ := issuerField_iff.mp issuer_field
    have times {other : UInt8} {behind : Bytes} (ne : Tag.detailsNotBefore ≠ other) :
        (notBefore ++ behind).head? ≠ some other := notBefore_field.head?_ne ne
    cases notBefore_field with
    | @mk notBeforeContent _ notBefore_tlv notBefore_int =>
      cases notAfter_field with
      | @mk notAfterContent _ notAfter_tlv notAfter_int =>
        refine bind_eq_ok.mpr ⟨(_, .past raw []), Reader.readTlv_new_iff.mpr
          ⟨raw, [], (List.append_nil raw).symm, tlv, rfl, fits⟩, ?_⟩
        refine bind_eq_ok.mpr ⟨_, (Reader.readTlv_start_iff inside).mpr ⟨name, _, rfl, name_field, rfl⟩, ?_⟩
        refine bind_eq_ok.mpr ⟨_, stringFromUtf8_asBytes _ d.name, ?_⟩
        refine bind_eq_ok.mpr ⟨_, (readField_iff (fun _ _ => Network.decode_eq_ok_iff) (by simpa using inside)).mpr
          ⟨networks, _, rfl, networks_field, rfl, fun none => ?_⟩, ?_⟩
        · subst none
          exact unsafe_field.head?_ne (by decide) (groups_field.head?_ne (by decide)
            (isCa_field.head?_ne (by decide) (times (by decide))))
        refine bind_eq_ok.mpr ⟨_, (readField_iff (fun _ _ => Network.decode_eq_ok_iff) (by simpa using inside)).mpr
          ⟨unsafeNetworks, _, rfl, unsafe_field, rfl, fun none => ?_⟩, ?_⟩
        · subst none
          exact groups_field.head?_ne (by decide) (isCa_field.head?_ne (by decide) (times (by decide)))
        refine bind_eq_ok.mpr ⟨_, (readField_iff (fun _ _ => stringFromUtf8_eq_ok_iff) (by simpa using inside)).mpr
          ⟨groups, _, rfl, groups_field, rfl, fun none => ?_⟩, ?_⟩
        · subst none
          exact isCa_field.head?_ne (by decide) (times (by decide))
        refine bind_eq_ok.mpr ⟨_, (Reader.readTlvOpt_iff (by simpa using inside)).mpr
          ⟨isCa, _, rfl, isCa_opt, rfl, fun none => ?_⟩, ?_⟩
        · rw [isCa_opt.eq_nil_iff.mpr none]
          exact times (by decide)
        refine bind_eq_ok.mpr ⟨_, (Reader.readTlv_iff (by simpa using inside)).mpr
          ⟨notBefore, _, rfl, notBefore_tlv, rfl⟩, ?_⟩
        refine bind_eq_ok.mpr ⟨_, notBefore_int, ?_⟩
        refine bind_eq_ok.mpr ⟨_, (Reader.readTlv_iff (by simpa using inside)).mpr
          ⟨notAfter, _, rfl, notAfter_tlv, rfl⟩, ?_⟩
        refine bind_eq_ok.mpr ⟨_, notAfter_int, ?_⟩
        refine bind_eq_ok.mpr ⟨_, (Reader.readTlvOpt_iff (by simpa using inside)).mpr
          ⟨issuer, trailing, rfl, issuer_opt, rfl, fun none => ?_⟩, ?_⟩
        · have missing := issuer_opt.eq_nil_iff.mpr none
          rw [missing]
          exact last missing
        · dsimp only
          rw [isCa_eq, issuer_eq]
          rfl

/-- The details are decoded if and only if their fields are spelled, in any of the ways there are. -/
theorem decodeDetails_eq_ok_iff {inner raw : Bytes} {d : Details} (tlv : IsTlv Tag.certDetails inner raw)
    (fits : raw.length < 2 ^ 64) : decodeDetails raw = .ok d ↔ DetailsFields false d inner :=
  ⟨.of_decodeDetails tlv, fun fields => fields.decodeDetails_eq tlv fits⟩

end Nebula
