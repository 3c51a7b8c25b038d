import Nebula.Protocol.Cert.Contents

/-! # Decoding a certificate never unwinds

The bytes come from a peer before any signature is checked. Whatever lengths they state, a read that starts
inside its buffer ends inside it, or fails with an error of the codec: the stated length meets a checked sum
and a checked slice before the cursor moves. A TLV takes two bytes at least, which bounds the turns of the
loops over items.
-/

namespace Nebula

open Rust

namespace Reader

/-- The cursor is inside the buffer, which is no longer than a buffer can be. -/
structure Inside (r : Reader) : Prop where
  pos : r.pos ≤ r.data.length
  data : r.data.length < 2 ^ 64

/-- What a read of a TLV leaves behind. -/
structure Passed (r : Reader) (read : Bytes × Reader) : Prop where
  data : read.2.data = r.data
  forward : r.pos + 2 ≤ read.2.pos
  within : read.2.pos ≤ r.data.length
  content : read.1.length ≤ r.data.length

variable {r : Reader}

theorem inside_new {data : Bytes} (fits : data.length < 2 ^ 64) : (new data).Inside := ⟨Nat.zero_le _, fits⟩

theorem Passed.inside {read : Bytes × Reader} (passed : r.Passed read) (inside : r.Inside) : read.2.Inside := by
  constructor
  · rw [passed.data]
    exact passed.within
  · rw [passed.data]
    exact inside.data

theorem Passed.fits {read : Bytes × Reader} (passed : r.Passed read) (inside : r.Inside) :
    read.1.length < 2 ^ 64 := lt_of_le_of_lt passed.content inside.data

/-- The cursor may step over a byte that is there. -/
theorem Inside.step {byte : UInt8} (inside : r.Inside) (present : r.data[r.pos]? = some byte) :
    usizeAdd r.pos 1 = .ok (r.pos + 1) ∧ ({ r with pos := r.pos + 1 } : Reader).Inside := by
  have bound : r.pos < r.data.length := (List.getElem?_eq_some_iff.mp present).1
  have large := inside.data
  exact ⟨usizeAdd_eq_ok_iff.mpr ⟨rfl, by omega⟩, bound, large⟩

theorem Inside.readLength (inside : r.Inside) :
    Ensures (fun (read : ℕ × Reader) => read.2.data = r.data ∧ r.pos + 1 ≤ read.2.pos ∧
      read.2.pos ≤ r.data.length) r.readLength := by
  refine (ensures_okOr _ fun first present => inside.step present).bind ?_
  rintro first ⟨stepped, moved⟩
  refine (ensures_orUnwind stepped rfl).bind ?_
  rintro _ rfl
  dsimp only
  split
  · exact ensures_ok ⟨rfl, le_refl _, moved.pos⟩
  · split
    · exact ensures_err _
    · next supported =>
      have most : (first &&& 0x7f).toNat ≤ 8 := Nat.not_lt.mp fun large => supported (.inr large)
      refine (ensures_okOr _ fun stop sum => checkedAdd_eq_some sum).bind ?_
      rintro stop rfl
      refine (ensures_okOr _ fun part sliced => getSlice_eq_some sliced).bind ?_
      rintro part ⟨within, size⟩
      rw [Nat.add_sub_cancel_left] at size
      refine (ensures_orUnwind (usizeSub_eq_ok most) rfl).bind ?_
      rintro _ rfl
      rw [← size] at most within ⊢
      refine (ensures_orUnwind (copyIntoFrom_replicate 0 most) rfl).bind ?_
      rintro _ rfl
      exact ensures_ok ⟨rfl, Nat.le_add_right _ _, within⟩

theorem Inside.readTlv (inside : r.Inside) (tag : UInt8) : Ensures r.Passed (r.readTlv tag) := by
  refine (ensures_okOr _ fun found present => inside.step present).bind ?_
  rintro found ⟨stepped, moved⟩
  dsimp only
  split
  · exact ensures_err _
  · refine (ensures_orUnwind stepped rfl).bind ?_
    rintro _ rfl
    refine moved.readLength.bind ?_
    rintro ⟨len, behind⟩ ⟨same, forward, -⟩
    refine (ensures_okOr _ fun stop sum => checkedAdd_eq_some sum).bind ?_
    rintro stop rfl
    refine (ensures_okOr _ fun part sliced => getSlice_eq_some sliced).bind ?_
    rintro content ⟨within, size⟩
    dsimp only at same forward within
    rw [same] at within
    exact ensures_ok ⟨same, by dsimp only; omega, within, by dsimp only; omega⟩

theorem Inside.readTlvRaw (inside : r.Inside) (tag : UInt8) : Ensures r.Passed (r.readTlvRaw tag) := by
  refine (inside.readTlv tag).bind ?_
  rintro ⟨content, r'⟩ passed
  have forward := passed.forward
  have within := passed.within
  rw [← passed.data] at within
  dsimp only at forward within
  refine (ensures_orUnwind (slice_eq_ok (by omega) within) rfl).bind ?_
  rintro _ rfl
  refine ensures_ok ⟨passed.data, forward, passed.within, ?_⟩
  rw [List.length_drop, List.length_take, ← passed.data]
  dsimp only
  omega

/-- An optional TLV that is missing leaves the cursor where it was. -/
theorem Inside.readTlvOpt (inside : r.Inside) (tag : UInt8) :
    Ensures (fun (read : Option Bytes × Reader) => read.2.Inside ∧ ∀ content ∈ read.1, content.length < 2 ^ 64)
      (r.readTlvOpt tag) := by
  unfold Reader.readTlvOpt
  split
  · refine (inside.readTlv tag).bind ?_
    rintro ⟨content, r'⟩ passed
    refine ensures_ok ⟨passed.inside inside, ?_⟩
    rintro _ ⟨⟩
    exact passed.fits inside
  · exact ensures_ok ⟨inside, by simp⟩

end Reader

/-! ## Fields -/

theorem ensures_stringFromUtf8 (error : Error) (b : Bytes) :
    Ensures (fun _ => True) (stringFromUtf8 error b) := ensures_okOr error fun _ _ => trivial

theorem ensures_decodeDerInt (b : Bytes) : Ensures (fun _ => True) (decodeDerInt b) := by
  by_cases possible : b.isEmpty ∨ 8 < b.length
  · rw [decodeDerInt, if_pos possible]
    exact ensures_err _
  · cases b with
    | nil => exact absurd (.inl rfl) possible
    | cons first rest =>
      rw [decodeDerInt_cons (Nat.not_lt.mp fun large => possible (.inr large))]
      exact ensures_ok trivial

theorem ensures_index {ε α : Type} {items : List α} {i : ℕ} (bound : i < items.length) :
    Ensures (fun _ => True) (orUnwind (index items i) : Fallible ε α) := by
  obtain ⟨item, found⟩ := returns_index bound
  exact ensures_orUnwind found trivial

namespace Network

theorem ensures_decode (b : Bytes) : Ensures (fun _ => True) (decode b) := by
  unfold decode
  split
  · next five =>
    refine (ensures_index (by omega)).bind fun b0 _ => (ensures_index (by omega)).bind fun b1 _ => ?_
    refine (ensures_index (by omega)).bind fun b2 _ => (ensures_index (by omega)).bind fun b3 _ => ?_
    exact (ensures_index (by omega)).bind fun b4 _ => ensures_ok trivial
  · split
    · next seventeen =>
      refine (ensures_orUnwind (slice_eq_ok (Nat.zero_le 16) (by omega)) rfl).bind ?_
      rintro _ rfl
      have size : ((b.take 16).drop 0).length = 16 := by
        rw [List.drop_zero, List.length_take]
        omega
      refine (ensures_orUnwind (Arr.copyFromSlice_eq_ok size) rfl).bind ?_
      rintro _ rfl
      exact (ensures_index (by omega)).bind fun prefixLen _ => ensures_ok trivial
    · exact ensures_err _

end Network

section Items

variable {α : Type} {itemTag : UInt8} {item : Bytes → Res α}

theorem ensures_readItems (returns : ∀ content, Ensures (fun _ => True) (item content)) {content : Bytes}
    (fits : content.length < 2 ^ 64) :
    Ensures (fun _ => True) ((readItems itemTag item).run (.new content, [])) := by
  refine (readItems itemTag item).run_induction (P := fun s => s.1.Inside) ?_ ?_ (Reader.inside_new fits)
  · rintro ⟨r, items⟩ ⟨r', next⟩ inside turn
    obtain ⟨-, content, value, read, -⟩ := readItems_turn_iff.mp turn
    exact ((inside.readTlv itemTag).of_ok read).inside inside
  · rintro ⟨r, items⟩ result inside turn
    simp only [readItems] at turn
    split at turn
    · cases turn
      exact ensures_ok trivial
    · split at turn
      next failure read =>
        cases turn
        have sound := inside.readTlv itemTag
        rw [read] at sound
        exact sound.failure
      next content r' read =>
        split at turn
        next failure failed =>
          cases turn
          have sound := returns content
          rw [failed] at sound
          exact sound.failure
        · cases turn

/-- The loop has taken two bytes at least for each of its turns. -/
theorem two_bytes_each {s t : Reader × List α} {visited : List (Reader × List α)}
    (turns : (readItems itemTag item).Turns s visited t) (inside : s.1.Inside) :
    t.1.Inside ∧ t.1.data = s.1.data ∧ s.1.pos + 2 * visited.length ≤ t.1.pos := by
  induction turns with
  | nil => exact ⟨inside, rfl, le_refl _⟩
  | cons turn rest ih =>
    obtain ⟨-, content, value, read, -⟩ := readItems_turn_iff.mp turn
    have passed := (inside.readTlv itemTag).of_ok read
    obtain ⟨stays, same, taken⟩ := ih (passed.inside inside)
    have forward := passed.forward
    refine ⟨stays, same.trans passed.data, ?_⟩
    rw [List.length_cons]
    dsimp only at forward
    omega

end Items

theorem ensures_readField {α : Type} {r : Reader} (inside : r.Inside) {item : Bytes → Res α}
    (returns : ∀ content, Ensures (fun _ => True) (item content)) (tag itemTag : UInt8) :
    Ensures (fun (read : List α × Reader) => read.2.Inside) (readField r tag itemTag item) := by
  refine (inside.readTlvOpt tag).bind ?_
  rintro ⟨_ | content, r'⟩ ⟨inside', fits⟩
  · exact ensures_ok inside'
  · exact (ensures_readItems returns (fits content rfl)).bind fun items _ => ensures_ok inside'

/-! ## Certificates -/

theorem ensures_decodeDetails {rawTlv : Bytes} (fits : rawTlv.length < 2 ^ 64) :
    Ensures (fun _ => True) (decodeDetails rawTlv) := by
  have outer := Reader.inside_new fits
  refine (outer.readTlv Tag.certDetails).bind ?_
  rintro ⟨innerBytes, _⟩ passed
  have inner := Reader.inside_new (passed.fits outer)
  refine (inner.readTlv Tag.detailsName).bind ?_
  rintro ⟨nameBytes, r⟩ passed
  refine (ensures_stringFromUtf8 _ nameBytes).bind fun name _ => ?_
  refine (ensures_readField (passed.inside inner) Network.ensures_decode _ _).bind ?_
  rintro ⟨networks, r⟩ inside
  refine (ensures_readField inside Network.ensures_decode _ _).bind ?_
  rintro ⟨unsafeNetworks, r⟩ inside
  refine (ensures_readField inside (ensures_stringFromUtf8 _) _ _).bind ?_
  rintro ⟨groups, r⟩ inside
  refine (inside.readTlvOpt Tag.detailsIsCa).bind ?_
  rintro ⟨isCa, r⟩ ⟨inside, -⟩
  refine (inside.readTlv Tag.detailsNotBefore).bind ?_
  rintro ⟨notBefore, r⟩ passed
  have inside := passed.inside inside
  refine (ensures_decodeDerInt notBefore).bind fun notBefore _ => ?_
  refine (inside.readTlv Tag.detailsNotAfter).bind ?_
  rintro ⟨notAfter, r⟩ passed
  refine (ensures_decodeDerInt notAfter).bind fun notAfter _ => ?_
  exact ((passed.inside inside).readTlvOpt Tag.detailsIssuer).bind fun issuer _ => ensures_ok trivial

namespace Certificate

theorem ensures_fromByte (b : UInt8) : Ensures (fun _ => True) (Curve.fromByte b) := by
  unfold Curve.fromByte
  split
  · exact ensures_ok trivial
  · exact ensures_ok trivial
  · exact ensures_err _

theorem ensures_decodeCurve (found : Option Bytes) : Ensures (fun _ => True) (decodeCurve found) := by
  cases found with
  | none => exact ensures_ok trivial
  | some content =>
    simp only [decodeCurve]
    split
    · exact (ensures_index (by omega)).bind fun b _ => ensures_fromByte b
    · exact ensures_err _

section Fits

variable {bytes : Bytes} (fits : bytes.length < 2 ^ 64)

include fits

theorem ensures_decode : Ensures (fun _ => True) (decode bytes) := by
  have top := Reader.inside_new fits
  refine (top.readTlv Tag.sequence).bind ?_
  rintro ⟨envelope, _⟩ passed
  have inside := Reader.inside_new (passed.fits top)
  refine (inside.readTlvRaw Tag.certDetails).bind ?_
  rintro ⟨rawDetails, r⟩ passed
  refine (ensures_decodeDetails (passed.fits inside)).bind fun details _ => ?_
  refine ((passed.inside inside).readTlvOpt Tag.certCurve).bind ?_
  rintro ⟨curve, r⟩ ⟨inside, -⟩
  refine (ensures_decodeCurve curve).bind fun curve _ => ?_
  refine (inside.readTlv Tag.certPublicKey).bind ?_
  rintro ⟨publicKey, r⟩ passed
  exact ((passed.inside inside).readTlv Tag.certSignature).bind fun signature _ => ensures_ok trivial

theorem ensures_recombine (key : Bytes) (curve : Curve) : Ensures (fun _ => True) (recombine bytes key curve) := by
  have top := Reader.inside_new fits
  refine (top.readTlv Tag.sequence).bind ?_
  rintro ⟨envelope, _⟩ passed
  have inside := Reader.inside_new (passed.fits top)
  refine (inside.readTlvRaw Tag.certDetails).bind ?_
  rintro ⟨rawDetails, r⟩ passed
  refine (ensures_decodeDetails (passed.fits inside)).bind fun details _ => ?_
  exact ((passed.inside inside).readTlv Tag.certSignature).bind fun signature _ => ensures_ok trivial

end Fits

/-! ## Every cursor -/

/-- The cursors in the bytes: all that reads move through, also reads that fail, and those at the front of
what was read. -/
inductive Cursor (bytes : Bytes) : Reader → Prop
  | start : Cursor bytes (.new bytes)
  | stepped {r : Reader} {byte : UInt8} (before : Cursor bytes r) (present : r.data[r.pos]? = some byte) :
    Cursor bytes { r with pos := r.pos + 1 }
  | length {r : Reader} {read : ℕ × Reader} (before : Cursor bytes r) (ok : r.readLength = .ok read) :
    Cursor bytes read.2
  | behind {r : Reader} {tag : UInt8} {read : Bytes × Reader} (before : Cursor bytes r)
    (ok : r.readTlv tag = .ok read) : Cursor bytes read.2
  | content {r : Reader} {tag : UInt8} {read : Bytes × Reader} (before : Cursor bytes r)
    (ok : r.readTlv tag = .ok read) : Cursor bytes (.new read.1)
  | raw {r : Reader} {tag : UInt8} {read : Bytes × Reader} (before : Cursor bytes r)
    (ok : r.readTlvRaw tag = .ok read) : Cursor bytes (.new read.1)

theorem Cursor.inside {bytes : Bytes} (fits : bytes.length < 2 ^ 64) {r : Reader} (cursor : Cursor bytes r) :
    r.Inside ∧ r.data.length ≤ bytes.length := by
  induction cursor with
  | start => exact ⟨Reader.inside_new fits, le_refl _⟩
  | stepped before present ih => exact ⟨(ih.1.step present).2, ih.2⟩
  | length before ok ih =>
    obtain ⟨same, -, within⟩ := ih.1.readLength.of_ok ok
    exact ⟨⟨by rw [same]; exact within, by rw [same]; exact ih.1.data⟩, by rw [same]; exact ih.2⟩
  | behind before ok ih =>
    have passed := (ih.1.readTlv _).of_ok ok
    exact ⟨passed.inside ih.1, by rw [passed.data]; exact ih.2⟩
  | content before ok ih =>
    have passed := (ih.1.readTlv _).of_ok ok
    exact ⟨Reader.inside_new (passed.fits ih.1), le_trans passed.content ih.2⟩
  | raw before ok ih =>
    have passed := (ih.1.readTlvRaw _).of_ok ok
    exact ⟨Reader.inside_new (passed.fits ih.1), le_trans passed.content ih.2⟩

/-- The loop over items moves through cursors. -/
theorem Cursor.turns {bytes : Bytes} {α : Type} {itemTag : UInt8} {item : Bytes → Res α}
    {s t : Reader × List α} {visited : List (Reader × List α)}
    (turns : (readItems itemTag item).Turns s visited t) (cursor : Cursor bytes s.1) : Cursor bytes t.1 := by
  induction turns with
  | nil => exact cursor
  | cons turn rest ih =>
    obtain ⟨-, content, value, read, -⟩ := readItems_turn_iff.mp turn
    exact ih (.behind cursor read)

/-- Whatever bytes a buffer holds, `decode` and `recombine` return a certificate or an error of the codec. No
cursor passes the end of its buffer, and none of the reads that start at one unwinds. The loops over
networks and groups take two bytes at least at every turn. -/
theorem decoders_return (bytes : Bytes) (fits : bytes.length < 2 ^ 64) :
    ((∃ c, decode bytes = .ok c) ∨ ∃ error, decode bytes = .error (.err error)) ∧
    (∀ key curve, (∃ c, recombine bytes key curve = .ok c) ∨
      ∃ error, recombine bytes key curve = .error (.err error)) ∧
    (∀ r, Cursor bytes r → r.pos ≤ r.data.length ∧ r.data.length ≤ bytes.length ∧
      ∀ tag, Ensures r.Passed (r.readTlv tag) ∧ Ensures r.Passed (r.readTlvRaw tag) ∧
        Ensures (fun read => read.2.Inside) (r.readTlvOpt tag)) ∧
    ∀ content, Cursor bytes (.new content) → ∀ (α : Type) itemTag (item : Bytes → Res α) visited t,
      (readItems itemTag item).Turns (.new content, []) visited t →
        Cursor bytes t.1 ∧ t.1.data = content ∧ 2 * visited.length ≤ t.1.pos ∧
          ∀ next, (readItems itemTag item).body t = .next next → t.1.pos + 2 ≤ next.1.pos := by
  refine ⟨(ensures_decode fits).result, fun key curve => (ensures_recombine fits key curve).result, ?_, ?_⟩
  · intro r cursor
    obtain ⟨inside, within⟩ := cursor.inside fits
    refine ⟨inside.pos, within, ?_⟩
    intro tag
    exact ⟨inside.readTlv tag, inside.readTlvRaw tag, (inside.readTlvOpt tag).imp fun _ read => read.1⟩
  · intro content cursor α itemTag item visited t turns
    obtain ⟨inside, same, taken⟩ := two_bytes_each turns (cursor.inside fits).1
    refine ⟨Cursor.turns turns cursor, same, by simpa [Reader.new] using taken, ?_⟩
    intro next turn
    obtain ⟨-, content', value, read, -⟩ := readItems_turn_iff.mp turn
    exact ((inside.readTlv itemTag).of_ok read).forward

/-- A length of eight bytes that states 2⁶⁴ - 1, inside an envelope that states as much. -/
def hugeLengths : Bytes :=
  [0x30, 0x88, 0xff, 0xff, 0xff, 0xff, 0xff, 0xff, 0xff, 0xff, 0xA0, 0x88, 0xff, 0xff, 0xff, 0xff, 0xff, 0xff, 0xff,
    0xff]

/-- The largest length that can be stated is refused, with any key and curve. -/
theorem hugeLengths_refused :
    decode hugeLengths = .error (.err (.der "length overflow")) ∧
      ∀ key curve, (∃ c, recombine hugeLengths key curve = .ok c) ∨
        ∃ error, recombine hugeLengths key curve = .error (.err error) :=
  ⟨by decide +kernel, (decoders_return hugeLengths (by decide)).2.1⟩

end Certificate

end Nebula
