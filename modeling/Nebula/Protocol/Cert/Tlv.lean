import Nebula.Protocol.Cert.Der

/-! # What the TLV reader accepts

The reader takes any length of one to nine bytes, minimal or not. `IsTlv` describes the byte strings it
reads as one TLV; the two readings agree in both directions, so a decoder can be inverted by describing
its input. A TLV ends where its own length says, so none is a proper prefix of another.
-/

namespace Nebula

open Rust

/-! ## Lengths -/

/-- The encodings of a length that the reader accepts. -/
inductive LengthBytes : Bytes → ℕ → Prop
  | short (first : UInt8) (plain : first &&& 0x80 = 0) : LengthBytes [first] first.toNat
  | long (first : UInt8) (part : Bytes) (marked : first &&& 0x80 ≠ 0)
    (size : part.length = (first &&& 0x7f).toNat) (some : part.length ≠ 0) (most : part.length ≤ 8) :
    LengthBytes (first :: part) (beNat part)

namespace LengthBytes

theorem length_pos {len : Bytes} {n : ℕ} (stated : LengthBytes len n) : 1 ≤ len.length := by
  cases stated with
  | short => exact le_refl 1
  | long first part => exact Nat.le_add_left 1 part.length

/-- The first byte tells how many follow. -/
theorem unique {len len' rest rest' : Bytes} {n n' : ℕ} (stated : LengthBytes len n)
    (stated' : LengthBytes len' n') (same : len ++ rest = len' ++ rest') : len = len' ∧ n = n' ∧ rest = rest' := by
  cases stated with
  | short first plain =>
    cases stated' with
    | short first' plain' =>
      obtain ⟨rfl, rfl⟩ := List.cons.inj same
      exact ⟨rfl, rfl, rfl⟩
    | long first' part marked =>
      obtain ⟨rfl, -⟩ := List.cons.inj same
      exact absurd plain marked
  | long first part marked size =>
    cases stated' with
    | short first' plain' =>
      obtain ⟨rfl, -⟩ := List.cons.inj same
      exact absurd plain' marked
    | long first' part' marked' size' =>
      obtain ⟨rfl, behind⟩ := List.cons.inj same
      obtain ⟨rfl, rfl⟩ := List.append_inj behind (size.trans size'.symm)
      exact ⟨rfl, rfl, rfl⟩

end LengthBytes

theorem lengthBytes_writeLength {n : ℕ} (bound : n < 2 ^ 64) : LengthBytes (writeLength n) n := by
  unfold writeLength
  split
  · next small =>
    have value : (UInt8.ofNat n).toNat = n := by simp; omega
    have stated := LengthBytes.short (UInt8.ofNat n) ?_
    · rwa [value] at stated
    · have plain : ∀ k : Fin 128, UInt8.ofNat k &&& 0x80 = 0 := by decide
      exact plain ⟨n, small⟩
  · next large =>
    have value : beNat ((beBytes 8 n).dropWhile (· = 0)) = n := by
      rw [beNat_dropWhile_zero, beNat_beBytes 8 n bound]
    have most : ((beBytes 8 n).dropWhile (· = 0)).length ≤ 8 := length_dropWhile_beBytes_le bound
    have some : ((beBytes 8 n).dropWhile (· = 0)).length ≠ 0 := by
      intro none
      rw [List.length_eq_zero_iff.mp none] at value
      change 0 = n at value
      omega
    dsimp only
    generalize (beBytes 8 n).dropWhile (· = 0) = significant at value most some ⊢
    have marked : ∀ k : Fin 9, (0x80 ||| UInt8.ofNat k) &&& 0x80 ≠ 0 := by decide
    have counted : ∀ k : Fin 9, k.val = ((0x80 ||| UInt8.ofNat k) &&& 0x7f).toNat := by decide
    have index : significant.length < 9 := by omega
    have stated := LengthBytes.long (0x80 ||| UInt8.ofNat significant.length) significant
      (marked ⟨significant.length, index⟩) (counted ⟨significant.length, index⟩) some most
    rwa [value] at stated

/-- No accepted encoding of a length is shorter than the written one, nor one of a larger length. -/
theorem length_writeLength_le {len : Bytes} {n m : ℕ} (stated : LengthBytes len m) (le : n ≤ m) :
    (writeLength n).length ≤ len.length := by
  unfold writeLength
  split
  · exact stated.length_pos
  · next large =>
    cases stated with
    | short first plain =>
      have small : ∀ k : Fin 256, UInt8.ofNat k &&& 0x80 = 0 → k.val < 0x80 := by decide +kernel
      have bound := small ⟨first.toNat, first.toNat_lt⟩ (by rw [UInt8.ofNat_toNat]; exact plain)
      exact absurd (lt_of_le_of_lt le bound) large
    | long first part =>
      apply Nat.succ_le_succ
      exact length_dropWhile_beBytes_le (lt_of_le_of_lt le (beNat_lt part))

/-- A length that is stated fits a `usize`. -/
theorem LengthBytes.lt {len : Bytes} {n : ℕ} (stated : LengthBytes len n) : n < 2 ^ 64 := by
  cases stated with
  | short first => exact lt_trans first.toNat_lt (by decide)
  | long first part marked size some most =>
    exact lt_of_lt_of_le (beNat_lt part) (Nat.pow_le_pow_right (by decide) most)

/-- A length has one encoding of each size. -/
theorem LengthBytes.eq_of_length {len len' : Bytes} {n n' : ℕ} (stated : LengthBytes len n)
    (stated' : LengthBytes len' n') (value : n = n') (size : len.length = len'.length) : len = len' := by
  cases stated with
  | short first plain =>
    cases stated' with
    | short first' plain' => rw [UInt8.toNat_inj.mp value]
    | long first' part marked count some =>
      rw [List.length_singleton, List.length_cons] at size
      omega
  | long first part marked count =>
    cases stated' with
    | short first' plain' =>
      rw [List.length_singleton, List.length_cons] at size
      omega
    | long first' part' marked' count' =>
      have sizes : part.length = part'.length := Nat.succ.inj size
      have parts : part = part' := by
        rw [← beBytes_beNat (rfl : part.length = part.length), ← beBytes_beNat sizes.symm, value]
      have rebuilt : ∀ k : Fin 256, UInt8.ofNat k &&& 0x80 ≠ 0 →
          UInt8.ofNat k = 0x80 ||| UInt8.ofNat k &&& 0x7f := by decide +kernel
      have start (byte : UInt8) (marked : byte &&& 0x80 ≠ 0) : byte = 0x80 ||| byte &&& 0x7f := by
        have whole := rebuilt ⟨byte.toNat, byte.toNat_lt⟩
        simp only [UInt8.ofNat_toNat] at whole
        exact whole marked
      have counts : first &&& 0x7f = first' &&& 0x7f := UInt8.toNat_inj.mp (by rw [← count, ← count', sizes])
      rw [parts, start first marked, start first' marked', counts]

/-! ## TLVs -/

/-- The byte strings the reader takes for a TLV with this tag and content. -/
inductive IsTlv (tag : UInt8) (content : Bytes) : Bytes → Prop
  | mk (len : Bytes) (stated : LengthBytes len content.length) : IsTlv tag content (tag :: (len ++ content))

namespace IsTlv

/-- A TLV ends where its own length says, whatever follows. -/
theorem unique {tag : UInt8} {content content' raw raw' rest rest' : Bytes} (tlv : IsTlv tag content raw)
    (tlv' : IsTlv tag content' raw') (same : raw ++ rest = raw' ++ rest') :
    raw = raw' ∧ content = content' ∧ rest = rest' := by
  cases tlv with
  | mk len stated =>
    cases tlv' with
    | mk len' stated' =>
      rw [List.cons_append, List.cons_append, List.append_assoc, List.append_assoc] at same
      obtain ⟨rfl, lengths, behind⟩ := stated.unique stated' (List.cons.inj same).2
      obtain ⟨rfl, rfl⟩ := List.append_inj behind lengths
      exact ⟨rfl, rfl, rfl⟩

theorem length_content_le {tag : UInt8} {content raw : Bytes} (tlv : IsTlv tag content raw) :
    content.length ≤ raw.length := by
  cases tlv with
  | mk len stated =>
    rw [List.length_cons, List.length_append]
    omega

/-- The written TLV is the shortest that the reader takes for its content, or for a longer one. -/
theorem length_writeTlv_le {tag : UInt8} {content content' raw : Bytes} (tlv : IsTlv tag content raw)
    (tag' : UInt8) (le : content'.length ≤ content.length) : (writeTlv tag' content').length ≤ raw.length := by
  cases tlv with
  | mk len stated =>
    have lengths := length_writeLength_le stated le
    simp only [writeTlv, List.length_cons, List.length_append]
    omega

theorem length_content_lt {tag : UInt8} {content raw : Bytes} (tlv : IsTlv tag content raw) :
    content.length < 2 ^ 64 := by
  cases tlv with
  | mk len stated => exact stated.lt

end IsTlv

theorem isTlv_writeTlv (tag : UInt8) {content : Bytes} (bound : content.length < 2 ^ 64) :
    IsTlv tag content (writeTlv tag content) := .mk _ (lengthBytes_writeLength bound)

/-- The written TLV is the only one that no other with its content is shorter than. -/
theorem IsTlv.shortest_iff {tag : UInt8} {content raw : Bytes} (tlv : IsTlv tag content raw) :
    (∀ raw', IsTlv tag content raw' → raw.length ≤ raw'.length) ↔ raw = writeTlv tag content := by
  constructor
  · intro shortest
    have lower := shortest _ (isTlv_writeTlv tag tlv.length_content_lt)
    have upper := tlv.length_writeTlv_le tag (le_refl content.length)
    cases tlv with
    | mk len stated =>
      simp only [writeTlv, List.length_cons, List.length_append] at lower upper ⊢
      rw [stated.eq_of_length (lengthBytes_writeLength stated.lt) rfl (by omega)]
  · rintro rfl raw' tlv'
    exact tlv'.length_writeTlv_le tag (le_refl content.length)

namespace Reader

/-- A reader that has come past `front`. -/
def past (front rest : Bytes) : Reader := ⟨front ++ rest, front.length⟩

theorem past_concat (front rest : Bytes) (byte : UInt8) :
    ({ past front (byte :: rest) with pos := front.length + 1 } : Reader) = past (front ++ [byte]) rest := by
  simp [past]

theorem getElem?_past (front rest : Bytes) : (past front rest).data[(past front rest).pos]? = rest.head? := by
  rw [past, List.getElem?_append_right (le_refl _), Nat.sub_self, List.head?_eq_getElem?]

theorem getSlice_past {front rest part : Bytes} {count : ℕ} :
    getSlice (past front rest).data (past front rest).pos ((past front rest).pos + count) = some part ↔
      part = rest.take count ∧ count ≤ rest.length := by
  unfold getSlice past
  simp only [List.length_append, Nat.le_add_right, Nat.add_le_add_iff_left, true_and, List.take_length_add_append,
    List.drop_left]
  split
  · next fits => simp [fits, eq_comm]
  · next short => simp [short]

theorem checkedAdd_eq_some_iff {a b sum : ℕ} : checkedAdd a b = some sum ↔ sum = a + b ∧ a + b < 2 ^ 64 := by
  unfold checkedAdd
  split
  · next fits =>
    constructor
    · rintro ⟨⟩
      exact ⟨rfl, fits⟩
    · rintro ⟨rfl, -⟩
      rfl
  · next large =>
    constructor
    · rintro ⟨⟩
    · rintro ⟨-, fits⟩
      exact absurd fits large

/-- What is read as a length is the encoding of one. -/
theorem readLength_past {front rest : Bytes} {n : ℕ} {r' : Reader}
    (read : (past front rest).readLength = .ok (n, r')) :
    ∃ len behind, rest = len ++ behind ∧ LengthBytes len n ∧ r' = past (front ++ len) behind := by
  obtain ⟨first, found, read⟩ := bind_eq_ok.mp read
  have head := okOr_eq_ok found
  rw [getElem?_past] at head
  obtain ⟨tail, rfl⟩ := List.head?_eq_some_iff.mp head
  obtain ⟨behind, stepped, read⟩ := bind_eq_ok.mp read
  obtain ⟨rfl, -⟩ := usizeAdd_eq_ok_iff.mp (orUnwind_eq_ok stepped)
  dsimp only at read
  split at read
  · next plain =>
    cases read
    exact ⟨[first], tail, rfl, .short first plain, past_concat front tail first⟩
  · next marked =>
    split at read
    · cases read
    · next supported =>
      obtain ⟨stop, sum, read⟩ := bind_eq_ok.mp read
      obtain ⟨part, sliced, read⟩ := bind_eq_ok.mp read
      obtain ⟨start, started, read⟩ := bind_eq_ok.mp read
      obtain ⟨buf, copied, read⟩ := bind_eq_ok.mp read
      cases read
      obtain ⟨rfl, -⟩ := checkedAdd_eq_some_iff.mp (okOr_eq_ok sum)
      have taken : getSlice (past (front ++ [first]) tail).data (past (front ++ [first]) tail).pos
          ((past (front ++ [first]) tail).pos + (first &&& 0x7f).toNat) = some part := by
        rw [← past_concat]
        exact okOr_eq_ok sliced
      obtain ⟨rfl, enough⟩ := getSlice_past.mp taken
      have size : (tail.take (first &&& 0x7f).toNat).length = (first &&& 0x7f).toNat := by
        rw [List.length_take, Nat.min_eq_left enough]
      have most : (first &&& 0x7f).toNat ≤ 8 := Nat.not_lt.mp fun large => supported (.inr large)
      obtain rfl := Except.ok.inj ((orUnwind_eq_ok started).symm.trans (usizeSub_eq_ok most))
      have right := copyIntoFrom_replicate (0 : UInt8) (le_of_eq_of_le size most)
      rw [size] at right
      obtain rfl := Except.ok.inj ((orUnwind_eq_ok copied).symm.trans right)
      refine ⟨first :: tail.take (first &&& 0x7f).toNat, tail.drop (first &&& 0x7f).toNat, ?_, ?_, ?_⟩
      · rw [List.cons_append, List.take_append_drop]
      · rw [beNat_zeros_append]
        apply LengthBytes.long first _ marked size
        · omega
        · omega
      · simp only [past, List.length_append, List.length_cons, List.append_assoc, List.cons_append,
          List.take_append_drop, size]
        rw [Nat.add_comm (first &&& 0x7f).toNat, Nat.add_assoc]

/-- An encoding of a length is read as the length, wherever it stands. -/
theorem readLength_of_lengthBytes {front len behind : Bytes} {n : ℕ} (stated : LengthBytes len n)
    (bound : (front ++ len).length < 2 ^ 64) :
    (past front (len ++ behind)).readLength = .ok (n, past (front ++ len) behind) := by
  have step (first : UInt8) (tail : Bytes) (starts : len = first :: tail) :
      orUnwind (usizeAdd (past front (len ++ behind)).pos 1) = (.ok (front.length + 1) : Res ℕ) := by
    have fits : usizeAdd front.length 1 = .ok (front.length + 1) := by
      rw [starts, List.length_append, List.length_cons] at bound
      exact usizeAdd_eq_ok_iff.mpr ⟨rfl, by omega⟩
    exact congrArg orUnwind fits
  cases stated with
  | short first plain =>
    have present : (past front ([first] ++ behind)).data[(past front ([first] ++ behind)).pos]? = some first :=
      getElem?_past ..
    refine bind_eq_ok.mpr ⟨first, congrArg (okOr _) present, bind_eq_ok.mpr ⟨_, step first [] rfl, ?_⟩⟩
    change (if first &&& 0x80 = 0 then _ else _) = _
    rw [if_pos plain]
    exact congrArg (fun r => Except.ok (first.toNat, r)) (past_concat front behind first)
  | long first part marked size some most =>
    have present : (past front (first :: part ++ behind)).data[(past front (first :: part ++ behind)).pos]? =
        Option.some first := getElem?_past ..
    have sum : checkedAdd (front.length + 1) (first &&& 0x7f).toNat =
        Option.some (front.length + 1 + (first &&& 0x7f).toNat) := by
      apply checkedAdd_eq_some_iff.mpr
      rw [List.length_append, List.length_cons] at bound
      omega
    have taken : getSlice (front ++ (first :: part ++ behind)) (front.length + 1)
        (front.length + 1 + (first &&& 0x7f).toNat) = Option.some part := by
      have found : getSlice (past (front ++ [first]) (part ++ behind)).data
          (past (front ++ [first]) (part ++ behind)).pos
          ((past (front ++ [first]) (part ++ behind)).pos + (first &&& 0x7f).toNat) = Option.some part := by
        apply getSlice_past.mpr
        rw [← size, List.take_left, List.length_append]
        exact ⟨rfl, Nat.le_add_right _ _⟩
      rw [← past_concat] at found
      exact found
    have start : usizeSub 8 (first &&& 0x7f).toNat = .ok (8 - part.length) := by
      rw [← size]
      exact usizeSub_eq_ok most
    refine bind_eq_ok.mpr ⟨first, congrArg (okOr _) present, bind_eq_ok.mpr ⟨_, step first part rfl, ?_⟩⟩
    change (if first &&& 0x80 = 0 then _ else if _ then _ else _) = _
    rw [if_neg marked, if_neg (by omega)]
    refine bind_eq_ok.mpr ⟨_, congrArg (okOr _) sum, bind_eq_ok.mpr ⟨part, congrArg (okOr _) taken, ?_⟩⟩
    refine bind_eq_ok.mpr ⟨_, congrArg orUnwind start,
      bind_eq_ok.mpr ⟨_, congrArg orUnwind (copyIntoFrom_replicate (0 : UInt8) most), ?_⟩⟩
    rw [beNat_zeros_append, ← size]
    apply congrArg (fun r => Except.ok (beNat part, r))
    simp only [past, List.length_append, List.length_cons, List.append_assoc, List.cons_append]
    rw [Nat.add_assoc, Nat.add_comm 1]

/-- Behind a TLV the cursor is its length and its content further on. -/
theorem past_tlv (front len content behind : Bytes) (tag : UInt8) :
    past (front ++ tag :: (len ++ content)) behind =
      { past (front ++ [tag] ++ len) (content ++ behind) with
        pos := (past (front ++ [tag] ++ len) (content ++ behind)).pos + content.length } := by
  simp only [past, List.append_assoc, List.cons_append, List.nil_append, List.length_append, List.length_cons]
  congr 1
  omega

/-- A TLV is read if and only if one stands at the cursor, with its end at a representable position. -/
theorem readTlv_past_iff {front rest content : Bytes} {tag : UInt8} {r' : Reader} :
    (past front rest).readTlv tag = .ok (content, r') ↔
      ∃ raw behind, rest = raw ++ behind ∧ IsTlv tag content raw ∧ r' = past (front ++ raw) behind ∧
        (front ++ raw).length < 2 ^ 64 := by
  constructor
  · intro parsed
    obtain ⟨found, present, read⟩ := bind_eq_ok.mp parsed
    have head := okOr_eq_ok present
    rw [getElem?_past] at head
    obtain ⟨tail, rfl⟩ := List.head?_eq_some_iff.mp head
    dsimp only at read
    split at read
    · cases read
    · next same =>
      obtain rfl : found = tag := not_not.mp same
      obtain ⟨after, stepped, read⟩ := bind_eq_ok.mp read
      obtain ⟨rfl, -⟩ := usizeAdd_eq_ok_iff.mp (orUnwind_eq_ok stepped)
      obtain ⟨⟨count, r⟩, length, read⟩ := bind_eq_ok.mp read
      obtain ⟨stop, sum, read⟩ := bind_eq_ok.mp read
      obtain ⟨part, sliced, read⟩ := bind_eq_ok.mp read
      cases read
      change (({ past front (found :: tail) with pos := front.length + 1 } : Reader)).readLength = _ at length
      rw [past_concat] at length
      obtain ⟨len, behind, rfl, stated, rfl⟩ := readLength_past length
      obtain ⟨rfl, bound⟩ := checkedAdd_eq_some_iff.mp (okOr_eq_ok sum)
      obtain ⟨rfl, enough⟩ := getSlice_past.mp (okOr_eq_ok sliced)
      have size : (behind.take count).length = count := by rw [List.length_take, Nat.min_eq_left enough]
      have cursor : past (front ++ found :: (len ++ behind.take count)) (behind.drop count) =
          { past (front ++ [found] ++ len) behind with
            pos := (past (front ++ [found] ++ len) behind).pos + count } := by
        rw [past_tlv, List.take_append_drop, size]
      refine ⟨found :: (len ++ behind.take count), behind.drop count, ?_, .mk len ?_, cursor.symm, ?_⟩
      · rw [List.cons_append, List.append_assoc, List.take_append_drop]
      · rw [size]
        exact stated
      · have position := congrArg Reader.pos cursor
        dsimp only [past] at position bound
        rw [position]
        exact bound
  · rintro ⟨raw, behind, rfl, ⟨len, stated⟩, rfl, bound⟩
    have read : (past (front ++ [tag]) (len ++ (content ++ behind))).readLength =
        .ok (content.length, past (front ++ [tag] ++ len) (content ++ behind)) := by
      apply readLength_of_lengthBytes stated
      simp only [List.length_append, List.length_cons, List.length_nil] at bound ⊢
      omega
    have sum : checkedAdd (past (front ++ [tag] ++ len) (content ++ behind)).pos content.length =
        some ((past (front ++ [tag] ++ len) (content ++ behind)).pos + content.length) := by
      apply checkedAdd_eq_some_iff.mpr
      refine ⟨rfl, ?_⟩
      simp only [past, List.length_append, List.length_cons, List.length_nil] at bound ⊢
      omega
    have taken : getSlice (past (front ++ [tag] ++ len) (content ++ behind)).data
        (past (front ++ [tag] ++ len) (content ++ behind)).pos
        ((past (front ++ [tag] ++ len) (content ++ behind)).pos + content.length) = some content := by
      apply getSlice_past.mpr
      rw [List.take_left, List.length_append]
      exact ⟨rfl, Nat.le_add_right _ _⟩
    have here : (past front (tag :: (len ++ content) ++ behind)).data[
        (past front (tag :: (len ++ content) ++ behind)).pos]? = some tag := getElem?_past ..
    have step : usizeAdd front.length 1 = .ok (front.length + 1) := by
      rw [List.length_append, List.length_cons] at bound
      exact usizeAdd_eq_ok_iff.mpr ⟨rfl, by omega⟩
    refine bind_eq_ok.mpr ⟨tag, congrArg (okOr _) here, ?_⟩
    change (if tag ≠ tag then _ else _) = _
    rw [if_neg (not_not.mpr rfl)]
    refine bind_eq_ok.mpr ⟨_, congrArg orUnwind step, ?_⟩
    refine bind_eq_ok.mpr ⟨(content.length, past (front ++ [tag] ++ len) (content ++ behind)), ?_,
      bind_eq_ok.mpr ⟨_, congrArg (okOr _) sum, bind_eq_ok.mpr ⟨content, congrArg (okOr _) taken, ?_⟩⟩⟩
    · rw [← past_concat, ← List.append_assoc] at read
      exact read
    · exact congrArg (fun r => Except.ok (content, r)) (past_tlv front len content behind tag).symm

theorem readTlv_new_iff {data content : Bytes} {tag : UInt8} {r' : Reader} :
    (new data).readTlv tag = .ok (content, r') ↔
      ∃ raw behind, data = raw ++ behind ∧ IsTlv tag content raw ∧ r' = past raw behind ∧ raw.length < 2 ^ 64 :=
  @readTlv_past_iff [] data content tag r'

theorem readTlvRaw_past_iff {front rest raw : Bytes} {tag : UInt8} {r' : Reader} :
    (past front rest).readTlvRaw tag = .ok (raw, r') ↔
      ∃ content behind, rest = raw ++ behind ∧ IsTlv tag content raw ∧ r' = past (front ++ raw) behind ∧
        (front ++ raw).length < 2 ^ 64 := by
  have whole (raw behind : Bytes) : slice (past (front ++ raw) behind).data front.length (front ++ raw).length =
      .ok raw := by
    rw [past, List.append_assoc]
    exact slice_middle rfl (List.length_append).symm
  constructor
  · intro parsed
    obtain ⟨⟨content, r⟩, read, rest_read⟩ := bind_eq_ok.mp parsed
    obtain ⟨found, behind, rfl, tlv, rfl, bound⟩ := readTlv_past_iff.mp read
    obtain ⟨sliced, cut, returned⟩ := bind_eq_ok.mp rest_read
    change orUnwind (slice _ front.length (front ++ found).length) = _ at cut
    rw [whole, orUnwind_ok] at cut
    cases cut
    cases returned
    exact ⟨content, behind, rfl, tlv, rfl, bound⟩
  · rintro ⟨content, behind, rfl, tlv, rfl, bound⟩
    refine bind_eq_ok.mpr ⟨_, readTlv_past_iff.mpr ⟨raw, behind, rfl, tlv, rfl, bound⟩, ?_⟩
    refine bind_eq_ok.mpr ⟨raw, ?_, rfl⟩
    exact congrArg orUnwind (whole raw behind)

theorem readTlvRaw_new_iff {data raw : Bytes} {tag : UInt8} {r' : Reader} :
    (new data).readTlvRaw tag = .ok (raw, r') ↔
      ∃ content behind, data = raw ++ behind ∧ IsTlv tag content raw ∧ r' = past raw behind ∧
        raw.length < 2 ^ 64 :=
  @readTlvRaw_past_iff [] data raw tag r'

theorem head?_of_readTlv {front rest content : Bytes} {tag : UInt8} {r' : Reader}
    (read : (past front rest).readTlv tag = .ok (content, r')) : rest.head? = some tag := by
  obtain ⟨raw, behind, rfl, ⟨len, stated⟩, -, -⟩ := readTlv_past_iff.mp read
  rfl

theorem readTlvOpt_past_iff {front rest : Bytes} {tag : UInt8} {found : Option Bytes} {r' : Reader} :
    (past front rest).readTlvOpt tag = .ok (found, r') ↔
      (rest.head? ≠ some tag ∧ found = none ∧ r' = past front rest) ∨
        ∃ content, found = some content ∧ (past front rest).readTlv tag = .ok (content, r') := by
  rw [readTlvOpt, peekTag, getElem?_past]
  split
  · next present =>
    constructor
    · intro parsed
      obtain ⟨⟨content, r⟩, read, returned⟩ := bind_eq_ok.mp parsed
      cases returned
      exact .inr ⟨content, rfl, read⟩
    · rintro (⟨absent, -, -⟩ | ⟨content, rfl, read⟩)
      · exact absurd present absent
      · exact bind_eq_ok.mpr ⟨_, read, rfl⟩
  · next absent =>
    constructor
    · rintro ⟨⟩
      exact .inl ⟨absent, rfl, rfl⟩
    · rintro (⟨-, rfl, rfl⟩ | ⟨content, rfl, read⟩)
      · rfl
      · exact absurd (head?_of_readTlv read) absent

end Reader

end Nebula
