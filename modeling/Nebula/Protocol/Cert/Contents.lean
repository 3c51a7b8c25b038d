import Nebula.Protocol.Cert.Tlv

/-! # What the contents of fields say

A string is its UTF-8 bytes and a network its address and prefix byte, in one way each. An integer is read
from any number of bytes up to eight; the bytes trimmed off when it is written are the zeros its sign
extends it by.
-/

namespace Nebula

open Rust

/-! ## Strings -/

theorem toList_byteArray (bytes : ByteArray) : bytes.toList = bytes.data.toList := by
  have loop (i : ℕ) (front : Bytes) :
      ByteArray.toList.loop bytes i front = front.reverse ++ bytes.data.toList.drop i := by
    fun_induction ByteArray.toList.loop bytes i front with
    | case1 i front inside ih =>
      have bound : i < bytes.data.toList.length := inside
      rw [ih, List.drop_eq_getElem_cons bound, List.reverse_cons, List.append_assoc, List.singleton_append]
      congr 2
      exact getElem!_pos bytes.data i inside
    | case2 i front outside =>
      have bound : bytes.data.toList.length ≤ i := Nat.not_lt.mp outside
      rw [List.drop_eq_nil_of_le bound, List.append_nil]
  exact loop 0 []

theorem stringFromUtf8_asBytes (error : Error) (s : String) : stringFromUtf8 error (asBytes s) = .ok s := by
  have same : (asBytes s).toByteArray = s.toByteArray := by
    ext1
    rw [asBytes, toList_byteArray, List.data_toByteArray, Array.toArray_toList]
  have valid : s.toByteArray.IsValidUTF8 := s.isValidUTF8
  rw [stringFromUtf8, same, String.fromUTF8?, dif_pos valid]
  rfl

theorem stringFromUtf8_eq_ok_iff {error : Error} {b : Bytes} {s : String} :
    stringFromUtf8 error b = .ok s ↔ b = asBytes s := by
  constructor
  · intro read
    have found := okOr_eq_ok read
    unfold String.fromUTF8? at found
    split at found
    · cases found
      rw [asBytes, toList_byteArray]
      change b = b.toByteArray.data.toList
      rw [List.data_toByteArray]
    · cases found
  · rintro rfl
    exact stringFromUtf8_asBytes error s

/-! ## Integers -/

/-- Only zeros are trimmed, and only in front of a byte without the sign bit. -/
theorem trimSign_spec {bytes : Bytes} (some : bytes ≠ []) :
    ∃ zeros first rest, bytes = List.replicate zeros 0 ++ first :: rest ∧ trimSign bytes = first :: rest ∧
      (zeros = 0 ∨ first &&& 0x80 = 0) := by
  fun_induction trimSign bytes with
  | case1 next rest plain ih =>
    obtain ⟨zeros, first, behind, split, trimmed, sign⟩ := ih (List.cons_ne_nil _ _)
    refine ⟨zeros + 1, first, behind, ?_, trimmed, ?_⟩
    · rw [split, List.replicate_succ, List.cons_append]
    · cases zeros with
      | zero =>
        obtain ⟨rfl, -⟩ := List.cons.inj split
        exact .inr plain
      | succ zeros => exact .inr (sign.resolve_left (Nat.succ_ne_zero zeros))
  | case2 next rest signed => exact ⟨0, 0, next :: rest, rfl, rfl, .inl rfl⟩
  | case3 bytes other =>
    obtain ⟨first, rest, rfl⟩ := List.exists_cons_of_ne_nil some
    exact ⟨0, first, rest, rfl, rfl, .inl rfl⟩

/-- One to eight bytes are read as an integer, extended by their sign. -/
theorem decodeDerInt_cons {first : UInt8} {rest : Bytes} (fits : (first :: rest).length ≤ 8) :
    decodeDerInt (first :: rest) = .ok (UInt64.ofNat (beNat (List.replicate (8 - (first :: rest).length)
      (if first &&& 0x80 ≠ 0 then 0xff else 0) ++ first :: rest))).toInt64 := by
  have possible : ¬ ((first :: rest).isEmpty = true ∨ 8 < (first :: rest).length) := by
    rw [List.isEmpty_cons, or_iff_right Bool.false_ne_true]
    omega
  rw [decodeDerInt, if_neg possible]
  exact bind_eq_ok.mpr ⟨first, rfl, bind_eq_ok.mpr ⟨_, congrArg orUnwind (usizeSub_eq_ok fits),
    bind_eq_ok.mpr ⟨_, congrArg orUnwind (copyIntoFrom_replicate _ fits), rfl⟩⟩⟩

/-- The sign extends what is left to the bytes that were there. -/
theorem decodeDerInt_trimSign {bytes : Bytes} (width : bytes.length = 8) :
    decodeDerInt (trimSign bytes) = .ok (UInt64.ofNat (beNat bytes)).toInt64 := by
  obtain ⟨zeros, first, rest, rfl, trimmed, sign⟩ := trimSign_spec (List.ne_nil_of_length_eq_add_one width)
  rw [List.length_append, List.length_replicate] at width
  have missing : 8 - (first :: rest).length = zeros := by omega
  rw [trimmed, decodeDerInt_cons (by omega), missing]
  split
  · next signed =>
    obtain rfl := sign.resolve_right signed
    rfl
  · rfl

theorem decodeDerInt_encodeDerInt (v : Int64) : decodeDerInt (encodeDerInt v) = .ok v := by
  rw [encodeDerInt, decodeDerInt_trimSign (length_beBytes 8 _), beNat_beBytes 8 _ v.toUInt64.toNat_lt,
    UInt64.ofNat_toNat]
  exact congrArg Except.ok v.toInt64_toUInt64

/-- No zero byte in front is there in vain, and a negative integer has all its bytes. -/
structure Trimmed (content : Bytes) : Prop where
  zero : ∀ next rest, content = 0 :: next :: rest → next &&& 0x80 ≠ 0
  negative : ∀ first rest, content = first :: rest → first &&& 0x80 ≠ 0 → content.length = 8

/-- A zero that is left in front is followed by a sign bit. -/
theorem trimSign_zero {bytes rest : Bytes} {next : UInt8} (trimmed : trimSign bytes = 0 :: next :: rest) :
    next &&& 0x80 ≠ 0 := by
  fun_induction trimSign bytes with
  | case1 next rest plain ih => exact ih trimmed
  | case2 next' rest' signed =>
    obtain ⟨-, behind⟩ := List.cons.inj trimmed
    obtain ⟨rfl, -⟩ := List.cons.inj behind
    exact signed
  | case3 bytes other => exact absurd trimmed (other next rest)

theorem trimSign_of_zero {content : Bytes} (zero : ∀ next rest, content = 0 :: next :: rest → next &&& 0x80 ≠ 0) :
    trimSign content = content := by
  fun_cases trimSign content with
  | case1 next rest plain => exact absurd plain (zero next rest rfl)
  | case2 => rfl
  | case3 => rfl

/-- Zeros in front of a byte without a sign bit are trimmed. -/
theorem trimSign_zeros {first : UInt8} (plain : first &&& 0x80 = 0) (count : ℕ) (rest : Bytes) :
    trimSign (List.replicate count 0 ++ first :: rest) = trimSign (first :: rest) := by
  induction count with
  | zero => rfl
  | succ count ih =>
    rw [← ih]
    cases count with
    | zero =>
      change trimSign (0 :: first :: rest) = trimSign (first :: rest)
      rw [trimSign, if_pos plain]
    | succ count =>
      change trimSign (0 :: 0 :: (List.replicate count 0 ++ first :: rest)) = _
      rw [trimSign, if_pos (by decide)]
      rfl

/-- The trimmed bytes of an integer are those that are written for it. -/
theorem trimmed_iff {content : Bytes} {v : Int64} (read : decodeDerInt content = .ok v) :
    Trimmed content ↔ content = encodeDerInt v := by
  constructor
  · intro trimmed
    cases content with
    | nil => cases read
    | cons first rest =>
      have fits : (first :: rest).length ≤ 8 := by
        by_contra large
        rw [decodeDerInt, if_pos (.inr (Nat.not_le.mp large))] at read
        cases read
      rw [decodeDerInt_cons fits] at read
      have value := (Except.ok.inj read).symm
      subst value
      have width : ∀ sign : UInt8, (List.replicate (8 - (first :: rest).length) sign ++ first :: rest).length = 8 := by
        intro sign
        rw [List.length_append, List.length_replicate]
        omega
      have number (sign : UInt8) : (UInt64.ofNat (beNat (List.replicate (8 - (first :: rest).length) sign ++
          first :: rest))).toInt64.toUInt64.toNat = beNat (List.replicate (8 - (first :: rest).length) sign ++
            first :: rest) := by
        have bound := beNat_lt (List.replicate (8 - (first :: rest).length) sign ++ first :: rest)
        rw [width] at bound
        rw [UInt64.toUInt64_toInt64, UInt64.toNat_ofNat_of_lt' bound]
      rw [encodeDerInt, number, beBytes_beNat (width _)]
      by_cases signed : first &&& 0x80 ≠ 0
      · have whole := trimmed.negative first rest rfl signed
        rw [whole, Nat.sub_self, List.replicate_zero, List.nil_append, trimSign_of_zero trimmed.zero]
      · rw [if_neg signed, trimSign_zeros (not_not.mp signed), trimSign_of_zero trimmed.zero]
  · rintro rfl
    constructor
    · intro next rest written
      exact trimSign_zero written
    · intro first rest written signed
      have size : (beBytes 8 v.toUInt64.toNat).length = 8 := length_beBytes 8 _
      obtain ⟨zeros, first', rest', split, trimmed, sign⟩ := trimSign_spec (List.ne_nil_of_length_eq_add_one size)
      have same : first :: rest = first' :: rest' := written.symm.trans trimmed
      obtain ⟨rfl, rfl⟩ := List.cons.inj same
      obtain rfl := sign.resolve_right signed
      rw [List.replicate_zero, List.nil_append] at split
      rw [written, ← split, size]

theorem length_encodeDerInt_lt (v : Int64) : (encodeDerInt v).length < 2 ^ 64 := by
  have size : (beBytes 8 v.toUInt64.toNat).length = 8 := length_beBytes 8 _
  obtain ⟨zeros, first, rest, split, trimmed, -⟩ := trimSign_spec (List.ne_nil_of_length_eq_add_one size)
  rw [split, List.length_append] at size
  rw [encodeDerInt, trimmed]
  omega

/-! ## Networks -/

namespace Network

theorem decode_encode (n : Network) : decode n.encode = .ok n := by
  obtain ⟨addr, prefixLen⟩ := n
  cases addr with
  | v4 addr =>
    obtain ⟨items, size⟩ := addr
    obtain ⟨b0, b1, b2, b3, rfl⟩ := List.length_eq_four.mp size
    rfl
  | v6 addr =>
    have length : (addr.items ++ [prefixLen]).length = 17 := by
      rw [List.length_append, addr.size, List.length_singleton]
    have sliced : slice (addr.items ++ [prefixLen]) 0 16 = .ok addr.items :=
      slice_middle List.length_nil (by rw [addr.size])
    have last : index (addr.items ++ [prefixLen]) 16 = .ok prefixLen := by
      apply index_eq_ok
      rw [List.getElem?_append_right (le_of_eq addr.size), addr.size]
      rfl
    change decode (addr.items ++ [prefixLen]) = _
    rw [decode, if_neg (by rw [length]; decide), if_pos length, sliced, last, orUnwind_ok, orUnwind_ok]
    have copied := congrArg (orUnwind (ε := Error)) (Arr.copyFromSlice_eq_ok addr.size)
    exact bind_eq_ok.mpr ⟨_, rfl, bind_eq_ok.mpr ⟨addr, copied, rfl⟩⟩

end Network

/-- Five bytes and seventeen bytes are a network each. -/
theorem Network.exists_encode {b : Bytes} (size : b.length = 5 ∨ b.length = 17) : ∃ n : Network, b = n.encode := by
  have shape (width : ℕ) (whole : b.length = width + 1) :
      ∃ (octets : Arr UInt8 width) (prefixLen : UInt8), b = octets.items ++ [prefixLen] := by
    have last : b.drop width = [b[width]] := by
      rw [List.drop_eq_getElem_cons (by omega), List.drop_eq_nil_of_le (by omega)]
    refine ⟨⟨b.take width, by rw [List.length_take]; omega⟩, b[width], ?_⟩
    rw [← last, List.take_append_drop]
  rcases size with five | seventeen
  · obtain ⟨octets, prefixLen, rfl⟩ := shape 4 five
    exact ⟨⟨.v4 octets, prefixLen⟩, rfl⟩
  · obtain ⟨octets, prefixLen, rfl⟩ := shape 16 seventeen
    exact ⟨⟨.v6 octets, prefixLen⟩, rfl⟩

theorem Network.decode_eq_ok_iff {b : Bytes} {n : Network} : Network.decode b = .ok n ↔ b = n.encode := by
  constructor
  · intro read
    by_cases size : b.length = 5 ∨ b.length = 17
    · obtain ⟨n', rfl⟩ := Network.exists_encode size
      rw [Network.decode_encode] at read
      rw [Except.ok.inj read]
    · obtain ⟨five, seventeen⟩ := not_or.mp size
      rw [Network.decode, if_neg five, if_neg seventeen] at read
      cases read
  · rintro rfl
    exact Network.decode_encode n

end Nebula
