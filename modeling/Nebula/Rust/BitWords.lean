import Nebula.Rust.Exec

/-! # Bit sets held in 64-bit words

A bit set is a list of words, least significant first. `shiftWords` moves every bit one place up,
carrying from word to word as a multi-word shift does; the lemmas read its result and that of
setting a bit back as statements about single bits, whatever word they are in.
-/

namespace Rust.BitWords

/-- Bit `k` of the words; bits past the last word are clear. -/
def bit (words : List UInt64) (k : ℕ) : Bool := (words[k / 64]?.getD 0).toBitVec.getLsbD (k % 64)

/-- Shift left by one: each word takes in the bit that left the word before it. -/
def shiftWords (carry : UInt64) : List UInt64 → List UInt64
  | [] => []
  | word :: rest => (word <<< 1 ||| carry) :: shiftWords (word >>> 63) rest

@[simp] theorem length_shiftWords (carry : UInt64) (words : List UInt64) :
    (shiftWords carry words).length = words.length := by
  induction words generalizing carry with
  | nil => rfl
  | cons word rest ih => simp [shiftWords, ih]

theorem bit_cons (word : UInt64) (rest : List UInt64) (k : ℕ) :
    bit (word :: rest) k = if k < 64 then word.toBitVec.getLsbD k else bit rest (k - 64) := by
  split
  · next low => simp [bit, Nat.div_eq_of_lt low, Nat.mod_eq_of_lt low]
  · next high =>
    have word : k / 64 = (k - 64) / 64 + 1 := by omega
    have place : k % 64 = (k - 64) % 64 := by omega
    simp [bit, word, place]

theorem bit_replicate_zero (count k : ℕ) : bit (List.replicate count 0) k = false := by
  simp only [bit, List.getElem?_replicate]
  split <;> simp

private theorem shifted_word (word carry : UInt64) (k : ℕ) (low : k < 64) :
    (word <<< 1 ||| carry).toBitVec.getLsbD k =
      ((decide (0 < k) && word.toBitVec.getLsbD (k - 1)) || carry.toBitVec.getLsbD k) := by
  cases k with
  | zero => simp
  | succ k => simp [low, BitVec.getLsbD_eq_getElem (show k < 64 by omega)]

private theorem carried_out (word : UInt64) (j : ℕ) :
    (word >>> 63).toBitVec.getLsbD j = (decide (j = 0) && word.toBitVec.getLsbD 63) := by
  cases j with
  | zero => simp
  | succ j => simp [BitVec.getLsbD_of_ge word.toBitVec (63 + (j + 1)) (by omega)]

/-- The shifted words hold the carry at bit 0 and every old bit one place higher. -/
theorem bit_shiftWords (carry : UInt64) (words : List UInt64) (k : ℕ)
    (unit : ∀ j, 0 < j → carry.toBitVec.getLsbD j = false) (inside : k < 64 * words.length) :
    bit (shiftWords carry words) k = if k = 0 then carry.toBitVec.getLsbD 0 else bit words (k - 1) := by
  induction words generalizing carry k with
  | nil => simp at inside
  | cons word rest ih =>
    rw [shiftWords, bit_cons]
    by_cases low : k < 64
    · rw [if_pos low, shifted_word word carry k low, bit_cons]
      by_cases first : k = 0
      · simp [first]
      · simp [first, unit k (by omega), show k - 1 < 64 by omega, show 0 < k by omega]
    · have outOfWord : ∀ j, 0 < j → (word >>> 63).toBitVec.getLsbD j = false := by
        intro j positive
        rw [carried_out, decide_eq_false (by omega), Bool.false_and]
      rw [if_neg low, ih _ _ outOfWord (by simp only [List.length_cons] at inside; omega), bit_cons,
        if_neg (show k ≠ 0 by omega)]
      by_cases boundary : k = 64
      · simp [boundary]
      · simp [show k - 64 ≠ 0 by omega, show ¬ k - 1 < 64 by omega, show k - 64 - 1 = k - 1 - 64 by omega]

private theorem mask_eq_twoPow {place : ℕ} (bound : place < 64) :
    (1 <<< UInt64.ofNat place : UInt64).toBitVec = BitVec.twoPow 64 place := by
  simp [BitVec.twoPow_eq, Nat.mod_eq_of_lt bound]

/-- A word tested against a single-bit mask. -/
theorem and_mask_ne_zero (word : UInt64) {place : ℕ} (bound : place < 64) :
    (word &&& 1 <<< UInt64.ofNat place != 0) = word.toBitVec.getLsbD place := by
  have tested : (word &&& 1 <<< UInt64.ofNat place).toBitVec =
      if word.toBitVec.getLsbD place then BitVec.twoPow 64 place else 0#64 := by
    rw [UInt64.toBitVec_and, mask_eq_twoPow bound, BitVec.and_twoPow]
  have maskSet : BitVec.twoPow 64 place ≠ 0#64 := by
    intro clear
    have := congrArg (BitVec.getLsbD · place) clear
    simp [bound] at this
  have zero : (word &&& 1 <<< UInt64.ofNat place) = 0 ↔ word.toBitVec.getLsbD place = false := by
    rw [← UInt64.toBitVec_inj, tested]
    cases word.toBitVec.getLsbD place <;> simp [maskSet]
  rw [bne, Bool.not_eq_eq_eq_not, Bool.eq_iff_iff, beq_iff_eq, zero]
  simp

/-- Setting a bit of one word sets exactly that bit of the sequence. -/
theorem bit_set (words : List UInt64) (k j : ℕ) (inside : k < 64 * words.length) :
    bit (words.set (k / 64) (words[k / 64]?.getD 0 ||| 1 <<< UInt64.ofNat (k % 64))) j =
      (bit words j || decide (j = k)) := by
  have place : k % 64 < 64 := Nat.mod_lt _ (by decide)
  by_cases sameWord : k / 64 = j / 64
  · have samePlace : k % 64 = j % 64 ↔ j = k := by omega
    rw [bit, bit, ← sameWord, List.getElem?_set_self (by omega), Option.getD_some, UInt64.toBitVec_or,
      BitVec.getLsbD_or, mask_eq_twoPow place, BitVec.getLsbD_twoPow]
    simp only [place, decide_true, Bool.true_and, samePlace]
  · have distinct : j ≠ k := by omega
    rw [bit, List.getElem?_set_ne sameWord, decide_eq_false distinct, Bool.or_false, bit]

end Rust.BitWords
