import Nebula.Protocol.Transport
import Nebula.Machine.Run

/-! # The replay window remembers exactly the counters it accepted

The abstract window is the list of accepted counters: it admits a counter that is not in the list
and less than `windowSize` behind the largest one. The words of `ReplayWindow` represent that list:
bit `k` is set precisely when the counter `k` below the high-water mark was accepted. Every shift
distance, the reset on a far jump and the marks preserve the representation, so a run of
`check_and_update` from a fresh window answers as the abstract window does.
-/

namespace Nebula.ReplayWindow

open Rust Machine

/-! ## Single bits of the window -/

/-- Whether the counter `k` below the high-water mark is marked. -/
def bit (w : ReplayWindow) (k : ℕ) : Bool := BitWords.bit w.seen.items k

theorem isMarked_eq_bit (w : ReplayWindow) (offset : Fin windowSize) :
    w.isMarked offset = w.bit offset := by
  have bound : offset.val / 64 < w.seen.items.length := by
    rw [w.seen.size]
    exact (wordBit offset).1.isLt
  simp only [isMarked, wordBit, BitWords.and_mask_ne_zero _ (Nat.mod_lt _ (by decide : 0 < 64)), bit,
    BitWords.bit, List.getElem?_eq_getElem bound, Option.getD_some]
  rfl

theorem bit_mark (w : ReplayWindow) (offset : Fin windowSize) (k : ℕ) :
    (w.mark offset).bit k = (w.bit k || decide (k = offset)) := by
  have bound : offset.val / 64 < w.seen.items.length := by
    rw [w.seen.size]
    exact (wordBit offset).1.isLt
  have marked := BitWords.bit_set w.seen.items offset k (by omega)
  rw [List.getElem?_eq_getElem bound, Option.getD_some] at marked
  exact marked

theorem bit_shiftOnce (w : ReplayWindow) {k : ℕ} (inside : k < windowSize) :
    w.shiftOnce.bit k = (decide (1 ≤ k) && w.bit (k - 1)) := by
  have length := w.seen.size
  have shifted := BitWords.bit_shiftWords 0 w.seen.items k (by simp)
    (by rw [length]; exact inside)
  cases k with
  | zero => simpa [bit, shiftOnce] using shifted
  | succ k => simpa [bit, shiftOnce] using shifted

theorem bit_shiftLeft (w : ReplayWindow) (n : ℕ) {k : ℕ} (inside : k < windowSize) :
    (w.shiftLeft n).bit k = (decide (n ≤ k) && w.bit (k - n)) := by
  induction n generalizing w with
  | zero => simp [shiftLeft]
  | succ n ih =>
    change (w.shiftOnce.shiftLeft n).bit k = _
    rw [ih, bit_shiftOnce w (show k - n < windowSize by omega), Nat.sub_sub]
    by_cases far : n + 1 ≤ k
    · simp [far, show n ≤ k by omega, show 1 ≤ k - n by omega]
    · simp only [far, decide_false, Bool.false_and, Bool.and_eq_false_imp, decide_eq_true_eq]
      intro _ _
      omega

@[simp] theorem current_mark (w : ReplayWindow) (offset : Fin windowSize) :
    (w.mark offset).current = w.current := rfl

/-! ## The abstract window and its representation -/

/-- The largest counter accepted so far, zero if none. -/
def highWater (counters : List UInt64) : UInt64 := counters.foldl max 0

/-- The abstract window admits what it has not admitted before and can still track. -/
def Admits (counters : List UInt64) (counter : UInt64) : Prop :=
  counter ∉ counters ∧
    (highWater counters < counter ∨ (highWater counters).toNat - counter.toNat < windowSize)

/-- Bit `k` is set exactly when the counter `k` below the high-water mark was accepted. -/
structure Represents (counters : List UInt64) (w : ReplayWindow) : Prop where
  current : w.current = highWater counters
  bits : ∀ k < windowSize, w.bit k = true ↔ ∃ c ∈ counters, c.toNat + k = w.current.toNat

theorem highWater_concat (counters : List UInt64) (counter : UInt64) :
    highWater (counters ++ [counter]) =
      if highWater counters ≤ counter then counter else highWater counters := by
  simp only [highWater, List.foldl_append, List.foldl_cons, List.foldl_nil]
  rfl

theorem le_highWater {counters : List UInt64} {c : UInt64} (member : c ∈ counters) :
    c ≤ highWater counters := by
  induction counters using List.reverseRecOn with
  | nil => cases member
  | append_singleton counters last ih =>
    rw [highWater_concat]
    rcases List.mem_append.mp member with earlier | final
    · split
      · next grows => exact UInt64.le_trans (ih earlier) grows
      · exact ih earlier
    · obtain rfl := List.mem_singleton.mp final
      split
      · exact UInt64.le_refl _
      · next smaller => exact UInt64.le_of_lt (UInt64.not_le.mp smaller)

theorem represents_new : Represents [] new where
  current := rfl
  bits k _ := by
    rw [bit, new, Arr.replicate, BitWords.bit_replicate_zero]
    simp

/-- The window moved up to a counter above it, before that counter is marked. -/
def jumpTo (w : ReplayWindow) (counter : UInt64) : ReplayWindow :=
  let shift := (counter - w.current).toNat
  { (if windowSize ≤ shift then { w with seen := .replicate 16 0 } else w.shiftLeft shift) with
    current := counter }

theorem checkAndUpdate_above {w : ReplayWindow} {counter : UInt64} (above : w.current < counter) :
    w.checkAndUpdate counter = ((w.jumpTo counter).mark 0, true) := if_pos above

theorem checkAndUpdate_behind {w : ReplayWindow} {counter : UInt64} (behind : counter ≤ w.current)
    (inside : (w.current - counter).toNat < windowSize) :
    w.checkAndUpdate counter = if w.bit (w.current - counter).toNat then (w, false)
      else (w.mark ⟨(w.current - counter).toNat, inside⟩, true) := by
  rw [checkAndUpdate, if_neg (UInt64.not_lt.mpr behind), dif_pos inside, isMarked_eq_bit]

theorem checkAndUpdate_stale {w : ReplayWindow} {counter : UInt64} (behind : counter ≤ w.current)
    (outside : ¬ (w.current - counter).toNat < windowSize) :
    w.checkAndUpdate counter = (w, false) := by
  rw [checkAndUpdate, if_neg (UInt64.not_lt.mpr behind), dif_neg outside]

/-- A jump lifts every bit by its distance; past the window it clears them all. -/
theorem bit_jumpTo (w : ReplayWindow) (counter : UInt64) {k : ℕ} (inside : k < windowSize) :
    (w.jumpTo counter).bit k = (decide ((counter - w.current).toNat ≤ k) &&
      w.bit (k - (counter - w.current).toNat)) := by
  generalize distance : (counter - w.current).toNat = shift
  by_cases far : windowSize ≤ shift
  · have cleared : (w.jumpTo counter).bit k = false := by
      simp only [jumpTo, distance, if_pos far]
      exact BitWords.bit_replicate_zero 16 k
    rw [cleared, decide_eq_false (show ¬ shift ≤ k by omega), Bool.false_and]
  · rw [← bit_shiftLeft w shift inside]
    simp only [jumpTo, distance, if_neg far]
    rfl

/-! ## Every answer preserves the representation -/

/-- Accepting a counter above the high-water mark moves the window up to it. -/
theorem Represents.jump {counters : List UInt64} {w : ReplayWindow} (repr : Represents counters w)
    {counter : UInt64} (above : w.current < counter) :
    Represents (counters ++ [counter]) ((w.jumpTo counter).mark 0) := by
  have order : w.current.toNat < counter.toNat := UInt64.lt_iff_toNat_lt.mp above
  have distance : (counter - w.current).toNat = counter.toNat - w.current.toNat :=
    UInt64.toNat_sub_of_le _ _ (UInt64.le_of_lt above)
  refine ⟨?_, fun k inside => ?_⟩
  · rw [highWater_concat, ← repr.current, if_pos (UInt64.le_of_lt above)]
    rfl
  · rw [bit_mark, bit_jumpTo w counter inside, Bool.or_eq_true, Bool.and_eq_true,
      repr.bits (k - (counter - w.current).toNat) (by omega), distance,
      decide_eq_true_eq, decide_eq_true_eq]
    change _ ↔ ∃ c ∈ counters ++ [counter], c.toNat + k = counter.toNat
    constructor
    · rintro (⟨far, c, member, place⟩ | zero)
      · exact ⟨c, List.mem_append_left _ member, by omega⟩
      · exact ⟨counter, by simp, by rw [zero]; rfl⟩
    · rintro ⟨c, member, place⟩
      rcases List.mem_append.mp member with earlier | final
      · have below := UInt64.le_iff_toNat_le.mp (le_highWater earlier)
        rw [← repr.current] at below
        exact .inl ⟨by omega, c, earlier, by omega⟩
      · obtain rfl := List.mem_singleton.mp final
        exact .inr (by simpa using place)

/-- Marking a counter inside the window adds exactly that counter. -/
theorem Represents.mark {counters : List UInt64} {w : ReplayWindow} (repr : Represents counters w)
    {counter : UInt64} (behind : counter ≤ w.current)
    (inside : (w.current - counter).toNat < windowSize) :
    Represents (counters ++ [counter]) (w.mark ⟨(w.current - counter).toNat, inside⟩) := by
  have distance : (w.current - counter).toNat = w.current.toNat - counter.toNat :=
    UInt64.toNat_sub_of_le _ _ behind
  have order : counter.toNat ≤ w.current.toNat := UInt64.le_iff_toNat_le.mp behind
  refine ⟨?_, fun k bound => ?_⟩
  · rw [highWater_concat, ← repr.current, current_mark]
    split
    · next above => exact UInt64.le_antisymm above behind
    · rfl
  · rw [bit_mark, current_mark, Bool.or_eq_true, repr.bits k bound, decide_eq_true_eq]
    change _ ∨ k = (w.current - counter).toNat ↔ _
    rw [distance]
    constructor
    · rintro (⟨c, member, place⟩ | place)
      · exact ⟨c, List.mem_append_left _ member, place⟩
      · exact ⟨counter, by simp, by omega⟩
    · rintro ⟨c, member, place⟩
      rcases List.mem_append.mp member with earlier | final
      · exact .inl ⟨c, earlier, place⟩
      · obtain rfl := List.mem_singleton.mp final
        exact .inr (by omega)

/-- One call answers as the abstract window does and keeps representing what was accepted. -/
theorem Represents.step {counters : List UInt64} {w : ReplayWindow} (repr : Represents counters w)
    (counter : UInt64) :
    ((w.checkAndUpdate counter).2 = true ↔ Admits counters counter) ∧
      Represents (if (w.checkAndUpdate counter).2 then counters ++ [counter] else counters)
        (w.checkAndUpdate counter).1 := by
  by_cases above : w.current < counter
  · rw [checkAndUpdate_above above]
    refine ⟨iff_of_true rfl ⟨fun member => ?_, .inl (repr.current ▸ above)⟩, repr.jump above⟩
    exact UInt64.not_le.mpr above (repr.current ▸ le_highWater member)
  · have behind : counter ≤ w.current := UInt64.not_lt.mp above
    have distance : (w.current - counter).toNat = w.current.toNat - counter.toNat :=
      UInt64.toNat_sub_of_le _ _ behind
    have order : counter.toNat ≤ w.current.toNat := UInt64.le_iff_toNat_le.mp behind
    have admits : Admits counters counter ↔
        counter ∉ counters ∧ (w.current - counter).toNat < windowSize := by
      rw [Admits, ← repr.current, distance, or_iff_right above]
    by_cases inside : (w.current - counter).toNat < windowSize
    · have marked : w.bit (w.current - counter).toNat = true ↔ counter ∈ counters := by
        rw [repr.bits _ inside, distance]
        constructor
        · rintro ⟨c, member, place⟩
          obtain rfl : c = counter := UInt64.toNat_inj.mp (by omega)
          exact member
        · exact fun member => ⟨counter, member, by omega⟩
      rw [checkAndUpdate_behind behind inside, admits]
      by_cases member : counter ∈ counters
      · rw [if_pos (marked.mpr member)]
        exact ⟨iff_of_false Bool.false_ne_true (fun admitted => admitted.1 member), repr⟩
      · rw [if_neg (fun set => member (marked.mp set))]
        exact ⟨iff_of_true rfl ⟨member, inside⟩, repr.mark behind inside⟩
    · rw [checkAndUpdate_stale behind inside, admits]
      exact ⟨iff_of_false Bool.false_ne_true (fun admitted => inside admitted.2), repr⟩

/-! ## Whole runs -/

/-- The window fed one counter at a time, answering whether it accepted it. -/
def system : System ReplayWindow UInt64 Bool := ⟨checkAndUpdate⟩

/-- The counters a run accepted, oldest first. -/
def accepted (log : List (UInt64 × Bool)) : List UInt64 := (log.filter (·.2)).map (·.1)

theorem accepted_concat (log : List (UInt64 × Bool)) (counter : UInt64) (answer : Bool) :
    accepted (log ++ [(counter, answer)]) =
      if answer then accepted log ++ [counter] else accepted log := by
  cases answer <;> simp [accepted]

theorem represents_run (counters : List UInt64) :
    Represents (accepted (system.log new counters)) (system.exec new counters) := by
  refine system.history_invariant (fun log w => Represents (accepted log) w) represents_new ?_ counters
  intro log w counter repr
  rw [accepted_concat]
  exact (repr.step counter).2

/-- No run accepts a counter twice. -/
theorem nodup_accepted (counters : List UInt64) : (accepted (system.log new counters)).Nodup := by
  induction counters using List.reverseRecOn with
  | nil => exact List.nodup_nil
  | append_singleton counters counter ih =>
    rw [system.log_concat, accepted_concat]
    split
    · next answer =>
      have fresh := ((represents_run counters).step counter).1.mp answer
      exact List.nodup_append.mpr ⟨ih, by simp,
        fun c member d last same => fresh.1 (List.mem_singleton.mp last ▸ same ▸ member)⟩
    · exact ih

/-- After any counters whatever, the next one is accepted exactly when it was never accepted before
and is above the high-water mark or less than 1024 behind it; so no counter is accepted twice, and
none that is fresh and inside the window is refused. -/
theorem checkAndUpdate_run (counters : List UInt64) :
    (∀ counter, ((system.exec new counters).checkAndUpdate counter).2 = true ↔
      Admits (accepted (system.log new counters)) counter) ∧
    (accepted (system.log new counters)).Nodup :=
  ⟨fun counter => ((represents_run counters).step counter).1, nodup_accepted counters⟩

end Nebula.ReplayWindow
