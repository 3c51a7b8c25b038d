import Mathlib.Data.List.Basic
import Mathlib.Order.Lattice

/-! # Binary heaps of reversed pairs

`BinaryHeap<Reverse<(K, V)>>` serves its smallest pair first, by key and then by value. The heap is
the list of its slots in that order; equal pairs are indistinguishable, so nothing is lost.
-/

namespace Rust

/-- The slots of a heap, the next one to be served first. -/
structure MinHeap (κ ν : Type) [LinearOrder κ] where
  slots : List (κ × ν)
  sorted : slots.Pairwise (·.1 ≤ ·.1)

namespace MinHeap

variable {κ ν : Type} [LinearOrder κ]

@[ext] theorem ext {a b : MinHeap κ ν} (same : a.slots = b.slots) : a = b := by
  cases a
  cases b
  cases same
  rfl

def empty : MinHeap κ ν := ⟨[], .nil⟩

def peek (heap : MinHeap κ ν) : Option (κ × ν) := heap.slots.head?

def pop (heap : MinHeap κ ν) : MinHeap κ ν := ⟨heap.slots.tail, heap.sorted.tail⟩

/-- The slots that a test picks out, counted: what a loop over due slots works off. -/
def count (heap : MinHeap κ ν) (test : κ → Bool) : ℕ := heap.slots.countP (test ·.1)

theorem count_pop {heap : MinHeap κ ν} {key : κ} {value : ν} (next : heap.peek = some (key, value))
    (test : κ → Bool) : heap.count test = heap.pop.count test + if test key then 1 else 0 := by
  obtain ⟨_ | ⟨head, rest⟩, sorted⟩ := heap
  · cases next
  · cases next
    simp only [count, pop, List.tail_cons, List.countP_cons]

/-- The values that have slots, one for each slot. -/
def values (heap : MinHeap κ ν) : List ν := heap.slots.map Prod.snd

theorem slots_of_peek {heap : MinHeap κ ν} {next : κ × ν} (first : heap.peek = some next) :
    heap.slots = next :: heap.pop.slots := by
  obtain ⟨_ | ⟨head, rest⟩, sorted⟩ := heap
  · cases first
  · cases first
    rfl

theorem values_of_peek {heap : MinHeap κ ν} {key : κ} {value : ν} (next : heap.peek = some (key, value)) :
    heap.values = value :: heap.pop.values := by
  rw [values, slots_of_peek next, List.map_cons]
  rfl

/-- A slot is the one served next, or it survives the pop. -/
theorem mem_pop {heap : MinHeap κ ν} {next slot : κ × ν} (first : heap.peek = some next)
    (member : slot ∈ heap.slots) : slot = next ∨ slot ∈ heap.pop.slots :=
  List.mem_cons.mp (slots_of_peek first ▸ member)

/-- No slot comes before the one served next. -/
theorem key_le_of_peek {heap : MinHeap κ ν} {next slot : κ × ν} (first : heap.peek = some next)
    (member : slot ∈ heap.slots) : next.1 ≤ slot.1 := by
  obtain ⟨_ | ⟨head, rest⟩, sorted⟩ := heap
  · cases first
  · cases first
    rcases List.mem_cons.mp member with rfl | later
    · exact le_refl _
    · exact List.rel_of_pairwise_cons sorted later

theorem not_mem_of_peek {heap : MinHeap κ ν} (empty : heap.peek = none) (slot : κ × ν) :
    slot ∉ heap.slots := by
  rw [List.head?_eq_none_iff.mp empty]
  exact List.not_mem_nil

variable [Ord ν]

/-- `a` is served no later than `b`. -/
def served (a b : κ × ν) : Bool := a.1 < b.1 ∨ (a.1 = b.1 ∧ compare a.2 b.2 ≠ .gt)

def insertSlot (slot : κ × ν) : List (κ × ν) → List (κ × ν)
  | [] => [slot]
  | head :: rest => if served slot head then slot :: head :: rest else head :: insertSlot slot rest

theorem perm_insertSlot (slot : κ × ν) (slots : List (κ × ν)) :
    (insertSlot slot slots).Perm (slot :: slots) := by
  induction slots with
  | nil => exact .refl _
  | cons head rest ih =>
    rw [insertSlot]
    split
    · exact .refl _
    · exact (ih.cons head).trans (.swap slot head rest)

theorem mem_insertSlot {slot other : κ × ν} {slots : List (κ × ν)} :
    other ∈ insertSlot slot slots ↔ other = slot ∨ other ∈ slots := by
  rw [(perm_insertSlot slot slots).mem_iff, List.mem_cons]

theorem key_le_of_served {a b : κ × ν} (first : served a b = true) : a.1 ≤ b.1 := by
  rcases of_decide_eq_true first with less | ⟨same, -⟩
  · exact le_of_lt less
  · exact le_of_eq same

theorem key_le_of_not_served {a b : κ × ν} (later : ¬ served a b = true) : b.1 ≤ a.1 := by
  apply not_lt.mp
  intro less
  exact later (decide_eq_true (.inl less))

theorem sorted_insertSlot (slot : κ × ν) {slots : List (κ × ν)} (sorted : slots.Pairwise (·.1 ≤ ·.1)) :
    (insertSlot slot slots).Pairwise (·.1 ≤ ·.1) := by
  induction sorted with
  | nil => exact List.pairwise_singleton _ _
  | @cons head rest below sorted ih =>
    rw [insertSlot]
    split
    · next first =>
      refine .cons ?_ (.cons below sorted)
      intro other member
      rcases List.mem_cons.mp member with rfl | member
      · exact key_le_of_served first
      · exact le_trans (key_le_of_served first) (below other member)
    · next later =>
      refine .cons ?_ ih
      intro other member
      rcases mem_insertSlot.mp member with rfl | member
      · exact key_le_of_not_served later
      · exact below other member

def push (heap : MinHeap κ ν) (key : κ) (value : ν) : MinHeap κ ν :=
  ⟨insertSlot (key, value) heap.slots, sorted_insertSlot _ heap.sorted⟩

theorem mem_push {heap : MinHeap κ ν} {key : κ} {value : ν} {slot : κ × ν} :
    slot ∈ (heap.push key value).slots ↔ slot = (key, value) ∨ slot ∈ heap.slots := mem_insertSlot

theorem count_push (heap : MinHeap κ ν) (key : κ) (value : ν) (test : κ → Bool) :
    (heap.push key value).count test = heap.count test + if test key then 1 else 0 := by
  rw [count, push, (perm_insertSlot (key, value) heap.slots).countP_eq, List.countP_cons]
  rfl

theorem perm_values_push (heap : MinHeap κ ν) (key : κ) (value : ν) :
    (heap.push key value).values.Perm (value :: heap.values) :=
  (perm_insertSlot (key, value) heap.slots).map Prod.snd

end MinHeap

end Rust
