import Nebula.Machine.Run

/-! # Turns

A component that may be blocked takes a turn when an event frees it and a later one moves it on. If every turn lowers a
measure that no step raises, it is done after as many turns, whatever goes on in between.
-/

namespace Machine.System

variable {σ ε ο : Type} (m : System σ ε ο)

section Turns

variable (frees : ε → Bool) (moves : σ → ε → Bool)

/-- The turns of a run. `freed` says whether the component has been freed since its last one. -/
def turns : (freed : Bool) → σ → List ε → ℕ
  | _, _, [] => 0
  | freed, s, event :: rest =>
    if frees event then turns true (m.step s event).1 rest
    else if freed && moves s event then turns false (m.step s event).1 rest + 1
    else turns freed (m.step s event).1 rest

/-- The measure bounds the turns that the component has before it. -/
structure Descends (Inv Free : σ → Prop) (μ : σ → ℕ) : Prop where
  kept : ∀ s event, Inv s → Inv (m.step s event).1
  falls : ∀ s event, Inv s → μ (m.step s event).1 ≤ μ s
  freed : ∀ s event, Inv s → frees event = true → Free (m.step s event).1
  stays : ∀ s event, Inv s → Free s → moves s event = false → Free (m.step s event).1
  lower : ∀ s event, Inv s → Free s → moves s event = true → μ (m.step s event).1 ≤ μ s - 1

variable {m frees moves}

theorem Descends.measure_le {Inv Free : σ → Prop} {μ : σ → ℕ} (descends : m.Descends frees moves Inv Free μ) {s : σ}
    (inv : Inv s) (freed : Bool) (free : freed = true → Free s) (events : List ε) :
    μ (m.exec s events) ≤ μ s - m.turns frees moves freed s events := by
  induction events generalizing s freed with
  | nil => exact Nat.le_refl (μ s)
  | cons event rest ih =>
    have next := descends.kept s event inv
    have falls := descends.falls s event inv
    rw [exec_cons, turns]
    split_ifs with frees' both
    · have later := ih next true fun _ => descends.freed s event inv frees'
      omega
    · obtain ⟨was, moved⟩ := (Bool.and_eq_true _ _).mp both
      have lower := descends.lower s event inv (free was) moved
      have later := ih next false nofun
      omega
    · have later := ih next freed fun was => by
        refine descends.stays s event inv (free was) ?_
        simpa [was] using both
      omega

/-- After as many turns as the measure has, nothing of it is left. -/
theorem Descends.exhausted {Inv Free : σ → Prop} {μ : σ → ℕ} (descends : m.Descends frees moves Inv Free μ) {s : σ}
    (inv : Inv s) (events : List ε) (enough : μ s ≤ m.turns frees moves false s events) :
    μ (m.exec s events) = 0 := by
  have bound := descends.measure_le inv false nofun events
  omega

end Turns

end Machine.System
