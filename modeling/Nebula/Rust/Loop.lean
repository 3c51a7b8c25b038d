import Nebula.Rust.Exec

/-! # Loops with a rank

A `loop` or `while` of the source is the body of one turn together with a rank that every further
turn lowers; the loop then always ends. `Turns` records the states at which a run went on, so that
a property of every header or slot a loop passed can be stated.
-/

namespace Rust

/-- What one turn of a loop decides: go on from `state`, or leave with `result`. -/
inductive Flow (σ ρ : Type) where
  | next (state : σ)
  | done (result : ρ)
deriving DecidableEq, Repr

/-- A turn that reads checked memory leaves the loop if a read unwinds. -/
def Flow.ofExec {σ ρ : Type} : Exec (Flow σ (Exec ρ)) → Flow σ (Exec ρ)
  | .ok turn => turn
  | .error cause => .done (.error cause)

@[simp] theorem Flow.ofExec_ok {σ ρ : Type} (turn : Flow σ (Exec ρ)) : Flow.ofExec (.ok turn) = turn := rfl

structure Loop (σ ρ : Type) where
  body : σ → Flow σ ρ
  rank : σ → ℕ
  descends : ∀ {s t : σ}, body s = .next t → rank t < rank s

namespace Loop

variable {σ ρ : Type} {loop : Loop σ ρ}

def run (loop : Loop σ ρ) (s : σ) : ρ :=
  match _turn : loop.body s with
  | .done result => result
  | .next t => loop.run t
termination_by loop.rank s
decreasing_by exact loop.descends ‹_›

theorem run_done {s : σ} {result : ρ} (turn : loop.body s = .done result) : loop.run s = result := by
  rw [run]
  split <;> simp_all

theorem run_next {s t : σ} (turn : loop.body s = .next t) : loop.run s = loop.run t := by
  rw [run]
  split <;> simp_all

/-- The states at which the loop went on, in order, and the state it came to. -/
inductive Turns (loop : Loop σ ρ) : σ → List σ → σ → Prop
  | nil (s : σ) : Turns loop s [] s
  | cons {s mid t : σ} {visited : List σ} (turn : loop.body s = .next mid)
      (rest : Turns loop mid visited t) : Turns loop s (s :: visited) t

/-- A run from any state it came to has the same result. -/
theorem Turns.run_eq {s t : σ} {visited : List σ} (turns : Turns loop s visited t) : loop.run s = loop.run t := by
  induction turns with
  | nil => rfl
  | cons turn _ ih => exact (run_next turn).trans ih

/-- Every run comes to a state at which it is left. -/
theorem exists_turns (loop : Loop σ ρ) (s : σ) :
    ∃ visited t, Turns loop s visited t ∧ loop.body t = .done (loop.run s) := by
  fun_induction loop.run s with
  | case1 s result turn => exact ⟨[], s, .nil s, turn⟩
  | case2 s mid turn ih =>
    obtain ⟨visited, t, turns, left⟩ := ih
    exact ⟨s :: visited, t, .cons turn turns, left⟩

/-- A run is left in one state only. -/
theorem Turns.unique_of_done {s t t' : σ} {visited visited' : List σ} {result result' : ρ}
    (turns : Turns loop s visited t) (left : loop.body t = .done result)
    (turns' : Turns loop s visited' t') (left' : loop.body t' = .done result') : t = t' := by
  induction turns generalizing visited' with
  | nil =>
    cases turns' with
    | nil => rfl
    | cons turn => cases turn.symm.trans left
  | cons turn _ ih =>
    cases turns' with
    | nil => cases turn.symm.trans left'
    | cons turn' rest =>
      obtain rfl := Flow.next.inj (turn.symm.trans turn')
      exact ih left rest

/-- Nothing is visited before the turn that leaves the loop but what every record of the run holds. -/
theorem Turns.subset_of_done {s t t' : σ} {visited visited' : List σ} {result : ρ}
    (turns : Turns loop s visited t) (left : loop.body t = .done result) (other : Turns loop s visited' t') :
    visited' ⊆ visited := by
  induction other generalizing visited with
  | nil => exact List.nil_subset _
  | cons turn _ ih =>
    cases turns with
    | nil => cases turn.symm.trans left
    | cons turn' rest =>
      obtain rfl := Flow.next.inj (turn.symm.trans turn')
      exact List.cons_subset_cons _ (ih rest)

/-- A measure that every turn lowers by one counts the turns. -/
theorem Turns.measure_eq {measure : σ → ℕ}
    (lowered : ∀ {s t : σ}, loop.body s = .next t → measure s = measure t + 1) {s t : σ} {visited : List σ}
    (turns : Turns loop s visited t) : measure s = measure t + visited.length := by
  induction turns with
  | nil => rfl
  | cons turn _ ih => rw [lowered turn, ih, List.length_cons, Nat.add_assoc]

/-- What every turn preserves and the leaving turn turns into `Q` holds of the result. -/
theorem run_induction (loop : Loop σ ρ) {P : σ → Prop} {Q : ρ → Prop}
    (preserved : ∀ {s t}, P s → loop.body s = .next t → P t)
    (left : ∀ {s result}, P s → loop.body s = .done result → Q result) {s : σ} (start : P s) :
    Q (loop.run s) := by
  fun_induction loop.run s with
  | case1 s _ turn => exact left start turn
  | case2 s mid turn ih => exact ih (preserved start turn)

end Loop

end Rust
