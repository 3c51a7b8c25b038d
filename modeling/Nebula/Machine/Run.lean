import Mathlib.Data.List.Induction

/-! # Runs of a deterministic system and what they leave behind

A system answers every event with an output. `exec` is the state a run ends in and `log` pairs each
event of the run with its answer, oldest first. An invariant may speak about the log: it holds of
every run once it holds at the start and each step extends it.
-/

namespace Machine

structure System (σ ε ο : Type) where
  step : σ → ε → σ × ο

namespace System

variable {σ ε ο : Type} (m : System σ ε ο)

/-- The state after a run. -/
def exec (s : σ) (events : List ε) : σ := events.foldl (fun state event => (m.step state event).1) s

/-- The events of a run, each with its output. -/
def log : σ → List ε → List (ε × ο)
  | _, [] => []
  | s, event :: rest => (event, (m.step s event).2) :: log (m.step s event).1 rest

@[simp] theorem exec_nil (s : σ) : m.exec s [] = s := rfl

@[simp] theorem exec_cons (s : σ) (event : ε) (rest : List ε) :
    m.exec s (event :: rest) = m.exec (m.step s event).1 rest := rfl

theorem exec_append (s : σ) (first second : List ε) :
    m.exec s (first ++ second) = m.exec (m.exec s first) second := List.foldl_append ..

theorem exec_concat (s : σ) (events : List ε) (event : ε) :
    m.exec s (events ++ [event]) = (m.step (m.exec s events) event).1 := m.exec_append s events [event]

theorem log_concat (s : σ) (events : List ε) (event : ε) :
    m.log s (events ++ [event]) = m.log s events ++ [(event, (m.step (m.exec s events) event).2)] := by
  induction events generalizing s with
  | nil => rfl
  | cons head rest ih => simp only [List.cons_append, log, ih, exec_cons]

theorem mem_log_iff {s : σ} {events : List ε} {entry : ε × ο} :
    entry ∈ m.log s events ↔ ∃ before event after, events = before ++ event :: after ∧
      entry = (event, (m.step (m.exec s before) event).2) := by
  constructor
  · induction events generalizing s with
    | nil => exact fun member => absurd member List.not_mem_nil
    | cons event rest ih =>
      intro member
      rcases List.mem_cons.mp member with rfl | later
      · exact ⟨[], event, rest, rfl, rfl⟩
      · obtain ⟨before, event', after, split, same⟩ := ih later
        exact ⟨event :: before, event', after, by rw [split]; rfl, same⟩
  · rintro ⟨before, event, after, rfl, rfl⟩
    induction before generalizing s with
    | nil => exact List.mem_cons_self
    | cons first before ih => exact List.mem_cons_of_mem _ ih

/-- A property of the log and the state that every step extends holds after every run. -/
theorem history_invariant {s : σ} (Inv : List (ε × ο) → σ → Prop) (initial : Inv [] s)
    (extended : ∀ log state event, Inv log state →
      Inv (log ++ [(event, (m.step state event).2)]) (m.step state event).1) (events : List ε) :
    Inv (m.log s events) (m.exec s events) := by
  induction events using List.reverseRecOn with
  | nil => exact initial
  | append_singleton events event ih =>
    rw [log_concat, exec_concat]
    exact extended _ _ _ ih

/-- A property of states that every allowed step preserves holds after every run of such steps. -/
theorem invariant_of_allowed (allowed : ε → Prop) (Inv : σ → Prop)
    (preserved : ∀ state event, allowed event → Inv state → Inv (m.step state event).1) {s : σ}
    (initial : Inv s) (events : List ε) (only : ∀ event ∈ events, allowed event) :
    Inv (m.exec s events) := by
  induction events generalizing s with
  | nil => exact initial
  | cons event rest ih =>
    rw [List.forall_mem_cons] at only
    exact ih (preserved s event only.1 initial) only.2

/-- A property of states that every step preserves holds after every run. -/
theorem state_invariant (Inv : σ → Prop)
    (preserved : ∀ state event, Inv state → Inv (m.step state event).1) {s : σ} (initial : Inv s)
    (events : List ε) : Inv (m.exec s events) := by
  refine m.invariant_of_allowed (fun _ => True) Inv ?_ initial events (fun _ _ => trivial)
  intro state event _ held
  exact preserved state event held

/-- Every step of the run is allowed where it is taken. -/
def Throughout (Allowed : σ → ε → Prop) : σ → List ε → Prop
  | _, [] => True
  | s, event :: rest => Allowed s event ∧ Throughout Allowed (m.step s event).1 rest

instance decidableThroughout (Allowed : σ → ε → Prop) [∀ s event, Decidable (Allowed s event)] :
    ∀ s events, Decidable (m.Throughout Allowed s events)
  | _, [] => .isTrue trivial
  | s, event :: rest =>
    have := decidableThroughout Allowed (m.step s event).1 rest
    inferInstanceAs (Decidable (_ ∧ _))

/-- A property of states that a step preserves where it is allowed holds after every run of such steps. -/
theorem invariant_of_throughout {Allowed : σ → ε → Prop} (Inv : σ → Prop)
    (preserved : ∀ state event, Allowed state event → Inv state → Inv (m.step state event).1) {s : σ}
    (initial : Inv s) {events : List ε} (allowed : m.Throughout Allowed s events) : Inv (m.exec s events) := by
  induction events generalizing s with
  | nil => exact initial
  | cons event rest ih => exact ih (preserved s event allowed.1 initial) allowed.2

/-- A step of the run was taken in a state of the first kind, and all states after it are of the second. -/
def Since (Began Lasts : σ → Prop) (s : σ) (events : List ε) : Prop :=
  ∃ before event after, events = before ++ event :: after ∧ Began (m.exec s before) ∧
    ∀ middle rest, after = middle ++ rest → Lasts (m.exec s (before ++ event :: middle))

section Since

variable {Began Lasts : σ → Prop} {s : σ} {events : List ε} {event : ε}

theorem since_step (began : Began (m.exec s events)) (next : Lasts (m.exec s (events ++ [event]))) :
    m.Since Began Lasts s (events ++ [event]) := by
  refine ⟨events, event, [], rfl, began, ?_⟩
  intro middle rest split
  obtain ⟨rfl, rfl⟩ := List.append_eq_nil_iff.mp split.symm
  exact next

variable {m} in
theorem Since.step (since : m.Since Began Lasts s events) (next : Lasts (m.exec s (events ++ [event]))) :
    m.Since Began Lasts s (events ++ [event]) := by
  obtain ⟨before, first, after, rfl, began, lasts⟩ := since
  refine ⟨before, first, after ++ [event], by rw [List.append_assoc, List.cons_append], began, ?_⟩
  intro middle rest split
  rcases List.eq_nil_or_concat rest with rfl | ⟨rest', last, rfl⟩
  · rw [List.append_nil] at split
    rw [← split, ← List.cons_append, ← List.append_assoc]
    exact next
  · rw [List.concat_eq_append, ← List.append_assoc] at split
    exact lasts middle rest' (List.append_inj_left' split rfl)

end Since

/-- Where a step from a good state of the run leads to a good one exactly if it is allowed there, the run
stays in good states exactly if each of its steps is allowed. -/
theorem throughout_iff {s : σ} (Good : σ → Prop) (Allowed : σ → ε → Prop) (initial : Good s)
    (kept : ∀ before event, Good (m.exec s before) →
      (Good (m.step (m.exec s before) event).1 ↔ Allowed (m.exec s before) event)) (events : List ε) :
    (∀ before after, events = before ++ after → Good (m.exec s before)) ↔
      ∀ before event after, events = before ++ event :: after → Allowed (m.exec s before) event := by
  constructor
  · intro good before event after split
    rw [← kept before event (good before (event :: after) split), ← exec_concat]
    exact good (before ++ [event]) after (by rw [split, List.append_assoc]; rfl)
  · intro allowed before
    induction before using List.reverseRecOn with
    | nil => exact fun _ _ => initial
    | append_singleton before event ih =>
      intro after split
      rw [List.append_assoc] at split
      rw [exec_concat, kept before event (ih _ split)]
      exact allowed before event after split

end System

end Machine
