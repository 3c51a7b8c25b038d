import Nebula.Machine.Run

/-! # What the steps of a run show, one after another

`gather` lists what each step of a run shows of itself. If it shows the calls that the whole makes on one of its
parts, and every step keeps the two states related, the part goes through these calls as if it were alone, with
the same answers. If it shows the keys that a step enters in a book, never one that is in use, no key is entered
twice. Both rules let an invariant depend on the events that are still to come.
-/

namespace Machine.System

variable {σ ε ο α : Type} (m : System σ ε ο)

/-- What the steps of a run show, oldest first. -/
def gather (shows : σ → ε → List α) : σ → List ε → List α
  | _, [] => []
  | s, event :: rest => shows s event ++ gather shows (m.step s event).1 rest

variable {shows : σ → ε → List α}

theorem gather_append (s : σ) (first second : List ε) :
    m.gather shows s (first ++ second) = m.gather shows s first ++ m.gather shows (m.exec s first) second := by
  induction first generalizing s with
  | nil => rfl
  | cons event rest ih => simp only [List.cons_append, gather, ih, exec_cons, List.append_assoc]

theorem gather_concat (s : σ) (events : List ε) (event : ε) :
    m.gather shows s (events ++ [event]) = m.gather shows s events ++ shows (m.exec s events) event := by
  rw [gather_append, gather, gather, List.append_nil]

variable {m} in
theorem mem_gather_iff {s : σ} {events : List ε} {a : α} :
    a ∈ m.gather shows s events ↔
      ∃ before event after, events = before ++ event :: after ∧ a ∈ shows (m.exec s before) event := by
  constructor
  · induction events generalizing s with
    | nil => exact fun member => absurd member List.not_mem_nil
    | cons event rest ih =>
      intro member
      rcases List.mem_append.mp member with here | later
      · exact ⟨[], event, rest, rfl, here⟩
      · obtain ⟨before, event', after, split, shown⟩ := ih later
        exact ⟨event :: before, event', after, by rw [split]; rfl, shown⟩
  · rintro ⟨before, event, after, rfl, shown⟩
    rw [gather_append]
    exact List.mem_append_right _ (List.mem_append_left _ shown)

theorem gather_map {β : Type} (f : α → β) (s : σ) (events : List ε) :
    m.gather (fun state event => (shows state event).map f) s events = (m.gather shows s events).map f := by
  induction events generalizing s with
  | nil => rfl
  | cons event rest ih => simp only [gather, ih, List.map_append]

theorem gather_sublist {some all : σ → ε → List α} (part : ∀ s event, (some s event).Sublist (all s event)) (s : σ)
    (events : List ε) : (m.gather some s events).Sublist (m.gather all s events) := by
  induction events generalizing s with
  | nil => exact List.Sublist.refl []
  | cons event rest ih => exact (part s event).append (ih _)

/-- Where the state does not matter, the events show themselves. -/
theorem gather_flatMap (shows : ε → List α) (s : σ) (events : List ε) :
    m.gather (fun _ => shows) s events = events.flatMap shows := by
  induction events generalizing s with
  | nil => rfl
  | cons event rest ih => rw [gather, ih, List.flatMap_cons]

theorem gather_filter (p : ε → Bool) (s : σ) (events : List ε) :
    m.gather (fun _ event => if p event then [event] else []) s events = events.filter p := by
  induction events generalizing s with
  | nil => rfl
  | cons event rest ih =>
    rw [gather, ih, List.filter_cons]
    split <;> rfl

theorem gather_log_filter (p : ε → Bool) (s : σ) (events : List ε) :
    m.gather (fun state event => if p event then [(event, (m.step state event).2)] else []) s events =
      (m.log s events).filter fun entry => p entry.1 := by
  induction events generalizing s with
  | nil => rfl
  | cons event rest ih =>
    rw [gather, ih, log, List.filter_cons]
    split <;> rfl

/-- A book in which every step enters what it shows. -/
theorem book_run (book : σ → List α) (kept : ∀ s event, book (m.step s event).1 = book s ++ shows s event) (s : σ)
    (events : List ε) : book (m.exec s events) = book s ++ m.gather shows s events := by
  induction events generalizing s with
  | nil => exact (List.append_nil _).symm
  | cons event rest ih => rw [exec_cons, ih, kept, List.append_assoc, gather]

/-- A queue that every step leaves with what came in behind what it held, less what went out at its head, gives
out what it held and then what came in, in their order. -/
theorem queue_run (goesOut comesIn : σ → ε → List α) (queue : σ → List α)
    (kept : ∀ s event, goesOut s event ++ queue (m.step s event).1 = queue s ++ comesIn s event) (s : σ)
    (events : List ε) :
    m.gather goesOut s events ++ queue (m.exec s events) = queue s ++ m.gather comesIn s events := by
  induction events generalizing s with
  | nil => exact (List.append_nil _).symm
  | cons event rest ih =>
    calc m.gather goesOut s (event :: rest) ++ queue (m.exec s (event :: rest))
      _ = goesOut s event ++ (m.gather goesOut (m.step s event).1 rest ++ queue (m.exec (m.step s event).1 rest)) :=
        List.append_assoc ..
      _ = goesOut s event ++ (queue (m.step s event).1 ++ m.gather comesIn (m.step s event).1 rest) := by rw [ih]
      _ = queue s ++ m.gather comesIn s (event :: rest) := by
        rw [← List.append_assoc, kept, List.append_assoc, gather]

/-! ## A part of the system -/

section Part

variable {τ δ ρ : Type} (part : System τ δ ρ) (calls : σ → ε → List δ) (answers : σ → ε → List (δ × ρ))

/-- A part that every step takes through the calls it makes on it goes through the calls of every run. What a
step makes of the answers may be read off the step itself. -/
theorem part_run (Related : List ε → σ → τ → Prop)
    (kept : ∀ event rest s t, Related (event :: rest) s t →
      Related rest (m.step s event).1 (part.exec t (calls s event)) ∧
        part.log t (calls s event) = answers s event)
    {s : σ} {t : τ} {events : List ε} (initial : Related events s t) :
    Related [] (m.exec s events) (part.exec t (m.gather calls s events)) ∧
      part.log t (m.gather calls s events) = m.gather answers s events := by
  have log_append (t : τ) (first second : List δ) :
      part.log t (first ++ second) = part.log t first ++ part.log (part.exec t first) second := by
    induction first generalizing t with
    | nil => rfl
    | cons call rest ih => simp only [List.cons_append, log, ih, exec_cons]
  induction events generalizing s t with
  | nil => exact ⟨initial, rfl⟩
  | cons event rest ih =>
    obtain ⟨related, same⟩ := kept event rest s t initial
    obtain ⟨final, later⟩ := ih related
    rw [exec_cons, gather, gather, exec_append, log_append, same, later]
    exact ⟨final, rfl⟩

/-- A part that can be read off the state of the whole shows of its calls what the whole shows of them. -/
theorem part_gather (of : σ → τ) (callsOf : ε → List δ)
    (kept : ∀ s event, of (m.step s event).1 = part.exec (of s) (callsOf event)) (s : σ) (events : List ε) :
    of (m.exec s events) = part.exec (of s) (events.flatMap callsOf) ∧
      ∀ shows : τ → δ → List α, part.gather shows (of s) (events.flatMap callsOf) =
        m.gather (fun s event => part.gather shows (of s) (callsOf event)) s events := by
  induction events generalizing s with
  | nil => exact ⟨rfl, fun _ => rfl⟩
  | cons event rest ih =>
    obtain ⟨final, shown⟩ := ih (m.step s event).1
    rw [kept] at final shown
    refine ⟨?_, fun shows => ?_⟩
    · rw [exec_cons, final, List.flatMap_cons, exec_append]
    · rw [List.flatMap_cons, gather_append, shown, gather]

end Part

/-! ## Keys entered once -/

/-- No key is entered twice if no step enters a key in use or the same key twice, and keys in use, those that a
step enters among them, stay in use. -/
theorem nodup_gather (Good : List ε → σ → Prop) (Used : σ → α → Prop)
    (good : ∀ event rest s, Good (event :: rest) s → Good rest (m.step s event).1)
    (fresh : ∀ event rest s, Good (event :: rest) s → (shows s event).Nodup ∧ ∀ key ∈ shows s event, ¬ Used s key)
    (used : ∀ event rest s, Good (event :: rest) s → ∀ key, Used s key ∨ key ∈ shows s event →
      Used (m.step s event).1 key)
    {s : σ} {events : List ε} (initial : Good events s) : (m.gather shows s events).Nodup := by
  have unused (events : List ε) (s : σ) (held : Good events s) :
      ∀ key, Used s key → key ∉ m.gather shows s events := by
    induction events generalizing s with
    | nil => exact fun _ _ => List.not_mem_nil
    | cons event rest ih =>
      intro key before member
      rcases List.mem_append.mp member with here | later
      · exact (fresh event rest s held).2 key here before
      · exact ih _ (good event rest s held) key (used event rest s held key (.inl before)) later
  induction events generalizing s with
  | nil => exact List.nodup_nil
  | cons event rest ih =>
    have held := good event rest s initial
    refine List.nodup_append.mpr ⟨(fresh event rest s initial).1, ih held, ?_⟩
    rintro key here _ later rfl
    exact unused rest _ held key (used event rest s initial key (.inr here)) later

end Machine.System
