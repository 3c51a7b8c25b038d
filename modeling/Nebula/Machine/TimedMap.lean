import Mathlib.Data.List.Induction
import Mathlib.Order.Lattice

/-! # Timed maps and chronological runs

In a plain timed map a key holds the value last written to it until that write's own end. Nothing
is ever purged, so the map is the specification of a table that forgets its entries lazily. Events
carry the time at which they happen, if they have one; a run is chronological when these times never
go back, and an invariant may then speak about a clock that bounds them.
-/

namespace Machine

/-! ## Chronological runs -/

section Chronological

variable {ε τ : Type} [Preorder τ]

/-- The times of the events never go back. -/
def Chronological (time : ε → Option τ) (events : List ε) : Prop :=
  (events.filterMap time).Pairwise (· ≤ ·)

variable {time : ε → Option τ} {events more : List ε} {event : ε}

theorem Chronological.of_append (ordered : Chronological time (events ++ more)) :
    Chronological time events := by
  unfold Chronological at ordered ⊢
  rw [List.filterMap_append, List.pairwise_append] at ordered
  exact ordered.1

theorem Chronological.le_last (ordered : Chronological time (events ++ [event])) {now : τ}
    (last : time event = some now) : ∀ earlier ∈ events, ∀ t ∈ time earlier, t ≤ now := by
  unfold Chronological at ordered
  rw [List.filterMap_append, List.pairwise_append] at ordered
  intro earlier member t happened
  apply ordered.2.2 t
  · exact List.mem_filterMap.mpr ⟨earlier, member, happened⟩
  · exact List.mem_filterMap.mpr ⟨event, List.mem_singleton_self event, last⟩

/-- A property that the passing of time keeps, and that every event extends at its own time, holds of
every chronological run at every clock that has seen it. -/
theorem Chronological.induction {P : τ → List ε → Prop} (initial : ∀ clock, P clock [])
    (later : ∀ clock now events, clock ≤ now → P clock events → P now events)
    (extended : ∀ clock events event, (∀ t ∈ time event, t = clock) → P clock events →
      P clock (events ++ [event]))
    (ordered : Chronological time events) {clock : τ}
    (seen : ∀ event ∈ events, ∀ t ∈ time event, t ≤ clock) : P clock events := by
  induction events using List.reverseRecOn generalizing clock with
  | nil => exact initial clock
  | append_singleton events event ih =>
    cases happened : time event with
    | none =>
      apply extended clock events event
      · rw [happened]
        rintro t ⟨⟩
      · apply ih ordered.of_append
        intro earlier member
        exact seen earlier (List.mem_append_left _ member)
    | some now =>
      apply later now clock
      · exact seen event (List.mem_append_right _ (List.mem_singleton_self event)) now happened
      · apply extended now events event
        · rw [happened]
          rintro t ⟨⟩
          rfl
        · exact ih ordered.of_append (ordered.le_last happened)

end Chronological

/-! ## The last event of a kind -/

section Last

variable {ε : Type} {touches : ε → Prop} {events : List ε} {event last : ε}

/-- `last` happened, and nothing after it `touches` what it did. -/
def Last (touches : ε → Prop) (events : List ε) (last : ε) : Prop :=
  ∃ before after, events = before ++ last :: after ∧ ∀ later ∈ after, ¬ touches later

theorem last_concat_iff :
    Last touches (events ++ [event]) last ↔ event = last ∨ (¬ touches event ∧ Last touches events last) := by
  constructor
  · rintro ⟨before, after, split, untouched⟩
    induction after using List.reverseRecOn with
    | nil => exact .inl (List.singleton_inj.mp (List.append_inj' split rfl).2)
    | append_singleton front final _ =>
      rw [← List.cons_append, ← List.append_assoc] at split
      obtain ⟨same, final_eq⟩ := List.append_inj' split rfl
      obtain rfl := List.singleton_inj.mp final_eq
      refine .inr ⟨?_, before, front, same, ?_⟩
      · exact untouched event (List.mem_append_right _ (List.mem_singleton_self event))
      · intro later member
        exact untouched later (List.mem_append_left _ member)
  · rintro (rfl | ⟨untouched, before, after, rfl, rest⟩)
    · exact ⟨events, [], rfl, fun later member => absurd member List.not_mem_nil⟩
    · refine ⟨before, after ++ [event], by rw [← List.cons_append, List.append_assoc], ?_⟩
      intro later member
      rcases List.mem_append.mp member with earlier | final
      · exact rest later earlier
      · rw [List.mem_singleton.mp final]
        exact untouched

end Last

/-! ## Timed maps -/

/-- What is done to a timed map: a value is written until `ends`, or a key is removed. -/
inductive TimedWrite (κ ν τ : Type) where
  | record (key : κ) (value : ν) (ends : τ)
  | remove (key : κ)

def TimedWrite.key {κ ν τ : Type} : TimedWrite κ ν τ → κ
  | .record key _ _ => key
  | .remove key => key

/-- The last write of each key, with the end of it. -/
structure TimedMap (κ ν τ : Type) where
  entry : κ → Option (τ × ν)

namespace TimedMap

variable {ε κ ν τ : Type}

def empty : TimedMap κ ν τ := ⟨fun _ => none⟩

section Lookup

variable [LT τ] [DecidableLT τ]

/-- The value of a key at the time `now`, which is strictly before the end of its write. -/
def lookup (map : TimedMap κ ν τ) (key : κ) (now : τ) : Option ν :=
  ((map.entry key).filter fun (ends, _) => now < ends).map Prod.snd

theorem lookup_eq_some_iff (map : TimedMap κ ν τ) (key : κ) (value : ν) (now : τ) :
    map.lookup key now = some value ↔ ∃ ends, map.entry key = some (ends, value) ∧ now < ends := by
  unfold lookup
  cases map.entry key with
  | none => simp
  | some pair => simp [Option.filter_eq_some_iff, and_comm]

end Lookup

variable [DecidableEq κ]

def write (map : TimedMap κ ν τ) : TimedWrite κ ν τ → TimedMap κ ν τ
  | .record key value ends => ⟨fun other => if other = key then some (ends, value) else map.entry other⟩
  | .remove key => ⟨fun other => if other = key then none else map.entry other⟩

theorem entry_write_of_ne (map : TimedMap κ ν τ) {last : TimedWrite κ ν τ} {key : κ}
    (distinct : last.key ≠ key) : (map.write last).entry key = map.entry key := by
  cases last with
  | record other value ends => exact if_neg (Ne.symm distinct)
  | remove other => exact if_neg (Ne.symm distinct)

variable (meaning : ε → Option (TimedWrite κ ν τ))

/-- An event, if it writes at all. -/
def apply (map : TimedMap κ ν τ) (event : ε) : TimedMap κ ν τ := ((meaning event).map map.write).getD map

/-- The map after a history of events, some of which write. -/
def after (events : List ε) : TimedMap κ ν τ := events.foldl (apply meaning) empty

theorem after_concat (events : List ε) (event : ε) :
    after meaning (events ++ [event]) = (after meaning events).apply meaning event := by
  rw [after, List.foldl_append]
  rfl

/-- The event writes `key`. -/
def Writes (key : κ) (event : ε) : Prop := ∃ write, meaning event = some write ∧ write.key = key

/-- An entry of the map is the last record of its key. -/
theorem entry_after_iff (events : List ε) (key : κ) (value : ν) (ends : τ) :
    (after meaning events).entry key = some (ends, value) ↔
      ∃ event, meaning event = some (.record key value ends) ∧ Last (Writes meaning key) events event := by
  induction events using List.reverseRecOn with
  | nil => simp [after, empty, Last]
  | append_singleton events event ih =>
    simp only [after_concat, last_concat_iff]
    by_cases same : Writes meaning key event
    · obtain ⟨last, written, rfl⟩ := same
      have touched : Writes meaning last.key event := ⟨last, written, rfl⟩
      simp only [touched, not_true_eq_false, false_and, or_false, exists_eq_right', apply, written,
        Option.map_some, Option.getD_some, Option.some.injEq]
      cases last with
      | record key value' ends' => simp [write, TimedWrite.key, and_comm]
      | remove key => simp [write, TimedWrite.key]
    · have kept : ((after meaning events).apply meaning event).entry key = (after meaning events).entry key := by
        unfold apply
        cases written : meaning event with
        | none => rfl
        | some last => exact entry_write_of_ne _ fun equal => same ⟨last, written, equal⟩
      rw [kept, ih]
      constructor
      · rintro ⟨last, recorded, held⟩
        exact ⟨last, recorded, .inr ⟨same, held⟩⟩
      · rintro ⟨last, recorded, rfl | ⟨-, held⟩⟩
        · exact absurd ⟨_, recorded, rfl⟩ same
        · exact ⟨last, recorded, held⟩

end TimedMap

end Machine
