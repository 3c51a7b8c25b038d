import Mathlib.Data.Option.Basic

/-! # Hash maps by their lookups

No client iterates a map, so a map is the partial function its lookups denote. Two maps with the
same lookups are equal, which is what "the table is unchanged" means for the code that uses it.
-/

namespace Rust

/-- `HashMap<K, V>`, observed through `get`. -/
structure HashMap (κ ν : Type) where
  get : κ → Option ν

namespace HashMap

variable {κ ν : Type}

@[ext] theorem ext {a b : HashMap κ ν} (same : ∀ key, a.get key = b.get key) : a = b := by
  cases a
  cases b
  exact congrArg HashMap.mk (funext same)

/-- `HashMap::new()`. -/
def empty : HashMap κ ν := ⟨fun _ => none⟩

instance : Inhabited (HashMap κ ν) := ⟨empty⟩

@[simp] theorem get_empty (key : κ) : (empty : HashMap κ ν).get key = none := rfl

def containsKey (map : HashMap κ ν) (key : κ) : Bool := (map.get key).isSome

variable [DecidableEq κ]

def insert (map : HashMap κ ν) (key : κ) (value : ν) : HashMap κ ν :=
  ⟨fun other => if other = key then some value else map.get other⟩

def remove (map : HashMap κ ν) (key : κ) : HashMap κ ν :=
  ⟨fun other => if other = key then none else map.get other⟩

/-- `update(map.entry(key).or_insert(fresh))`. -/
def upsert (map : HashMap κ ν) (key : κ) (fresh : ν) (update : ν → ν) : HashMap κ ν :=
  map.insert key (update ((map.get key).getD fresh))

theorem get_insert (map : HashMap κ ν) (key other : κ) (value : ν) :
    (map.insert key value).get other = if other = key then some value else map.get other := rfl

theorem get_remove (map : HashMap κ ν) (key other : κ) :
    (map.remove key).get other = if other = key then none else map.get other := rfl

@[simp] theorem get_insert_self (map : HashMap κ ν) (key : κ) (value : ν) :
    (map.insert key value).get key = some value := if_pos rfl

@[simp] theorem get_insert_of_ne (map : HashMap κ ν) {key other : κ} (value : ν)
    (distinct : other ≠ key) : (map.insert key value).get other = map.get other := if_neg distinct

@[simp] theorem get_remove_self (map : HashMap κ ν) (key : κ) : (map.remove key).get key = none :=
  if_pos rfl

@[simp] theorem get_remove_of_ne (map : HashMap κ ν) {key other : κ} (distinct : other ≠ key) :
    (map.remove key).get other = map.get other := if_neg distinct

/-- What a map holds after a removal it held before. -/
theorem of_get_remove {map : HashMap κ ν} {key other : κ} {found : ν}
    (held : (map.remove key).get other = some found) : other ≠ key ∧ map.get other = some found := by
  rw [get_remove] at held
  split at held
  · cases held
  next distinct => exact ⟨distinct, held⟩

/-- What holds of the new entry and of every entry before holds of every entry after an insertion. -/
theorem forall_get_insert {P : κ → ν → Prop} {map : HashMap κ ν} {key : κ} {value : ν} (new : P key value)
    (kept : ∀ other found, map.get other = some found → P other found) :
    ∀ other found, (map.insert key value).get other = some found → P other found := by
  intro other found held
  rw [get_insert] at held
  split at held
  next same =>
    cases held
    exact same ▸ new
  · exact kept other found held

theorem remove_of_absent (map : HashMap κ ν) {key : κ} (absent : map.get key = none) : map.remove key = map := by
  ext other
  rw [get_remove]
  split
  next same => rw [same, absent]
  · rfl

theorem insert_remove (map : HashMap κ ν) (key : κ) (value : ν) :
    (map.remove key).insert key value = map.insert key value := by
  ext other
  rw [get_insert, get_insert, get_remove]
  split
  · rfl
  · rfl

/-! ### Key sets -/

/-- The maps hold the same keys. -/
def SameKeys (before after : HashMap κ ν) : Prop := ∀ key, after.containsKey key = before.containsKey key

omit [DecidableEq κ] in
theorem SameKeys.refl (map : HashMap κ ν) : SameKeys map map := fun _ => rfl

omit [DecidableEq κ] in
theorem SameKeys.trans {first second third : HashMap κ ν} (one : SameKeys first second)
    (two : SameKeys second third) : SameKeys first third := fun key => (two key).trans (one key)

omit [DecidableEq κ] in
theorem SameKeys.symm {before after : HashMap κ ν} (same : SameKeys before after) : SameKeys after before :=
  fun key => (same key).symm

theorem containsKey_insert (map : HashMap κ ν) (key other : κ) (value : ν) :
    (map.insert key value).containsKey other = (decide (other = key) || map.containsKey other) := by
  rw [containsKey, get_insert]
  split
  · next same => simp [same]
  · next distinct => simp [distinct, containsKey]

theorem SameKeys.insert {before after : HashMap κ ν} (same : SameKeys before after) (key : κ) (value value' : ν) :
    SameKeys (before.insert key value) (after.insert key value') := by
  intro other
  rw [containsKey_insert, containsKey_insert, same other]

/-- An insertion adds no key exactly if the key is there. -/
theorem sameKeys_insert_iff (map : HashMap κ ν) (key : κ) (value : ν) :
    SameKeys map (map.insert key value) ↔ map.containsKey key = true := by
  constructor
  · intro same
    rw [← same key, containsKey_insert]
    simp
  · intro present other
    rw [containsKey_insert]
    by_cases equal : other = key
    · simp [equal, present]
    · simp [equal]

/-- Updating one entry, which starts from `fresh`, adds exactly what the update adds to it. -/
theorem exists_get_upsert_iff {P : ν → Prop} {C : Prop} {fresh : ν} {update : ν → ν} (none : ¬ P fresh)
    (adds : ∀ value, P (update value) ↔ P value ∨ C) (map : HashMap κ ν) (key other : κ) :
    (∃ value, (map.upsert key fresh update).get other = some value ∧ P value) ↔
      (∃ value, map.get other = some value ∧ P value) ∨ (other = key ∧ C) := by
  rw [upsert, get_insert]
  split
  · next same =>
    subst same
    cases found : map.get other with
    | none => simp [adds, none]
    | some value => simp [adds]
  · next distinct => simp [distinct]

end HashMap

end Rust
