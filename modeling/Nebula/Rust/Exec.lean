import Mathlib.Data.List.Basic
import Mathlib.Data.List.Induction
import Mathlib.Algebra.Ring.Nat

/-! # Outcomes of code that may unwind

A checked access of the source is a function into `Exec`: it returns a value or names the reason
for which the thread unwinds. `Fallible ε` adds the function's own error, so that one `do` block
renders the `?` operator and the accesses that panic. Arrays `[T; N]` carry their length.
-/

namespace Rust

abbrev Bytes := List UInt8

/-- Why a thread unwinds. -/
inductive Panic where
  | indexOutOfBounds
  | lengthMismatch
  | overflow
  | expect
  | poisoned
deriving DecidableEq, Repr

/-- A call that returns or unwinds. -/
abbrev Exec := Except Panic

/-- How a call returning `Result<_, ε>` can miss its value. -/
inductive Failure (ε : Type) where
  | err (error : ε)
  | panic (cause : Panic)
deriving DecidableEq, Repr

/-- A call that returns `Result<_, ε>` or unwinds. -/
abbrev Fallible (ε : Type) := Except (Failure ε)

variable {α ε : Type}

/-- An access that may unwind, inside a fallible function. -/
def orUnwind : Exec α → Fallible ε α
  | .ok value => .ok value
  | .error cause => .error (.panic cause)

/-- `option.ok_or(error)?`. -/
def okOr (error : ε) : Option α → Fallible ε α
  | some value => .ok value
  | none => .error (.err error)

@[simp] theorem orUnwind_ok (value : α) : (orUnwind (.ok value) : Fallible ε α) = .ok value := rfl

theorem orUnwind_eq_ok {call : Exec α} {value : α} (ok : (orUnwind call : Fallible ε α) = .ok value) :
    call = .ok value := by
  cases call <;> cases ok
  rfl

@[simp] theorem okOr_some (error : ε) (value : α) : okOr error (some value) = .ok value := rfl

@[simp] theorem okOr_none (error : ε) : okOr error (none : Option α) = .error (.err error) := rfl

theorem okOr_eq_ok {error : ε} {found : Option α} {value : α} (ok : okOr error found = .ok value) :
    found = some value := by
  cases found <;> cases ok
  rfl

theorem okOr_of_some {found : Option α} {value : α} (same : found = some value) (error : ε) :
    okOr error found = .ok value := by
  rw [same, okOr_some]

/-- A sequence returns if its first part does and the rest does with that value. -/
theorem bind_eq_ok {β φ : Type} {first : Except φ α} {rest : α → Except φ β} {result : β} :
    first >>= rest = .ok result ↔ ∃ value, first = .ok value ∧ rest value = .ok result := by
  cases first <;> simp [bind, Except.bind]

/-- A sequence fails if its first part does, or the rest does with the value of that. -/
theorem bind_eq_error {β φ : Type} {first : Except φ α} {rest : α → Except φ β} {failure : φ} :
    first >>= rest = .error failure ↔
      first = .error failure ∨ ∃ value, first = .ok value ∧ rest value = .error failure := by
  cases first <;> simp [bind, Except.bind]

theorem map_eq_ok {β φ : Type} {f : α → β} {call : Except φ α} {result : β} :
    f <$> call = .ok result ↔ ∃ value, call = .ok value ∧ f value = result := by
  cases call <;> simp [Functor.map, Except.map]

/-- `items[i]`. -/
def index (items : List α) (i : ℕ) : Exec α :=
  match items[i]? with
  | some item => .ok item
  | none => .error .indexOutOfBounds

/-- `&items[start..stop]`. -/
def slice (items : List α) (start stop : ℕ) : Exec (List α) :=
  if start ≤ stop ∧ stop ≤ items.length then .ok ((items.take stop).drop start)
  else .error .indexOutOfBounds

/-- `&items[start..]`. -/
def sliceFrom (items : List α) (start : ℕ) : Exec (List α) := slice items start items.length

/-- `items.get(start..stop)`. -/
def getSlice (items : List α) (start stop : ℕ) : Option (List α) :=
  if start ≤ stop ∧ stop ≤ items.length then some ((items.take stop).drop start) else none

/-- `buf[start..].copy_from_slice(items)`. -/
def copyIntoFrom (buf : List α) (start : ℕ) (items : List α) : Exec (List α) := do
  let target ← sliceFrom buf start
  if target.length = items.length then return buf.take start ++ items else throw .lengthMismatch

/-- `a + b` in `usize`. -/
def usizeAdd (a b : ℕ) : Exec ℕ := if a + b < 2 ^ 64 then .ok (a + b) else .error .overflow

/-- `a - b` in `usize`. -/
def usizeSub (a b : ℕ) : Exec ℕ := if b ≤ a then .ok (a - b) else .error .overflow

theorem index_eq_ok {items : List α} {i : ℕ} {item : α} (present : items[i]? = some item) :
    index items i = .ok item := by simp only [index, present]

/-! ## Calls that return -/

/-- The call does not unwind. -/
def Returns (call : Exec α) : Prop := ∃ value, call = .ok value

theorem returns_ok (value : α) : Returns (.ok value : Exec α) := ⟨value, rfl⟩

/-- A sequence returns if its first part does and the rest does with whatever that gives. -/
theorem Returns.bind {β : Type} {first : Exec α} {rest : α → Exec β} (returns : Returns first)
    (onward : ∀ value, first = .ok value → Returns (rest value)) : Returns (first >>= rest) := by
  obtain ⟨value, first_eq⟩ := returns
  obtain ⟨result, rest_eq⟩ := onward value first_eq
  exact ⟨result, bind_eq_ok.mpr ⟨value, first_eq, rest_eq⟩⟩

theorem Returns.map {β : Type} {call : Exec α} (returns : Returns call) (f : α → β) :
    Returns (f <$> call) := by
  obtain ⟨value, rfl⟩ := returns
  exact returns_ok (f value)

theorem returns_mapM_iff {β : Type} (f : α → Exec β) (items : List α) :
    Returns (items.mapM f) ↔ ∀ item ∈ items, Returns (f item) := by
  induction items with
  | nil => simp [returns_ok, pure, Except.pure]
  | cons item rest ih =>
    rw [List.mapM_cons, List.forall_mem_cons, ← ih]
    constructor
    · rintro ⟨results, mapped⟩
      obtain ⟨first, here, mapped⟩ := bind_eq_ok.mp mapped
      obtain ⟨others, behind, -⟩ := bind_eq_ok.mp mapped
      exact ⟨⟨first, here⟩, others, behind⟩
    · rintro ⟨here, behind⟩
      exact here.bind fun first _ => behind.bind fun others _ => returns_ok _

theorem returns_index {items : List α} {i : ℕ} (bound : i < items.length) : Returns (index items i) :=
  ⟨items[i], index_eq_ok (List.getElem?_eq_getElem bound)⟩

theorem drop_eq_cons {items : List α} {i : ℕ} {item : α} (present : items[i]? = some item) :
    items.drop i = item :: items.drop (i + 1) := by
  obtain ⟨bound, rfl⟩ := List.getElem?_eq_some_iff.mp present
  exact List.drop_eq_getElem_cons bound

theorem drop_eq_take_append (items : List α) (i n : ℕ) :
    items.drop i = (items.drop i).take n ++ items.drop (i + n) := by
  rw [← List.drop_drop, List.take_append_drop]

theorem slice_eq_ok {items : List α} {start stop : ℕ} (ordered : start ≤ stop)
    (bound : stop ≤ items.length) : slice items start stop = .ok ((items.take stop).drop start) :=
  if_pos ⟨ordered, bound⟩

theorem sliceFrom_eq_ok {items : List α} {start : ℕ} (bound : start ≤ items.length) :
    sliceFrom items start = .ok (items.drop start) := by
  rw [sliceFrom, slice_eq_ok bound (Nat.le_refl _), List.take_length]

theorem usizeAdd_eq_ok_iff {a b sum : ℕ} : usizeAdd a b = .ok sum ↔ sum = a + b ∧ a + b < 2 ^ 64 := by
  unfold usizeAdd
  split
  · next fits =>
    constructor
    · rintro ⟨⟩
      exact ⟨rfl, fits⟩
    · rintro ⟨rfl, -⟩
      rfl
  · next large =>
    constructor
    · rintro ⟨⟩
    · rintro ⟨-, fits⟩
      exact absurd fits large

theorem usizeSub_eq_ok {a b : ℕ} (le : b ≤ a) : usizeSub a b = .ok (a - b) := if_pos le

theorem copyIntoFrom_eq_ok {buf items : List α} {start : ℕ} (fits : start + items.length = buf.length) :
    copyIntoFrom buf start items = .ok (buf.take start ++ items) := by
  have size : (buf.drop start).length = items.length := by rw [List.length_drop]; omega
  refine bind_eq_ok.mpr ⟨buf.drop start, sliceFrom_eq_ok (by omega), ?_⟩
  exact if_pos size

/-- A copy that ends where the buffer ends. -/
theorem copyIntoFrom_replicate {items : List α} {width : ℕ} (fill : α) (fits : items.length ≤ width) :
    copyIntoFrom (List.replicate width fill) (width - items.length) items =
      .ok (List.replicate (width - items.length) fill ++ items) := by
  rw [copyIntoFrom_eq_ok (by rw [List.length_replicate]; omega), List.take_replicate,
    Nat.min_eq_left (Nat.sub_le _ _)]

theorem returns_slice {items : List α} {start stop : ℕ} (ordered : start ≤ stop)
    (bound : stop ≤ items.length) : Returns (slice items start stop) := ⟨_, slice_eq_ok ordered bound⟩

theorem returns_sliceFrom {items : List α} {start : ℕ} (bound : start ≤ items.length) :
    Returns (sliceFrom items start) := ⟨_, sliceFrom_eq_ok bound⟩

theorem slice_middle {before middle after : List α} {start stop : ℕ} (starts : before.length = start)
    (stops : start + middle.length = stop) : slice (before ++ (middle ++ after)) start stop = .ok middle := by
  subst starts stops
  rw [slice_eq_ok (by omega) (by simp), List.drop_take, List.drop_left, Nat.add_sub_cancel_left,
    List.take_left]

theorem getSlice_eq_some {items part : List α} {start stop : ℕ} (found : getSlice items start stop = some part) :
    stop ≤ items.length ∧ part.length = stop - start := by
  unfold getSlice at found
  split at found
  · next bounds =>
    cases found
    rw [List.length_drop, List.length_take, Nat.min_eq_left bounds.2]
    exact ⟨bounds.2, rfl⟩
  · cases found

/-! ## Calls that return a `Result` -/

/-- The call does not unwind, and `P` holds of the value it returns, if it returns one. -/
def Ensures (P : α → Prop) : Fallible ε α → Prop
  | .ok value => P value
  | .error (.err _) => True
  | .error (.panic _) => False

theorem ensures_ok {P : α → Prop} {value : α} (holds : P value) : Ensures P (.ok value : Fallible ε α) := holds

theorem ensures_err {P : α → Prop} (error : ε) : Ensures P (.error (.err error) : Fallible ε α) := trivial

/-- What one part ensures the rest may rely on. -/
theorem Ensures.bind {β : Type} {P : α → Prop} {Q : β → Prop} {first : Fallible ε α} {rest : α → Fallible ε β}
    (ensures : Ensures P first) (onward : ∀ value, P value → Ensures Q (rest value)) :
    Ensures Q (first >>= rest) := by
  rcases first with (error | cause) | value
  · trivial
  · exact ensures.elim
  · exact onward value ensures

theorem Ensures.imp {P Q : α → Prop} {call : Fallible ε α} (ensures : Ensures P call)
    (weaker : ∀ value, P value → Q value) : Ensures Q call := by
  rcases call with (error | cause) | value
  · trivial
  · exact ensures.elim
  · exact weaker value ensures

/-- A call that fails as another does returns an error as that one does. -/
theorem Ensures.failure {β : Type} {P : α → Prop} {Q : β → Prop} {failure : Failure ε}
    (ensures : Ensures P (.error failure : Fallible ε α)) : Ensures Q (.error failure : Fallible ε β) := by
  cases failure with
  | err error => trivial
  | panic cause => exact ensures.elim

theorem Ensures.result {P : α → Prop} {call : Fallible ε α} (ensures : Ensures P call) :
    (∃ value, call = .ok value) ∨ ∃ error, call = .error (.err error) := by
  rcases call with (error | cause) | value
  · exact .inr ⟨error, rfl⟩
  · exact ensures.elim
  · exact .inl ⟨value, rfl⟩

theorem Ensures.of_ok {P : α → Prop} {call : Fallible ε α} {value : α} (ensures : Ensures P call)
    (ok : call = .ok value) : P value := by
  subst ok
  exact ensures

theorem ensures_okOr {P : α → Prop} {found : Option α} (error : ε) (holds : ∀ value, found = some value → P value) :
    Ensures P (okOr error found) := by
  cases found with
  | none => trivial
  | some value => exact holds value rfl

theorem ensures_orUnwind {P : α → Prop} {call : Exec α} {value : α} (ok : call = .ok value) (holds : P value) :
    Ensures P (orUnwind call : Fallible ε α) := by
  rw [ok]
  exact holds

/-- The array type `[T; N]`. -/
structure Arr (α : Type) (n : ℕ) where
  items : List α
  size : items.length = n
deriving DecidableEq, Repr

namespace Arr

variable {n : ℕ}

@[ext] theorem ext {a b : Arr α n} (same : a.items = b.items) : a = b := by
  cases a
  cases b
  cases same
  rfl

instance [Ord α] : Ord (Arr α n) := ⟨fun a b => compare a.items b.items⟩

/-- `[value; N]`. -/
def replicate (n : ℕ) (value : α) : Arr α n := ⟨List.replicate n value, List.length_replicate⟩

/-- `array[i]`, for an index known to be in bounds. -/
def get (a : Arr α n) (i : Fin n) : α := a.items.get (i.cast a.size.symm)

/-- `array[i] = value`. -/
def set (a : Arr α n) (i : Fin n) (value : α) : Arr α n :=
  ⟨a.items.set i value, by rw [List.length_set, a.size]⟩

/-- `array.copy_from_slice(items)` into a fresh array, which unwinds on another length. -/
def copyFromSlice (n : ℕ) (items : List α) : Exec (Arr α n) :=
  if size : items.length = n then .ok ⟨items, size⟩ else .error .lengthMismatch

theorem copyFromSlice_eq_ok {items : List α} (size : items.length = n) :
    copyFromSlice n items = .ok ⟨items, size⟩ := dif_pos size

end Arr

/-- The natural number a big-endian byte string denotes. -/
def beNat (bytes : Bytes) : ℕ := bytes.foldl (fun value byte => value * 256 + byte.toNat) 0

/-- The `width` low bytes of a number, most significant first. -/
def beBytes : (width value : ℕ) → Bytes
  | 0, _ => []
  | width + 1, value => beBytes width (value / 256) ++ [UInt8.ofNat value]

@[simp] theorem length_beBytes (width value : ℕ) : (beBytes width value).length = width := by
  induction width generalizing value with
  | zero => rfl
  | succ width ih => simp [beBytes, ih]

theorem beNat_concat (bytes : Bytes) (byte : UInt8) :
    beNat (bytes ++ [byte]) = beNat bytes * 256 + byte.toNat := by
  simp [beNat, List.foldl_append]

theorem beNat_beBytes (width value : ℕ) (bound : value < 256 ^ width) :
    beNat (beBytes width value) = value := by
  induction width generalizing value with
  | zero =>
    rw [Nat.pow_zero] at bound
    obtain rfl : value = 0 := by omega
    rfl
  | succ width ih =>
    have high : value / 256 < 256 ^ width := by rw [Nat.pow_succ] at bound; omega
    have low : (UInt8.ofNat value).toNat = value % 256 := by simp
    rw [beBytes, beNat_concat, ih _ high, low]
    omega

theorem beNat_lt (bytes : Bytes) : beNat bytes < 256 ^ bytes.length := by
  induction bytes using List.reverseRecOn with
  | nil => decide
  | append_singleton bytes byte ih =>
    have low : byte.toNat < 256 := byte.toNat_lt
    rw [beNat_concat, List.length_append, List.length_singleton, Nat.pow_succ]
    omega

/-- A byte string is its number at its length. -/
theorem beBytes_beNat {width : ℕ} {bytes : Bytes} (length : bytes.length = width) :
    beBytes width (beNat bytes) = bytes := by
  subst length
  induction bytes using List.reverseRecOn with
  | nil => rfl
  | append_singleton bytes byte ih =>
    have low : byte.toNat < 256 := byte.toNat_lt
    have high : (beNat bytes * 256 + byte.toNat) / 256 = beNat bytes := by omega
    have last : UInt8.ofNat (beNat bytes * 256 + byte.toNat) = byte := by
      apply UInt8.toNat_inj.mp
      rw [UInt8.toNat_ofNat']
      omega
    rw [List.length_append, List.length_singleton, beBytes, beNat_concat, high, ih, last]

/-- Leading zeros do not count. -/
theorem beNat_zeros_append (count : ℕ) (bytes : Bytes) : beNat (List.replicate count 0 ++ bytes) = beNat bytes := by
  induction count with
  | zero => rfl
  | succ count ih =>
    rw [List.replicate_succ, List.cons_append]
    exact ih

theorem beNat_dropWhile_zero (bytes : Bytes) : beNat (bytes.dropWhile (· = 0)) = beNat bytes := by
  induction bytes with
  | nil => rfl
  | cons byte rest ih =>
    rw [List.dropWhile_cons]
    split
    · next zero =>
      obtain rfl : byte = 0 := of_decide_eq_true zero
      exact ih
    · rfl

/-- A number below `256 ^ n` has at most `n` bytes behind its leading zeros. -/
theorem length_dropWhile_beBytes_le {width count value : ℕ} (bound : value < 256 ^ count) :
    ((beBytes width value).dropWhile (· = 0)).length ≤ count := by
  induction count generalizing width value with
  | zero =>
    obtain rfl : value = 0 := by simpa using bound
    have zeros : beBytes width 0 = List.replicate width 0 := by
      induction width with
      | zero => rfl
      | succ width ih => rw [beBytes, ih, List.replicate_succ']; rfl
    simp [zeros]
  | succ count ih =>
    cases width with
    | zero => exact Nat.zero_le _
    | succ width =>
      have high : value / 256 < 256 ^ count := by
        rw [Nat.pow_succ] at bound
        omega
      rw [beBytes, List.dropWhile_append]
      have rest : ((beBytes width (value / 256)).dropWhile (· = 0)).length ≤ count := ih high
      split
      · exact le_trans (List.dropWhile_sublist _).length_le (by simp)
      · rw [List.length_append, List.length_singleton]
        omega

/-- `u16::from_be_bytes`. -/
def u16FromBe (high low : UInt8) : UInt16 := UInt16.ofNat (beNat [high, low])

/-- `u16::to_be_bytes`. -/
def u16ToBe (value : UInt16) : Bytes := beBytes 2 value.toNat

theorem u16ToBe_eq (value : UInt16) :
    u16ToBe value = [UInt8.ofNat (value.toNat / 256), UInt8.ofNat value.toNat] := rfl

@[simp] theorem u16FromBe_toBe (value : UInt16) :
    u16FromBe (UInt8.ofNat (value.toNat / 256)) (UInt8.ofNat value.toNat) = value := by
  have bound := value.toNat_lt
  apply UInt16.toNat_inj.mp
  simp [u16FromBe, beNat]
  omega

@[simp] theorem u16ToBe_fromBe (high low : UInt8) : u16ToBe (u16FromBe high low) = [high, low] := by
  have highBound := high.toNat_lt
  have lowBound := low.toNat_lt
  have value : (u16FromBe high low).toNat = high.toNat * 256 + low.toNat := by
    simp [u16FromBe, beNat]
    omega
  rw [u16ToBe_eq, value, List.cons.injEq, List.cons.injEq]
  refine ⟨UInt8.toNat_inj.mp ?_, UInt8.toNat_inj.mp ?_, rfl⟩
  · simp
    omega
  · simp

end Rust
