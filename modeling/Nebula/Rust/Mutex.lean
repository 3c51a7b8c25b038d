import Nebula.Rust.Exec

/-! # Locks that unwinding poisons

A critical section maps the guarded value to its next value and an outcome. A section that unwinds
leaves what it has written behind and poisons the lock; `lock().unwrap()` of a poisoned lock unwinds
before it touches the value.
-/

namespace Rust

structure Mutex (σ : Type) where
  value : σ
  poisoned : Bool := false

namespace Mutex

variable {σ α : Type}

/-- Run a section under `mutex.lock().unwrap()`. -/
def locked (mutex : Mutex σ) (section_ : σ → σ × Exec α) : Mutex σ × Exec α :=
  if mutex.poisoned then (mutex, .error .poisoned)
  else
    match section_ mutex.value with
    | (value, .ok result) => ({ value }, .ok result)
    | (value, .error cause) => ({ value, poisoned := true }, .error cause)

variable {mutex : Mutex σ} {section_ : σ → σ × Exec α} {value : σ}

theorem locked_of_poisoned (poisoned : mutex.poisoned = true) :
    mutex.locked section_ = (mutex, .error .poisoned) := if_pos poisoned

/-- A section that returns leaves the lock sound. -/
theorem locked_of_ok {result : α} (sound : mutex.poisoned = false)
    (returns : section_ mutex.value = (value, .ok result)) :
    mutex.locked section_ = ({ value }, .ok result) := by
  rw [locked, sound, returns]
  rfl

/-- A section that unwinds poisons the lock. -/
theorem locked_of_error {cause : Panic} (sound : mutex.poisoned = false)
    (unwinds : section_ mutex.value = (value, .error cause)) :
    mutex.locked section_ = ({ value, poisoned := true }, .error cause) := by
  rw [locked, sound, unwinds]
  rfl

end Mutex

end Rust
