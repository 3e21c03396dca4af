import Mathlib.Logic.Basic

/-! # Taking a computation that may fail apart -/

namespace Fallible

universe u v

variable {ε : Type u} {α β : Type v} {x : Except ε α} {k : α → Except ε β} {b : β} {e : ε}

@[simp] theorem ok_bind (v : α) (k : α → Except ε β) : (Except.ok v >>= k) = k v := rfl

theorem bind_eq_ok (h : x >>= k = .ok b) : ∃ v, x = .ok v ∧ k v = .ok b := by
  cases x with
  | error e => cases h
  | ok v => exact ⟨v, rfl, h⟩

theorem bind_eq_error (h : x >>= k = .error e) :
    x = .error e ∨ ∃ v, x = .ok v ∧ k v = .error e := by
  cases x with
  | error e' =>
    cases h
    exact .inl rfl
  | ok v => exact .inr ⟨v, rfl, h⟩

theorem mapError_eq_ok {ε' : Type*} {f : ε → ε'} {a : α} :
    x.mapError f = .ok a ↔ x = .ok a := by
  cases x with
  | error e => exact ⟨nofun, nofun⟩
  | ok v => exact ⟨fun h => congrArg Except.ok (Except.ok.inj h), fun h => h ▸ rfl⟩

end Fallible
