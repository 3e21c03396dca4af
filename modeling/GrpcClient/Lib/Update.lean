import Mathlib.Logic.Function.Basic

/-! # Entries of an updated partial map -/

namespace PartialMap

variable {α β : Type*} [DecidableEq α] {m : α → Option β} {a x : α} {b y : β}

theorem update_some_iff :
    Function.update m a (some b) x = some y ↔ (x = a ∧ b = y) ∨ (x ≠ a ∧ m x = some y) := by
  rw [Function.update_apply]
  split
  · simp_all
  · simp_all

theorem update_none_iff :
    Function.update m a none x = some y ↔ x ≠ a ∧ m x = some y := by
  rw [Function.update_apply]
  split
  · simp_all
  · simp_all

theorem update_of_some {v : Option β} (h : m x = some y) (hNe : x ≠ a) :
    Function.update m a v x = some y := by
  rw [Function.update_of_ne hNe, h]

theorem update_some_ne_none (h : m x = some y) : Function.update m a (some b) x ≠ none := by
  rw [Function.update_apply]
  split
  · exact Option.some_ne_none b
  · simp [h]

theorem eq_of_update_none (h : m x = some y) (hNone : Function.update m a none x = none) :
    x = a := by
  by_contra hNe
  rw [Function.update_of_ne hNe, h] at hNone
  cases hNone

/-! ## Filling a map from a list -/

section Fill

variable {γ : Type*} {k : γ → α} {f : γ → β} {xs : List γ}

/-- The entries of a list, written one after the other. -/
def fill (k : γ → α) (f : γ → β) (m : α → Option β) (xs : List γ) : α → Option β :=
  xs.foldl (fun m x => Function.update m (k x) (some (f x))) m

theorem fill_of_ne (h : ∀ y ∈ xs, k y ≠ a) : fill k f m xs a = m a := by
  induction xs generalizing m with
  | nil => rfl
  | cons x xs ih =>
    calc fill k f m (x :: xs) a
        = Function.update m (k x) (some (f x)) a :=
          ih fun y hy => h y (List.mem_cons_of_mem x hy)
      _ = m a := Function.update_of_ne (h x List.mem_cons_self).symm _ _

/-- Entries of one key that agree leave their value there. -/
theorem fill_of_mem {x : γ} (hMem : x ∈ xs) (h : ∀ y ∈ xs, k y = k x → f y = f x) :
    fill k f m xs (k x) = some (f x) := by
  induction xs generalizing m x with
  | nil => cases hMem
  | cons y xs ih =>
    by_cases hLater : ∃ z ∈ xs, k z = k x
    · -- the last write of the key is in the tail, whether or not x is there
      obtain ⟨z, hz, hKey⟩ := hLater
      have hSame : f z = f x := h z (List.mem_cons_of_mem y hz) hKey
      rw [← hKey, ← hSame]
      refine ih hz fun z' hz' hKey' => ?_
      rw [hSame]
      exact h z' (List.mem_cons_of_mem y hz') (hKey'.trans hKey)
    · have hNe : ∀ z ∈ xs, k z ≠ k x := fun z hz hKey => hLater ⟨z, hz, hKey⟩
      obtain rfl | hx := List.mem_cons.mp hMem
      · calc fill k f m (x :: xs) (k x)
            = Function.update m (k x) (some (f x)) (k x) := fill_of_ne hNe
          _ = some (f x) := Function.update_self _ _ _
      · exact absurd rfl (hNe x hx)

end Fill

end PartialMap
