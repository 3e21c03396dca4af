import Mathlib.Logic.Basic

/-! # Ownership of a lock

`inside` says which threads are between taking and giving back the lock. A step of
one thread leaves it as it is, takes the lock or gives it back.
-/

namespace Mutex

variable {τ : Type*} {lock : Option τ} {inside inside' : τ → Prop} {t u : τ}

/-- The owner of the lock, and no other thread, is inside. -/
def Owned (lock : Option τ) (inside : τ → Prop) : Prop := ∀ t, lock = some t ↔ inside t

theorem Owned.unique (h : Owned lock inside) (ht : inside t) (hu : inside u) : t = u :=
  Option.some.inj (((h t).mpr ht).symm.trans ((h u).mpr hu))

theorem Owned.not_inside (h : Owned none inside) (t : τ) : ¬ inside t := by
  intro ht
  cases (h t).mpr ht

theorem Owned.of_iff (h : Owned lock inside) (hSame : ∀ t, inside' t ↔ inside t) :
    Owned lock inside' :=
  fun t => (h t).trans (hSame t).symm

theorem Owned.acquire (h : Owned none inside) (hIn : inside' t)
    (hOther : ∀ u, u ≠ t → (inside' u ↔ inside u)) : Owned (some t) inside' := by
  intro u
  constructor
  · intro hEq
    rwa [← Option.some.inj hEq]
  · intro hu
    by_cases hEq : u = t
    · rw [hEq]
    · exact absurd ((hOther u hEq).mp hu) (h.not_inside u)

theorem Owned.release (h : Owned lock inside) (hOwner : inside t) (hOut : ¬ inside' t)
    (hOther : ∀ u, u ≠ t → (inside' u ↔ inside u)) : Owned none inside' := by
  intro u
  constructor
  · intro hEq
    cases hEq
  · intro hu
    by_cases hEq : u = t
    · exact absurd (hEq ▸ hu) hOut
    · exact absurd (h.unique ((hOther u hEq).mp hu) hOwner) hEq

end Mutex
