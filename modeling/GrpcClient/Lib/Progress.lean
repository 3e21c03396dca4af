import GrpcClient.Lib.Transition

/-! # What a system can bring about by itself

Some steps are the system's own, and a state leads to a property when steps of
that kind alone reach it. The number of steps is bounded by a variant that each
of them lowers.
-/

namespace Transition

variable {σ α ε : Type*} {step : σ → α → Except ε σ} {ok : σ → α → Prop} {P : σ → Prop}
  {n m : Nat} {s : σ}

/-- At most `n` accepted steps that meet `ok` lead from `s` to `P`. -/
inductive Leads (step : σ → α → Except ε σ) (ok : σ → α → Prop) (P : σ → Prop) : Nat → σ → Prop
  | now {n : Nat} {s : σ} (h : P s) : Leads step ok P n s
  | next {n : Nat} {s t : σ} {a : α} (hOk : ok s a) (hStep : step s a = .ok t)
      (h : Leads step ok P n t) : Leads step ok P (n + 1) s

theorem Leads.mono (h : Leads step ok P n s) (hLe : n ≤ m) : Leads step ok P m s := by
  induction h generalizing m with
  | now h => exact .now h
  | next hOk hStep _ ih =>
    cases m with
    | zero => exact absurd hLe (Nat.not_succ_le_zero _)
    | succ m => exact .next hOk hStep (ih (Nat.le_of_succ_le_succ hLe))

theorem leads_of_variant {I : σ → Prop} (variant : σ → Nat)
    (hStep : ∀ s, I s → ¬ P s → ∃ a t, ok s a ∧ step s a = .ok t ∧ I t ∧ variant t < variant s)
    (h : I s) : Leads step ok P (variant s) s := by
  induction hn : variant s using Nat.strongRecOn generalizing s with
  | _ n ih =>
    by_cases hP : P s
    · exact .now hP
    · obtain ⟨a, t, hOk, hEq, hI, hLt⟩ := hStep s h hP
      rw [hn] at hLt
      obtain ⟨n, rfl⟩ := Nat.exists_eq_succ_of_ne_zero (Nat.ne_zero_of_lt hLt)
      exact .next hOk hEq ((ih _ hLt hI rfl).mono (Nat.le_of_lt_succ hLt))

end Transition
