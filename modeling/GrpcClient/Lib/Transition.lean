import Mathlib.Logic.Relation

/-! # Runs of a partial step function

A system is a step function that may refuse an action. A run is followed only
through accepted steps, and it may be restricted to the steps that meet a
condition on the state before the step and on the action.
-/

namespace Transition

variable {σ α ε τ : Type*}

/-- The states reached from `init` by accepted steps that all meet `ok`. -/
inductive Reaches (step : σ → α → Except ε σ) (ok : σ → α → Prop) (init : σ) : σ → Prop
  | refl : Reaches step ok init init
  | tail {s t : σ} {a : α} : Reaches step ok init s → ok s a → step s a = .ok t →
      Reaches step ok init t

variable {step : σ → α → Except ε σ} {ok : σ → α → Prop} {init s : σ}

/-- The invariant rule. A step is checked in a state that is itself reached,
so the invariants already proved may be used there. -/
theorem Reaches.invariant {P : σ → Prop} (h : Reaches step ok init s) (hInit : P init)
    (hStep : ∀ s a t, Reaches step ok init s → P s → ok s a → step s a = .ok t → P t) : P s := by
  induction h with
  | refl => exact hInit
  | tail hReach hOk hEq ih => exact hStep _ _ _ hReach ih hOk hEq

theorem Reaches.mono {ok' : σ → α → Prop} (h : Reaches step ok init s)
    (hOk : ∀ s a t, Reaches step ok init s → ok s a → step s a = .ok t → ok' s a) :
    Reaches step ok' init s := by
  induction h with
  | refl => exact .refl
  | tail hReach hA hEq ih => exact .tail ih (hOk _ _ _ hReach hA hEq) hEq

theorem Reaches.trans {t : σ} (h : Reaches step ok init s) (h' : Reaches step ok s t) :
    Reaches step ok init t := by
  induction h' with
  | refl => exact h
  | tail _ hOk hEq ih => exact .tail ih hOk hEq

/-- A simulation carries every run to a run of the abstract relation. -/
theorem Reaches.simulate {next : τ → τ → Prop} {R : σ → τ → Prop} {t₀ : τ}
    (h : Reaches step ok init s) (hInit : R init t₀)
    (hStep : ∀ s a s' t, Reaches step ok init s → R s t → ok s a → step s a = .ok s' →
      ∃ t', Relation.ReflTransGen next t t' ∧ R s' t') :
    ∃ t, Relation.ReflTransGen next t₀ t ∧ R s t := by
  induction h with
  | refl => exact ⟨t₀, .refl, hInit⟩
  | tail hReach hA hEq ih =>
    obtain ⟨t, hRun, hR⟩ := ih
    obtain ⟨t', hNext, hR'⟩ := hStep _ _ _ t hReach hR hA hEq
    exact ⟨t', hRun.trans hNext, hR'⟩

/-- Executes a list of actions, refusing the first one that does not meet `ok`. -/
def exec (step : σ → α → Except ε σ) (ok : σ → α → Prop) [∀ s a, Decidable (ok s a)] (s : σ) :
    List α → Option σ
  | [] => some s
  | a :: as =>
    if ok s a then
      match step s a with
      | .ok t => exec step ok t as
      | .error _ => none
    else none

theorem reaches_of_exec [∀ s a, Decidable (ok s a)] {t : σ} (as : List α)
    (hReach : Reaches step ok init s) (h : exec step ok s as = some t) :
    Reaches step ok init t := by
  induction as generalizing s with
  | nil =>
    obtain rfl : s = t := Option.some.inj h
    exact hReach
  | cons a as ih =>
    rw [exec] at h
    split at h
    · rename_i hOk
      split at h
      · rename_i u hStep
        exact ih (.tail hReach hOk hStep) h
      · cases h
    · cases h

theorem exec_reaches [∀ s a, Decidable (ok s a)] {as : List α}
    (h : (exec step ok init as).isSome) : Reaches step ok init ((exec step ok init as).get h) :=
  reaches_of_exec as .refl (Option.some_get h).symm

/-! ## Sequences of actions that are never refused -/

section Along

variable {next : σ → α → σ} {as bs : List α}

/-- Every action meets `ok` in the state where it is taken. -/
def Along (next : σ → α → σ) (ok : σ → α → Prop) (s : σ) : List α → Prop
  | [] => True
  | a :: as => ok s a ∧ Along next ok (next s a) as

theorem along_append :
    Along next ok s (as ++ bs) ↔ Along next ok s as ∧ Along next ok (as.foldl next s) bs := by
  induction as generalizing s with
  | nil => simp [Along]
  | cons a as ih =>
    simp only [List.cons_append, Along, List.foldl_cons, ih]
    exact and_assoc.symm

end Along

end Transition
