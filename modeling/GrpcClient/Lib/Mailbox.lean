import Mathlib.Data.Set.Insert
import Mathlib.Logic.Relation

/-! # Matching answers to requests by a reusable tag

A requester waits under a tag. The service keeps the request under the same
tag and later answers whoever waits under it. A waiter may give up, which
clears the tag on the waiting side only. The tag may then be issued again,
so an answer can find a waiter of another request.
-/

namespace Mailbox

variable {Tag Req : Type*}

@[ext] structure State (Tag Req : Type*) where
  waiting : Set (Tag × Req)
  inflight : Set (Tag × Req)
  abandoned : Set Req
  answered : Set (Req × Req)

def State.empty : State Tag Req := ⟨∅, ∅, ∅, ∅⟩

namespace State

variable (m : State Tag Req)

/-- No request that was given up is still in flight under `t`. -/
def Clear (t : Tag) : Prop := ∀ q ∈ m.abandoned, (t, q) ∉ m.inflight

def issue (t : Tag) (q : Req) : State Tag Req :=
  { m with waiting := insert (t, q) m.waiting, inflight := insert (t, q) m.inflight }

def abandon (t : Tag) (q : Req) : State Tag Req :=
  { m with waiting := m.waiting \ {(t, q)}, abandoned := insert q m.abandoned }

def answer (t : Tag) (w q : Req) : State Tag Req :=
  { m with
    waiting := m.waiting \ {(t, w)}
    inflight := m.inflight \ {(t, q)}
    answered := insert (w, q) m.answered }

def drop (qs : Set Req) : State Tag Req :=
  { m with inflight := { x ∈ m.inflight | x.2 ∉ qs } }

end State

/-- The orderly steps: a tag is issued only when it is clear. -/
inductive Step (m : State Tag Req) : State Tag Req → Prop
  | issue {t : Tag} {q : Req} (hIdle : ∀ w, (t, w) ∉ m.waiting) (hClear : m.Clear t) :
      Step m (m.issue t q)
  | abandon {t : Tag} {q : Req} : Step m (m.abandon t q)
  | answer {t : Tag} {w q : Req} (hFlight : (t, q) ∈ m.inflight) (hWait : (t, w) ∈ m.waiting) :
      Step m (m.answer t w q)
  | drop {qs : Set Req} : Step m (m.drop qs)

structure Matched (m : State Tag Req) : Prop where
  inflight_waiter : ∀ t q, (t, q) ∈ m.inflight → (t, q) ∈ m.waiting ∨ q ∈ m.abandoned
  inflight_unique : ∀ t q q', (t, q) ∈ m.inflight → (t, q') ∈ m.inflight → q = q'
  waiter_eq : ∀ t w q, (t, w) ∈ m.waiting → (t, q) ∈ m.inflight → w = q
  answered_own : ∀ x ∈ m.answered, x.1 = x.2

theorem matched_empty : Matched (State.empty : State Tag Req) where
  inflight_waiter t q h := by cases h
  inflight_unique t q q' h := by cases h
  waiter_eq t w q h := by cases h
  answered_own x h := by cases h

variable {m m' : State Tag Req}

/-- Under a clear tag without a waiter nothing is in flight. -/
theorem Matched.not_inflight (h : Matched m) {t : Tag} (hIdle : ∀ w, (t, w) ∉ m.waiting)
    (hClear : m.Clear t) (q : Req) : (t, q) ∉ m.inflight := by
  intro hFlight
  rcases h.inflight_waiter t q hFlight with hWait | hAbandoned
  · exact hIdle q hWait
  · exact hClear q hAbandoned hFlight

theorem Matched.issue (h : Matched m) {t : Tag} {q : Req} (hIdle : ∀ w, (t, w) ∉ m.waiting)
    (hClear : m.Clear t) : Matched (m.issue t q) := by
  have hNone := h.not_inflight hIdle hClear
  constructor
  · rintro t' q' (hEq | hFlight)
    · exact .inl (.inl hEq)
    · exact (h.inflight_waiter t' q' hFlight).imp .inr id
  · rintro t' q₁ q₂ (hEq₁ | h₁) (hEq₂ | h₂)
    · cases hEq₁
      cases hEq₂
      rfl
    · cases hEq₁
      exact absurd h₂ (hNone q₂)
    · cases hEq₂
      exact absurd h₁ (hNone q₁)
    · exact h.inflight_unique t' q₁ q₂ h₁ h₂
  · rintro t' w q' (hEq₁ | hWait) (hEq₂ | hFlight)
    · cases hEq₁
      cases hEq₂
      rfl
    · cases hEq₁
      exact absurd hFlight (hNone q')
    · cases hEq₂
      exact absurd hWait (hIdle w)
    · exact h.waiter_eq t' w q' hWait hFlight
  · exact h.answered_own

theorem Matched.abandon (h : Matched m) {t : Tag} {q : Req} : Matched (m.abandon t q) := by
  constructor
  · intro t' q' hFlight
    by_cases hq : q' = q
    · exact .inr (.inl hq)
    · rcases h.inflight_waiter t' q' hFlight with hWait | hAbandoned
      · exact .inl ⟨hWait, fun hEq => hq (Prod.mk.inj hEq).2⟩
      · exact .inr (.inr hAbandoned)
  · exact h.inflight_unique
  · intro t' w q' hWait hFlight
    exact h.waiter_eq t' w q' hWait.1 hFlight
  · exact h.answered_own

/-- Answering is where the tag decides who gets the answer. -/
theorem Matched.answer (h : Matched m) {t : Tag} {w q : Req} (hFlight : (t, q) ∈ m.inflight)
    (hWait : (t, w) ∈ m.waiting) : Matched (m.answer t w q) := by
  obtain rfl := h.waiter_eq t w q hWait hFlight
  constructor
  · rintro t' q' ⟨hFlight', hNe⟩
    exact (h.inflight_waiter t' q' hFlight').imp (fun hWait' => ⟨hWait', hNe⟩) id
  · intro t' q₁ q₂ h₁ h₂
    exact h.inflight_unique t' q₁ q₂ h₁.1 h₂.1
  · intro t' w' q' hWait' hFlight'
    exact h.waiter_eq t' w' q' hWait'.1 hFlight'.1
  · rintro x (rfl | hx)
    · rfl
    · exact h.answered_own x hx

theorem Matched.drop (h : Matched m) {qs : Set Req} : Matched (m.drop qs) := by
  constructor
  · intro t q hFlight
    exact h.inflight_waiter t q hFlight.1
  · intro t q₁ q₂ h₁ h₂
    exact h.inflight_unique t q₁ q₂ h₁.1 h₂.1
  · intro t w q hWait hFlight
    exact h.waiter_eq t w q hWait hFlight.1
  · exact h.answered_own

theorem Step.matched (hStep : Step m m') (h : Matched m) : Matched m' := by
  cases hStep with
  | issue hIdle hClear => exact h.issue hIdle hClear
  | abandon => exact h.abandon
  | answer hFlight hWait => exact h.answer hFlight hWait
  | drop => exact h.drop

theorem matched_of_run (hRun : Relation.ReflTransGen Step m m') (h : Matched m) : Matched m' := by
  induction hRun with
  | refl => exact h
  | tail _ hStep ih => exact hStep.matched ih

end Mailbox
