import Mathlib.Data.List.Basic
import Mathlib.Tactic.ByContra

/-! # Scripts of concurrent jobs

A job has a script of calls. It makes them one after the other, and the first
call that fails ends it. The calls of all jobs go to one log, and the log is
serial when no job makes a call after a later job has made one.
-/

namespace Script

/-! ## One job -/

section Job

variable {α β : Type*} {ok : β → Prop} {script left : List α} {made : List (α × β)} {c : α} {b : β}

/-- Where a job stands with its script: the calls made with their answers, the
calls left, and whether it is still running. -/
inductive Follows (ok : β → Prop) (script : List α) : List (α × β) → List α → Bool → Prop
  | running {made : List (α × β)} {left : List α} (hScript : made.map Prod.fst ++ left = script)
      (hOk : ∀ x ∈ made, ok x.2) (hLeft : left ≠ []) : Follows ok script made left true
  | ended {made : List (α × β)} {x : α × β} {left : List α}
      (hScript : (made ++ [x]).map Prod.fst ++ left = script) (hOk : ∀ y ∈ made, ok y.2)
      (hEnd : ok x.2 → left = []) : Follows ok script (made ++ [x]) left false

theorem Follows.start (h : script ≠ []) : Follows ok script [] script true :=
  .running rfl (by simp) h

theorem Follows.more {c' : α} {cs : List α} (h : Follows ok script made (c :: c' :: cs) true)
    (hOk : ok b) : Follows ok script (made ++ [(c, b)]) (c' :: cs) true := by
  cases h with
  | running hScript hMade hLeft =>
    apply Follows.running
    · rw [← hScript]
      simp
    · intro x hx
      obtain hx | hx := List.mem_append.mp hx
      · exact hMade x hx
      · obtain rfl := List.mem_singleton.mp hx
        exact hOk
    · exact List.cons_ne_nil c' cs

theorem Follows.last {cs : List α} (h : Follows ok script made (c :: cs) true)
    (hEnd : ok b → cs = []) : Follows ok script (made ++ [(c, b)]) cs false := by
  cases h with
  | running hScript hMade hLeft =>
    apply Follows.ended
    · rw [← hScript]
      simp
    · exact hMade
    · exact hEnd

theorem Follows.ok_of_running (h : Follows ok script made left true) : ∀ x ∈ made, ok x.2 := by
  cases h with
  | running hScript hMade => exact hMade

theorem Follows.left_ne_nil (h : Follows ok script made left true) : left ≠ [] := by
  cases h with
  | running hScript hMade hLeft => exact hLeft

theorem Follows.split {run : Bool} (h : Follows ok script made left run) :
    made.map Prod.fst ++ left = script := by
  cases h with
  | running hScript => exact hScript
  | ended hScript => exact hScript

theorem Follows.script_ne_nil {run : Bool} (h : Follows ok script made left run) : script ≠ [] := by
  cases h with
  | running hScript hMade hLeft =>
    rw [← hScript]
    exact List.append_ne_nil_of_right_ne_nil _ hLeft
  | ended hScript =>
    rw [← hScript]
    simp

/-- A job has made nothing yet, or it has made the first call and follows the
rest of the script unless that call was the last one. -/
theorem Follows.uncons {cs : List α} {run : Bool} (h : Follows ok (c :: cs) made left run) :
    (made = [] ∧ run = true) ∨ ∃ b made', made = (c, b) :: made' ∧
      ((made' = [] ∧ run = false ∧ (ok b → cs = [])) ∨ (ok b ∧ Follows ok cs made' left run)) := by
  cases h with
  | running hScript hMade hLeft =>
    cases made with
    | nil => exact .inl ⟨rfl, rfl⟩
    | cons x made =>
      injection hScript with hCall hRest
      obtain ⟨_, b⟩ := x
      cases hCall
      have hTail : ∀ y ∈ made, ok y.2 := fun y hy => hMade y (List.mem_cons_of_mem _ hy)
      exact .inr ⟨b, made, rfl, .inr ⟨hMade _ List.mem_cons_self, .running hRest hTail hLeft⟩⟩
  | @ended made x left hScript hMade hEnd =>
    cases made with
    | nil =>
      injection hScript with hCall hRest
      obtain ⟨_, b⟩ := x
      cases hCall
      refine .inr ⟨b, [], rfl, .inl ⟨rfl, rfl, ?_⟩⟩
      intro hOk
      rw [← hRest, hEnd hOk]
      rfl
    | cons y made =>
      injection hScript with hCall hRest
      obtain ⟨_, b⟩ := y
      cases hCall
      have hTail : ∀ z ∈ made, ok z.2 := fun z hz => hMade z (List.mem_cons_of_mem _ hz)
      exact .inr ⟨b, made ++ [x], rfl, .inr ⟨hMade _ List.mem_cons_self, .ended hRest hTail hEnd⟩⟩

/-- A script of one call is done with that call. -/
theorem Follows.one {run : Bool} (h : Follows ok [c] made left run) :
    (made = [] ∧ run = true) ∨ ∃ b, made = [(c, b)] ∧ run = false := by
  obtain hNone | ⟨b, made', rfl, ⟨rfl, hRun, _⟩ | ⟨_, hRest⟩⟩ := h.uncons
  · exact .inl hNone
  · exact .inr ⟨b, rfl, hRun⟩
  · exact absurd rfl hRest.script_ne_nil

theorem Follows.complete {run : Bool} (h : Follows ok script made left run)
    (hOk : ∀ x ∈ made, ok x.2) (hRun : run = false) : made.map Prod.fst = script := by
  cases h with
  | running => cases hRun
  | @ended made x left hScript hMade hEnd =>
    have hLeft := hEnd (hOk x (by simp))
    rw [hLeft, List.append_nil] at hScript
    exact hScript

end Job

/-! ## The log of all jobs -/

section Log

variable {ε : Type*} {job : ε → Nat}

def Serial (job : ε → Nat) (log : List ε) : Prop := log.Pairwise fun x y => job x ≤ job y

theorem Serial.snoc {log : List ε} {x : ε} (h : Serial job log) (hLe : ∀ y ∈ log, job y ≤ job x) :
    Serial job (log ++ [x]) := by
  apply List.pairwise_append.mpr
  refine ⟨h, List.pairwise_singleton _ _, ?_⟩
  intro y hy z hz
  rw [List.mem_singleton.mp hz]
  exact hLe y hy

theorem Serial.split {log : List ε} (h : Serial job log) (n : Nat) :
    log = (log.filter fun x => decide (job x < n)) ++ log.filter fun x => decide (n ≤ job x) := by
  induction log with
  | nil => rfl
  | cons x log ih =>
    obtain ⟨hHead, hTail⟩ := List.pairwise_cons.mp h
    by_cases hLt : job x < n
    · rw [List.filter_cons_of_pos (by simpa using hLt),
        List.filter_cons_of_neg (by simpa using hLt), List.cons_append, ← ih hTail]
    · have hEmpty : (log.filter fun y => decide (job y < n)) = [] := by
        apply List.filter_eq_nil_iff.mpr
        intro y hy
        have := hHead y hy
        simp only [decide_eq_true_eq]
        omega
      have hAll : (log.filter fun y => decide (n ≤ job y)) = log := by
        apply List.filter_eq_self.mpr
        intro y hy
        have := hHead y hy
        simp only [decide_eq_true_eq]
        omega
      rw [List.filter_cons_of_neg (by simpa using hLt),
        List.filter_cons_of_pos (by simpa using hLt), hEmpty, hAll, List.nil_append]

/-- A serial log is the calls of one job after the other. -/
theorem Serial.blocks {log : List ε} (h : Serial job log) {n : Nat} (hLt : ∀ x ∈ log, job x < n) :
    log = (List.range n).flatMap fun k => log.filter fun x => decide (job x = k) := by
  induction n generalizing log with
  | zero =>
    apply List.eq_nil_iff_forall_not_mem.mpr
    intro x hx
    exact absurd (hLt x hx) (Nat.not_lt_zero _)
  | succ n ih =>
    have hOld := ih (h.filter fun x => decide (job x < n)) (by simp)
    have hBlock : ∀ k ∈ List.range n, ((log.filter fun x => decide (job x < n)).filter fun x =>
        decide (job x = k)) = log.filter fun x => decide (job x = k) := by
      intro k hk
      have hk := List.mem_range.mp hk
      rw [List.filter_filter]
      apply List.filter_congr
      intro x _
      simp only [← Bool.decide_and, decide_eq_decide]
      omega
    have hLast : (log.filter fun x => decide (n ≤ job x)) =
        log.filter fun x => decide (job x = n) := by
      apply List.filter_congr
      intro x hx
      have := hLt x hx
      simp only [decide_eq_decide]
      omega
    calc log
        = (log.filter fun x => decide (job x < n)) ++ log.filter fun x => decide (n ≤ job x) :=
          h.split n
      _ = ((List.range n).flatMap fun k => log.filter fun x => decide (job x = k)) ++
          log.filter fun x => decide (job x = n) := by
          rw [hLast]
          congr 1
          exact hOld.trans (List.flatMap_congr hBlock)
      _ = (List.range (n + 1)).flatMap fun k => log.filter fun x => decide (job x = k) := by
          rw [List.range_succ, List.flatMap_append, List.flatMap_singleton]

theorem flatMap_filter {κ γ : Type*} (p : κ → Bool) (f : κ → List γ) (ks : List κ)
    (h : ∀ k ∈ ks, p k = false → f k = []) : (ks.filter p).flatMap f = ks.flatMap f := by
  induction ks with
  | nil => rfl
  | cons k ks ih =>
    have hTail := ih fun k' hk' => h k' (List.mem_cons_of_mem k hk')
    cases hp : p k with
    | true => rw [List.filter_cons_of_pos hp, List.flatMap_cons, List.flatMap_cons, hTail]
    | false =>
      rw [List.filter_cons_of_neg (by simp [hp]), List.flatMap_cons, hTail,
        h k List.mem_cons_self hp, List.nil_append]

/-- Jobs that are done but for the last one have together made a prefix of what
was wanted of them. -/
theorem flatMap_prefix {κ γ : Type*} {made want : κ → List γ} {ks : List κ} {n : Nat}
    (hPrefix : ∀ k ∈ ks, ∃ rest, made k ++ rest = want k ∧ rest.length ≤ n)
    (hDone : ks.Pairwise fun k k' => made k = want k ∨ want k' = []) :
    ∃ rest, ks.flatMap made ++ rest = ks.flatMap want ∧ rest.length ≤ n := by
  induction ks with
  | nil => exact ⟨[], rfl, Nat.zero_le n⟩
  | cons k ks ih =>
    obtain ⟨hHead, hTail⟩ := List.pairwise_cons.mp hDone
    obtain ⟨rest, hRest, hLen⟩ := hPrefix k List.mem_cons_self
    obtain ⟨rest', hRest', hLen'⟩ :=
      ih (fun k' hk' => hPrefix k' (List.mem_cons_of_mem k hk')) hTail
    simp only [List.flatMap_cons]
    by_cases hFull : made k = want k
    · refine ⟨rest', ?_, hLen'⟩
      rw [List.append_assoc, hRest', hFull]
    · have hWant : ks.flatMap want = [] := by
        apply List.flatMap_eq_nil_iff.mpr
        intro k' hk'
        exact (hHead k' hk').resolve_left hFull
      have hMade : ks.flatMap made = [] := by
        rw [hWant] at hRest'
        exact (List.append_eq_nil_iff.mp hRest').1
      refine ⟨rest, ?_, hLen⟩
      rw [hMade, hWant, List.append_nil, List.append_nil, hRest]

/-- A machine that every finished job brings back to where it was accepts the
calls of all jobs. -/
theorem foldlM_blocks {κ σ : Type*} {next : σ → ε → Option σ} {s : σ} {block : κ → List ε}
    {ks : List κ} (hBlock : ∀ k ∈ ks, ∃ t, (block k).foldlM next s = some t)
    (hDone : ks.Pairwise fun k _ => (block k).foldlM next s = some s) :
    ∃ t, (ks.flatMap block).foldlM next s = some t := by
  induction ks with
  | nil => exact ⟨s, rfl⟩
  | cons k ks ih =>
    obtain ⟨hHead, hTail⟩ := List.pairwise_cons.mp hDone
    rw [List.flatMap_cons, List.foldlM_append]
    cases ks with
    | nil =>
      obtain ⟨t, hRun⟩ := hBlock k List.mem_cons_self
      exact ⟨t, by rw [hRun]; rfl⟩
    | cons k' ks =>
      rw [hHead k' List.mem_cons_self]
      exact ih (fun k'' hk => hBlock k'' (List.mem_cons_of_mem k hk)) hTail

end Log

end Script
