import GrpcClient.Lib.Progress
import GrpcClient.Messages
import GrpcClient.Wakeup

/-! # Waits come to an end

From any state the event loop alone ends every wait: it drains what is posted
and lets the timers expire. As long as nobody gives up, the goroutines, the wait
thread and the event loop together bring every coroutine its result.
-/

namespace GrpcClient.State

open Fallible PartialMap Transition

variable {s t : State} {ok : State → Action → Prop}

/-! ## Steps that are not refused -/

theorem drain_last (hDrain : s.draining = true) (hOccupied : s.thread.occupied = []) :
    s.step .drain = .ok { s with draining := false } := by
  simp [step, threadPostEventHandler, hDrain, hOccupied]

/-- One round of the drain takes the first record, and it leaves Lua as it is or
resumes the waiter of the record. -/
theorem Valid.drain_next (hv : s.Valid) (hDrain : s.draining = true) {r : TaskRes}
    {occupied : List TaskRes} (hOccupied : s.thread.occupied = r :: occupied) : ∃ cli mem,
    s.step .drain = .ok { s with
      cli, mem
      thread := { s.thread with
        occupied, free := s.thread.free ++ [r], processed := s.thread.processed ++ [r] } } ∧
    (cli = s.cli ∨ ∃ f addr sc sc', s.cli.Settles f addr sc sc' ∧
      cli = s.cli.resumed f addr sc' (.result r) r.reply) := by
  cases hLookup : s.cli.lookupTask r.taskId with
  | none => exact ⟨_, _, by simp [step, threadPostEventHandler, hDrain, hOccupied, hLookup]; rfl,
      .inl rfl⟩
  | some n =>
    obtain ⟨co, f, hf, hId⟩ := (hv.cli.lookupTask_isSome r.taskId).mp (by simp [hLookup])
    obtain ⟨rfl, _⟩ := hv.cli.suspended.frame_kick co f hf
    obtain ⟨addr, sc, hSettles, hDeliver⟩ := hv.cli.deliver_eq hf hId.symm
    refine ⟨_, s.mem.freeBuf r.buf, ?_, .inr ⟨f, addr, sc, _, hSettles, rfl⟩⟩
    simp only [step, threadPostEventHandler, hDrain, hOccupied, hLookup, if_true, hDeliver, ok_bind]

theorem Valid.timer_next (hv : s.Valid) (hDrain : s.draining = false) {f : Frame}
    (hf : s.cli.frames f.co = some f) : ∃ addr sc sc', s.cli.Settles f addr sc sc' ∧
    s.step (.timer f.co) =
      .ok { s with cli := s.cli.resumed f addr sc' .timeout (.fail timeoutMsg) } := by
  have hTimer := (hv.cli.awaits hf).timer.1
  obtain ⟨f', addr, sc, hCo, hSettles, hExpire⟩ := hv.cli.expireTimer_eq hTimer
  have hSame := hSettles.frame
  rw [hCo, hf] at hSame
  cases hSame
  refine ⟨addr, sc, _, hSettles, ?_⟩
  simp only [step, timer, hDrain, Bool.false_eq_true, if_false, hExpire, ok_bind]
  rfl

theorem resumed_length {s : Cli} {f : Frame} {addr : Ptr} {sc sc' : StreamCtx} (hInv : s.Inv)
    (h : s.Settles f addr sc sc') (o : Outcome) (reply : Reply) :
    (s.resumed f addr sc' o reply).ongoingTasks.length < s.ongoingTasks.length := by
  have hMem := hInv.registry.sctx_node f.sctx sc addr h.sctx h.node
  apply List.length_filter_lt_length_iff_exists.mpr
  exact ⟨_, hMem, by simp⟩

/-! ## The event loop ends every wait -/

/-- The event loop drains a result or lets a timer expire. -/
def endsWaits (_ : State) (a : Action) : Prop := a = .drain ∨ ∃ co, a = .timer co

def waitsLeft (s : State) : Nat :=
  (if s.draining then s.thread.occupied.length + 1 else 0) + s.cli.ongoingTasks.length

/-- Every kick-off so far has its outcome. -/
def AllEnded (n : Nat) (s : State) : Prop :=
  s.cli.nextKick = n ∧ ∀ k < n, k ∈ Cli.ended s.cli.outcomes

theorem Run.waiting_of_not_ended (h : Run ok s) (hNot : ¬ s.AllEnded s.cli.nextKick) :
    ∃ f, s.cli.frames f.co = some f := by
  simp only [AllEnded, true_and, not_forall] at hNot
  obtain ⟨k, hLt, hOpen⟩ := hNot
  obtain ⟨f, hf⟩ := (h.logged.kick_lt k).mpr hLt
  exact ⟨f, h.logged.awaited k f hf hOpen⟩

theorem waitsLeft_le (s : State) :
    s.waitsLeft ≤ s.thread.occupied.length + 1 + s.cli.ongoingTasks.length := by
  unfold waitsLeft
  split
  · omega
  · omega

/-- As long as something waits, the event loop has a step that leaves less to do. -/
theorem Run.waits_next (hRun : Run ok s) (hNot : ¬ s.AllEnded s.cli.nextKick) : ∃ a t,
    s.endsWaits a ∧ s.step a = .ok t ∧ t.cli.nextKick = s.cli.nextKick ∧
      t.waitsLeft < s.waitsLeft := by
  have hv := hRun.valid
  cases hDrain : s.draining with
  | true =>
    cases hOccupied : s.thread.occupied with
    | nil =>
      refine ⟨.drain, _, .inl rfl, drain_last hDrain hOccupied, rfl, ?_⟩
      simp [waitsLeft, hDrain, hOccupied]
    | cons r occupied =>
      obtain ⟨cli, mem, hStep, hCli⟩ := hv.drain_next hDrain hOccupied
      refine ⟨.drain, _, .inl rfl, hStep, ?_, ?_⟩
      · obtain rfl | ⟨f, addr, sc, sc', _, rfl⟩ := hCli
        · rfl
        · rfl
      · have hLe : cli.ongoingTasks.length ≤ s.cli.ongoingTasks.length := by
          obtain rfl | ⟨f, addr, sc, sc', hSettles, rfl⟩ := hCli
          · exact Nat.le_refl _
          · exact (resumed_length hv.cli hSettles _ _).le
        simp only [waitsLeft, hDrain, hOccupied, if_true, List.length_cons]
        omega
  | false =>
    obtain ⟨f, hf⟩ := hRun.waiting_of_not_ended hNot
    obtain ⟨addr, sc, sc', hSettles, hStep⟩ := hv.timer_next hDrain hf
    refine ⟨.timer f.co, _, .inr ⟨f.co, rfl⟩, hStep, rfl, ?_⟩
    have := resumed_length hv.cli hSettles .timeout (.fail timeoutMsg)
    simp only [waitsLeft, hDrain, Bool.false_eq_true, if_false]
    omega

/-- From every reachable state the event loop alone gives every kick-off its
outcome, with one step for each posted record and each registered task and one
for the end of the drain. -/
theorem waits_end (h : Reachable s) : Leads step endsWaits (AllEnded s.cli.nextKick)
    (s.thread.occupied.length + 1 + s.cli.ongoingTasks.length) s := by
  apply Leads.mono _ s.waitsLeft_le
  apply leads_of_variant (I := fun t => Reachable t ∧ t.cli.nextKick = s.cli.nextKick)
  · rintro t ⟨hRun, hNext⟩ hNot
    rw [← hNext] at hNot ⊢
    obtain ⟨a, u, hA, hStep, hSame, hLt⟩ := hRun.waits_next hNot
    exact ⟨a, u, hA, hStep, ⟨.tail hRun trivial hStep, hSame⟩, hLt⟩
  · exact ⟨h, rfl⟩

theorem waits_end_twoCalls : ∃ s : State, s.cli.ongoingTasks.length = 1 ∧
    Leads step endsWaits (AllEnded 2) 2 s := by
  have hRun := run_after (fun _ _ => True) twoCalls (by decide +kernel)
  exact ⟨_, by decide +kernel, waits_end hRun⟩

end GrpcClient.State
