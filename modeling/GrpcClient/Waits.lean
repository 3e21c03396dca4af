import GrpcClient.Change

/-! # Kick-offs and their outcomes

A kick-off suspends a coroutine, and its wait ends with a result, a timeout or
an abort. The log of outcomes is tied to the suspended frames: a kick-off is
either in the log or still awaited, and the sctx and the coroutine of an ended
one are used again only by a later kick-off.
-/

namespace GrpcClient

open PartialMap

namespace Cli

def ended (outcomes : List (Nat × Outcome)) : List Nat := outcomes.map Prod.fst

@[simp] theorem mem_ended_append {outcomes : List (Nat × Outcome)} {k k' : Nat} {o : Outcome} :
    k ∈ ended (outcomes ++ [(k', o)]) ↔ k ∈ ended outcomes ∨ k = k' := by
  simp [ended]

structure Logged (kicks : Nat → Option Frame) (nextKick : Nat) (frames : Nat → Option Frame)
    (outcomes : List (Nat × Outcome)) : Prop where
  kick_eq : ∀ k f, kicks k = some f → f.kick = k
  kick_lt : ∀ k, (∃ f, kicks k = some f) ↔ k < nextKick
  nodup : (ended outcomes).Nodup
  ended_frame : ∀ k ∈ ended outcomes, ∃ f, kicks k = some f ∧ frames f.co ≠ some f
  awaited : ∀ k f, kicks k = some f → k ∉ ended outcomes → frames f.co = some f
  later : ∀ k f co f', k ∈ ended outcomes → kicks k = some f → frames co = some f' →
    f'.co = f.co ∨ f'.sctx = f.sctx → k < f'.kick

theorem logged_init : Logged init.kicks init.nextKick init.frames init.outcomes where
  kick_eq := by simp [init]
  kick_lt := by simp [init]
  nodup := List.nodup_nil
  ended_frame := by simp [init, ended]
  awaited := by simp [init]
  later := by simp [init, ended]

variable {s : Cli}

theorem Logged.kick (h : Logged s.kicks s.nextKick s.frames s.outcomes) {f : Frame}
    (hKick : f.kick = s.nextKick) (hRun : s.frames f.co = none) :
    Logged (Function.update s.kicks f.kick (some f)) (f.kick + 1)
      (Function.update s.frames f.co (some f)) s.outcomes := by
  have hOld : ∀ k f', s.kicks k = some f' → k < f.kick := by
    intro k f' hk
    rw [hKick]
    exact (h.kick_lt k).mp ⟨f', hk⟩
  have hEnded : ∀ k ∈ ended s.outcomes, k < f.kick := by
    intro k hk
    obtain ⟨f', hf', _⟩ := h.ended_frame k hk
    exact hOld k f' hf'
  constructor
  · intro k f' hk
    rcases update_some_iff.mp hk with ⟨rfl, rfl⟩ | ⟨_, hk⟩
    · rfl
    · exact h.kick_eq k f' hk
  · intro k
    by_cases hEq : k = f.kick
    · subst hEq
      exact ⟨fun _ => Nat.lt_succ_self _, fun _ => ⟨f, Function.update_self ..⟩⟩
    · rw [Function.update_of_ne hEq, h.kick_lt k, ← hKick]
      omega
  · exact h.nodup
  · intro k hk
    obtain ⟨f', hf', hEnd⟩ := h.ended_frame k hk
    have hLt := hEnded k hk
    refine ⟨f', update_of_some hf' (by omega), fun hSome => ?_⟩
    rcases update_some_iff.mp hSome with ⟨_, rfl⟩ | ⟨_, hSome⟩
    · rw [h.kick_eq k f hf'] at hLt
      omega
    · exact hEnd hSome
  · intro k f' hk hOpen
    rcases update_some_iff.mp hk with ⟨rfl, rfl⟩ | ⟨_, hk⟩
    · exact Function.update_self ..
    · have hf' := h.awaited k f' hk hOpen
      refine update_of_some hf' fun hEq => ?_
      rw [hEq, hRun] at hf'
      cases hf'
  · intro k f₁ co f' hk hf₁ hf' hSame
    have hLt := hEnded k hk
    have hf₁ : s.kicks k = some f₁ := by
      rcases update_some_iff.mp hf₁ with ⟨rfl, _⟩ | ⟨_, hf₁⟩
      · omega
      · exact hf₁
    rcases update_some_iff.mp hf' with ⟨_, rfl⟩ | ⟨_, hf'⟩
    · exact hLt
    · exact h.later k f₁ co f' hk hf₁ hf' hSame

theorem Logged.settle (h : Logged s.kicks s.nextKick s.frames s.outcomes) (hInv : s.Inv)
    {f : Frame} (hf : s.frames f.co = some f) (o : Outcome) :
    Logged s.kicks s.nextKick (Function.update s.frames f.co none)
      (s.outcomes ++ [(f.kick, o)]) := by
  have hKick := (hInv.suspended.frame_kick f.co f hf).2.2
  have hOpen : f.kick ∉ ended s.outcomes := by
    intro hMem
    obtain ⟨f', hf', hEnd⟩ := h.ended_frame f.kick hMem
    rw [hKick] at hf'
    cases hf'
    exact hEnd hf
  constructor
  · exact h.kick_eq
  · exact h.kick_lt
  · rw [ended, List.map_append]
    refine List.nodup_append.mpr ⟨h.nodup, List.nodup_singleton _, ?_⟩
    rintro k hk k' hk' rfl
    rw [List.map_singleton, List.mem_singleton] at hk'
    rw [hk'] at hk
    exact hOpen hk
  · intro k hk
    rcases mem_ended_append.mp hk with hk | rfl
    · obtain ⟨f', hf', hEnd⟩ := h.ended_frame k hk
      exact ⟨f', hf', fun hSome => hEnd (update_none_iff.mp hSome).2⟩
    · exact ⟨f, hKick, by simp⟩
  · intro k f' hk hNot
    rw [mem_ended_append, not_or] at hNot
    have hf' := h.awaited k f' hk hNot.1
    refine update_of_some hf' fun hEq => hNot.2 ?_
    rw [hEq, hf] at hf'
    cases hf'
    exact (h.kick_eq k f hk).symm
  · intro k f₁ co f' hk hf₁ hf' hSame
    obtain ⟨hNe, hf'⟩ := update_none_iff.mp hf'
    rcases mem_ended_append.mp hk with hk | rfl
    · exact h.later k f₁ co f' hk hf₁ hf' hSame
    · rw [hKick] at hf₁
      cases hf₁
      have hCo := (hInv.suspended.frame_kick co f' hf').1
      rcases hSame with hSame | hSame
      · exact absurd (hCo.symm.trans hSame) hNe
      · exact absurd (hInv.waiter_unique hf' hf hSame).1 hNe

/-- What holds of the sctx and the coroutine of `f` while its wait lasts. -/
structure Awaits (s : Cli) (f : Frame) : Prop where
  registered : ∃ sc a, s.sctxs f.sctx = some sc ∧ sc.node = some a ∧ ⟨a, f.sctx⟩ ∈ s.ongoingTasks ∧
    sc.waitCoCtx = some f.co
  timer : (s.coctxs f.co).timerSet = true ∧ (s.coctxs f.co).sleepData = some f.sctx
  hook : (s.coctxs f.co).cleanup ≠ none

theorem Inv.awaits (h : s.Inv) {f : Frame} (hf : s.frames f.co = some f) : s.Awaits f := by
  obtain ⟨sc, a, hsc, hNode, hWait, _, hCo⟩ := h.suspended.frame_sctx f.co f hf
  refine ⟨⟨sc, a, hsc, hNode, h.registry.sctx_node f.sctx sc a hsc hNode, hWait⟩, ?_, ?_⟩
  · rw [hCo]
    exact ⟨rfl, rfl⟩
  · rw [hCo]
    simp

/-- The task registry, the `node` fields and the free and opening lists agree. -/
structure Accounted (s : Cli) : Prop where
  num_eq : s.taskNum = s.ongoingTasks.length
  keys_nodup : (s.ongoingTasks.map Node.key).Nodup
  node_sctx : ∀ n ∈ s.ongoingTasks, ∃ sc, s.sctxs n.key = some sc ∧ sc.node = some n.addr
  sctx_node : ∀ p sc a, s.sctxs p = some sc → sc.node = some a → ⟨a, p⟩ ∈ s.ongoingTasks
  not_free : ∀ n ∈ s.ongoingTasks, ∀ c cc, s.ctxs c = some cc → n.key ∉ cc.free
  once : ∀ c cc, s.ctxs c = some cc → (cc.free ++ cc.opening).Nodup
  one_list : ∀ c cc c' cc' p, s.ctxs c = some cc → s.ctxs c' = some cc' →
    p ∈ cc.free ++ cc.opening → p ∈ cc'.free ++ cc'.opening → c = c'
  parent : ∀ c cc p, s.ctxs c = some cc → p ∈ cc.free ++ cc.opening →
    ∃ sc, s.sctxs p = some sc ∧ sc.parent = some c
  lookup : ∀ p n, s.lookupTask p = some n → ∃ sc co, s.sctxs p = some sc ∧ sc.node = some n.addr ∧
    sc.waitCoCtx = some co

end Cli

namespace State

variable {s t : State} {ok : State → Action → Prop}

theorem Run.logged (h : Run ok s) :
    Cli.Logged s.cli.kicks s.cli.nextKick s.cli.frames s.cli.outcomes := by
  refine h.induct (P := fun s => Cli.Logged s.cli.kicks s.cli.nextKick s.cli.frames s.cli.outcomes)
    Cli.logged_init ?_
  intro s a t _ hv hLog _ _ hChange
  cases hChange with
  | kick hPrep hKick hRun hAddr => exact hLog.kick hKick hRun
  | resume hOccupied hId hSettles => exact hLog.settle hv.cli hSettles.frame _
  | timeout hSettles => exact hLog.settle hv.cli hSettles.frame _
  | abort hSettles => exact hLog.settle hv.cli hSettles.frame _
  | _ => exact hLog

theorem Run.pending (h : Run ok s) {co : Nat} {f : Frame} (hf : s.cli.frames co = some f) :
    s.cli.kicks f.kick = some f ∧ f.kick ∉ Cli.ended s.cli.outcomes := by
  obtain ⟨rfl, _, hKick⟩ := h.valid.cli.suspended.frame_kick co f hf
  refine ⟨hKick, fun hMem => ?_⟩
  obtain ⟨f', hf', hEnd⟩ := h.logged.ended_frame f.kick hMem
  rw [hKick] at hf'
  cases hf'
  exact hEnd hf

theorem Valid.wait_end_safe (hv : s.Valid) {a : Action}
    (ha : a = .drain ∨ (∃ co, a = .timer co) ∨ ∃ co, a = .abort co) : s.faults a = none := by
  refine faults_eq_none fun fault h => ?_
  rcases ha with rfl | ⟨co, rfl⟩ | ⟨co, rfl⟩
  · simp only [step, threadPostEventHandler] at h
    split at h
    · split at h
      · cases h
      · rename_i r occupied _
        split at h
        · cases h
        · rename_i hHit
          obtain ⟨co, f, hf, hId⟩ := (hv.cli.lookupTask_isSome r.taskId).mp (by simp [hHit])
          obtain ⟨rfl, _⟩ := hv.cli.suspended.frame_kick co f hf
          obtain ⟨addr, sc, _, hDeliver⟩ := hv.cli.deliver_eq hf hId.symm
          rw [hDeliver] at h
          cases h
    · cases h
  · simp only [step, timer] at h
    split at h
    · cases h
    · cases hTimer : (s.cli.coctxs co).timerSet with
      | false =>
        rw [Cli.expireTimer, hTimer] at h
        cases h
      | true =>
        obtain ⟨f, addr, sc, rfl, _, hEq⟩ := hv.cli.expireTimer_eq hTimer
        rw [hEq] at h
        cases h
  · cases hf : s.cli.frames co with
    | none =>
      simp only [step, Cli.abort, hf] at h
      cases h
    | some f =>
      obtain ⟨addr, sc, _, hEq⟩ := hv.cli.abort_eq hf
      simp only [step, hEq] at h
      cases h

/-- Every kick-off has at most one outcome. Until then its sctx is registered
and its coroutine armed; afterwards only a later kick-off registers that sctx or
arms that coroutine. -/
theorem one_outcome (h : Reachable s) :
    (Cli.ended s.cli.outcomes).Nodup ∧
    (∀ k f, s.cli.kicks k = some f → k ∉ Cli.ended s.cli.outcomes → s.cli.Awaits f) ∧
    (∀ k f, s.cli.kicks k = some f → k ∈ Cli.ended s.cli.outcomes →
      ((∃ n ∈ s.cli.ongoingTasks, n.key = f.sctx) → ∃ k' f', k < k' ∧
        s.cli.kicks k' = some f' ∧ k' ∉ Cli.ended s.cli.outcomes ∧ f'.sctx = f.sctx) ∧
      ((s.cli.coctxs f.co).timerSet = true ∨ (s.cli.coctxs f.co).cleanup ≠ none → ∃ k' f', k < k' ∧
        s.cli.kicks k' = some f' ∧ k' ∉ Cli.ended s.cli.outcomes ∧ f'.co = f.co)) ∧
    (∀ a, a = .drain ∨ (∃ co, a = .timer co) ∨ (∃ co, a = .abort co) → s.faults a = none) := by
  have hInv := h.valid.cli
  have hLog := h.logged
  refine ⟨hLog.nodup, ?_, ?_, fun a ha => h.valid.wait_end_safe ha⟩
  · intro k f hk hOpen
    exact hInv.awaits (hLog.awaited k f hk hOpen)
  · intro k f hk hMem
    constructor
    · rintro ⟨n, hn, hKey⟩
      obtain ⟨sc, hsc, hNode⟩ := hInv.registry.node_sctx n hn
      obtain ⟨co, f', hf', hEq⟩ := hInv.suspended.node_frame n.key sc n.addr hsc hNode
      obtain ⟨hKick, hOpen⟩ := h.pending hf'
      have hSame := hEq.trans hKey
      exact ⟨f'.kick, f', hLog.later k f co f' hMem hk hf' (.inr hSame), hKick, hOpen, hSame⟩
    · intro hArmed
      cases hf' : s.cli.frames f.co with
      | none =>
        obtain ⟨hTimer, hHook⟩ := hInv.suspended.idle f.co hf'
        simp [hTimer, hHook] at hArmed
      | some f' =>
        obtain ⟨hKick, hOpen⟩ := h.pending hf'
        have hCo := (hInv.suspended.frame_kick f.co f' hf').1
        exact ⟨f'.kick, f', hLog.later k f f.co f' hMem hk hf' (.inl hCo), hKick, hOpen, hCo⟩

def twoCalls : List Action := [
  .connect (some 1) (.ok []) 50,
  .call 0 1 7 true ⟨true, none, true, some 100, some 10⟩,
  .call 0 2 7 true ⟨true, none, true, some 101, some 11⟩,
  .timer 1]

theorem one_outcome_twoCalls : ∃ s : State, s.cli.outcomes = [(0, .timeout)] ∧
    s.cli.kicks 1 = some ⟨1, 2, .call, 11, 0⟩ ∧ s.cli.Awaits ⟨1, 2, .call, 11, 0⟩ := by
  have hRun := run_after (fun _ _ => True) twoCalls (by decide +kernel)
  exact ⟨_, by decide +kernel, by decide +kernel,
    (one_outcome hRun).2.1 1 _ (by decide +kernel) (by decide +kernel)⟩

/-! ## The registry and the lists -/

theorem accounted (h : Reachable s) : s.cli.Accounted := by
  have hInv := h.valid.cli
  have hParent : ∀ c cc p, s.cli.ctxs c = some cc → p ∈ cc.free ++ cc.opening →
      ∃ sc, s.cli.sctxs p = some sc ∧ sc.parent = some c := by
    intro c cc p hc hp
    rcases List.mem_append.mp hp with hp | hp
    · obtain ⟨sc, hsc, hParent, _⟩ := hInv.lists.free_sctx c cc p hc hp
      exact ⟨sc, hsc, hParent⟩
    · obtain ⟨sc, hsc, hParent, _⟩ := hInv.lists.opening_sctx c cc p hc hp
      exact ⟨sc, hsc, hParent⟩
  refine ⟨hInv.registry.num_eq, hInv.registry.keys_nodup, hInv.registry.node_sctx,
    hInv.registry.sctx_node, ?_, hInv.lists.nodup, ?_, hParent, ?_⟩
  · intro n hn c cc hc hFree
    obtain ⟨sc, hsc, hNode⟩ := hInv.registry.node_sctx n hn
    obtain ⟨sc', hsc', _, _, hNone⟩ := hInv.lists.free_sctx c cc n.key hc hFree
    rw [hsc] at hsc'
    cases hsc'
    rw [hNode] at hNone
    cases hNone
  · intro c cc c' cc' p hc hc' hp hp'
    obtain ⟨sc, hsc, hEq⟩ := hParent c cc p hc hp
    obtain ⟨sc', hsc', hEq'⟩ := hParent c' cc' p hc' hp'
    rw [hsc] at hsc'
    cases hsc'
    exact Option.some.inj (hEq.symm.trans hEq')
  · intro p n hFind
    obtain rfl : n.key = p := by simpa using List.find?_some hFind
    obtain ⟨sc, hsc, hNode⟩ := hInv.registry.node_sctx n (List.mem_of_find?_eq_some hFind)
    obtain ⟨co, f, hf, hEq⟩ := hInv.suspended.node_frame n.key sc n.addr hsc hNode
    obtain ⟨sc', _, hsc', _, hWait, _⟩ := hInv.suspended.frame_sctx co f hf
    rw [hEq, hsc] at hsc'
    cases hsc'
    exact ⟨sc, co, hsc, hNode, hWait⟩

theorem accounted_twoCalls : ∃ s : State, s.cli.taskNum = 1 ∧ s.cli.Accounted := by
  have hRun := run_after (fun _ _ => True) twoCalls (by decide +kernel)
  exact ⟨_, by decide +kernel, accounted hRun⟩

end State

end GrpcClient
