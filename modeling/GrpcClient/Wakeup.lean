import GrpcClient.Pipeline

/-! # The wait thread is not forgotten

`ngx_grpc_cli_thread_event_handler` waits again only when more tasks are
registered than the last batch had records. A record of a cancelled task counts
there like one of a registered task, so the comparison is right exactly when
fewer such records came than results are missing.
-/

namespace GrpcClient

def Action.postOk : Action → Bool
  | .call _ _ _ _ env | .newStream _ _ _ _ _ env => env.postOk
  | .recv _ _ _ env | .send _ _ _ env | .closeSend _ _ _ env => env.postOk
  | .threadEvent _ postOk => postOk
  | _ => true

def Action.isThreadEvent : Action → Bool
  | .threadEvent _ _ => true
  | _ => false

namespace State

open PartialMap

variable {s t : State} {ok : State → Action → Prop}

/-! ## The registered tasks are the suspended frames -/

theorem Run.suspended_kicks_nodup (h : Run ok s) : (s.cli.suspended.map Frame.kick).Nodup := by
  have hNodup : s.cli.suspended.Nodup := by
    refine List.nodup_range.filterMap ?_
    intro k k' f hk hk'
    simp only [Option.mem_def, Option.filter_eq_some_iff] at hk hk'
    exact (h.logged.kick_eq k f hk.1).symm.trans (h.logged.kick_eq k' f hk'.1)
  refine hNodup.map_on ?_
  intro f hf f' hf' hEq
  have hKick := (h.pending (h.valid.mem_suspended.mp hf)).1
  have hKick' := (h.pending (h.valid.mem_suspended.mp hf')).1
  rw [hEq, hKick'] at hKick
  exact (Option.some.inj hKick).symm

theorem Run.suspended_length (h : Run ok s) :
    s.cli.suspended.length = s.cli.ongoingTasks.length := by
  have hv := h.valid
  have hPerm : (s.cli.suspended.map Frame.sctx).Perm (s.cli.ongoingTasks.map Node.key) := by
    refine (List.perm_ext_iff_of_nodup ?_ hv.cli.registry.keys_nodup).mpr fun p => ?_
    · refine h.suspended_kicks_nodup.of_map.map_on ?_
      intro f hf f' hf' hEq
      exact (hv.cli.waiter_unique (hv.mem_suspended.mp hf) (hv.mem_suspended.mp hf') hEq).2
    · rw [List.mem_map, List.mem_map]
      constructor
      · rintro ⟨f, hf, rfl⟩
        obtain ⟨sc, a, _, _, hMem, _⟩ := (hv.cli.awaits (hv.mem_suspended.mp hf)).registered
        exact ⟨⟨a, f.sctx⟩, hMem, rfl⟩
      · rintro ⟨n, hn, rfl⟩
        obtain ⟨sc, hsc, hNode⟩ := hv.cli.registry.node_sctx n hn
        obtain ⟨co, f, hf, hEq⟩ := hv.cli.suspended.node_frame n.key sc n.addr hsc hNode
        obtain ⟨rfl, _⟩ := hv.cli.suspended.frame_kick co f hf
        exact ⟨f, hv.mem_suspended.mpr hf, hEq⟩
  simpa using hPerm.length_eq

/-! ## Counting -/

/-- Two lists without repeated keys have equally many entries with a key of the
other. -/
theorem length_filter_keys {α β κ : Type} [DecidableEq κ] {l : List α} {m : List β} {f : α → κ}
    {g : β → κ} (hl : (l.map f).Nodup) (hm : (m.map g).Nodup) :
    (l.filter fun x => decide (f x ∈ m.map g)).length =
      (m.filter fun y => decide (g y ∈ l.map f)).length := by
  have hPerm : ((l.filter fun x => decide (f x ∈ m.map g)).map f).Perm
      ((m.filter fun y => decide (g y ∈ l.map f)).map g) := by
    refine (List.perm_ext_iff_of_nodup (hl.sublist (List.filter_sublist.map _))
      (hm.sublist (List.filter_sublist.map _))).mpr fun k => ?_
    simp only [List.mem_map, List.mem_filter, decide_eq_true_eq]
    constructor
    · rintro ⟨x, ⟨hx, y, hy, hEq⟩, rfl⟩
      exact ⟨y, ⟨hy, x, hx, hEq.symm⟩, hEq⟩
    · rintro ⟨y, ⟨hy, x, hx, hEq⟩, rfl⟩
      exact ⟨x, ⟨hx, y, hy, hEq.symm⟩, hEq⟩
  simpa using hPerm.length_eq

theorem length_filter_not {α : Type} (l : List α) (p : α → Prop) [DecidablePred p] :
    (l.filter fun x => decide (p x)).length + (l.filter fun x => decide (¬ p x)).length =
      l.length := by
  have := List.length_eq_length_filter_add (l := l) fun x => decide (p x)
  simpa using this.symm

/-- The records of the batch whose task is no longer registered. -/
def staleRecords (s : State) : Nat :=
  (s.thread.held.filter fun r => decide (r.op ∉ s.cli.suspended.map Frame.kick)).length

/-- The registered tasks whose result is not in the batch. -/
def missingResults (s : State) : Nat :=
  (s.cli.suspended.filter fun f => decide (f.kick ∉ s.thread.held.map TaskRes.op)).length

theorem Run.held_nodup (h : Run ok s) : (s.thread.held.map TaskRes.op).Nodup := by
  have hNodup := h.handed_nodup
  rw [ThreadCtx.handed, List.map_append] at hNodup
  exact (List.nodup_append.mp hNodup).2.1

/-- Tasks and records differ as missing results and stale records do. -/
theorem Run.count_balance (h : Run ok s) :
    s.cli.ongoingTasks.length + s.staleRecords = s.thread.held.length + s.missingResults := by
  have hBoth := length_filter_keys h.suspended_kicks_nodup h.held_nodup
  have hTasks := length_filter_not s.cli.suspended
    fun f => f.kick ∈ s.thread.held.map TaskRes.op
  have hRecords := length_filter_not s.thread.held
    fun r => r.op ∈ s.cli.suspended.map Frame.kick
  rw [h.suspended_length] at hTasks
  simp only [staleRecords, missingResults]
  omega

/-! ## No lost wake-up -/

/-- The worker neither quits nor exits, and thread posts succeed. -/
def serviced (_ : State) (a : Action) : Prop :=
  a ≠ .quit ∧ a ≠ .exit ∧ a.postOk = true

/-- When the handler runs and a registered task still lacks its result, the
batch has fewer records of cancelled tasks than registered tasks lack theirs. -/
def countsRight (s : State) (a : Action) : Prop :=
  a.isThreadEvent = true →
    (∃ f ∈ s.cli.suspended, f.kick ∉ s.thread.handed.map TaskRes.op) →
    s.staleRecords < s.missingResults

instance (s : State) (a : Action) : Decidable (s.serviced a) :=
  inferInstanceAs (Decidable (_ ∧ _))

instance (s : State) (a : Action) : Decidable (s.countsRight a) :=
  inferInstanceAs (Decidable (_ → _ → _))

/-- While a registered task lacks its result, the wait task is active. -/
def WaitActive (s : State) : Prop :=
  ∀ n ∈ s.cli.ongoingTasks, ∀ co f, s.cli.frames co = some f → f.sctx = n.key →
    f.kick ∉ s.thread.handed.map TaskRes.op → s.thread.active = true

/-- An idle wait task owes nothing. -/
structure Settled (s : State) : Prop where
  running : s.quit = false ∧ s.exiting = false
  idle : s.thread.phase = .idle → ∀ co f, s.cli.frames co = some f →
    f.kick ∈ s.thread.handed.map TaskRes.op

theorem Run.settled (h : Run (fun s a => s.serviced a ∧ s.countsRight a) s) : s.Settled := by
  refine h.induct (P := Settled) ⟨⟨rfl, rfl⟩, by simp [init, Cli.init]⟩ ?_
  intro s a t hRun hv hSettled hOk _ hChange
  obtain ⟨⟨hQuit, hExit, hPost⟩, hCounts⟩ := hOk
  have hScheduled : s.thread.phase.scheduled = .idle → ∀ co f, s.cli.frames co = some f →
      f.kick ∈ s.thread.handed.map TaskRes.op :=
    fun hPhase => absurd hPhase s.thread.phase.scheduled_ne_idle
  have hDrain : ∀ {r : TaskRes} {occupied : List TaskRes} {k : Nat},
      s.thread.occupied = r :: occupied → k ∈ s.thread.handed.map TaskRes.op →
      k ∈ ({ s.thread with
        occupied, free := s.thread.free ++ [r]
        processed := s.thread.processed ++ [r] } : ThreadCtx).handed.map TaskRes.op := by
    intro r occupied k hOccupied hk
    exact ((handed_drain hOccupied).map TaskRes.op).mem_iff.mpr hk
  obtain ⟨hFlags, hIdle⟩ := hSettled
  cases hChange with
  | openFailed r isHttp type hcc hTake hPhase =>
    rcases hPhase with rfl | rfl
    · exact ⟨hFlags, hIdle⟩
    · exact ⟨hFlags, hScheduled⟩
  | opFailed => exact ⟨hFlags, hScheduled⟩
  | kick => exact ⟨hFlags, fun hPhase => absurd hPhase s.thread.phase.scheduled_ne_idle⟩
  | resume hOccupied hId hSettles =>
    refine ⟨hFlags, fun hPhase co f hf => hDrain hOccupied ?_⟩
    exact hIdle hPhase co f (update_none_iff.mp hf).2
  | cancel hOccupied =>
    exact ⟨hFlags, fun hPhase co f hf => hDrain hOccupied (hIdle hPhase co f hf)⟩
  | timeout =>
    exact ⟨hFlags, fun hPhase co f hf => hIdle hPhase co f (update_none_iff.mp hf).2⟩
  | abort =>
    exact ⟨hFlags, fun hPhase co f hf => hIdle hPhase co f (update_none_iff.mp hf).2⟩
  | waitReturn => exact ⟨hFlags, fun hPhase => by cases hPhase⟩
  | threadTest => exact ⟨hFlags, fun hPhase => by cases hPhase⟩
  | threadFree => exact ⟨hFlags, fun hPhase => by cases hPhase⟩
  | threadEvent hEvent =>
    obtain ⟨kept, dropped, ph, free, posted, hHands, hEq⟩ := threadEventHandler_ok hRun.holds hEvent
    cases hEq
    refine ⟨hFlags, fun hPhase co f hf => ?_⟩
    rw [((handed_post hHands.perm).map TaskRes.op).mem_iff]
    by_contra hMissing
    obtain ⟨rfl, _⟩ := hv.cli.suspended.frame_kick co f hf
    have hLess := hCounts rfl ⟨f, hv.mem_suspended.mpr hf, hMissing⟩
    have hFew : s.cli.taskNum ≤ s.thread.finishedTaskNum := by
      rcases hHands.stops with rfl | ⟨_, hStop | hStop | hStop | hStop⟩
      · cases hPhase
      · rw [hFlags.1] at hStop
        cases hStop
      · rw [hFlags.2] at hStop
        cases hStop
      · exact hStop
      · rw [show (Action.threadEvent _ _).postOk = _ from rfl, hStop] at hPost
        cases hPost
    have hNum : s.thread.finishedTaskNum = s.thread.held.length :=
      hRun.holds.num_eq (.inr hHands.phase)
    have hBalance := hRun.count_balance
    rw [Cli.taskNum, hv.cli.registry.num_eq, hNum] at hFew
    omega
  | quit => exact absurd rfl hQuit
  | exit => exact absurd rfl hExit
  | _ => exact ⟨hFlags, hIdle⟩

theorem wait_active (h : Run (fun s a => s.serviced a ∧ s.countsRight a) s) : s.WaitActive := by
  intro n _ co f hf _ hMissing
  refine decide_eq_true fun hPhase => hMissing ?_
  exact h.settled.idle hPhase co f hf

/-- Two calls, the first of which is cancelled before its result comes. -/
def cancelledFirst : List Action :=
  twoCalls ++ [.goReturn 0 (.ok [1]), .goReport 0]

theorem wait_active_cancelledFirst : ∃ s : State, s.cli.taskNum = 1 ∧ s.WaitActive := by
  have hRun := run_after (fun s a => s.serviced a ∧ s.countsRight a) (cancelledFirst ++ [
    .goReturn 1 (.ok [2]), .goReport 1, .waitReturn, .threadTest, .threadEvent [] true])
    (by decide +kernel)
  exact ⟨_, by decide +kernel, wait_active hRun⟩

/-- The record of the cancelled call is counted as the result of the other one,
and nobody waits for that. -/
theorem wait_forgotten : ∃ s, Run serviced s ∧ ¬ s.WaitActive := by
  have hRun := run_after serviced (cancelledFirst ++ [
    .waitReturn, .threadTest, .threadEvent [] true]) (by decide +kernel)
  refine ⟨_, hRun, fun hActive => ?_⟩
  have hSet := hActive ⟨101, 11⟩ (by decide +kernel) 2 ⟨1, 2, .call, 11, 0⟩ (by decide +kernel) rfl
    (by decide +kernel)
  revert hSet
  decide +kernel

end State

end GrpcClient
