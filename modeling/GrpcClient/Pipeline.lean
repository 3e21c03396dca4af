import GrpcClient.Waits

/-! # The way of a result

A result goes from the goroutine that reports it through the engine's queue,
the batch that `grpc_engine_wait` hands over and the queue of posted contexts
to the event loop. Nothing is lost or doubled on the way unless the worker shuts
down or an allocation fails.
-/

namespace GrpcClient

open Fallible PartialMap

def ThreadCtx.held (th : ThreadCtx) : List TaskRes := (th.finishedTasks.map Batch.recs).getD []

def ThreadCtx.handed (th : ThreadCtx) : List TaskRes :=
  th.processed ++ th.lost ++ th.occupied ++ th.held

/-- The thread context holds a batch only between `grpc_engine_wait` and its
own handler. -/
structure ThreadCtx.Holds (phase : ThreadPhase) (batch : Option Batch) (num nextBatch : Nat) :
    Prop where
  empty : phase = .idle ∨ phase = .waiting → batch = none
  num_eq : phase = .returned ∨ phase = .completed → num = ((batch.map Batch.recs).getD []).length
  fresh : ∀ b, batch = some b → b.recs ≠ [] ∧ b.id < nextBatch

/-! ## The handler of the wait task -/

theorem ThreadCtx.insertAll_eq (oom : List Nat) (i : Nat) (th : ThreadCtx) (recs : List TaskRes) :
    ∃ kept dropped free, th.insertAll oom i recs =
        { th with free, occupied := th.occupied ++ kept, lost := th.lost ++ dropped } ∧
      (kept ++ dropped).Perm recs ∧ (oom = [] → kept = recs ∧ dropped = []) := by
  induction recs generalizing i th with
  | nil => exact ⟨[], [], th.free, by simp [insertAll], .nil, fun _ => ⟨rfl, rfl⟩⟩
  | cons r recs ih =>
    rw [insertAll]
    obtain ⟨kept, dropped, free, hEq, hPerm, hAll⟩ :=
      ih (i + 1) (th.insertPostedEventCtx (decide (i ∉ oom)) r)
    rw [hEq]
    unfold insertPostedEventCtx
    split
    · exact ⟨r :: kept, dropped, free, by simp, hPerm.cons r, fun h => by simp [hAll h]⟩
    · split
      · exact ⟨r :: kept, dropped, free, by simp, hPerm.cons r, fun h => by simp [hAll h]⟩
      · rename_i hOom
        refine ⟨kept, r :: dropped, free, by simp, List.perm_middle.trans (hPerm.cons r), ?_⟩
        rintro rfl
        simp at hOom

def Action.oom : Action → List Nat
  | .threadEvent oom _ => oom
  | _ => []

def Mem.freeBatch (m : Mem) : Option Batch → Mem
  | none => m
  | some b => m.freeArray b

namespace State

variable {s t : State} {ok : State → Action → Prop}

/-- What `ngx_grpc_cli_thread_event_handler` does with the batch it was given,
and when it does not wait again. -/
structure Hands (s : State) (oom : List Nat) (postOk : Bool) (kept dropped : List TaskRes)
    (ph : ThreadPhase) : Prop where
  phase : s.thread.phase = .completed
  unfreed : ∀ b, s.thread.finishedTasks = some b → b.id ∉ s.mem.freedArrays
  perm : (kept ++ dropped).Perm s.thread.held
  all : oom = [] → kept = s.thread.held ∧ dropped = []
  stops : ph = .waiting ∨ ph = .idle ∧ (s.quit = true ∨ s.exiting = true ∨
    s.cli.taskNum ≤ s.thread.finishedTaskNum ∨ postOk = false)

theorem readBatch_ok {recs : List TaskRes} (h : s.readBatch = .ok recs)
    (hNum : s.thread.finishedTaskNum = s.thread.held.length) : recs = s.thread.held ∧
      (s.thread.finishedTaskNum > 0 → ∀ b, s.thread.finishedTasks = some b →
        b.id ∉ s.mem.freedArrays) := by
  unfold readBatch at h
  split at h
  · rename_i hZero
    cases h
    rw [hNum, List.length_eq_zero_iff] at hZero
    exact ⟨hZero.symm, fun hPos => by simp [hNum, hZero] at hPos⟩
  · obtain ⟨b, hb, h⟩ := bind_eq_ok h
    cases hBatch : s.thread.finishedTasks with
    | none =>
      rw [hBatch] at hb
      cases hb
    | some b' =>
      rw [hBatch] at hb
      cases hb
      split at h
      · cases h
      · rename_i hUnfreed
        cases h
        have hHeld : s.thread.held = b.recs := by simp [ThreadCtx.held, hBatch]
        rw [hNum, hHeld, List.take_length]
        refine ⟨rfl, fun _ b' hb' => ?_⟩
        cases hb'
        exact hUnfreed

/-- The records are posted in order as far as memory allows, and the array is freed. -/
theorem postBatch_ok {oom : List Nat} {u : State}
    (hHolds : ThreadCtx.Holds s.thread.phase s.thread.finishedTasks s.thread.finishedTaskNum
      s.thread.nextBatch) (hPhase : s.thread.phase = .completed) (h : s.postBatch oom = .ok u) :
    ∃ kept dropped free posted,
      (∀ b, s.thread.finishedTasks = some b → b.id ∉ s.mem.freedArrays) ∧
      (kept ++ dropped).Perm s.thread.held ∧
      (oom = [] → kept = s.thread.held ∧ dropped = []) ∧ u = { s with
        thread := { s.thread with
          phase := .idle, finishedTasks := none, posted, free
          occupied := s.thread.occupied ++ kept
          lost := s.thread.lost ++ dropped }
        mem := s.mem.freeBatch s.thread.finishedTasks } := by
  have hNum := hHolds.num_eq (.inr hPhase)
  have hPos : ∀ b, s.thread.finishedTasks = some b → s.thread.finishedTaskNum > 0 := by
    intro b hBatch
    rw [hNum, hBatch]
    exact List.length_pos_iff.mpr (hHolds.fresh b hBatch).1
  obtain ⟨recs, hRead, h⟩ := bind_eq_ok h
  obtain ⟨rfl, hUnfreed⟩ := readBatch_ok hRead hNum
  obtain ⟨kept, dropped, free, hInsert, hPerm, hAll⟩ :=
    ThreadCtx.insertAll_eq oom 0 { s.thread with phase := .idle } s.thread.held
  have hUnread : ∀ b, s.thread.finishedTasks = some b → b.id ∉ s.mem.freedArrays :=
    fun b hBatch => hUnfreed (hPos b hBatch) b hBatch
  rw [hInsert] at h
  simp only at h
  split at h
  · rename_i b hBatch
    rw [if_pos (hPos b hBatch)] at h
    cases h
    exact ⟨kept, dropped, free, true, hUnread, hPerm, hAll, by simp [hBatch, Mem.freeBatch]⟩
  · rename_i hBatch
    cases h
    exact ⟨kept, dropped, free, s.thread.posted, hUnread, hPerm, hAll, by
      simp [hBatch, Mem.freeBatch]⟩

theorem threadEventHandler_ok {oom : List Nat} {postOk : Bool}
    (hHolds : ThreadCtx.Holds s.thread.phase s.thread.finishedTasks s.thread.finishedTaskNum
      s.thread.nextBatch) (h : s.threadEventHandler oom postOk = .ok t) :
    ∃ kept dropped ph free posted, s.Hands oom postOk kept dropped ph ∧ t = { s with
      thread := { s.thread with
        phase := ph, finishedTasks := none, posted, free
        occupied := s.thread.occupied ++ kept
        lost := s.thread.lost ++ dropped }
      mem := s.mem.freeBatch s.thread.finishedTasks } := by
  unfold threadEventHandler at h
  split at h
  · rename_i hReady
    obtain ⟨u, hPost, h⟩ := bind_eq_ok h
    obtain ⟨kept, dropped, free, posted, hUnread, hPerm, hAll, rfl⟩ :=
      postBatch_ok hHolds hReady.1 hPost
    have hHands : ∀ ph, (ph = .waiting ∨ ph = .idle ∧ (s.quit = true ∨ s.exiting = true ∨
        s.cli.taskNum ≤ s.thread.finishedTaskNum ∨ postOk = false)) →
        s.Hands oom postOk kept dropped ph :=
      fun ph hStops => ⟨hReady.1, hUnread, hPerm, hAll, hStops⟩
    split at h
    · rename_i hStop
      cases h
      have hStops := hHands .idle (.inr ⟨rfl, hStop.imp_right .inl⟩)
      exact ⟨kept, dropped, .idle, free, posted, hStops, rfl⟩
    · split at h
      · rename_i hFew
        cases h
        have hStops := hHands .idle (.inr ⟨rfl, .inr (.inr (.inl hFew))⟩)
        exact ⟨kept, dropped, .idle, free, posted, hStops, rfl⟩
      · cases postOk with
        | false =>
          simp only [ThreadCtx.taskPost, ThreadCtx.active] at h
          cases h
          have hStops := hHands .idle (.inr ⟨rfl, .inr (.inr (.inr rfl))⟩)
          exact ⟨kept, dropped, .idle, free, posted, hStops, rfl⟩
        | true =>
          simp only [ThreadCtx.taskPost, ThreadCtx.active] at h
          cases h
          exact ⟨kept, dropped, .waiting, free, posted, hHands .waiting (.inl rfl), rfl⟩
  · cases h

theorem Run.holds (h : Run ok s) :
    ThreadCtx.Holds s.thread.phase s.thread.finishedTasks s.thread.finishedTaskNum
      s.thread.nextBatch := by
  refine h.induct (P := fun s => ThreadCtx.Holds s.thread.phase s.thread.finishedTasks
    s.thread.finishedTaskNum s.thread.nextBatch) ⟨fun _ => rfl, by simp [init, ThreadCtx.init],
      by simp [init, ThreadCtx.init]⟩ ?_
  intro s a t _ _ hHolds _ _ hChange
  -- posting an idle wait task leaves the thread context without a batch
  have hScheduled : ThreadCtx.Holds s.thread.phase.scheduled s.thread.finishedTasks
      s.thread.finishedTaskNum s.thread.nextBatch := by
    refine ⟨fun hPhase => hHolds.empty ?_, fun hPhase => hHolds.num_eq ?_, hHolds.fresh⟩
    · cases hOld : s.thread.phase <;> simp_all [ThreadPhase.scheduled]
    · cases hOld : s.thread.phase <;> simp_all [ThreadPhase.scheduled]
  cases hChange with
  | openFailed r isHttp type hcc hTake hPhase =>
    rcases hPhase with rfl | rfl
    · exact hHolds
    · exact hScheduled
  | opFailed => exact hScheduled
  | kick => exact hScheduled
  | @waitReturn recs queue hPhase hWait =>
    refine ⟨by simp, fun _ => ?_, fun b hb => ?_⟩
    · by_cases hNil : recs = [] <;> simp [hNil]
    · simp only at hb
      split at hb
      · cases hb
      · cases hb
        exact ⟨‹_›, Nat.lt_succ_self _⟩
  | threadTest hPhase => exact ⟨by simp, fun _ => hHolds.num_eq (.inl hPhase), hHolds.fresh⟩
  | threadFree hPhase => exact ⟨by simp, fun _ => hHolds.num_eq (.inl hPhase), hHolds.fresh⟩
  | threadEvent hRun =>
    obtain ⟨kept, dropped, ph, free, posted, hHands, hEq⟩ := threadEventHandler_ok hHolds hRun
    cases hEq
    refine ⟨fun _ => rfl, fun hPhase => ?_, by simp⟩
    rcases hHands.stops with rfl | ⟨rfl, _⟩ <;> simp at hPhase
  | _ => exact hHolds

/-! ## Operations and their reports -/

/-- The engine has one operation for every kick-off. -/
structure Started (kicks : Nat → Option Frame) (ops : Nat → Option Op) : Prop where
  op_kick : ∀ k op, ops k = some op → ∃ f, kicks k = some f ∧ f.sctx = op.taskId ∧ f.op = op.kind
  kick_op : ∀ k f, kicks k = some f → ∃ op, ops k = some op

theorem Prepares.op_eq {f : Frame} {ctxs : Ptr → Option Ctx} {sctxs : Ptr → Option StreamCtx}
    {sc : StreamCtx} {op : Op} (h : s.Prepares f ctxs sctxs sc op) :
    op.taskId = f.sctx ∧ op.kind = f.op ∧ op.phase = .running := by
  cases h with
  | opens => exact ⟨rfl, rfl, rfl⟩
  | stream => exact ⟨rfl, rfl, rfl⟩

theorem Started.setPhase {kicks : Nat → Option Frame} {ops : Nat → Option Op}
    (h : Started kicks ops) {k : Nat} {op : Op} (hOp : ops k = some op) (phase : Phase) :
    Started kicks (Function.update ops k (some { op with phase })) := by
  constructor
  · intro k' op' hk'
    rcases update_some_iff.mp hk' with ⟨rfl, rfl⟩ | ⟨_, hk'⟩
    · exact h.op_kick k' op hOp
    · exact h.op_kick k' op' hk'
  · intro k' f hf
    by_cases hEq : k' = k
    · exact ⟨_, by rw [hEq, Function.update_self]⟩
    · rw [Function.update_of_ne hEq]
      exact h.kick_op k' f hf

theorem Run.started (h : Run ok s) : Started s.cli.kicks s.eng.ops := by
  refine h.induct (P := fun s => Started s.cli.kicks s.eng.ops)
    ⟨by simp [init, Engine.init], by simp [init, Cli.init]⟩ ?_
  intro s a t hRun _ hStarted _ _ hChange
  cases hChange with
  | @kick _ f _ _ _ op _ hPrep hKick =>
    obtain ⟨hId, hKind, _⟩ := hPrep.op_eq
    constructor
    · intro k op' hk
      rcases update_some_iff.mp hk with ⟨rfl, rfl⟩ | ⟨hNe, hk⟩
      · exact ⟨f, Function.update_self .., hId.symm, hKind.symm⟩
      · obtain ⟨f', hf', hRest⟩ := hStarted.op_kick k op' hk
        exact ⟨f', update_of_some hf' hNe, hRest⟩
    · intro k f' hk
      rcases update_some_iff.mp hk with ⟨rfl, _⟩ | ⟨hNe, hk⟩
      · exact ⟨op, Function.update_self ..⟩
      · obtain ⟨op', hop'⟩ := hStarted.kick_op k f' hk
        exact ⟨op', update_of_some hop' hNe⟩
  | goReturn hOp => exact hStarted.setPhase hOp _
  | goReport hOp => exact hStarted.setPhase hOp _
  | goPanic hOp => exact hStarted.setPhase hOp _
  | goDone hOp => exact hStarted.setPhase hOp _
  | _ => exact hStarted

theorem Run.op_lt (h : Run ok s) {k : Nat} {op : Op} (hOp : s.eng.ops k = some op) :
    k < s.cli.nextKick := by
  obtain ⟨f, hf, _⟩ := h.started.op_kick k op hOp
  exact (h.logged.kick_lt k).mp ⟨f, hf⟩

/-- An operation reports once, when its goroutine leaves the unreported phases. -/
structure Reported (ops : Nat → Option Op) (reported : List TaskResult) : Prop where
  nodup : (reported.map TaskResult.op).Nodup
  mem_iff : ∀ k op, ops k = some op →
    (k ∈ reported.map TaskResult.op ↔ op.phase.unreported = false)
  task : ∀ r ∈ reported, ∃ op, ops r.op = some op ∧ op.taskId = r.id

theorem task_setPhase {ops : Nat → Option Op} {k : Nat} {op : Op} (hOp : ops k = some op)
    (phase : Phase) {k' : Nat} {id : Ptr} (h : ∃ op', ops k' = some op' ∧ op'.taskId = id) :
    ∃ op', Function.update ops k (some { op with phase }) k' = some op' ∧ op'.taskId = id := by
  obtain ⟨op', hop', hId⟩ := h
  by_cases hEq : k' = k
  · rw [hEq, hOp] at hop'
    cases hop'
    exact ⟨{ op with phase }, by rw [hEq, Function.update_self], hId⟩
  · exact ⟨op', update_of_some hop' hEq, hId⟩

theorem Reported.setPhase {ops : Nat → Option Op} {reported : List TaskResult}
    (h : Reported ops reported) {k : Nat} {op : Op} (hOp : ops k = some op) {phase : Phase}
    (hPhase : phase.unreported = op.phase.unreported) :
    Reported (Function.update ops k (some { op with phase })) reported := by
  constructor
  · exact h.nodup
  · intro k' op' hk'
    rcases update_some_iff.mp hk' with ⟨rfl, rfl⟩ | ⟨_, hk'⟩
    · rw [h.mem_iff k' op hOp, hPhase]
    · exact h.mem_iff k' op' hk'
  · intro r hr
    exact task_setPhase hOp phase (h.task r hr)

theorem Reported.report {ops : Nat → Option Op} {reported : List TaskResult}
    (h : Reported ops reported) {k : Nat} {op : Op} (hOp : ops k = some op)
    (hOpen : op.phase.unreported = true) {phase : Phase} (hPhase : phase.unreported = false)
    (result err : Option Bytes) :
    Reported (Function.update ops k (some { op with phase }))
      (reported ++ [⟨op.taskId, result, err, k⟩]) := by
  have hNew : k ∉ reported.map TaskResult.op := by
    rw [h.mem_iff k op hOp, hOpen]
    simp
  constructor
  · rw [List.map_append]
    refine List.nodup_append.mpr ⟨h.nodup, List.nodup_singleton _, ?_⟩
    rintro k' hk' _ hk rfl
    rw [List.map_singleton, List.mem_singleton] at hk
    rw [hk] at hk'
    exact hNew hk'
  · intro k' op' hk'
    rw [List.map_append, List.mem_append, List.map_singleton, List.mem_singleton]
    rcases update_some_iff.mp hk' with ⟨rfl, rfl⟩ | ⟨hNe, hk'⟩
    · simp [hPhase]
    · rw [h.mem_iff k' op' hk', or_iff_left hNe]
  · intro r hr
    rcases List.mem_append.mp hr with hr | hr
    · exact task_setPhase hOp phase (h.task r hr)
    · obtain rfl := List.mem_singleton.mp hr
      exact ⟨_, Function.update_self .., rfl⟩

theorem Run.reported (h : Run ok s) : Reported s.eng.ops s.eng.reported := by
  refine h.induct (P := fun s => Reported s.eng.ops s.eng.reported)
    ⟨List.nodup_nil, by simp [init, Engine.init], by simp [init, Engine.init]⟩ ?_
  intro s a t hRun _ hRep _ _ hChange
  cases hChange with
  | @kick _ f _ _ _ op _ hPrep hKick =>
    obtain ⟨_, _, hPhase⟩ := hPrep.op_eq
    have hNew : ∀ r ∈ s.eng.reported, r.op ≠ f.kick := by
      intro r hr hEq
      obtain ⟨op', hop', _⟩ := hRep.task r hr
      have := hRun.op_lt hop'
      omega
    constructor
    · exact hRep.nodup
    · intro k op' hk
      rcases update_some_iff.mp hk with ⟨rfl, rfl⟩ | ⟨_, hk⟩
      · rw [hPhase]
        simp only [Phase.unreported, Bool.true_eq_false, iff_false, List.mem_map, not_exists,
          not_and]
        exact hNew
      · exact hRep.mem_iff k op' hk
    · intro r hr
      obtain ⟨op', hop', hId⟩ := hRep.task r hr
      exact ⟨op', update_of_some hop' (hNew r hr), hId⟩
  | goReturn hOp hRunning =>
    exact hRep.setPhase hOp (by rw [GoOut.phase_unreported, hRunning]; rfl)
  | goReport hOp hPhase => exact hRep.report hOp (by rw [hPhase]; rfl) rfl _ _
  | goPanic hOp hPhase => exact hRep.report hOp (by rw [hPhase]; rfl) rfl _ _
  | goDone hOp hPhase => exact hRep.setPhase hOp (by rw [hPhase]; rfl)
  | _ => exact hRep

/-! ## Conservation -/

theorem wait_some {q q' : TaskQueue} {recs : List TaskRes} (h : q.wait = some (recs, q')) :
    recs = encodeAll q.nextBuf q.tasks ∧ q' = ⟨false, [], q.nextBuf + q.tasks.length⟩ := by
  unfold TaskQueue.wait at h
  split at h
  · cases h
    exact ⟨rfl, rfl⟩
  · cases h

theorem held_returned (n : Nat) (recs : List TaskRes) :
    (Option.map Batch.recs (if recs = [] then none else some ⟨n, recs⟩)).getD [] = recs := by
  by_cases hNil : recs = [] <;> simp [hNil]

theorem handed_drain {th : ThreadCtx} {r : TaskRes} {occupied free : List TaskRes}
    (h : th.occupied = r :: occupied) :
    ({ th with occupied, free, processed := th.processed ++ [r] } : ThreadCtx).handed.Perm
      th.handed := by
  refine List.perm_iff_count.mpr fun x => ?_
  simp only [ThreadCtx.handed, ThreadCtx.held, h, List.count_append, List.count_cons,
    List.count_nil]
  omega

theorem handed_post {th : ThreadCtx} {kept dropped free : List TaskRes} {ph : ThreadPhase}
    {posted : Bool} (h : (kept ++ dropped).Perm th.held) :
    ({ th with
      phase := ph, finishedTasks := none, posted, free
      occupied := th.occupied ++ kept
      lost := th.lost ++ dropped } : ThreadCtx).handed.Perm th.handed := by
  refine List.perm_iff_count.mpr fun x => ?_
  have hCount := List.perm_iff_count.mp h x
  simp only [ThreadCtx.handed, ThreadCtx.held, List.count_append, Option.map_none,
    Option.getD_none, List.count_nil] at hCount ⊢
  omega

theorem handed_wait {th : ThreadCtx} {recs : List TaskRes}
    (hHolds : ThreadCtx.Holds th.phase th.finishedTasks th.finishedTaskNum th.nextBatch)
    (hPhase : th.phase = .waiting) : ({ th with
      phase := .returned
      finishedTasks := if recs = [] then none else some ⟨th.nextBatch, recs⟩
      finishedTaskNum := recs.length
      nextBatch := th.nextBatch + 1 } : ThreadCtx).handed = th.handed ++ recs := by
  simp [ThreadCtx.handed, ThreadCtx.held, held_returned, hHolds.empty (.inr hPhase)]

/-- Whatever was reported is on its way, processed, or lost to a failed
allocation. -/
theorem Run.conserved (h : Run ok s) : (s.eng.reported.map TaskResult.report).Perm
    (s.thread.handed.map TaskRes.report ++ s.eng.queue.tasks.map TaskResult.report) := by
  refine h.induct (P := fun s => (s.eng.reported.map TaskResult.report).Perm
    (s.thread.handed.map TaskRes.report ++ s.eng.queue.tasks.map TaskResult.report)) .nil ?_
  intro s a t hRun _ hCons _ _ hChange
  have hReport : ∀ r : TaskResult, ((s.eng.reported ++ [r]).map TaskResult.report).Perm
      (s.thread.handed.map TaskRes.report ++
        (s.eng.queue.tasks ++ [r]).map TaskResult.report) := by
    intro r
    rw [List.map_append, List.map_append, ← List.append_assoc]
    exact hCons.append_right _
  cases hChange with
  | resume hOccupied => exact hCons.trans (((handed_drain hOccupied).symm.map _).append_right _)
  | cancel hOccupied => exact hCons.trans (((handed_drain hOccupied).symm.map _).append_right _)
  | goReport => exact hReport _
  | goPanic => exact hReport _
  | waitReturn hPhase hWait =>
    obtain ⟨rfl, rfl⟩ := wait_some hWait
    rw [handed_wait hRun.holds hPhase, List.map_append, encodeAll_report]
    simpa using hCons
  | threadEvent hEvent =>
    obtain ⟨kept, dropped, ph, free, posted, hHands, hEq⟩ := threadEventHandler_ok hRun.holds hEvent
    cases hEq
    exact hCons.trans (((handed_post hHands.perm).symm.map _).append_right _)
  | _ => exact hCons

theorem Run.ops_perm (h : Run ok s) : (s.eng.reported.map TaskResult.op).Perm
    (s.thread.handed.map TaskRes.op ++ s.eng.queue.tasks.map TaskResult.op) := by
  have hMap := h.conserved.map Report.op
  have hOp : ∀ r : TaskResult, r.report.op = r.op := by
    intro r
    rw [TaskResult.report, TaskRes.report, encode_op]
  have hFun : Report.op ∘ TaskResult.report = TaskResult.op := funext hOp
  rw [List.map_append, List.map_map, List.map_map, List.map_map, hFun] at hMap
  exact hMap

theorem Run.handed_nodup (h : Run ok s) : (s.thread.handed.map TaskRes.op).Nodup :=
  (List.nodup_append.mp (h.ops_perm.nodup_iff.mp h.reported.nodup)).1

theorem Run.handed_report (h : Run ok s) {r : TaskRes} (hr : r ∈ s.thread.handed) :
    ∃ r' ∈ s.eng.reported, r'.op = r.op ∧ r'.id = r.taskId ∧ r'.report = r.report := by
  have hMem : r.report ∈ s.eng.reported.map TaskResult.report := by
    rw [h.conserved.mem_iff]
    exact List.mem_append_left _ (List.mem_map_of_mem hr)
  obtain ⟨r', hr', hEq⟩ := List.mem_map.mp hMem
  refine ⟨r', hr', ?_, ?_, hEq⟩
  · have hOp := congrArg Report.op hEq
    simpa [TaskResult.report, TaskRes.report] using hOp
  · have hId := congrArg Report.taskId hEq
    simpa [TaskResult.report, TaskRes.report] using hId

theorem Run.handed_op (h : Run ok s) {r : TaskRes} (hr : r ∈ s.thread.handed) :
    ∃ op, s.eng.ops r.op = some op ∧ op.taskId = r.taskId ∧ op.phase.unreported = false := by
  obtain ⟨r', hr', hOp, hId, _⟩ := h.handed_report hr
  obtain ⟨op, hop, hTask⟩ := h.reported.task r' hr'
  rw [hOp] at hop
  refine ⟨op, hop, hTask.trans hId, (h.reported.mem_iff r.op op hop).mp ?_⟩
  rw [← hOp]
  exact List.mem_map_of_mem hr'

/-! ## Buffers and arrays -/

theorem Run.bufs (h : Run ok s) : (bufAddrs s.thread.handed).Nodup ∧
    ∀ a ∈ bufAddrs s.thread.handed, a < s.eng.queue.nextBuf := by
  refine h.induct (P := fun s => (bufAddrs s.thread.handed).Nodup ∧
    ∀ a ∈ bufAddrs s.thread.handed, a < s.eng.queue.nextBuf)
    ⟨List.nodup_nil, by simp [init, ThreadCtx.init, ThreadCtx.handed, ThreadCtx.held, bufAddrs]⟩ ?_
  intro s a t hRun _ hBufs _ _ hChange
  have hPerm : ∀ th : ThreadCtx, th.handed.Perm s.thread.handed →
      (bufAddrs th.handed).Nodup ∧ ∀ a ∈ bufAddrs th.handed, a < s.eng.queue.nextBuf := by
    intro th hPerm
    have hAddrs : (bufAddrs th.handed).Perm (bufAddrs s.thread.handed) := hPerm.filterMap _
    exact ⟨hAddrs.nodup_iff.mpr hBufs.1, fun a ha => hBufs.2 a (hAddrs.mem_iff.mp ha)⟩
  cases hChange with
  | resume hOccupied => exact hPerm _ (handed_drain hOccupied)
  | cancel hOccupied => exact hPerm _ (handed_drain hOccupied)
  | waitReturn hPhase hWait =>
    obtain ⟨rfl, rfl⟩ := wait_some hWait
    obtain ⟨hRange, hNodup⟩ := encodeAll_bufAddrs s.eng.queue.nextBuf s.eng.queue.tasks
    rw [handed_wait hRun.holds hPhase, bufAddrs_append]
    constructor
    · refine List.nodup_append.mpr ⟨hBufs.1, hNodup, ?_⟩
      rintro a ha _ ha' rfl
      have := hBufs.2 a ha
      have := (hRange a ha').1
      omega
    · intro a ha
      simp only
      rcases List.mem_append.mp ha with ha | ha
      · have := hBufs.2 a ha
        omega
      · exact (hRange a ha).2
  | threadEvent hEvent =>
    obtain ⟨kept, dropped, ph, free, posted, hHands, hEq⟩ := threadEventHandler_ok hRun.holds hEvent
    cases hEq
    exact hPerm _ (handed_post hHands.perm)
  | _ => exact hBufs

theorem Run.processed_bufs_nodup (h : Run ok s) : (bufAddrs s.thread.processed).Nodup := by
  have hNodup := h.bufs.1
  rw [ThreadCtx.handed, List.append_assoc, List.append_assoc, bufAddrs_append] at hNodup
  exact (List.nodup_append.mp hNodup).1

theorem freeBuf_processed (m : Mem) (processed : List TaskRes) (r : TaskRes)
    (h : m.freedBufs = bufAddrs processed) :
    (m.freeBuf r.buf).freedBufs = bufAddrs (processed ++ [r]) := by
  cases hBuf : r.buf with
  | none => simp [Mem.freeBuf, h, bufAddrs, hBuf]
  | some b => simp [Mem.freeBuf, h, bufAddrs, hBuf]

@[simp] theorem freeBatch_bufs (m : Mem) (b : Option Batch) :
    (m.freeBatch b).freedBufs = m.freedBufs := by
  cases b <;> rfl

/-- The wait thread does not free the batch that the event loop will read. -/
def keepsBatch (s : State) (a : Action) : Prop :=
  a = .threadTest → s.thread.finishedTasks = none ∨ ¬ (s.exiting ∨ s.terminate)

instance (s : State) (a : Action) : Decidable (s.keepsBatch a) :=
  inferInstanceAs (Decidable (_ → _))

/-- Then buffers are freed by the event loop alone, one for each processed
record that has one. -/
theorem Run.freed (h : Run ok s) (hKeep : ∀ s a, Run ok s → ok s a → s.keepsBatch a) :
    s.mem.freedBufs = bufAddrs s.thread.processed := by
  refine h.induct (P := fun s => s.mem.freedBufs = bufAddrs s.thread.processed) rfl ?_
  intro s a t hRun _ hFreed hOk _ hChange
  cases hChange with
  | resume => exact freeBuf_processed _ _ _ hFreed
  | cancel => exact freeBuf_processed _ _ _ hFreed
  | threadFree hPhase hBatch hStop =>
    rcases hKeep s _ hRun hOk rfl with hNone | hGo
    · rw [hBatch] at hNone
      cases hNone
    · exact absurd hStop hGo
  | threadEvent hEvent =>
    obtain ⟨kept, dropped, ph, free, posted, hHands, hEq⟩ := threadEventHandler_ok hRun.holds hEvent
    cases hEq
    rw [freeBatch_bufs]
    exact hFreed
  | _ => exact hFreed

theorem Run.arrays (h : Run ok s) (hKeep : ∀ s a, Run ok s → ok s a → s.keepsBatch a) :
    s.mem.freedArrays.Nodup ∧ (∀ n ∈ s.mem.freedArrays, n < s.thread.nextBatch) ∧
      ∀ b, s.thread.finishedTasks = some b → b.id ∉ s.mem.freedArrays := by
  refine h.induct (P := fun s => s.mem.freedArrays.Nodup ∧
    (∀ n ∈ s.mem.freedArrays, n < s.thread.nextBatch) ∧
    ∀ b, s.thread.finishedTasks = some b → b.id ∉ s.mem.freedArrays)
    ⟨List.nodup_nil, by simp [init, Mem.init], by simp [init, ThreadCtx.init]⟩ ?_
  intro s a t hRun _ hArrays hOk _ hChange
  obtain ⟨hNodup, hLt, hHeld⟩ := hArrays
  have hFreeBuf : ∀ b : Option Buf, (s.mem.freeBuf b).freedArrays = s.mem.freedArrays := by
    intro b
    cases b <;> rfl
  cases hChange with
  | resume =>
    rw [hFreeBuf]
    exact ⟨hNodup, hLt, hHeld⟩
  | cancel =>
    rw [hFreeBuf]
    exact ⟨hNodup, hLt, hHeld⟩
  | waitReturn hPhase hWait =>
    refine ⟨hNodup, fun n hn => Nat.lt_succ_of_lt (hLt n hn), fun b hb hMem => ?_⟩
    simp only at hb
    split at hb
    · cases hb
    · cases hb
      exact Nat.lt_irrefl _ (hLt _ hMem)
  | threadFree hPhase hBatch hStop =>
    rcases hKeep s _ hRun hOk rfl with hNone | hGo
    · rw [hBatch] at hNone
      cases hNone
    · exact absurd hStop hGo
  | threadEvent hEvent =>
    obtain ⟨kept, dropped, ph, free, posted, hHands, hEq⟩ := threadEventHandler_ok hRun.holds hEvent
    cases hEq
    cases hBatch : s.thread.finishedTasks with
    | none => exact ⟨hNodup, hLt, by simp⟩
    | some b =>
      refine ⟨?_, fun n hn => ?_, by simp⟩
      · refine List.nodup_append.mpr ⟨hNodup, List.nodup_singleton _, ?_⟩
        rintro n hn _ hn' rfl
        rw [List.mem_singleton.mp hn'] at hn
        exact hHeld b hBatch hn
      · rcases List.mem_append.mp hn with hn | hn
        · exact hLt n hn
        · rw [List.mem_singleton.mp hn]
          exact (hRun.holds.fresh b hBatch).2
  | _ => exact ⟨hNodup, hLt, hHeld⟩

theorem postBatch_total {recs : List TaskRes} (h : s.readBatch = .ok recs) (oom : List Nat) :
    ∃ t, s.postBatch oom = .ok t := by
  rw [postBatch, h, ok_bind]
  simp only
  split
  · split <;> exact ⟨_, rfl⟩
  · exact ⟨_, rfl⟩

theorem threadEvent_safe (hHolds : ThreadCtx.Holds s.thread.phase s.thread.finishedTasks
      s.thread.finishedTaskNum s.thread.nextBatch)
    (hHeld : ∀ b, s.thread.finishedTasks = some b → b.id ∉ s.mem.freedArrays) (oom : List Nat)
    (postOk : Bool) : s.faults (.threadEvent oom postOk) = none := by
  refine faults_eq_none fun fault h => ?_
  simp only [step, threadEventHandler] at h
  split at h
  · rename_i hReady
    have hNum := hHolds.num_eq (.inr hReady.1)
    have hRead : ∃ recs, s.readBatch = .ok recs := by
      unfold readBatch
      cases hBatch : s.thread.finishedTasks with
      | none =>
        rw [hBatch] at hNum
        exact ⟨[], by simp [hNum]⟩
      | some b =>
        simp only [nonNull_some, ok_bind, if_neg (hHeld b hBatch)]
        split <;> exact ⟨_, rfl⟩
    obtain ⟨recs, hRead⟩ := hRead
    obtain ⟨u, hPost⟩ := postBatch_total hRead oom
    rw [hPost, ok_bind] at h
    split at h
    · cases h
    · split at h
      · cases h
      · split at h <;> cases h
  · cases h

/-- No array and no buffer is freed twice, and none is read or posted after it
was freed. -/
structure ReleasedOnce (s : State) : Prop where
  arrays : s.mem.freedArrays.Nodup
  bufs : s.mem.freedBufs.Nodup
  unread : ∀ oom postOk, s.faults (.threadEvent oom postOk) = none
  unposted : ∀ r ∈ s.thread.occupied ++ s.thread.held, ∀ b, r.buf = some b →
    b.addr ∉ s.mem.freedBufs

theorem released_once (h : Run keepsBatch s) : s.ReleasedOnce := by
  have hFreed := h.freed fun _ _ _ hOk => hOk
  obtain ⟨hArrays, _, hHeld⟩ := h.arrays fun _ _ _ hOk => hOk
  refine ⟨hArrays, ?_, threadEvent_safe h.holds hHeld, ?_⟩
  · rw [hFreed]
    exact h.processed_bufs_nodup
  · intro r hr b hb hMem
    have hNodup := h.bufs.1
    rw [ThreadCtx.handed, List.append_assoc, List.append_assoc, bufAddrs_append] at hNodup
    have hAddr : b.addr ∈ bufAddrs (s.thread.lost ++ (s.thread.occupied ++ s.thread.held)) :=
      List.mem_filterMap.mpr ⟨r, List.mem_append_right _ hr, by simp [hb]⟩
    rw [hFreed] at hMem
    exact (List.nodup_append.mp hNodup).2.2 _ hMem _ hAddr rfl

def answeredCall : List Action := [
  .connect (some 1) (.ok []) 50,
  .call 0 1 7 true ⟨true, none, true, some 100, some 10⟩,
  .goReturn 0 (.ok [1]),
  .goReport 0,
  .goDefer 0,
  .waitReturn]

/-- The worker starts to exit between the test of the wait thread and the handler
of its event. -/
theorem released_once_answeredCall : ∃ s : State, s.mem.freedArrays = [0] ∧
    s.mem.freedBufs = [0] ∧ s.exiting = true ∧ s.ReleasedOnce := by
  have hRun := run_after keepsBatch
    (answeredCall ++ [.threadTest, .exit, .threadEvent [] true, .postEvent, .drain])
    (by decide +kernel)
  exact ⟨_, by decide +kernel, by decide +kernel, by decide +kernel, released_once hRun⟩

/-- The worker starts to exit after `grpc_engine_wait` returned: the wait thread
frees the batch and the event loop reads it. -/
theorem exit_reads_freed_array : ∃ s, Reachable s ∧ ¬ s.ReleasedOnce := by
  have hRun := run_after (fun _ _ => True) (answeredCall ++ [.exit, .threadTest])
    (by decide +kernel)
  refine ⟨_, hRun, fun hOnce => ?_⟩
  have hFault := hOnce.unread [] true
  revert hFault
  decide +kernel

/-! ## No loss, no duplication, in order -/

def undisturbed (_ : State) (a : Action) : Prop :=
  a ≠ .quit ∧ a ≠ .exit ∧ a ≠ .terminate ∧ a.oom = []

instance (s : State) (a : Action) : Decidable (s.undisturbed a) :=
  inferInstanceAs (Decidable (_ ∧ _))

theorem Run.running (h : Run undisturbed s) :
    s.quit = false ∧ s.exiting = false ∧ s.terminate = false ∧ s.thread.lost = [] := by
  refine h.induct (P := fun s => s.quit = false ∧ s.exiting = false ∧ s.terminate = false ∧
    s.thread.lost = []) ⟨rfl, rfl, rfl, rfl⟩ ?_
  intro s a t hRun _ hRunning hOk _ hChange
  cases hChange with
  | threadEvent hEvent =>
    obtain ⟨kept, dropped, ph, free, posted, hHands, hEq⟩ := threadEventHandler_ok hRun.holds hEvent
    cases hEq
    simpa [(hHands.all hOk.2.2.2).2] using hRunning
  | quit => exact absurd rfl hOk.1
  | exit => exact absurd rfl hOk.2.1
  | terminate => exact absurd rfl hOk.2.2.1
  | _ => exact hRunning

theorem Run.sequence (h : Run undisturbed s) : s.eng.reported.map TaskResult.report =
    (s.thread.processed ++ s.thread.occupied ++ s.thread.held).map TaskRes.report ++
      s.eng.queue.tasks.map TaskResult.report := by
  refine h.induct (P := fun s => s.eng.reported.map TaskResult.report =
    (s.thread.processed ++ s.thread.occupied ++ s.thread.held).map TaskRes.report ++
      s.eng.queue.tasks.map TaskResult.report) rfl ?_
  intro s a t hRun _ hSeq hOk _ hChange
  have hReport : ∀ r : TaskResult, (s.eng.reported ++ [r]).map TaskResult.report =
      (s.thread.processed ++ s.thread.occupied ++ s.thread.held).map TaskRes.report ++
        (s.eng.queue.tasks ++ [r]).map TaskResult.report := by
    intro r
    rw [List.map_append, hSeq, List.append_assoc, ← List.map_append]
  cases hChange with
  | resume hOccupied => simpa [ThreadCtx.held, hOccupied] using hSeq
  | cancel hOccupied => simpa [ThreadCtx.held, hOccupied] using hSeq
  | goReport => exact hReport _
  | goPanic => exact hReport _
  | waitReturn hPhase hWait =>
    obtain ⟨rfl, rfl⟩ := wait_some hWait
    have hEmpty : s.thread.held = [] := by
      rw [ThreadCtx.held, hRun.holds.empty (.inr hPhase)]
      rfl
    rw [hEmpty] at hSeq
    simpa [ThreadCtx.held, held_returned] using hSeq
  | threadEvent hEvent =>
    obtain ⟨kept, dropped, ph, free, posted, hHands, hEq⟩ := threadEventHandler_ok hRun.holds hEvent
    cases hEq
    obtain ⟨rfl, rfl⟩ := hHands.all hOk.2.2.2
    simpa [ThreadCtx.held] using hSeq
  | _ => exact hSeq

structure InOrder (s : State) : Prop where
  once : (s.eng.reported.map TaskResult.op).Nodup
  finished : ∀ k op, s.eng.ops k = some op → op.phase = .finished →
    k ∈ s.eng.reported.map TaskResult.op
  sequence : s.eng.reported.map TaskResult.report =
    (s.thread.processed ++ s.thread.occupied ++ s.thread.held).map TaskRes.report ++
      s.eng.queue.tasks.map TaskResult.report
  released : s.mem.freedBufs = bufAddrs s.thread.processed
  released_once : s.mem.freedBufs.Nodup

theorem in_order (h : Run undisturbed s) : s.InOrder := by
  have hFreed := h.freed fun s a hRun _ _ => .inr (by simp [hRun.running])
  refine ⟨h.reported.nodup, fun k op hOp hPhase => ?_, h.sequence, hFreed, ?_⟩
  · rw [h.reported.mem_iff k op hOp, hPhase]
    rfl
  · rw [hFreed]
    exact h.processed_bufs_nodup

/-- Two calls are answered in one batch, the second one first. A third call panics
before the first record of that batch is processed. -/
def threeAnswered : List Action := [
  .connect (some 1) (.ok []) 50,
  .call 0 1 7 true ⟨true, none, true, some 100, some 10⟩,
  .call 0 2 8 true ⟨true, none, true, some 101, some 11⟩,
  .goReturn 1 (.ok [2]),
  .goReport 1,
  .goReturn 0 (.err [1]),
  .goReport 0,
  .waitReturn,
  .threadTest,
  .threadEvent [] true,
  .call 0 3 9 true ⟨true, none, true, some 102, some 12⟩,
  .goReturn 2 (.panic [3]),
  .goDefer 2,
  .postEvent,
  .drain]

theorem in_order_threeAnswered : ∃ s : State, s.eng.reported.map TaskResult.op = [1, 0, 2] ∧
    s.thread.processed.map TaskRes.op = [1] ∧ s.thread.occupied.map TaskRes.op = [0] ∧
    s.InOrder := by
  have hRun := run_after undisturbed threeAnswered (by decide +kernel)
  exact ⟨_, by decide +kernel, by decide +kernel, by decide +kernel, in_order hRun⟩

end State

end GrpcClient
