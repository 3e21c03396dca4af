import GrpcClient.Messages
import GrpcClient.Progress

/-! # Results arrive

As long as no wait has been given up, the engine, the wait thread and the event
loop bring every waiting coroutine the result of its operation by themselves,
whatever the RPC returns. The wait thread waits again whenever a registered task
still lacks its result, for then no record of a cancelled task is counted.
-/

namespace GrpcClient

open Fallible PartialMap Transition

def Action.givesUp : Action → Bool
  | .timer _ | .abort _ => true
  | _ => false

def ThreadPhase.left : ThreadPhase → Nat
  | .returned => 2
  | .completed => 1
  | .idle | .waiting => 0

/-- The steps of a goroutine up to its report, and one for the record. -/
def Phase.left : Phase → Nat
  | .running => 3
  | .reporting _ _ | .deferred (some _) => 2
  | .deferred none | .finished => 0

theorem Phase.left_le (phase : Phase) : phase.left ≤ 3 := by
  unfold left
  split <;> omega

theorem GoOut.phase_left (out : GoOut) (kind : OpKind) : (out.phase kind).left = 2 := by
  unfold GoOut.phase
  split <;> rfl

namespace State

variable {s t : State} {ok : State → Action → Prop}

/-- No wait is given up, the worker stays up, and posts and allocations
succeed. -/
def patient (s : State) (a : Action) : Prop :=
  a.givesUp = false ∧ a.postOk = true ∧ s.undisturbed a

instance (s : State) (a : Action) : Decidable (s.patient a) :=
  inferInstanceAs (Decidable (_ ∧ _ ∧ _))

/-! ## Nobody has given up -/

theorem Run.calm (h : Run patient s) : Run undisturbed s :=
  h.mono fun _ _ _ _ hOk _ => hOk.2.2

theorem Run.not_givenUp (h : Run patient s) (k : Nat) : ¬ s.givenUp k := by
  refine h.induct (P := fun s => ¬ s.givenUp k) (by simp [givenUp, init, Cli.init]) ?_
  intro s a t _ _ hNot hOk _ hChange
  cases hChange with
  | resume =>
    intro hGivenUp
    obtain hBefore | ⟨_, hNo⟩ := givenUp_snoc hGivenUp
    · exact hNot hBefore
    · exact hNo _ rfl
  | timeout => exact absurd hOk.1 (by simp [Action.givesUp])
  | abort => exact absurd hOk.1 (by simp [Action.givesUp])
  | _ => exact hNot

theorem Run.uses_fresh (h : Run patient s) (a : Action) : s.noStaleReuse a :=
  fun _ _ k _ hGivenUp => absurd hGivenUp (h.not_givenUp k)

theorem Run.fresh (h : Run patient s) : Run noStaleReuse s :=
  h.mono fun _ a _ hRun _ _ => Run.uses_fresh hRun a

theorem Run.waiting_or_answered (h : Run patient s) {k : Nat} {f : Frame}
    (hf : s.cli.kicks k = some f) (hOpen : ¬ Answered s.cli.outcomes k) :
    s.cli.frames f.co = some f :=
  (h.waiting_or_givenUp hf hOpen).resolve_right (h.not_givenUp k)

/-- A waiting coroutine has not been passed over: its result is not among the
processed ones. -/
theorem Run.waiting_unprocessed (h : Run ok s) : ∀ co f, s.cli.frames co = some f →
    f.kick ∉ s.thread.processed.map TaskRes.op := by
  refine h.induct (P := fun s => ∀ co f, s.cli.frames co = some f →
    f.kick ∉ s.thread.processed.map TaskRes.op) (by simp [init, Cli.init]) ?_
  intro s a t hRun hv hWait _ _ hChange
  -- the waiter of a processed record is found by the address they share
  have hSnoc : ∀ {r : TaskRes} {occupied : List TaskRes} {f : Frame} {co : Nat},
      s.thread.occupied = r :: occupied → s.cli.frames co = some f → f.sctx ≠ r.taskId →
      f.kick ∉ (s.thread.processed ++ [r]).map TaskRes.op := by
    intro r occupied f co hOccupied hf hNe hMem
    rw [List.map_append, List.mem_append, List.map_singleton, List.mem_singleton] at hMem
    obtain hMem | hEq := hMem
    · exact hWait co f hf hMem
    · obtain ⟨_, f', hf', hId⟩ := hRun.posted_outstanding (r := r) (by simp [hOccupied])
      rw [← hEq, (hRun.pending hf).1] at hf'
      cases hf'
      exact hNe hId
  cases hChange with
  | kick hPrep hKick hFrame hAddr =>
    intro co f' hf' hMem
    obtain ⟨_, rfl⟩ | ⟨_, hf'⟩ := update_some_iff.mp hf'
    · have := hRun.processed_lt (.inl hMem)
      omega
    · exact hWait co f' hf' hMem
  | resume hOccupied hId hSettles =>
    intro co f' hf'
    obtain ⟨hNe, hf'⟩ := update_none_iff.mp hf'
    apply hSnoc hOccupied hf'
    intro hEq
    exact hNe (hv.cli.waiter_unique hf' hSettles.frame (hEq.trans hId)).1
  | cancel hOccupied hMiss => exact fun co f hf => hSnoc hOccupied hf (hMiss co f hf)
  | timeout => exact fun co f hf => hWait co f (update_none_iff.mp hf).2
  | abort => exact fun co f hf => hWait co f (update_none_iff.mp hf).2
  | threadEvent hEvent =>
    obtain ⟨kept, dropped, ph, free, posted, hHands, hEq⟩ := threadEventHandler_ok hRun.holds hEvent
    cases hEq
    exact hWait
  | _ => exact hWait

/-! ## The wait thread owes nothing when it is idle -/

theorem Run.held_waiting (h : Run patient s) {r : TaskRes} (hr : r ∈ s.thread.held) :
    r.op ∈ s.cli.suspended.map Frame.kick := by
  have hHanded : r ∈ s.thread.handed := List.mem_append_right _ hr
  obtain ⟨op, hOp, _⟩ := h.handed_op hHanded
  obtain ⟨f, hf, _⟩ := h.started.op_kick r.op op hOp
  have hOpen : ¬ Answered s.cli.outcomes r.op := by
    rintro ⟨r', hMem⟩
    have hOwn : r.op = r'.op := h.fresh.matched.answered_own (r.op, r'.op) ⟨r', hMem, rfl⟩
    have hNodup := h.handed_nodup
    rw [ThreadCtx.handed, List.append_assoc, List.append_assoc, List.map_append] at hNodup
    have hProcessed := List.mem_map_of_mem (f := TaskRes.op) (h.answered_processed hMem)
    have hHeld := List.mem_map_of_mem (f := TaskRes.op)
      (List.mem_append_right s.thread.lost (List.mem_append_right s.thread.occupied hr))
    exact (List.nodup_append.mp hNodup).2.2 _ hProcessed _ hHeld hOwn.symm
  have hFrame := h.waiting_or_answered hf hOpen
  have hKick := h.logged.kick_eq r.op f hf
  exact hKick ▸ List.mem_map_of_mem (h.valid.mem_suspended.mpr hFrame)

theorem Run.counts_right (h : Run patient s) (a : Action) : s.countsRight a := by
  rintro _ ⟨f, hf, hMissing⟩
  have hStale : s.staleRecords = 0 := by
    rw [staleRecords, List.length_eq_zero_iff, List.filter_eq_nil_iff]
    intro r hr
    simp [h.held_waiting hr]
  rw [hStale, missingResults]
  apply List.length_pos_of_mem (a := f)
  rw [List.mem_filter, decide_eq_true_eq]
  refine ⟨hf, fun hHeld => hMissing ?_⟩
  rw [ThreadCtx.handed, List.map_append]
  exact List.mem_append_right _ hHeld

theorem Run.owes_nothing (h : Run patient s) : s.Settled := by
  apply Run.settled
  apply h.mono
  intro s a t hRun hOk _
  obtain ⟨_, hPost, hQuit, hExit, _⟩ := hOk
  exact ⟨⟨hQuit, hExit, hPost⟩, Run.counts_right hRun a⟩

/-! ## Steps that are not refused -/

theorem Run.queue_done (h : Run ok s) (hTasks : s.eng.queue.tasks ≠ []) :
    s.eng.queue.done = true := by
  refine h.induct (P := fun s => s.eng.queue.tasks ≠ [] → s.eng.queue.done = true)
    (fun hNe => absurd rfl hNe) ?_ hTasks
  intro s a t _ _ hDone _ _ hChange
  cases hChange with
  | goReport => exact fun _ => rfl
  | goPanic => exact fun _ => rfl
  | waitTimer => exact fun _ => rfl
  | waitReturn hPhase hWait =>
    obtain ⟨_, rfl⟩ := wait_some hWait
    exact fun hNe => absurd rfl hNe
  | _ => exact hDone

theorem waitReturn_eq (hPhase : s.thread.phase = .waiting) (hDone : s.eng.queue.done = true) :
    s.step .waitReturn = .ok { s with
      eng := { s.eng with
        queue := ⟨false, [], s.eng.queue.nextBuf + s.eng.queue.tasks.length⟩ }
      thread := { s.thread with
        phase := .returned
        finishedTasks := if encodeAll s.eng.queue.nextBuf s.eng.queue.tasks = [] then none
          else some ⟨s.thread.nextBatch, encodeAll s.eng.queue.nextBuf s.eng.queue.tasks⟩
        finishedTaskNum := (encodeAll s.eng.queue.nextBuf s.eng.queue.tasks).length
        nextBatch := s.thread.nextBatch + 1 } } := by
  simp only [step, waitReturn, hPhase, if_true, TaskQueue.wait, hDone]

theorem Run.threadTest_eq (h : Run undisturbed s) (hPhase : s.thread.phase = .returned) :
    s.step .threadTest = .ok { s with thread := { s.thread with phase := .completed } } := by
  obtain ⟨_, hExit, hTerm, _⟩ := h.running
  simp [step, threadTest, hPhase, hExit, hTerm]

theorem postEvent_eq (hPosted : s.thread.posted = true) (hDrain : s.draining = false) :
    s.step .postEvent =
      .ok { s with thread := { s.thread with posted := false }, draining := true } := by
  simp [step, postEvent, hPosted, hDrain]

theorem readBatch_total (hHolds : ThreadCtx.Holds s.thread.phase s.thread.finishedTasks
      s.thread.finishedTaskNum s.thread.nextBatch) (hPhase : s.thread.phase = .completed)
    (hUnfreed : ∀ b, s.thread.finishedTasks = some b → b.id ∉ s.mem.freedArrays) :
    ∃ recs, s.readBatch = .ok recs := by
  have hNum := hHolds.num_eq (.inr hPhase)
  unfold readBatch
  cases hBatch : s.thread.finishedTasks with
  | none =>
    rw [hBatch] at hNum
    exact ⟨[], by simp [hNum]⟩
  | some b =>
    simp only [nonNull_some, ok_bind, if_neg (hUnfreed b hBatch)]
    split
    · exact ⟨_, rfl⟩
    · exact ⟨_, rfl⟩

theorem threadEvent_total (hPhase : s.thread.phase = .completed) (hDrain : s.draining = false)
    {recs : List TaskRes} (hRead : s.readBatch = .ok recs) (oom : List Nat) (postOk : Bool) :
    ∃ t, s.threadEventHandler oom postOk = .ok t := by
  obtain ⟨u, hPost⟩ := postBatch_total hRead oom
  have hReady : s.thread.phase = .completed ∧ ¬ s.draining := ⟨hPhase, by simp [hDrain]⟩
  rw [threadEventHandler, if_pos hReady, hPost, ok_bind]
  split
  · exact ⟨_, rfl⟩
  · split
    · exact ⟨_, rfl⟩
    · split
      · exact ⟨_, rfl⟩
      · exact ⟨_, rfl⟩

/-- The handler posts the whole batch behind what is posted already. -/
theorem Run.threadEvent_next (h : Run patient s) (hPhase : s.thread.phase = .completed)
    (hDrain : s.draining = false) : ∃ ph free posted, (ph = .waiting ∨ ph = .idle) ∧
      s.step (.threadEvent [] true) = .ok { s with
        thread := { s.thread with
          phase := ph, finishedTasks := none, posted, free
          occupied := s.thread.occupied ++ s.thread.held }
        mem := s.mem.freeBatch s.thread.finishedTasks } := by
  have hUnfreed := (h.arrays fun s a hRun _ _ => .inr (by simp [(Run.calm hRun).running])).2.2
  obtain ⟨recs, hRead⟩ := readBatch_total h.holds hPhase hUnfreed
  obtain ⟨t, hEvent⟩ := threadEvent_total hPhase hDrain hRead [] true
  obtain ⟨kept, dropped, ph, free, posted, hHands, rfl⟩ := threadEventHandler_ok h.holds hEvent
  obtain ⟨rfl, rfl⟩ := hHands.all rfl
  refine ⟨ph, free, posted, hHands.stops.imp id And.left, ?_⟩
  rw [step, hEvent, List.append_nil]

/-! ## Posted records are announced -/

theorem postBatch_posted {oom : List Nat} {u : State}
    (hHolds : ThreadCtx.Holds s.thread.phase s.thread.finishedTasks s.thread.finishedTaskNum
      s.thread.nextBatch) (hPhase : s.thread.phase = .completed) (h : s.postBatch oom = .ok u) :
    u.thread.posted = true ∨
      u.thread.posted = s.thread.posted ∧ u.thread.occupied = s.thread.occupied := by
  have hNum := hHolds.num_eq (.inr hPhase)
  obtain ⟨recs, hRead, h⟩ := bind_eq_ok h
  cases hBatch : s.thread.finishedTasks with
  | none =>
    rw [hBatch] at hNum
    have hZero : s.thread.finishedTaskNum = 0 := hNum
    rw [readBatch, if_pos hZero] at hRead
    cases hRead
    simp only [hBatch] at h
    cases h
    exact .inr ⟨rfl, rfl⟩
  | some b =>
    have hPos : s.thread.finishedTaskNum > 0 := by
      rw [hNum, hBatch]
      exact List.length_pos_iff.mpr (hHolds.fresh b hBatch).1
    simp only [hBatch, hPos, if_true] at h
    cases h
    exact .inl rfl

theorem threadEventHandler_posted {oom : List Nat} {postOk : Bool}
    (hHolds : ThreadCtx.Holds s.thread.phase s.thread.finishedTasks s.thread.finishedTaskNum
      s.thread.nextBatch) (h : s.threadEventHandler oom postOk = .ok t) :
    t.thread.posted = true ∨
      t.thread.posted = s.thread.posted ∧ t.thread.occupied = s.thread.occupied := by
  unfold threadEventHandler at h
  split at h
  · rename_i hReady
    obtain ⟨u, hPost, h⟩ := bind_eq_ok h
    have hPosted := postBatch_posted hHolds hReady.1 hPost
    split at h
    · cases h
      exact hPosted
    · split at h
      · cases h
        exact hPosted
      · split at h
        · rename_i th hPost
          cases h
          have hSame : th.posted = u.thread.posted ∧ th.occupied = u.thread.occupied := by
            unfold ThreadCtx.taskPost at hPost
            split at hPost
            · cases hPost
            · split at hPost
              · cases hPost
                exact ⟨rfl, rfl⟩
              · cases hPost
          rw [← hSame.1, ← hSame.2] at hPosted
          exact hPosted
        · cases h
          exact hPosted
  · cases h

theorem drain_stops (h : s.step .drain = .ok t) (hStop : t.draining = false) :
    t.thread.occupied = [] := by
  simp only [step, threadPostEventHandler] at h
  split at h
  · rename_i hDrain
    split at h
    · rename_i hEmpty
      cases h
      exact hEmpty
    · split at h
      · cases h
        rw [hDrain] at hStop
        cases hStop
      · obtain ⟨_, _, h⟩ := bind_eq_ok h
        cases h
        rw [hDrain] at hStop
        cases hStop
  · cases h

/-- Records that nobody drains have an event that will. -/
theorem Run.posted (h : Run ok s) (hDrain : s.draining = false) :
    s.thread.occupied = [] ∨ s.thread.posted = true := by
  refine h.induct (P := fun s => s.draining = false → s.thread.occupied = [] ∨
    s.thread.posted = true) (fun _ => .inl rfl) ?_ hDrain
  intro s a t hRun _ hPosted _ hStep hChange
  cases hChange with
  | resume => exact fun hStop => .inl (drain_stops hStep hStop)
  | cancel => exact fun hStop => .inl (drain_stops hStep hStop)
  | drained => exact fun hStop => .inl (drain_stops hStep hStop)
  | threadEvent hEvent =>
    intro hDrain
    obtain hNow | ⟨hSame, hOccupied⟩ := threadEventHandler_posted hRun.holds hEvent
    · exact .inr hNow
    · rw [hSame, hOccupied]
      exact hPosted hDrain
  | postEvent => exact fun hDrain => by cases hDrain
  | _ => exact hPosted

/-! ## What is left to do for a waiting coroutine -/

/-- The steps of the goroutine of `k`, whose RPC returns `out`, of the wait
thread and of the event loop. -/
def delivers (k : Nat) (out : GoOut) (_ : State) (a : Action) : Prop :=
  a ∈ [.goReturn k out, .goReport k, .goDefer k, .waitReturn, .threadTest, .threadEvent [] true,
    .postEvent, .drain]

theorem patient_of_delivers {k : Nat} {out : GoOut} {a : Action} (h : delivers k out s a) :
    s.patient a := by
  simp only [delivers, List.mem_cons, List.not_mem_nil, or_false] at h
  obtain rfl | rfl | rfl | rfl | rfl | rfl | rfl | rfl := h <;>
    simp [patient, undisturbed, Action.givesUp, Action.postOk, Action.oom]

def drainLeft (s : State) : Nat :=
  if s.draining then s.thread.occupied.length + 1
  else if s.thread.occupied = [] then 0 else s.thread.occupied.length + 2

def batchLeft (s : State) : Nat :=
  s.thread.phase.left + if s.thread.held = [] then 0 else s.thread.held.length + 2

def goLeft (s : State) (k : Nat) : Nat := ((s.eng.ops k).map fun op => op.phase.left).getD 0

theorem goLeft_eq {k : Nat} {op : Op} (hOp : s.eng.ops k = some op) :
    s.goLeft k = op.phase.left := by
  rw [goLeft, hOp]
  rfl

/-- What is left before the result of `k` is posted. -/
def postLeft (s : State) (k : Nat) : Nat :=
  if k ∈ (s.thread.processed ++ s.thread.occupied).map TaskRes.op then 0
  else s.batchLeft +
    if k ∈ s.thread.held.map TaskRes.op then 0
    else s.goLeft k + s.eng.queue.tasks.length + 5

def stepsLeft (k : Nat) (s : State) : Nat := s.drainLeft + s.postLeft k

theorem batchLeft_le (s : State) :
    s.batchLeft ≤ s.thread.phase.left + (s.thread.held.length + 2) := by
  unfold batchLeft
  split <;> omega

theorem stepsLeft_le (k : Nat) (s : State) : s.stepsLeft k ≤
    s.thread.occupied.length + s.thread.held.length + s.eng.queue.tasks.length + 14 := by
  have hDrain : s.drainLeft ≤ s.thread.occupied.length + 2 := by
    unfold drainLeft
    split
    · omega
    · split <;> omega
  have hBatch : s.batchLeft ≤ s.thread.held.length + 4 := by
    have hPhase : s.thread.phase.left ≤ 2 := by cases s.thread.phase <;> decide
    have := s.batchLeft_le
    omega
  have hGo : s.goLeft k ≤ 3 := by
    unfold goLeft
    cases s.eng.ops k with
    | none => decide
    | some op => exact op.phase.left_le
  have hPost : s.postLeft k ≤ s.batchLeft + (s.goLeft k + s.eng.queue.tasks.length + 5) := by
    unfold postLeft
    split
    · omega
    · split <;> omega
  unfold stepsLeft
  omega

/-! ## Every step brings the result nearer -/

variable {k : Nat} {f : Frame} {out : GoOut}

/-- A step that brings the result of `k` nearer and leaves its kick-off as it is. -/
def Nearer (k : Nat) (out : GoOut) (s : State) : Prop :=
  ∃ a t, delivers k out s a ∧ s.step a = .ok t ∧ t.cli.kicks = s.cli.kicks ∧
    t.stepsLeft k < s.stepsLeft k

/-- The event loop only moves records from the posted to the processed ones. -/
theorem nearer_of_drain (hPosted : t.thread.processed ++ t.thread.occupied =
      s.thread.processed ++ s.thread.occupied) (hPhase : t.thread.phase = s.thread.phase)
    (hBatch : t.thread.finishedTasks = s.thread.finishedTasks) (hEng : t.eng = s.eng)
    (hDrain : t.drainLeft < s.drainLeft) : t.stepsLeft k < s.stepsLeft k := by
  have hSame : t.postLeft k = s.postLeft k := by
    unfold postLeft batchLeft goLeft ThreadCtx.held
    rw [hPosted, hPhase, hBatch, hEng]
  unfold stepsLeft
  omega

theorem Valid.drain_nearer (hv : s.Valid) (hDrain : s.draining = true) : s.Nearer k out := by
  cases hOccupied : s.thread.occupied with
  | nil =>
    refine ⟨.drain, _, by simp [delivers], drain_last hDrain hOccupied, rfl, ?_⟩
    exact nearer_of_drain rfl rfl rfl rfl (by simp [drainLeft, hDrain, hOccupied])
  | cons r occupied =>
    obtain ⟨cli, mem, hStep, hCli⟩ := hv.drain_next hDrain hOccupied
    refine ⟨.drain, _, by simp [delivers], hStep, ?_, ?_⟩
    · obtain rfl | ⟨f, addr, sc, sc', _, rfl⟩ := hCli
      · rfl
      · rfl
    · exact nearer_of_drain (by simp [hOccupied]) rfl rfl rfl
        (by simp [drainLeft, hDrain, hOccupied])

theorem post_nearer (hDrain : s.draining = false) (hOccupied : s.thread.occupied ≠ [])
    (hPosted : s.thread.posted = true) : s.Nearer k out := by
  refine ⟨.postEvent, _, by simp [delivers], postEvent_eq hPosted hDrain, rfl, ?_⟩
  exact nearer_of_drain rfl rfl rfl rfl (by simp [drainLeft, hDrain, hOccupied])

/-- A goroutine that has not reported has no record on the way. -/
theorem Run.unreported_away (h : Run ok s) {op : Op} (hOp : s.eng.ops k = some op)
    (hOpen : op.phase.unreported = true) : k ∉ s.thread.handed.map TaskRes.op := by
  intro hMem
  obtain ⟨r, hr, rfl⟩ := List.mem_map.mp hMem
  obtain ⟨op', hOp', _, hReported⟩ := h.handed_op hr
  rw [hOp] at hOp'
  cases hOp'
  rw [hOpen] at hReported
  cases hReported

theorem stepsLeft_engine (hAway : k ∉ s.thread.handed.map TaskRes.op) {eng : Engine}
    (hLess : ({ s with eng } : State).goLeft k + eng.queue.tasks.length <
      s.goLeft k + s.eng.queue.tasks.length) :
    ({ s with eng } : State).stepsLeft k < s.stepsLeft k := by
  simp only [ThreadCtx.handed, List.map_append, List.mem_append, not_or] at hAway
  obtain ⟨⟨⟨hProcessed, _⟩, hOccupied⟩, hHeld⟩ := hAway
  have hBatch : ({ s with eng } : State).batchLeft = s.batchLeft := rfl
  have hDrain : ({ s with eng } : State).drainLeft = s.drainLeft := rfl
  simp only [stepsLeft, postLeft, List.map_append, List.mem_append, hProcessed, hOccupied, hHeld,
    or_self, if_false, hBatch, hDrain]
  omega

/-- A report is one record more, but the phase behind it is at least two less. -/
theorem stepsLeft_reported {op : Op} (hOp : s.eng.ops k = some op)
    (hAway : k ∉ s.thread.handed.map TaskRes.op) {r : TaskResult} {phase : Phase}
    (hPhase : phase.left + 1 < op.phase.left) :
    ({ s with eng := s.eng.reportedBy k op r phase } : State).stepsLeft k < s.stepsLeft k := by
  apply stepsLeft_engine hAway
  have hMore : (s.eng.reportedBy k op r phase).queue.tasks.length =
      s.eng.queue.tasks.length + 1 := List.length_append
  rw [goLeft_eq hOp, goLeft_eq (Function.update_self ..), hMore]
  simp only
  omega

/-- A goroutine that has not reported comes nearer to its report. -/
theorem Run.go_nearer (h : Run ok s) {op : Op} (hOp : s.eng.ops k = some op)
    (hOpen : op.phase.unreported = true) : s.Nearer k out := by
  have hAway := h.unreported_away hOp hOpen
  cases hPhase : op.phase with
  | running =>
    refine ⟨.goReturn k out, { s with eng := s.eng.returned k op out }, by simp [delivers], ?_,
      rfl, stepsLeft_engine hAway ?_⟩
    · rw [step, Engine.goReturn_eq hOp hPhase, ok_bind]
    · rw [goLeft_eq hOp, goLeft_eq (Function.update_self ..), GoOut.phase_left, hPhase]
      exact Nat.add_lt_add_right (by decide) _
  | reporting result err =>
    refine ⟨.goReport k, { s with
      eng := s.eng.reportedBy k op ⟨op.taskId, result, err, k⟩ (.deferred none) },
      by simp [delivers], ?_, rfl, stepsLeft_reported hOp hAway ?_⟩
    · rw [step, Engine.goReport_eq hOp hPhase, ok_bind]
    · rw [hPhase]
      exact Nat.one_lt_two
  | deferred panicked =>
    cases panicked with
    | none =>
      rw [hPhase] at hOpen
      cases hOpen
    | some text =>
      refine ⟨.goDefer k, { s with
        eng := s.eng.reportedBy k op ⟨op.taskId, none, some text, k⟩ .finished },
        by simp [delivers], ?_, rfl, stepsLeft_reported hOp hAway ?_⟩
      · rw [step, Engine.reportPanic_eq hOp hPhase, ok_bind]
      · rw [hPhase]
        exact Nat.one_lt_two
  | finished =>
    rw [hPhase] at hOpen
    cases hOpen

theorem encodeAll_op (b : Nat) (rs : List TaskResult) :
    (encodeAll b rs).map TaskRes.op = rs.map TaskResult.op := by
  induction rs generalizing b with
  | nil => rfl
  | cons r rs ih => simp [encodeAll, ih]

theorem encodeAll_length (b : Nat) (rs : List TaskResult) :
    (encodeAll b rs).length = rs.length := by
  have hLength := congrArg List.length (encodeAll_op b rs)
  simpa using hLength

/-- Where the record of a reported operation is while its coroutine waits. -/
theorem Run.record_somewhere (h : Run patient s) {op : Op} (hOp : s.eng.ops k = some op)
    (hReported : op.phase.unreported = false) {co : Nat} (hf : s.cli.frames co = some f)
    (hKick : f.kick = k) (hOccupied : s.thread.occupied = []) :
    k ∈ s.thread.held.map TaskRes.op ∨ k ∈ s.eng.queue.tasks.map TaskResult.op := by
  have hMem := h.ops_perm.mem_iff.mp ((h.reported.mem_iff k op hOp).mpr hReported)
  have hNot := h.waiting_unprocessed co f hf
  rw [hKick] at hNot
  rw [List.mem_append, ThreadCtx.handed, h.calm.running.2.2.2, hOccupied] at hMem
  simp only [List.append_nil, List.map_append, List.mem_append] at hMem
  obtain (hMem | hMem) | hMem := hMem
  · exact absurd hMem hNot
  · exact .inl hMem
  · exact .inr hMem

theorem stepsLeft_quiet (hDrain : s.draining = false) (hOccupied : s.thread.occupied = [])
    (hNot : k ∉ s.thread.processed.map TaskRes.op) : s.stepsLeft k = s.batchLeft +
      if k ∈ s.thread.held.map TaskRes.op then 0
      else s.goLeft k + s.eng.queue.tasks.length + 5 := by
  simp only [stepsLeft, drainLeft, hDrain, hOccupied, Bool.false_eq_true, if_false, if_true,
    postLeft, List.append_nil, if_neg hNot, Nat.zero_add]

/-- The records of the queue, among them that of `k`, go to the wait thread. -/
theorem waiting_nearer (hDrain : s.draining = false) (hOccupied : s.thread.occupied = [])
    (hNot : k ∉ s.thread.processed.map TaskRes.op) (hPhase : s.thread.phase = .waiting)
    (hHeld : s.thread.held = []) (hDone : s.eng.queue.done = true)
    (hMem : k ∈ s.eng.queue.tasks.map TaskResult.op) : s.Nearer k out := by
  refine ⟨.waitReturn, _, by simp [delivers], waitReturn_eq hPhase hDone, rfl, ?_⟩
  rw [stepsLeft_quiet hDrain hOccupied hNot, hHeld]
  apply lt_of_eq_of_lt (stepsLeft_quiet ?_ ?_ ?_)
  · have hBatch := batchLeft_le { s with thread := { s.thread with
      phase := .returned
      finishedTasks := if encodeAll s.eng.queue.nextBuf s.eng.queue.tasks = [] then none
        else some ⟨s.thread.nextBatch, encodeAll s.eng.queue.nextBuf s.eng.queue.tasks⟩ } }
    simp only [ThreadCtx.held, held_returned, encodeAll_length, ThreadPhase.left] at hBatch
    simp only [ThreadCtx.held, held_returned, encodeAll_op, if_pos hMem, List.map_nil,
      List.not_mem_nil, if_false]
    apply lt_of_le_of_lt hBatch
    omega
  · exact hDrain
  · exact hOccupied
  · exact hNot

theorem Run.returned_nearer (h : Run patient s) (hDrain : s.draining = false)
    (hOccupied : s.thread.occupied = []) (hNot : k ∉ s.thread.processed.map TaskRes.op)
    (hPhase : s.thread.phase = .returned) : s.Nearer k out := by
  refine ⟨.threadTest, _, by simp [delivers], h.calm.threadTest_eq hPhase, rfl, ?_⟩
  have hNext : ({ s with thread := { s.thread with phase := .completed } } : State).batchLeft <
      s.batchLeft := by
    rw [batchLeft, batchLeft, hPhase]
    exact Nat.add_lt_add_right Nat.one_lt_two _
  rw [stepsLeft_quiet hDrain hOccupied hNot]
  apply lt_of_eq_of_lt (stepsLeft_quiet ?_ ?_ ?_)
  · exact Nat.add_lt_add_right hNext _
  · exact hDrain
  · exact hOccupied
  · exact hNot

/-- The handler of the completed wait posts the records of the batch. -/
theorem Run.completed_nearer (h : Run patient s) (hDrain : s.draining = false)
    (hOccupied : s.thread.occupied = []) (hNot : k ∉ s.thread.processed.map TaskRes.op)
    (hPhase : s.thread.phase = .completed) : s.Nearer k out := by
  obtain ⟨ph, free, posted, hPh, hStep⟩ := h.threadEvent_next hPhase hDrain
  refine ⟨.threadEvent [] true, _, by simp [delivers], hStep, rfl, ?_⟩
  rw [stepsLeft_quiet hDrain hOccupied hNot]
  apply Nat.add_lt_add_of_lt_of_le
  · rw [batchLeft, hPhase, drainLeft, hDrain, hOccupied, List.nil_append]
    exact Nat.lt_add_of_pos_left Nat.one_pos
  · have hIdle : ph.left = 0 := by
      obtain rfl | rfl := hPh
      · rfl
      · rfl
    simp only [postLeft, batchLeft, hIdle, hOccupied, List.nil_append, List.map_append,
      List.mem_append, hNot, false_or, ThreadCtx.held, Option.map_none, Option.getD_none,
      List.map_nil, List.not_mem_nil, if_true, if_false, Nat.zero_add, goLeft]
    exact le_of_eq (if_congr Iff.rfl rfl rfl)

/-- The wait thread and its handler, once nothing is posted. -/
theorem Run.thread_nearer (h : Run patient s) (hDrain : s.draining = false)
    (hOccupied : s.thread.occupied = []) {op : Op} (hOp : s.eng.ops k = some op)
    (hReported : op.phase.unreported = false) {co : Nat} (hf : s.cli.frames co = some f)
    (hKick : f.kick = k) : s.Nearer k out := by
  have hNot : k ∉ s.thread.processed.map TaskRes.op := hKick ▸ h.waiting_unprocessed co f hf
  have hEmpty : s.thread.finishedTasks = none → s.thread.held = [] := by
    intro hNone
    rw [ThreadCtx.held, hNone]
    rfl
  cases hPhase : s.thread.phase with
  | idle =>
    have hHeld := hEmpty (h.holds.empty (.inl hPhase))
    have hMem := h.owes_nothing.idle hPhase co f hf
    rw [hKick, ThreadCtx.handed, h.calm.running.2.2.2, hOccupied, hHeld] at hMem
    simp only [List.append_nil] at hMem
    exact absurd hMem hNot
  | waiting =>
    have hHeld := hEmpty (h.holds.empty (.inr hPhase))
    obtain hMem | hMem := h.record_somewhere hOp hReported hf hKick hOccupied
    · rw [hHeld] at hMem
      cases hMem
    apply waiting_nearer hDrain hOccupied hNot hPhase hHeld _ hMem
    apply h.queue_done
    intro hNil
    rw [hNil] at hMem
    cases hMem
  | returned => exact h.returned_nearer hDrain hOccupied hNot hPhase
  | completed => exact h.completed_nearer hDrain hOccupied hNot hPhase

/-! ## The result arrives -/

/-- The coroutine of the kick-off got the result of its own operation. -/
def Delivered (k : Nat) (s : State) : Prop := ∃ r, (k, .result r) ∈ s.cli.outcomes ∧ r.op = k

theorem Run.nearer (h : Run patient s) (hf : s.cli.kicks k = some f) (hOpen : ¬ s.Delivered k)
    (out : GoOut) : s.Nearer k out := by
  have hNot : ¬ Answered s.cli.outcomes k := by
    rintro ⟨r, hMem⟩
    exact hOpen ⟨r, hMem, (h.fresh.matched.answered_own (k, r.op) ⟨r, hMem, rfl⟩).symm⟩
  have hFrame := h.waiting_or_answered hf hNot
  obtain ⟨op, hOp⟩ := h.started.kick_op k f hf
  cases hDrain : s.draining with
  | true => exact h.valid.drain_nearer hDrain
  | false =>
    cases hUnreported : op.phase.unreported with
    | true => exact h.go_nearer hOp hUnreported
    | false =>
      obtain hEmpty | hPosted := h.posted hDrain
      · exact h.thread_nearer hDrain hEmpty hOp hUnreported hFrame (h.logged.kick_eq k f hf)
      · cases hOccupied : s.thread.occupied with
        | nil =>
          exact h.thread_nearer hDrain hOccupied hOp hUnreported hFrame (h.logged.kick_eq k f hf)
        | cons r rs => exact post_nearer hDrain (by simp [hOccupied]) hPosted

/-- Whatever the RPC of a kick-off returns, its coroutine gets that result in a
number of steps bounded by the records on the way. -/
theorem result_arrives (h : Run patient s) (hf : s.cli.kicks k = some f) (out : GoOut) :
    Leads step (delivers k out) (Delivered k)
      (s.thread.occupied.length + s.thread.held.length + s.eng.queue.tasks.length + 14) s := by
  apply Leads.mono _ (stepsLeft_le k s)
  apply leads_of_variant (I := fun t => Run patient t ∧ t.cli.kicks k = some f)
  · rintro t ⟨hRun, hKick⟩ hOpen
    obtain ⟨a, u, hDelivers, hStep, hKicks, hLt⟩ := hRun.nearer hKick hOpen out
    have hNext : Run patient u := .tail hRun (patient_of_delivers hDelivers) hStep
    exact ⟨a, u, hDelivers, hStep, ⟨hNext, by rw [hKicks, hKick]⟩, hLt⟩
  · exact ⟨h, hf⟩

/-- Two calls wait, and the batch with the result of the first is on its way. -/
def secondWaits : List Action := [
  .connect (some 1) (.ok []) 50,
  .call 0 1 7 true ⟨true, none, true, some 100, some 10⟩,
  .call 0 2 7 true ⟨true, none, true, some 101, some 11⟩,
  .goReturn 0 (.ok [1]),
  .goReport 0,
  .waitReturn]

theorem result_arrives_secondWaits : ∃ s : State, s.eng.queue.tasks = [] ∧
    s.thread.phase = .returned ∧ Leads step (delivers 1 (.err [101])) (Delivered 1) 15 s := by
  have hRun := run_after patient secondWaits (by decide +kernel)
  exact ⟨_, by decide +kernel, by decide +kernel,
    result_arrives hRun (f := ⟨1, 2, .call, 11, 0⟩) (by decide +kernel) _⟩

end State

end GrpcClient
