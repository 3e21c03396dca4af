import GrpcClient.InitWorker

/-! # Blocking calls

A blocking call looks at no task id, so the record it takes is its own only if
nobody else reports while it waits. The record is then read by other code than
the one of a yielding call, and the two differ on an empty response.
-/

namespace GrpcClient

open Fallible

namespace InitWorker

open PartialMap

variable {b t : InitWorker} {ok : InitWorker → Action → Prop}

/-! ## The record of a call -/

def starts (b : InitWorker) : Action → Option Nat
  | .call g taskId =>
    match b.call g taskId with
    | .ok t => t.current
    | .error _ => none
  | _ => none

def reports (b : InitWorker) : Action → Option Nat
  | .goReport k => some k
  | .goDefer k => if (b.st.eng.ops k).any fun op => op.phase.unreported then some k else none
  | _ => none

/-- No call starts while a record is left in the queue, nothing but the call in
progress reports, and its response is not empty. -/
def ownRecords (b : InitWorker) (a : Action) : Prop :=
  (∀ _ ∈ b.starts a, b.st.eng.queue.tasks = []) ∧
  (∀ k ∈ b.reports a, ∀ k' ∈ b.current, k = k') ∧
  ∀ k ∈ b.current, a ≠ .goReturn k (.ok [])

instance (b : InitWorker) (a : Action) : Decidable (b.ownRecords a) :=
  inferInstanceAs (Decidable ((∀ _ ∈ b.starts a, _) ∧ (∀ k ∈ b.reports a, _) ∧ ∀ k ∈ b.current, _))

/-- What the engine reported of a call, as the call reads it. -/
def Reads (r : TaskResult) (res : CallResult) : Prop := (r.encode 0).blockingResult = .ok res

theorem blockingResult_encode (n : Nat) (r : TaskResult) :
    (r.encode n).blockingResult = (r.encode 0).blockingResult := by
  unfold TaskResult.encode
  cases r.err <;> cases r.result <;> rfl

theorem reads_of_report (r : TaskResult) (h : ¬ (r.result = none ∧ r.err = none)) :
    ∃ res, Reads r res := by
  unfold Reads TaskResult.encode
  cases hErr : r.err with
  | some text => exact ⟨_, rfl⟩
  | none =>
    cases hResult : r.result with
    | some out => exact ⟨_, rfl⟩
    | none => exact absurd ⟨hResult, hErr⟩ h

/-- While call `k` waits, the queue is empty until `k` reports, and then it holds
that report. -/
inductive Waits (k : Nat) (ops : Nat → Option Op) (tasks reported : List TaskResult) : Prop
  | working {op : Op} (hOp : ops k = some op) (hKind : op.kind = .call)
      (hPhase : op.phase.unreported = true) (hAnswer : op.phase ≠ .reporting none none) (hTasks : tasks = [])
  | done {op : Op} {r : TaskResult} {res : CallResult} (hOp : ops k = some op)
      (hPhase : op.phase.unreported = false) (hTasks : tasks = [r]) (hMem : r ∈ reported)
      (hOwn : r.op = k) (hReads : Reads r res)

structure Inv (b : InitWorker) : Prop where
  waits : ∀ k, b.current = some k →
    Waits k b.st.eng.ops b.st.eng.queue.tasks b.st.eng.reported
  log : ∀ k res, (k, res) ∈ b.log → res ≠ .closed → res ≠ .timeout →
    ∃ r ∈ b.st.eng.reported, r.op = k ∧ Reads r res
  dropped : b.dropped = []

theorem Waits.unreported {k : Nat} {ops : Nat → Option Op} {tasks reported : List TaskResult}
    (h : Waits k ops tasks reported) {op : Op} (hOp : ops k = some op)
    (hPhase : op.phase.unreported = true) :
    op.kind = .call ∧ op.phase ≠ .reporting none none ∧ tasks = [] := by
  cases h with
  | working hOp' hKind _ hAnswer hTasks =>
    rw [hOp] at hOp'
    cases hOp'
    exact ⟨hKind, hAnswer, hTasks⟩
  | done hOp' hReported =>
    rw [hOp] at hOp'
    cases hOp'
    rw [hPhase] at hReported
    cases hReported

theorem Waits.other {k k' : Nat} {ops : Nat → Option Op} {tasks reported : List TaskResult}
    (h : Waits k ops tasks reported) (hNe : k ≠ k') (v : Option Op) :
    Waits k (Function.update ops k' v) tasks reported := by
  cases h with
  | working hOp hKind hPhase hAnswer hTasks =>
    exact .working (update_of_some hOp hNe) hKind hPhase hAnswer hTasks
  | done hOp hPhase hTasks hMem hOwn hReads =>
    exact .done (update_of_some hOp hNe) hPhase hTasks hMem hOwn hReads

theorem Waits.report {k k' : Nat} {ops : Nat → Option Op} {q : TaskQueue}
    {reported : List TaskResult} (h : Waits k ops q.tasks reported) {op : Op} (hOp : ops k' = some op)
    (hPhase : op.phase.unreported = true) (hOwn : k' = k) {result err : Option Bytes}
    (hAnswer : result = none ∧ err = none → op.phase = .reporting none none) {phase : Phase}
    (hDone : phase.unreported = false) :
    Waits k (Function.update ops k' (some { op with phase }))
      (q.reportFinishedTask ⟨op.taskId, result, err, k'⟩).tasks
      (reported ++ [⟨op.taskId, result, err, k'⟩]) := by
  subst hOwn
  obtain ⟨_, hNot, hTasks⟩ := h.unreported hOp hPhase
  obtain ⟨res, hReads⟩ := reads_of_report ⟨op.taskId, result, err, k'⟩ fun hNone =>
    hNot (hAnswer hNone)
  refine .done (Function.update_self ..) hDone ?_ ?_ rfl hReads
  · simp [TaskQueue.reportFinishedTask, TaskQueue.signal, hTasks]
  · exact List.mem_append_right _ (List.mem_singleton_self _)

theorem phase_call_answers {out : GoOut} (h : out ≠ .ok []) :
    out.phase .call ≠ .reporting none none := by
  cases out with
  | ok bytes =>
    have hBytes : bytes ≠ [] := by
      rintro rfl
      exact h rfl
    simp [GoOut.phase, bufferBytes, hBytes]
  | err text => simp [GoOut.phase]
  | panic text => simp [GoOut.phase]

theorem log_mono {log : List (Nat × CallResult)} {reported : List TaskResult} {x : TaskResult}
    (h : ∀ k res, (k, res) ∈ log → res ≠ .closed → res ≠ .timeout →
      ∃ r ∈ reported, r.op = k ∧ Reads r res) :
    ∀ k res, (k, res) ∈ log → res ≠ .closed → res ≠ .timeout →
      ∃ r ∈ reported ++ [x], r.op = k ∧ Reads r res := by
  intro k res hMem hClosed hTimeout
  obtain ⟨r, hr, hOwn⟩ := h k res hMem hClosed hTimeout
  exact ⟨r, List.mem_append_left _ hr, hOwn⟩

theorem Waits.batch {k : Nat} {ops : Nat → Option Op} {q q' : TaskQueue}
    {reported : List TaskResult} (h : Waits k ops q.tasks reported) {recs : List TaskRes}
    (hWait : q.wait = some (recs, q')) :
    recs = [] ∨ ∃ r res, recs = [r.encode q.nextBuf] ∧ r ∈ reported ∧ r.op = k ∧ Reads r res := by
  unfold TaskQueue.wait at hWait
  split at hWait
  · cases hWait
    cases h with
    | working _ _ _ _ hTasks =>
      rw [hTasks]
      exact .inl rfl
    | @done _ r res _ _ hTasks hMem hOwn hReads =>
      rw [hTasks]
      exact .inr ⟨r, res, rfl, hMem, hOwn, hReads⟩
  · cases hWait

theorem Change.inv {a : Action} (hInv : b.Inv) (hOk : b.ownRecords a) (hStep : b.step a = .ok t)
    (h : b.Change a t) : t.Inv := by
  cases h with
  | between hIdle hStep hSame =>
    refine ⟨fun k hk => ?_, ?_, hInv.dropped⟩
    · rw [hIdle] at hk
      cases hk
    · rw [hSame.reported]
      exact hInv.log
  | closed hIdle =>
    refine ⟨fun k hk => ?_, fun k res hMem hClosed => ?_, hInv.dropped⟩
    · rw [endsClosed, hIdle] at hk
      cases hk
    · rcases List.mem_append.mp hMem with hMem | hMem
      · exact hInv.log k res hMem hClosed
      · cases List.mem_singleton.mp hMem
        exact absurd rfl hClosed
  | @call g taskId ref hd cc n hIdle hHd hcc hEngine hRef =>
    have hEmpty : b.st.eng.queue.tasks = [] := by
      refine hOk.1 b.st.cli.nextKick ?_
      simp only [step] at hStep
      simp [starts, hStep]
    refine ⟨fun k hk => ?_, hInv.log, hInv.dropped⟩
    cases hk
    exact .working (Function.update_self ..) rfl rfl (by simp) hEmpty
  | @goReturn k' out op hOp hRun =>
    refine ⟨fun k hk => ?_, hInv.log, hInv.dropped⟩
    have hWaits := hInv.waits k hk
    by_cases hEq : k = k'
    · subst hEq
      obtain ⟨hKind, _, hTasks⟩ := hWaits.unreported hOp (by rw [hRun]; rfl)
      refine .working (Function.update_self ..) hKind (GoOut.phase_unreported ..) ?_ hTasks
      rw [hKind]
      refine phase_call_answers fun hEmpty => hOk.2.2 k hk ?_
      rw [hEmpty]
    · exact hWaits.other hEq _
  | @goReport k' op result err hOp hPhase =>
    refine ⟨fun k hk => ?_, log_mono hInv.log, hInv.dropped⟩
    refine (hInv.waits k hk).report hOp (by rw [hPhase]; rfl) (hOk.2.1 k' rfl k hk) ?_ rfl
    rintro ⟨rfl, rfl⟩
    exact hPhase
  | @goPanic k' op text hOp hPhase =>
    refine ⟨fun k hk => ?_, log_mono hInv.log, hInv.dropped⟩
    refine (hInv.waits k hk).report hOp (by rw [hPhase]; rfl) (hOk.2.1 k' ?_ k hk) ?_ rfl
    · simp [reports, hOp, hPhase, Phase.unreported]
    · rintro ⟨_, hNone⟩
      cases hNone
  | @goDone k' op hOp hPhase =>
    refine ⟨fun k hk => ?_, hInv.log, hInv.dropped⟩
    have hWaits := hInv.waits k hk
    by_cases hEq : k = k'
    · subst hEq
      cases hWaits with
      | working hOp' _ hUnreported =>
        rw [hOp] at hOp'
        cases hOp'
        rw [hPhase] at hUnreported
        cases hUnreported
      | done _ _ hTasks hMem hOwn hReads =>
        exact .done (Function.update_self ..) rfl hTasks hMem hOwn hReads
    · exact hWaits.other hEq _
  | timerFires => exact ⟨hInv.waits, hInv.log, hInv.dropped⟩
  | timerSignals => exact ⟨hInv.waits, hInv.log, hInv.dropped⟩
  | @waitReturn k recs queue res hCurrent hWait hRes =>
    refine ⟨fun k hk => ?_, fun k' res' hMem hClosed hTimeout => ?_, ?_⟩
    · cases hk
    · rcases List.mem_append.mp hMem with hMem | hMem
      · exact hInv.log k' res' hMem hClosed hTimeout
      · cases List.mem_singleton.mp hMem
        rcases (hInv.waits k hCurrent).batch hWait with rfl | ⟨r, _, rfl, hr, hOwn, _⟩
        · cases hRes
          exact absurd rfl hTimeout
        · refine ⟨r, hr, hOwn, ?_⟩
          rw [Reads, ← blockingResult_encode b.st.eng.queue.nextBuf]
          exact hRes
    · rcases (hInv.waits k hCurrent).batch hWait with rfl | ⟨r, _, rfl, _⟩
      · simpa using hInv.dropped
      · simpa using hInv.dropped

theorem Run.inv (h : Run ownRecords b) : b.Inv := by
  refine h.induct (P := Inv) ⟨?_, ?_, rfl⟩ fun b a t hInv hOk hStep hChange =>
    hChange.inv hInv hOk hStep
  · rintro k ⟨⟩
  · rintro k res ⟨⟩

/-! ## A blocking call returns its own result -/

/-- What a call returns is what the engine reported for it, no record is thrown
away, and the call that waits returns. -/
structure OwnResults (b : InitWorker) : Prop where
  own : ∀ k res, (k, res) ∈ b.log → res ≠ .closed → res ≠ .timeout →
    ∃ r ∈ b.st.eng.reported, r.op = k ∧ (r.encode 0).blockingResult = .ok res
  examined : b.dropped = []
  returns : ∀ fault, b.step .waitReturn ≠ .error (.fault fault)

theorem Inv.returns (h : b.Inv) (fault : Fault) : b.step .waitReturn ≠ .error (.fault fault) := by
  intro hFault
  simp only [step, waitReturn] at hFault
  split at hFault
  · cases hFault
  · rename_i k hCurrent
    split at hFault
    · cases hFault
    · rename_i recs queue hWait
      rcases bind_eq_error hFault with hBatch | ⟨_, _, hFault⟩
      · rcases (h.waits k hCurrent).batch hWait with rfl | ⟨r, res, rfl, _, _, hReads⟩
        · cases hBatch
        · rw [CallResult.ofBatch, blockingResult_encode, hReads] at hBatch
          cases hBatch
      · cases hFault

theorem own_results (h : Run ownRecords b) : b.OwnResults :=
  ⟨h.inv.log, h.inv.dropped, h.inv.returns⟩

def twoCalls : List Action := [
  .connect (some 1) (.ok []) 50,
  .call 0 10,
  .goReturn 0 (.ok [1]),
  .goReport 0,
  .waitReturn,
  .call 0 10,
  .goReturn 1 (.err [2]),
  .goReport 1,
  .waitReturn]

theorem own_results_twoCalls : ∃ b : InitWorker,
    b.log = [(0, .output [1]), (1, .failed [2])] ∧ b.OwnResults := by
  have hRun := run_after ownRecords twoCalls (by decide +kernel)
  exact ⟨_, by decide +kernel, own_results hRun⟩

/-- The wait of the first call times out before its RPC ends, and the second
call finds the record of the first. -/
def lateRecord : List Action := [
  .connect (some 1) (.ok []) 50,
  .call 0 10,
  .timerFires 0,
  .timerSignals 0,
  .waitReturn,
  .goReturn 0 (.ok [1]),
  .goReport 0,
  .call 0 10,
  .waitReturn]

theorem second_call_returns_first_result : ∃ b, Reachable b ∧ ¬ b.OwnResults := by
  have hRun := run_after (fun _ _ => True) lateRecord (by decide +kernel)
  refine ⟨_, hRun, fun hOwn => ?_⟩
  obtain ⟨r, hr, hOp, _⟩ := hOwn.own 1 (.output [1]) (by decide +kernel) (by simp) (by simp)
  revert r
  decide +kernel

end InitWorker

/-! ## Blocking and yielding calls -/

/-- What `call_with_pb_state` goes on with: the bytes for `pb.decode`, which takes
nil for the empty message, or the error that it returns. -/
inductive LuaCall
  | decode (bytes : Bytes)
  | error (text : Bytes)
deriving DecidableEq, Repr

/-- The text "failed to call: ". -/
def failedToCall : Bytes := [102, 97, 105, 108, 101, 100, 32, 116, 111, 32, 99, 97, 108, 108, 58, 32]

/-- The text "closed". -/
def closedMsg : Bytes := [99, 108, 111, 115, 101, 100]

/-- `call_with_pb_state` after a blocking call. -/
def CallResult.lua : CallResult → LuaCall
  | .closed => .error (failedToCall ++ closedMsg)
  | .timeout => .error (failedToCall ++ timeoutMsg)
  | .output data => .decode data
  | .failed text => .error (failedToCall ++ text)

/-- `call_with_pb_state` after `coroutine._yield()`. -/
def Reply.lua : Reply → LuaCall
  | .ok payload => .decode (payload.getD [])
  | .fail msg => .error (failedToCall ++ msg)

/-- An error text as `err_buf` can hold it. -/
def Reply.truncated : Reply → Reply
  | .ok payload => .ok payload
  | .fail msg => .fail (msg.take errBufSize)

/-- The engine's side of one call: the RPC ends with `out`, and nothing else is
reported before the records are fetched. -/
def callBatch (e : Engine) (k : Nat) (taskId ref : Ptr) (out : GoOut) :
    Except Stop (List TaskRes) := do
  let e ← e.grpcEngineCall k taskId ref
  let e ← e.goReturn k out
  let e ← match out with
    | .panic _ => e.reportPanic k
    | .ok _ | .err _ => e.goReport k
  match e.queue.wait with
  | none => .error .blocked
  | some (recs, _) => .ok recs

/-- The blocking branch of `ngx_grpc_cli_call` on such a call. -/
def blockingCall (e : Engine) (k : Nat) (taskId ref : Ptr) (out : GoOut) :
    Except Stop LuaCall := do
  let recs ← callBatch e k taskId ref out
  let res ← CallResult.ofBatch recs
  .ok res.lua

/-- The yielding branch: the record is stored in the sctx and pushed for the
coroutine by `ngx_grpc_cli_put_res`. -/
def yieldingCall (e : Engine) (s : Cli) (k : Nat) (p ref : Ptr) (out : GoOut) :
    Except Stop Reply := do
  let recs ← callBatch e k p ref out
  let r ← nonNull recs.head?
  let sc ← deref s.sctxs p
  let (reply, _, _) ← (s.setSctx p { sc with res := some r }).putRes p
  .ok reply

/-- Both branches come through, and Lua sees the same. -/
def CallsAgree (out : GoOut) : Prop :=
  ∀ (e : Engine) (s : Cli) (k k' co : Nat) (taskId ref : Ptr) (f : Frame),
    (e.engineCtxRef ref).isSome → e.queue.tasks = [] → s.Inv → s.frames co = some f →
    f.op = .call → ∃ reply, yieldingCall e s k f.sctx ref out = .ok reply ∧
      blockingCall e k' taskId ref out = .ok reply.truncated.lua

def GoOut.callResult (out : GoOut) (taskId : Ptr) (k : Nat) : TaskResult :=
  match out with
  | .ok bytes => ⟨taskId, bufferBytes bytes, none, k⟩
  | .err text | .panic text => ⟨taskId, none, some text, k⟩

theorem callBatch_eq {e : Engine} {k : Nat} {taskId ref : Ptr} {out : GoOut}
    (hRef : (e.engineCtxRef ref).isSome) (hTasks : e.queue.tasks = []) :
    callBatch e k taskId ref out = .ok [(out.callResult taskId k).encode e.queue.nextBuf] := by
  obtain ⟨n, hRef⟩ := Option.isSome_iff_exists.mp hRef
  cases out <;>
    simp [callBatch, Engine.grpcEngineCall, Engine.openOp, hRef, Engine.start, Engine.goReturn,
      Engine.succeed, Engine.setPhase, Engine.goReport, Engine.reportPanic,
      Engine.reportFinishedTask, TaskQueue.reportFinishedTask, TaskQueue.signal, TaskQueue.wait,
      hTasks, encodeAll, GoOut.callResult]

/-- The two decoders agree on every record but the one without a payload. -/
theorem blockingResult_reply {r : TaskResult} (n : Nat) (h : ¬ (r.result = none ∧ r.err = none)) :
    ∃ res, (r.encode n).blockingResult = .ok res ∧ res.lua = (r.encode n).reply.truncated.lua := by
  unfold TaskResult.encode
  cases hErr : r.err with
  | some text => exact ⟨_, rfl, rfl⟩
  | none =>
    cases hResult : r.result with
    | some out => exact ⟨_, rfl, rfl⟩
    | none => exact absurd ⟨hResult, hErr⟩ h

theorem yieldingCall_eq {e : Engine} {s : Cli} {k co : Nat} {ref : Ptr} {f : Frame} {out : GoOut}
    (hRef : (e.engineCtxRef ref).isSome) (hTasks : e.queue.tasks = []) (hInv : s.Inv)
    (hf : s.frames co = some f) : yieldingCall e s k f.sctx ref out =
      .ok ((out.callResult f.sctx k).encode e.queue.nextBuf).reply := by
  obtain ⟨sc, _, hsc, _, _, hState, _⟩ := hInv.suspended.frame_sctx co f hf
  have hHome := hInv.homed hf hsc
  let r := (out.callResult f.sctx k).encode e.queue.nextBuf
  have hPut := Cli.putRes_eq (s := s.setSctx f.sctx { sc with res := some r })
    { sc with res := some r } (Function.update_self ..) hHome (.inr ⟨hState, r, rfl, rfl, rfl⟩)
  rw [yieldingCall, callBatch_eq hRef hTasks, ok_bind, List.head?_cons, nonNull_some, ok_bind,
    deref_eq hsc, ok_bind, hPut, ok_bind]

theorem callResult_answers {out : GoOut} (h : out ≠ .ok []) (taskId : Ptr) (k : Nat) :
    ¬ ((out.callResult taskId k).result = none ∧ (out.callResult taskId k).err = none) := by
  rintro ⟨hResult, hErr⟩
  cases out with
  | ok bytes =>
    have hBytes : bytes ≠ [] := by
      rintro rfl
      exact h rfl
    simp [GoOut.callResult, bufferBytes, hBytes] at hResult
  | err text => cases hErr
  | panic text => cases hErr

/-- An empty response is reported without a payload, which the blocking branch
does not expect. -/
theorem blockingCall_empty {e : Engine} {k : Nat} {taskId ref : Ptr}
    (hRef : (e.engineCtxRef ref).isSome) (hTasks : e.queue.tasks = []) :
    blockingCall e k taskId ref (.ok []) = .error (.fault .assertFailed) := by
  rw [blockingCall, callBatch_eq hRef hTasks]
  rfl

def dialled : Engine := (Engine.init.grpcEngineConnect (.ok []) 50).2

theorem CallsAgree.not_empty {out : GoOut} (h : CallsAgree out) : out ≠ .ok [] := by
  rintro rfl
  have hRun := State.run_after (fun _ _ => True) State.twoCalls (by decide +kernel)
  obtain ⟨reply, _, hBlocking⟩ := h dialled _ 0 0 2 10 50 ⟨1, 2, .call, 11, 0⟩ (by decide) rfl
    hRun.valid.cli (by decide +kernel) rfl
  rw [blockingCall_empty (by decide) rfl] at hBlocking
  cases hBlocking

/-- Neither the address nor the number of the task reaches Lua. -/
theorem reply_callResult (out : GoOut) (taskId taskId' : Ptr) (k k' n : Nat) :
    ((out.callResult taskId k).encode n).reply = ((out.callResult taskId' k').encode n).reply := by
  cases out with
  | ok bytes => by_cases hBytes : bytes = [] <;> simp [GoOut.callResult, bufferBytes, hBytes] <;> rfl
  | err text => rfl
  | panic text => rfl

theorem calls_agree (out : GoOut) : CallsAgree out ↔ out ≠ .ok [] := by
  constructor
  · exact CallsAgree.not_empty
  · intro hOut e s k k' co taskId ref f hRef hTasks hInv hf _
    refine ⟨_, yieldingCall_eq hRef hTasks hInv hf, ?_⟩
    obtain ⟨res, hRes, hLua⟩ := blockingResult_reply e.queue.nextBuf
      (callResult_answers hOut taskId k')
    rw [blockingCall, callBatch_eq hRef hTasks, ok_bind, CallResult.ofBatch, hRes, ok_bind, hLua,
      reply_callResult out taskId f.sctx k' k]

theorem empty_response_asserts : ¬ CallsAgree (.ok []) := fun h => h.not_empty rfl

end GrpcClient
