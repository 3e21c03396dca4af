import GrpcClient.Engine

/-! # What the functions of the engine change

Each exported function and each piece of a goroutine as one record update, so
that the fields it leaves alone are visible.
-/

namespace GrpcClient

def GoOut.phase (out : GoOut) (kind : OpKind) : Phase :=
  match out, kind with
  | .ok bytes, .call | .ok bytes, .recv => .reporting (bufferBytes bytes) none
  | .ok _, _ => .reporting none none
  | .err text, _ => .reporting none (some text)
  | .panic text, _ => .deferred (some text)

theorem GoOut.phase_unreported (out : GoOut) (kind : OpKind) :
    (out.phase kind).unreported = true := by
  unfold GoOut.phase
  split <;> rfl

theorem GoOut.phase_ne_running (out : GoOut) (kind : OpKind) : out.phase kind ≠ .running := by
  unfold GoOut.phase
  split <;> simp

theorem GoOut.ok_of_phase {out : GoOut} {kind : OpKind} {result : Option Bytes}
    (h : out.phase kind = .reporting result none) : ∃ bytes, out = .ok bytes := by
  unfold GoOut.phase at h
  split at h
  · exact ⟨_, rfl⟩
  · exact ⟨_, rfl⟩
  · exact ⟨_, rfl⟩
  · cases h
  · cases h

/-- The streams after operation `k` ended: a successful open stores its own. -/
def GoOut.streamRef (out : GoOut) (streamRef : Ptr → Option Nat) (k : Nat) (op : Op) :
    Ptr → Option Nat :=
  match out, op.kind with
  | .ok _, .newStream => Function.update streamRef op.taskId (some k)
  | _, _ => streamRef

def GoOut.taken (out : GoOut) (k : Nat) (op : Op) : List Taken :=
  match out, op.kind with
  | .ok bytes, .recv => [⟨op.stream, k, bytes⟩]
  | _, _ => []

namespace Engine

variable {e e' : Engine}

def closedRef (e : Engine) (ref : Option Ptr) : Engine :=
  { e with
    engineCtxRef := ref.elim e.engineCtxRef fun p => Function.update e.engineCtxRef p none
    closedConns := e.closedConns ++ (ref.bind e.engineCtxRef).toList }

theorem grpcEngineClose_eq (ref : Ptr) : e.grpcEngineClose ref = e.closedRef (some ref) := by
  unfold grpcEngineClose closedRef
  split
  · rename_i hNone
    simp only [Option.elim_some, Option.bind_some, hNone, Option.toList_none, List.append_nil]
    rw [← hNone, Function.update_eq_self]
  · rename_i c hSome
    simp [hSome]

def closedStream (e : Engine) (sctx : Ptr) : Engine :=
  { e with
    streamRef := Function.update e.streamRef sctx none
    closedStreams := e.closedStreams ++ (e.streamRef sctx).toList }

theorem grpcEngineCloseStream_eq (sctx : Ptr) :
    e.grpcEngineCloseStream sctx = e.closedStream sctx := by
  unfold grpcEngineCloseStream closedStream
  split
  · rename_i hNone
    simp only [hNone, Option.toList_none, List.append_nil]
    rw [← hNone, Function.update_eq_self]
  · rename_i c hSome
    simp [hSome]

def returned (e : Engine) (k : Nat) (op : Op) (out : GoOut) : Engine :=
  { e with
    ops := Function.update e.ops k (some { op with phase := out.phase op.kind })
    streamRef := out.streamRef e.streamRef k op
    taken := e.taken ++ out.taken k op }

theorem goReturn_ok {k : Nat} {out : GoOut} (h : e.goReturn k out = .ok e') : ∃ op,
    e.ops k = some op ∧ op.phase = .running ∧ e' = e.returned k op out := by
  unfold goReturn at h
  split at h
  · rename_i op hOp
    split at h
    · rename_i hRun
      refine ⟨op, hOp, hRun, ?_⟩
      cases out with
      | ok bytes =>
        cases h
        cases op with | mk taskId kind conn stream phase =>
        cases kind <;> simp [succeed, returned, setPhase, GoOut.phase, GoOut.streamRef, GoOut.taken]
      | err text =>
        cases h
        simp [returned, setPhase, GoOut.phase, GoOut.streamRef, GoOut.taken]
      | panic text =>
        cases h
        simp [returned, setPhase, GoOut.phase, GoOut.streamRef, GoOut.taken]
    · cases h
  · cases h

theorem goReturn_eq {k : Nat} {op : Op} (hOp : e.ops k = some op) (hRun : op.phase = .running)
    (out : GoOut) : e.goReturn k out = .ok (e.returned k op out) := by
  have hTotal : ∃ e', e.goReturn k out = .ok e' := by
    unfold goReturn
    simp only [hOp, hRun, if_true]
    cases out with
    | ok bytes => exact ⟨_, rfl⟩
    | err text => exact ⟨_, rfl⟩
    | panic text => exact ⟨_, rfl⟩
  obtain ⟨e', hReturn⟩ := hTotal
  obtain ⟨op', hOp', _, rfl⟩ := goReturn_ok hReturn
  rw [hOp] at hOp'
  cases hOp'
  exact hReturn

def reportedBy (e : Engine) (k : Nat) (op : Op) (r : TaskResult) (phase : Phase) : Engine :=
  { e with
    ops := Function.update e.ops k (some { op with phase })
    queue := e.queue.reportFinishedTask r
    reported := e.reported ++ [r] }

theorem goReport_ok {k : Nat} (h : e.goReport k = .ok e') : ∃ op result err,
    e.ops k = some op ∧ op.phase = .reporting result err ∧
      e' = e.reportedBy k op ⟨op.taskId, result, err, k⟩ (.deferred none) := by
  unfold goReport at h
  split at h
  · rename_i op hOp
    split at h
    · rename_i result err hPhase
      cases h
      exact ⟨op, result, err, hOp, hPhase, rfl⟩
    · cases h
  · cases h

theorem reportPanic_ok {k : Nat} (h : e.reportPanic k = .ok e') : ∃ op, e.ops k = some op ∧
    (op.phase = .deferred none ∧ e' = e.setPhase k op .finished ∨
      ∃ text, op.phase = .deferred (some text) ∧
        e' = e.reportedBy k op ⟨op.taskId, none, some text, k⟩ .finished) := by
  unfold reportPanic at h
  split at h
  · rename_i op hOp
    refine ⟨op, hOp, ?_⟩
    split at h
    · rename_i hPhase
      cases h
      exact .inl ⟨hPhase, rfl⟩
    · rename_i text hPhase
      cases h
      exact .inr ⟨text, hPhase, rfl⟩
    · cases h
  · cases h

theorem goReport_eq {k : Nat} {op : Op} {result err : Option Bytes} (hOp : e.ops k = some op)
    (hPhase : op.phase = .reporting result err) :
    e.goReport k = .ok (e.reportedBy k op ⟨op.taskId, result, err, k⟩ (.deferred none)) := by
  simp only [goReport, hOp, hPhase]
  rfl

theorem reportPanic_eq {k : Nat} {op : Op} {text : Bytes} (hOp : e.ops k = some op)
    (hPhase : op.phase = .deferred (some text)) :
    e.reportPanic k = .ok (e.reportedBy k op ⟨op.taskId, none, some text, k⟩ .finished) := by
  simp only [reportPanic, hOp, hPhase]
  rfl

theorem openOp_ok {k : Nat} {kind : OpKind} {taskId ref : Ptr}
    (h : e.openOp k kind taskId ref = .ok e') : ∃ c,
      e.engineCtxRef ref = some c ∧ e' = e.start k ⟨taskId, kind, c, k, .running⟩ := by
  unfold openOp at h
  split at h
  · cases h
  · cases h
    exact ⟨_, ‹_›, rfl⟩

theorem streamOp_ok {k : Nat} {kind : OpKind} {sctx : Ptr} (h : e.streamOp k kind sctx = .ok e') :
    ∃ st, e.streamRef sctx = some st ∧ e' = e.start k ⟨sctx, kind, 0, st, .running⟩ := by
  unfold streamOp at h
  split at h
  · cases h
  · cases h
    exact ⟨_, ‹_›, rfl⟩

end Engine

end GrpcClient
