import GrpcClient.Ownership
import GrpcClient.Streams

/-! # Streams that nobody can close

The goroutine of an open stores its stream in `StreamRef` before it reports, and
only the handle that Lua makes from the report ever closes it. An entry is
therefore held by the coroutine that waits for the open, and then by the handle.
An open that succeeds after its wait is over, or whose wait ends without a
handle after it has succeeded, leaves an entry that nothing holds.
-/

namespace GrpcClient.State

open PartialMap

variable {s t : State} {ok : State → Action → Prop}

/-! ## Who holds an entry -/

def opened (s : State) : Action → Option (Nat × Op)
  | .goReturn k (.ok _) =>
    ((s.eng.ops k).filter fun op => decide (op.kind = .newStream)).map fun op => (k, op)
  | _ => none

/-- A wait for an open ends without a handle only before the stream is stored,
and a stream is stored only while its coroutine waits or its handle is open. -/
def noLateOpen (s : State) (a : Action) : Prop :=
  (∀ f ∈ s.leaks a, s.eng.streamRef f.sctx ≠ some f.kick) ∧
  ∀ x ∈ s.opened a, (∃ f ∈ s.cli.suspended, f.kick = x.1) ∨
    s.cli.streams x.1 = some ⟨x.2.taskId, false⟩

instance (s : State) (a : Action) : Decidable (s.noLateOpen a) :=
  inferInstanceAs (Decidable ((∀ f ∈ s.leaks a, _) ∧ ∀ x ∈ s.opened a, _))

def Held (frames : Nat → Option Frame) (streams : Nat → Option Handle)
    (streamRef : Ptr → Option Nat) : Prop :=
  ∀ p k, streamRef p = some k → streams k = some ⟨p, false⟩ ∨
    ∃ co f, frames co = some f ∧ f.op = .newStream ∧ f.kick = k ∧ f.sctx = p

theorem Held.settle {streams : Nat → Option Handle} {streamRef : Ptr → Option Nat} {f : Frame}
    (h : Held s.cli.frames s.cli.streams streamRef) (hf : s.cli.frames f.co = some f)
    (hKeep : ∀ k hd, s.cli.streams k = some hd → streams k = some hd)
    (hOwn : f.op = .newStream → streamRef f.sctx = some f.kick →
      streams f.kick = some ⟨f.sctx, false⟩) :
    Held (Function.update s.cli.frames f.co none) streams streamRef := by
  intro p k hRef
  rcases h p k hRef with hHd | ⟨co, f', hf', hOp, rfl, rfl⟩
  · exact .inl (hKeep k _ hHd)
  · by_cases hEq : co = f.co
    · subst hEq
      rw [hf] at hf'
      cases hf'
      exact .inl (hOwn hOp hRef)
    · exact .inr ⟨co, f', update_none_iff.mpr ⟨hEq, hf'⟩, hOp, rfl, rfl⟩

theorem Held.drop {frames : Nat → Option Frame} {streams : Nat → Option Handle}
    {streamRef : Ptr → Option Nat} (h : Held frames streams streamRef) {k : Nat} {hd : Handle}
    (hHd : streams k = some hd) (v : Option Handle) :
    Held frames (Function.update streams k v) (Function.update streamRef hd.ctx none) := by
  intro p k' hRef
  obtain ⟨hNe, hRef⟩ := update_none_iff.mp hRef
  rcases h p k' hRef with hHd' | hFrame
  · refine .inl (update_of_some hHd' ?_)
    rintro rfl
    rw [hHd] at hHd'
    cases hHd'
    exact hNe rfl
  · exact .inr hFrame

theorem Run.opened_held (hRun : Run ok s) {k : Nat} {op : Op} (hOp : s.eng.ops k = some op)
    (hNew : op.kind = .newStream) {bytes : Bytes} (hOk : s.noLateOpen (.goReturn k (.ok bytes))) :
    s.cli.streams k = some ⟨op.taskId, false⟩ ∨
      ∃ co f, s.cli.frames co = some f ∧ f.op = .newStream ∧ f.kick = k ∧ f.sctx = op.taskId := by
  rcases hOk.2 (k, op) (by simp [opened, hOp, hNew]) with ⟨f, hf, hKick⟩ | hHd
  · have hf := hRun.valid.mem_suspended.mp hf
    obtain ⟨f', hf', hSctx, hKind⟩ := hRun.started.op_kick k op hOp
    have hOwn := (hRun.pending hf).1
    rw [hKick] at hOwn
    rw [hOwn] at hf'
    cases hf'
    exact .inr ⟨f.co, f, hf, hKind.trans hNew, hKick, hSctx⟩
  · exact .inl hHd

theorem Change.held (hRun : Run ok s) (h : Held s.cli.frames s.cli.streams s.eng.streamRef)
    {a : Action} (hOk : s.noLateOpen a) (hChange : s.Change a t) :
    Held t.cli.frames t.cli.streams t.eng.streamRef := by
  have hv := hRun.valid
  cases hChange with
  | @kick _ f ctxs sctxs sc op addr hPrep hKick hFrame hAddr =>
    intro p k hRef
    refine (h p k hRef).imp_right ?_
    rintro ⟨co, f', hf', hEntry⟩
    refine ⟨co, f', update_of_some hf' ?_, hEntry⟩
    rintro rfl
    rw [hFrame] at hf'
    cases hf'
  | @resume r occupied f addr sc hOccupied hId hSettles =>
    refine h.settle hSettles.frame
      (fun k hd hHd => hv.cli.answeredStreams_of_some hSettles.frame hHd r.reply) ?_
    intro hOp hRef
    have hType : r.type ≠ .err := fun hErr =>
      hOk.1 f (leaks_drain hv hOccupied hSettles.frame hId hOp hErr) hRef
    obtain ⟨payload, hReply⟩ := reply_ok hType
    simp [Cli.resumed, Cli.answeredStreams, hOp, hReply]
  | @timeout f addr sc hSettles =>
    rw [Cli.resumed, answeredStreams_fail]
    refine h.settle hSettles.frame (fun _ _ hHd => hHd) fun hOp hRef => absurd hRef (hOk.1 f ?_)
    simp [leaks, hSettles.frame, hOp]
  | @abort f addr sc hSettles =>
    refine h.settle hSettles.frame (fun _ _ hHd => hHd) fun hOp hRef => absurd hRef (hOk.1 f ?_)
    simp [leaks, hSettles.frame, hOp, OpKind.onStream]
  | streamClose hHd => exact h.drop hHd _
  | streamGc hHd => exact h.drop hHd _
  | streamGcFree hHd => exact h.drop hHd _
  | @goReturn k out op hOp hRunning =>
    rcases streamRef_returned out s.eng.streamRef k op with ⟨hNew, ⟨bytes, rfl⟩, hRef⟩ | ⟨_, hRef⟩
    · simp only [Engine.returned, hRef]
      intro p k' hEntry
      rcases update_some_iff.mp hEntry with ⟨rfl, rfl⟩ | ⟨_, hEntry⟩
      · exact hRun.opened_held hOp hNew hOk
      · exact h p k' hEntry
    · simp only [Engine.returned, hRef]
      exact h
  | _ => exact h

theorem Run.held (h : Run noLateOpen s) : Held s.cli.frames s.cli.streams s.eng.streamRef := by
  refine h.induct (P := fun s => Held s.cli.frames s.cli.streams s.eng.streamRef)
    (by simp [Held, init, Engine.init]) ?_
  intro s a t hRun _ hHeld hOk _ hChange
  exact hChange.held hRun hHeld hOk

/-! ## Every stored stream is closed or still there -/

def Cancelled (ops : Nat → Option Op) (reported : List TaskResult) (streamRef : Ptr → Option Nat)
    (closedStreams : List Nat) : Prop :=
  ∀ k op, ops k = some op → op.kind = .newStream → Succeeded ops reported k →
    streamRef op.taskId = some k ∨ k ∈ closedStreams

theorem Cancelled.setPhase {ops : Nat → Option Op} {reported reported' : List TaskResult}
    {streamRef : Ptr → Option Nat} {closedStreams : List Nat}
    (h : Cancelled ops reported streamRef closedStreams) {k : Nat} {op : Op} {phase : Phase}
    (hOp : ops k = some op)
    (hDone : ∀ k', Succeeded (Function.update ops k (some { op with phase })) reported' k' →
      Succeeded ops reported k') :
    Cancelled (Function.update ops k (some { op with phase })) reported' streamRef
      closedStreams := by
  intro k' op' hOp' hNew hSucc
  rcases update_some_iff.mp hOp' with ⟨rfl, rfl⟩ | ⟨_, hOp'⟩
  · exact h k' op hOp hNew (hDone k' hSucc)
  · exact h k' op' hOp' hNew (hDone k' hSucc)

theorem Cancelled.drop {ops : Nat → Option Op} {reported : List TaskResult}
    {streamRef : Ptr → Option Nat} {closedStreams : List Nat}
    (h : Cancelled ops reported streamRef closedStreams) (p : Ptr) :
    Cancelled ops reported (Function.update streamRef p none)
      (closedStreams ++ (streamRef p).toList) := by
  intro k op hOp hNew hSucc
  rcases h k op hOp hNew hSucc with hRef | hMem
  · by_cases hEq : op.taskId = p
    · refine .inr (List.mem_append_right _ ?_)
      rw [← hEq, hRef]
      exact List.mem_singleton_self k
    · exact .inl (update_of_some hRef hEq)
  · exact .inr (List.mem_append_left _ hMem)

/-- An open that is still held stores its stream over no other. -/
theorem Run.store_fresh (hRun : Run ok s)
    (hHeld : Held s.cli.frames s.cli.streams s.eng.streamRef) {k k' : Nat} {p : Ptr}
    (hOpen : s.cli.streams k = some ⟨p, false⟩ ∨
      ∃ co f, s.cli.frames co = some f ∧ f.op = .newStream ∧ f.kick = k ∧ f.sctx = p)
    (hRef : s.eng.streamRef p = some k') : k' = k := by
  have hv := hRun.valid
  have hFresh : ∀ {k co : Nat} {f : Frame}, s.cli.streams k = some ⟨p, false⟩ →
      s.cli.frames co = some f → f.op = .newStream → f.sctx = p → False := by
    intro k co f hHd hf hOp hEq
    exact hv.cli.refs.open_fresh co f k _ hf (by rw [hOp]; rfl) hHd hEq.symm
  rcases hHeld p k' hRef with hHd' | ⟨co', f', hf', hOp', rfl, hEq'⟩
  · rcases hOpen with hHd | ⟨co, f, hf, hOp, _, hEq⟩
    · exact hv.cli.handles.stream_inj k' k _ _ hHd' hHd rfl
    · exact (hFresh hHd' hf hOp hEq).elim
  · rcases hOpen with hHd | ⟨co, f, hf, _, rfl, hEq⟩
    · exact (hFresh hHd hf' hOp' hEq').elim
    · rw [(hv.cli.waiter_unique hf' hf (hEq'.trans hEq.symm)).2]

theorem Cancelled.goReturn (hRun : Run ok s)
    (hHeld : Held s.cli.frames s.cli.streams s.eng.streamRef)
    (h : Cancelled s.eng.ops s.eng.reported s.eng.streamRef s.eng.closedStreams) {k : Nat} {op : Op}
    {out : GoOut} (hOp : s.eng.ops k = some op) (hOk : s.noLateOpen (.goReturn k out)) :
    Cancelled (Function.update s.eng.ops k (some { op with phase := out.phase op.kind }))
      s.eng.reported (out.streamRef s.eng.streamRef k op) s.eng.closedStreams := by
  rcases streamRef_returned out s.eng.streamRef k op with ⟨hNew, ⟨bytes, rfl⟩, hRef⟩ | ⟨hOther, hRef⟩
  · rw [hRef]
    intro k' op' hOp' hNew' hSucc
    rcases update_some_iff.mp hOp' with ⟨rfl, rfl⟩ | ⟨hNe, hOp'⟩
    · exact .inl (Function.update_self ..)
    · have hSucc := hSucc.returned.resolve_right fun hEq => hNe hEq.1
      refine (h k' op' hOp' hNew' hSucc).imp_left fun hEntry => update_of_some hEntry fun hEq => ?_
      rw [hEq] at hEntry
      exact hNe (hRun.store_fresh hHeld (hRun.opened_held hOp hNew hOk) hEntry)
  · rw [hRef]
    intro k' op' hOp' hNew' hSucc
    have hOld : ∀ (hNot : ¬ (k' = k ∧ ∃ bytes, out = .ok bytes)),
        Succeeded s.eng.ops s.eng.reported k' := hSucc.returned.resolve_right
    rcases update_some_iff.mp hOp' with ⟨rfl, rfl⟩ | ⟨hNe, hOp'⟩
    · refine h k' op hOp hNew' (hOld ?_)
      rintro ⟨_, bytes, rfl⟩
      exact hOther.elim (fun hKind => hKind hNew') fun hErr => hErr bytes rfl
    · exact h k' op' hOp' hNew' (hOld fun hEq => hNe hEq.1)

theorem Run.cancelled (h : Run noLateOpen s) :
    Cancelled s.eng.ops s.eng.reported s.eng.streamRef s.eng.closedStreams := by
  refine h.induct (P := fun s =>
    Cancelled s.eng.ops s.eng.reported s.eng.streamRef s.eng.closedStreams)
    (by simp [Cancelled, init, Engine.init]) ?_
  intro s a t hRun hv hCancelled hOk _ hChange
  cases hChange with
  | @kick _ f ctxs sctxs sc op addr hPrep hKick hFrame hAddr =>
    have hRunning : ∀ result, op.phase ≠ .reporting result none := by
      simp [hPrep.op_eq.2.2]
    intro k op' hOp' hNew hSucc
    have hSucc := hSucc.setPhase hRunning
    rcases update_some_iff.mp hOp' with ⟨rfl, _⟩ | ⟨_, hOp'⟩
    · have hLt := hRun.succeeded_lt hSucc
      omega
    · exact hCancelled k op' hOp' hNew hSucc
  | streamClose => exact hCancelled.drop _
  | streamGc => exact hCancelled.drop _
  | streamGcFree => exact hCancelled.drop _
  | goReturn hOp => exact hCancelled.goReturn hRun (Run.held hRun) hOp hOk
  | goReport hOp hPhase =>
    refine hCancelled.setPhase hOp fun k' hSucc => ?_
    refine (hSucc.setPhase (by simp)).report hOp ?_
    rintro rfl
    exact hPhase
  | goPanic hOp =>
    exact hCancelled.setPhase hOp fun k' hSucc => (hSucc.setPhase (by simp)).report hOp (by simp)
  | goDone hOp => exact hCancelled.setPhase hOp fun k' hSucc => hSucc.setPhase (by simp)
  | _ => exact hCancelled

/-! ## No orphans -/

def refused (s : State) (k : Nat) : Prop :=
  s.givenUp k ∨ ∃ r, (k, .result r) ∈ s.cli.outcomes ∧ r.type = .err

theorem refused_of_outcome {k : Nat} (h : s.refused k) :
    ∃ o, (k, o) ∈ s.cli.outcomes ∧ ∀ r, o = .result r → r.type = .err := by
  rcases h with (h | h) | ⟨r, h, hErr⟩
  · exact ⟨_, h, by rintro _ ⟨⟩⟩
  · exact ⟨_, h, by rintro _ ⟨⟩⟩
  · refine ⟨_, h, ?_⟩
    rintro _ ⟨⟩
    exact hErr

theorem Run.handle_answered (h : Run ok s) {k : Nat} {hd : Handle}
    (hHd : s.cli.streams k = some hd) :
    ∃ r, (k, .result r) ∈ s.cli.outcomes ∧ r.type ≠ .err := by
  refine h.induct (P := fun s => ∀ k hd, s.cli.streams k = some hd →
    ∃ r, (k, .result r) ∈ s.cli.outcomes ∧ r.type ≠ .err) (by simp [init, Cli.init]) ?_ k hd hHd
  intro s a t hRun hv hAnswered _ _ hChange
  have hSnoc : ∀ {k : Nat} {hd : Handle} {x : Nat × Outcome}, s.cli.streams k = some hd →
      ∃ r, (k, .result r) ∈ s.cli.outcomes ++ [x] ∧ r.type ≠ .err := by
    intro k hd x hHd
    obtain ⟨r, hr, hType⟩ := hAnswered k hd hHd
    exact ⟨r, mem_outcomes_snoc.mpr (.inl hr), hType⟩
  cases hChange with
  | @resume r occupied f addr sc hOccupied hId hSettles =>
    intro k hd hHd
    rcases answeredStreams_some hHd with hHd | ⟨_, ⟨payload, hReply⟩, rfl, _⟩
    · exact hSnoc hHd
    · refine ⟨r, mem_outcomes_snoc.mpr (.inr rfl), fun hErr => ?_⟩
      rw [TaskRes.reply, hErr] at hReply
      cases hReply
  | timeout hSettles =>
    intro k hd hHd
    rw [Cli.resumed, answeredStreams_fail] at hHd
    exact hSnoc hHd
  | abort hSettles => exact fun k hd => hSnoc
  | streamClose hHd =>
    intro k hd' hHd'
    obtain ⟨hd'', hHd'', _⟩ := streams_update hHd (by rintro _ ⟨⟩; rfl) k hd' hHd'
    exact hAnswered k hd'' hHd''
  | streamGc | streamGcFree => exact fun k hd hHd => hAnswered k hd (update_none_iff.mp hHd).2
  | _ => exact hAnswered

/-- No goroutine is left and no coroutine waits for a stream to open. -/
structure OpensOver (s : State) : Prop where
  engine : ∀ k op, s.eng.ops k = some op → op.phase = .finished
  nginx : ∀ co f, s.cli.frames co = some f → f.op ≠ .newStream

/-- Every stored stream has an open handle, a refused open left none, and a
stream without an open handle was closed. -/
structure NoOrphans (s : State) : Prop where
  entry : ∀ p k, s.eng.streamRef p = some k →
    ∃ h hd, s.cli.streams h = some hd ∧ hd.ctx = p ∧ hd.closed = false
  refused : ∀ k, s.refused k → ∀ p, s.eng.streamRef p ≠ some k
  cancelled : ∀ k op, s.eng.ops k = some op → op.kind = .newStream →
    Succeeded s.eng.ops s.eng.reported k →
    (∀ hd, s.cli.streams k = some hd → hd.closed = true) → k ∈ s.eng.closedStreams

theorem Run.entry_handle (h : Run noLateOpen s) (hOver : s.OpensOver) {p : Ptr} {k : Nat}
    (hRef : s.eng.streamRef p = some k) : s.cli.streams k = some ⟨p, false⟩ := by
  refine (h.held p k hRef).resolve_right ?_
  rintro ⟨co, f, hf, hOp, _⟩
  exact hOver.nginx co f hf hOp

theorem no_orphans (h : Run noLateOpen s) (hOver : s.OpensOver) : s.NoOrphans := by
  constructor
  · intro p k hRef
    exact ⟨k, _, h.entry_handle hOver hRef, rfl, rfl⟩
  · intro k hRefused p hRef
    obtain ⟨o, ho, hErr⟩ := refused_of_outcome hRefused
    obtain ⟨r, hr, hType⟩ := h.handle_answered (h.entry_handle hOver hRef)
    obtain rfl : o = .result r := by
      have hPair := List.inj_on_of_nodup_map h.logged.nodup ho hr rfl
      exact (Prod.mk.inj hPair).2
    exact hType (hErr r rfl)
  · intro k op hOp hNew hSucc hClosed
    refine (h.cancelled k op hOp hNew hSucc).resolve_left fun hRef => ?_
    cases hClosed _ (h.entry_handle hOver hRef)

theorem Run.opensOver (h : Run ok s)
    (hEngine : ∀ k < s.cli.nextKick, ∀ op ∈ s.eng.ops k, op.phase = .finished)
    (hFrames : ∀ f ∈ s.cli.suspended, f.op ≠ .newStream) : s.OpensOver := by
  constructor
  · intro k op hOp
    exact hEngine k (h.op_lt hOp) op hOp
  · intro co f hf
    obtain ⟨rfl, _⟩ := h.valid.cli.suspended.frame_kick co f hf
    exact hFrames f (h.valid.mem_suspended.mpr hf)

theorem no_orphans_openedStream : ∃ s : State, s.eng.streamRef 10 = some 0 ∧ s.OpensOver ∧
    s.NoOrphans := by
  have hRun := run_after noLateOpen (openedStream ++ [.goDefer 0]) (by decide +kernel)
  have hOver := hRun.opensOver (by decide +kernel) (by decide +kernel)
  exact ⟨_, by decide +kernel, hOver, no_orphans hRun hOver⟩

theorem Valid.streams_none (hv : s.Valid)
    (hHandles : ∀ k < s.cli.nextKick, s.cli.streams k = none) (k : Nat) :
    s.cli.streams k = none := by
  cases hHd : s.cli.streams k with
  | none => rfl
  | some hd =>
    rw [hHandles k (hv.cli.refs.stream_kick k hd hHd).1] at hHd
    cases hHd

/-- An open that times out and then succeeds. -/
def lateOpen : List Action := [
  .connect (some 1) (.ok []) 50,
  .newStream 0 1 7 true .serverStream ⟨true, none, true, some 100, some 10⟩,
  .timer 1,
  .goReturn 0 (.ok []),
  .goReport 0,
  .goDefer 0]

theorem late_open_is_orphan : ∃ s, Reachable s ∧ s.OpensOver ∧ ¬ s.NoOrphans := by
  have hRun := run_after (fun _ _ => True) lateOpen (by decide +kernel)
  have hOver := hRun.opensOver (by decide +kernel) (by decide +kernel)
  refine ⟨_, hRun, hOver, fun hNone => ?_⟩
  obtain ⟨h, hd, hHd, _⟩ := hNone.entry 10 0 (by decide +kernel)
  rw [hRun.valid.streams_none (by decide +kernel) h] at hHd
  cases hHd

end GrpcClient.State
