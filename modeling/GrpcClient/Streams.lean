import GrpcClient.Correlation

/-! # Stream handles and the engine's streams

A goroutine stores its stream under the address of the sctx, and Lua makes the
handle when the opening coroutine is resumed without an error. The two agree
when nothing else is outstanding under that address while the open lasts.
-/

namespace GrpcClient.State

open Fallible PartialMap

variable {s t : State} {ok : State → Action → Prop}

/-- No stream is opened on the address of an outstanding operation. -/
def freshOpens (s : State) (a : Action) : Prop :=
  ∀ f ∈ s.kickOff a, f.op = .newStream → ∀ k < s.cli.nextKick, s.outstanding k →
    ∀ f' ∈ s.cli.kicks k, f'.sctx ≠ f.sctx

instance (s : State) (a : Action) : Decidable (s.freshOpens a) :=
  inferInstanceAs (Decidable (∀ f ∈ s.kickOff a, _))

/-! ## What is outstanding under the address of a stream -/

structure Alone (frames kicks : Nat → Option Frame) (streams : Nat → Option Handle)
    (out : Nat → Prop) : Prop where
  opener : ∀ co f k f', frames co = some f → f.op = .newStream → kicks k = some f' →
    f'.sctx = f.sctx → out k → k = f.kick
  handle : ∀ h hd k f', streams h = some hd → kicks k = some f' → f'.sctx = hd.ctx → out k →
    f'.op.onStream = true

theorem Alone.mono {frames frames' kicks : Nat → Option Frame}
    {streams streams' : Nat → Option Handle} {out out' : Nat → Prop}
    (h : Alone frames kicks streams out) (hFrames : ∀ co f, frames' co = some f → frames co = some f)
    (hStreams : ∀ k hd, streams' k = some hd → ∃ hd', streams k = some hd' ∧ hd'.ctx = hd.ctx)
    (hOut : ∀ k, out' k → out k) : Alone frames' kicks streams' out' := by
  constructor
  · intro co f k f' hf hOp hk hEq hk'
    exact h.opener co f k f' (hFrames co f hf) hOp hk hEq (hOut k hk')
  · intro k₀ hd k f' hHd hk hEq hk'
    obtain ⟨hd', hHd', hCtx⟩ := hStreams k₀ hd hHd
    exact h.handle k₀ hd' k f' hHd' hk (hEq.trans hCtx.symm) (hOut k hk')

theorem streams_update {streams : Nat → Option Handle} {k : Nat} {hd : Handle} {v : Option Handle}
    (hHd : streams k = some hd) (hv : ∀ hd', v = some hd' → hd'.ctx = hd.ctx) (k' : Nat)
    (hd' : Handle) (h : Function.update streams k v k' = some hd') :
    ∃ hd'', streams k' = some hd'' ∧ hd''.ctx = hd'.ctx := by
  by_cases hEq : k' = k
  · subst hEq
    rw [Function.update_self] at h
    exact ⟨hd, hHd, (hv hd' h).symm⟩
  · rw [Function.update_of_ne hEq] at h
    exact ⟨hd', h, rfl⟩

theorem answeredStreams_fail (streams : Nat → Option Handle) (f : Frame) (msg : Bytes) :
    Cli.answeredStreams streams f (.fail msg) = streams := by
  unfold Cli.answeredStreams
  cases f.op <;> rfl

theorem answeredStreams_some {streams : Nat → Option Handle} {f : Frame} {reply : Reply} {k : Nat}
    {hd : Handle} (h : Cli.answeredStreams streams f reply k = some hd) :
    streams k = some hd ∨
      (f.op = .newStream ∧ (∃ payload, reply = .ok payload) ∧ k = f.kick ∧
        hd = ⟨f.sctx, false⟩) := by
  cases reply with
  | fail msg =>
    rw [answeredStreams_fail] at h
    exact .inl h
  | ok payload =>
    by_cases hOp : f.op = .newStream
    · simp only [Cli.answeredStreams, hOp] at h
      rcases update_some_iff.mp h with ⟨rfl, rfl⟩ | ⟨_, h⟩
      · exact .inr ⟨hOp, ⟨payload, rfl⟩, rfl, rfl⟩
      · exact .inl h
    · unfold Cli.answeredStreams at h
      cases hKind : f.op <;> simp_all

theorem outstanding_drain {r : TaskRes} {occupied free : List TaskRes} {cli : Cli} {mem : Mem}
    {k : Nat} (h : ({ s with
      cli, mem
      thread := { s.thread with
        occupied, free, processed := s.thread.processed ++ [r] } } : State).outstanding k) :
    s.outstanding k ∧ k ≠ r.op := by
  simp only [outstanding, List.map_append, List.mem_append, not_or, List.map_singleton,
    List.mem_singleton] at h ⊢
  tauto

theorem Run.alone (h : Run freshOpens s) :
    Alone s.cli.frames s.cli.kicks s.cli.streams s.outstanding := by
  refine h.induct (P := fun s => Alone s.cli.frames s.cli.kicks s.cli.streams s.outstanding)
    ⟨by simp [init, Cli.init], by simp [init, Cli.init]⟩ ?_
  intro s a t hRun hv hAlone hOk hStep hChange
  cases hChange with
  | @kick _ f ctxs sctxs sc op addr hPrep hKick hFrame hAddr =>
    obtain ⟨hPrepared, hReady⟩ := hPrep.ready hv hKick hFrame hAddr
    have hOff : s.kickOff a = some f := by
      simp [kickOff, hStep, Cli.kicked, ← hKick]
    constructor
    · intro co f₁ k f' hf₁ hOp hk hEq hOut
      rcases update_some_iff.mp hf₁ with ⟨_, rfl⟩ | ⟨_, hf₁⟩
      · rcases update_some_iff.mp hk with ⟨rfl, _⟩ | ⟨_, hk⟩
        · rfl
        · have hLt := (hRun.logged.kick_lt k).mp ⟨f', hk⟩
          exact absurd hEq (hOk f hOff hOp k hLt hOut f' hk)
      · rcases update_some_iff.mp hk with ⟨_, rfl⟩ | ⟨_, hk⟩
        · exact absurd hEq.symm (hReady.frame_ne hPrepared hf₁).2
        · exact hAlone.opener co f₁ k f' hf₁ hOp hk hEq hOut
    · intro h hd k f' hHd hk hEq hOut
      rcases update_some_iff.mp hk with ⟨_, rfl⟩ | ⟨_, hk⟩
      · cases hOp : f.op.onStream with
        | true => rfl
        | false => exact absurd hEq.symm (hReady.fresh hOp h hd hHd)
      · exact hAlone.handle h hd k f' hHd hk hEq hOut
  | @resume r occupied f addr sc hOccupied hId hSettles =>
    constructor
    · intro co f₁ k f' hf₁ hOp hk hEq hOut
      exact hAlone.opener co f₁ k f' (update_none_iff.mp hf₁).2 hOp hk hEq
        (outstanding_drain hOut).1
    · intro h hd k f' hHd hk hEq hOut
      obtain ⟨hOut, hNe⟩ := outstanding_drain hOut
      rcases answeredStreams_some hHd with hHd | ⟨hOp, _, _, rfl⟩
      · exact hAlone.handle h hd k f' hHd hk hEq hOut
      · -- the only operation under the address was the open itself, now processed
        obtain ⟨hOut', f'', hf'', hSctx⟩ := hRun.posted_outstanding (r := r) (by simp [hOccupied])
        have hOwn := hAlone.opener f.co f r.op f'' hSettles.frame hOp hf'' (hSctx.trans hId) hOut'
        have hSame := hAlone.opener f.co f k f' hSettles.frame hOp hk hEq hOut
        exact absurd (hSame.trans hOwn.symm) hNe
  | cancel hOccupied =>
    exact hAlone.mono (fun _ _ hf => hf) (fun _ hd hHd => ⟨hd, hHd, rfl⟩)
      fun _ hOut => (outstanding_drain hOut).1
  | timeout hSettles =>
    refine hAlone.mono (fun _ _ hf => (update_none_iff.mp hf).2) (fun k hd hHd => ?_)
      fun _ hOut => hOut
    rw [Cli.resumed, answeredStreams_fail] at hHd
    exact ⟨hd, hHd, rfl⟩
  | abort hSettles =>
    exact hAlone.mono (fun _ _ hf => (update_none_iff.mp hf).2) (fun _ hd hHd => ⟨hd, hHd, rfl⟩)
      fun _ hOut => hOut
  | streamClose hHd =>
    exact hAlone.mono (fun _ _ hf => hf) (streams_update hHd (by rintro _ ⟨⟩; rfl))
      fun _ hOut => hOut
  | streamGc hHd =>
    exact hAlone.mono (fun _ _ hf => hf) (streams_update hHd (by rintro _ ⟨⟩)) fun _ hOut => hOut
  | streamGcFree hHd =>
    exact hAlone.mono (fun _ _ hf => hf) (streams_update hHd (by rintro _ ⟨⟩)) fun _ hOut => hOut
  | threadEvent hEvent =>
    obtain ⟨kept, dropped, ph, free, posted, hHands, hEq⟩ := threadEventHandler_ok hRun.holds hEvent
    cases hEq
    refine hAlone.mono (fun _ _ hf => hf) (fun _ hd hHd => ⟨hd, hHd, rfl⟩) fun k hOut => ?_
    simp only [outstanding, List.map_append, List.mem_append, not_or] at hOut ⊢
    exact ⟨hOut.1, hOut.2.1⟩
  | _ => exact hAlone

/-! ## Handles name stored streams -/

/-- The goroutine of the operation has come through without an error. -/
def Succeeded (ops : Nat → Option Op) (reported : List TaskResult) (k : Nat) : Prop :=
  (∃ op result, ops k = some op ∧ op.phase = .reporting result none) ∨
    ∃ r ∈ reported, r.op = k ∧ r.err = none

structure Stored (frames : Nat → Option Frame) (streams : Nat → Option Handle)
    (streamRef : Ptr → Option Nat) (ops : Nat → Option Op) (reported : List TaskResult) :
    Prop where
  opener : ∀ co f, frames co = some f → f.op = .newStream → Succeeded ops reported f.kick →
    streamRef f.sctx = some f.kick
  handle : ∀ h hd, streams h = some hd → hd.closed = false → streamRef hd.ctx = some h

theorem err_none_of_reply {r : TaskRes} {r' : TaskResult} (hEq : r'.report = r.report)
    {payload : Option Bytes} (hReply : r.reply = .ok payload) : r'.err = none := by
  have hType : r'.report.type = r.type := congrArg Report.type hEq
  cases hErr : r'.err with
  | none => rfl
  | some e =>
    rw [TaskResult.report, TaskRes.report, TaskResult.encode, hErr] at hType
    rw [TaskRes.reply, ← hType] at hReply
    cases hReply

theorem Succeeded.returned {ops : Nat → Option Op} {reported : List TaskResult} {k k' : Nat}
    {op : Op} {out : GoOut}
    (h : Succeeded (Function.update ops k' (some { op with phase := out.phase op.kind })) reported
      k) : Succeeded ops reported k ∨ (k = k' ∧ ∃ bytes, out = .ok bytes) := by
  rcases h with ⟨op', result, hop', hPhase⟩ | hRep
  · rcases update_some_iff.mp hop' with ⟨rfl, rfl⟩ | ⟨_, hop'⟩
    · exact .inr ⟨rfl, GoOut.ok_of_phase hPhase⟩
    · exact .inl (.inl ⟨op', result, hop', hPhase⟩)
  · exact .inl (.inr hRep)

theorem Succeeded.setPhase {ops : Nat → Option Op} {reported : List TaskResult} {k k' : Nat}
    {op : Op} (hNext : ∀ result, op.phase ≠ .reporting result none)
    (h : Succeeded (Function.update ops k' (some op)) reported k) : Succeeded ops reported k := by
  rcases h with ⟨op', result, hop', hPhase⟩ | hRep
  · rcases update_some_iff.mp hop' with ⟨_, rfl⟩ | ⟨_, hop'⟩
    · exact absurd hPhase (hNext result)
    · exact .inl ⟨op', result, hop', hPhase⟩
  · exact .inr hRep

theorem Succeeded.report {ops : Nat → Option Op} {reported : List TaskResult} {k k' : Nat}
    {op : Op} {result err : Option Bytes} (hOp : ops k' = some op)
    (hPhase : err = none → op.phase = .reporting result none)
    (h : Succeeded ops (reported ++ [⟨op.taskId, result, err, k'⟩]) k) :
    Succeeded ops reported k := by
  rcases h with hLeft | ⟨r, hr, hk, hErr⟩
  · exact .inl hLeft
  · rcases List.mem_append.mp hr with hr | hr
    · exact .inr ⟨r, hr, hk, hErr⟩
    · obtain rfl := List.mem_singleton.mp hr
      subst hk
      exact .inl ⟨op, result, hOp, hPhase hErr⟩

theorem Stored.close (hv : s.Valid) {ops : Nat → Option Op} {reported : List TaskResult}
    (h : Stored s.cli.frames s.cli.streams s.eng.streamRef ops reported) {k : Nat} {hd : Handle}
    (hHd : s.cli.streams k = some hd) (v : Option Handle)
    (hClosed : ∀ hd', v = some hd' → hd'.closed = true) :
    Stored s.cli.frames (Function.update s.cli.streams k v)
      (Function.update s.eng.streamRef hd.ctx none) ops reported := by
  constructor
  · intro co f hf hOp hDone
    have hNe := hv.cli.refs.open_fresh co f k hd hf (by rw [hOp]; rfl) hHd
    exact update_of_some (h.opener co f hf hOp hDone) hNe.symm
  · intro k' hd' hHd' hOpen
    by_cases hEq : k' = k
    · subst hEq
      rw [Function.update_self] at hHd'
      rw [hClosed hd' hHd'] at hOpen
      cases hOpen
    · rw [Function.update_of_ne hEq] at hHd'
      refine update_of_some (h.handle k' hd' hHd' hOpen) fun hCtx => hEq ?_
      exact hv.cli.handles.stream_inj k' k hd' hd hHd' hHd hCtx

theorem streamRef_returned (out : GoOut) (streamRef : Ptr → Option Nat) (k : Nat) (op : Op) :
    (op.kind = .newStream ∧ (∃ bytes, out = .ok bytes) ∧
      out.streamRef streamRef k op = Function.update streamRef op.taskId (some k)) ∨
    ((op.kind ≠ .newStream ∨ ∀ bytes, out ≠ .ok bytes) ∧
      out.streamRef streamRef k op = streamRef) := by
  unfold GoOut.streamRef
  cases out <;> cases op.kind <;> simp

theorem Stored.goReturn (hRun : Run ok s)
    (hAlone : Alone s.cli.frames s.cli.kicks s.cli.streams s.outstanding)
    (h : Stored s.cli.frames s.cli.streams s.eng.streamRef s.eng.ops s.eng.reported) {k : Nat}
    {op : Op} (hOp : s.eng.ops k = some op) (hRunning : op.phase = .running) (out : GoOut) :
    Stored s.cli.frames s.cli.streams (out.streamRef s.eng.streamRef k op)
      (Function.update s.eng.ops k (some { op with phase := out.phase op.kind }))
      s.eng.reported := by
  obtain ⟨f₀, hf₀, hSctx, hKind⟩ := hRun.started.op_kick k op hOp
  have hOut := hRun.outstanding_of_unreported hOp (by rw [hRunning]; rfl)
  rcases streamRef_returned out s.eng.streamRef k op with ⟨hNew, _, hRef⟩ | ⟨hOther, hRef⟩
  · rw [hRef]
    constructor
    · intro co f hf hOpen hDone
      by_cases hId : op.taskId = f.sctx
      · have hEq := hAlone.opener co f k f₀ hf hOpen hf₀ (hSctx.trans hId) hOut
        rw [hId, Function.update_self, hEq]
      · rw [Function.update_of_ne (Ne.symm hId)]
        refine h.opener co f hf hOpen (hDone.returned.resolve_right ?_)
        rintro ⟨rfl, _⟩
        rw [(hRun.pending hf).1] at hf₀
        cases hf₀
        exact hId hSctx.symm
    · intro h' hd hHd hLive
      refine update_of_some (h.handle h' hd hHd hLive) fun hEq => ?_
      have hOn := hAlone.handle h' hd k f₀ hHd hf₀ (hSctx.trans hEq.symm) hOut
      rw [hKind, hNew] at hOn
      cases hOn
  · rw [hRef]
    refine ⟨fun co f hf hOpen hDone => h.opener co f hf hOpen ?_, h.handle⟩
    refine hDone.returned.resolve_right ?_
    rintro ⟨rfl, bytes, rfl⟩
    rw [(hRun.pending hf).1] at hf₀
    cases hf₀
    rcases hOther with hOther | hOther
    · exact hOther (hKind.symm.trans hOpen)
    · exact hOther bytes rfl

theorem Run.succeeded_lt (h : Run ok s) {k : Nat}
    (hDone : Succeeded s.eng.ops s.eng.reported k) : k < s.cli.nextKick := by
  rcases hDone with ⟨op, _, hOp, _⟩ | ⟨r, hr, rfl, _⟩
  · exact h.op_lt hOp
  · obtain ⟨op, hOp, _⟩ := h.reported.task r hr
    exact h.op_lt hOp

theorem Run.stored (h : Run freshOpens s) :
    Stored s.cli.frames s.cli.streams s.eng.streamRef s.eng.ops s.eng.reported := by
  refine h.induct (P := fun s =>
    Stored s.cli.frames s.cli.streams s.eng.streamRef s.eng.ops s.eng.reported)
    ⟨by simp [init, Cli.init], by simp [init, Cli.init]⟩ ?_
  intro s a t hRun hv hStored hOk hStep hChange
  have hAlone := Run.alone hRun
  cases hChange with
  | @kick _ f ctxs sctxs sc op addr hPrep hKick hFrame hAddr =>
    have hNext : ∀ result, op.phase ≠ .reporting result none := by
      simp [hPrep.op_eq.2.2]
    refine ⟨fun co f' hf' hOp hDone => ?_, hStored.handle⟩
    rcases update_some_iff.mp hf' with ⟨_, rfl⟩ | ⟨_, hf'⟩
    · -- a goroutine that was just started has not succeeded
      have := hRun.succeeded_lt (hDone.setPhase hNext)
      omega
    · exact hStored.opener co f' hf' hOp (hDone.setPhase hNext)
  | @resume r occupied f addr sc hOccupied hId hSettles =>
    refine ⟨fun co f' hf' => hStored.opener co f' (update_none_iff.mp hf').2, ?_⟩
    intro h hd hHd hOpen
    rcases answeredStreams_some hHd with hHd | ⟨hOp, ⟨payload, hReply⟩, rfl, rfl⟩
    · exact hStored.handle h hd hHd hOpen
    · -- the open was answered by its own report, which came after the store
      obtain ⟨hOut, f', hf', hSctx⟩ := hRun.posted_outstanding (r := r) (by simp [hOccupied])
      have hOwn := hAlone.opener f.co f r.op f' hSettles.frame hOp hf' (hSctx.trans hId) hOut
      obtain ⟨r', hr', hOp', _, hReport⟩ := hRun.handed_report (r := r) (by
        simp [ThreadCtx.handed, hOccupied])
      exact hStored.opener f.co f hSettles.frame hOp
        (.inr ⟨r', hr', hOp'.trans hOwn, err_none_of_reply hReport hReply⟩)
  | timeout hSettles =>
    refine ⟨fun co f' hf' => hStored.opener co f' (update_none_iff.mp hf').2, ?_⟩
    rw [Cli.resumed, answeredStreams_fail]
    exact hStored.handle
  | abort hSettles =>
    exact ⟨fun co f' hf' => hStored.opener co f' (update_none_iff.mp hf').2, hStored.handle⟩
  | streamClose hHd => exact hStored.close hv hHd _ (by rintro _ ⟨⟩; rfl)
  | streamGc hHd => exact hStored.close hv hHd _ (by rintro _ ⟨⟩)
  | streamGcFree hHd => exact hStored.close hv hHd _ (by rintro _ ⟨⟩)
  | goReturn hOp hRunning => exact hStored.goReturn hRun hAlone hOp hRunning _
  | goReport hOp hPhase =>
    refine ⟨fun co f hf hNew hDone => hStored.opener co f hf hNew ?_, hStored.handle⟩
    refine (hDone.setPhase (by simp)).report hOp ?_
    rintro rfl
    exact hPhase
  | goPanic hOp hPhase =>
    refine ⟨fun co f hf hNew hDone => hStored.opener co f hf hNew ?_, hStored.handle⟩
    exact (hDone.setPhase (by simp)).report hOp (by simp)
  | goDone hOp hPhase =>
    exact ⟨fun co f hf hNew hDone => hStored.opener co f hf hNew (hDone.setPhase (by simp)),
      hStored.handle⟩
  | _ => exact hStored

/-! ## Where `mustFind` panics -/

theorem deref_error {β : Type} {m : Ptr → Option β} {p : Ptr} {e : Stop}
    (h : deref m p = .error e) : e = .fault .useAfterFree ∧ m p = none := by
  unfold deref at h
  split at h
  · cases h
  · rename_i hNone
    cases h
    exact ⟨rfl, hNone⟩

theorem keepTask_error {cli : Cli} {p : Ptr} {node : Option Ptr} {e : Stop}
    (h : cli.keepTask p node = .error e) : e = .blocked ∨ cli.sctxs p = none := by
  unfold Cli.keepTask at h
  split at h
  · cases h
  · split at h
    · cases h
      exact .inl rfl
    · rcases bind_eq_error h with hDeref | ⟨_, _, h⟩
      · exact .inr (deref_error hDeref).2
      · cases h

theorem kickOffTask_error {env : KickEnv} {p : Ptr} {co : Nat} {e : Stop}
    (h : s.kickOffTask env p co = .error e) : e = .blocked ∨ s.cli.sctxs p = none := by
  unfold kickOffTask at h
  split at h
  · cases h
  · split at h
    · cases h
    · split at h
      · cases h
      · rcases bind_eq_error h with hKeep | ⟨kept, hKeep, h⟩
        · exact keepTask_error hKeep
        · obtain rfl | ⟨addr, sc, _, _, rfl⟩ := keepTask_ok hKeep
          · cases h
          · rcases bind_eq_error h with hArm | ⟨_, _, h⟩
            · simp only [Cli.armWait, Cli.setSctx] at hArm
              rw [deref_eq (Function.update_self ..), ok_bind] at hArm
              cases hArm
            · cases h

/-- An operation on a stream goes down only in the lookup of an open handle
without a stored stream. -/
theorem Valid.luaStreamOp_fault (hv : s.Valid) {op : OpKind}
    {engineOp : Engine → Nat → Ptr → Except Stop Engine}
    (hEngineOp : engineOp = fun e k p => e.streamOp k op p) {h co r : Nat} {env : KickEnv}
    {fault : Fault} (hRes : s.luaStreamOp (streamOp engineOp) op h co r env = .error (.fault fault)) :
    fault = .streamPanic ∧
      ∃ hd, s.cli.streams h = some hd ∧ hd.closed = false ∧ s.eng.streamRef hd.ctx = none := by
  rcases bind_eq_error hRes with hHandle | ⟨hd, hHd, hRes⟩
  · unfold handle at hHandle
    split at hHandle <;> cases hHandle
  have hHd := handle_ok hHd
  obtain ⟨sc, _, _, hsc, _⟩ := hv.cli.handles.stream_sctx h hd hHd
  split at hRes
  · cases hRes
  split at hRes
  · cases hRes
  rename_i hOpen
  rcases bind_eq_error hRes with hC | ⟨⟨out, u⟩, _, hRes⟩
  · rw [streamOp, deref_eq hsc, ok_bind] at hC
    split at hC
    · cases hC
    rcases bind_eq_error hC with hKick | ⟨⟨res, u⟩, hKick, hC⟩
    · rcases kickOffTask_error hKick with hEq | hNone
      · cases hEq
      · rw [hsc] at hNone
        cases hNone
    · obtain ⟨msg, ph, rfl, _, rfl⟩ | ⟨addr, sc', rfl, _, _, rfl⟩ := kickOffTask_ok hKick
      · cases hC
      · rw [hEngineOp] at hC
        rcases bind_eq_error hC with hEng | ⟨eng, _, hC⟩
        · simp only [Engine.streamOp] at hEng
          split at hEng
          · rename_i hNone
            cases hEng
            exact ⟨rfl, hd, hHd, by simpa using hOpen, hNone⟩
          · cases hEng
        · cases hC
  · cases out <;> cases hRes

/-- Every open handle names the stream its open stored, and no operation on a
stream panics. -/
def StreamsFound (s : State) : Prop :=
  (∀ h hd, s.cli.streams h = some hd → hd.closed = false → s.eng.streamRef hd.ctx = some h) ∧
  ∀ h co r env, s.faults (.recv h co r env) ≠ some .streamPanic ∧
    s.faults (.send h co r env) ≠ some .streamPanic ∧
    s.faults (.closeSend h co r env) ≠ some .streamPanic

theorem streams_found (h : Run freshOpens s) : s.StreamsFound := by
  have hHandle := h.stored.handle
  have hNoPanic : ∀ {k : Nat}, ¬ ∃ hd, s.cli.streams k = some hd ∧ hd.closed = false ∧
      s.eng.streamRef hd.ctx = none := by
    rintro k ⟨hd, hHd, hOpen, hNone⟩
    rw [hHandle k hd hHd hOpen] at hNone
    cases hNone
  refine ⟨hHandle, fun k co r env => ⟨fun hFault => ?_, fun hFault => ?_, fun hFault => ?_⟩⟩
  · exact hNoPanic (h.valid.luaStreamOp_fault rfl (faults_eq_some.mp hFault)).2
  · exact hNoPanic (h.valid.luaStreamOp_fault rfl (faults_eq_some.mp hFault)).2
  · exact hNoPanic (h.valid.luaStreamOp_fault rfl (faults_eq_some.mp hFault)).2

theorem streams_found_openedStream : ∃ s : State, s.cli.streams 0 = some ⟨10, false⟩ ∧
    s.eng.streamRef 10 = some 0 ∧ s.StreamsFound := by
  have hRun := run_after freshOpens openedStream (by decide +kernel)
  exact ⟨_, by decide +kernel, by decide +kernel, streams_found hRun⟩

/-- A call that timed out leaves its sctx to a stream open. The late result of
the call answers the open before the engine has stored the stream. -/
def openAnsweredByCall : List Action := [
  .connect (some 1) (.ok []) 50,
  .call 0 1 7 true ⟨true, none, true, some 100, some 10⟩,
  .timer 1,
  .newStream 0 2 8 true .serverStream ⟨true, none, true, some 101, none⟩,
  .goReturn 0 (.ok [1]),
  .goReport 0,
  .waitReturn,
  .threadTest,
  .threadEvent [] true,
  .postEvent,
  .drain]

theorem stream_lookup_panics : ∃ s, Reachable s ∧ ¬ s.StreamsFound := by
  have hRun := run_after (fun _ _ => True) openAnsweredByCall (by decide +kernel)
  refine ⟨_, hRun, fun hFound => ?_⟩
  have hPanic := (hFound.2 1 2 8 ⟨true, none, true, some 102, none⟩).1
  revert hPanic
  decide +kernel

end GrpcClient.State
