import GrpcClient.Streams

/-! # Busy streams

`ngx_grpc_cli_check_stream_status` takes `wait_co_ctx` for the sign that a
coroutine waits on the stream, while the registry goes by `node`. A result and a
timeout clear both fields, the cleanup hook of a killed coroutine only `node`.
-/

namespace GrpcClient.State

open Fallible PartialMap

variable {s t : State} {ok : State → Action → Prop}

/-- No coroutine is killed in an operation on a stream that is still open. -/
def keepsStreamWaits (s : State) (a : Action) : Prop :=
  match a with
  | .abort co => ∀ f ∈ s.cli.frames co, f.op.onStream = true →
    ∀ hd ∈ s.cli.streams f.handle, hd.closed = true
  | _ => True

instance (s : State) : (a : Action) → Decidable (s.keepsStreamWaits a)
  | .abort _ => inferInstanceAs (Decidable (∀ f ∈ _, _))
  | .connect .. | .connClose _ | .connGc _ | .call .. | .newStream .. | .recv .. | .send ..
  | .closeSend .. | .streamClose _ | .streamGc _ | .timer _ | .goReturn .. | .goReport _
  | .goDefer _ | .waitTimer | .waitReturn | .threadTest | .threadEvent .. | .postEvent | .drain
  | .quit | .exit | .terminate => inferInstanceAs (Decidable True)

def InUse (s : State) (h : Nat) : Prop :=
  ∃ co f, s.cli.frames co = some f ∧ f.op.onStream = true ∧ f.handle = h

/-- The operations of an open handle report a busy stream only while it is in use,
and the status of a stream that nobody uses is good in its own request. The
message of the context check of lua-nginx-module is another one. -/
structure BusyInUse (s : State) : Prop where
  busy : ∀ cOp, cOp = streamRecv ∨ cOp = streamSend ∨ cOp = streamCloseSend →
    ∀ h hd r co env t, s.cli.streams h = some hd → hd.closed = false →
      env.badContext ≠ some "busy waiting" →
      cOp s hd.ctx r co env = .ok (some "busy waiting", t) → s.InUse h
  usable : ∀ h hd sc r, s.cli.streams h = some hd → hd.closed = false →
    s.cli.sctxs hd.ctx = some sc → sc.r = some r → ¬ s.InUse h →
    Cli.checkStreamStatus sc r = none

/-! ## The two fields agree -/

/-- The sctx of an open handle is waited on only while it is registered. -/
def Registered (streams : Nat → Option Handle) (sctxs : Ptr → Option StreamCtx) : Prop :=
  ∀ h hd sc, streams h = some hd → hd.closed = false → sctxs hd.ctx = some sc →
    sc.waitCoCtx ≠ none → sc.node ≠ none

theorem Registered.mono {streams streams' : Nat → Option Handle}
    {sctxs sctxs' : Ptr → Option StreamCtx} (hReg : Registered streams sctxs)
    (hStreams : ∀ h hd, streams' h = some hd → hd.closed = false →
      ∃ hd', streams h = some hd' ∧ hd'.closed = false ∧ hd'.ctx = hd.ctx)
    (hSctxs : ∀ p sc, sctxs' p = some sc → sctxs p = some sc) : Registered streams' sctxs' := by
  intro h hd sc hHd hOpen hsc hWait
  obtain ⟨hd', hHd', hOpen', hCtx⟩ := hStreams h hd hHd hOpen
  have hsc' := hSctxs hd.ctx sc hsc
  rw [← hCtx] at hsc'
  exact hReg h hd' sc hHd' hOpen' hsc' hWait

/-- An sctx that is written may be one that nobody waits on, one that is
registered, or one without an open handle. -/
theorem Registered.write {streams : Nat → Option Handle} {sctxs : Ptr → Option StreamCtx}
    (hReg : Registered streams sctxs) {p : Ptr} {sc : StreamCtx}
    (hNew : ∀ h hd, streams h = some hd → hd.closed = false → hd.ctx = p →
      sc.waitCoCtx ≠ none → sc.node ≠ none) :
    Registered streams (Function.update sctxs p (some sc)) := by
  intro h hd sc' hHd hOpen hsc' hWait
  rcases update_some_iff.mp hsc' with ⟨hEq, rfl⟩ | ⟨_, hsc'⟩
  · exact hNew h hd hHd hOpen hEq hWait
  · exact hReg h hd sc' hHd hOpen hsc' hWait

theorem Registered.dropStream {streams : Nat → Option Handle} {sctxs : Ptr → Option StreamCtx}
    (hReg : Registered streams sctxs) (h : Nat) {v : Option Handle}
    (hClosed : ∀ hd, v = some hd → hd.closed = true) :
    Registered (Function.update streams h v) sctxs := by
  refine hReg.mono (fun h' hd hHd hOpen => ?_) fun _ _ hsc => hsc
  by_cases hEq : h' = h
  · subst hEq
    rw [Function.update_self] at hHd
    rw [hClosed hd hHd] at hOpen
    cases hOpen
  · rw [Function.update_of_ne hEq] at hHd
    exact ⟨hd, hHd, hOpen, rfl⟩

/-- A coroutine that is resumed leaves an sctx that nobody waits on, to its stream's
handle or to a new one. -/
theorem Registered.resumed (hReg : Registered s.cli.streams s.cli.sctxs) {f : Frame}
    {sc : StreamCtx} (hWait : sc.waitCoCtx = none) (reply : Reply) :
    Registered (Cli.answeredStreams s.cli.streams f reply)
      (Function.update s.cli.sctxs f.sctx (some sc)) := by
  intro h hd sc' hHd hOpen hsc' hWait'
  rcases update_some_iff.mp hsc' with ⟨_, rfl⟩ | ⟨hNe, hsc'⟩
  · exact absurd hWait hWait'
  · rcases answeredStreams_some hHd with hHd | ⟨_, _, _, rfl⟩
    · exact hReg h hd sc' hHd hOpen hsc' hWait'
    · exact absurd rfl hNe

theorem Run.registered (h : Run keepsStreamWaits s) :
    Registered s.cli.streams s.cli.sctxs := by
  refine h.induct (P := fun s => Registered s.cli.streams s.cli.sctxs)
    (fun h hd _ hHd => by cases hHd) ?_
  intro s a t hRun hv hReg hOk hStep hChange
  cases hChange with
  | connFree =>
    refine hReg.mono (fun h hd hHd hOpen => ⟨hd, hHd, hOpen, rfl⟩) fun p sc hsc => ?_
    simp only [ite_eq_iff, reduceCtorEq, and_false, false_or] at hsc
    exact hsc.2
  | openFailed => exact hReg.write fun _ _ _ _ _ hWait => absurd rfl hWait
  | kick hPrep =>
    cases hPrep with
    | opens =>
      simp only [Cli.kicked, Function.update_idem]
      exact hReg.write fun _ _ _ _ _ _ => Option.some_ne_none _
    | stream => exact hReg.write fun _ _ _ _ _ _ => Option.some_ne_none _
  | resume => exact hReg.resumed rfl _
  | timeout => exact hReg.resumed rfl _
  | @abort f addr sc hSettles =>
    refine hReg.write fun h hd hHd hOpen hCtx _ => ?_
    cases hOp : f.op.onStream with
    | true =>
      obtain ⟨hd', hHd', hCtx'⟩ := hv.cli.refs.frame_stream f.co f hSettles.frame hOp
      -- the handle is the one of the killed operation, which was closed
      obtain rfl := hv.cli.handles.stream_inj h f.handle hd hd' hHd hHd' (hCtx.trans hCtx'.symm)
      rw [hOk f hSettles.frame hOp hd hHd] at hOpen
      cases hOpen
    | false => exact absurd hCtx (hv.cli.refs.open_fresh f.co f h hd hSettles.frame hOp hHd)
  | streamClose => exact hReg.dropStream _ (by rintro _ ⟨⟩; rfl)
  | @streamGc h hd c cc sc hHd hcc hMem hsc hUse =>
    have hDropped := hReg.dropStream h (v := none) (by rintro _ ⟨⟩)
    refine hDropped.write fun h' hd' hHd' _ hCtx _ => ?_
    obtain ⟨hNe, hHd'⟩ := update_none_iff.mp hHd'
    exact absurd (hv.cli.handles.stream_inj h' h hd' hd hHd' hHd hCtx) hNe
  | streamGcFree =>
    refine (hReg.dropStream _ (by rintro _ ⟨⟩)).mono
      (fun h hd hHd hOpen => ⟨hd, hHd, hOpen, rfl⟩) fun p sc hsc => ?_
    simp only [ite_eq_iff, reduceCtorEq, and_false, false_or] at hsc
    exact hsc.2
  | _ => exact hReg

/-! ## What the operations report -/

theorem checkStreamStatus_busy {sc : StreamCtx} {r : Nat}
    (h : Cli.checkStreamStatus sc r = some "busy waiting") : sc.waitCoCtx ≠ none := by
  intro hWait
  unfold Cli.checkStreamStatus at h
  split at h
  · simp at h
  · split at h
    · simp at h
    · simp [hWait] at h

theorem checkStreamStatus_own {sc : StreamCtx} {r : Nat} (hr : sc.r = some r)
    (hWait : sc.waitCoCtx = none) : Cli.checkStreamStatus sc r = none := by
  simp [Cli.checkStreamStatus, hr, hWait]

/-- No other message of a kick-off than that of the context check is in doubt. -/
theorem kickOffTask_busy {env : KickEnv} {p : Ptr} {co : Nat}
    (h : s.kickOffTask env p co = .ok (some "busy waiting", t)) :
    env.badContext = some "busy waiting" := by
  unfold kickOffTask at h
  split at h
  · simp at h
  · cases hBad : env.badContext with
    | some msg =>
      simp only [hBad, Except.ok.injEq, Prod.mk.injEq] at h
      exact h.1
    | none =>
      simp only [hBad] at h
      split at h
      · simp at h
      · obtain ⟨kept, _, h⟩ := bind_eq_ok h
        cases kept with
        | none => simp at h
        | some cli =>
          obtain ⟨cli', _, h⟩ := bind_eq_ok h
          simp at h

theorem streamOp_refused {engineOp : Engine → Nat → Ptr → Except Stop Engine} {p : Ptr}
    {sc : StreamCtx} {r : Nat} {msg : String} (hsc : s.cli.sctxs p = some sc)
    (hStatus : Cli.checkStreamStatus sc r = some msg) (co : Nat) (env : KickEnv) :
    streamOp engineOp s p r co env = .ok (some msg, s) := by
  simp only [streamOp, deref_eq hsc, ok_bind, hStatus]

theorem streamOp_busy {engineOp : Engine → Nat → Ptr → Except Stop Engine} {p : Ptr} {r co : Nat}
    {env : KickEnv} (hEnv : env.badContext ≠ some "busy waiting")
    (h : streamOp engineOp s p r co env = .ok (some "busy waiting", t)) :
    ∃ sc, s.cli.sctxs p = some sc ∧ sc.waitCoCtx ≠ none := by
  obtain ⟨sc, hsc, h⟩ := bind_eq_ok h
  refine ⟨sc, deref_ok_iff.mp hsc, ?_⟩
  cases hStatus : Cli.checkStreamStatus sc r with
  | some msg =>
    simp only [hStatus, Except.ok.injEq, Prod.mk.injEq, Option.some.injEq] at h
    rw [h.1] at hStatus
    exact checkStreamStatus_busy hStatus
  | none =>
    simp only [hStatus] at h
    obtain ⟨⟨out, u⟩, hKick, h⟩ := bind_eq_ok h
    cases out with
    | some msg =>
      simp only [Except.ok.injEq, Prod.mk.injEq, Option.some.injEq] at h
      rw [h.1] at hKick
      exact absurd (kickOffTask_busy hKick) hEnv
    | none =>
      obtain ⟨eng, _, h⟩ := bind_eq_ok h
      simp at h

theorem Run.inUse (hRun : Run keepsStreamWaits s) {h : Nat} {hd : Handle} {sc : StreamCtx}
    (hHd : s.cli.streams h = some hd) (hOpen : hd.closed = false)
    (hsc : s.cli.sctxs hd.ctx = some sc) (hWait : sc.waitCoCtx ≠ none) : s.InUse h := by
  have hInv := (Run.valid hRun).cli
  obtain ⟨a, hNode⟩ :=
    Option.ne_none_iff_exists'.mp (Run.registered hRun h hd sc hHd hOpen hsc hWait)
  obtain ⟨co, f, hf, hSctx⟩ := hInv.suspended.node_frame hd.ctx sc a hsc hNode
  cases hOp : f.op.onStream with
  | true =>
    obtain ⟨hd', hHd', hCtx⟩ := hInv.refs.frame_stream co f hf hOp
    have hSame := hInv.handles.stream_inj f.handle h hd' hd hHd' hHd (hCtx.trans hSctx)
    exact ⟨co, f, hf, hOp, hSame⟩
  | false => exact absurd hSctx.symm (hInv.refs.open_fresh co f h hd hf hOp hHd)

theorem Valid.inUse_node (hv : s.Valid) {h : Nat} {hd : Handle} (hHd : s.cli.streams h = some hd)
    (hUse : s.InUse h) : ∃ sc a, s.cli.sctxs hd.ctx = some sc ∧ sc.node = some a := by
  obtain ⟨co, f, hf, hOp, rfl⟩ := hUse
  obtain ⟨hd', hHd', hCtx⟩ := hv.cli.refs.frame_stream co f hf hOp
  obtain ⟨sc, a, hsc, hNode, _⟩ := hv.cli.suspended.frame_sctx co f hf
  rw [hHd] at hHd'
  cases hHd'
  exact ⟨sc, a, hCtx ▸ hsc, hNode⟩

theorem busy_in_use (hRun : Run keepsStreamWaits s) : s.BusyInUse := by
  constructor
  · intro cOp hOp h hd r co env t hHd hOpen hEnv hBusy
    obtain ⟨sc, hsc, hWait⟩ : ∃ sc, s.cli.sctxs hd.ctx = some sc ∧ sc.waitCoCtx ≠ none := by
      rcases hOp with rfl | rfl | rfl
      · exact streamOp_busy hEnv hBusy
      · exact streamOp_busy hEnv hBusy
      · exact streamOp_busy hEnv hBusy
    exact hRun.inUse hHd hOpen hsc hWait
  · intro h hd sc r hHd hOpen hsc hr hFree
    apply checkStreamStatus_own hr
    by_contra hWait
    exact hFree (hRun.inUse hHd hOpen hsc hWait)

/-- A receive that times out, and a second coroutine that receives. -/
def receivedAgain : List Action := openedStream ++ [
  .recv 0 1 7 ⟨true, none, true, some 101, none⟩,
  .timer 1,
  .recv 0 2 7 ⟨true, none, true, some 102, none⟩]

theorem busy_in_use_receivedAgain : ∃ s : State, s.InUse 0 ∧ s.BusyInUse := by
  have hRun := run_after keepsStreamWaits receivedAgain (by decide +kernel)
  exact ⟨_, ⟨2, ⟨2, 2, .recv, 10, 0⟩, by decide +kernel, rfl, rfl⟩, busy_in_use hRun⟩

/-- A coroutine is killed in its receive. -/
def killedReceive : List Action := openedStream ++ [
  .recv 0 1 7 ⟨true, none, true, some 101, none⟩,
  .abort 1]

/-- Nobody waits on the stream, and it stays busy. -/
theorem killed_receive_stays_busy : ∃ s, Reachable s ∧ ¬ s.BusyInUse := by
  have hRun := run_after (fun _ _ => True) killedReceive (by decide +kernel)
  refine ⟨_, hRun, fun hBusy => ?_⟩
  have hHd : ((after (fun _ _ => True) killedReceive).get (by decide +kernel)).cli.streams 0 =
      some ⟨10, false⟩ := by decide +kernel
  have hsc : ((after (fun _ _ => True) killedReceive).get (by decide +kernel)).cli.sctxs 10 =
      some ⟨some 7, some 1, some 10, some ⟨10, 0, .okNotRes, none, 0⟩, .ok, none, some 1,
        .serverStream, true, 0⟩ := by decide +kernel
  have hUse := hBusy.busy streamRecv (.inl rfl) 0 ⟨10, false⟩ 7 2
    ⟨true, none, true, some 102, none⟩ _ hHd rfl (by decide)
    (streamOp_refused hsc (by decide) _ _)
  obtain ⟨sc, a, hsc', hNode⟩ := Valid.inUse_node (Run.valid hRun) hHd hUse
  rw [hsc] at hsc'
  cases hsc'
  cases hNode

end GrpcClient.State
