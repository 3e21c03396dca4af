import GrpcClient.Ownership
import GrpcClient.Streams

/-! # Connections: references and lifetimes

A connection is a Lua handle, a context and a reference into `EngineCtxRef`,
and the three go at different times: a close takes the reference, the finaliser
the handle, and the context stays until its opening list is empty. A context
with a reference always finds its own `grpc.ClientConn` there, and a context is
freed by the finaliser that runs last.
-/

namespace GrpcClient.State

open Fallible PartialMap

variable {s t : State} {ok : State → Action → Prop}

/-! ## References -/

structure Linked (ctxs : Ptr → Option Ctx) (engineCtxRef : Ptr → Option Nat)
    (closedConns : List Nat) (nextConn : Nat) : Prop where
  entry : ∀ c cc ref, ctxs c = some cc → cc.engineCtx = some ref → engineCtxRef ref = some cc.owner
  entry_open : ∀ ref n, engineCtxRef ref = some n → n < nextConn ∧ n ∉ closedConns
  entry_inj : ∀ ref ref' n, engineCtxRef ref = some n → engineCtxRef ref' = some n → ref = ref'
  closed_lt : ∀ n ∈ closedConns, n < nextConn
  closed_nodup : closedConns.Nodup

theorem linked_init : Linked init.cli.ctxs init.eng.engineCtxRef init.eng.closedConns
    init.eng.nextConn where
  entry := by simp [init, Cli.init]
  entry_open := by simp [init, Engine.init]
  entry_inj := by simp [init, Engine.init]
  closed_lt := by simp [init, Engine.init]
  closed_nodup := List.nodup_nil

theorem Linked.mono {ctxs ctxs' : Ptr → Option Ctx} {engineCtxRef : Ptr → Option Nat}
    {closedConns : List Nat} {nextConn : Nat}
    (h : Linked ctxs engineCtxRef closedConns nextConn)
    (hKeeps : ∀ c cc', ctxs' c = some cc' →
      ∃ cc, ctxs c = some cc ∧ cc.owner = cc'.owner ∧ cc.engineCtx = cc'.engineCtx) :
    Linked ctxs' engineCtxRef closedConns nextConn := by
  refine { h with entry := ?_ }
  intro c cc' ref hc' hRef
  obtain ⟨cc, hc, hOwner, hEngine⟩ := hKeeps c cc' hc'
  rw [← hOwner]
  exact h.entry c cc ref hc (hEngine.trans hRef)

theorem Linked.update {ctxs : Ptr → Option Ctx} {engineCtxRef : Ptr → Option Nat}
    {closedConns : List Nat} {nextConn : Nat}
    (h : Linked ctxs engineCtxRef closedConns nextConn) {c : Ptr} {cc : Ctx} {v : Option Ctx}
    (hc : ctxs c = some cc)
    (hv : ∀ cc', v = some cc' → cc'.owner = cc.owner ∧ cc'.engineCtx = cc.engineCtx) :
    Linked (Function.update ctxs c v) engineCtxRef closedConns nextConn := by
  refine h.mono fun c' cc' hc' => ?_
  by_cases hEq : c' = c
  · subst hEq
    rw [Function.update_self] at hc'
    exact ⟨cc, hc, (hv cc' hc').1.symm, (hv cc' hc').2.symm⟩
  · rw [Function.update_of_ne hEq] at hc'
    exact ⟨cc', hc', rfl, rfl⟩

theorem Linked.requeue {ctxs : Ptr → Option Ctx} {engineCtxRef : Ptr → Option Nat}
    {closedConns : List Nat} {nextConn : Nat}
    (h : Linked ctxs engineCtxRef closedConns nextConn) (p : Ptr) (sc : StreamCtx) :
    Linked (Cli.requeued ctxs p sc) engineCtxRef closedConns nextConn := by
  refine h.mono fun c cc' hc => ?_
  obtain ⟨cc, free, hcc, rfl⟩ := Cli.requeued_some hc
  exact ⟨cc, hcc, rfl, rfl⟩

theorem Linked.connect {ctxs : Ptr → Option Ctx} {engineCtxRef : Ptr → Option Nat}
    {closedConns : List Nat} {nextConn : Nat}
    (h : Linked ctxs engineCtxRef closedConns nextConn) {c ref : Ptr}
    (hRef : engineCtxRef ref = none) :
    Linked (Function.update ctxs c (some ⟨some ref, [], [], false, nextConn⟩))
      (Function.update engineCtxRef ref (some nextConn)) closedConns (nextConn + 1) := by
  constructor
  · intro c' cc ref' hc' hRef'
    rcases update_some_iff.mp hc' with ⟨_, rfl⟩ | ⟨_, hc'⟩
    · cases hRef'
      exact Function.update_self ..
    · have hEntry := h.entry c' cc ref' hc' hRef'
      refine update_of_some hEntry ?_
      rintro rfl
      rw [hRef] at hEntry
      cases hEntry
  · intro ref' n hn
    rcases update_some_iff.mp hn with ⟨_, rfl⟩ | ⟨_, hn⟩
    · refine ⟨Nat.lt_succ_self _, fun hMem => ?_⟩
      exact Nat.lt_irrefl _ (h.closed_lt _ hMem)
    · obtain ⟨hLt, hOpen⟩ := h.entry_open ref' n hn
      exact ⟨Nat.lt_succ_of_lt hLt, hOpen⟩
  · intro ref₁ ref₂ n h₁ h₂
    rcases update_some_iff.mp h₁ with ⟨rfl, rfl⟩ | ⟨_, hOld₁⟩
    · rcases update_some_iff.mp h₂ with ⟨rfl, _⟩ | ⟨_, hOld₂⟩
      · rfl
      · exact absurd (h.entry_open ref₂ _ hOld₂).1 (Nat.lt_irrefl _)
    · rcases update_some_iff.mp h₂ with ⟨_, rfl⟩ | ⟨_, hOld₂⟩
      · exact absurd (h.entry_open ref₁ _ hOld₁).1 (Nat.lt_irrefl _)
      · exact h.entry_inj ref₁ ref₂ n hOld₁ hOld₂
  · exact fun n hn => Nat.lt_succ_of_lt (h.closed_lt n hn)
  · exact h.closed_nodup

/-- A close takes the reference of the context out of the map and closes the
connection that it named. -/
theorem Linked.close {ctxs : Ptr → Option Ctx} {e : Engine}
    (h : Linked ctxs e.engineCtxRef e.closedConns e.nextConn) (hOwned : Owned ctxs e.nextConn)
    {c : Ptr} {cc : Ctx} (hc : ctxs c = some cc) {v : Option Ctx}
    (hv : ∀ cc', v = some cc' → cc'.engineCtx = none) :
    Linked (Function.update ctxs c v) (e.closedRef cc.engineCtx).engineCtxRef
      (e.closedRef cc.engineCtx).closedConns e.nextConn := by
  have hOther : ∀ c' cc' ref, Function.update ctxs c v c' = some cc' → cc'.engineCtx = some ref →
      c' ≠ c ∧ ctxs c' = some cc' := by
    intro c' cc' ref hc' hRef
    by_cases hEq : c' = c
    · subst hEq
      rw [Function.update_self] at hc'
      rw [hv cc' hc'] at hRef
      cases hRef
    · rw [Function.update_of_ne hEq] at hc'
      exact ⟨hEq, hc'⟩
  cases hEngine : cc.engineCtx with
  | none =>
    simp only [Engine.closedRef, Option.elim_none, Option.bind_none, Option.toList_none,
      List.append_nil]
    refine { h with entry := ?_ }
    intro c' cc' ref hc' hRef
    exact h.entry c' cc' ref (hOther c' cc' ref hc' hRef).2 hRef
  | some ref =>
    have hEntry := h.entry c cc ref hc hEngine
    simp only [Engine.closedRef, Option.elim_some, Option.bind_some, hEntry, Option.toList_some]
    constructor
    · intro c' cc' ref' hc' hRef'
      obtain ⟨hNe, hc'⟩ := hOther c' cc' ref' hc' hRef'
      have hEntry' := h.entry c' cc' ref' hc' hRef'
      refine update_none_iff.mpr ⟨?_, hEntry'⟩
      rintro rfl
      rw [hEntry] at hEntry'
      exact hNe (hOwned.inj c' cc' c cc hc' hc (Option.some.inj hEntry').symm)
    · intro ref' n hn
      obtain ⟨hNe, hn⟩ := update_none_iff.mp hn
      obtain ⟨hLt, hOpen⟩ := h.entry_open ref' n hn
      refine ⟨hLt, fun hMem => ?_⟩
      rcases List.mem_append.mp hMem with hMem | hMem
      · exact hOpen hMem
      · rw [List.mem_singleton.mp hMem] at hn
        exact hNe (h.entry_inj ref' ref cc.owner hn hEntry)
    · intro ref₁ ref₂ n h₁ h₂
      exact h.entry_inj ref₁ ref₂ n (update_none_iff.mp h₁).2 (update_none_iff.mp h₂).2
    · intro n hn
      rcases List.mem_append.mp hn with hn | hn
      · exact h.closed_lt n hn
      · rw [List.mem_singleton.mp hn]
        exact (h.entry_open ref cc.owner hEntry).1
    · refine List.nodup_append.mpr ⟨h.closed_nodup, List.nodup_singleton _, ?_⟩
      rintro n hn m hm rfl
      rw [List.mem_singleton.mp hm] at hn
      exact (h.entry_open ref cc.owner hEntry).2 hn

theorem Change.linked {a : Action} (hOwned : Owned s.cli.ctxs s.eng.nextConn)
    (hLinked : Linked s.cli.ctxs s.eng.engineCtxRef s.eng.closedConns s.eng.nextConn)
    (h : s.Change a t) :
    Linked t.cli.ctxs t.eng.engineCtxRef t.eng.closedConns t.eng.nextConn := by
  cases h with
  | connect hc hRef => exact hLinked.connect hRef
  | connClose hHd hcc => exact hLinked.close hOwned hcc (by rintro _ ⟨⟩; rfl)
  | connDelay hHd hcc => exact hLinked.close hOwned hcc (by rintro _ ⟨⟩; rfl)
  | connFree hHd hcc => exact hLinked.close hOwned hcc (by rintro _ ⟨⟩)
  | openFailed r isHttp type hcc =>
    simp only [Cli.taken, Cli.setCtx, Cli.setSctx, Function.update_idem]
    exact hLinked.update hcc (by rintro _ ⟨⟩; exact ⟨rfl, rfl⟩)
  | kick hPrep =>
    cases hPrep with
    | opens r isHttp type hHd hOpen hcc =>
      exact hLinked.update hcc (by rintro _ ⟨⟩; exact ⟨rfl, rfl⟩)
    | stream => exact hLinked
  | resume => exact hLinked.requeue _ _
  | timeout => exact hLinked.requeue _ _
  | streamGc hHd hcc => exact hLinked.update hcc (by rintro _ ⟨⟩; exact ⟨rfl, rfl⟩)
  | streamGcFree hHd hcc => exact hLinked.update hcc (by rintro _ ⟨⟩)
  | _ => exact hLinked

theorem Run.linked (h : Run ok s) :
    Linked s.cli.ctxs s.eng.engineCtxRef s.eng.closedConns s.eng.nextConn :=
  h.induct (P := fun s => Linked s.cli.ctxs s.eng.engineCtxRef s.eng.closedConns s.eng.nextConn)
    linked_init fun _ _ _ hRun _ hLinked _ _ hChange => hChange.linked (Run.owned hRun) hLinked

/-! ## No operation touches freed memory -/

theorem handle_error {m : Nat → Option Handle} {g : Nat} {e : Stop} (h : handle m g = .error e) :
    e = .blocked := by
  unfold handle at h
  split at h
  · cases h
  · cases h
    rfl

theorem Valid.luaConnClose_safe (hv : s.Valid) {g : Nat} {fault : Fault} :
    s.luaConnClose g ≠ .error (.fault fault) := by
  intro h
  rcases bind_eq_error h with hHandle | ⟨hd, hHd, h⟩
  · cases handle_error hHandle
  · obtain ⟨cc, hcc, _⟩ := hv.cli.handles.conn_ctx g hd (handle_ok hHd)
    split at h
    · cases h
    · have hClose := closeEngineCtx_eq (c := hd.ctx) (s := { s with
        cli := { s.cli with
          conns := Function.update s.cli.conns g (some { hd with closed := true }) } }) hcc
      rw [close, hClose, ok_bind] at h
      cases h

theorem Valid.luaConnGc_safe (hv : s.Valid) {g : Nat} {fault : Fault} :
    s.luaConnGc g ≠ .error (.fault fault) := by
  intro h
  rcases bind_eq_error h with hHandle | ⟨hd, hHd, h⟩
  · cases handle_error hHandle
  · obtain ⟨cc, hcc, _⟩ := hv.cli.handles.conn_ctx g hd (handle_ok hHd)
    split at h
    · cases h
    · rename_i hGuard
      have hInv := (hv.cli.dropConn fun co f hf hOp hEq =>
        suspended_guard hv hGuard hf ⟨hOp, hEq⟩).setEngineCtx hcc none
      obtain ⟨cli, hFree⟩ := hInv.freeConn_total (Function.update_self ..)
      have hClose := closeEngineCtx_eq (c := hd.ctx) (s := { s with
        cli := { s.cli with conns := Function.update s.cli.conns g none } }) hcc
      rw [close, hClose, ok_bind, if_pos rfl] at h
      simp only [Cli.setCtx] at hFree h
      rw [deref_eq (Function.update_self ..), ok_bind] at h
      split at h
      · rw [hFree] at h
        cases h
      · cases h

/-- A stream that no frame refers to is finalised, and the finaliser that takes
the last entry of a delayed context frees the context. -/
theorem Valid.luaStreamGc_eq (hv : s.Valid) {h : Nat} {hd : Handle} {c : Ptr} {cc : Ctx}
    (hHd : s.cli.streams h = some hd)
    (hUse : ∀ co f, s.cli.frames co = some f → ¬ (f.op.onStream = true ∧ f.handle = h))
    (hcc : s.cli.ctxs c = some cc) (hMem : hd.ctx ∈ cc.opening) :
    ∃ cli, s.luaStreamGc h = .ok { s with eng := s.eng.grpcEngineCloseStream hd.ctx, cli } ∧
      (cc.freeDelayed ∧ cc.opening.erase hd.ctx = [] → cli.ctxs c = none) := by
  obtain ⟨sc, hsc, hParent, _⟩ := hv.cli.lists.opening_sctx c cc hd.ctx hcc hMem
  have hGuard : ¬ ∃ f ∈ s.cli.suspended, f.op.onStream = true ∧ f.handle = h := by
    rintro ⟨f, hf, hEq⟩
    exact hUse f.co f (hv.mem_suspended.mp hf) hEq
  have hHandle : handle s.cli.streams h = .ok hd := by rw [handle, hHd]
  have hInv : Cli.Inv { s.cli with streams := Function.update s.cli.streams h none } :=
    hv.cli.dropHandle fun co f hf hOp hEq => hUse co f hf ⟨hOp, hEq⟩
  have hReleased := hv.released hHd hcc hMem hsc fun _ _ hf => hv.stream_idle hHd hUse hf
  obtain ⟨cli, hFree⟩ := hReleased.freeConn_total (Function.update_self ..)
  rw [luaStreamGc, hHandle, ok_bind, if_neg hGuard, closeStream]
  simp only [if_true, hInv.releaseSctx_eq hcc hMem hsc hParent]
  split
  · refine ⟨cli, by rw [hFree, ok_bind], fun _ => ?_⟩
    rw [Cli.freeConn_ok (Function.update_self ..) hFree]
    exact Function.update_self ..
  · rename_i hKeep
    exact ⟨_, rfl, fun hLast => absurd hLast hKeep⟩

theorem Valid.luaStreamGc_safe (hv : s.Valid) {h : Nat} {fault : Fault} :
    s.luaStreamGc h ≠ .error (.fault fault) := by
  intro hRes
  by_cases hGuard : ∃ f ∈ s.cli.suspended, f.op.onStream = true ∧ f.handle = h
  · rcases bind_eq_error hRes with hHandle | ⟨hd, hHd, hRes⟩
    · cases handle_error hHandle
    · rw [if_pos hGuard] at hRes
      cases hRes
  · rcases bind_eq_error hRes with hHandle | ⟨hd, hHd, _⟩
    · cases handle_error hHandle
    · have hHd := handle_ok hHd
      obtain ⟨_, c, cc, _, _, hcc, hMem⟩ := hv.cli.handles.stream_sctx h hd hHd
      obtain ⟨cli, hOk, _⟩ := hv.luaStreamGc_eq hHd (fun co f => suspended_guard hv hGuard) hcc hMem
      rw [hOk] at hRes
      cases hRes

/-- Taking an sctx reads only the context and its free list. -/
theorem takeSctx_safe (hv : s.Valid) {c : Ptr} {cc : Ctx} (hcc : s.cli.ctxs c = some cc)
    {alloc : Option Ptr} {r : Nat} {isHttp : Bool} {type : StreamType} {fault : Fault} :
    s.cli.takeSctx c alloc r isHttp type ≠ .error (.fault fault) := by
  intro h
  rw [Cli.takeSctx, deref_eq hcc, ok_bind] at h
  split at h
  · rename_i p hLast
    obtain ⟨sc, hsc, _⟩ := hv.cli.lists.free_sctx c cc p hcc (List.mem_of_getLast? hLast)
    rw [deref_eq hsc] at h
    cases h
  · cases alloc with
    | none => cases h
    | some p =>
      simp only at h
      split at h <;> cases h

theorem Valid.luaOpen_safe (hv : s.Valid)
    (hLinked : Linked s.cli.ctxs s.eng.engineCtxRef s.eng.closedConns s.eng.nextConn)
    {op : OpKind} {type : StreamType} {g co r : Nat} {isHttp : Bool} {env : KickEnv}
    {fault : Fault} : s.luaOpen op type g co r isHttp env ≠ .error (.fault fault) := by
  intro h
  rcases bind_eq_error h with hHandle | ⟨hd, hHd, h⟩
  · cases handle_error hHandle
  obtain ⟨cc, hcc, _⟩ := hv.cli.handles.conn_ctx g hd (handle_ok hHd)
  split at h
  · cases h
  split at h
  · cases h
  rcases bind_eq_error h with hNew | ⟨⟨out, u⟩, _, h⟩
  · rw [newStream, deref_eq hcc, ok_bind] at hNew
    split at hNew
    · cases hNew
    rename_i ref hEngine
    have hEntry := hLinked.entry hd.ctx cc ref hcc hEngine
    rcases bind_eq_error hNew with hTake | ⟨sctx, hTake, hNew⟩
    · exact takeSctx_safe hv hcc hTake
    obtain ⟨cc', hcc', hTakes⟩ := Cli.takeSctx_ok hTake
    rw [hcc] at hcc'
    cases hcc'
    obtain rfl | ⟨free, p, hTakes, rfl⟩ := hTakes
    · cases hNew
    rcases bind_eq_error hNew with hKick | ⟨⟨res, u⟩, hKick, hNew⟩
    · rcases kickOffTask_error hKick with hEq | hNone
      · cases hEq
      · simp [Cli.taken, Cli.setSctx] at hNone
    obtain ⟨msg, ph, rfl, _, rfl⟩ | ⟨addr, sc, rfl, _, _, rfl⟩ := kickOffTask_ok hKick
    · simp only [Cli.pushFree, Cli.taken, Cli.setCtx, Cli.setSctx] at hNew
      rw [deref_eq (Function.update_self ..)] at hNew
      cases hNew
    · simp only [Engine.grpcEngineCall, Engine.grpcEngineNewStream, Engine.openOp, hEntry,
        Cli.pushOpening, armed, Cli.taken, Cli.setCtx, Cli.setSctx] at hNew
      rw [deref_eq (Function.update_self ..)] at hNew
      split at hNew <;> cases hNew
  · cases out <;> cases h

/-- A goroutine that cannot move is only not there yet. -/
theorem goroutine_error {e : Engine} {k : Nat} {x : Stop}
    (h : (∃ out, e.goReturn k out = .error x) ∨ e.goReport k = .error x ∨
      e.reportPanic k = .error x) : x = .blocked := by
  rcases h with ⟨out, h⟩ | h | h
  · unfold Engine.goReturn at h
    split at h
    · split at h
      · cases out <;> cases h
      · cases h
        rfl
    · cases h
      rfl
  · unfold Engine.goReport at h
    split at h
    · split at h
      · cases h
      · cases h
        rfl
    · cases h
      rfl
  · unfold Engine.reportPanic at h
    split at h
    · split at h
      · cases h
      · cases h
      · cases h
        rfl
    · cases h
      rfl

/-- The lookup in `StreamRef` and the record array of the wait thread apart,
no action goes down. -/
theorem Valid.safe (hv : s.Valid)
    (hLinked : Linked s.cli.ctxs s.eng.engineCtxRef s.eng.closedConns s.eng.nextConn) {a : Action}
    {fault : Fault} (hFault : s.faults a = some fault) :
    fault = .streamPanic ∨ ∃ oom postOk, a = .threadEvent oom postOk := by
  have hStep := faults_eq_some.mp hFault
  cases a with
  | connect alloc dial ref =>
    simp only [step, luaConnect, connect] at hStep
    split at hStep
    · cases hStep
    · split at hStep
      · cases hStep
      · split at hStep <;> cases hStep
  | connClose g => exact absurd hStep hv.luaConnClose_safe
  | connGc g => exact absurd hStep hv.luaConnGc_safe
  | call g co r isHttp env => exact absurd hStep (hv.luaOpen_safe hLinked)
  | newStream g co r isHttp type env =>
    simp only [step, luaNewStream] at hStep
    split at hStep
    · cases hStep
    · exact absurd hStep (hv.luaOpen_safe hLinked)
  | recv k co r env => exact .inl (hv.luaStreamOp_fault rfl hStep).1
  | send k co r env => exact .inl (hv.luaStreamOp_fault rfl hStep).1
  | closeSend k co r env => exact .inl (hv.luaStreamOp_fault rfl hStep).1
  | streamClose k =>
    rcases bind_eq_error hStep with hHandle | ⟨hd, _, hStep⟩
    · cases handle_error hHandle
    · split at hStep <;> cases hStep
  | streamGc k => exact absurd hStep hv.luaStreamGc_safe
  | timer co => rw [hv.wait_end_safe (.inr (.inl ⟨co, rfl⟩))] at hFault; cases hFault
  | abort co => rw [hv.wait_end_safe (.inr (.inr ⟨co, rfl⟩))] at hFault; cases hFault
  | drain => rw [hv.wait_end_safe (.inl rfl)] at hFault; cases hFault
  | goReturn k out =>
    rcases bind_eq_error hStep with hGo | ⟨_, _, hStep⟩
    · cases goroutine_error (.inl ⟨out, hGo⟩)
    · cases hStep
  | goReport k =>
    rcases bind_eq_error hStep with hGo | ⟨_, _, hStep⟩
    · cases goroutine_error (.inr (.inl hGo))
    · cases hStep
  | goDefer k =>
    rcases bind_eq_error hStep with hGo | ⟨_, _, hStep⟩
    · cases goroutine_error (.inr (.inr hGo))
    · cases hStep
  | waitTimer => cases hStep
  | waitReturn =>
    simp only [step, waitReturn] at hStep
    split at hStep
    · split at hStep <;> cases hStep
    · cases hStep
  | threadTest =>
    simp only [step, threadTest] at hStep
    split at hStep
    · split at hStep
      · split at hStep <;> cases hStep
      · cases hStep
    · cases hStep
  | threadEvent oom postOk => exact .inr ⟨oom, postOk, rfl⟩
  | postEvent =>
    simp only [step, postEvent] at hStep
    split at hStep <;> cases hStep
  | quit => cases hStep
  | exit => cases hStep
  | terminate => cases hStep

/-! ## Every operation finds its connection -/

/-- What the engine knows of the connections. -/
structure Sound (s : State) : Prop where
  valid : s.Valid
  owned : Owned s.cli.ctxs s.eng.nextConn
  linked : Linked s.cli.ctxs s.eng.engineCtxRef s.eng.closedConns s.eng.nextConn

theorem sound_init : init.Sound := ⟨valid_init, owned_init, linked_init⟩

theorem Sound.step (h : s.Sound) {a : Action} (hStep : s.step a = .ok t) : t.Sound := by
  have hChange := h.valid.step_change hStep
  exact ⟨hChange.valid h.valid, hChange.owned h.owned, hChange.linked h.owned h.linked⟩

theorem threadEventHandler_no_panic {oom : List Nat} {postOk : Bool} :
    s.threadEventHandler oom postOk ≠ .error (.fault .connPanic) := by
  intro h
  unfold threadEventHandler at h
  split at h
  · rcases bind_eq_error h with hPost | ⟨u, _, h⟩
    · rcases bind_eq_error hPost with hRead | ⟨recs, _, hPost⟩
      · unfold readBatch at hRead
        split at hRead
        · cases hRead
        · rcases bind_eq_error hRead with hNull | ⟨b, _, hRead⟩
          · cases hBatch : s.thread.finishedTasks <;> rw [hBatch] at hNull <;> cases hNull
          · split at hRead <;> cases hRead
      · split at hPost
        · split at hPost <;> cases hPost
        · cases hPost
    · split at h
      · cases h
      · split at h
        · cases h
        · split at h <;> cases h
  · cases h

theorem Linked.resolve {ctxs : Ptr → Option Ctx} {e : Engine}
    (h : Linked ctxs e.engineCtxRef e.closedConns e.nextConn) {c ref : Ptr} {cc : Ctx} {n : Nat}
    (hcc : ctxs c = some cc) (hEngine : cc.engineCtx = some ref)
    (hRef : e.engineCtxRef ref = some n) : n = cc.owner ∧ n ∉ e.closedConns := by
  have hEntry := h.entry c cc ref hcc hEngine
  rw [hRef] at hEntry
  exact ⟨Option.some.inj hEntry, (h.entry_open ref n hRef).2⟩

/-- Every reference is found and leads to the connection of its own context. -/
structure References (s : State) : Prop where
  entry : ∀ c cc ref, s.cli.ctxs c = some cc → cc.engineCtx = some ref →
    s.eng.engineCtxRef ref = some cc.owner
  distinct : ∀ c cc c' cc' ref, s.cli.ctxs c = some cc → s.cli.ctxs c' = some cc' →
    cc.engineCtx = some ref → cc'.engineCtx = some ref → c = c'
  closed_once : s.eng.closedConns.Nodup

theorem Sound.references (h : s.Sound) : s.References := by
  refine ⟨h.linked.entry, ?_, h.linked.closed_nodup⟩
  intro c cc c' cc' ref hcc hcc' hRef hRef'
  have hEntry := h.linked.entry c cc ref hcc hRef
  rw [h.linked.entry c' cc' ref hcc' hRef'] at hEntry
  exact h.owned.inj c cc c' cc' hcc hcc' (Option.some.inj hEntry).symm

/-- The lookup of a call or of a stream open does not panic, and the RPC runs on
the connection of the context that it was issued on, which is not closed. -/
structure ConnsFound (s : State) : Prop extends References s where
  no_panic : ∀ a, s.faults a ≠ some .connPanic
  own : ∀ a t k op, s.step a = .ok t → s.eng.ops k = none → t.eng.ops k = some op →
    op.kind.onStream = false → ∃ f hd cc, t.cli.kicks k = some f ∧
      s.cli.conns f.handle = some hd ∧ s.cli.ctxs hd.ctx = some cc ∧ op.conn = cc.owner ∧
      op.conn ∉ s.eng.closedConns

theorem Sound.connsFound (h : s.Sound) : s.ConnsFound := by
  refine ⟨h.references, ?_, ?_⟩
  · intro a hFault
    rcases h.valid.safe h.linked hFault with hEq | ⟨oom, postOk, rfl⟩
    · cases hEq
    · exact threadEventHandler_no_panic (faults_eq_some.mp hFault)
  · intro a t k op hStep hNone hOp hOpen
    have hOld : s.eng.ops k ≠ some op := by
      rw [hNone]
      exact (Option.some_ne_none op).symm
    cases h.valid.step_change hStep with
    | @kick _ f ctxs sctxs sc op' addr hPrep hKick hFrame hAddr =>
      rcases update_some_iff.mp hOp with ⟨rfl, rfl⟩ | ⟨_, hOp⟩
      · cases hPrep with
        | @opens hd cc ref n free r isHttp type hHd _ hcc hEngine hRef =>
          obtain ⟨hConn, hNot⟩ := h.linked.resolve hcc hEngine hRef
          exact ⟨f, hd, cc, Function.update_self .., hHd, hcc, hConn, hNot⟩
        | stream _ _ _ _ _ _ hOn =>
          rw [hOn] at hOpen
          cases hOpen
      · exact absurd hOp hOld
    | goReturn hOp' | goReport hOp' | goPanic hOp' | goDone hOp' =>
      rcases update_some_iff.mp hOp with ⟨rfl, _⟩ | ⟨_, hOp⟩
      · rw [hNone] at hOp'
        cases hOp'
      · exact absurd hOp hOld
    | _ => exact absurd hOp hOld

/-! ## How long a context lives -/

/-- A context has its handle or waits for its streams. -/
structure Lifetimes (ctxs : Ptr → Option Ctx) (conns : Nat → Option Handle) : Prop where
  live : ∀ c cc, ctxs c = some cc → cc.freeDelayed = false →
    ∃ hd, conns cc.owner = some hd ∧ hd.ctx = c
  delayed : ∀ c cc, ctxs c = some cc → cc.freeDelayed = true → cc.opening ≠ []

theorem Lifetimes.update {ctxs : Ptr → Option Ctx} {conns : Nat → Option Handle}
    (h : Lifetimes ctxs conns) {c : Ptr} {cc : Ctx} {v : Option Ctx} (hc : ctxs c = some cc)
    (hv : ∀ cc', v = some cc' → cc'.owner = cc.owner ∧ cc'.freeDelayed = cc.freeDelayed ∧
      (cc'.freeDelayed = true → cc.opening ≠ [] → cc'.opening ≠ [])) :
    Lifetimes (Function.update ctxs c v) conns := by
  constructor
  · intro c' cc' hc' hLive
    by_cases hEq : c' = c
    · subst hEq
      rw [Function.update_self] at hc'
      obtain ⟨hOwner, hDelay, _⟩ := hv cc' hc'
      rw [hOwner]
      exact h.live c' cc hc (hDelay ▸ hLive)
    · rw [Function.update_of_ne hEq] at hc'
      exact h.live c' cc' hc' hLive
  · intro c' cc' hc' hDelayed
    by_cases hEq : c' = c
    · subst hEq
      rw [Function.update_self] at hc'
      obtain ⟨_, hDelay, hOpening⟩ := hv cc' hc'
      exact hOpening hDelayed (h.delayed c' cc hc (hDelay ▸ hDelayed))
    · rw [Function.update_of_ne hEq] at hc'
      exact h.delayed c' cc' hc' hDelayed

theorem Lifetimes.requeue {ctxs : Ptr → Option Ctx} {conns : Nat → Option Handle}
    (h : Lifetimes ctxs conns) (p : Ptr) (sc : StreamCtx) :
    Lifetimes (Cli.requeued ctxs p sc) conns := by
  constructor
  · intro c cc' hc hLive
    obtain ⟨cc, free, hcc, rfl⟩ := Cli.requeued_some hc
    exact h.live c cc hcc hLive
  · intro c cc' hc hDelayed
    obtain ⟨cc, free, hcc, rfl⟩ := Cli.requeued_some hc
    exact h.delayed c cc hcc hDelayed

theorem Lifetimes.updateConn (hOwned : Owned s.cli.ctxs s.eng.nextConn) (hv : s.Valid)
    (h : Lifetimes s.cli.ctxs s.cli.conns) {g : Nat} {hd : Handle} (hHd : s.cli.conns g = some hd)
    {v : Option Ctx} {w : Option Handle}
    (hLive : ∀ cc, v = some cc → cc.freeDelayed = false →
      cc.owner = g ∧ ∃ hd', w = some hd' ∧ hd'.ctx = hd.ctx)
    (hDelayed : ∀ cc, v = some cc → cc.freeDelayed = true → cc.opening ≠ []) :
    Lifetimes (Function.update s.cli.ctxs hd.ctx v) (Function.update s.cli.conns g w) := by
  obtain ⟨cc, hcc, hOwner, _⟩ := hv.cli.handles.conn_ctx g hd hHd
  constructor
  · intro c cc' hc hNot
    by_cases hEq : c = hd.ctx
    · subst hEq
      rw [Function.update_self] at hc
      obtain ⟨rfl, hd', rfl, hCtx⟩ := hLive cc' hc hNot
      exact ⟨hd', Function.update_self .., hCtx⟩
    · rw [Function.update_of_ne hEq] at hc
      obtain ⟨hd', hHd', hCtx⟩ := h.live c cc' hc hNot
      refine ⟨hd', update_of_some hHd' fun hg => hEq ?_, hCtx⟩
      exact hOwned.inj c cc' hd.ctx cc hc hcc (hg.trans hOwner.symm)
  · intro c cc' hc hSome
    by_cases hEq : c = hd.ctx
    · subst hEq
      rw [Function.update_self] at hc
      exact hDelayed cc' hc hSome
    · rw [Function.update_of_ne hEq] at hc
      exact h.delayed c cc' hc hSome

theorem Run.lifetimes (h : Run ok s) : Lifetimes s.cli.ctxs s.cli.conns := by
  refine h.induct (P := fun s => Lifetimes s.cli.ctxs s.cli.conns)
    ⟨by simp [init, Cli.init], by simp [init, Cli.init]⟩ ?_
  intro s a t hRun hv hLife _ _ hChange
  have hOwned := Run.owned hRun
  cases hChange with
  | @connect alloc dial c ref hc hRef =>
    constructor
    · intro c' cc hc' hLive
      rcases update_some_iff.mp hc' with ⟨rfl, rfl⟩ | ⟨_, hc'⟩
      · exact ⟨_, Function.update_self .., rfl⟩
      · obtain ⟨hd, hHd, hCtx⟩ := hLife.live c' cc hc' hLive
        exact ⟨hd, update_of_some hHd (Nat.ne_of_lt (hOwned.lt c' cc hc')), hCtx⟩
    · intro c' cc hc' hDelayed
      rcases update_some_iff.mp hc' with ⟨_, rfl⟩ | ⟨_, hc'⟩
      · cases hDelayed
      · exact hLife.delayed c' cc hc' hDelayed
  | @connClose g hd cc hHd hcc =>
    obtain ⟨cc', hcc', hOwner, hLive⟩ := hv.cli.handles.conn_ctx g hd hHd
    rw [hcc] at hcc'
    cases hcc'
    refine hLife.updateConn hOwned hv hHd ?_ ?_
    · rintro _ ⟨⟩ _
      exact ⟨hOwner, _, rfl, rfl⟩
    · rintro _ ⟨⟩ hDelayed
      rw [hLive] at hDelayed
      cases hDelayed
  | connDelay hHd hcc hUse hOpening =>
    refine hLife.updateConn hOwned hv hHd ?_ ?_
    · rintro _ ⟨⟩ ⟨⟩
    · rintro _ ⟨⟩ _
      exact hOpening
  | connFree hHd hcc => exact hLife.updateConn hOwned hv hHd (by rintro _ ⟨⟩) (by rintro _ ⟨⟩)
  | openFailed r isHttp type hcc =>
    simp only [Cli.taken, Cli.setCtx, Cli.setSctx, Function.update_idem]
    exact hLife.update hcc (by rintro _ ⟨⟩; exact ⟨rfl, rfl, fun _ hOpening => hOpening⟩)
  | kick hPrep =>
    cases hPrep with
    | opens r isHttp type hHd hOpen hcc =>
      refine hLife.update hcc ?_
      rintro _ ⟨⟩
      refine ⟨rfl, rfl, fun _ hOpening => ?_⟩
      split
      · exact hOpening
      · exact List.cons_ne_nil _ _
    | stream => exact hLife
  | resume => exact hLife.requeue _ _
  | timeout => exact hLife.requeue _ _
  | streamGc hHd hcc hMem hsc hUse hKeep =>
    refine hLife.update hcc ?_
    rintro _ ⟨⟩
    exact ⟨rfl, rfl, fun hDelayed _ hNil => hKeep ⟨hDelayed, hNil⟩⟩
  | streamGcFree hHd hcc => exact hLife.update hcc (by rintro _ ⟨⟩)
  | _ => exact hLife

/-! ## The delayed free -/

/-- What a step does that frees context `c`. -/
structure FreesConn (s : State) (a : Action) (t : State) (cc : Ctx) : Prop where
  last : (a = .connGc cc.owner ∧ cc.opening = []) ∨ ∃ h hd, a = .streamGc h ∧
    s.cli.streams h = some hd ∧ cc.opening = [hd.ctx] ∧ s.cli.conns cc.owner = none
  finalised : t.cli.conns cc.owner = none
  once : (cc.free ++ cc.opening).Nodup ∧ ∀ p ∈ cc.free ++ cc.opening, s.cli.sctxs p ≠ none
  sctxs : ∀ p, t.cli.sctxs p = if p ∈ cc.free ++ cc.opening then none else s.cli.sctxs p

/-- Nothing of connection `g` is left that an operation could start from. -/
structure Retired (g : Nat) (s : State) : Prop where
  ctx : ∀ c cc, s.cli.ctxs c = some cc → cc.owner ≠ g
  conn : s.cli.conns g = none
  stream : ∀ h hd sc, s.cli.streams h = some hd → s.cli.sctxs hd.ctx = some sc → sc.owner ≠ g
  frame : ∀ co f sc, s.cli.frames co = some f → s.cli.sctxs f.sctx = some sc → sc.owner ≠ g

theorem Run.delayed_iff (h : Run ok s) {c : Ptr} {cc : Ctx} (hcc : s.cli.ctxs c = some cc) :
    s.cli.conns cc.owner = none ↔ cc.freeDelayed = true := by
  constructor
  · intro hNone
    by_contra hLive
    obtain ⟨hd, hHd, _⟩ := h.lifetimes.live c cc hcc (by simpa using hLive)
    rw [hNone] at hHd
    cases hHd
  · intro hDelayed
    cases hHd : s.cli.conns cc.owner with
    | none => rfl
    | some hd =>
      obtain ⟨cc', hcc', hOwner, hLive⟩ := h.valid.cli.handles.conn_ctx cc.owner hd hHd
      obtain rfl := h.owned.inj hd.ctx cc' c cc hcc' hcc hOwner
      rw [hcc] at hcc'
      cases hcc'
      rw [hDelayed] at hLive
      cases hLive

theorem Run.freed_once (h : Run ok s) {c : Ptr} {cc : Ctx} (hcc : s.cli.ctxs c = some cc) :
    (cc.free ++ cc.opening).Nodup ∧ ∀ p ∈ cc.free ++ cc.opening, s.cli.sctxs p ≠ none := by
  have hLists := h.valid.cli.lists
  refine ⟨hLists.nodup c cc hcc, fun p hp hNone => ?_⟩
  rcases List.mem_append.mp hp with hp | hp
  · obtain ⟨sc, hsc, _⟩ := hLists.free_sctx c cc p hcc hp
    rw [hNone] at hsc
    cases hsc
  · obtain ⟨sc, hsc, _⟩ := hLists.opening_sctx c cc p hcc hp
    rw [hNone] at hsc
    cases hsc

theorem Run.frees_conn (h : Run ok s) {a : Action} (hChange : s.Change a t) {c : Ptr} {cc : Ctx}
    (hcc : s.cli.ctxs c = some cc) (hNone : t.cli.ctxs c = none) : s.FreesConn a t cc := by
  have hSame : s.cli.ctxs c ≠ none := by
    rw [hcc]
    exact Option.some_ne_none cc
  have hRequeue : ∀ p sc, Cli.requeued s.cli.ctxs p sc c ≠ none := by
    intro p sc
    rw [Cli.requeued_apply, hcc]
    exact Option.some_ne_none _
  cases hChange with
  | connect | connClose | connDelay | streamGc => exact absurd hNone (update_some_ne_none hcc)
  | openFailed =>
    simp only [Cli.taken, Cli.setCtx, Cli.setSctx, Function.update_idem] at hNone
    exact absurd hNone (update_some_ne_none hcc)
  | kick hPrep =>
    cases hPrep with
    | opens => exact absurd hNone (update_some_ne_none hcc)
    | stream => exact absurd hNone hSame
  | resume => exact absurd hNone (hRequeue _ _)
  | timeout => exact absurd hNone (hRequeue _ _)
  | @connFree g hd cc' hHd hcc' hUse hOpening =>
    obtain rfl : c = hd.ctx := eq_of_update_none hcc hNone
    rw [hcc] at hcc'
    cases hcc'
    obtain ⟨cc', hcc', rfl, _⟩ := h.valid.cli.handles.conn_ctx g hd hHd
    rw [hcc] at hcc'
    cases hcc'
    refine ⟨.inl ⟨rfl, hOpening⟩, Function.update_self .., h.freed_once hcc, fun p => ?_⟩
    rw [hOpening, List.append_nil]
  | @streamGcFree k hd c' cc' sc hHd hcc' hMem hsc hUse hDelayed hLast =>
    obtain rfl : c = c' := eq_of_update_none hcc hNone
    rw [hcc] at hcc'
    cases hcc'
    have hOpening : cc.opening = [hd.ctx] :=
      (List.erase_eq_nil_iff.mp hLast).resolve_left (List.ne_nil_of_mem hMem)
    have hGone := (h.delayed_iff hcc).mpr hDelayed
    refine ⟨.inr ⟨k, hd, rfl, hHd, hOpening, hGone⟩, hGone, h.freed_once hcc, fun p => ?_⟩
    have hMem : p ∈ hd.ctx :: cc.free ↔ p ∈ cc.free ++ cc.opening := by
      rw [hOpening, List.mem_append, List.mem_singleton, List.mem_cons, or_comm]
    simp only [hMem]
  | _ => exact absurd hNone hSame

theorem Run.parent_live (h : Run ok s) {p : Ptr}
    (hUse : (∃ k hd, s.cli.streams k = some hd ∧ hd.ctx = p) ∨
      ∃ co f, s.cli.frames co = some f ∧ f.sctx = p) :
    ∃ sc c cc, s.cli.sctxs p = some sc ∧ sc.parent = some c ∧ s.cli.ctxs c = some cc ∧
      cc.owner = sc.owner := by
  have hInv := h.valid.cli
  have hHandle : ∀ k hd, s.cli.streams k = some hd → ∃ sc c cc, s.cli.sctxs hd.ctx = some sc ∧
      sc.parent = some c ∧ s.cli.ctxs c = some cc ∧ cc.owner = sc.owner := by
    intro k hd hHd
    obtain ⟨sc, c, cc, hsc, hParent, hcc, hMem⟩ := hInv.handles.stream_sctx k hd hHd
    obtain ⟨sc', hsc', _, hOwner, _⟩ := hInv.lists.opening_sctx c cc hd.ctx hcc hMem
    rw [hsc] at hsc'
    cases hsc'
    exact ⟨sc, c, cc, hsc, hParent, hcc, hOwner.symm⟩
  rcases hUse with ⟨k, hd, hHd, rfl⟩ | ⟨co, f, hf, rfl⟩
  · exact hHandle k hd hHd
  · cases hOp : f.op.onStream with
    | true =>
      obtain ⟨hd, hHd, hEq⟩ := hInv.refs.frame_stream co f hf hOp
      rw [← hEq]
      exact hHandle f.handle hd hHd
    | false =>
      obtain ⟨hd, cc, sc, _, hcc, hsc, hParent, hOwner, _⟩ := hInv.refs.frame_open co f hf hOp
      exact ⟨sc, hd.ctx, cc, hsc, hParent, hcc, hOwner.symm⟩

theorem Run.retired (h : Run ok s) {g : Nat}
    (hCtx : ∀ c cc, s.cli.ctxs c = some cc → cc.owner ≠ g) : s.Retired g := by
  have hParent : ∀ p sc, ((∃ k hd, s.cli.streams k = some hd ∧ hd.ctx = p) ∨
      ∃ co f, s.cli.frames co = some f ∧ f.sctx = p) → s.cli.sctxs p = some sc → sc.owner ≠ g := by
    intro p sc hUse hsc
    obtain ⟨sc', c, cc, hsc', _, hcc, hOwner⟩ := h.parent_live hUse
    rw [hsc] at hsc'
    cases hsc'
    rw [← hOwner]
    exact hCtx c cc hcc
  refine ⟨hCtx, ?_, fun k hd sc hHd => hParent hd.ctx sc (.inl ⟨k, hd, hHd, rfl⟩),
    fun co f sc hf => hParent f.sctx sc (.inr ⟨co, f, hf, rfl⟩)⟩
  cases hHd : s.cli.conns g with
  | none => rfl
  | some hd =>
    obtain ⟨cc, hcc, hOwner, _⟩ := h.valid.cli.handles.conn_ctx g hd hHd
    exact absurd hOwner (hCtx hd.ctx cc hcc)

theorem Run.never_again {u : State} (h : Run ok s) {g : Nat} (hLt : g < s.eng.nextConn)
    (hCtx : ∀ c cc, s.cli.ctxs c = some cc → cc.owner ≠ g)
    (hReach : Transition.Reaches step ok s u) : u.Retired g := by
  have hGone : g < u.eng.nextConn ∧ ∀ c cc, u.cli.ctxs c = some cc → cc.owner ≠ g := by
    refine hReach.invariant (P := fun u => g < u.eng.nextConn ∧ ∀ c cc, u.cli.ctxs c = some cc →
      cc.owner ≠ g) ⟨hLt, hCtx⟩ ?_
    intro u a u' hu hGone _ hStep
    obtain ⟨hKeeps, hNext⟩ | ⟨c, cc, hOwner, hCtxs, hNext⟩ :=
      ((Run.valid (h.trans hu)).step_change hStep).owners
    · refine ⟨hNext ▸ hGone.1, fun c cc' hcc' => ?_⟩
      obtain ⟨cc, hcc, hEq⟩ := hKeeps c cc' hcc'
      rw [← hEq]
      exact hGone.2 c cc hcc
    · refine ⟨by omega, fun c' cc' hcc' => ?_⟩
      rw [hCtxs] at hcc'
      rcases update_some_iff.mp hcc' with ⟨_, rfl⟩ | ⟨_, hcc'⟩
      · omega
      · exact hGone.2 c' cc' hcc'
  exact Run.retired (h.trans hReach) hGone.2

/-- Contexts are freed by the last finaliser, once, and not used afterwards. -/
structure DelayedFree (s : State) : Prop where
  safe : ∀ a fault, s.faults a = some fault →
    fault = .streamPanic ∨ ∃ oom postOk, a = .threadEvent oom postOk
  conn_own : ∀ g hd, s.cli.conns g = some hd → ∃ cc, s.cli.ctxs hd.ctx = some cc ∧ cc.owner = g
  sctx_own : ∀ p, ((∃ h hd, s.cli.streams h = some hd ∧ hd.ctx = p) ∨
    ∃ co f, s.cli.frames co = some f ∧ f.sctx = p) → ∃ sc c cc, s.cli.sctxs p = some sc ∧
      sc.parent = some c ∧ s.cli.ctxs c = some cc ∧ cc.owner = sc.owner
  delayed : ∀ c cc, s.cli.ctxs c = some cc → s.cli.conns cc.owner = none →
    cc.freeDelayed = true ∧ cc.opening ≠ []
  freed : ∀ a t c cc, s.step a = .ok t → s.cli.ctxs c = some cc → t.cli.ctxs c = none →
    s.FreesConn a t cc ∧ ∀ u, Transition.Reaches step (fun _ _ => True) t u → u.Retired cc.owner
  emptied : ∀ h hd c cc, s.cli.streams h = some hd → s.cli.ctxs c = some cc →
    cc.opening = [hd.ctx] → s.cli.conns cc.owner = none →
    (∀ co f, s.cli.frames co = some f → ¬ (f.op.onStream = true ∧ f.handle = h)) →
    ∃ t, s.step (.streamGc h) = .ok t ∧ t.cli.ctxs c = none

theorem delayed_free (h : Reachable s) : s.DelayedFree := by
  have hInv := h.valid.cli
  constructor
  · exact fun a fault => h.valid.safe h.linked
  · intro g hd hHd
    obtain ⟨cc, hcc, hOwner, _⟩ := hInv.handles.conn_ctx g hd hHd
    exact ⟨cc, hcc, hOwner⟩
  · exact fun p => h.parent_live
  · intro c cc hcc hNone
    have hDelayed := (h.delayed_iff hcc).mp hNone
    exact ⟨hDelayed, h.lifetimes.delayed c cc hcc hDelayed⟩
  · intro a t c cc hStep hcc hNone
    have hRun : Reachable t := .tail h trivial hStep
    have hChange := h.valid.step_change hStep
    refine ⟨h.frees_conn hChange hcc hNone, fun u hu => ?_⟩
    have hLt := h.owned.lt c cc hcc
    obtain ⟨hKeeps, hNext⟩ | ⟨c', cc', _, hCtxs, _⟩ := hChange.owners
    · refine hRun.never_again (hNext ▸ hLt) (fun c' cc' hcc' hEq => ?_) hu
      obtain ⟨cc₀, hcc₀, hOwner⟩ := hKeeps c' cc' hcc'
      obtain rfl := h.owned.inj c' cc₀ c cc hcc₀ hcc (hOwner.trans hEq)
      rw [hNone] at hcc'
      cases hcc'
    · rw [hCtxs] at hNone
      exact absurd hNone (update_some_ne_none hcc)
  · intro k hd c cc hHd hcc hOpening hNone hUse
    have hDelayed := (h.delayed_iff hcc).mp hNone
    obtain ⟨cli, hOk, hFreed⟩ := h.valid.luaStreamGc_eq hHd hUse hcc (by simp [hOpening])
    exact ⟨_, hOk, hFreed ⟨hDelayed, by simp [hOpening]⟩⟩

/-- The handle of the connection is finalised before the one of its stream. -/
theorem delayed_free_openedStream : ∃ s : State, s.cli.ctxs 1 = some ⟨none, [10], [], true, 0⟩ ∧
    s.DelayedFree := by
  have hRun := run_after (fun _ _ => True) (openedStream ++ [.connGc 0]) (by decide +kernel)
  exact ⟨_, by decide +kernel, delayed_free hRun⟩

end GrpcClient.State
