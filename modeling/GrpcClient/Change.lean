import GrpcClient.ClientOps
import GrpcClient.EngineOps
import GrpcClient.Lib.Transition
import GrpcClient.Worker

/-! # What one action of the worker does

`State.Change s a t` lists, case by case, the states `t` that action `a` can
lead to from a valid state `s`, with the facts that the code has checked on the
way. The invariants of the worker are proved from this list alone.
-/

namespace GrpcClient

open Fallible PartialMap

/-- A wait task that was idle has been posted. -/
def ThreadPhase.scheduled : ThreadPhase → ThreadPhase
  | .idle => .waiting
  | ph => ph

theorem ThreadPhase.scheduled_ne_idle (ph : ThreadPhase) : ph.scheduled ≠ .idle := by
  cases ph <;> simp [scheduled]

theorem ThreadCtx.scheduleTaskThreadIfNeeded_some {th th' : ThreadCtx} {postOk : Bool}
    (h : th.scheduleTaskThreadIfNeeded postOk = some th') :
    th' = { th with phase := th.phase.scheduled } := by
  cases hPhase : th.phase <;>
    simp [scheduleTaskThreadIfNeeded, taskPost, active, hPhase] at h <;>
    simp [ThreadPhase.scheduled, ← h, ← hPhase]

namespace State

structure Valid (s : State) : Prop where
  cli : s.cli.Inv
  conn_lt : ∀ g hd, s.cli.conns g = some hd → g < s.eng.nextConn

theorem valid_init : init.Valid := ⟨Cli.inv_init, by simp [init, Cli.init]⟩

variable {s t : State}

/-- How a kick-off gets its sctx and what it starts in the engine. A call or an
open takes an sctx and fills it in, an operation on a stream uses the one of its
handle. -/
inductive Prepares (s : State) (f : Frame) :
    (Ptr → Option Ctx) → (Ptr → Option StreamCtx) → StreamCtx → Op → Prop
  | opens {hd : Handle} {cc : Ctx} {ref : Ptr} {cn : Nat} {free : List Ptr} (r : Nat)
      (isHttp : Bool) (type : StreamType) (hHd : s.cli.conns f.handle = some hd)
      (hOpen : hd.closed = false) (hcc : s.cli.ctxs hd.ctx = some cc)
      (hEngine : cc.engineCtx = some ref) (hRef : s.eng.engineCtxRef ref = some cn)
      (hTake : s.cli.Takes cc free f.sctx) (hOp : f.op.onStream = false)
      (hType : type = .unary ↔ f.op = .call) :
      Prepares s f
        (Function.update s.cli.ctxs hd.ctx (some { cc with
          free, opening := if f.op = .call then cc.opening else f.sctx :: cc.opening }))
        (Function.update s.cli.sctxs f.sctx (some (Cli.freshSctx hd.ctx cc.owner r isHttp type)))
        (Cli.freshSctx hd.ctx cc.owner r isHttp type) ⟨f.sctx, f.op, cn, f.kick, .running⟩
  | stream {hd : Handle} {sc : StreamCtx} {st : Nat} (hHd : s.cli.streams f.handle = some hd)
      (hOpen : hd.closed = false) (hCtx : hd.ctx = f.sctx) (hsc : s.cli.sctxs f.sctx = some sc)
      (hWait : sc.waitCoCtx = none) (hRef : s.eng.streamRef f.sctx = some st)
      (hOp : f.op.onStream = true) :
      Prepares s f s.cli.ctxs s.cli.sctxs sc ⟨f.sctx, f.op, 0, st, .running⟩

inductive Change (s : State) : Action → State → Prop
  | idle {a : Action} : Change s a s
  | connect {alloc : Option Ptr} {dial : GoOut} {c ref : Ptr} (hc : s.cli.ctxs c = none)
      (hRef : s.eng.engineCtxRef ref = none) :
      Change s (.connect alloc dial ref) { s with
        eng := { s.eng with
          engineCtxRef := Function.update s.eng.engineCtxRef ref (some s.eng.nextConn)
          nextConn := s.eng.nextConn + 1 }
        cli := { s.cli.setCtx c ⟨some ref, [], [], false, s.eng.nextConn⟩ with
          conns := Function.update s.cli.conns s.eng.nextConn (some ⟨c, false⟩) } }
  | connClose {g : Nat} {hd : Handle} {cc : Ctx} (hHd : s.cli.conns g = some hd)
      (hcc : s.cli.ctxs hd.ctx = some cc) :
      Change s (.connClose g) { s with
        eng := s.eng.closedRef cc.engineCtx
        cli := { s.cli.setCtx hd.ctx { cc with engineCtx := none } with
          conns := Function.update s.cli.conns g (some { hd with closed := true }) } }
  | connDelay {g : Nat} {hd : Handle} {cc : Ctx} (hHd : s.cli.conns g = some hd)
      (hcc : s.cli.ctxs hd.ctx = some cc)
      (hUse : ∀ co f, s.cli.frames co = some f → f.op.onStream = false → f.handle ≠ g)
      (hOpening : cc.opening ≠ []) :
      Change s (.connGc g) { s with
        eng := s.eng.closedRef cc.engineCtx
        cli := { s.cli.setCtx hd.ctx { cc with engineCtx := none, freeDelayed := true } with
          conns := Function.update s.cli.conns g none } }
  | connFree {g : Nat} {hd : Handle} {cc : Ctx} (hHd : s.cli.conns g = some hd)
      (hcc : s.cli.ctxs hd.ctx = some cc)
      (hUse : ∀ co f, s.cli.frames co = some f → f.op.onStream = false → f.handle ≠ g)
      (hOpening : cc.opening = []) :
      Change s (.connGc g) { s with
        eng := s.eng.closedRef cc.engineCtx
        cli := { s.cli with
          sctxs := fun p => if p ∈ cc.free then none else s.cli.sctxs p
          ctxs := Function.update s.cli.ctxs hd.ctx none
          conns := Function.update s.cli.conns g none } }
  | openFailed {a : Action} {c p : Ptr} {cc : Ctx} {free : List Ptr} (r : Nat) (isHttp : Bool)
      (type : StreamType) {ph : ThreadPhase} (hcc : s.cli.ctxs c = some cc)
      (hTake : s.cli.Takes cc free p)
      (hPhase : ph = s.thread.phase ∨ ph = s.thread.phase.scheduled) :
      Change s a { s with
        cli := (s.cli.taken c cc free p (Cli.freshSctx c cc.owner r isHttp type)).setCtx c
          { cc with free := p :: free }
        thread := { s.thread with phase := ph } }
  | opFailed {a : Action} :
      Change s a { s with thread := { s.thread with phase := s.thread.phase.scheduled } }
  | kick {a : Action} {f : Frame} {ctxs : Ptr → Option Ctx} {sctxs : Ptr → Option StreamCtx}
      {sc : StreamCtx} {op : Op} {addr : Ptr} (hPrep : s.Prepares f ctxs sctxs sc op)
      (hKick : f.kick = s.cli.nextKick) (hRun : s.cli.frames f.co = none)
      (hAddr : addr ∉ s.cli.ongoingTasks.map Node.addr) :
      Change s a { s with
        cli := Cli.kicked { s.cli with ctxs, sctxs } f addr sc
        eng := s.eng.start f.kick op
        thread := { s.thread with phase := s.thread.phase.scheduled } }
  | resume {r : TaskRes} {occupied : List TaskRes} {f : Frame} {addr : Ptr} {sc : StreamCtx}
      (hOccupied : s.thread.occupied = r :: occupied) (hId : r.taskId = f.sctx)
      (hSettles : s.cli.Settles f addr sc (Cli.woken { sc with res := some r } f.sctx)) :
      Change s .drain { s with
        cli := s.cli.resumed f addr (Cli.woken { sc with res := some r } f.sctx) (.result r) r.reply
        thread := { s.thread with
          occupied, free := s.thread.free ++ [r], processed := s.thread.processed ++ [r] }
        mem := s.mem.freeBuf r.buf }
  | cancel {r : TaskRes} {occupied : List TaskRes} (hOccupied : s.thread.occupied = r :: occupied)
      (hMiss : ∀ co f, s.cli.frames co = some f → f.sctx ≠ r.taskId) :
      Change s .drain { s with
        thread := { s.thread with
          occupied, free := s.thread.free ++ [r], processed := s.thread.processed ++ [r] }
        mem := s.mem.freeBuf r.buf }
  | drained : Change s .drain { s with draining := false }
  | timeout {f : Frame} {addr : Ptr} {sc : StreamCtx}
      (hSettles : s.cli.Settles f addr sc (Cli.woken { sc with state := .timeout } f.sctx)) :
      Change s (.timer f.co) { s with
        cli := s.cli.resumed f addr (Cli.woken { sc with state := .timeout } f.sctx) .timeout
          (.fail timeoutMsg) }
  | abort {f : Frame} {addr : Ptr} {sc : StreamCtx}
      (hSettles : s.cli.Settles f addr sc { sc with node := none }) :
      Change s (.abort f.co) { s with
        cli := s.cli.settled f addr { sc with node := none } .aborted }
  | streamClose {h : Nat} {hd : Handle} (hHd : s.cli.streams h = some hd) :
      Change s (.streamClose h) { s with
        eng := s.eng.closedStream hd.ctx
        cli := { s.cli with
          streams := Function.update s.cli.streams h (some { hd with closed := true }) } }
  | streamGc {h : Nat} {hd : Handle} {c : Ptr} {cc : Ctx} {sc : StreamCtx}
      (hHd : s.cli.streams h = some hd) (hcc : s.cli.ctxs c = some cc) (hMem : hd.ctx ∈ cc.opening)
      (hsc : s.cli.sctxs hd.ctx = some sc)
      (hUse : ∀ co f, s.cli.frames co = some f → f.sctx ≠ hd.ctx)
      (hKeep : ¬ (cc.freeDelayed ∧ cc.opening.erase hd.ctx = [])) :
      Change s (.streamGc h) { s with
        eng := s.eng.closedStream hd.ctx
        cli := { s.cli with streams := Function.update s.cli.streams h none }.released c hd.ctx cc
          sc }
  | streamGcFree {h : Nat} {hd : Handle} {c : Ptr} {cc : Ctx} {sc : StreamCtx}
      (hHd : s.cli.streams h = some hd) (hcc : s.cli.ctxs c = some cc) (hMem : hd.ctx ∈ cc.opening)
      (hsc : s.cli.sctxs hd.ctx = some sc)
      (hUse : ∀ co f, s.cli.frames co = some f → f.sctx ≠ hd.ctx)
      (hDelayed : cc.freeDelayed = true) (hLast : cc.opening.erase hd.ctx = []) :
      Change s (.streamGc h) { s with
        eng := s.eng.closedStream hd.ctx
        cli := { s.cli with
          streams := Function.update s.cli.streams h none
          sctxs := fun p => if p ∈ hd.ctx :: cc.free then none else s.cli.sctxs p
          ctxs := Function.update s.cli.ctxs c none } }
  | goReturn {k : Nat} {out : GoOut} {op : Op} (hOp : s.eng.ops k = some op)
      (hRun : op.phase = .running) :
      Change s (.goReturn k out) { s with eng := s.eng.returned k op out }
  | goReport {k : Nat} {op : Op} {result err : Option Bytes} (hOp : s.eng.ops k = some op)
      (hPhase : op.phase = .reporting result err) :
      Change s (.goReport k) { s with
        eng := s.eng.reportedBy k op ⟨op.taskId, result, err, k⟩ (.deferred none) }
  | goPanic {k : Nat} {op : Op} {text : Bytes} (hOp : s.eng.ops k = some op)
      (hPhase : op.phase = .deferred (some text)) :
      Change s (.goDefer k) { s with
        eng := s.eng.reportedBy k op ⟨op.taskId, none, some text, k⟩ .finished }
  | goDone {k : Nat} {op : Op} (hOp : s.eng.ops k = some op) (hPhase : op.phase = .deferred none) :
      Change s (.goDefer k) { s with eng := s.eng.setPhase k op .finished }
  | waitTimer : Change s .waitTimer { s with eng := { s.eng with queue := s.eng.queue.signal } }
  | waitReturn {recs : List TaskRes} {queue : TaskQueue} (hPhase : s.thread.phase = .waiting)
      (hWait : s.eng.queue.wait = some (recs, queue)) :
      Change s .waitReturn { s with
        eng := { s.eng with queue }
        thread := { s.thread with
          phase := .returned
          finishedTasks := if recs = [] then none else some ⟨s.thread.nextBatch, recs⟩
          finishedTaskNum := recs.length
          nextBatch := s.thread.nextBatch + 1 } }
  | threadTest (hPhase : s.thread.phase = .returned)
      (hKeep : s.thread.finishedTasks = none ∨ ¬ (s.exiting ∨ s.terminate)) :
      Change s .threadTest { s with thread := { s.thread with phase := .completed } }
  | threadFree {b : Batch} (hPhase : s.thread.phase = .returned)
      (hBatch : s.thread.finishedTasks = some b) (hStop : s.exiting ∨ s.terminate) :
      Change s .threadTest { s with
        thread := { s.thread with phase := .completed }
        mem := (b.recs.foldl (fun m r => m.freeBuf r.buf) s.mem).freeArray b }
  | threadEvent {oom : List Nat} {postOk : Bool} {thread : ThreadCtx} {mem : Mem}
      (hRun : s.threadEventHandler oom postOk = .ok { s with thread, mem }) :
      Change s (.threadEvent oom postOk) { s with thread, mem }
  | postEvent (hPosted : s.thread.posted = true) :
      Change s .postEvent { s with thread := { s.thread with posted := false }, draining := true }
  | quit : Change s .quit { s with quit := true }
  | exit : Change s .exit { s with quit := false, exiting := true }
  | terminate : Change s .terminate { s with terminate := true }

/-! ## Connections -/

theorem handle_ok {m : Nat → Option Handle} {g : Nat} {hd : Handle} (h : handle m g = .ok hd) :
    m g = some hd := by
  unfold handle at h
  split at h
  · cases h
    assumption
  · cases h

theorem luaConnect_change {alloc : Option Ptr} {dial : GoOut} {ref : Ptr}
    (h : s.luaConnect alloc dial ref = .ok t) : s.Change (.connect alloc dial ref) t := by
  unfold luaConnect connect at h
  cases alloc with
  | none =>
    cases h
    exact .idle
  | some c =>
    by_cases hUsed : (s.cli.ctxs c).isSome ∨ (s.eng.engineCtxRef ref).isSome
    · simp only [if_pos hUsed] at h
      cases h
    · simp only [if_neg hUsed] at h
      cases dial with
      | ok bytes =>
        cases h
        simp only [not_or, Option.not_isSome_iff_eq_none] at hUsed
        exact .connect hUsed.1 hUsed.2
      | err text =>
        cases h
        exact .idle
      | panic text =>
        cases h
        exact .idle

theorem closeEngineCtx_eq {c : Ptr} {cc : Ctx} (hcc : s.cli.ctxs c = some cc) :
    s.closeEngineCtx c = .ok { s with
      eng := s.eng.closedRef cc.engineCtx
      cli := s.cli.setCtx c { cc with engineCtx := none } } := by
  rw [closeEngineCtx, deref_eq hcc, ok_bind]
  split
  · rename_i hEngine
    have hSame : s.cli.setCtx c { cc with engineCtx := none } = s.cli := by
      rw [← hEngine, Cli.setCtx, ← hcc, Function.update_eq_self]
    simp [hSame, hEngine, Engine.closedRef]
  · rename_i ref hEngine
    rw [Engine.grpcEngineClose_eq, hEngine]

theorem closeEngineCtx_ok {c : Ptr} {cc : Ctx} (h : s.closeEngineCtx c = .ok t)
    (hcc : s.cli.ctxs c = some cc) : t = { s with
      eng := s.eng.closedRef cc.engineCtx
      cli := s.cli.setCtx c { cc with engineCtx := none } } := by
  rw [closeEngineCtx_eq hcc] at h
  exact (Except.ok.inj h).symm

theorem Valid.luaConnClose_change (hv : s.Valid) {g : Nat} (h : s.luaConnClose g = .ok t) :
    s.Change (.connClose g) t := by
  obtain ⟨hd, hHd, h⟩ := bind_eq_ok h
  have hHd := handle_ok hHd
  obtain ⟨cc, hcc, _⟩ := hv.cli.handles.conn_ctx g hd hHd
  split at h
  · cases h
    exact .idle
  · obtain ⟨u, hClose, h⟩ := bind_eq_ok h
    obtain rfl := closeEngineCtx_ok hClose hcc
    cases h
    exact .connClose hHd hcc

theorem Valid.mem_suspended (hv : s.Valid) {f : Frame} :
    f ∈ s.cli.suspended ↔ s.cli.frames f.co = some f := by
  simp only [Cli.suspended, List.mem_filterMap, List.mem_range, Option.filter_eq_some_iff,
    decide_eq_true_eq]
  constructor
  · rintro ⟨_, _, _, hf⟩
    exact hf
  · intro hf
    obtain ⟨_, hLt, hKick⟩ := hv.cli.suspended.frame_kick f.co f hf
    exact ⟨f.kick, hLt, hKick, hf⟩

theorem suspended_guard (hv : s.Valid) {P : Frame → Prop}
    (h : ¬ ∃ f ∈ s.cli.suspended, P f) {co : Nat} {f : Frame} (hf : s.cli.frames co = some f) :
    ¬ P f := by
  intro hP
  obtain ⟨rfl, _⟩ := hv.cli.suspended.frame_kick co f hf
  exact h ⟨f, hv.mem_suspended.mpr hf, hP⟩

theorem Valid.luaConnGc_change (hv : s.Valid) {g : Nat} (h : s.luaConnGc g = .ok t) :
    s.Change (.connGc g) t := by
  obtain ⟨hd, hHd, h⟩ := bind_eq_ok h
  have hHd := handle_ok hHd
  obtain ⟨cc, hcc, _⟩ := hv.cli.handles.conn_ctx g hd hHd
  split at h
  · cases h
  · rename_i hGuard
    have hUse : ∀ co f, s.cli.frames co = some f → f.op.onStream = false → f.handle ≠ g :=
      fun co f hf hOp hEq => suspended_guard hv hGuard hf ⟨hOp, hEq⟩
    obtain ⟨u, hClose, h⟩ := bind_eq_ok h
    obtain rfl := closeEngineCtx_ok hClose hcc
    simp only [if_true, Cli.setCtx] at h
    rw [deref_eq (Function.update_self ..), ok_bind] at h
    split at h
    · rename_i hOpening
      obtain ⟨cli, hCli, h⟩ := bind_eq_ok h
      cases h
      rw [Cli.freeConn_ok (Function.update_self ..) hCli]
      simp only [Function.update_idem]
      exact .connFree hHd hcc hUse hOpening
    · rename_i hOpening
      cases h
      simp only [Function.update_idem]
      exact .connDelay hHd hcc hUse hOpening

/-! ## Kick-offs -/

def armed (s : Cli) (p : Ptr) (co : Nat) (addr : Ptr) (sc : StreamCtx) : Cli :=
  { s with
    ongoingTasks := ⟨addr, p⟩ :: s.ongoingTasks
    ongoingTasksNum := s.ongoingTasksNum + 1
    sctxs := Function.update s.sctxs p
      (some { sc with node := some addr, state := .ok, waitCoCtx := some co })
    coctxs := Function.update s.coctxs co ⟨some p, true, some p, some (.of sc.isHttp)⟩ }

theorem keepTask_ok {s : Cli} {p : Ptr} {node : Option Ptr} {out : Option Cli}
    (h : s.keepTask p node = .ok out) : out = none ∨ ∃ addr sc,
      addr ∉ s.ongoingTasks.map Node.addr ∧ s.sctxs p = some sc ∧
      out = some { s.setSctx p { sc with node := some addr } with
        ongoingTasksNum := s.ongoingTasksNum + 1
        ongoingTasks := ⟨addr, p⟩ :: s.ongoingTasks } := by
  unfold Cli.keepTask at h
  split at h
  · cases h
    exact .inl rfl
  · rename_i addr
    split at h
    · cases h
    · rename_i hFresh
      obtain ⟨sc, hsc, h⟩ := bind_eq_ok h
      cases h
      exact .inr ⟨addr, sc, hFresh, deref_ok_iff.mp hsc, rfl⟩

theorem kickOffTask_ok {env : KickEnv} {p : Ptr} {co : Nat} {out : Option String}
    (h : s.kickOffTask env p co = .ok (out, t)) :
    (∃ msg ph, out = some msg ∧ (ph = s.thread.phase ∨ ph = s.thread.phase.scheduled) ∧
      t = { s with thread := { s.thread with phase := ph } }) ∨
    (∃ addr sc, out = none ∧ addr ∉ s.cli.ongoingTasks.map Node.addr ∧
      s.cli.sctxs p = some sc ∧
      t = { s with
        cli := armed s.cli p co addr sc
        thread := { s.thread with phase := s.thread.phase.scheduled } }) := by
  unfold kickOffTask at h
  split at h
  · cases h
    exact .inl ⟨_, _, rfl, .inl rfl, rfl⟩
  · split at h
    · cases h
      exact .inl ⟨_, _, rfl, .inl rfl, rfl⟩
    · split at h
      · cases h
        exact .inl ⟨_, _, rfl, .inl rfl, rfl⟩
      · rename_i th hTh
        obtain rfl := ThreadCtx.scheduleTaskThreadIfNeeded_some hTh
        obtain ⟨kept, hKept, h⟩ := bind_eq_ok h
        obtain rfl | ⟨addr, sc, hFresh, hsc, rfl⟩ := keepTask_ok hKept
        · cases h
          exact .inl ⟨_, _, rfl, .inr rfl, rfl⟩
        · obtain ⟨cli, hArm, h⟩ := bind_eq_ok h
          rw [Cli.armWait] at hArm
          simp only [Cli.setSctx] at hArm
          rw [deref_eq (Function.update_self ..), ok_bind] at hArm
          cases hArm
          cases h
          refine .inr ⟨addr, sc, rfl, hFresh, hsc, ?_⟩
          simp [armed, Cli.setCo]

theorem newStream_failed {a : Action} {c : Ptr} {cc : Ctx} {free : List Ptr} {p : Ptr} {r : Nat}
    {isHttp : Bool} {type : StreamType} {ph : ThreadPhase} {cli : Cli}
    (hcc : s.cli.ctxs c = some cc) (hTake : s.cli.Takes cc free p)
    (hPhase : ph = s.thread.phase ∨ ph = s.thread.phase.scheduled)
    (h : (s.cli.taken c cc free p (Cli.freshSctx c cc.owner r isHttp type)).pushFree c p =
      .ok cli) :
    s.Change a { s with cli, thread := { s.thread with phase := ph } } := by
  simp only [Cli.pushFree, Cli.taken, Cli.setCtx, Cli.setSctx] at h
  rw [deref_eq (Function.update_self ..), ok_bind] at h
  cases h
  simp only [Function.update_idem]
  have hFailed := Change.openFailed (a := a) r isHttp type hcc hTake hPhase
  simpa only [Cli.taken, Cli.setCtx, Cli.setSctx, Function.update_idem] using hFailed

theorem luaOpen_change {a : Action} {op : OpKind} {type : StreamType} {g co r : Nat}
    {isHttp : Bool} {env : KickEnv} (hOp : op = .call ∧ type = .unary ∨
      op = .newStream ∧ type ≠ .unary) (h : s.luaOpen op type g co r isHttp env = .ok t) :
    s.Change a t := by
  obtain ⟨hd, hHd, h⟩ := bind_eq_ok h
  have hHd := handle_ok hHd
  split at h
  · cases h
  rename_i hFrame
  have hRun : s.cli.frames co = none := by simpa using hFrame
  split at h
  · cases h
    exact .idle
  rename_i hClosed
  have hOpen : hd.closed = false := by simpa using hClosed
  obtain ⟨out, hNew, h⟩ := bind_eq_ok h
  obtain ⟨cc, hcc, hNew⟩ := bind_eq_ok hNew
  have hcc := deref_ok_iff.mp hcc
  split at hNew
  · cases hNew
    cases h
    exact .idle
  rename_i ref hEngine
  obtain ⟨sctx, hTake, hNew⟩ := bind_eq_ok hNew
  obtain ⟨cc', hcc', hTakes⟩ := Cli.takeSctx_ok hTake
  rw [hcc] at hcc'
  cases hcc'
  obtain rfl | ⟨free, p, hTakes, rfl⟩ := hTakes
  · cases hNew
    cases h
    exact .idle
  obtain ⟨⟨res, u⟩, hKick, hNew⟩ := bind_eq_ok hNew
  obtain ⟨msg, ph, rfl, hPhase, rfl⟩ | ⟨addr, sc, rfl, hAddr, hsc, rfl⟩ := kickOffTask_ok hKick
  · obtain ⟨cli, hPush, hNew⟩ := bind_eq_ok hNew
    cases hNew
    cases h
    exact newStream_failed hcc hTakes hPhase hPush
  · obtain rfl : Cli.freshSctx hd.ctx cc.owner r isHttp type = sc := by
      simpa [Cli.taken, Cli.setSctx] using hsc
    obtain ⟨rfl, rfl⟩ | ⟨rfl, hType⟩ := hOp
    · simp only [if_true] at hNew
      obtain ⟨eng, hEng, hNew⟩ := bind_eq_ok hNew
      obtain ⟨cn, hRef, rfl⟩ := Engine.openOp_ok hEng
      cases hNew
      cases h
      have hPrep : s.Prepares ⟨s.cli.nextKick, co, .call, p, g⟩ _ _ _ _ :=
        .opens r isHttp .unary hHd hOpen hcc hEngine hRef hTakes rfl (by simp)
      exact .kick hPrep rfl hRun hAddr
    · simp only [if_neg hType] at hNew
      obtain ⟨eng, hEng, hNew⟩ := bind_eq_ok hNew
      obtain ⟨cn, hRef, rfl⟩ := Engine.openOp_ok hEng
      obtain ⟨cli, hPush, hNew⟩ := bind_eq_ok hNew
      simp only [Cli.pushOpening, armed, Cli.taken, Cli.setCtx, Cli.setSctx] at hPush
      rw [deref_eq (Function.update_self ..), ok_bind] at hPush
      cases hPush
      cases hNew
      cases h
      have hPrep : s.Prepares ⟨s.cli.nextKick, co, .newStream, p, g⟩ _ _ _ _ :=
        .opens r isHttp type hHd hOpen hcc hEngine hRef hTakes rfl (by simp [hType])
      have hKicked := Change.kick (a := a) hPrep rfl hRun hAddr
      simp only [Cli.kicked, Cli.yield, Function.update_idem, reduceCtorEq, if_false] at hKicked ⊢
      exact hKicked

theorem checkStreamStatus_none {sc : StreamCtx} {r : Nat}
    (h : Cli.checkStreamStatus sc r = none) : sc.waitCoCtx = none := by
  unfold Cli.checkStreamStatus at h
  by_contra hWait
  split at h
  · cases h
  · split at h
    · cases h
    · cases h

theorem luaStreamOp_change {a : Action} {op : OpKind}
    {engineOp : Engine → Nat → Ptr → Except Stop Engine} (hOp : op.onStream = true)
    (hEngineOp : engineOp = fun e k p => e.streamOp k op p) {h co r : Nat} {env : KickEnv}
    (hRes : s.luaStreamOp (streamOp engineOp) op h co r env = .ok t) : s.Change a t := by
  obtain ⟨hd, hHd, hRes⟩ := bind_eq_ok hRes
  have hHd := handle_ok hHd
  split at hRes
  · cases hRes
  rename_i hFrame
  have hRun : s.cli.frames co = none := by simpa using hFrame
  split at hRes
  · cases hRes
    exact .idle
  rename_i hClosed
  have hOpen : hd.closed = false := by simpa using hClosed
  obtain ⟨out, hC, hRes⟩ := bind_eq_ok hRes
  obtain ⟨sc, hsc, hC⟩ := bind_eq_ok hC
  have hsc := deref_ok_iff.mp hsc
  split at hC
  · cases hC
    cases hRes
    exact .idle
  rename_i hStatus
  obtain ⟨⟨res, u⟩, hKick, hC⟩ := bind_eq_ok hC
  obtain ⟨msg, ph, rfl, hPhase, rfl⟩ | ⟨addr, sc', rfl, hAddr, hsc', rfl⟩ := kickOffTask_ok hKick
  · cases hC
    cases hRes
    rcases hPhase with rfl | rfl
    · exact .idle
    · exact .opFailed
  · rw [hsc] at hsc'
    cases hsc'
    obtain ⟨eng, hEng, hC⟩ := bind_eq_ok hC
    rw [hEngineOp] at hEng
    obtain ⟨st, hRef, rfl⟩ := Engine.streamOp_ok hEng
    cases hC
    cases hRes
    have hPrep : s.Prepares ⟨s.cli.nextKick, co, op, hd.ctx, h⟩ _ _ _ _ :=
      .stream hHd hOpen rfl hsc (checkStreamStatus_none hStatus) hRef hOp
    exact .kick hPrep rfl hRun hAddr

/-! ## The ends of a wait -/

theorem Valid.threadPostEventHandler_change (hv : s.Valid)
    (h : s.threadPostEventHandler = .ok t) : s.Change .drain t := by
  unfold threadPostEventHandler at h
  split at h
  · split at h
    · cases h
      exact .drained
    · rename_i r occupied hOccupied
      simp only at h
      split at h
      · rename_i hMiss
        cases h
        refine .cancel hOccupied (fun co f hf hEq => ?_)
        have hSome := (hv.cli.lookupTask_isSome r.taskId).mpr ⟨co, f, hf, hEq⟩
        simp [hMiss] at hSome
      · rename_i n hHit
        obtain ⟨co, f, hf, hId⟩ := (hv.cli.lookupTask_isSome r.taskId).mp (by simp [hHit])
        obtain ⟨rfl, _⟩ := hv.cli.suspended.frame_kick co f hf
        obtain ⟨addr, sc, hSettles, hDeliver⟩ := hv.cli.deliver_eq hf hId.symm
        rw [hDeliver] at h
        cases h
        exact .resume hOccupied hId.symm hSettles
  · cases h

theorem Valid.timer_change (hv : s.Valid) {co : Nat} (h : s.timer co = .ok t) :
    s.Change (.timer co) t := by
  unfold timer at h
  split at h
  · cases h
  · obtain ⟨out, hExpire, h⟩ := bind_eq_ok h
    cases hTimer : (s.cli.coctxs co).timerSet with
    | false =>
      rw [Cli.expireTimer, hTimer] at hExpire
      cases hExpire
    | true =>
      obtain ⟨f, addr, sc, rfl, hSettles, hEq⟩ := hv.cli.expireTimer_eq hTimer
      rw [hEq] at hExpire
      cases hExpire
      cases h
      exact .timeout hSettles

theorem Valid.abort_change (hv : s.Valid) {co : Nat} (h : s.step (.abort co) = .ok t) :
    s.Change (.abort co) t := by
  obtain ⟨cli, hAbort, h⟩ := bind_eq_ok h
  cases h
  cases hf : s.cli.frames co with
  | none =>
    rw [Cli.abort, hf] at hAbort
    cases hAbort
  | some f =>
    obtain ⟨rfl, _⟩ := hv.cli.suspended.frame_kick co f hf
    obtain ⟨addr, sc, hSettles, hEq⟩ := hv.cli.abort_eq hf
    rw [hEq] at hAbort
    cases hAbort
    exact .abort hSettles

/-! ## Streams -/

theorem luaStreamClose_change {h : Nat} (hRes : s.luaStreamClose h = .ok t) :
    s.Change (.streamClose h) t := by
  obtain ⟨hd, hHd, hRes⟩ := bind_eq_ok hRes
  have hHd := handle_ok hHd
  split at hRes
  · cases hRes
    exact .idle
  · cases hRes
    rw [Engine.grpcEngineCloseStream_eq]
    exact .streamClose hHd

theorem Valid.stream_idle (hv : s.Valid) {h : Nat} {hd : Handle} (hHd : s.cli.streams h = some hd)
    (hUse : ∀ co f, s.cli.frames co = some f → ¬ (f.op.onStream = true ∧ f.handle = h)) {co : Nat}
    {f : Frame} (hf : s.cli.frames co = some f) : f.sctx ≠ hd.ctx := by
  intro hEq
  cases hOp : f.op.onStream with
  | false => exact hv.cli.refs.open_fresh co f h hd hf hOp hHd hEq.symm
  | true =>
    obtain ⟨hd', hHd', hCtx⟩ := hv.cli.refs.frame_stream co f hf hOp
    have hSame := hv.cli.handles.stream_inj f.handle h hd' hd hHd' hHd (hCtx.trans hEq)
    exact hUse co f hf ⟨hOp, hSame⟩

/-- What is written to an sctx that is then freed does not matter. -/
theorem freed_update {m : Ptr → Option StreamCtx} {p : Ptr} {ps : List Ptr}
    {v : Option StreamCtx} :
    (fun q => if q ∈ p :: ps then none else Function.update m p v q) =
      fun q => if q ∈ p :: ps then none else m q := by
  funext q
  by_cases hq : q = p
  · simp [hq]
  · rw [Function.update_of_ne hq]

theorem Valid.luaStreamGc_change (hv : s.Valid) {h : Nat} (hRes : s.luaStreamGc h = .ok t) :
    s.Change (.streamGc h) t := by
  obtain ⟨hd, hHd, hRes⟩ := bind_eq_ok hRes
  have hHd := handle_ok hHd
  obtain ⟨sc, c, cc, hsc, hParent, hcc, hMem⟩ := hv.cli.handles.stream_sctx h hd hHd
  split at hRes
  · cases hRes
  · rename_i hGuard
    have hUse : ∀ co f, s.cli.frames co = some f → f.sctx ≠ hd.ctx := fun co f hf =>
      hv.stream_idle hHd (fun co f hf => suspended_guard hv hGuard hf) hf
    have hInv : Cli.Inv { s.cli with streams := Function.update s.cli.streams h none } :=
      hv.cli.dropHandle fun co f hf hOp hEq => suspended_guard hv hGuard hf ⟨hOp, hEq⟩
    obtain ⟨cli, hRelease, hRes⟩ := bind_eq_ok hRes
    cases hRes
    rw [hInv.releaseSctx_eq hcc hMem hsc hParent] at hRelease
    rw [Engine.grpcEngineCloseStream_eq]
    split at hRelease
    · rename_i hFree
      rw [Cli.freeConn_ok (Function.update_self ..) hRelease]
      have hFreed := Change.streamGcFree hHd hcc hMem hsc hUse hFree.1 hFree.2
      simpa only [Cli.released, Cli.setCtx, Cli.setSctx, Function.update_idem, freed_update]
        using hFreed
    · rename_i hKeep
      cases hRelease
      exact .streamGc hHd hcc hMem hsc hUse hKeep

/-! ## The list is complete -/

theorem waitReturn_change (h : s.waitReturn = .ok t) : s.Change .waitReturn t := by
  unfold waitReturn at h
  split at h
  · rename_i hPhase
    split at h
    · cases h
    · rename_i recs queue hWait
      cases h
      exact .waitReturn hPhase hWait
  · cases h

theorem threadTest_change (h : s.threadTest = .ok t) : s.Change .threadTest t := by
  unfold threadTest at h
  split at h
  · rename_i hPhase
    simp only at h
    split at h
    · rename_i hStop
      split at h
      · rename_i hNone
        cases h
        exact .threadTest hPhase (.inl hNone)
      · rename_i b hBatch
        cases h
        exact .threadFree hPhase hBatch hStop
    · rename_i hRun
      cases h
      exact .threadTest hPhase (.inr hRun)
  · cases h

/-- The handler of the wait task writes only the thread context and frees only
the array. -/
theorem postBatch_frame {oom : List Nat} (h : s.postBatch oom = .ok t) :
    ∃ thread mem, t = { s with thread, mem } := by
  obtain ⟨recs, _, h⟩ := bind_eq_ok h
  simp only at h
  split at h
  · split at h
    · cases h
      exact ⟨_, _, rfl⟩
    · cases h
      exact ⟨_, s.mem, rfl⟩
  · cases h
    exact ⟨_, s.mem, rfl⟩

theorem threadEventHandler_change {oom : List Nat} {postOk : Bool}
    (h : s.threadEventHandler oom postOk = .ok t) : s.Change (.threadEvent oom postOk) t := by
  have hFrame : ∃ thread mem, t = { s with thread, mem } := by
    unfold threadEventHandler at h
    split at h
    · obtain ⟨u, hPost, h⟩ := bind_eq_ok h
      obtain ⟨thread, mem, rfl⟩ := postBatch_frame hPost
      split at h
      · cases h
        exact ⟨_, _, rfl⟩
      · split at h
        · cases h
          exact ⟨_, _, rfl⟩
        · split at h
          · cases h
            exact ⟨_, _, rfl⟩
          · cases h
            exact ⟨_, _, rfl⟩
    · cases h
  obtain ⟨thread, mem, rfl⟩ := hFrame
  exact .threadEvent h

theorem postEvent_change (h : s.postEvent = .ok t) : s.Change .postEvent t := by
  unfold postEvent at h
  split at h
  · rename_i hPost
    cases h
    exact .postEvent hPost.1
  · cases h

theorem goDefer_change {k : Nat} (h : s.step (.goDefer k) = .ok t) : s.Change (.goDefer k) t := by
  obtain ⟨eng, hEng, h⟩ := bind_eq_ok h
  cases h
  obtain ⟨op, hOp, ⟨hPhase, rfl⟩ | ⟨text, hPhase, rfl⟩⟩ := Engine.reportPanic_ok hEng
  · exact .goDone hOp hPhase
  · exact .goPanic hOp hPhase

theorem Valid.step_change (hv : s.Valid) {a : Action} (h : s.step a = .ok t) : s.Change a t := by
  cases a with
  | connect alloc dial ref => exact luaConnect_change h
  | connClose g => exact hv.luaConnClose_change h
  | connGc g => exact hv.luaConnGc_change h
  | call g co r isHttp env => exact luaOpen_change (.inl ⟨rfl, rfl⟩) h
  | newStream g co r isHttp type env =>
    simp only [step, luaNewStream] at h
    split at h
    · cases h
    · exact luaOpen_change (.inr ⟨rfl, ‹_›⟩) h
  | recv h co r env => exact luaStreamOp_change rfl rfl ‹_›
  | send h co r env => exact luaStreamOp_change rfl rfl ‹_›
  | closeSend h co r env => exact luaStreamOp_change rfl rfl ‹_›
  | streamClose h => exact luaStreamClose_change ‹_›
  | streamGc h => exact hv.luaStreamGc_change ‹_›
  | timer co => exact hv.timer_change h
  | abort co => exact hv.abort_change h
  | goReturn k out =>
    obtain ⟨eng, hEng, h⟩ := bind_eq_ok h
    cases h
    obtain ⟨op, hOp, hRun, rfl⟩ := Engine.goReturn_ok hEng
    exact .goReturn hOp hRun
  | goReport k =>
    obtain ⟨eng, hEng, h⟩ := bind_eq_ok h
    cases h
    obtain ⟨op, result, err, hOp, hPhase, rfl⟩ := Engine.goReport_ok hEng
    exact .goReport hOp hPhase
  | goDefer k => exact goDefer_change h
  | waitTimer =>
    cases h
    exact .waitTimer
  | waitReturn => exact waitReturn_change h
  | threadTest => exact threadTest_change h
  | threadEvent oom postOk => exact threadEventHandler_change h
  | postEvent => exact postEvent_change h
  | drain => exact hv.threadPostEventHandler_change h
  | quit =>
    cases h
    exact .quit
  | exit =>
    cases h
    exact .exit
  | terminate =>
    cases h
    exact .terminate

/-! ## Validity is kept -/

theorem Valid.stream_not_free (hv : s.Valid) {h : Nat} {hd : Handle}
    (hHd : s.cli.streams h = some hd) {c : Ptr} {cc : Ctx} (hcc : s.cli.ctxs c = some cc) :
    hd.ctx ∉ cc.free := by
  intro hFree
  obtain ⟨sc, c', cc', hsc, hParent, hcc', hMem⟩ := hv.cli.handles.stream_sctx h hd hHd
  by_cases hEq : c = c'
  · subst hEq
    rw [hcc] at hcc'
    cases hcc'
    exact (List.nodup_append.mp (hv.cli.lists.nodup c cc hcc)).2.2 _ hFree _ hMem rfl
  · exact (hv.cli.not_mem_lists hsc hParent hcc hEq).1 hFree

theorem Prepares.ready (hv : s.Valid) {f : Frame} {ctxs : Ptr → Option Ctx}
    {sctxs : Ptr → Option StreamCtx} {sc : StreamCtx} {op : Op}
    (hPrep : s.Prepares f ctxs sctxs sc op) (hKick : f.kick = s.cli.nextKick)
    (hRun : s.cli.frames f.co = none) {addr : Ptr}
    (hAddr : addr ∉ s.cli.ongoingTasks.map Node.addr) :
    Cli.Inv { s.cli with ctxs, sctxs } ∧ Cli.Ready { s.cli with ctxs, sctxs } f addr sc := by
  cases hPrep with
  | @opens hd cc ref cn free r isHttp type hHd hOpen hcc hEngine hRef hTake hOp hType =>
    obtain ⟨hInv, hDetached⟩ :=
      hv.cli.taken hcc hTake (Cli.freshSctx hd.ctx cc.owner r isHttp type) rfl
    have hSelf : (s.cli.taken hd.ctx cc free f.sctx
        (Cli.freshSctx hd.ctx cc.owner r isHttp type)).ctxs hd.ctx = some { cc with free } :=
      Function.update_self ..
    have hLists := hDetached.lists hd.ctx _ hSelf
    constructor
    · by_cases hCall : f.op = .call
      · simp only [if_pos hCall]
        exact hInv
      · simp only [if_neg hCall]
        have hPush := hInv.pushOpening hSelf (Function.update_self ..) rfl rfl (mt hType.mp hCall)
          hLists.1 hLists.2
        simpa only [Cli.setCtx, Cli.taken, Cli.setSctx, Function.update_idem] using hPush
    · refine ⟨hKick, Function.update_self .., rfl, hAddr, hRun, ?_, ?_, ?_, ?_⟩
      · intro c cc' hc
        rcases update_some_iff.mp hc with ⟨rfl, rfl⟩ | ⟨hNe, hc⟩
        · exact hLists.1
        · exact (hDetached.lists c cc' (update_of_some hc hNe)).1
      · intro _
        refine ⟨hd, _, hHd, Function.update_self .., rfl, rfl, hType, fun hNew => ?_⟩
        simp [hNew]
      · exact fun _ => hDetached.handle
      · intro hOn
        rw [hOp] at hOn
        cases hOn
  | @stream hd sc st hHd hOpen hCtx hsc hWait hRef hOp =>
    refine ⟨hv.cli, hKick, hsc, ?_, hAddr, hRun, ?_, ?_, ?_, fun _ => ⟨hd, hHd, hCtx⟩⟩
    · cases hNode : sc.node with
      | none => rfl
      | some a =>
        obtain ⟨co, f', hf', hEq⟩ := hv.cli.suspended.node_frame f.sctx sc a hsc hNode
        obtain ⟨sc', _, hsc', _, hWait', _⟩ := hv.cli.suspended.frame_sctx co f' hf'
        rw [hEq, hsc] at hsc'
        cases hsc'
        rw [hWait] at hWait'
        cases hWait'
    · intro c cc hc
      rw [← hCtx]
      exact hv.stream_not_free hHd hc
    · intro hOff
      rw [hOp] at hOff
      cases hOff
    · intro hOff
      rw [hOp] at hOff
      cases hOff

/-- Two handles never name one context. -/
theorem Valid.conn_dead (hv : s.Valid) {g : Nat} {hd : Handle} (hHd : s.cli.conns g = some hd)
    {g' : Nat} {hd' : Handle} (hHd' : Function.update s.cli.conns g none g' = some hd') :
    hd'.ctx ≠ hd.ctx := by
  intro hEq
  obtain ⟨hNe, hHd'⟩ := update_none_iff.mp hHd'
  obtain ⟨cc, hcc, hOwner, _⟩ := hv.cli.handles.conn_ctx g hd hHd
  obtain ⟨cc', hcc', hOwner', _⟩ := hv.cli.handles.conn_ctx g' hd' hHd'
  rw [hEq, hcc] at hcc'
  cases hcc'
  exact hNe (hOwner'.symm.trans hOwner)

theorem Valid.released (hv : s.Valid) {h : Nat} {hd : Handle} {c : Ptr} {cc : Ctx}
    {sc : StreamCtx} (hHd : s.cli.streams h = some hd) (hcc : s.cli.ctxs c = some cc)
    (hMem : hd.ctx ∈ cc.opening) (hsc : s.cli.sctxs hd.ctx = some sc)
    (hUse : ∀ co f, s.cli.frames co = some f → f.sctx ≠ hd.ctx) :
    (Cli.released { s.cli with streams := Function.update s.cli.streams h none } c hd.ctx cc
      sc).Inv := by
  have hDrop : Cli.Inv { s.cli with streams := Function.update s.cli.streams h none } := by
    refine hv.cli.dropHandle fun co f hf hOp hEq => hUse co f hf ?_
    obtain ⟨hd', hHd', hCtx⟩ := hv.cli.refs.frame_stream co f hf hOp
    rw [hEq, hHd] at hHd'
    cases hHd'
    exact hCtx.symm
  refine hDrop.released hcc hMem hsc ?_ ?_
  · cases hNode : sc.node with
    | none => rfl
    | some a =>
      obtain ⟨co, f, hf, hEq⟩ := hv.cli.suspended.node_frame hd.ctx sc a hsc hNode
      exact absurd hEq (hUse co f hf)
  · intro k hd' hk hEq
    obtain ⟨hNe, hk⟩ := update_none_iff.mp hk
    exact hNe (hv.cli.handles.stream_inj k h hd' hd hk hHd hEq)

theorem Change.inv (hv : s.Valid) {a : Action} (h : s.Change a t) : t.cli.Inv := by
  have hInv := hv.cli
  cases h with
  | idle | opFailed | cancel | drained | goReturn | goReport | goPanic | goDone | waitTimer
  | waitReturn | threadTest | threadFree | threadEvent | postEvent | quit | exit | terminate =>
    exact hInv
  | connect hc hRef =>
    refine hInv.connect hc ?_ _
    cases hConn : s.cli.conns s.eng.nextConn with
    | none => rfl
    | some hd => exact absurd (hv.conn_lt _ hd hConn) (Nat.lt_irrefl _)
  | connClose hHd hcc => exact (hInv.closeConn hHd).setEngineCtx hcc none
  | @connDelay g hd cc hHd hcc hUse hOpening =>
    have hClosed := (hInv.dropConn hUse).setEngineCtx hcc none
    have hDelayed := hClosed.delayFree (Function.update_self ..) fun g' hd' => hv.conn_dead hHd
    simpa only [Cli.setCtx, Function.update_idem] using hDelayed
  | @connFree g hd cc hHd hcc hUse hOpening =>
    exact (hInv.dropConn hUse).freeConn hcc hOpening fun g' hd' => hv.conn_dead hHd
  | @openFailed _ c p cc free r isHttp type ph hcc hTake hPhase =>
    obtain ⟨hTaken, hDetached⟩ := hInv.taken hcc hTake (Cli.freshSctx c cc.owner r isHttp type) rfl
    have hSelf : (s.cli.taken c cc free p (Cli.freshSctx c cc.owner r isHttp type)).ctxs c =
        some { cc with free } := Function.update_self ..
    have hLists := hDetached.lists c _ hSelf
    exact hTaken.pushFree hSelf (Function.update_self ..) rfl rfl rfl hLists.1 hLists.2
  | kick hPrep hKick hRun hAddr =>
    obtain ⟨hPrepared, hReady⟩ := hPrep.ready hv hKick hRun hAddr
    exact hPrepared.kick hReady
  | resume hOccupied hId hSettles => exact hInv.resumed hSettles _ _
  | timeout hSettles => exact hInv.resumed hSettles _ _
  | abort hSettles => exact hInv.settle hSettles _
  | streamClose hHd => exact hInv.closeHandle hHd
  | streamGc hHd hcc hMem hsc hUse hKeep => exact hv.released hHd hcc hMem hsc hUse
  | @streamGcFree h hd c cc sc hHd hcc hMem hsc hUse hDelayed hLast =>
    have hReleased := hv.released hHd hcc hMem hsc hUse
    have hFreed := hReleased.freeConn (Function.update_self ..) hLast
      ((hInv.delayed_or_dead hcc).resolve_left (by simp [hDelayed]))
    simpa only [Cli.released, Cli.setCtx, Cli.setSctx, Function.update_idem, freed_update]
      using hFreed

theorem Change.valid (hv : s.Valid) {a : Action} (h : s.Change a t) : t.Valid := by
  refine ⟨h.inv hv, fun g hd hg => ?_⟩
  have hLt := hv.conn_lt g
  cases h with
  | connect hc hRef =>
    rcases update_some_iff.mp hg with ⟨rfl, _⟩ | ⟨_, hg⟩
    · exact Nat.lt_succ_self _
    · exact Nat.lt_succ_of_lt (hLt hd hg)
  | connClose hHd hcc =>
    rcases update_some_iff.mp hg with ⟨rfl, _⟩ | ⟨_, hg⟩
    · exact hLt _ hHd
    · exact hLt hd hg
  | connDelay | connFree => exact hLt hd (update_none_iff.mp hg).2
  | _ => exact hLt hd hg

/-! ## Runs -/

/-- The states of a run from `ngx_grpc_cli_init_worker` on whose steps all meet
`ok`, where no Lua code used the module in the `init_worker` phase. A worker that
did starts from the end of an `InitWorker.Run`, with its connections and with the
records of the calls that timed out in it. From there on only the lookup of
connections is followed, at the end of `InitWorker`. -/
abbrev Run (ok : State → Action → Prop) : State → Prop := Transition.Reaches step ok init

abbrev Reachable : State → Prop := Run fun _ _ => True

variable {ok : State → Action → Prop}

def after (ok : State → Action → Prop) [∀ s a, Decidable (ok s a)] (as : List Action) :
    Option State :=
  Transition.exec step ok init as

theorem run_after (ok : State → Action → Prop) [∀ s a, Decidable (ok s a)] (as : List Action)
    (h : (after ok as).isSome) : Run ok ((after ok as).get h) :=
  Transition.exec_reaches h

def faults (s : State) (a : Action) : Option Fault :=
  match s.step a with
  | .error (.fault f) => some f
  | _ => none

theorem faults_eq_some {a : Action} {f : Fault} :
    s.faults a = some f ↔ s.step a = .error (.fault f) := by
  unfold faults
  split <;> simp_all

theorem faults_eq_none {a : Action} (h : ∀ f, s.step a ≠ .error (.fault f)) :
    s.faults a = none := by
  cases hFault : s.faults a with
  | none => rfl
  | some f => exact absurd (faults_eq_some.mp hFault) (h f)

theorem Run.valid (h : Run ok s) : s.Valid :=
  h.invariant valid_init fun _ _ _ _ hv _ hStep => (hv.step_change hStep).valid hv

theorem Run.induct {P : State → Prop} (h : Run ok s) (hInit : P init)
    (hChange : ∀ s a t, Run ok s → s.Valid → P s → ok s a → s.step a = .ok t → s.Change a t → P t) :
    P s :=
  h.invariant hInit fun s a t hRun hP hOk hStep =>
    hChange s a t hRun (Run.valid hRun) hP hOk hStep ((Run.valid hRun).step_change hStep)

end State

end GrpcClient
