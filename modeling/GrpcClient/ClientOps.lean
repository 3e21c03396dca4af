import GrpcClient.Lib.Except
import GrpcClient.ClientInvariant

/-! # What the functions of the nginx side do in a valid state

In a state that satisfies the invariant every pointer the code follows is
good, so each function has one result. The three ends of a wait (result,
timeout, abort) are the same change of state, `settled`, with another outcome.
-/

namespace GrpcClient

open Fallible

theorem deref_eq {β : Type} {m : Ptr → Option β} {p : Ptr} {v : β} (h : m p = some v) :
    deref m p = .ok v := by
  rw [deref, h]

theorem deref_ok_iff {β : Type} {m : Ptr → Option β} {p : Ptr} {v : β} :
    deref m p = .ok v ↔ m p = some v := by
  rw [deref]
  split <;> simp_all

@[simp] theorem nonNull_some {β : Type} (v : β) : nonNull (some v) = .ok v := rfl

namespace Cli

open PartialMap

variable {s : Cli}

/-! ## The end of a wait -/

/-- The contexts after `ngx_grpc_cli_put_res` put back a unary sctx. -/
def requeued (ctxs : Ptr → Option Ctx) (p : Ptr) (sc : StreamCtx) : Ptr → Option Ctx :=
  match sc.type, sc.parent with
  | .unary, some c =>
    Function.update ctxs c ((ctxs c).map fun cc => { cc with free := p :: cc.free })
  | _, _ => ctxs

def answeredStreams (streams : Nat → Option Handle) (f : Frame) (reply : Reply) :
    Nat → Option Handle :=
  match f.op, reply with
  | .newStream, .ok _ => Function.update streams f.kick (some ⟨f.sctx, false⟩)
  | _, _ => streams

def answeredPayload (f : Frame) (reply : Reply) : List Received :=
  match f.op, reply with
  | .recv, .ok payload => [⟨f.handle, payload.getD []⟩]
  | _, _ => []

theorem luaAnswer_eq (f : Frame) (reply : Reply) : s.luaAnswer f reply =
    { s with
      streams := answeredStreams s.streams f reply
      received := s.received ++ answeredPayload f reply } := by
  unfold luaAnswer answeredStreams answeredPayload
  cases f.op <;> cases reply <;> simp

/-- The state after a coroutine was resumed, up to its next call. -/
def resumed (s : Cli) (f : Frame) (a : Ptr) (sc : StreamCtx) (o : Outcome) (reply : Reply) : Cli :=
  { s.settled f a sc o with
    ctxs := requeued s.ctxs f.sctx sc
    streams := answeredStreams s.streams f reply
    received := s.received ++ answeredPayload f reply }

theorem resumed_eq (f : Frame) (a : Ptr) (sc : StreamCtx) (o : Outcome) (reply : Reply) :
    s.resumed f a sc o reply =
      luaAnswer { s.settled f a sc o with ctxs := requeued s.ctxs f.sctx sc } f reply := by
  rw [luaAnswer_eq]
  rfl

def Homed (s : Cli) (sc : StreamCtx) : Prop :=
  sc.type = .unary → ∃ c cc, sc.parent = some c ∧ s.ctxs c = some cc

/-- What `ngx_grpc_cli_put_res` pushes and releases. -/
def Pushes (sc : StreamCtx) (reply : Reply) (freed : Option Buf) : Prop :=
  (sc.state = .timeout ∧ reply = .fail timeoutMsg ∧ freed = none) ∨
    (sc.state = .ok ∧ ∃ r, sc.res = some r ∧ reply = r.reply ∧ freed = r.buf)

theorem putRes_eq {p : Ptr} (sc : StreamCtx) {reply : Reply} {freed : Option Buf}
    (hsc : s.sctxs p = some sc) (hHome : s.Homed sc) (hPush : Pushes sc reply freed) :
    s.putRes p = .ok (reply, freed, { s with ctxs := requeued s.ctxs p sc }) := by
  unfold putRes
  rw [deref_eq hsc]
  by_cases hUnary : sc.type = .unary
  · obtain ⟨c, cc, hc, hcc⟩ := hHome hUnary
    rcases hPush with ⟨hState, rfl, rfl⟩ | ⟨hState, r, hr, rfl, rfl⟩
    · simp [hUnary, hState, hc, hcc, pushFree, requeued, deref_eq hcc, setCtx]
    · simp [hUnary, hState, hr, hc, hcc, pushFree, requeued, deref_eq hcc, setCtx]
  · have hSame : requeued s.ctxs p sc = s.ctxs := by
      unfold requeued
      split
      · exact absurd ‹_› hUnary
      · rfl
    rw [hSame]
    rcases hPush with ⟨hState, rfl, rfl⟩ | ⟨hState, r, hr, rfl, rfl⟩
    · simp [hUnary, hState]
    · simp [hUnary, hState, hr]

def woken (sc : StreamCtx) (p : Ptr) : StreamCtx :=
  { sc with node := none, waitCoCtx := none, prevData := some p }

theorem toResume_eq {f : Frame} {a : Ptr} {sc : StreamCtx} (hf : s.frames f.co = some f)
    (hsc : s.sctxs f.sctx = some sc) (hNode : sc.node = some a) (hWait : sc.waitCoCtx = some f.co)
    (hHome : s.Homed sc) (hData : (s.coctxs f.co).data = some f.sctx)
    (hTimer : (s.coctxs f.co).timerSet = false) (hHook : (s.coctxs f.co).cleanup = none)
    {reply : Reply} {freed : Option Buf} (hPush : Pushes sc reply freed) (o : Outcome) :
    s.toResume f.sctx o = .ok (freed, s.resumed f a (woken sc f.sctx) o reply) := by
  have hUnkeep : s.unkeepTask f.sctx = .ok { s.setSctx f.sctx { sc with node := none } with
      ongoingTasksNum := s.ongoingTasksNum - 1
      ongoingTasks := s.ongoingTasks.filter fun n => decide (n.addr ≠ a) } := by
    simp [unkeepTask, deref_eq hsc, hNode]
  have hCo : (⟨some f.sctx, (s.coctxs f.co).timerSet, (s.coctxs f.co).sleepData,
      (s.coctxs f.co).cleanup⟩ : CoCtx) =
      { s.coctxs f.co with timerSet := false, cleanup := none } := by
    rw [hTimer, hHook, ← hData]
  rw [toResume, hUnkeep]
  simp only [ok_bind, setSctx, setCo, deref_eq (Function.update_self ..), hWait, nonNull_some,
    resume, Function.update_idem, Function.update_self, hData]
  rw [putRes_eq (woken sc f.sctx) (Function.update_self ..) ?_ hPush]
  · simp only [ok_bind, luaResume, hf, hCo, resumed_eq]
    rfl
  · exact hHome

theorem Inv.homed (h : s.Inv) {co : Nat} {f : Frame} (hf : s.frames co = some f) {sc : StreamCtx}
    (hsc : s.sctxs f.sctx = some sc) : s.Homed sc := by
  intro hUnary
  cases hOp : f.op.onStream with
  | false =>
    obtain ⟨hd, cc, sc', _, hcc, hsc', hParent, _⟩ := h.refs.frame_open co f hf hOp
    rw [hsc] at hsc'
    cases hsc'
    exact ⟨hd.ctx, cc, hParent, hcc⟩
  | true =>
    obtain ⟨hd, hHd, hEq⟩ := h.refs.frame_stream co f hf hOp
    obtain ⟨sc', c, cc, hsc', hParent, hcc, _⟩ := h.handles.stream_sctx f.handle hd hHd
    rw [hEq, hsc] at hsc'
    cases hsc'
    exact ⟨c, cc, hParent, hcc⟩

/-- The state in which `ngx_grpc_cli_to_resume` is called: the sctx was
written, the timer is off and the hook is cleared. -/
def disarmed (s : Cli) (f : Frame) (sc : StreamCtx) : Cli :=
  (s.setSctx f.sctx sc).setCo f.co { s.coctxs f.co with timerSet := false, cleanup := none }

theorem disarmed_resumed (f : Frame) (a : Ptr) (sc sc' : StreamCtx) (o : Outcome) (reply : Reply) :
    (s.disarmed f sc).resumed f a sc' o reply = s.resumed f a sc' o reply := by
  simp [resumed, settled, disarmed, setSctx, setCo]

theorem disarmed_toResume {f : Frame} {a : Ptr} (sc : StreamCtx) (hf : s.frames f.co = some f)
    (hNode : sc.node = some a) (hWait : sc.waitCoCtx = some f.co) (hHome : s.Homed sc)
    (hData : (s.coctxs f.co).data = some f.sctx) {reply : Reply} {freed : Option Buf}
    (hPush : Pushes sc reply freed) (o : Outcome) :
    (s.disarmed f sc).toResume f.sctx o =
      .ok (freed, s.resumed f a (woken sc f.sctx) o reply) := by
  rw [← disarmed_resumed f a sc]
  apply toResume_eq _ _ hNode hWait _ _ _ _ hPush
  · exact hf
  · simp [disarmed, setSctx, setCo]
  · exact hHome
  · simp [disarmed, setCo, hData]
  · simp [disarmed, setCo]
  · simp [disarmed, setCo]

theorem Inv.deliver_eq (h : s.Inv) {r : TaskRes} {f : Frame} (hf : s.frames f.co = some f)
    (hId : r.taskId = f.sctx) : ∃ a sc,
      s.Settles f a sc (woken { sc with res := some r } f.sctx) ∧
      s.deliver r = .ok (r.buf,
        s.resumed f a (woken { sc with res := some r } f.sctx) (.result r) r.reply) := by
  obtain ⟨sc, a, hsc, hNode, hWait, hState, hCo⟩ := h.suspended.frame_sctx f.co f hf
  refine ⟨a, sc, ⟨hf, hsc, hNode, rfl, rfl, rfl, rfl⟩, ?_⟩
  have hHome := h.homed hf hsc
  have hRun := disarmed_toResume { sc with res := some r } hf hNode hWait hHome (by rw [hCo])
    (.inr ⟨hState, r, rfl, rfl, rfl⟩) (.result r)
  rw [deliver, hId, deref_eq hsc]
  simp only [ok_bind, hWait, nonNull_some] at hRun ⊢
  exact hRun

/-- A timer that is armed belongs to a suspended coroutine, which is resumed
with "timeout". -/
theorem Inv.expireTimer_eq (h : s.Inv) {co : Nat} (hTimer : (s.coctxs co).timerSet = true) :
    ∃ f a sc, f.co = co ∧
      s.Settles f a sc (woken { sc with state := .timeout } f.sctx) ∧
      s.expireTimer co = .ok (none,
        s.resumed f a (woken { sc with state := .timeout } f.sctx) .timeout (.fail timeoutMsg)) := by
  cases hf : s.frames co with
  | none =>
    rw [(h.suspended.idle co hf).1] at hTimer
    cases hTimer
  | some f =>
    obtain ⟨rfl, _⟩ := h.suspended.frame_kick co f hf
    obtain ⟨sc, a, hsc, hNode, hWait, hState, hCo⟩ := h.suspended.frame_sctx f.co f hf
    refine ⟨f, a, sc, rfl, ⟨hf, hsc, hNode, rfl, rfl, rfl, rfl⟩, ?_⟩
    have hHome := h.homed hf hsc
    have hRun := disarmed_toResume { sc with state := .timeout } hf hNode hWait hHome (by rw [hCo])
      (.inl ⟨rfl, rfl, rfl⟩) .timeout
    simp only [expireTimer, timeoutHandler, hCo, if_true, nonNull_some, ok_bind]
    simp only [setCo, deref_eq hsc, ok_bind, hWait, nonNull_some, Function.update_idem,
      Function.update_self, setSctx]
    simpa [disarmed, setSctx, setCo, hCo, hWait] using hRun

theorem Inv.abort_eq (h : s.Inv) {co : Nat} {f : Frame} (hf : s.frames co = some f) :
    ∃ a sc, s.Settles f a sc { sc with node := none } ∧
      s.abort co = .ok (s.settled f a { sc with node := none } .aborted) := by
  obtain ⟨rfl, _⟩ := h.suspended.frame_kick co f hf
  obtain ⟨sc, a, hsc, hNode, hWait, hState, hCo⟩ := h.suspended.frame_sctx f.co f hf
  refine ⟨a, sc, ⟨hf, hsc, hNode, rfl, rfl, rfl, rfl⟩, ?_⟩
  simp [abort, hf, hCo, cleanup, unkeepTask, setCo, setSctx, deref_eq hsc, hNode, settled]

/-! ## Resuming keeps the invariant -/

theorem settled_frame_ne (h : s.Inv) {f : Frame} {a : Ptr} {sc sc' : StreamCtx}
    (hs : s.Settles f a sc sc') (o : Outcome) {co : Nat} {f' : Frame}
    (hf' : (s.settled f a sc' o).frames co = some f') : f'.sctx ≠ f.sctx ∧ f'.kick ≠ f.kick := by
  obtain ⟨hNe, hf'⟩ := update_none_iff.mp hf'
  refine ⟨hs.frame_ne h hf' hNe, fun hEq => hNe ?_⟩
  have hKick := (h.suspended.frame_kick f.co f hs.frame).2.2
  obtain ⟨hCo, _, hKick'⟩ := h.suspended.frame_kick co f' hf'
  rw [hEq, hKick] at hKick'
  rw [← hCo, Option.some.inj hKick']

/-- A result that answers an open makes the handle, every other one at most
adds to what Lua received. -/
theorem Inv.luaAnswer (h : s.Inv) {f : Frame} {reply : Reply}
    (hNew : f.op = .newStream → Inv { s with
      streams := Function.update s.streams f.kick (some ⟨f.sctx, false⟩) }) :
    (s.luaAnswer f reply).Inv := by
  unfold Cli.luaAnswer
  split
  · exact hNew ‹_›
  · exact ⟨h.registry, h.lists, h.suspended, h.handles, h.refs⟩
  · exact h

theorem requeued_of_ne {ctxs : Ptr → Option Ctx} {p : Ptr} {sc : StreamCtx}
    (hType : sc.type ≠ .unary) : requeued ctxs p sc = ctxs := by
  unfold requeued
  split
  · exact absurd ‹_› hType
  · rfl

theorem requeued_apply (ctxs : Ptr → Option Ctx) (p : Ptr) (sc : StreamCtx) (c : Ptr) :
    requeued ctxs p sc c = (ctxs c).map fun cc =>
      if sc.type = .unary ∧ sc.parent = some c then { cc with free := p :: cc.free } else cc := by
  by_cases hType : sc.type = .unary
  · cases hParent : sc.parent with
    | none => simp [requeued, hType, hParent]
    | some c' =>
      by_cases hEq : c = c'
      · simp [requeued, hType, hParent, hEq]
      · simp [requeued, hType, hParent, Function.update_of_ne hEq, Ne.symm hEq]
  · simp [requeued_of_ne hType, hType]

theorem requeued_some {ctxs : Ptr → Option Ctx} {p : Ptr} {sc : StreamCtx} {c : Ptr} {cc' : Ctx}
    (h : requeued ctxs p sc c = some cc') :
    ∃ cc free, ctxs c = some cc ∧ cc' = { cc with free } := by
  rw [requeued_apply] at h
  obtain ⟨cc, hcc, rfl⟩ := Option.map_eq_some_iff.mp h
  split
  · exact ⟨cc, p :: cc.free, hcc, rfl⟩
  · exact ⟨cc, cc.free, hcc, rfl⟩

theorem Inv.type_ne_unary (h : s.Inv) {co : Nat} {f : Frame} (hf : s.frames co = some f)
    (hOp : f.op ≠ .call) {sc : StreamCtx} (hsc : s.sctxs f.sctx = some sc) :
    sc.type ≠ .unary := by
  intro hUnary
  cases hOn : f.op.onStream with
  | false =>
    obtain ⟨_, _, sc', _, _, hsc', _, _, hIff, _⟩ := h.refs.frame_open co f hf hOn
    rw [hsc] at hsc'
    cases hsc'
    exact hOp (hIff.mp hUnary)
  | true =>
    obtain ⟨hd, hHd, hEq⟩ := h.refs.frame_stream co f hf hOn
    obtain ⟨sc', c, cc, hsc', _, hcc, hMem⟩ := h.handles.stream_sctx f.handle hd hHd
    obtain ⟨sc'', hsc'', _, _, hType⟩ := h.lists.opening_sctx c cc hd.ctx hcc hMem
    rw [hEq, hsc] at hsc''
    cases hsc''
    exact hType hUnary

theorem Inv.resumed (h : s.Inv) {f : Frame} {a : Ptr} {sc sc' : StreamCtx}
    (hs : s.Settles f a sc sc') (o : Outcome) (reply : Reply) :
    (s.resumed f a sc' o reply).Inv := by
  have hSettled := h.settle hs o
  rw [resumed_eq]
  by_cases hCall : f.op = .call
  · obtain ⟨hd, cc, sc₀, hHd, hcc, hsc₀, hParent, hOwner, hIff, _⟩ :=
      h.refs.frame_open f.co f hs.frame (by rw [hCall]; rfl)
    rw [hs.sctx] at hsc₀
    cases hsc₀
    have hUnary := hIff.mpr hCall
    have hParent' := hs.parent.trans hParent
    have hQueue : Cli.requeued s.ctxs f.sctx sc' =
        Function.update s.ctxs hd.ctx (some { cc with free := f.sctx :: cc.free }) := by
      simp [Cli.requeued, hs.type, hUnary, hParent', hcc]
    have hPush : Inv { s.settled f a sc' o with ctxs := Cli.requeued s.ctxs f.sctx sc' } := by
      rw [hQueue]
      refine hSettled.pushFree hcc (Function.update_self ..) hParent' (hs.owner.trans hOwner)
        hs.node' (h.not_mem_free hs.frame hcc) (fun hMem => ?_)
      obtain ⟨sc'', hsc'', _, _, hType⟩ := h.lists.opening_sctx hd.ctx cc f.sctx hcc hMem
      rw [hs.sctx] at hsc''
      cases hsc''
      exact hType hUnary
    exact hPush.luaAnswer (fun hOp => by rw [hCall] at hOp; cases hOp)
  · have hType := h.type_ne_unary hs.frame hCall hs.sctx
    have hQueue : Cli.requeued s.ctxs f.sctx sc' = s.ctxs :=
      requeued_of_ne (by rw [hs.type]; exact hType)
    have hSame : Inv { s.settled f a sc' o with ctxs := Cli.requeued s.ctxs f.sctx sc' } := by
      rw [hQueue]
      exact hSettled
    refine hSame.luaAnswer (fun hOp => ?_)
    obtain ⟨hd, cc, _, _, hcc, _, _, _, _, hMem⟩ :=
      h.refs.frame_open f.co f hs.frame (by rw [hOp]; rfl)
    obtain ⟨_, hLt, hKick⟩ := h.suspended.frame_kick f.co f hs.frame
    rw [hQueue]
    refine hSettled.makeHandle hcc (hMem hOp) (fun co f' hf' => (settled_frame_ne h hs o hf').1)
      ?_ ?_ hLt (fun co f' hf' => (settled_frame_ne h hs o hf').2)
    · intro k hd' hk
      exact h.refs.open_fresh f.co f k hd' hs.frame (by rw [hOp]; rfl) hk
    · cases hStream : s.streams f.kick with
      | none => exact hStream
      | some hd' => exact absurd rfl ((h.refs.stream_kick f.kick hd' hStream).2 f.co f hs.frame)

theorem Inv.answeredStreams_of_some (h : s.Inv) {f : Frame} (hf : s.frames f.co = some f)
    {k : Nat} {hd : Handle} (hHd : s.streams k = some hd) (reply : Reply) :
    answeredStreams s.streams f reply k = some hd := by
  have hNe := ((h.refs.stream_kick k hd hHd).2 f.co f hf).symm
  unfold answeredStreams
  cases f.op <;> cases reply <;> first | exact hHd | exact update_of_some hHd hNe

/-! ## Taking an sctx and giving memory back -/

/-- The fields that `ngx_grpc_cli_new_stream` sets on a zeroed sctx. -/
def freshSctx (c : Ptr) (owner r : Nat) (isHttp : Bool) (type : StreamType) : StreamCtx :=
  { StreamCtx.zero with r := some r, isHttp, parent := some c, type, owner }

/-- The state after an sctx of context `c` was taken; `free` is what remains of
its free list. -/
def taken (s : Cli) (c : Ptr) (cc : Ctx) (free : List Ptr) (p : Ptr) (sc : StreamCtx) : Cli :=
  (s.setCtx c { cc with free }).setSctx p sc

/-- Reuse of the last free sctx or a new allocation. -/
def Takes (s : Cli) (cc : Ctx) (free : List Ptr) (p : Ptr) : Prop :=
  cc.free = free ++ [p] ∨ (cc.free = [] ∧ free = [] ∧ s.sctxs p = none)

theorem takeSctx_ok {c : Ptr} {alloc : Option Ptr} {r : Nat} {isHttp : Bool} {type : StreamType}
    {out : Option (Ptr × Cli)} (h : s.takeSctx c alloc r isHttp type = .ok out) : ∃ cc,
      s.ctxs c = some cc ∧ (out = none ∨ ∃ free p, s.Takes cc free p ∧
        out = some (p, s.taken c cc free p (freshSctx c cc.owner r isHttp type))) := by
  obtain ⟨cc, hcc, h⟩ := bind_eq_ok h
  refine ⟨cc, deref_ok_iff.mp hcc, ?_⟩
  split at h
  · rename_i p hLast
    obtain ⟨_, _, h⟩ := bind_eq_ok h
    cases h
    refine .inr ⟨cc.free.dropLast, p, .inl ?_, rfl⟩
    exact (List.dropLast_append_getLast? p hLast).symm
  · rename_i hLast
    have hNil : cc.free = [] := List.getLast?_eq_none_iff.mp hLast
    cases alloc with
    | none =>
      cases h
      exact .inl rfl
    | some p =>
      simp only at h
      split at h
      · cases h
      · rename_i hNone
        cases h
        refine .inr ⟨[], p, .inr ⟨hNil, rfl, by simpa using hNone⟩, ?_⟩
        have hSame : s.setCtx c { cc with free := [] } = s := by
          rw [← hNil, setCtx, ← deref_ok_iff.mp hcc, Function.update_eq_self]
        rw [taken, hSame]
        rfl

theorem Inv.not_mem_lists (h : s.Inv) {c c' p : Ptr} {cc : Ctx} {sc : StreamCtx}
    (hsc : s.sctxs p = some sc) (hParent : sc.parent = some c) (hc : s.ctxs c' = some cc)
    (hNe : c' ≠ c) : p ∉ cc.free ∧ p ∉ cc.opening := by
  constructor
  · intro hp
    obtain ⟨sc', hsc', hParent', _⟩ := h.lists.free_sctx c' cc p hc hp
    rw [hsc] at hsc'
    cases hsc'
    exact hNe (Option.some.inj (hParent'.symm.trans hParent))
  · intro hp
    obtain ⟨sc', hsc', hParent', _⟩ := h.lists.opening_sctx c' cc p hc hp
    rw [hsc] at hsc'
    cases hsc'
    exact hNe (Option.some.inj (hParent'.symm.trans hParent))

theorem Inv.detached_of_last (h : s.Inv) {c p : Ptr} {cc : Ctx} {free : List Ptr}
    (hc : s.ctxs c = some cc) (hFree : cc.free = free ++ [p]) :
    (s.setCtx c { cc with free }).Inv ∧ (s.setCtx c { cc with free }).Detached p := by
  have hMem : p ∈ cc.free := by simp [hFree]
  obtain ⟨sc, hsc, hParent, _, hNode⟩ := h.lists.free_sctx c cc p hc hMem
  have hNodup := h.lists.nodup c cc hc
  have hDelay := h.delayed_or_dead hc
  rw [hFree] at hNodup
  have hNotFree : p ∉ free := by
    intro hp
    exact (List.nodup_append.mp (List.nodup_append.mp hNodup).1).2.2 p hp p (by simp) rfl
  have hNotOpening : p ∉ cc.opening := by
    intro hp
    exact (List.nodup_append.mp hNodup).2.2 p (by simp) p hp rfl
  constructor
  · refine h.setCtx hc _ rfl ?_ ?_ (fun q => h.lists.opening_sctx c cc q hc)
      (fun q hq => .inl hq) hDelay
    · refine hNodup.sublist (List.Sublist.append_right ?_ _)
      exact List.sublist_append_left free [p]
    · intro q hq
      exact h.lists.free_sctx c cc q hc (by rw [hFree]; exact List.mem_append_left _ hq)
  · constructor
    · intro sc' hsc'
      rw [show (s.setCtx c { cc with free }).sctxs = s.sctxs from rfl, hsc] at hsc'
      cases hsc'
      exact hNode
    · intro c' cc' hc'
      rcases update_some_iff.mp hc' with ⟨rfl, rfl⟩ | ⟨hNe, hc'⟩
      · exact ⟨hNotFree, hNotOpening⟩
      · exact h.not_mem_lists hsc hParent hc' hNe
    · rintro k hd hk rfl
      obtain ⟨sc', c', cc', hsc', hParent', hcc', hMem'⟩ := h.handles.stream_sctx k hd hk
      rw [hsc] at hsc'
      cases hsc'
      obtain rfl : c' = c := Option.some.inj (hParent'.symm.trans hParent)
      rw [hc] at hcc'
      cases hcc'
      exact hNotOpening hMem'

theorem Inv.taken (h : s.Inv) {c p : Ptr} {cc : Ctx} {free : List Ptr} (hc : s.ctxs c = some cc)
    (hTake : s.Takes cc free p) (sc : StreamCtx) (hNode : sc.node = none) :
    (s.taken c cc free p sc).Inv ∧ (s.taken c cc free p sc).Detached p := by
  have hBefore : (s.setCtx c { cc with free }).Inv ∧ (s.setCtx c { cc with free }).Detached p := by
    rcases hTake with hLast | ⟨hNil, rfl, hNone⟩
    · exact h.detached_of_last hc hLast
    · have hSame : s.setCtx c { cc with free := [] } = s := by
        rw [← hNil, Cli.setCtx, ← hc, Function.update_eq_self]
      rw [hSame]
      exact ⟨h, h.detached_of_none hNone⟩
  refine ⟨hBefore.1.fill hBefore.2 sc hNode, ?_, hBefore.2.lists, hBefore.2.handle⟩
  intro sc' hsc'
  rcases update_some_iff.mp hsc' with ⟨_, rfl⟩ | ⟨hNe, _⟩
  · exact hNode
  · exact absurd rfl hNe

theorem freeAll_ok {s s' : Cli} {ps : List Ptr} (h : s.freeAll ps = .ok s') :
    s' = { s with sctxs := fun p => if p ∈ ps then none else s.sctxs p } := by
  induction ps generalizing s with
  | nil =>
    cases h
    simp
  | cons p ps ih =>
    obtain ⟨_, _, h⟩ := bind_eq_ok h
    rw [ih h]
    congr 1
    funext q
    by_cases hq : q = p
    · simp [hq]
    · simp [hq]

theorem freeConn_ok {s s' : Cli} {c : Ptr} {cc : Ctx} (hc : s.ctxs c = some cc)
    (h : s.freeConn c = .ok s') :
    s' = { s with
      sctxs := fun p => if p ∈ cc.free then none else s.sctxs p
      ctxs := Function.update s.ctxs c none } := by
  obtain ⟨cc', hcc, h⟩ := bind_eq_ok h
  rw [deref_ok_iff, hc] at hcc
  cases hcc
  obtain ⟨t, ht, h⟩ := bind_eq_ok h
  cases h
  rw [freeAll_ok ht]
  simp

theorem freeAll_total {s : Cli} {ps : List Ptr} (hNodup : ps.Nodup)
    (hAlloc : ∀ p ∈ ps, (s.sctxs p).isSome) : ∃ s', s.freeAll ps = .ok s' := by
  induction ps generalizing s with
  | nil => exact ⟨s, rfl⟩
  | cons p ps ih =>
    obtain ⟨sc, hsc⟩ := Option.isSome_iff_exists.mp (hAlloc p List.mem_cons_self)
    obtain ⟨hNot, hNodup⟩ := List.nodup_cons.mp hNodup
    rw [freeAll, deref_eq hsc]
    apply ih hNodup
    intro q hq
    have hNe : q ≠ p := by
      rintro rfl
      exact hNot hq
    change (Function.update s.sctxs p none q).isSome
    rw [Function.update_of_ne hNe]
    exact hAlloc q (List.mem_cons_of_mem _ hq)

theorem Inv.freeConn_total (h : s.Inv) {c : Ptr} {cc : Ctx} (hc : s.ctxs c = some cc) :
    ∃ s', s.freeConn c = .ok s' := by
  have hNodup := (List.nodup_append.mp (h.lists.nodup c cc hc)).1
  obtain ⟨s', hs'⟩ := freeAll_total (s := s) (List.nodup_reverse.mpr hNodup) (by
    intro p hp
    obtain ⟨sc, hsc, _⟩ := h.lists.free_sctx c cc p hc (List.mem_reverse.mp hp)
    exact Option.isSome_iff_exists.mpr ⟨sc, hsc⟩)
  refine ⟨{ s' with ctxs := Function.update s'.ctxs c none }, ?_⟩
  rw [Cli.freeConn, deref_eq hc, ok_bind, hs', ok_bind]

/-! ## The finaliser of a stream -/

/-- The state after `ngx_grpc_cli_close_stream` put the sctx back, before a
delayed free. -/
def released (s : Cli) (c p : Ptr) (cc : Ctx) (sc : StreamCtx) : Cli :=
  (s.setCtx c { cc with opening := cc.opening.erase p, free := p :: cc.free }).setSctx p
    { sc with r := none }

theorem Inv.detached_of_opening (h : s.Inv) {c p : Ptr} {cc : Ctx} {sc : StreamCtx}
    (hc : s.ctxs c = some cc) (hMem : p ∈ cc.opening) (hp : s.sctxs p = some sc)
    (hNode : sc.node = none) (hHandle : ∀ k hd, s.streams k = some hd → hd.ctx ≠ p) :
    (s.setCtx c { cc with opening := cc.opening.erase p }).Inv ∧
      (s.setCtx c { cc with opening := cc.opening.erase p }).Detached p := by
  obtain ⟨sc', hsc', hParent, _⟩ := h.lists.opening_sctx c cc p hc hMem
  rw [hp] at hsc'
  cases hsc'
  have hNodup := h.lists.nodup c cc hc
  obtain ⟨_, hOpening, hDisjoint⟩ := List.nodup_append.mp hNodup
  have hDelay := h.delayed_or_dead hc
  have hFrame : ∀ co f, s.frames co = some f → f.sctx ≠ p := by
    rintro co f hf rfl
    obtain ⟨sc', a, hsc', hNode', _⟩ := h.suspended.frame_sctx co f hf
    rw [hp] at hsc'
    cases hsc'
    rw [hNode] at hNode'
    cases hNode'
  constructor
  · refine h.setCtx hc _ rfl ?_ (fun q => h.lists.free_sctx c cc q hc) ?_ ?_ hDelay
    · exact hNodup.sublist (List.Sublist.append_left List.erase_sublist _)
    · intro q hq
      exact h.lists.opening_sctx c cc q hc (List.mem_of_mem_erase hq)
    · intro q hq
      by_cases hEq : q = p
      · subst hEq
        exact .inr ⟨hFrame, hHandle⟩
      · exact .inl ((List.mem_erase_of_ne hEq).mpr hq)
  · constructor
    · intro sc' hsc'
      rw [show (s.setCtx c { cc with opening := cc.opening.erase p }).sctxs = s.sctxs from rfl,
        hp] at hsc'
      cases hsc'
      exact hNode
    · intro c' cc' hc'
      rcases update_some_iff.mp hc' with ⟨rfl, rfl⟩ | ⟨hNe, hc'⟩
      · refine ⟨fun hFree => hDisjoint p hFree p hMem rfl, ?_⟩
        exact fun hErase => (List.Nodup.mem_erase_iff hOpening).mp hErase |>.1 rfl
      · exact h.not_mem_lists hp hParent hc' hNe
    · exact hHandle

theorem Inv.released (h : s.Inv) {c p : Ptr} {cc : Ctx} {sc : StreamCtx}
    (hc : s.ctxs c = some cc) (hMem : p ∈ cc.opening) (hp : s.sctxs p = some sc)
    (hNode : sc.node = none) (hHandle : ∀ k hd, s.streams k = some hd → hd.ctx ≠ p) :
    (s.released c p cc sc).Inv := by
  obtain ⟨sc', hsc', hParent, hOwner, _⟩ := h.lists.opening_sctx c cc p hc hMem
  rw [hp] at hsc'
  cases hsc'
  obtain ⟨hInv, hDetached⟩ := h.detached_of_opening hc hMem hp hNode hHandle
  have hSelf : (s.setCtx c { cc with opening := cc.opening.erase p }).ctxs c =
      some { cc with opening := cc.opening.erase p } := Function.update_self ..
  have hPush := (hInv.fill hDetached { sc with r := none } hNode).pushFree hSelf
    (Function.update_self ..) hParent hOwner hNode (hDetached.lists c _ hSelf).1
    (hDetached.lists c _ hSelf).2
  simpa only [Cli.released, Cli.setCtx, Cli.setSctx, Function.update_idem] using hPush

/-- In a valid state the finaliser finds the sctx on the opening list. -/
theorem Inv.releaseSctx_eq (h : s.Inv) {c p : Ptr} {cc : Ctx} {sc : StreamCtx}
    (hc : s.ctxs c = some cc) (hMem : p ∈ cc.opening) (hp : s.sctxs p = some sc)
    (hParent : sc.parent = some c) :
    s.releaseSctx p =
      if cc.freeDelayed ∧ cc.opening.erase p = [] then (s.released c p cc sc).freeConn c
      else .ok (s.released c p cc sc) := by
  have hNotFree : p ∉ cc.free := by
    intro hFree
    exact (List.nodup_append.mp (h.lists.nodup c cc hc)).2.2 p hFree p hMem rfl
  have hHome : nonNull sc.parent = .ok c := by rw [hParent, nonNull_some]
  rw [releaseSctx, deref_eq hp, ok_bind, hHome, ok_bind, deref_eq hc, ok_bind,
    if_pos (.inl hMem), List.erase_of_not_mem hNotFree]
  rfl

end Cli

end GrpcClient
