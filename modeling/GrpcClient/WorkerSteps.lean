import GrpcClient.LuaCalls
import GrpcClient.Progress

/-! # What the Lua module sees of a step of the worker

A function that kicks off starts an operation or changes nothing that Lua sees.
Every other step ends at most one wait. In between, streams are only closed.
-/

namespace GrpcClient

open Fallible PartialMap

/-! ## Which steps of the worker kick off -/

namespace State

variable {s t : State} {ok : State → Action → Prop}

structure SameKicks (s t : State) : Prop where
  kicks : t.cli.kicks = s.cli.kicks
  next : t.cli.nextKick = s.cli.nextKick

theorem SameKicks.refl (s : State) : s.SameKicks s := ⟨rfl, rfl⟩

theorem SameKicks.trans {u : State} (h : s.SameKicks t) (h' : t.SameKicks u) : s.SameKicks u :=
  ⟨h'.kicks.trans h.kicks, h'.next.trans h.next⟩

theorem kickOffTask_same {env : KickEnv} {p : Ptr} {co : Nat} {out : Option String}
    (h : s.kickOffTask env p co = .ok (out, t)) : s.SameKicks t := by
  obtain ⟨msg, ph, _, _, rfl⟩ | ⟨addr, sc, _, _, _, rfl⟩ := kickOffTask_ok h
  · exact ⟨rfl, rfl⟩
  · exact ⟨rfl, rfl⟩

theorem pushFree_same {c p : Ptr} {cli : Cli} (h : s.cli.pushFree c p = .ok cli) :
    s.SameKicks { s with cli } := by
  obtain ⟨cc, _, h⟩ := bind_eq_ok h
  cases h
  exact ⟨rfl, rfl⟩

theorem pushOpening_same {c p : Ptr} {cli : Cli} (h : s.cli.pushOpening c p = .ok cli) :
    s.SameKicks { s with cli } := by
  obtain ⟨cc, _, h⟩ := bind_eq_ok h
  cases h
  exact ⟨rfl, rfl⟩

theorem newStream_same {c : Ptr} {r : Nat} {isHttp : Bool} {type : StreamType} {co : Nat}
    {env : KickEnv} {out : Except String Ptr}
    (h : s.newStream c r isHttp type co env = .ok (out, t)) :
    s.SameKicks t := by
  obtain ⟨cc, _, h⟩ := bind_eq_ok h
  split at h
  · cases h
    exact .refl s
  · obtain ⟨taken, hTake, h⟩ := bind_eq_ok h
    obtain ⟨cc, _, rfl | ⟨free, p, _, rfl⟩⟩ := Cli.takeSctx_ok hTake
    · cases h
      exact .refl s
    · obtain ⟨⟨msg, u⟩, hKick, h⟩ := bind_eq_ok h
      have hTaken : s.SameKicks
          { s with cli := s.cli.taken c cc free p (Cli.freshSctx c cc.owner r isHttp type) } :=
        ⟨rfl, rfl⟩
      have hSame := hTaken.trans (kickOffTask_same hKick)
      cases msg with
      | some text =>
        obtain ⟨cli, hPush, h⟩ := bind_eq_ok h
        cases h
        exact hSame.trans (pushFree_same hPush)
      | none =>
        simp only at h
        split at h
        · obtain ⟨eng, _, h⟩ := bind_eq_ok h
          cases h
          exact hSame.trans ⟨rfl, rfl⟩
        · obtain ⟨eng, _, h⟩ := bind_eq_ok h
          obtain ⟨cli, hPush, h⟩ := bind_eq_ok h
          cases h
          exact hSame.trans ⟨(pushOpening_same hPush).kicks, (pushOpening_same hPush).next⟩

theorem streamOp_same {engineOp : Engine → Nat → Ptr → Except Stop Engine} {p : Ptr} {r co : Nat}
    {env : KickEnv} {out : Option String} (h : s.streamOp engineOp p r co env = .ok (out, t)) :
    s.SameKicks t := by
  obtain ⟨sc, _, h⟩ := bind_eq_ok h
  split at h
  · cases h
    exact .refl s
  · obtain ⟨⟨msg, u⟩, hKick, h⟩ := bind_eq_ok h
    have hSame := kickOffTask_same hKick
    cases msg with
    | some text =>
      cases h
      exact hSame
    | none =>
      obtain ⟨eng, _, h⟩ := bind_eq_ok h
      cases h
      exact hSame.trans ⟨rfl, rfl⟩

/-- Coroutine `co` yields in an operation on `handle`. -/
structure Asks (s t : State) (co : Nat) (kind : OpKind) (handle : Nat) (f : Frame) : Prop where
  kick : f.kick = s.cli.nextKick
  kicks : t.cli.kicks = Function.update s.cli.kicks f.kick (some f)
  next : t.cli.nextKick = f.kick + 1
  co : f.co = co
  op : f.op = kind
  handle : f.handle = handle

theorem SameKicks.yield {u : State} (h : s.SameKicks u) (co : Nat) (kind : OpKind) (p : Ptr)
    (handle : Nat) : s.Asks { u with cli := u.cli.yield co kind p handle } co kind handle
      ⟨s.cli.nextKick, co, kind, p, handle⟩ := by
  refine ⟨rfl, ?_, ?_, rfl, rfl, rfl⟩
  · simp only [Cli.yield, h.kicks, h.next]
  · simp only [Cli.yield, h.next]

theorem luaOpen_kicks {kind : OpKind} {type : StreamType} {g co r : Nat} {isHttp : Bool}
    {env : KickEnv} (h : s.luaOpen kind type g co r isHttp env = .ok t) :
    s.SameKicks t ∨ ∃ f, s.Asks t co kind g f := by
  obtain ⟨hd, _, h⟩ := bind_eq_ok h
  split at h
  · cases h
  · split at h
    · cases h
      exact .inl (.refl s)
    · obtain ⟨⟨out, u⟩, hNew, h⟩ := bind_eq_ok h
      have hSame := newStream_same hNew
      cases out with
      | error text =>
        cases h
        exact .inl hSame
      | ok p =>
        cases h
        exact .inr ⟨_, hSame.yield co kind p g⟩

theorem luaStreamOp_kicks {engineOp : Engine → Nat → Ptr → Except Stop Engine} {kind : OpKind}
    {h co r : Nat} {env : KickEnv}
    (hRes : s.luaStreamOp (streamOp engineOp) kind h co r env = .ok t) :
    s.SameKicks t ∨ ∃ f, s.Asks t co kind h f := by
  obtain ⟨hd, _, hRes⟩ := bind_eq_ok hRes
  split at hRes
  · cases hRes
  · split at hRes
    · cases hRes
      exact .inl (.refl s)
    · obtain ⟨⟨out, u⟩, hC, hRes⟩ := bind_eq_ok hRes
      have hSame := streamOp_same hC
      cases out with
      | some text =>
        cases hRes
        exact .inl hSame
      | none =>
        cases hRes
        exact .inr ⟨_, hSame.yield co kind hd.ctx h⟩

/-! ## The other actions -/

theorem freeConn_same {c : Ptr} {cli : Cli} (h : s.cli.freeConn c = .ok cli) :
    s.SameKicks { s with cli } := by
  obtain ⟨cc, hcc, _⟩ := bind_eq_ok h
  rw [Cli.freeConn_ok (deref_ok_iff.mp hcc) h]
  exact ⟨rfl, rfl⟩

theorem close_same {c : Ptr} {gc : Bool} (h : s.close c gc = .ok t) : s.SameKicks t := by
  obtain ⟨u, hClose, h⟩ := bind_eq_ok h
  have hSame : s.SameKicks u := by
    obtain ⟨cc, hcc, _⟩ := bind_eq_ok hClose
    rw [closeEngineCtx_ok hClose (deref_ok_iff.mp hcc)]
    exact ⟨rfl, rfl⟩
  split at h
  · obtain ⟨cc, _, h⟩ := bind_eq_ok h
    split at h
    · obtain ⟨cli, hFree, h⟩ := bind_eq_ok h
      cases h
      exact hSame.trans (freeConn_same hFree)
    · cases h
      exact hSame.trans ⟨rfl, rfl⟩
  · cases h
    exact hSame

theorem releaseSctx_same {p : Ptr} {cli : Cli} (h : s.cli.releaseSctx p = .ok cli) :
    s.SameKicks { s with cli } := by
  obtain ⟨sc, _, h⟩ := bind_eq_ok h
  obtain ⟨c, _, h⟩ := bind_eq_ok h
  obtain ⟨cc, _, h⟩ := bind_eq_ok h
  split at h
  · simp only at h
    split at h
    · have hFree := freeConn_same (s := { s with cli := _ }) h
      exact ⟨hFree.kicks, hFree.next⟩
    · cases h
      exact ⟨rfl, rfl⟩
  · cases h

theorem closeStream_same {p : Ptr} {gc : Bool} (h : s.closeStream p gc = .ok t) :
    s.SameKicks t := by
  unfold closeStream at h
  simp only at h
  split at h
  · obtain ⟨cli, hRelease, h⟩ := bind_eq_ok h
    cases h
    have hSame := releaseSctx_same (s := { s with eng := _ }) hRelease
    exact ⟨hSame.kicks, hSame.next⟩
  · cases h
    exact ⟨rfl, rfl⟩

theorem connect_same {alloc : Option Ptr} {dial : GoOut} {ref : Ptr} {c : Option Ptr}
    (h : s.connect alloc dial ref = .ok (c, t)) : s.SameKicks t := by
  unfold connect at h
  split at h
  · cases h
    exact .refl s
  · split at h
    · cases h
    · split at h
      · cases h
        exact ⟨rfl, rfl⟩
      · cases h
        exact ⟨rfl, rfl⟩

theorem luaConnect_same {alloc : Option Ptr} {dial : GoOut} {ref : Ptr}
    (h : s.luaConnect alloc dial ref = .ok t) : s.SameKicks t := by
  obtain ⟨⟨c, u⟩, hConnect, h⟩ := bind_eq_ok h
  have hSame := connect_same hConnect
  cases c with
  | none =>
    cases h
    exact hSame
  | some c =>
    cases h
    exact hSame.trans ⟨rfl, rfl⟩

theorem luaConnClose_same {g : Nat} (h : s.luaConnClose g = .ok t) : s.SameKicks t := by
  obtain ⟨hd, _, h⟩ := bind_eq_ok h
  split at h
  · cases h
    exact .refl s
  · have hSame := close_same h
    exact ⟨hSame.kicks, hSame.next⟩

theorem luaConnGc_same {g : Nat} (h : s.luaConnGc g = .ok t) : s.SameKicks t := by
  obtain ⟨hd, _, h⟩ := bind_eq_ok h
  split at h
  · cases h
  · have hSame := close_same h
    exact ⟨hSame.kicks, hSame.next⟩

theorem luaStreamClose_same {k : Nat} (h : s.luaStreamClose k = .ok t) : s.SameKicks t := by
  obtain ⟨hd, _, h⟩ := bind_eq_ok h
  split at h
  · cases h
    exact .refl s
  · have hSame := closeStream_same h
    exact ⟨hSame.kicks, hSame.next⟩

theorem luaStreamGc_same {k : Nat} (h : s.luaStreamGc k = .ok t) : s.SameKicks t := by
  obtain ⟨hd, _, h⟩ := bind_eq_ok h
  split at h
  · cases h
  · have hSame := closeStream_same h
    exact ⟨hSame.kicks, hSame.next⟩

theorem waitReturn_same (h : s.waitReturn = .ok t) : s.SameKicks t := by
  unfold waitReturn at h
  split at h
  · split at h
    · cases h
    · cases h
      exact ⟨rfl, rfl⟩
  · cases h

theorem threadTest_same (h : s.threadTest = .ok t) : s.SameKicks t := by
  unfold threadTest at h
  split at h
  · split at h
    · split at h
      · cases h
        exact ⟨rfl, rfl⟩
      · cases h
        exact ⟨rfl, rfl⟩
    · cases h
      exact ⟨rfl, rfl⟩
  · cases h

theorem postEvent_same (h : s.postEvent = .ok t) : s.SameKicks t := by
  unfold postEvent at h
  split at h
  · cases h
    exact ⟨rfl, rfl⟩
  · cases h

theorem Valid.timer_same (hv : s.Valid) {co : Nat} (h : s.timer co = .ok t) : s.SameKicks t := by
  unfold State.timer at h
  split at h
  · cases h
  · obtain ⟨out, hExpire, h⟩ := bind_eq_ok h
    cases h
    cases hTimer : (s.cli.coctxs co).timerSet with
    | false =>
      rw [Cli.expireTimer, hTimer] at hExpire
      cases hExpire
    | true =>
      obtain ⟨f, addr, sc, rfl, _, hEq⟩ := hv.cli.expireTimer_eq hTimer
      rw [hEq] at hExpire
      cases hExpire
      exact ⟨rfl, rfl⟩

theorem Valid.abort_same (hv : s.Valid) {co : Nat} (h : s.step (.abort co) = .ok t) :
    s.SameKicks t := by
  obtain ⟨cli, hAbort, h⟩ := bind_eq_ok h
  cases h
  cases hf : s.cli.frames co with
  | none =>
    rw [Cli.abort, hf] at hAbort
    cases hAbort
  | some f =>
    obtain ⟨addr, sc, _, hEq⟩ := hv.cli.abort_eq hf
    rw [hEq] at hAbort
    cases hAbort
    exact ⟨rfl, rfl⟩

theorem Valid.drain_same (hv : s.Valid) (h : s.step .drain = .ok t) : s.SameKicks t := by
  cases hDrain : s.draining with
  | false => simp [State.step, threadPostEventHandler, hDrain] at h
  | true =>
    cases hOccupied : s.thread.occupied with
    | nil =>
      rw [drain_last hDrain hOccupied] at h
      cases h
      exact ⟨rfl, rfl⟩
    | cons r occupied =>
      obtain ⟨cli, mem, hStep, hCli⟩ := hv.drain_next hDrain hOccupied
      rw [hStep] at h
      cases h
      obtain rfl | ⟨f, addr, sc, sc', _, rfl⟩ := hCli
      · exact ⟨rfl, rfl⟩
      · exact ⟨rfl, rfl⟩

/-- Only the five functions that kick off do so. -/
theorem Run.step_same (hRun : Run ok s) {a : Action} (hA : a.kicksOff = false)
    (h : s.step a = .ok t) : s.SameKicks t := by
  have hv := hRun.valid
  cases a with
  | call | newStream | recv | send | closeSend => cases hA
  | connect => exact luaConnect_same h
  | connClose => exact luaConnClose_same h
  | connGc => exact luaConnGc_same h
  | streamClose => exact luaStreamClose_same h
  | streamGc => exact luaStreamGc_same h
  | timer => exact hv.timer_same h
  | abort => exact hv.abort_same h
  | goReturn | goReport | goDefer =>
    obtain ⟨eng, _, h⟩ := bind_eq_ok h
    cases h
    exact ⟨rfl, rfl⟩
  | waitReturn => exact waitReturn_same h
  | threadTest => exact threadTest_same h
  | threadEvent oom postOk =>
    obtain ⟨kept, dropped, ph, free, posted, _, rfl⟩ := threadEventHandler_ok hRun.holds h
    exact ⟨rfl, rfl⟩
  | postEvent => exact postEvent_same h
  | drain => exact hv.drain_same h
  | waitTimer | quit | exit | terminate =>
    cases h
    exact ⟨rfl, rfl⟩

/-! ## Which steps end a wait -/

theorem Change.outcomes_kickOff {a : Action} (h : s.Change a t) (hA : a.kicksOff = true) :
    t.cli.outcomes = s.cli.outcomes := by
  cases h with
  | resume | timeout | abort => cases hA
  | _ => rfl

/-- No stream is new or open again. -/
def KeepsStreams (s t : State) : Prop :=
  ∀ h hd', t.cli.streams h = some hd' →
    ∃ hd, s.cli.streams h = some hd ∧ (hd.closed = true → hd'.closed = true)

theorem KeepsStreams.refl (s : State) : s.KeepsStreams s := fun _ hd hHd => ⟨hd, hHd, id⟩

theorem KeepsStreams.trans {u : State} (h : s.KeepsStreams t) (h' : t.KeepsStreams u) :
    s.KeepsStreams u := by
  intro k hd'' hHd''
  obtain ⟨hd', hHd', hStay'⟩ := h' k hd'' hHd''
  obtain ⟨hd, hHd, hStay⟩ := h k hd' hHd'
  exact ⟨hd, hHd, fun hClosed => hStay' (hStay hClosed)⟩

/-- A stream is new only when its open is answered. -/
def AddsStream (s t : State) (f : Frame) (o : Outcome) : Prop :=
  ∀ h hd', t.cli.streams h = some hd' →
    (∃ hd, s.cli.streams h = some hd ∧ (hd.closed = true → hd'.closed = true)) ∨
      h = f.kick ∧ f.op = .newStream ∧ ∃ payload, o.reply = some (.ok payload)

theorem KeepsStreams.adds (h : s.KeepsStreams t) (f : Frame) (o : Outcome) :
    s.AddsStream t f o := fun k hd' hHd' => .inl (h k hd' hHd')

theorem AddsStream.trans {u : State} {f : Frame} {o : Outcome} (h : s.AddsStream t f o)
    (h' : t.KeepsStreams u) : s.AddsStream u f o := by
  intro k hd'' hHd''
  obtain ⟨hd', hHd', hStay'⟩ := h' k hd'' hHd''
  obtain ⟨hd, hHd, hStay⟩ | hNew := h k hd' hHd'
  · exact .inl ⟨hd, hHd, fun hClosed => hStay' (hStay hClosed)⟩
  · exact .inr hNew

theorem keepsStreams_update {k : Nat} {v : Option Handle} {cli : Cli}
    (hv : ∀ hd, v = some hd → hd.closed = true ∧ ∃ hd', s.cli.streams k = some hd')
    (hCli : cli.streams = Function.update s.cli.streams k v) : s.KeepsStreams { s with cli } := by
  intro k' hd' hHd'
  simp only [hCli] at hHd'
  by_cases hEq : k' = k
  · subst hEq
    rw [Function.update_self] at hHd'
    obtain ⟨hClosed, hd, hHd⟩ := hv hd' hHd'
    exact ⟨hd, hHd, fun _ => hClosed⟩
  · rw [Function.update_of_ne hEq] at hHd'
    exact ⟨hd', hHd', id⟩

/-- At most one wait ends in a step. -/
theorem Change.ends {a : Action} (h : s.Change a t) :
    t.cli.outcomes = s.cli.outcomes ∧ s.KeepsStreams t ∨
      ∃ f o, s.cli.frames f.co = some f ∧ t.cli.outcomes = s.cli.outcomes ++ [(f.kick, o)] ∧
        s.AddsStream t f o := by
  have hKept : ∀ {k : Nat} {v : Option Handle} {cli : Cli} {eng : Engine},
      (∀ hd, v = some hd → hd.closed = true ∧ ∃ hd', s.cli.streams k = some hd') →
      cli.streams = Function.update s.cli.streams k v → s.KeepsStreams { s with cli, eng } :=
    fun hv hCli => keepsStreams_update (s := s) hv hCli
  cases h with
  | @resume r occupied f addr sc hOccupied hId hSettles =>
    refine .inr ⟨f, .result r, hSettles.frame, rfl, fun k hd' hHd' => ?_⟩
    obtain hOld | ⟨hOp, ⟨payload, hReply⟩, rfl, -⟩ := answeredStreams_some hHd'
    · exact .inl ⟨hd', hOld, id⟩
    · exact .inr ⟨rfl, hOp, payload, congrArg some hReply⟩
  | timeout hSettles =>
    refine .inr ⟨_, .timeout, hSettles.frame, rfl, KeepsStreams.adds ?_ _ _⟩
    intro k hd' hHd'
    refine ⟨hd', ?_, id⟩
    rwa [Cli.resumed, answeredStreams_fail] at hHd'
  | abort hSettles =>
    exact .inr ⟨_, .aborted, hSettles.frame, rfl, KeepsStreams.adds (.refl s) _ _⟩
  | streamClose hHd =>
    refine .inl ⟨rfl, hKept (fun hd hEq => ?_) rfl⟩
    cases hEq
    exact ⟨rfl, _, hHd⟩
  | streamGc hHd | streamGcFree hHd =>
    refine .inl ⟨rfl, hKept (v := none) ?_ rfl⟩
    rintro hd ⟨⟩
  | _ => exact .inl ⟨rfl, .refl s⟩

theorem luaStreamClose_closed {h : Nat} (hRes : s.luaStreamClose h = .ok t) :
    t.cli.outcomes = s.cli.outcomes ∧ ∀ hd, t.cli.streams h = some hd → hd.closed = true := by
  obtain ⟨hd, hHd, hRes⟩ := bind_eq_ok hRes
  have hHd := handle_ok hHd
  split at hRes
  · rename_i hClosed
    cases hRes
    refine ⟨rfl, fun hd' hHd' => ?_⟩
    rw [hHd] at hHd'
    cases hHd'
    exact hClosed
  · cases hRes
    refine ⟨rfl, fun hd' hHd' => ?_⟩
    simp only [Function.update_self] at hHd'
    cases hHd'
    rfl

/-- The kick-off of an operation on a stream finds the stream open and idle. -/
theorem Change.asks_idle {a : Action} (h : s.Change a t) (hv : s.Valid) {co handle : Nat}
    {kind : OpKind} {f : Frame} (hAsks : s.Asks t co kind handle f) (hOn : f.op.onStream = true) :
    (∃ hd, s.cli.streams f.handle = some hd ∧ hd.closed = false) ∧
      ∀ co' f', s.cli.frames co' = some f' → f'.op.onStream = true → f'.handle ≠ f.handle := by
  have hNew : t.cli.nextKick ≠ s.cli.nextKick := by
    rw [hAsks.next, hAsks.kick]
    omega
  cases h with
  | @kick _ f' ctxs sctxs sc op addr hPrep hKick =>
    have hSame : f' = f := by
      have hEq := congrFun hAsks.kicks f.kick
      rw [Function.update_self] at hEq
      simp only [Cli.kicked, hKick, hAsks.kick, Function.update_self] at hEq
      exact Option.some.inj hEq
    subst hSame
    cases hPrep with
    | opens r isHttp type hHd hOpen hcc hEngine hRef hTake hOff =>
      rw [hOff] at hOn
      cases hOn
    | @stream hd _ _ hHd hOpen hCtx hsc hWait =>
      refine ⟨⟨hd, hHd, hOpen⟩, fun co' f'' hf'' hOn' hHandle => ?_⟩
      obtain ⟨hd', hHd', hCtx'⟩ := hv.cli.refs.frame_stream co' f'' hf'' hOn'
      rw [hHandle, hHd] at hHd'
      cases hHd'
      obtain ⟨sc', _, hsc', _, hCo, _⟩ := hv.cli.suspended.frame_sctx co' f'' hf''
      rw [← hCtx', hCtx, hsc] at hsc'
      cases hsc'
      rw [hWait] at hCo
      cases hCo
  | _ => exact absurd rfl hNew

end State

/-! ## The worker with its calls -/

namespace Grpc

open State (KeepsStreams AddsStream)

variable {g g' : Grpc} {ok : State → GrpcClient.Action → Prop}

/-- Steps without a kick-off or an outcome. -/
structure Quiet (ok : State → GrpcClient.Action → Prop) (g g' : Grpc) : Prop where
  steps : Transition.Reaches step (onWorker ok) g g'
  same : g.st.SameKicks g'.st
  outcomes : g'.st.cli.outcomes = g.st.cli.outcomes
  streams : g.st.KeepsStreams g'.st
  reqs : g'.reqs = g.reqs

/-- An operation starts with this request. -/
structure Asks (ok : State → GrpcClient.Action → Prop) (g g' : Grpc) (co : Nat) (kind : OpKind)
    (handle : Nat) (f : Frame) (path : String) (data : Bytes) : Prop where
  steps : Transition.Reaches step (onWorker ok) g g'
  asks : g.st.Asks g'.st co kind handle f
  outcomes : g'.st.cli.outcomes = g.st.cli.outcomes
  streams : g.st.KeepsStreams g'.st
  idle : f.op.onStream = true → (∃ hd, g.st.cli.streams f.handle = some hd ∧ hd.closed = false) ∧
    ∀ co' f', g.st.cli.frames co' = some f' → f'.op.onStream = true → f'.handle ≠ f.handle
  reqs : ∃ req, g'.reqs = Function.update g.reqs f.kick (some req) ∧ req.method = path ∧
    req.data = data

/-- The wait of `f` ends. -/
structure Ends (ok : State → GrpcClient.Action → Prop) (g g' : Grpc) (f : Frame) (o : Outcome) :
    Prop where
  steps : Transition.Reaches step (onWorker ok) g g'
  frame : g.st.cli.frames f.co = some f
  same : g.st.SameKicks g'.st
  outcomes : g'.st.cli.outcomes = g.st.cli.outcomes ++ [(f.kick, o)]
  streams : g.st.AddsStream g'.st f o
  reqs : g'.reqs = g.reqs

theorem step_worker {a : GrpcClient.Action} {method : String} {data : Bytes}
    (h : g.step (.worker a method data) = .ok g') :
    g.st.step a = .ok g'.st ∧ g' = g.kicked g'.st method data := by
  simp only [step] at h
  split at h
  · cases h
  · obtain ⟨st, hSt, h⟩ := bind_eq_ok h
    cases h
    have hSame : (g.kicked st method data).st = st := by
      unfold kicked
      split <;> rfl
    rw [hSame]
    exact ⟨hSt, rfl⟩

theorem kicked_of_same {st : State} (hRun : State.Reachable g.st) (h : g.st.SameKicks st)
    (method : String) (data : Bytes) : g.kicked st method data = { g with st } := by
  have hNone : st.cli.kicks g.st.cli.nextKick = none := by
    rw [h.kicks]
    exact hRun.kicks_next
  simp only [kicked, hNone]

theorem Quiet.refl (g : Grpc) : Quiet ok g g := ⟨.refl, .refl _, rfl, .refl _, rfl⟩

section Steps

variable (hRun : State.Reachable g.st)

include hRun

/-- A function that kicks off starts its operation or changes nothing here. -/
theorem step_kickOff {a : GrpcClient.Action} {path : String} {data : Bytes} {co handle : Nat}
    {kind : OpKind} (hA : a.kicksOff = true) (hOk : ok g.st a)
    (hKicks : g.st.SameKicks g'.st ∨ ∃ f, g.st.Asks g'.st co kind handle f)
    (h : g.step (.worker a path data) = .ok g') :
    Quiet ok g g' ∨ ∃ f, Asks ok g g' co kind handle f path data := by
  obtain ⟨hSt, hEq⟩ := step_worker h
  have hChange := hRun.valid.step_change hSt
  have hOutcomes := hChange.outcomes_kickOff hA
  have hSteps : Transition.Reaches step (onWorker ok) g g' :=
    .tail (a := .worker a path data) .refl hOk h
  have hStreams : g.st.KeepsStreams g'.st := by
    obtain ⟨_, hKept⟩ | ⟨f, o, _, hMore, _⟩ := hChange.ends
    · exact hKept
    · simp [hOutcomes] at hMore
  obtain hSame | ⟨f, hAsks⟩ := hKicks
  · rw [kicked_of_same hRun hSame] at hEq
    exact .inl ⟨hSteps, hSame, hOutcomes, hStreams, by rw [hEq]⟩
  · have hNext : State.Reachable g'.st := .tail hRun trivial hSt
    have hKick : g'.st.cli.kicks g.st.cli.nextKick = some f := by
      rw [hAsks.kicks, ← hAsks.kick, Function.update_self]
    obtain ⟨op, hOp⟩ := hNext.started.kick_op _ f hKick
    have hReqs : g'.reqs =
        Function.update g.reqs f.kick (some (g.request g'.st f op path data)) := by
      rw [hEq]
      simp only [kicked, hKick, hOp]
    exact .inr ⟨f, hSteps, hAsks, hOutcomes, hStreams, hChange.asks_idle hRun.valid hAsks,
      _, hReqs, rfl, rfl⟩

/-- Any other step of the worker ends at most one wait. -/
theorem step_other {a : GrpcClient.Action} (hA : a.kicksOff = false) (hOk : ok g.st a)
    (h : g.step (.worker a "" []) = .ok g') : Quiet ok g g' ∨ ∃ f o, Ends ok g g' f o := by
  obtain ⟨hSt, hEq⟩ := step_worker h
  have hChange := hRun.valid.step_change hSt
  have hSame := hRun.step_same hA hSt
  rw [kicked_of_same hRun hSame] at hEq
  have hReqs : g'.reqs = g.reqs := by rw [hEq]
  have hSteps : Transition.Reaches step (onWorker ok) g g' :=
    .tail (a := .worker a "" []) .refl hOk h
  obtain ⟨hOutcomes, hKept⟩ | ⟨f, o, hf, hOutcomes, hAdds⟩ := hChange.ends
  · exact .inl ⟨hSteps, hSame, hOutcomes, hKept, hReqs⟩
  · exact .inr ⟨f, o, hSteps, hf, hSame, hOutcomes, hAdds, hReqs⟩

/-- `stream_close` leaves the handle closed. -/
theorem step_streamClose {h : Nat} (hOk : ok g.st (.streamClose h))
    (hStep : g.step (.worker (.streamClose h) "" []) = .ok g') :
    Quiet ok g g' ∧ ∀ hd, g'.st.cli.streams h = some hd → hd.closed = true := by
  obtain ⟨hOutcomes, hClosed⟩ := State.luaStreamClose_closed (step_worker hStep).1
  refine ⟨?_, hClosed⟩
  obtain hQuiet | ⟨f, o, hEnds⟩ := step_other hRun rfl hOk hStep
  · exact hQuiet
  · have hMore := hEnds.outcomes
    simp [hOutcomes] at hMore

end Steps

theorem step_rpc {k : Nat} {out : GoOut} (h : g.step (.rpc k out) = .ok g') : Quiet ok g g' := by
  have hSteps : Transition.Reaches step (onWorker ok) g g' :=
    .tail (a := .rpc k out) .refl trivial h
  cases rpc_change h with
  | more => exact ⟨hSteps, .refl _, rfl, .refl _, rfl⟩
  | last => exact ⟨hSteps, ⟨rfl, rfl⟩, rfl, .refl g.st, rfl⟩

theorem Quiet.resumed (h : Quiet ok g g') : g.st.resumed g'.st = none := by
  simp [State.resumed, h.outcomes]

theorem Ends.resumed (hRun : State.Reachable g.st) {f : Frame} {o : Outcome}
    (h : Ends ok g g' f o) : g.st.resumed g'.st = o.reply.map fun reply => (f, reply) := by
  have hLast : g'.st.cli.outcomes[g.st.cli.outcomes.length]? = some (f.kick, o) := by
    simp [h.outcomes]
  have hKick : g'.st.cli.kicks f.kick = some f := by rw [h.same.kicks, (hRun.pending h.frame).1]
  cases hReply : o.reply <;> simp [State.resumed, hLast, hKick, hReply]

theorem Ends.quiet {g'' : Grpc} {f : Frame} {o : Outcome} (h : Ends ok g g' f o)
    (h' : Quiet ok g' g'') : Ends ok g g'' f o :=
  ⟨h.steps.trans h'.steps, h.frame, h.same.trans h'.same, h'.outcomes.trans h.outcomes,
    h.streams.trans h'.streams, h'.reqs.trans h.reqs⟩

end Grpc

end GrpcClient
