import GrpcClient.Waits

/-! # Who owns an sctx

An sctx of a connection is on its free list, held by a call or an open that is
waiting, or named by a stream handle. A call that is aborted and a stream open
that ends without a handle drop it instead of putting it back.
-/

namespace GrpcClient

open Fallible PartialMap

namespace State

variable {s t : State} {ok : State → Action → Prop}

/-! ## Contexts have owners of their own -/

structure Owned (ctxs : Ptr → Option Ctx) (nextConn : Nat) : Prop where
  lt : ∀ c cc, ctxs c = some cc → cc.owner < nextConn
  inj : ∀ c cc c' cc', ctxs c = some cc → ctxs c' = some cc' → cc.owner = cc'.owner → c = c'

/-- No context is new and none changes its owner. -/
def KeepsOwners (ctxs ctxs' : Ptr → Option Ctx) : Prop :=
  ∀ c cc', ctxs' c = some cc' → ∃ cc, ctxs c = some cc ∧ cc.owner = cc'.owner

theorem Owned.mono {ctxs ctxs' : Ptr → Option Ctx} {n : Nat} (h : Owned ctxs n)
    (hKeeps : KeepsOwners ctxs ctxs') : Owned ctxs' n := by
  constructor
  · intro c cc hc
    obtain ⟨cc₀, hc₀, hEq⟩ := hKeeps c cc hc
    rw [← hEq]
    exact h.lt c cc₀ hc₀
  · intro c cc c' cc' hc hc' hOwner
    obtain ⟨cc₀, hc₀, hEq⟩ := hKeeps c cc hc
    obtain ⟨cc₀', hc₀', hEq'⟩ := hKeeps c' cc' hc'
    exact h.inj c cc₀ c' cc₀' hc₀ hc₀' (by rw [hEq, hEq', hOwner])

theorem keepsOwners_refl (ctxs : Ptr → Option Ctx) : KeepsOwners ctxs ctxs :=
  fun _ cc hc => ⟨cc, hc, rfl⟩

theorem keepsOwners_update {ctxs : Ptr → Option Ctx} {c : Ptr} {cc : Ctx} {v : Option Ctx}
    (hc : ctxs c = some cc) (hv : ∀ cc', v = some cc' → cc'.owner = cc.owner) :
    KeepsOwners ctxs (Function.update ctxs c v) := by
  intro c' cc' hc'
  by_cases hEq : c' = c
  · subst hEq
    rw [Function.update_self] at hc'
    exact ⟨cc, hc, (hv cc' hc').symm⟩
  · rw [Function.update_of_ne hEq] at hc'
    exact ⟨cc', hc', rfl⟩

theorem keepsOwners_requeued (ctxs : Ptr → Option Ctx) (p : Ptr) (sc : StreamCtx) :
    KeepsOwners ctxs (Cli.requeued ctxs p sc) := by
  intro c cc' hc
  obtain ⟨cc, free, hcc, rfl⟩ := Cli.requeued_some hc
  exact ⟨cc, hcc, rfl⟩

/-- Only a connect makes a context, and it makes one with a new owner. -/
theorem Change.owners {a : Action} (h : s.Change a t) :
    (KeepsOwners s.cli.ctxs t.cli.ctxs ∧ t.eng.nextConn = s.eng.nextConn) ∨
    ∃ c cc, cc.owner = s.eng.nextConn ∧ t.cli.ctxs = Function.update s.cli.ctxs c (some cc) ∧
      t.eng.nextConn = s.eng.nextConn + 1 := by
  cases h with
  | connect => exact .inr ⟨_, _, rfl, rfl, rfl⟩
  | connClose hHd hcc => exact .inl ⟨keepsOwners_update hcc (by rintro _ ⟨⟩; rfl), rfl⟩
  | connDelay hHd hcc => exact .inl ⟨keepsOwners_update hcc (by rintro _ ⟨⟩; rfl), rfl⟩
  | connFree hHd hcc => exact .inl ⟨keepsOwners_update hcc (by rintro _ ⟨⟩), rfl⟩
  | openFailed r isHttp type hcc =>
    refine .inl ⟨?_, rfl⟩
    simp only [Cli.taken, Cli.setCtx, Cli.setSctx, Function.update_idem]
    exact keepsOwners_update hcc (by rintro _ ⟨⟩; rfl)
  | kick hPrep =>
    cases hPrep with
    | opens r isHttp type hHd hOpen hcc =>
      exact .inl ⟨keepsOwners_update hcc (by rintro _ ⟨⟩; rfl), rfl⟩
    | stream => exact .inl ⟨keepsOwners_refl _, rfl⟩
  | resume => exact .inl ⟨keepsOwners_requeued _ _ _, rfl⟩
  | timeout => exact .inl ⟨keepsOwners_requeued _ _ _, rfl⟩
  | streamGc hHd hcc => exact .inl ⟨keepsOwners_update hcc (by rintro _ ⟨⟩; rfl), rfl⟩
  | streamGcFree hHd hcc => exact .inl ⟨keepsOwners_update hcc (by rintro _ ⟨⟩), rfl⟩
  | _ => exact .inl ⟨keepsOwners_refl _, rfl⟩

theorem Change.owned {a : Action} (hOwned : Owned s.cli.ctxs s.eng.nextConn) (h : s.Change a t) :
    Owned t.cli.ctxs t.eng.nextConn := by
  obtain ⟨hKeeps, hNext⟩ | ⟨c, cc, hOwner, hCtxs, hNext⟩ := h.owners
  · rw [hNext]
    exact hOwned.mono hKeeps
  · rw [hCtxs, hNext]
    constructor
    · intro c' cc' hc'
      rcases update_some_iff.mp hc' with ⟨_, rfl⟩ | ⟨_, hc'⟩
      · omega
      · exact Nat.lt_succ_of_lt (hOwned.lt c' cc' hc')
    · intro c₁ cc₁ c₂ cc₂ h₁ h₂ hEq
      rcases update_some_iff.mp h₁ with ⟨rfl, rfl⟩ | ⟨_, hOld₁⟩
      · rcases update_some_iff.mp h₂ with ⟨rfl, rfl⟩ | ⟨_, hOld₂⟩
        · rfl
        · have := hOwned.lt c₂ cc₂ hOld₂
          omega
      · rcases update_some_iff.mp h₂ with ⟨rfl, rfl⟩ | ⟨_, hOld₂⟩
        · have := hOwned.lt c₁ cc₁ hOld₁
          omega
        · exact hOwned.inj c₁ cc₁ c₂ cc₂ hOld₁ hOld₂ hEq

theorem owned_init : Owned init.cli.ctxs init.eng.nextConn :=
  ⟨by simp [init, Cli.init], by simp [init, Cli.init]⟩

theorem Run.owned (h : Run ok s) : Owned s.cli.ctxs s.eng.nextConn :=
  h.induct (P := fun s => Owned s.cli.ctxs s.eng.nextConn) owned_init
    fun _ _ _ _ _ hOwned _ _ hChange => hChange.owned hOwned

theorem Valid.open_owner (hv : s.Valid) {co : Nat} {f : Frame} (hf : s.cli.frames co = some f)
    (hOp : f.op.onStream = false) {sc : StreamCtx} (hsc : s.cli.sctxs f.sctx = some sc) :
    sc.owner = f.handle := by
  obtain ⟨hd, cc, sc', hHd, hcc, hsc', _, hOwner, _⟩ := hv.cli.refs.frame_open co f hf hOp
  obtain ⟨cc', hcc', hEq, _⟩ := hv.cli.handles.conn_ctx f.handle hd hHd
  rw [hsc] at hsc'
  cases hsc'
  rw [hcc] at hcc'
  cases hcc'
  exact hOwner.trans hEq

/-! ## Where an sctx can be -/

inductive Placed (ctxs : Ptr → Option Ctx) (frames : Nat → Option Frame)
    (streams : Nat → Option Handle) (p : Ptr) : Prop
  | free {c : Ptr} {cc : Ctx} (hcc : ctxs c = some cc) (hMem : p ∈ cc.free)
  | waited {co : Nat} {f : Frame} (hf : frames co = some f) (hEq : f.sctx = p)
  | handle {h : Nat} {hd : Handle} (hHd : streams h = some hd) (hEq : hd.ctx = p)

theorem Placed.mono {ctxs ctxs' : Ptr → Option Ctx} {frames frames' : Nat → Option Frame}
    {streams streams' : Nat → Option Handle} {p : Ptr} (h : Placed ctxs frames streams p)
    (hFree : ∀ c cc, ctxs c = some cc → p ∈ cc.free → ∃ cc', ctxs' c = some cc' ∧ p ∈ cc'.free)
    (hWait : ∀ co f, frames co = some f → f.sctx = p → frames' co = some f)
    (hHandle : ∀ h hd, streams h = some hd → hd.ctx = p →
      ∃ hd', streams' h = some hd' ∧ hd'.ctx = p) :
    Placed ctxs' frames' streams' p := by
  cases h with
  | free hcc hMem =>
    obtain ⟨cc', hcc', hMem'⟩ := hFree _ _ hcc hMem
    exact .free hcc' hMem'
  | waited hf hEq => exact .waited (hWait _ _ hf hEq) hEq
  | handle hHd hEq =>
    obtain ⟨hd', hHd', hEq'⟩ := hHandle _ _ hHd hEq
    exact .handle hHd' hEq'

theorem Placed.update {ctxs : Ptr → Option Ctx} {frames : Nat → Option Frame}
    {streams : Nat → Option Handle} {p : Ptr} (h : Placed ctxs frames streams p) {c : Ptr}
    {cc' : Ctx} (hFree : ∀ cc, ctxs c = some cc → p ∈ cc.free → p ∈ cc'.free) :
    Placed (Function.update ctxs c (some cc')) frames streams p := by
  refine h.mono ?_ (fun _ _ hf _ => hf) (fun _ hd hHd hEq => ⟨hd, hHd, hEq⟩)
  intro c₀ cc hcc hMem
  by_cases hEq : c₀ = c
  · subst hEq
    exact ⟨cc', Function.update_self .., hFree cc hcc hMem⟩
  · exact ⟨cc, update_of_some hcc hEq, hMem⟩

theorem Placed.suspend {ctxs : Ptr → Option Ctx} {frames : Nat → Option Frame}
    {streams : Nat → Option Handle} {p : Ptr} (h : Placed ctxs frames streams p) {f : Frame}
    (hRun : frames f.co = none) :
    Placed ctxs (Function.update frames f.co (some f)) streams p := by
  refine h.mono (fun _ cc hcc hMem => ⟨cc, hcc, hMem⟩) ?_ (fun _ hd hHd hEq => ⟨hd, hHd, hEq⟩)
  intro co f' hf' _
  refine update_of_some hf' ?_
  rintro rfl
  rw [hRun] at hf'
  cases hf'

theorem Placed.wake {ctxs : Ptr → Option Ctx} {frames : Nat → Option Frame}
    {streams : Nat → Option Handle} {p : Ptr} (h : Placed ctxs frames streams p) {f : Frame}
    (hf : frames f.co = some f) (hNe : p ≠ f.sctx) :
    Placed ctxs (Function.update frames f.co none) streams p := by
  refine h.mono (fun _ cc hcc hMem => ⟨cc, hcc, hMem⟩) ?_ (fun _ hd hHd hEq => ⟨hd, hHd, hEq⟩)
  rintro co f' hf' rfl
  refine update_none_iff.mpr ⟨?_, hf'⟩
  rintro rfl
  rw [hf] at hf'
  cases hf'
  exact hNe rfl

theorem Placed.drop {ctxs : Ptr → Option Ctx} {frames : Nat → Option Frame}
    {streams : Nat → Option Handle} {p : Ptr} (h : Placed ctxs frames streams p) {k : Nat}
    {hd : Handle} (hHd : streams k = some hd) (hNe : p ≠ hd.ctx) :
    Placed ctxs frames (Function.update streams k none) p := by
  refine h.mono (fun _ cc hcc hMem => ⟨cc, hcc, hMem⟩) (fun _ _ hf _ => hf) ?_
  rintro k' hd' hHd' rfl
  refine ⟨hd', update_none_iff.mpr ⟨?_, hHd'⟩, rfl⟩
  rintro rfl
  rw [hHd] at hHd'
  cases hHd'
  exact hNe rfl

theorem Placed.freed {ctxs : Ptr → Option Ctx} {frames : Nat → Option Frame}
    {streams : Nat → Option Handle} {p : Ptr} (h : Placed ctxs frames streams p) {c : Ptr}
    {cc : Ctx} (hcc : ctxs c = some cc) (hNot : p ∉ cc.free) :
    Placed (Function.update ctxs c none) frames streams p := by
  refine h.mono ?_ (fun _ _ hf _ => hf) (fun _ hd hHd hEq => ⟨hd, hHd, hEq⟩)
  intro c' cc' hcc' hMem
  refine ⟨cc', update_of_some hcc' ?_, hMem⟩
  rintro rfl
  rw [hcc] at hcc'
  cases hcc'
  exact hNot hMem

def Kept (g : Nat) (ctxs : Ptr → Option Ctx) (sctxs : Ptr → Option StreamCtx)
    (frames : Nat → Option Frame) (streams : Nat → Option Handle) : Prop :=
  ∀ p sc, sctxs p = some sc → sc.owner = g → Placed ctxs frames streams p

theorem Kept.set {g : Nat} {ctxs ctxs' : Ptr → Option Ctx} {sctxs : Ptr → Option StreamCtx}
    {frames frames' : Nat → Option Frame} {streams streams' : Nat → Option Handle} {p : Ptr}
    {sc : StreamCtx} (h : Kept g ctxs sctxs frames streams)
    (hSelf : sc.owner = g → Placed ctxs' frames' streams' p)
    (hOther : ∀ q, q ≠ p → Placed ctxs frames streams q → Placed ctxs' frames' streams' q) :
    Kept g ctxs' (Function.update sctxs p (some sc)) frames' streams' := by
  intro q sc' hsc' hOwner
  rcases update_some_iff.mp hsc' with ⟨rfl, rfl⟩ | ⟨hNe, hOld⟩
  · exact hSelf hOwner
  · exact hOther q hNe (h q sc' hOld hOwner)

theorem requeued_free {ctxs : Ptr → Option Ctx} {p q c : Ptr} {sc : StreamCtx} {cc : Ctx}
    (hcc : ctxs c = some cc) (hMem : q ∈ cc.free) :
    ∃ cc', Cli.requeued ctxs p sc c = some cc' ∧ q ∈ cc'.free := by
  rw [Cli.requeued_apply, hcc]
  refine ⟨_, rfl, ?_⟩
  split
  · exact List.mem_cons_of_mem _ hMem
  · exact hMem

theorem Placed.settled {f : Frame} {q : Ptr} {reply : Reply} {sc : StreamCtx} (hv : s.Valid)
    (hf : s.cli.frames f.co = some f) (hNe : q ≠ f.sctx)
    (h : Placed s.cli.ctxs s.cli.frames s.cli.streams q) :
    Placed (Cli.requeued s.cli.ctxs f.sctx sc) (Function.update s.cli.frames f.co none)
      (Cli.answeredStreams s.cli.streams f reply) q := by
  refine (h.wake hf hNe).mono (fun c cc => requeued_free) (fun _ _ hf _ => hf) ?_
  intro k hd hHd hEq
  exact ⟨hd, hv.cli.answeredStreams_of_some hf hHd reply, hEq⟩

/-- A resumed coroutine gives the sctx back or has a handle on it, unless its
open failed. -/
theorem Valid.placed_resumed (hv : s.Valid) {f : Frame} {addr : Ptr} {sc sc' : StreamCtx}
    {reply : Reply} (hSettles : s.cli.Settles f addr sc sc')
    (hNew : f.op = .newStream → ∃ payload, reply = .ok payload) :
    Placed (Cli.requeued s.cli.ctxs f.sctx sc') (Function.update s.cli.frames f.co none)
      (Cli.answeredStreams s.cli.streams f reply) f.sctx := by
  cases hOn : f.op.onStream with
  | true =>
    obtain ⟨hd, hHd, hEq⟩ := hv.cli.refs.frame_stream f.co f hSettles.frame hOn
    exact .handle (hv.cli.answeredStreams_of_some hSettles.frame hHd reply) hEq
  | false =>
    obtain ⟨hd, cc, sc₀, _, hcc, hsc₀, hParent, _, hUnary, _⟩ :=
      hv.cli.refs.frame_open f.co f hSettles.frame hOn
    rw [hSettles.sctx] at hsc₀
    cases hsc₀
    by_cases hCall : f.op = .call
    · have hQueue : Cli.requeued s.cli.ctxs f.sctx sc' hd.ctx =
          some { cc with free := f.sctx :: cc.free } := by
        simp [Cli.requeued_apply, hcc, hSettles.type, hSettles.parent, hUnary.mpr hCall, hParent]
      exact .free hQueue List.mem_cons_self
    · have hOpen : f.op = .newStream := by
        cases hOp : f.op <;> simp_all [OpKind.onStream]
      obtain ⟨payload, rfl⟩ := hNew hOpen
      have hMade : Cli.answeredStreams s.cli.streams f (.ok payload) f.kick =
          some ⟨f.sctx, false⟩ := by
        simp [Cli.answeredStreams, hOpen]
      exact .handle hMade rfl

/-! ## The routes on which an sctx is dropped -/

/-- The wait that an action ends without giving its sctx back and without a
handle: a call or an open that is aborted, an open that times out, and an open
that is answered with an error. -/
def leaks (s : State) : Action → Option Frame
  | .abort co => (s.cli.frames co).filter fun f => decide (f.op.onStream = false)
  | .timer co => (s.cli.frames co).filter fun f => decide (f.op = .newStream)
  | .drain =>
    s.thread.occupied.head?.bind fun r =>
      if r.type = .err then
        s.cli.suspended.find? fun f => decide (f.sctx = r.taskId ∧ f.op = .newStream)
      else none
  | _ => none

def returnsSctx (g : Nat) (s : State) (a : Action) : Prop := ∀ f ∈ s.leaks a, f.handle ≠ g

instance (g : Nat) (s : State) (a : Action) : Decidable (returnsSctx g s a) :=
  inferInstanceAs (Decidable (∀ f ∈ s.leaks a, f.handle ≠ g))

theorem reply_ok {r : TaskRes} (h : r.type ≠ .err) : ∃ payload, r.reply = .ok payload := by
  cases hType : r.type with
  | ok => exact ⟨_, by rw [TaskRes.reply, hType]⟩
  | okNotRes => exact ⟨_, by rw [TaskRes.reply, hType]⟩
  | err => exact absurd hType h

theorem leaks_drain {r : TaskRes} {occupied : List TaskRes} {f : Frame} (hv : s.Valid)
    (hOccupied : s.thread.occupied = r :: occupied) (hf : s.cli.frames f.co = some f)
    (hId : r.taskId = f.sctx) (hOp : f.op = .newStream) (hErr : r.type = .err) :
    s.leaks .drain = some f := by
  have hMem := hv.mem_suspended.mpr hf
  simp only [leaks, hOccupied, List.head?_cons, Option.bind_some, hErr, if_true]
  cases hFind : s.cli.suspended.find? fun f => decide (f.sctx = r.taskId ∧ f.op = .newStream) with
  | none =>
    have hNone := List.find?_eq_none.mp hFind f hMem
    simp [hId, hOp] at hNone
  | some f' =>
    have hSctx := List.find?_some hFind
    simp only [decide_eq_true_eq] at hSctx
    have hf' := hv.mem_suspended.mp (List.mem_of_find?_eq_some hFind)
    rw [(hv.cli.waiter_unique hf' hf (hSctx.1.trans hId)).2]

theorem takes_mem {cc cc' : Ctx} {free : List Ptr} {c p q : Ptr} (hTake : s.cli.Takes cc free p)
    (hNe : q ≠ p) (hcc : s.cli.ctxs c = some cc) (hcc' : s.cli.ctxs c = some cc')
    (hMem : q ∈ cc'.free) : q ∈ free := by
  rw [hcc] at hcc'
  cases hcc'
  rcases hTake with hLast | ⟨hNil, _⟩
  · rw [hLast, List.mem_append, List.mem_singleton] at hMem
    exact hMem.resolve_right hNe
  · rw [hNil] at hMem
    cases hMem

theorem Change.kept {g : Nat} (hv : s.Valid)
    (hKept : Kept g s.cli.ctxs s.cli.sctxs s.cli.frames s.cli.streams) {a : Action}
    (hReturns : returnsSctx g s a) (h : s.Change a t) :
    Kept g t.cli.ctxs t.cli.sctxs t.cli.frames t.cli.streams := by
  cases h with
  | connect hc hRef =>
    intro p sc hsc hOwner
    refine (hKept p sc hsc hOwner).update fun cc hcc => ?_
    rw [hc] at hcc
    cases hcc
  | connClose hHd hcc | connDelay hHd hcc =>
    intro p sc hsc hOwner
    refine (hKept p sc hsc hOwner).update fun cc' hcc' => ?_
    rw [hcc] at hcc'
    cases hcc'
    exact id
  | connFree hHd hcc hUse hOpening =>
    intro p sc hsc hOwner
    simp only [ite_eq_iff, reduceCtorEq, and_false, false_or] at hsc
    exact (hKept p sc hsc.2 hOwner).freed hcc hsc.1
  | @openFailed _ c p cc free r isHttp type ph hcc hTake hPhase =>
    simp only [Cli.taken, Cli.setCtx, Cli.setSctx, Function.update_idem]
    refine hKept.set (fun _ => .free (Function.update_self ..) List.mem_cons_self) ?_
    intro q hNe hPlaced
    exact hPlaced.update fun cc' hcc' hMem =>
      List.mem_cons_of_mem _ (takes_mem hTake hNe hcc hcc' hMem)
  | @kick a f ctxs sctxs sc op addr hPrep hKick hRun hAddr =>
    cases hPrep with
    | opens r isHttp type hHd hOpen hcc hEngine hRef hTake =>
      simp only [Cli.kicked, Function.update_idem]
      refine hKept.set (fun _ => .waited (Function.update_self ..) rfl) ?_
      intro q hNe hPlaced
      refine (hPlaced.update fun cc' hcc' hMem => ?_).suspend hRun
      exact takes_mem hTake hNe hcc hcc' hMem
    | stream =>
      exact hKept.set (fun _ => .waited (Function.update_self ..) rfl) fun q _ hPlaced =>
        hPlaced.suspend hRun
  | @resume r occupied f addr sc hOccupied hId hSettles =>
    refine hKept.set (fun hOwner => ?_) fun q hNe => Placed.settled hv hSettles.frame hNe
    refine hv.placed_resumed hSettles fun hOp => reply_ok fun hErr => ?_
    refine hReturns f (leaks_drain hv hOccupied hSettles.frame hId hOp hErr) ?_
    exact (hv.open_owner hSettles.frame (by rw [hOp]; rfl) hSettles.sctx).symm.trans hOwner
  | @timeout f addr sc hSettles =>
    refine hKept.set (fun hOwner => ?_) fun q hNe => Placed.settled hv hSettles.frame hNe
    refine hv.placed_resumed hSettles fun hOp => absurd ?_ (hReturns f ?_)
    · exact (hv.open_owner hSettles.frame (by rw [hOp]; rfl) hSettles.sctx).symm.trans hOwner
    · simp [leaks, hSettles.frame, hOp]
  | @abort f addr sc hSettles =>
    refine hKept.set (fun hOwner => ?_) fun q hNe hPlaced => ?_
    · cases hOn : f.op.onStream with
      | true =>
        obtain ⟨hd, hHd, hEq⟩ := hv.cli.refs.frame_stream f.co f hSettles.frame hOn
        exact .handle hHd hEq
      | false =>
        refine absurd ?_ (hReturns f ?_)
        · exact (hv.open_owner hSettles.frame hOn hSettles.sctx).symm.trans hOwner
        · simp [leaks, hSettles.frame, hOn]
    · exact hPlaced.wake hSettles.frame hNe
  | @streamClose h hd hHd =>
    intro p sc hsc hOwner
    refine (hKept p sc hsc hOwner).mono (fun _ cc hcc hMem => ⟨cc, hcc, hMem⟩)
      (fun _ _ hf _ => hf) ?_
    rintro k hd' hHd' rfl
    by_cases hEq : k = h
    · subst hEq
      rw [hHd] at hHd'
      cases hHd'
      exact ⟨_, Function.update_self .., rfl⟩
    · exact ⟨hd', update_of_some hHd' hEq, rfl⟩
  | @streamGc h hd c cc sc hHd hcc hMem hsc hUse hKeep =>
    simp only [Cli.released, Cli.setCtx, Cli.setSctx]
    refine hKept.set (fun _ => .free (Function.update_self ..) List.mem_cons_self) ?_
    intro q hNe hPlaced
    refine (hPlaced.drop hHd hNe).update fun cc' hcc' hFree => ?_
    rw [hcc] at hcc'
    cases hcc'
    exact List.mem_cons_of_mem _ hFree
  | streamGcFree hHd hcc hMem hsc hUse hDelayed hLast =>
    intro p sc' hsc' hOwner
    simp only [ite_eq_iff, reduceCtorEq, and_false, false_or, List.mem_cons, not_or] at hsc'
    obtain ⟨⟨hNe, hNot⟩, hsc'⟩ := hsc'
    exact ((hKept p sc' hsc' hOwner).drop hHd hNe).freed hcc hNot
  | _ => exact hKept

theorem Run.kept {g : Nat} (h : Run (returnsSctx g) s) :
    Kept g s.cli.ctxs s.cli.sctxs s.cli.frames s.cli.streams := by
  refine h.induct (P := fun s => Kept g s.cli.ctxs s.cli.sctxs s.cli.frames s.cli.streams)
    (by simp [Kept, init, Cli.init]) ?_
  intro s a t _ hv hKept hReturns _ hChange
  exact hChange.kept hv hKept hReturns

/-! ## Nothing is leaked -/

/-- No coroutine waits on the connection or on a stream of it, and all its
stream handles are finalised. -/
structure Quiescent (s : State) (g : Nat) : Prop where
  frames : ∀ co f sc, s.cli.frames co = some f → s.cli.sctxs f.sctx = some sc → sc.owner ≠ g
  handles : ∀ h hd sc, s.cli.streams h = some hd → s.cli.sctxs hd.ctx = some sc → sc.owner ≠ g

/-- Every sctx of the connection is on its free list, and the finaliser of the
connection handle frees all. -/
structure NoLeak (s : State) (g : Nat) : Prop where
  free : ∀ p sc, s.cli.sctxs p = some sc → sc.owner = g →
    ∃ c cc, s.cli.ctxs c = some cc ∧ cc.owner = g ∧ p ∈ cc.free
  opening : ∀ c cc, s.cli.ctxs c = some cc → cc.owner = g → cc.opening = []
  finalise : ∀ hd, s.cli.conns g = some hd → ∃ t, s.step (.connGc g) = .ok t ∧
    t.cli.ctxs hd.ctx = none ∧
    ∀ p sc, s.cli.sctxs p = some sc → sc.owner = g → t.cli.sctxs p = none

theorem Valid.luaConnGc_eq (hv : s.Valid) {g : Nat} {hd : Handle} {cc : Ctx}
    (hHd : s.cli.conns g = some hd) (hcc : s.cli.ctxs hd.ctx = some cc)
    (hUse : ∀ co f, s.cli.frames co = some f → f.op.onStream = false → f.handle ≠ g)
    (hOpening : cc.opening = []) :
    s.luaConnGc g = .ok { s with
      eng := s.eng.closedRef cc.engineCtx
      cli := { s.cli with
        sctxs := fun p => if p ∈ cc.free then none else s.cli.sctxs p
        ctxs := Function.update s.cli.ctxs hd.ctx none
        conns := Function.update s.cli.conns g none } } := by
  have hGuard : ¬ ∃ f ∈ s.cli.suspended, f.op.onStream = false ∧ f.handle = g := by
    rintro ⟨f, hf, hOp, hEq⟩
    exact hUse f.co f (hv.mem_suspended.mp hf) hOp hEq
  have hHandle : handle s.cli.conns g = .ok hd := by rw [handle, hHd]
  have hInv := (hv.cli.dropConn hUse).setEngineCtx hcc none
  obtain ⟨cli, hFree⟩ := hInv.freeConn_total (Function.update_self ..)
  have hClose := closeEngineCtx_eq (c := hd.ctx) (s := { s with
    cli := { s.cli with conns := Function.update s.cli.conns g none } }) hcc
  rw [luaConnGc, hHandle, ok_bind, if_neg hGuard, close, hClose, ok_bind, if_pos rfl]
  simp only [Cli.setCtx] at hFree ⊢
  rw [deref_eq (Function.update_self ..), ok_bind, if_pos hOpening, hFree, ok_bind,
    Cli.freeConn_ok (Function.update_self ..) hFree]
  simp only [Function.update_idem]

/-- In a quiescent state only the free lists are left to hold an sctx. -/
theorem Run.all_free {g : Nat} (h : Run (returnsSctx g) s) (hq : s.Quiescent g) {p : Ptr}
    {sc : StreamCtx} (hsc : s.cli.sctxs p = some sc) (hOwner : sc.owner = g) :
    ∃ c cc, s.cli.ctxs c = some cc ∧ cc.owner = g ∧ p ∈ cc.free := by
  cases h.kept p sc hsc hOwner with
  | @free c cc hcc hMem =>
    obtain ⟨sc', hsc', _, hSame, _⟩ := h.valid.cli.lists.free_sctx c cc p hcc hMem
    rw [hsc] at hsc'
    cases hsc'
    exact ⟨c, cc, hcc, hSame.symm.trans hOwner, hMem⟩
  | waited hf hEq => exact absurd hOwner (hq.frames _ _ sc hf (by rw [hEq, hsc]))
  | handle hHd hEq => exact absurd hOwner (hq.handles _ _ sc hHd (by rw [hEq, hsc]))

theorem Run.mem_free {g : Nat} (h : Run (returnsSctx g) s) (hq : s.Quiescent g) {p c : Ptr}
    {sc : StreamCtx} {cc : Ctx} (hsc : s.cli.sctxs p = some sc) (hOwner : sc.owner = g)
    (hcc : s.cli.ctxs c = some cc) (hMine : cc.owner = g) : p ∈ cc.free := by
  obtain ⟨c', cc', hcc', hOwner', hMem⟩ := h.all_free hq hsc hOwner
  obtain rfl := h.owned.inj c' cc' c cc hcc' hcc (hOwner'.trans hMine.symm)
  rw [hcc] at hcc'
  cases hcc'
  exact hMem

theorem Run.opening_nil {g : Nat} (h : Run (returnsSctx g) s) (hq : s.Quiescent g) {c : Ptr}
    {cc : Ctx} (hcc : s.cli.ctxs c = some cc) (hMine : cc.owner = g) : cc.opening = [] := by
  have hLists := h.valid.cli.lists
  refine List.eq_nil_iff_forall_not_mem.mpr fun p hMem => ?_
  obtain ⟨sc, hsc, _, hSame, _⟩ := hLists.opening_sctx c cc p hcc hMem
  have hFree := h.mem_free hq hsc (hSame.trans hMine) hcc hMine
  exact (List.nodup_append.mp (hLists.nodup c cc hcc)).2.2 p hFree p hMem rfl

theorem Quiescent.conn_unused {g : Nat} (hq : s.Quiescent g) (hv : s.Valid) {co : Nat} {f : Frame}
    (hf : s.cli.frames co = some f) (hOp : f.op.onStream = false) : f.handle ≠ g := by
  intro hEq
  obtain ⟨sc, _, hsc, _⟩ := hv.cli.suspended.frame_sctx co f hf
  exact hq.frames co f sc hf hsc ((hv.open_owner hf hOp hsc).trans hEq)

theorem no_leak {g : Nat} (h : Run (returnsSctx g) s) (hq : s.Quiescent g) : s.NoLeak g := by
  have hv := h.valid
  constructor
  · intro p sc hsc hOwner
    exact h.all_free hq hsc hOwner
  · intro c cc hcc hMine
    exact h.opening_nil hq hcc hMine
  · intro hd hHd
    obtain ⟨cc, hcc, hMine, _⟩ := hv.cli.handles.conn_ctx g hd hHd
    have hGc := hv.luaConnGc_eq hHd hcc (fun _ _ => hq.conn_unused hv) (h.opening_nil hq hcc hMine)
    refine ⟨_, hGc, Function.update_self .., ?_⟩
    intro p sc hsc hOwner
    exact if_pos (h.mem_free hq hsc hOwner hcc hMine)

theorem Valid.quiescent (hv : s.Valid) (hFrames : s.cli.suspended = [])
    (hHandles : ∀ k < s.cli.nextKick, s.cli.streams k = none) (g : Nat) : s.Quiescent g := by
  constructor
  · intro co f sc hf
    obtain ⟨rfl, _⟩ := hv.cli.suspended.frame_kick co f hf
    have hMem := hv.mem_suspended.mpr hf
    rw [hFrames] at hMem
    cases hMem
  · intro k hd sc hHd
    rw [hHandles k (hv.cli.refs.stream_kick k hd hHd).1] at hHd
    cases hHd

def finalisedStream : List Action := [
  .connect (some 1) (.ok []) 50,
  .newStream 0 1 7 true .bidirectionalStream ⟨true, none, true, some 100, some 10⟩,
  .goReturn 0 (.ok []),
  .goReport 0,
  .waitReturn,
  .threadTest,
  .threadEvent [] true,
  .postEvent,
  .drain,
  .streamGc 0]

theorem no_leak_finalisedStream : ∃ s : State, s.cli.sctxs 10 ≠ none ∧ s.Quiescent 0 ∧
    s.NoLeak 0 := by
  have hRun := run_after (returnsSctx 0) finalisedStream (by decide +kernel)
  have hQuiet := hRun.valid.quiescent (by decide +kernel) (by decide +kernel) 0
  exact ⟨_, by decide +kernel, hQuiet, no_leak hRun hQuiet⟩

theorem NoLeak.gc_frees {g : Nat} (h : s.NoLeak g) (hHd : (s.cli.conns g).isSome) {p : Ptr}
    (hOwner : (s.cli.sctxs p).map StreamCtx.owner = some g) :
    ((s.step (.connGc g)).toOption.bind fun t => t.cli.sctxs p) = none := by
  obtain ⟨hd, hHd⟩ := Option.isSome_iff_exists.mp hHd
  obtain ⟨sc, hsc, hOwner⟩ := Option.map_eq_some_iff.mp hOwner
  obtain ⟨t, hStep, _, hFreed⟩ := h.finalise hd hHd
  rw [hStep]
  exact hFreed p sc hsc hOwner

def abortedCall : List Action := [
  .connect (some 1) (.ok []) 50,
  .call 0 1 7 true ⟨true, none, true, some 100, some 10⟩,
  .abort 1]

/-- The sctx of the call survives even the finaliser of its connection. -/
theorem aborted_sctx_leaks : ∃ g s, Reachable s ∧ s.Quiescent g ∧ ¬ s.NoLeak g := by
  have hRun := run_after (fun _ _ => True) abortedCall (by decide +kernel)
  have hQuiet := hRun.valid.quiescent (by decide +kernel) (by decide +kernel) 0
  refine ⟨0, _, hRun, hQuiet, fun hLeak => ?_⟩
  have hFreed := hLeak.gc_frees (p := 10) (by decide +kernel) (by decide +kernel)
  revert hFreed
  decide +kernel

end State

end GrpcClient
