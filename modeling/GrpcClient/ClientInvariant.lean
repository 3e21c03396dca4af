import Mathlib.Data.List.Nodup
import GrpcClient.Lib.Update
import GrpcClient.Client

/-! # The invariant of the nginx side

The invariant is split by the data each part constrains: the task registry,
the free and opening lists, the suspended coroutines, the Lua handles, and
what a suspended frame refers to. Every part takes the maps it reads, so an
operation that leaves them alone keeps it without a proof.
-/

namespace GrpcClient.Cli

open PartialMap

/-- The tree, its counter and the `node` fields describe the same set. -/
structure Registry (tasks : List Node) (num : Int) (sctxs : Ptr → Option StreamCtx) : Prop where
  num_eq : num = tasks.length
  keys_nodup : (tasks.map Node.key).Nodup
  addrs_nodup : (tasks.map Node.addr).Nodup
  node_sctx : ∀ n ∈ tasks, ∃ sc, sctxs n.key = some sc ∧ sc.node = some n.addr
  sctx_node : ∀ p sc a, sctxs p = some sc → sc.node = some a → ⟨a, p⟩ ∈ tasks

structure Lists (ctxs : Ptr → Option Ctx) (sctxs : Ptr → Option StreamCtx) : Prop where
  nodup : ∀ c cc, ctxs c = some cc → (cc.free ++ cc.opening).Nodup
  free_sctx : ∀ c cc p, ctxs c = some cc → p ∈ cc.free →
    ∃ sc, sctxs p = some sc ∧ sc.parent = some c ∧ sc.owner = cc.owner ∧ sc.node = none
  opening_sctx : ∀ c cc p, ctxs c = some cc → p ∈ cc.opening →
    ∃ sc, sctxs p = some sc ∧ sc.parent = some c ∧ sc.owner = cc.owner ∧ sc.type ≠ .unary

/-- A suspended coroutine is registered, armed and hooked, and only such a one. -/
structure Suspended (frames kicks : Nat → Option Frame) (nextKick : Nat)
    (sctxs : Ptr → Option StreamCtx) (coctxs : Nat → CoCtx) : Prop where
  frame_kick : ∀ co f, frames co = some f → f.co = co ∧ f.kick < nextKick ∧ kicks f.kick = some f
  frame_sctx : ∀ co f, frames co = some f → ∃ sc a, sctxs f.sctx = some sc ∧ sc.node = some a ∧
    sc.waitCoCtx = some co ∧ sc.state = .ok ∧
    coctxs co = ⟨some f.sctx, true, some f.sctx, some (.of sc.isHttp)⟩
  node_frame : ∀ p sc a, sctxs p = some sc → sc.node = some a →
    ∃ co f, frames co = some f ∧ f.sctx = p
  idle : ∀ co, frames co = none → (coctxs co).timerSet = false ∧ (coctxs co).cleanup = none

structure Handles (conns streams : Nat → Option Handle) (ctxs : Ptr → Option Ctx)
    (sctxs : Ptr → Option StreamCtx) : Prop where
  conn_ctx : ∀ g hd, conns g = some hd → ∃ cc, ctxs hd.ctx = some cc ∧ cc.owner = g ∧
    cc.freeDelayed = false
  stream_sctx : ∀ h hd, streams h = some hd → ∃ sc c cc, sctxs hd.ctx = some sc ∧
    sc.parent = some c ∧ ctxs c = some cc ∧ hd.ctx ∈ cc.opening
  stream_inj : ∀ h h' hd hd', streams h = some hd → streams h' = some hd' → hd.ctx = hd'.ctx →
    h = h'

structure Refs (frames : Nat → Option Frame) (nextKick : Nat) (conns streams : Nat → Option Handle)
    (ctxs : Ptr → Option Ctx) (sctxs : Ptr → Option StreamCtx) : Prop where
  frame_open : ∀ co f, frames co = some f → f.op.onStream = false → ∃ hd cc sc,
    conns f.handle = some hd ∧ ctxs hd.ctx = some cc ∧ sctxs f.sctx = some sc ∧
    sc.parent = some hd.ctx ∧ sc.owner = cc.owner ∧ (sc.type = .unary ↔ f.op = .call) ∧
    (f.op = .newStream → f.sctx ∈ cc.opening)
  frame_stream : ∀ co f, frames co = some f → f.op.onStream = true →
    ∃ hd, streams f.handle = some hd ∧ hd.ctx = f.sctx
  open_fresh : ∀ co f h hd, frames co = some f → f.op.onStream = false → streams h = some hd →
    hd.ctx ≠ f.sctx
  stream_kick : ∀ k hd, streams k = some hd → k < nextKick ∧ ∀ co f, frames co = some f → f.kick ≠ k

structure Inv (s : Cli) : Prop where
  registry : Registry s.ongoingTasks s.ongoingTasksNum s.sctxs
  lists : Lists s.ctxs s.sctxs
  suspended : Suspended s.frames s.kicks s.nextKick s.sctxs s.coctxs
  handles : Handles s.conns s.streams s.ctxs s.sctxs
  refs : Refs s.frames s.nextKick s.conns s.streams s.ctxs s.sctxs

theorem inv_init : Inv init where
  registry := ⟨rfl, List.nodup_nil, List.nodup_nil, by simp [init], by simp [init]⟩
  lists := ⟨by simp [init], by simp [init], by simp [init]⟩
  suspended := ⟨by simp [init], by simp [init], by simp [init], by simp [init]⟩
  handles := ⟨by simp [init], by simp [init], by simp [init]⟩
  refs := ⟨by simp [init], by simp [init], by simp [init], by simp [init]⟩

variable {s : Cli}

/-! ## What the invariant says about one sctx -/

theorem Inv.waiter_unique (h : s.Inv) {co co' : Nat} {f f' : Frame} (hf : s.frames co = some f)
    (hf' : s.frames co' = some f') (hEq : f.sctx = f'.sctx) : co = co' ∧ f = f' := by
  obtain ⟨sc, _, hsc, _, hCo, _⟩ := h.suspended.frame_sctx co f hf
  obtain ⟨sc', _, hsc', _, hCo', _⟩ := h.suspended.frame_sctx co' f' hf'
  rw [hEq, hsc'] at hsc
  obtain rfl : sc' = sc := Option.some.inj hsc
  obtain rfl : co = co' := Option.some.inj (hCo.symm.trans hCo')
  exact ⟨rfl, Option.some.inj (hf.symm.trans hf')⟩

/-- The lookup of `ngx_grpc_cli_thread_post_event_handler` finds exactly the
sctx that a coroutine waits on. -/
theorem Inv.lookupTask_isSome (h : s.Inv) (p : Ptr) :
    (s.lookupTask p).isSome ↔ ∃ co f, s.frames co = some f ∧ f.sctx = p := by
  simp only [lookupTask, List.find?_isSome, decide_eq_true_eq]
  constructor
  · rintro ⟨n, hn, rfl⟩
    obtain ⟨sc, hsc, hNode⟩ := h.registry.node_sctx n hn
    exact h.suspended.node_frame n.key sc n.addr hsc hNode
  · rintro ⟨co, f, hf, rfl⟩
    obtain ⟨sc, a, hsc, hNode, _⟩ := h.suspended.frame_sctx co f hf
    exact ⟨⟨a, f.sctx⟩, h.registry.sctx_node f.sctx sc a hsc hNode, rfl⟩

theorem Inv.not_mem_free (h : s.Inv) {co : Nat} {f : Frame} (hf : s.frames co = some f) {c : Ptr}
    {cc : Ctx} (hc : s.ctxs c = some cc) : f.sctx ∉ cc.free := by
  intro hMem
  obtain ⟨sc, a, hsc, hNode, _⟩ := h.suspended.frame_sctx co f hf
  obtain ⟨sc', hsc', _, _, hNone⟩ := h.lists.free_sctx c cc f.sctx hc hMem
  rw [hsc] at hsc'
  cases hsc'
  rw [hNode] at hNone
  cases hNone

/-- Nothing but its own allocation knows of the sctx. -/
structure Detached (s : Cli) (p : Ptr) : Prop where
  node : ∀ sc, s.sctxs p = some sc → sc.node = none
  lists : ∀ c cc, s.ctxs c = some cc → p ∉ cc.free ∧ p ∉ cc.opening
  handle : ∀ h hd, s.streams h = some hd → hd.ctx ≠ p

theorem Detached.frame {p : Ptr} (hp : s.Detached p) (h : s.Inv) {co : Nat} {f : Frame}
    (hf : s.frames co = some f) : f.sctx ≠ p := by
  rintro rfl
  obtain ⟨sc, a, hsc, hNode, _⟩ := h.suspended.frame_sctx co f hf
  rw [hp.node sc hsc] at hNode
  cases hNode

theorem Inv.detached_of_none (h : s.Inv) {p : Ptr} (hp : s.sctxs p = none) : s.Detached p where
  node sc hsc := by simp [hp] at hsc
  lists c cc hc := by
    constructor
    · intro hMem
      obtain ⟨sc, hsc, _⟩ := h.lists.free_sctx c cc p hc hMem
      simp [hp] at hsc
    · intro hMem
      obtain ⟨sc, hsc, _⟩ := h.lists.opening_sctx c cc p hc hMem
      simp [hp] at hsc
  handle h' hd hh := by
    rintro rfl
    obtain ⟨sc, _, _, hsc, _⟩ := h.handles.stream_sctx h' hd hh
    simp [hp] at hsc

/-! ## Contexts -/

/-- A context may change its lists and flags as long as they describe its own
sctx and drop no sctx that a frame or a handle still needs. -/
theorem Inv.setCtx (h : s.Inv) {c : Ptr} {cc : Ctx} (hc : s.ctxs c = some cc) (cc' : Ctx)
    (hOwner : cc'.owner = cc.owner) (hNodup : (cc'.free ++ cc'.opening).Nodup)
    (hFree : ∀ p ∈ cc'.free, ∃ sc, s.sctxs p = some sc ∧ sc.parent = some c ∧
      sc.owner = cc.owner ∧ sc.node = none)
    (hOpening : ∀ p ∈ cc'.opening, ∃ sc, s.sctxs p = some sc ∧ sc.parent = some c ∧
      sc.owner = cc.owner ∧ sc.type ≠ .unary)
    (hKeep : ∀ p ∈ cc.opening, p ∈ cc'.opening ∨
      ((∀ co f, s.frames co = some f → f.sctx ≠ p) ∧ ∀ h hd, s.streams h = some hd → hd.ctx ≠ p))
    (hDelay : cc'.freeDelayed = false ∨ ∀ g hd, s.conns g = some hd → hd.ctx ≠ c) :
    (s.setCtx c cc').Inv where
  registry := h.registry
  suspended := h.suspended
  lists := by
    simp only [Cli.setCtx]
    constructor
    · grind [Function.update_apply, h.lists.nodup]
    · grind [Function.update_apply, h.lists.free_sctx]
    · grind [Function.update_apply, h.lists.opening_sctx]
  handles := by
    simp only [Cli.setCtx]
    constructor
    · grind [Function.update_apply, h.handles.conn_ctx]
    · grind [Function.update_apply, h.handles.stream_sctx]
    · exact h.handles.stream_inj
  refs := by
    simp only [Cli.setCtx]
    constructor
    · grind [Function.update_apply, h.refs.frame_open]
    · exact h.refs.frame_stream
    · exact h.refs.open_fresh
    · exact h.refs.stream_kick

theorem Inv.delayed_or_dead (h : s.Inv) {c : Ptr} {cc : Ctx} (hc : s.ctxs c = some cc) :
    cc.freeDelayed = false ∨ ∀ g hd, s.conns g = some hd → hd.ctx ≠ c := by
  by_cases hLive : ∃ g hd, s.conns g = some hd ∧ hd.ctx = c
  · obtain ⟨g, hd, hg, rfl⟩ := hLive
    obtain ⟨cc', hc', _, hDelay⟩ := h.handles.conn_ctx g hd hg
    rw [hc] at hc'
    cases hc'
    exact .inl hDelay
  · exact .inr fun g hd hg hEq => hLive ⟨g, hd, hg, hEq⟩

theorem Inv.setEngineCtx (h : s.Inv) {c : Ptr} {cc : Ctx} (hc : s.ctxs c = some cc)
    (x : Option Ptr) : (s.setCtx c { cc with engineCtx := x }).Inv := by
  have hDelay := h.delayed_or_dead hc
  exact h.setCtx hc _ rfl (h.lists.nodup c cc hc) (fun p => h.lists.free_sctx c cc p hc)
    (fun p => h.lists.opening_sctx c cc p hc) (fun _ hp => .inl hp) hDelay

theorem Inv.delayFree (h : s.Inv) {c : Ptr} {cc : Ctx} (hc : s.ctxs c = some cc)
    (hDead : ∀ g hd, s.conns g = some hd → hd.ctx ≠ c) :
    (s.setCtx c { cc with freeDelayed := true }).Inv :=
  h.setCtx hc _ rfl (h.lists.nodup c cc hc) (fun p => h.lists.free_sctx c cc p hc)
    (fun p => h.lists.opening_sctx c cc p hc) (fun _ hp => .inl hp) (.inr hDead)

theorem Inv.pushFree (h : s.Inv) {c p : Ptr} {cc : Ctx} {sc : StreamCtx}
    (hc : s.ctxs c = some cc) (hp : s.sctxs p = some sc) (hParent : sc.parent = some c)
    (hOwner : sc.owner = cc.owner) (hNode : sc.node = none) (hFree : p ∉ cc.free)
    (hOpening : p ∉ cc.opening) : (s.setCtx c { cc with free := p :: cc.free }).Inv := by
  have hDelay := h.delayed_or_dead hc
  refine h.setCtx hc _ rfl ?_ ?_ (fun q => h.lists.opening_sctx c cc q hc)
    (fun q hq => .inl hq) hDelay
  · simpa [hFree, hOpening] using h.lists.nodup c cc hc
  · intro q hq
    rcases List.mem_cons.mp hq with rfl | hq
    · exact ⟨sc, hp, hParent, hOwner, hNode⟩
    · exact h.lists.free_sctx c cc q hc hq

theorem Inv.pushOpening (h : s.Inv) {c p : Ptr} {cc : Ctx} {sc : StreamCtx}
    (hc : s.ctxs c = some cc) (hp : s.sctxs p = some sc) (hParent : sc.parent = some c)
    (hOwner : sc.owner = cc.owner) (hType : sc.type ≠ .unary) (hFree : p ∉ cc.free)
    (hOpening : p ∉ cc.opening) : (s.setCtx c { cc with opening := p :: cc.opening }).Inv := by
  have hDelay := h.delayed_or_dead hc
  refine h.setCtx hc _ rfl ?_ (fun q => h.lists.free_sctx c cc q hc) ?_
    (fun q hq => .inl (List.mem_cons_of_mem _ hq)) hDelay
  · refine List.perm_middle.nodup_iff.mpr (List.nodup_cons.mpr ⟨?_, h.lists.nodup c cc hc⟩)
    simp [hFree, hOpening]
  · intro q hq
    rcases List.mem_cons.mp hq with rfl | hq
    · exact ⟨sc, hp, hParent, hOwner, hType⟩
    · exact h.lists.opening_sctx c cc q hc hq

theorem Inv.connect (h : s.Inv) {c : Ptr} (hc : s.ctxs c = none) {g : Nat}
    (hg : s.conns g = none) (ref : Option Ptr) :
    Inv { s.setCtx c ⟨ref, [], [], false, g⟩ with
      conns := Function.update s.conns g (some ⟨c, false⟩) } where
  registry := h.registry
  suspended := h.suspended
  lists := by
    simp only [Cli.setCtx]
    constructor
    · grind [Function.update_apply, h.lists.nodup]
    · grind [Function.update_apply, h.lists.free_sctx]
    · grind [Function.update_apply, h.lists.opening_sctx]
  handles := by
    simp only [Cli.setCtx]
    constructor
    · intro g' hd hg'
      rw [Function.update_apply] at hg'
      split at hg'
      · rename_i hEq
        obtain rfl := Option.some.inj hg'
        exact ⟨_, Function.update_self .., hEq.symm, rfl⟩
      · obtain ⟨cc, hcc, hRest⟩ := h.handles.conn_ctx g' hd hg'
        have hNe : hd.ctx ≠ c := by
          rintro rfl
          rw [hc] at hcc
          cases hcc
        exact ⟨cc, by rw [Function.update_of_ne hNe, hcc], hRest⟩
    · grind [Function.update_apply, h.handles.stream_sctx]
    · exact h.handles.stream_inj
  refs := by
    simp only [Cli.setCtx]
    constructor
    · grind [Function.update_apply, h.refs.frame_open]
    · exact h.refs.frame_stream
    · exact h.refs.open_fresh
    · exact h.refs.stream_kick

theorem Inv.freeConn (h : s.Inv) {c : Ptr} {cc : Ctx} (hc : s.ctxs c = some cc)
    (hOpening : cc.opening = []) (hDead : ∀ g hd, s.conns g = some hd → hd.ctx ≠ c) :
    Inv { s with
      sctxs := fun p => if p ∈ cc.free then none else s.sctxs p
      ctxs := Function.update s.ctxs c none } where
  registry := by
    constructor
    · exact h.registry.num_eq
    · exact h.registry.keys_nodup
    · exact h.registry.addrs_nodup
    · grind [Function.update_apply, h.registry.node_sctx, h.lists.free_sctx]
    · grind [Function.update_apply, h.registry.sctx_node]
  lists := by
    constructor
    · grind [Function.update_apply, h.lists.nodup]
    · grind [Function.update_apply, h.lists.free_sctx]
    · grind [Function.update_apply, h.lists.opening_sctx, h.lists.free_sctx]
  suspended := by
    constructor
    · exact h.suspended.frame_kick
    · grind [Function.update_apply, h.suspended.frame_sctx, h.lists.free_sctx]
    · grind [Function.update_apply, h.suspended.node_frame]
    · exact h.suspended.idle
  handles := by
    constructor
    · grind [Function.update_apply, h.handles.conn_ctx]
    · grind [Function.update_apply, h.handles.stream_sctx, h.lists.free_sctx]
    · exact h.handles.stream_inj
  refs := by
    constructor
    · grind [Function.update_apply, h.refs.frame_open, h.suspended.frame_sctx, h.lists.free_sctx]
    · exact h.refs.frame_stream
    · exact h.refs.open_fresh
    · exact h.refs.stream_kick

/-! ## Lua handles -/

theorem Inv.closeConn (h : s.Inv) {g : Nat} {hd : Handle} (hg : s.conns g = some hd) :
    Inv { s with conns := Function.update s.conns g (some { hd with closed := true }) } where
  registry := h.registry
  lists := h.lists
  suspended := h.suspended
  handles := by
    constructor
    · grind [Function.update_apply, h.handles.conn_ctx]
    · exact h.handles.stream_sctx
    · exact h.handles.stream_inj
  refs := by
    constructor
    · grind [Function.update_apply, h.refs.frame_open]
    · exact h.refs.frame_stream
    · exact h.refs.open_fresh
    · exact h.refs.stream_kick

theorem Inv.dropConn (h : s.Inv) {g : Nat}
    (hUse : ∀ co f, s.frames co = some f → f.op.onStream = false → f.handle ≠ g) :
    Inv { s with conns := Function.update s.conns g none } where
  registry := h.registry
  lists := h.lists
  suspended := h.suspended
  handles := by
    constructor
    · grind [Function.update_apply, h.handles.conn_ctx]
    · exact h.handles.stream_sctx
    · exact h.handles.stream_inj
  refs := by
    constructor
    · grind [Function.update_apply, h.refs.frame_open]
    · exact h.refs.frame_stream
    · exact h.refs.open_fresh
    · exact h.refs.stream_kick

theorem Inv.closeHandle (h : s.Inv) {k : Nat} {hd : Handle} (hk : s.streams k = some hd) :
    Inv { s with streams := Function.update s.streams k (some { hd with closed := true }) } where
  registry := h.registry
  lists := h.lists
  suspended := h.suspended
  handles := by
    constructor
    · exact h.handles.conn_ctx
    · grind [Function.update_apply, h.handles.stream_sctx]
    · grind [Function.update_apply, h.handles.stream_inj]
  refs := by
    constructor
    · exact h.refs.frame_open
    · grind [Function.update_apply, h.refs.frame_stream]
    · grind [Function.update_apply, h.refs.open_fresh]
    · intro k' hd' hk'
      rcases update_some_iff.mp hk' with ⟨rfl, _⟩ | ⟨_, hk'⟩
      · exact h.refs.stream_kick k' hd hk
      · exact h.refs.stream_kick k' hd' hk'

theorem Inv.dropHandle (h : s.Inv) {k : Nat}
    (hUse : ∀ co f, s.frames co = some f → f.op.onStream = true → f.handle ≠ k) :
    Inv { s with streams := Function.update s.streams k none } where
  registry := h.registry
  lists := h.lists
  suspended := h.suspended
  handles := by
    constructor
    · exact h.handles.conn_ctx
    · grind [Function.update_apply, h.handles.stream_sctx]
    · grind [Function.update_apply, h.handles.stream_inj]
  refs := by
    constructor
    · exact h.refs.frame_open
    · grind [Function.update_apply, h.refs.frame_stream]
    · grind [Function.update_apply, h.refs.open_fresh]
    · intro k' hd' hk'
      exact h.refs.stream_kick k' hd' (update_none_iff.mp hk').2

/-- A stream handle is made for an sctx on an opening list on which no
coroutine waits and that has no handle yet. -/
theorem Inv.makeHandle (h : s.Inv) {k : Nat} {p c : Ptr} {cc : Ctx} (hc : s.ctxs c = some cc)
    (hp : p ∈ cc.opening) (hFrame : ∀ co f, s.frames co = some f → f.sctx ≠ p)
    (hFresh : ∀ k hd, s.streams k = some hd → hd.ctx ≠ p) (hNew : s.streams k = none)
    (hLt : k < s.nextKick) (hKick : ∀ co f, s.frames co = some f → f.kick ≠ k) :
    Inv { s with streams := Function.update s.streams k (some ⟨p, false⟩) } where
  registry := h.registry
  lists := h.lists
  suspended := h.suspended
  handles := by
    constructor
    · exact h.handles.conn_ctx
    · grind [Function.update_apply, h.handles.stream_sctx, h.lists.opening_sctx]
    · grind [Function.update_apply, h.handles.stream_inj]
  refs := by
    constructor
    · exact h.refs.frame_open
    · grind [Function.update_apply, h.refs.frame_stream]
    · grind [Function.update_apply, h.refs.open_fresh]
    · intro k' hd' hk'
      rcases update_some_iff.mp hk' with ⟨rfl, _⟩ | ⟨_, hk'⟩
      · exact ⟨hLt, hKick⟩
      · exact h.refs.stream_kick k' hd' hk'

/-! ## Taking, kicking off and settling an sctx -/

theorem Inv.fill (h : s.Inv) {p : Ptr} (hp : s.Detached p) (sc : StreamCtx)
    (hNode : sc.node = none) : (s.setSctx p sc).Inv where
  registry := by
    simp only [Cli.setSctx]
    constructor
    · exact h.registry.num_eq
    · exact h.registry.keys_nodup
    · exact h.registry.addrs_nodup
    · grind [Function.update_apply, h.registry.node_sctx, hp.node]
    · grind [Function.update_apply, h.registry.sctx_node]
  lists := by
    simp only [Cli.setSctx]
    constructor
    · exact h.lists.nodup
    · intro c cc q hc hq
      have hNe : q ≠ p := by
        rintro rfl
        exact (hp.lists c cc hc).1 hq
      rw [Function.update_of_ne hNe]
      exact h.lists.free_sctx c cc q hc hq
    · intro c cc q hc hq
      have hNe : q ≠ p := by
        rintro rfl
        exact (hp.lists c cc hc).2 hq
      rw [Function.update_of_ne hNe]
      exact h.lists.opening_sctx c cc q hc hq
  suspended := by
    have hFrame : ∀ co f, s.frames co = some f → f.sctx ≠ p := fun _ _ hf => hp.frame h hf
    simp only [Cli.setSctx]
    constructor
    · exact h.suspended.frame_kick
    · grind [Function.update_apply, h.suspended.frame_sctx]
    · grind [Function.update_apply, h.suspended.node_frame]
    · exact h.suspended.idle
  handles := by
    simp only [Cli.setSctx]
    constructor
    · exact h.handles.conn_ctx
    · grind [Function.update_apply, h.handles.stream_sctx, hp.handle]
    · exact h.handles.stream_inj
  refs := by
    have hFrame : ∀ co f, s.frames co = some f → f.sctx ≠ p := fun _ _ hf => hp.frame h hf
    simp only [Cli.setSctx]
    constructor
    · grind [Function.update_apply, h.refs.frame_open]
    · exact h.refs.frame_stream
    · exact h.refs.open_fresh
    · exact h.refs.stream_kick

/-- The state after a kick-off of `f.sctx` by the coroutine of `f`. -/
def kicked (s : Cli) (f : Frame) (a : Ptr) (sc : StreamCtx) : Cli :=
  { s with
    ongoingTasks := ⟨a, f.sctx⟩ :: s.ongoingTasks
    ongoingTasksNum := s.ongoingTasksNum + 1
    sctxs := Function.update s.sctxs f.sctx
      (some { sc with node := some a, state := .ok, waitCoCtx := some f.co })
    coctxs := Function.update s.coctxs f.co ⟨some f.sctx, true, some f.sctx, some (.of sc.isHttp)⟩
    frames := Function.update s.frames f.co (some f)
    kicks := Function.update s.kicks f.kick (some f)
    nextKick := f.kick + 1 }

/-- What must hold before the kick-off that suspends a coroutine with `f`. -/
structure Ready (s : Cli) (f : Frame) (a : Ptr) (sc : StreamCtx) : Prop where
  kick : f.kick = s.nextKick
  sctx : s.sctxs f.sctx = some sc
  node : sc.node = none
  addr : a ∉ s.ongoingTasks.map Node.addr
  running : s.frames f.co = none
  not_free : ∀ c cc, s.ctxs c = some cc → f.sctx ∉ cc.free
  opens : f.op.onStream = false → ∃ hd cc, s.conns f.handle = some hd ∧ s.ctxs hd.ctx = some cc ∧
    sc.parent = some hd.ctx ∧ sc.owner = cc.owner ∧ (sc.type = .unary ↔ f.op = .call) ∧
    (f.op = .newStream → f.sctx ∈ cc.opening)
  fresh : f.op.onStream = false → ∀ h hd, s.streams h = some hd → hd.ctx ≠ f.sctx
  stream : f.op.onStream = true → ∃ hd, s.streams f.handle = some hd ∧ hd.ctx = f.sctx

theorem Ready.frame_ne {f : Frame} {a : Ptr} {sc : StreamCtx} (hr : s.Ready f a sc) (h : s.Inv)
    {co : Nat} {f' : Frame} (hf : s.frames co = some f') : co ≠ f.co ∧ f'.sctx ≠ f.sctx := by
  constructor
  · rintro rfl
    rw [hr.running] at hf
    cases hf
  · intro hEq
    obtain ⟨sc', a', hsc', hNode', _⟩ := h.suspended.frame_sctx co f' hf
    rw [hEq, hr.sctx] at hsc'
    cases hsc'
    rw [hr.node] at hNode'
    cases hNode'

theorem Inv.registry_kick (h : s.Inv) {f : Frame} {a : Ptr} {sc : StreamCtx} (hr : s.Ready f a sc) :
    Registry (s.kicked f a sc).ongoingTasks (s.kicked f a sc).ongoingTasksNum
      (s.kicked f a sc).sctxs := by
  have hKey : ∀ n ∈ s.ongoingTasks, n.key ≠ f.sctx := by
    intro n hn hEq
    obtain ⟨sc', hsc', hNode'⟩ := h.registry.node_sctx n hn
    rw [hEq, hr.sctx] at hsc'
    cases hsc'
    rw [hr.node] at hNode'
    cases hNode'
  simp only [kicked]
  constructor
  · simp [h.registry.num_eq]
  · refine List.nodup_cons.mpr ⟨fun hMem => ?_, h.registry.keys_nodup⟩
    obtain ⟨n, hn, hEq⟩ := List.mem_map.mp hMem
    exact hKey n hn hEq
  · exact List.nodup_cons.mpr ⟨hr.addr, h.registry.addrs_nodup⟩
  · intro n hn
    rcases List.mem_cons.mp hn with rfl | hn
    · exact ⟨_, Function.update_self .., rfl⟩
    · obtain ⟨sc', hsc', hNode'⟩ := h.registry.node_sctx n hn
      exact ⟨sc', update_of_some hsc' (hKey n hn), hNode'⟩
  · intro p sc' a' hsc' hNode'
    rcases update_some_iff.mp hsc' with ⟨rfl, rfl⟩ | ⟨_, hsc'⟩
    · cases hNode'
      exact List.mem_cons_self
    · exact List.mem_cons_of_mem _ (h.registry.sctx_node p sc' a' hsc' hNode')

theorem Inv.lists_kick (h : s.Inv) {f : Frame} {a : Ptr} {sc : StreamCtx} (hr : s.Ready f a sc) :
    Lists (s.kicked f a sc).ctxs (s.kicked f a sc).sctxs := by
  simp only [kicked]
  constructor
  · exact h.lists.nodup
  · intro c cc p hc hp
    obtain ⟨sc', hsc', hRest⟩ := h.lists.free_sctx c cc p hc hp
    have hNe : p ≠ f.sctx := by
      rintro rfl
      exact hr.not_free c cc hc hp
    exact ⟨sc', update_of_some hsc' hNe, hRest⟩
  · intro c cc p hc hp
    obtain ⟨sc', hsc', hRest⟩ := h.lists.opening_sctx c cc p hc hp
    by_cases hEq : p = f.sctx
    · subst hEq
      rw [hr.sctx] at hsc'
      cases hsc'
      exact ⟨_, Function.update_self .., hRest⟩
    · exact ⟨sc', update_of_some hsc' hEq, hRest⟩

theorem Inv.suspended_kick (h : s.Inv) {f : Frame} {a : Ptr} {sc : StreamCtx}
    (hr : s.Ready f a sc) :
    Suspended (s.kicked f a sc).frames (s.kicked f a sc).kicks (s.kicked f a sc).nextKick
      (s.kicked f a sc).sctxs (s.kicked f a sc).coctxs := by
  simp only [kicked]
  constructor
  · intro co f' hf'
    rcases update_some_iff.mp hf' with ⟨rfl, rfl⟩ | ⟨_, hf'⟩
    · exact ⟨rfl, Nat.lt_succ_self _, Function.update_self ..⟩
    · obtain ⟨hCo, hLt, hKick⟩ := h.suspended.frame_kick co f' hf'
      rw [← hr.kick] at hLt
      exact ⟨hCo, by omega, update_of_some hKick (by omega)⟩
  · intro co f' hf'
    rcases update_some_iff.mp hf' with ⟨rfl, rfl⟩ | ⟨hNe, hf'⟩
    · exact ⟨_, a, Function.update_self .., rfl, rfl, rfl, Function.update_self ..⟩
    · obtain ⟨sc', a', hsc', hNode', hWait, hState, hArmed⟩ := h.suspended.frame_sctx co f' hf'
      refine ⟨sc', a', update_of_some hsc' (hr.frame_ne h hf').2, hNode', hWait, hState, ?_⟩
      rw [Function.update_of_ne hNe, hArmed]
  · intro p sc' a' hsc' hNode'
    rcases update_some_iff.mp hsc' with ⟨rfl, rfl⟩ | ⟨_, hsc'⟩
    · exact ⟨f.co, f, Function.update_self .., rfl⟩
    · obtain ⟨co, f', hf', hEq⟩ := h.suspended.node_frame p sc' a' hsc' hNode'
      exact ⟨co, f', update_of_some hf' (hr.frame_ne h hf').1, hEq⟩
  · intro co hf'
    by_cases hEq : co = f.co
    · subst hEq
      simp at hf'
    · rw [Function.update_of_ne hEq] at hf' ⊢
      exact h.suspended.idle co hf'

theorem Inv.handles_kick (h : s.Inv) {f : Frame} {a : Ptr} {sc : StreamCtx} (hr : s.Ready f a sc) :
    Handles (s.kicked f a sc).conns (s.kicked f a sc).streams (s.kicked f a sc).ctxs
      (s.kicked f a sc).sctxs := by
  simp only [kicked]
  constructor
  · exact h.handles.conn_ctx
  · intro k hd hk
    obtain ⟨sc', c, cc, hsc', hRest⟩ := h.handles.stream_sctx k hd hk
    by_cases hEq : hd.ctx = f.sctx
    · rw [hEq, hr.sctx] at hsc'
      cases hsc'
      exact ⟨{ sc with node := some a, state := .ok, waitCoCtx := some f.co }, c, cc,
        by rw [hEq, Function.update_self], hRest⟩
    · exact ⟨sc', c, cc, update_of_some hsc' hEq, hRest⟩
  · exact h.handles.stream_inj

theorem Inv.refs_kick (h : s.Inv) {f : Frame} {a : Ptr} {sc : StreamCtx} (hr : s.Ready f a sc) :
    Refs (s.kicked f a sc).frames (s.kicked f a sc).nextKick (s.kicked f a sc).conns
      (s.kicked f a sc).streams (s.kicked f a sc).ctxs (s.kicked f a sc).sctxs := by
  simp only [kicked]
  constructor
  · intro co f' hf' hOp
    rcases update_some_iff.mp hf' with ⟨rfl, rfl⟩ | ⟨_, hf'⟩
    · obtain ⟨hd, cc, hHd, hCc, hRest⟩ := hr.opens hOp
      exact ⟨hd, cc, _, hHd, hCc, Function.update_self .., hRest⟩
    · obtain ⟨hd, cc, sc', hHd, hCc, hsc', hRest⟩ := h.refs.frame_open co f' hf' hOp
      exact ⟨hd, cc, sc', hHd, hCc, update_of_some hsc' (hr.frame_ne h hf').2, hRest⟩
  · intro co f' hf' hOp
    rcases update_some_iff.mp hf' with ⟨rfl, rfl⟩ | ⟨_, hf'⟩
    · exact hr.stream hOp
    · exact h.refs.frame_stream co f' hf' hOp
  · intro co f' k hd hf' hOp hk
    rcases update_some_iff.mp hf' with ⟨rfl, rfl⟩ | ⟨_, hf'⟩
    · exact hr.fresh hOp k hd hk
    · exact h.refs.open_fresh co f' k hd hf' hOp hk
  · intro k hd hk
    obtain ⟨hLt, hNe⟩ := h.refs.stream_kick k hd hk
    rw [← hr.kick] at hLt
    refine ⟨by omega, fun co f' hf' => ?_⟩
    rcases update_some_iff.mp hf' with ⟨rfl, rfl⟩ | ⟨_, hf'⟩
    · omega
    · exact hNe co f' hf'

theorem Inv.kick (h : s.Inv) {f : Frame} {a : Ptr} {sc : StreamCtx} (hr : s.Ready f a sc) :
    (s.kicked f a sc).Inv where
  registry := h.registry_kick hr
  lists := h.lists_kick hr
  suspended := h.suspended_kick hr
  handles := h.handles_kick hr
  refs := h.refs_kick hr

/-- The state after the wait of `f` ended with outcome `o`, before its sctx is
requeued and Lua goes on. -/
def settled (s : Cli) (f : Frame) (a : Ptr) (sc : StreamCtx) (o : Outcome) : Cli :=
  { s with
    ongoingTasks := s.ongoingTasks.filter fun n => decide (n.addr ≠ a)
    ongoingTasksNum := s.ongoingTasksNum - 1
    sctxs := Function.update s.sctxs f.sctx (some sc)
    coctxs := Function.update s.coctxs f.co
      { s.coctxs f.co with timerSet := false, cleanup := none }
    frames := Function.update s.frames f.co none
    outcomes := s.outcomes ++ [(f.kick, o)] }

/-- What the end of a wait may change in the sctx. -/
structure Settles (s : Cli) (f : Frame) (a : Ptr) (sc sc' : StreamCtx) : Prop where
  frame : s.frames f.co = some f
  sctx : s.sctxs f.sctx = some sc
  node : sc.node = some a
  node' : sc'.node = none
  parent : sc'.parent = sc.parent
  owner : sc'.owner = sc.owner
  type : sc'.type = sc.type

theorem Settles.frame_ne {f : Frame} {a : Ptr} {sc sc' : StreamCtx} (hs : s.Settles f a sc sc')
    (h : s.Inv) {co : Nat} {f' : Frame} (hf' : s.frames co = some f') (hNe : co ≠ f.co) :
    f'.sctx ≠ f.sctx :=
  fun hEq => hNe (h.waiter_unique hf' hs.frame hEq).1

theorem Settles.erase {f : Frame} {a : Ptr} {sc sc' : StreamCtx} (hs : s.Settles f a sc sc')
    (h : s.Inv) {n : Node} (hn : n ∈ s.ongoingTasks) : n.addr = a ↔ n.key = f.sctx := by
  have hMem := h.registry.sctx_node f.sctx sc a hs.sctx hs.node
  constructor
  · intro hEq
    have := List.inj_on_of_nodup_map h.registry.addrs_nodup hn hMem hEq
    rw [this]
  · intro hEq
    have := List.inj_on_of_nodup_map h.registry.keys_nodup hn hMem hEq
    rw [this]

theorem Inv.registry_settle (h : s.Inv) {f : Frame} {a : Ptr} {sc sc' : StreamCtx}
    (hs : s.Settles f a sc sc') (o : Outcome) :
    Registry (s.settled f a sc' o).ongoingTasks (s.settled f a sc' o).ongoingTasksNum
      (s.settled f a sc' o).sctxs := by
  have hMem := h.registry.sctx_node f.sctx sc a hs.sctx hs.node
  simp only [settled]
  constructor
  · have hErase : s.ongoingTasks.filter (fun n => decide (n.addr ≠ a)) =
        s.ongoingTasks.erase ⟨a, f.sctx⟩ := by
      rw [(h.registry.keys_nodup.of_map _).erase_eq_filter]
      refine List.filter_congr fun n hn => ?_
      have hEq : n.addr = a ↔ n = ⟨a, f.sctx⟩ := by
        refine ⟨fun hA => ?_, fun hEq => by rw [hEq]⟩
        rw [← hA, ← (hs.erase h hn).mp hA]
      by_cases hA : n.addr = a
      · simp [hEq.mp hA]
      · simp [hA, mt hEq.mpr hA]
    rw [hErase, List.length_erase_of_mem hMem, h.registry.num_eq]
    have := List.length_pos_of_mem hMem
    omega
  · exact h.registry.keys_nodup.sublist (List.filter_sublist.map _)
  · exact h.registry.addrs_nodup.sublist (List.filter_sublist.map _)
  · intro n hn
    obtain ⟨hn, hAddr⟩ := List.mem_filter.mp hn
    obtain ⟨sc'', hsc'', hNode''⟩ := h.registry.node_sctx n hn
    refine ⟨sc'', update_of_some hsc'' (fun hEq => ?_), hNode''⟩
    exact of_decide_eq_true hAddr ((hs.erase h hn).mpr hEq)
  · intro p sc'' a' hsc'' hNode''
    rcases update_some_iff.mp hsc'' with ⟨rfl, rfl⟩ | ⟨hNe, hsc''⟩
    · rw [hs.node'] at hNode''
      cases hNode''
    · have hn := h.registry.sctx_node p sc'' a' hsc'' hNode''
      refine List.mem_filter.mpr ⟨hn, decide_eq_true fun hEq => hNe ?_⟩
      exact (hs.erase h hn).mp hEq

theorem Inv.lists_settle (h : s.Inv) {f : Frame} {a : Ptr} {sc sc' : StreamCtx}
    (hs : s.Settles f a sc sc') (o : Outcome) :
    Lists (s.settled f a sc' o).ctxs (s.settled f a sc' o).sctxs := by
  simp only [settled]
  constructor
  · exact h.lists.nodup
  · intro c cc p hc hp
    obtain ⟨sc'', hsc'', hRest⟩ := h.lists.free_sctx c cc p hc hp
    have hNe : p ≠ f.sctx := by
      rintro rfl
      exact h.not_mem_free hs.frame hc hp
    exact ⟨sc'', update_of_some hsc'' hNe, hRest⟩
  · intro c cc p hc hp
    obtain ⟨sc'', hsc'', hRest⟩ := h.lists.opening_sctx c cc p hc hp
    by_cases hEq : p = f.sctx
    · subst hEq
      rw [hs.sctx] at hsc''
      cases hsc''
      exact ⟨sc', Function.update_self .., by rw [hs.parent, hs.owner, hs.type]; exact hRest⟩
    · exact ⟨sc'', update_of_some hsc'' hEq, hRest⟩

theorem Inv.suspended_settle (h : s.Inv) {f : Frame} {a : Ptr} {sc sc' : StreamCtx}
    (hs : s.Settles f a sc sc') (o : Outcome) :
    Suspended (s.settled f a sc' o).frames (s.settled f a sc' o).kicks
      (s.settled f a sc' o).nextKick (s.settled f a sc' o).sctxs (s.settled f a sc' o).coctxs := by
  simp only [settled]
  constructor
  · intro co f' hf'
    exact h.suspended.frame_kick co f' (update_none_iff.mp hf').2
  · intro co f' hf'
    obtain ⟨hNe, hf'⟩ := update_none_iff.mp hf'
    obtain ⟨sc'', a', hsc'', hNode, hWait, hState, hArmed⟩ := h.suspended.frame_sctx co f' hf'
    refine ⟨sc'', a', update_of_some hsc'' (hs.frame_ne h hf' hNe), hNode, hWait, hState, ?_⟩
    rw [Function.update_of_ne hNe, hArmed]
  · intro p sc'' a' hsc'' hNode''
    rcases update_some_iff.mp hsc'' with ⟨rfl, rfl⟩ | ⟨hNe, hsc''⟩
    · rw [hs.node'] at hNode''
      cases hNode''
    · obtain ⟨co, f', hf', rfl⟩ := h.suspended.node_frame p sc'' a' hsc'' hNode''
      refine ⟨co, f', update_none_iff.mpr ⟨fun hEq => hNe ?_, hf'⟩, rfl⟩
      rw [hEq, hs.frame] at hf'
      rw [Option.some.inj hf']
  · intro co hf'
    by_cases hEq : co = f.co
    · subst hEq
      rw [Function.update_self]
      exact ⟨rfl, rfl⟩
    · rw [Function.update_of_ne hEq] at hf' ⊢
      exact h.suspended.idle co hf'

theorem Inv.handles_settle (h : s.Inv) {f : Frame} {a : Ptr} {sc sc' : StreamCtx}
    (hs : s.Settles f a sc sc') (o : Outcome) :
    Handles (s.settled f a sc' o).conns (s.settled f a sc' o).streams (s.settled f a sc' o).ctxs
      (s.settled f a sc' o).sctxs := by
  simp only [settled]
  constructor
  · exact h.handles.conn_ctx
  · intro k hd hk
    obtain ⟨sc'', c, cc, hsc'', hParent, hRest⟩ := h.handles.stream_sctx k hd hk
    by_cases hEq : hd.ctx = f.sctx
    · rw [hEq, hs.sctx] at hsc''
      cases hsc''
      refine ⟨sc', c, cc, by rw [hEq]; exact Function.update_self .., ?_, hRest⟩
      rw [hs.parent, hParent]
    · exact ⟨sc'', c, cc, update_of_some hsc'' hEq, hParent, hRest⟩
  · exact h.handles.stream_inj

theorem Inv.refs_settle (h : s.Inv) {f : Frame} {a : Ptr} {sc sc' : StreamCtx}
    (hs : s.Settles f a sc sc') (o : Outcome) :
    Refs (s.settled f a sc' o).frames (s.settled f a sc' o).nextKick (s.settled f a sc' o).conns
      (s.settled f a sc' o).streams (s.settled f a sc' o).ctxs (s.settled f a sc' o).sctxs := by
  simp only [settled]
  constructor
  · intro co f' hf' hOp
    obtain ⟨hNe, hf'⟩ := update_none_iff.mp hf'
    obtain ⟨hd, cc, sc'', hHd, hCc, hsc'', hRest⟩ := h.refs.frame_open co f' hf' hOp
    exact ⟨hd, cc, sc'', hHd, hCc, update_of_some hsc'' (hs.frame_ne h hf' hNe), hRest⟩
  · intro co f' hf'
    exact h.refs.frame_stream co f' (update_none_iff.mp hf').2
  · intro co f' k hd hf'
    exact h.refs.open_fresh co f' k hd (update_none_iff.mp hf').2
  · intro k hd hk
    obtain ⟨hLt, hNe⟩ := h.refs.stream_kick k hd hk
    exact ⟨hLt, fun co f' hf' => hNe co f' (update_none_iff.mp hf').2⟩

theorem Inv.settle (h : s.Inv) {f : Frame} {a : Ptr} {sc sc' : StreamCtx}
    (hs : s.Settles f a sc sc') (o : Outcome) : (s.settled f a sc' o).Inv where
  registry := h.registry_settle hs o
  lists := h.lists_settle hs o
  suspended := h.suspended_settle hs o
  handles := h.handles_settle hs o
  refs := h.refs_settle hs o

end GrpcClient.Cli
