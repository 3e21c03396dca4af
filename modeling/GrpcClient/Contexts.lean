import Mathlib.Data.Set.Card
import GrpcClient.Ownership
import GrpcClient.Correlation

/-! # Contexts that are used again

The event contexts that carry results to the event loop come from the pool of the
cycle, which keeps them, and an sctx stays with its connection. Both are used
again, so there are never many more of them than were needed at one time.
-/

namespace GrpcClient

open Fallible PartialMap

/-! ## Event contexts -/

namespace ThreadCtx

/-- The event contexts allocated so far. Each is occupied or free. -/
def contexts (th : ThreadCtx) : Nat := th.occupied.length + th.free.length

theorem insert_contexts (th : ThreadCtx) (memOk : Bool) (r : TaskRes) :
    (th.insertPostedEventCtx memOk r).contexts ≤
      max th.contexts (th.insertPostedEventCtx memOk r).occupied.length := by
  unfold insertPostedEventCtx contexts
  split
  · rename_i free hFree
    simp only [hFree, List.length_append, List.length_cons, List.length_nil]
    omega
  · rename_i hFree
    split
    · simp only [hFree, List.length_append, List.length_cons, List.length_nil]
      omega
    · simp only [hFree, List.length_nil]
      omega

theorem insertAll_contexts (oom : List Nat) (i : Nat) (th : ThreadCtx) (recs : List TaskRes) :
    (th.insertAll oom i recs).contexts ≤
      max th.contexts (th.insertAll oom i recs).occupied.length := by
  induction recs generalizing i th with
  | nil => exact le_max_left _ _
  | cons r recs ih =>
    rw [insertAll]
    have hRest := ih (i + 1) (th.insertPostedEventCtx (decide (i ∉ oom)) r)
    have hFirst := th.insert_contexts (decide (i ∉ oom)) r
    obtain ⟨kept, dropped, free, hEq, _, _⟩ :=
      insertAll_eq oom (i + 1) (th.insertPostedEventCtx (decide (i ∉ oom)) r) recs
    have hOccupied := congrArg (fun th => th.occupied.length) hEq
    simp only [List.length_append] at hOccupied
    omega

end ThreadCtx

namespace State

variable {s t : State} {ok : State → Action → Prop}

/-- How many operations were started whose results are not yet handed over. -/
def outstandingNum (s : State) : Nat :=
  ((List.range s.cli.nextKick).filter fun k => decide (s.outstanding k)).length

theorem outstandingNum_mono (hNext : s.cli.nextKick = t.cli.nextKick)
    (h : ∀ k, s.outstanding k → t.outstanding k) : s.outstandingNum ≤ t.outstandingNum := by
  unfold outstandingNum
  rw [hNext]
  apply List.Sublist.length_le
  apply List.monotone_filter_right
  simpa using h

theorem Run.occupied_le (h : Run ok s) : s.thread.occupied.length ≤ s.outstandingNum := by
  have hNodup : (s.thread.occupied.map TaskRes.op).Nodup := by
    have hHanded := h.handed_nodup
    simp only [ThreadCtx.handed, List.map_append] at hHanded
    exact (List.nodup_append.mp (List.nodup_append.mp hHanded).1).2.1
  have hSubset : s.thread.occupied.map TaskRes.op ⊆
      (List.range s.cli.nextKick).filter fun k => decide (s.outstanding k) := by
    intro k hk
    obtain ⟨r, hr, rfl⟩ := List.mem_map.mp hk
    obtain ⟨hOpen, f, hf, _⟩ := h.posted_outstanding hr
    simp only [List.mem_filter, List.mem_range, decide_eq_true_eq]
    exact ⟨(h.logged.kick_lt r.op).mp ⟨f, hf⟩, hOpen⟩
  simpa [outstandingNum] using (hNodup.subperm hSubset).length_le

theorem postBatch_contexts {oom : List Nat} (h : s.postBatch oom = .ok t) :
    t.thread.contexts ≤ max s.thread.contexts t.thread.occupied.length := by
  obtain ⟨recs, _, h⟩ := bind_eq_ok h
  have hAll := ThreadCtx.insertAll_contexts oom 0 { s.thread with phase := .idle } recs
  split at h
  · split at h
    · cases h
      exact hAll
    · cases h
      exact hAll
  · cases h
    exact hAll

theorem threadEventHandler_contexts {oom : List Nat} {postOk : Bool}
    (h : s.threadEventHandler oom postOk = .ok t) :
    t.thread.contexts ≤ max s.thread.contexts t.thread.occupied.length := by
  unfold threadEventHandler at h
  split at h
  · obtain ⟨u, hPost, h⟩ := bind_eq_ok h
    have hPosted := postBatch_contexts hPost
    split at h
    · cases h
      exact hPosted
    · split at h
      · cases h
        exact hPosted
      · split at h
        · rename_i thread hThread
          cases h
          unfold ThreadCtx.taskPost at hThread
          split at hThread
          · cases hThread
          · split at hThread
            · cases hThread
              exact hPosted
            · cases hThread
        · cases h
          exact hPosted
  · cases h

/-- Posting a batch takes results out of the hands of the engine, but hands none over. -/
theorem Run.outstandingNum_posted (h : Run ok s) {oom : List Nat} {postOk : Bool}
    (hStep : s.threadEventHandler oom postOk = .ok t) : t.outstandingNum ≤ s.outstandingNum := by
  obtain ⟨kept, dropped, ph, free, posted, _, rfl⟩ := threadEventHandler_ok h.holds hStep
  apply outstandingNum_mono
  · rfl
  · rintro k ⟨hProcessed, hLost⟩
    refine ⟨hProcessed, fun hMem => hLost ?_⟩
    simp only [List.map_append, List.mem_append]
    exact .inl hMem

/-- The worker never has more event contexts than operations were outstanding at
one time. -/
theorem contexts_bounded {B : Nat} (h : Run (fun s _ => s.outstandingNum ≤ B) s) :
    s.thread.contexts ≤ B := by
  apply h.induct (P := fun s => s.thread.contexts ≤ B) (Nat.zero_le B)
  intro s a t hRun hv hBound hFew hStep hChange
  have hNext : Run (fun s _ => s.outstandingNum ≤ B) t := .tail hRun hFew hStep
  cases hChange with
  | resume hOccupied | cancel hOccupied =>
    simp only [ThreadCtx.contexts, hOccupied, List.length_append, List.length_cons,
      List.length_nil] at hBound ⊢
    omega
  | threadEvent hPost =>
    have hContexts := threadEventHandler_contexts hPost
    have hOccupied := hNext.occupied_le
    have hMono := hRun.outstandingNum_posted hPost
    omega
  | _ => exact hBound

/-- The third result comes in the event context of the first. -/
def threeCalls : List Action := [
  .connect (some 1) (.ok []) 50,
  .call 0 1 7 true ⟨true, none, true, some 100, some 10⟩,
  .call 0 2 7 true ⟨true, none, true, some 101, some 11⟩,
  .goReturn 0 (.ok [1]),
  .goReturn 1 (.ok [2]),
  .goReport 0,
  .goReport 1,
  .waitReturn,
  .threadTest,
  .threadEvent [] true,
  .postEvent,
  .drain,
  .call 0 1 7 true ⟨true, none, true, some 102, none⟩,
  .drain,
  .drain,
  .goReturn 2 (.ok [3]),
  .goReport 2,
  .waitReturn,
  .threadTest,
  .threadEvent [] true]

theorem contexts_bounded_threeCalls : ∃ s : State, s.thread.occupied.map TaskRes.op = [2] ∧
    s.thread.contexts ≤ 2 := by
  have hRun := run_after (fun s _ => s.outstandingNum ≤ 2) threeCalls (by decide +kernel)
  exact ⟨_, by decide +kernel, contexts_bounded hRun⟩

/-! ## Stream contexts -/

/-- The sctxs that were allocated for a connection and not freed. -/
def sctxsOf (s : State) (g : Nat) : Set Ptr :=
  { p | ∃ sc, s.cli.sctxs p = some sc ∧ sc.owner = g }

/-- Those that a call or an open of the connection waits on, and those behind a
stream handle. -/
def usedSctxs (s : State) (g : Nat) : List Ptr :=
  (s.cli.suspended.filter fun f => decide (f.op.onStream = false ∧ f.handle = g)).map Frame.sctx ++
    (((List.range s.cli.nextKick).filterMap s.cli.streams).map Handle.ctx).filter fun p =>
      decide ((s.cli.sctxs p).map StreamCtx.owner = some g)

theorem sctxsOf_update {g : Nat} {cli : Cli} {p : Ptr} {sc sc' : StreamCtx}
    (hsc : s.cli.sctxs p = some sc) (hOwner : sc'.owner = sc.owner)
    (hCli : cli.sctxs = Function.update s.cli.sctxs p (some sc')) :
    ({ s with cli } : State).sctxsOf g ⊆ s.sctxsOf g := by
  rintro q ⟨sc'', hsc'', hMine⟩
  rw [hCli] at hsc''
  obtain ⟨rfl, rfl⟩ | ⟨_, hOld⟩ := update_some_iff.mp hsc''
  · exact ⟨sc, hsc, hOwner.symm.trans hMine⟩
  · exact ⟨sc'', hOld, hMine⟩

/-- The connection has one sctx more, and had no free one. -/
def Allocates (s t : State) (g : Nat) : Prop :=
  (∃ p, t.sctxsOf g ⊆ insert p (s.sctxsOf g)) ∧
    ∀ c cc, s.cli.ctxs c = some cc → cc.owner = g → cc.free = []

theorem Valid.sctxsOf_takes (hv : s.Valid) (hOwned : Owned s.cli.ctxs s.eng.nextConn) {g : Nat}
    {c p : Ptr} {cc : Ctx} {free : List Ptr} {cli : Cli} {sc : StreamCtx}
    (hcc : s.cli.ctxs c = some cc) (hTake : s.cli.Takes cc free p) (hOwner : sc.owner = cc.owner)
    (hCli : cli.sctxs = Function.update s.cli.sctxs p (some sc)) :
    ({ s with cli } : State).sctxsOf g ⊆ s.sctxsOf g ∨ s.Allocates { s with cli } g := by
  obtain hLast | ⟨hNil, _, hNone⟩ := hTake
  · left
    have hMem : p ∈ cc.free := by
      rw [hLast]
      exact List.mem_append_right _ (List.mem_singleton_self p)
    obtain ⟨sc₀, hsc₀, _, hSame, _⟩ := hv.cli.lists.free_sctx c cc p hcc hMem
    exact sctxsOf_update hsc₀ (hOwner.trans hSame.symm) hCli
  · have hNew : ∀ q ∈ ({ s with cli } : State).sctxsOf g,
        q = p ∧ cc.owner = g ∨ q ∈ s.sctxsOf g := by
      rintro q ⟨sc', hsc', hMine⟩
      rw [hCli] at hsc'
      obtain ⟨rfl, rfl⟩ | ⟨_, hOld⟩ := update_some_iff.mp hsc'
      · exact .inl ⟨rfl, hOwner.symm.trans hMine⟩
      · exact .inr ⟨sc', hOld, hMine⟩
    by_cases hMine : cc.owner = g
    · right
      refine ⟨⟨p, fun q hq => (hNew q hq).imp_left And.left⟩, fun c' cc' hcc' hOwner' => ?_⟩
      obtain rfl := hOwned.inj c' cc' c cc hcc' hcc (hOwner'.trans hMine.symm)
      rw [hcc] at hcc'
      cases hcc'
      exact hNil
    · left
      intro q hq
      exact (hNew q hq).resolve_left fun h => hMine h.2

theorem Change.sctxsOf (hv : s.Valid) (hOwned : Owned s.cli.ctxs s.eng.nextConn) {g : Nat}
    {a : Action} (h : s.Change a t) : t.sctxsOf g ⊆ s.sctxsOf g ∨ s.Allocates t g := by
  cases h with
  | connFree | streamGcFree =>
    left
    rintro p ⟨sc, hsc, hMine⟩
    simp only [ite_eq_iff, reduceCtorEq, and_false, false_or] at hsc
    exact ⟨sc, hsc.2, hMine⟩
  | openFailed r isHttp type hcc hTake => exact hv.sctxsOf_takes hOwned hcc hTake rfl rfl
  | kick hPrep =>
    cases hPrep with
    | opens r isHttp type hHd hOpen hcc hEngine hRef hTake =>
      exact hv.sctxsOf_takes hOwned hcc hTake (by rfl) (Function.update_idem ..)
    | stream hHd hOpen hCtx hsc => exact .inl (sctxsOf_update hsc (by rfl) rfl)
  | resume hOccupied hId hSettles => exact .inl (sctxsOf_update hSettles.sctx hSettles.owner rfl)
  | timeout hSettles | abort hSettles =>
    exact .inl (sctxsOf_update hSettles.sctx hSettles.owner rfl)
  | streamGc hHd hcc hMem hsc => exact .inl (sctxsOf_update hsc (by rfl) rfl)
  | _ => exact .inl fun _ hp => hp

theorem Run.sctxsOf_used {g : Nat} (h : Run (returnsSctx g) s)
    (hFree : ∀ c cc, s.cli.ctxs c = some cc → cc.owner = g → cc.free = []) :
    s.sctxsOf g ⊆ { p | p ∈ s.usedSctxs g } := by
  have hv := h.valid
  rintro p ⟨sc, hsc, hMine⟩
  have hHandle : ∀ k hd, s.cli.streams k = some hd → hd.ctx = p → p ∈ s.usedSctxs g := by
    rintro k hd hHd rfl
    apply List.mem_append_right
    rw [List.mem_filter]
    refine ⟨List.mem_map_of_mem (List.mem_filterMap.mpr ⟨k, ?_, hHd⟩), ?_⟩
    · exact List.mem_range.mpr (hv.cli.refs.stream_kick k hd hHd).1
    · simp [hsc, hMine]
  cases h.kept p sc hsc hMine with
  | @free c cc hcc hMem =>
    obtain ⟨sc', hsc', _, hSame, _⟩ := hv.cli.lists.free_sctx c cc p hcc hMem
    rw [hsc] at hsc'
    cases hsc'
    rw [hFree c cc hcc (hSame.symm.trans hMine)] at hMem
    cases hMem
  | @waited co f hf hEq =>
    obtain ⟨rfl, _⟩ := hv.cli.suspended.frame_kick co f hf
    cases hOn : f.op.onStream with
    | true =>
      obtain ⟨hd, hHd, hCtx⟩ := hv.cli.refs.frame_stream f.co f hf hOn
      exact hHandle f.handle hd hHd (hCtx.trans hEq)
    | false =>
      subst hEq
      apply List.mem_append_left
      apply List.mem_map_of_mem
      simp [hv.mem_suspended.mpr hf, hOn, (hv.open_owner hf hOn hsc).symm.trans hMine]
  | @handle k hd hHd hEq => exact hHandle k hd hHd hEq

theorem encard_le_length {l : List Ptr} {S : Set Ptr} (h : S ⊆ { p | p ∈ l }) :
    S.encard ≤ l.length := by
  calc S.encard
      ≤ (l.toFinset : Set Ptr).encard := Set.encard_le_encard (by simpa using h)
    _ = l.toFinset.card := Set.encard_coe_eq_coe_finsetCard _
    _ ≤ l.length := by exact_mod_cast l.toFinset_card_le

/-- As long as no sctx is dropped, a connection never has more of them than its
calls, opens and handles used at one time, and one for an open that fails. -/
theorem sctxs_bounded {g B : Nat}
    (h : Run (fun s a => s.returnsSctx g a ∧ (s.usedSctxs g).length ≤ B) s) :
    (s.sctxsOf g).encard ≤ B + 1 := by
  apply h.induct (P := fun s => (s.sctxsOf g).encard ≤ B + 1)
  · simp [State.sctxsOf, init, Cli.init]
  intro s a t hRun hv hBound hOk _ hChange
  have hReturns : Run (returnsSctx g) s := hRun.mono fun _ _ _ _ hOk _ => hOk.1
  obtain hSame | ⟨⟨p, hNew⟩, hFree⟩ := hChange.sctxsOf hv hReturns.owned (g := g)
  · exact (Set.encard_le_encard hSame).trans hBound
  · have hUsed := encard_le_length (hReturns.sctxsOf_used hFree)
    calc (t.sctxsOf g).encard
        ≤ (insert p (s.sctxsOf g)).encard := Set.encard_le_encard hNew
      _ ≤ (s.sctxsOf g).encard + 1 := Set.encard_insert_le _ p
      _ ≤ (s.usedSctxs g).length + 1 := by gcongr
      _ ≤ B + 1 := by
        gcongr
        exact_mod_cast hOk.2

theorem sctxs_bounded_threeCalls : ∃ s : State, s.usedSctxs 0 = [10] ∧
    (s.sctxsOf 0).encard ≤ (2 : Nat) + 1 := by
  have hRun := run_after (fun s a => s.returnsSctx 0 a ∧ (s.usedSctxs 0).length ≤ 2) threeCalls
    (by decide +kernel)
  exact ⟨_, by decide +kernel, sctxs_bounded hRun⟩

end State

end GrpcClient
