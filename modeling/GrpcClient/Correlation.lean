import GrpcClient.Lib.Mailbox
import GrpcClient.Pipeline

/-! # Which operation a result belongs to

The task id of an operation is the address of its sctx, so the event loop finds
the waiter of a result by address alone. The worker is a mailbox whose tags are
those addresses: a kick-off issues one, a timeout or an abort gives a request
up, and the drain answers or drops. As long as no address is issued again while
a request that was given up under it is outstanding, results and waiters match.
-/

namespace GrpcClient.State

open PartialMap

variable {s t : State} {ok : State → Action → Prop}

def outstanding (s : State) (k : Nat) : Prop :=
  k ∉ s.thread.processed.map TaskRes.op ∧ k ∉ s.thread.lost.map TaskRes.op

instance (s : State) (k : Nat) : Decidable (s.outstanding k) :=
  inferInstanceAs (Decidable (_ ∧ _))

/-- The coroutine of the kick-off stopped waiting before a result came. -/
def givenUp (s : State) (k : Nat) : Prop :=
  (k, .timeout) ∈ s.cli.outcomes ∨ (k, .aborted) ∈ s.cli.outcomes

instance (s : State) (k : Nat) : Decidable (s.givenUp k) :=
  inferInstanceAs (Decidable (_ ∨ _))

def kickOff (s : State) (a : Action) : Option Frame :=
  match s.step a with
  | .ok t => t.cli.kicks s.cli.nextKick
  | .error _ => none

/-- No kick-off uses the address of an operation that was given up and whose
result is outstanding. -/
def noStaleReuse (s : State) (a : Action) : Prop :=
  ∀ f ∈ s.kickOff a, ∀ k < s.cli.nextKick, s.givenUp k → s.outstanding k →
    ∀ f' ∈ s.cli.kicks k, f'.sctx ≠ f.sctx

instance (s : State) (a : Action) : Decidable (s.noStaleReuse a) :=
  inferInstanceAs (Decidable (∀ f ∈ s.kickOff a, _))

def mailbox (s : State) : Mailbox.State Ptr Nat where
  waiting := { x | ∃ co f, s.cli.frames co = some f ∧ (f.sctx, f.kick) = x }
  inflight := { x | ∃ f, s.cli.kicks x.2 = some f ∧ f.sctx = x.1 ∧ s.outstanding x.2 }
  abandoned := { k | s.givenUp k }
  answered := { x | ∃ r, (x.1, .result r) ∈ s.cli.outcomes ∧ r.op = x.2 }

theorem mailbox_init : init.mailbox = .empty := by
  ext x <;> simp [mailbox, init, Cli.init, Mailbox.State.empty, givenUp]

/-! ## Every action is a step of the mailbox -/

theorem Run.processed_lt (h : Run ok s) {k : Nat}
    (hk : k ∈ s.thread.processed.map TaskRes.op ∨ k ∈ s.thread.lost.map TaskRes.op) :
    k < s.cli.nextKick := by
  have hMem : k ∈ s.thread.handed.map TaskRes.op := by
    simp only [ThreadCtx.handed, List.map_append, List.mem_append]
    tauto
  obtain ⟨r, hr, rfl⟩ := List.mem_map.mp hMem
  obtain ⟨op, hop, _⟩ := h.handed_op hr
  exact h.op_lt hop

theorem Run.outstanding_next (h : Run ok s) : s.outstanding s.cli.nextKick := by
  constructor
  · exact fun hk => Nat.lt_irrefl _ (h.processed_lt (.inl hk))
  · exact fun hk => Nat.lt_irrefl _ (h.processed_lt (.inr hk))

theorem Run.posted_outstanding (h : Run ok s) {r : TaskRes} (hr : r ∈ s.thread.occupied) :
    s.outstanding r.op ∧ ∃ f, s.cli.kicks r.op = some f ∧ f.sctx = r.taskId := by
  have hNodup := h.handed_nodup
  simp only [ThreadCtx.handed, List.map_append] at hNodup
  obtain ⟨hLeft, _, _⟩ := List.nodup_append.mp hNodup
  obtain ⟨_, _, hDisjoint⟩ := List.nodup_append.mp hLeft
  have hMem : r.op ∈ s.thread.occupied.map TaskRes.op := List.mem_map_of_mem hr
  refine ⟨⟨fun hk => ?_, fun hk => ?_⟩, ?_⟩
  · exact hDisjoint _ (List.mem_append_left _ hk) _ hMem rfl
  · exact hDisjoint _ (List.mem_append_right _ hk) _ hMem rfl
  · have hHanded : r ∈ s.thread.handed := by
      simp only [ThreadCtx.handed, List.mem_append]
      tauto
    obtain ⟨op, hop, hId, _⟩ := h.handed_op hHanded
    obtain ⟨f, hf, hSctx, _⟩ := h.started.op_kick r.op op hop
    exact ⟨f, hf, hSctx.trans hId⟩

theorem mem_outcomes_snoc {outcomes : List (Nat × Outcome)} {x y : Nat × Outcome} :
    x ∈ outcomes ++ [y] ↔ x ∈ outcomes ∨ x = y := by
  simp

theorem waiting_settled (hv : s.Valid) {f : Frame} (hf : s.cli.frames f.co = some f)
    (x : Ptr × Nat) :
    (∃ co f', Function.update s.cli.frames f.co none co = some f' ∧ (f'.sctx, f'.kick) = x) ↔
      (∃ co f', s.cli.frames co = some f' ∧ (f'.sctx, f'.kick) = x) ∧ x ≠ (f.sctx, f.kick) := by
  constructor
  · rintro ⟨co, f', hf', rfl⟩
    obtain ⟨hNe, hf'⟩ := update_none_iff.mp hf'
    refine ⟨⟨co, f', hf', rfl⟩, fun hEq => hNe ?_⟩
    exact (hv.cli.waiter_unique hf' hf (Prod.mk.inj hEq).1).1
  · rintro ⟨⟨co, f', hf', rfl⟩, hNe⟩
    refine ⟨co, f', update_of_some hf' fun hEq => hNe ?_, rfl⟩
    rw [hEq, hf] at hf'
    cases hf'
    rfl

theorem mailbox_kick (hRun : Run ok s) {f : Frame} {ctxs : Ptr → Option Ctx}
    {sctxs : Ptr → Option StreamCtx} {sc : StreamCtx} {op : Op} {addr : Ptr}
    (hKick : f.kick = s.cli.nextKick) (hFrame : s.cli.frames f.co = none) :
    ({ s with
      cli := Cli.kicked { s.cli with ctxs, sctxs } f addr sc
      eng := s.eng.start f.kick op
      thread := { s.thread with phase := s.thread.phase.scheduled } } : State).mailbox =
      s.mailbox.issue f.sctx f.kick := by
  have hNone : s.cli.kicks f.kick = none := by
    cases hk : s.cli.kicks f.kick with
    | none => rfl
    | some f' =>
      have := (hRun.logged.kick_lt f.kick).mp ⟨f', hk⟩
      omega
  ext x
  · constructor
    · rintro ⟨co, f', hf', rfl⟩
      rcases update_some_iff.mp hf' with ⟨_, rfl⟩ | ⟨_, hf'⟩
      · exact .inl rfl
      · exact .inr ⟨co, f', hf', rfl⟩
    · rintro (rfl | ⟨co, f', hf', rfl⟩)
      · exact ⟨f.co, f, Function.update_self .., rfl⟩
      · refine ⟨co, f', update_of_some hf' fun hEq => ?_, rfl⟩
        rw [hEq, hFrame] at hf'
        cases hf'
  · constructor
    · rintro ⟨f', hf', hSctx, hOut⟩
      rcases update_some_iff.mp hf' with ⟨hEq, rfl⟩ | ⟨_, hf'⟩
      · exact .inl (Prod.ext hSctx.symm hEq)
      · exact .inr ⟨f', hf', hSctx, hOut⟩
    · rintro (rfl | ⟨f', hf', hSctx, hOut⟩)
      · refine ⟨f, Function.update_self .., rfl, ?_⟩
        rw [hKick]
        exact hRun.outstanding_next
      · refine ⟨f', update_of_some hf' fun hEq => ?_, hSctx, hOut⟩
        rw [hEq, hNone] at hf'
        cases hf'
  · exact Iff.rfl
  · exact Iff.rfl

theorem inflight_processed (hRun : Run ok s) {r : TaskRes} (hr : r ∈ s.thread.occupied)
    (x : Ptr × Nat) :
    (∃ f, s.cli.kicks x.2 = some f ∧ f.sctx = x.1 ∧
      x.2 ∉ (s.thread.processed ++ [r]).map TaskRes.op ∧ x.2 ∉ s.thread.lost.map TaskRes.op) ↔
      x ∈ s.mailbox.inflight \ {(r.taskId, r.op)} := by
  obtain ⟨_, f, hf, hId⟩ := hRun.posted_outstanding hr
  simp only [List.map_append, List.mem_append, List.map_singleton, List.mem_singleton, not_or]
  constructor
  · rintro ⟨f', hf', hSctx, ⟨hProcessed, hNe⟩, hLost⟩
    exact ⟨⟨f', hf', hSctx, hProcessed, hLost⟩, fun hEq => hNe (congrArg Prod.snd hEq)⟩
  · rintro ⟨⟨f', hf', hSctx, hProcessed, hLost⟩, hNe⟩
    refine ⟨f', hf', hSctx, ⟨hProcessed, fun hEq => hNe ?_⟩, hLost⟩
    rw [hEq, hf] at hf'
    cases hf'
    exact Prod.ext (hSctx.symm.trans hId) hEq

theorem mailbox_resume (hRun : Run ok s) {r : TaskRes} {occupied : List TaskRes} {f : Frame}
    {addr : Ptr} {sc : StreamCtx} (hOccupied : s.thread.occupied = r :: occupied)
    (hId : r.taskId = f.sctx) (hf : s.cli.frames f.co = some f) :
    ({ s with
      cli := s.cli.resumed f addr sc (.result r) r.reply
      thread := { s.thread with
        occupied, free := s.thread.free ++ [r], processed := s.thread.processed ++ [r] }
      mem := s.mem.freeBuf r.buf } : State).mailbox = s.mailbox.answer f.sctx f.kick r.op := by
  ext x
  · exact waiting_settled hRun.valid hf x
  · rw [← hId]
    exact inflight_processed hRun (by simp [hOccupied]) x
  · simp [mailbox, givenUp, Cli.resumed, Cli.settled, Mailbox.State.answer]
  · constructor
    · rintro ⟨r', hr', hOp⟩
      rcases mem_outcomes_snoc.mp hr' with hr' | hEq
      · exact .inr ⟨r', hr', hOp⟩
      · obtain ⟨hKick, hRes⟩ := Prod.mk.inj hEq
        cases hRes
        exact .inl (Prod.ext hKick hOp.symm)
    · rintro (rfl | ⟨r', hr', hOp⟩)
      · exact ⟨r, mem_outcomes_snoc.mpr (.inr rfl), rfl⟩
      · exact ⟨r', mem_outcomes_snoc.mpr (.inl hr'), hOp⟩

theorem mailbox_cancel (hRun : Run ok s) {r : TaskRes} {occupied : List TaskRes}
    (hOccupied : s.thread.occupied = r :: occupied) :
    ({ s with
      thread := { s.thread with
        occupied, free := s.thread.free ++ [r], processed := s.thread.processed ++ [r] }
      mem := s.mem.freeBuf r.buf } : State).mailbox = s.mailbox.drop {r.op} := by
  ext x
  · exact Iff.rfl
  · refine (inflight_processed hRun (r := r) (by simp [hOccupied]) x).trans ?_
    constructor
    · rintro ⟨hIn, hNe⟩
      refine ⟨hIn, fun hEq => hNe ?_⟩
      obtain ⟨_, f, hf, hId⟩ := hRun.posted_outstanding (r := r) (by simp [hOccupied])
      obtain ⟨f', hf', hSctx, _⟩ := hIn
      rw [Set.mem_singleton_iff.mp hEq, hf] at hf'
      cases hf'
      exact Prod.ext (hSctx.symm.trans hId) hEq
    · rintro ⟨hIn, hNe⟩
      exact ⟨hIn, fun hEq => hNe (congrArg Prod.snd hEq)⟩
  · exact Iff.rfl
  · exact Iff.rfl

theorem mailbox_giveUp (hv : s.Valid) {f : Frame} {cli : Cli} {o : Outcome}
    (hf : s.cli.frames f.co = some f) (ho : o = .timeout ∨ o = .aborted)
    (hFrames : cli.frames = Function.update s.cli.frames f.co none)
    (hKicks : cli.kicks = s.cli.kicks)
    (hOutcomes : cli.outcomes = s.cli.outcomes ++ [(f.kick, o)]) :
    Relation.ReflTransGen Mailbox.Step s.mailbox ({ s with cli } : State).mailbox := by
  suffices hEq : ({ s with cli } : State).mailbox = s.mailbox.abandon f.sctx f.kick by
    rw [hEq]
    exact .single .abandon
  ext x
  · simp only [mailbox, hFrames]
    exact waiting_settled hv hf x
  · simp only [mailbox, hKicks]
    exact Iff.rfl
  · simp only [mailbox, givenUp, hOutcomes, mem_outcomes_snoc, Mailbox.State.abandon]
    rcases ho with rfl | rfl <;> simp <;> tauto
  · simp only [mailbox, hOutcomes, mem_outcomes_snoc, Mailbox.State.abandon]
    rcases ho with rfl | rfl <;> simp

theorem mailbox_post {kept dropped free : List TaskRes} {ph : ThreadPhase} {posted : Bool}
    {mem : Mem} :
    ({ s with
      thread := { s.thread with
        phase := ph, finishedTasks := none, posted, free
        occupied := s.thread.occupied ++ kept
        lost := s.thread.lost ++ dropped }
      mem } : State).mailbox = s.mailbox.drop { k | k ∈ dropped.map TaskRes.op } := by
  ext x
  · exact Iff.rfl
  · simp only [mailbox, outstanding, Mailbox.State.drop, List.map_append, List.mem_append, not_or,
      Set.mem_ofPred_eq]
    tauto
  · exact Iff.rfl
  · exact Iff.rfl

/-- The worker refines the mailbox. -/
theorem Change.mailbox_step (hRun : Run ok s) {a : Action} (hClear : s.noStaleReuse a)
    (hStep : s.step a = .ok t) (h : s.Change a t) :
    Relation.ReflTransGen Mailbox.Step s.mailbox t.mailbox := by
  have hv := hRun.valid
  cases h with
  | @kick _ f ctxs sctxs sc op addr hPrep hKick hFrame hAddr =>
    rw [mailbox_kick hRun hKick hFrame]
    obtain ⟨hPrepared, hReady⟩ := hPrep.ready hv hKick hFrame hAddr
    have hOff : s.kickOff a = some f := by
      simp [kickOff, hStep, Cli.kicked, ← hKick]
    refine .single (.issue ?_ ?_)
    · rintro w ⟨co, f', hf', hEq⟩
      exact (hReady.frame_ne hPrepared hf').2 (Prod.mk.inj hEq).1
    · rintro k hGivenUp ⟨f', hf', hSctx, hOut⟩
      have hLt := (hRun.logged.kick_lt k).mp ⟨f', hf'⟩
      exact hClear f hOff k hLt hGivenUp hOut f' hf' hSctx
  | @resume r occupied f addr sc hOccupied hId hSettles =>
    rw [mailbox_resume hRun hOccupied hId hSettles.frame]
    obtain ⟨hOut, f', hf', hSctx⟩ := hRun.posted_outstanding (r := r) (by simp [hOccupied])
    exact .single (.answer ⟨f', hf', hSctx.trans hId, hOut⟩ ⟨_, _, hSettles.frame, rfl⟩)
  | cancel hOccupied =>
    rw [mailbox_cancel hRun hOccupied]
    exact .single .drop
  | timeout hSettles => exact mailbox_giveUp hv hSettles.frame (.inl rfl) rfl rfl rfl
  | abort hSettles => exact mailbox_giveUp hv hSettles.frame (.inr rfl) rfl rfl rfl
  | threadEvent hEvent =>
    obtain ⟨kept, dropped, ph, free, posted, hHands, hEq⟩ := threadEventHandler_ok hRun.holds hEvent
    cases hEq
    rw [mailbox_post]
    exact .single .drop
  | _ => exact .refl

theorem Run.matched (h : Run noStaleReuse s) : Mailbox.Matched s.mailbox := by
  obtain ⟨m, hSteps, rfl⟩ := h.simulate (R := fun s m => s.mailbox = m) mailbox_init (by
    rintro s a s' _ hRun rfl hOk hStep
    exact ⟨_, ((Run.valid hRun).step_change hStep).mailbox_step hRun hOk hStep, rfl⟩)
  exact Mailbox.matched_of_run hSteps Mailbox.matched_empty

theorem Run.kickOff_idle (h : Run ok s) {a : Action} (hStep : s.step a = .ok t) {f : Frame}
    (hOff : s.kickOff a = some f) {co : Nat} {f' : Frame} (hf' : s.cli.frames co = some f') :
    f'.sctx ≠ f.sctx := by
  have hNone : s.cli.kicks s.cli.nextKick ≠ some f := fun hk =>
    Nat.lt_irrefl _ ((h.logged.kick_lt _).mp ⟨f, hk⟩)
  simp only [kickOff, hStep] at hOff
  cases h.valid.step_change hStep with
  | @kick _ f₁ ctxs sctxs sc op addr hPrep hKick hFrame hAddr =>
    obtain rfl : f₁ = f := by
      simpa [Cli.kicked, ← hKick] using hOff
    obtain ⟨hPrepared, hReady⟩ := hPrep.ready h.valid hKick hFrame hAddr
    exact (hReady.frame_ne hPrepared hf').2
  | _ => exact absurd hOff hNone

/-! ## Result correlation -/

/-- A coroutine is resumed only with a result of its own operation. -/
def Correlated (s : State) : Prop :=
  ∀ k r, (k, .result r) ∈ s.cli.outcomes → r.op = k

theorem result_correlation (h : Run noStaleReuse s) : s.Correlated := by
  intro k r hMem
  exact (h.matched.answered_own (k, r.op) ⟨r, hMem, rfl⟩).symm

/-- A call times out, its sctx is used again only after its late record was
processed, and two more calls are answered in one batch. -/
def lateThenReused : List Action := [
  .connect (some 1) (.ok []) 50,
  .call 0 1 7 true ⟨true, none, true, some 100, some 10⟩,
  .timer 1,
  .goReturn 0 (.ok [1]),
  .goReport 0,
  .waitReturn,
  .threadTest,
  .threadEvent [] true,
  .postEvent,
  .drain,
  .drain,
  .call 0 2 8 true ⟨true, none, true, some 101, none⟩,
  .call 0 3 9 true ⟨true, none, true, some 102, some 11⟩,
  .goReturn 2 (.err [3]),
  .goReport 2,
  .goReturn 1 (.ok [2]),
  .goReport 1,
  .waitReturn,
  .threadTest,
  .threadEvent [] true,
  .postEvent,
  .drain,
  .drain]

theorem result_correlation_lateThenReused : ∃ s : State,
    s.cli.outcomes = [(0, .timeout), (2, .result ⟨11, 1, .err, some ⟨1, [3]⟩, 2⟩),
      (1, .result ⟨10, 1, .ok, some ⟨2, [2]⟩, 1⟩)] ∧ s.Correlated := by
  have hRun := run_after noStaleReuse lateThenReused (by decide +kernel)
  exact ⟨_, by decide +kernel, result_correlation hRun⟩

/-- A call that timed out and a second call that takes its sctx again; then the
first result arrives. -/
def reusedCall : List Action := [
  .connect (some 1) (.ok []) 50,
  .call 0 1 7 true ⟨true, none, true, some 100, some 10⟩,
  .timer 1,
  .call 0 2 8 true ⟨true, none, true, some 101, none⟩,
  .goReturn 0 (.ok [1]),
  .goReport 0,
  .waitReturn,
  .threadTest,
  .threadEvent [] true,
  .postEvent,
  .drain]

theorem late_result_misdelivered : ∃ s, Reachable s ∧ ¬ s.Correlated := by
  have hRun := run_after (fun _ _ => True) reusedCall (by decide +kernel)
  refine ⟨_, hRun, fun hCorrelated => ?_⟩
  have hOp := hCorrelated 1 ⟨10, 1, .ok, some ⟨0, [1]⟩, 0⟩ (by decide +kernel)
  cases hOp

/-! ## One operation per stream -/

/-- At most one goroutine of an sctx is inside an operation on its stream. -/
def OneOperation (s : State) : Prop :=
  ∀ k k' op op', s.eng.ops k = some op → s.eng.ops k' = some op' → op.kind.onStream = true →
    op'.kind.onStream = true → op.phase.unreported = true → op'.phase.unreported = true →
    op.taskId = op'.taskId → k = k'

theorem Run.outstanding_of_unreported (h : Run ok s) {k : Nat} {op : Op}
    (hOp : s.eng.ops k = some op) (hPhase : op.phase.unreported = true) : s.outstanding k := by
  have hNot : k ∉ s.thread.handed.map TaskRes.op := by
    intro hMem
    obtain ⟨r, hr, rfl⟩ := List.mem_map.mp hMem
    obtain ⟨op', hop', _, hReported⟩ := h.handed_op hr
    rw [hOp] at hop'
    cases hop'
    rw [hPhase] at hReported
    cases hReported
  simp only [ThreadCtx.handed, List.map_append, List.mem_append, not_or] at hNot
  exact ⟨hNot.1.1.1, hNot.1.1.2⟩

theorem one_operation (h : Run noStaleReuse s) : s.OneOperation := by
  intro k k' op op' hOp hOp' _ _ hPhase hPhase' hId
  obtain ⟨f, hf, hSctx, _⟩ := h.started.op_kick k op hOp
  obtain ⟨f', hf', hSctx', _⟩ := h.started.op_kick k' op' hOp'
  have hOut := h.outstanding_of_unreported hOp hPhase
  have hOut' := h.outstanding_of_unreported hOp' hPhase'
  exact h.matched.inflight_unique op.taskId k k' ⟨f, hf, hSctx, hOut⟩
    ⟨f', hf', hSctx'.trans hId.symm, hOut'⟩

def openedStream : List Action := [
  .connect (some 1) (.ok []) 50,
  .newStream 0 1 7 true .serverStream ⟨true, none, true, some 100, some 10⟩,
  .goReturn 0 (.ok []),
  .goReport 0,
  .waitReturn,
  .threadTest,
  .threadEvent [] true,
  .postEvent,
  .drain,
  .drain]

theorem one_operation_openedStream : ∃ s : State,
    s.eng.ops 1 = some ⟨10, .recv, 0, 0, .running⟩ ∧ s.OneOperation := by
  have hRun := run_after noStaleReuse
    (openedStream ++ [.recv 0 1 7 ⟨true, none, true, some 101, none⟩]) (by decide +kernel)
  exact ⟨_, by decide +kernel, one_operation hRun⟩

/-- A second receive starts while the one that timed out is still running. -/
theorem two_receives_at_once : ∃ s, Reachable s ∧ ¬ s.OneOperation := by
  have hRun := run_after (fun _ _ => True)
    (openedStream ++ [.recv 0 1 7 ⟨true, none, true, some 101, none⟩, .timer 1,
      .recv 0 1 7 ⟨true, none, true, some 102, none⟩]) (by decide +kernel)
  refine ⟨_, hRun, fun hOne => ?_⟩
  have hEq := hOne 1 2 ⟨10, .recv, 0, 0, .running⟩ ⟨10, .recv, 0, 0, .running⟩
    (by decide +kernel) (by decide +kernel) rfl rfl rfl rfl rfl
  cases hEq

end GrpcClient.State
