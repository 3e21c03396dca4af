import GrpcClient.Streams

/-! # Messages of a stream

A receive takes a message off the stream in its goroutine and returns it through
the result queue. Lua gets the messages of a stream in their order and without
a gap as long as results match their waiters and nobody receives again after a
receive that was given up has taken a message.
-/

namespace GrpcClient.State

open PartialMap

variable {s t : State} {ok : State → Action → Prop}

/-- No receive starts on a stream from which a receive that was given up has
taken a message. -/
def noSkippedMessage (s : State) (a : Action) : Prop :=
  ∀ f ∈ s.kickOff a, f.op = .recv → ∀ x ∈ s.eng.taken, x.stream = f.handle → ¬ s.givenUp x.op

instance (s : State) (a : Action) : Decidable (s.noSkippedMessage a) :=
  inferInstanceAs (Decidable (∀ f ∈ s.kickOff a, _))

def orderly (s : State) (a : Action) : Prop := s.noStaleReuse a ∧ s.noSkippedMessage a

instance (s : State) (a : Action) : Decidable (s.orderly a) :=
  inferInstanceAs (Decidable (_ ∧ _))

theorem Run.stale_free (h : Run orderly s) : Run noStaleReuse s :=
  h.mono fun _ _ _ _ hOk _ => hOk.1

/-- Where results match their waiters, a kick-off finds nothing outstanding
under its address. -/
theorem Run.fresh_opens (h : Run noStaleReuse s) : Run freshOpens s := by
  refine h.mono fun s a t hReach hOk hStep => ?_
  have hRun : Run noStaleReuse s := hReach
  intro f hOff _ k hLt hOut f' hf' hEq
  rcases hRun.matched.inflight_waiter f.sctx k ⟨f', hf', hEq, hOut⟩ with
    ⟨co, f'', hf'', hPair⟩ | hGivenUp
  · exact hRun.kickOff_idle hStep hOff hf'' (Prod.mk.inj hPair).1
  · exact hOk f hOff k hLt hGivenUp hOut f' hf' hEq

/-! ## Streams and the operations on them -/

/-- Handles and operations lead back to the kick-off that opened the stream. -/
structure Rooted (kicks : Nat → Option Frame) (streams : Nat → Option Handle) : Prop where
  handle : ∀ h hd, streams h = some hd → ∃ f, kicks h = some f ∧ f.sctx = hd.ctx
  kick : ∀ k f, kicks k = some f → f.op.onStream = true →
    ∃ f', kicks f.handle = some f' ∧ f'.sctx = f.sctx

theorem Run.rooted (h : Run ok s) : Rooted s.cli.kicks s.cli.streams := by
  refine h.induct (P := fun s => Rooted s.cli.kicks s.cli.streams)
    ⟨by simp [init, Cli.init], by simp [init, Cli.init]⟩ ?_
  intro s a t hRun hv hRooted _ _ hChange
  have hDrop : ∀ {k : Nat} {hd : Handle} {v : Option Handle}, s.cli.streams k = some hd →
      (∀ hd', v = some hd' → hd'.ctx = hd.ctx) →
      Rooted s.cli.kicks (Function.update s.cli.streams k v) := by
    intro k hd v hHd hCtx
    refine ⟨fun k' hd' hHd' => ?_, hRooted.kick⟩
    obtain ⟨hd'', hHd'', hEq⟩ := streams_update hHd hCtx k' hd' hHd'
    obtain ⟨f, hf, hSctx⟩ := hRooted.handle k' hd'' hHd''
    exact ⟨f, hf, hSctx.trans hEq⟩
  cases hChange with
  | @kick _ f ctxs sctxs sc op addr hPrep hKick =>
    have hOld : ∀ {k : Nat} {f' : Frame}, s.cli.kicks k = some f' →
        Function.update s.cli.kicks f.kick (some f) k = some f' := by
      intro k f' hk
      have := (hRun.logged.kick_lt k).mp ⟨f', hk⟩
      exact update_of_some hk (by omega)
    constructor
    · intro k hd hHd
      obtain ⟨f', hf', hSctx⟩ := hRooted.handle k hd hHd
      exact ⟨f', hOld hf', hSctx⟩
    · intro k f' hk hOn
      rcases update_some_iff.mp hk with ⟨_, rfl⟩ | ⟨_, hk⟩
      · cases hPrep with
        | opens r isHttp type hHd hOpen hcc hEngine hRef hTake hOp =>
          rw [hOp] at hOn
          cases hOn
        | stream hHd hOpen hCtx =>
          obtain ⟨f', hf', hSctx⟩ := hRooted.handle f.handle _ hHd
          exact ⟨f', hOld hf', hSctx.trans hCtx⟩
      · obtain ⟨f'', hf'', hSctx⟩ := hRooted.kick k f' hk hOn
        exact ⟨f'', hOld hf'', hSctx⟩
  | resume hOccupied hId hSettles =>
    refine ⟨fun k hd hHd => ?_, hRooted.kick⟩
    rcases answeredStreams_some hHd with hHd | ⟨_, _, rfl, rfl⟩
    · exact hRooted.handle k hd hHd
    · exact ⟨_, (hRun.pending hSettles.frame).1, rfl⟩
  | timeout hSettles =>
    refine ⟨?_, hRooted.kick⟩
    rw [Cli.resumed, answeredStreams_fail]
    exact hRooted.handle
  | streamClose hHd => exact hDrop hHd (by rintro _ ⟨⟩; rfl)
  | streamGc hHd => exact hDrop hHd (by rintro _ ⟨⟩)
  | streamGcFree hHd => exact hDrop hHd (by rintro _ ⟨⟩)
  | _ => exact hRooted

theorem Rooted.same_sctx {kicks : Nat → Option Frame} {streams : Nat → Option Handle}
    (h : Rooted kicks streams) {k k' : Nat} {f f' : Frame} (hk : kicks k = some f)
    (hk' : kicks k' = some f') (hOn : f.op.onStream = true) (hOn' : f'.op.onStream = true)
    (hEq : f.handle = f'.handle) : f.sctx = f'.sctx := by
  obtain ⟨g, hg, hSctx⟩ := h.kick k f hk hOn
  obtain ⟨g', hg', hSctx'⟩ := h.kick k' f' hk' hOn'
  rw [hEq, hg'] at hg
  cases hg
  exact hSctx.symm.trans hSctx'

theorem Run.op_stream (h : Run freshOpens s) {k : Nat} {op : Op} {f : Frame}
    (hOp : s.eng.ops k = some op) (hk : s.cli.kicks k = some f) (hOn : f.op.onStream = true) :
    op.stream = f.handle := by
  refine h.induct (P := fun s => ∀ k op f, s.eng.ops k = some op → s.cli.kicks k = some f →
    f.op.onStream = true → op.stream = f.handle) (by simp [init, Engine.init]) ?_ k op f hOp hk hOn
  intro s a t hRun hv hStream _ _ hChange
  have hRun : Run freshOpens s := hRun
  have hPhase : ∀ {k : Nat} {op : Op} {phase : Phase}, s.eng.ops k = some op →
      ∀ k' op' f, Function.update s.eng.ops k (some { op with phase }) k' = some op' →
        s.cli.kicks k' = some f → f.op.onStream = true → op'.stream = f.handle := by
    intro k op phase hOp k' op' f hOp' hk' hOn
    rcases update_some_iff.mp hOp' with ⟨rfl, rfl⟩ | ⟨_, hOp'⟩
    · exact hStream k' op f hOp hk' hOn
    · exact hStream k' op' f hOp' hk' hOn
  cases hChange with
  | @kick _ f ctxs sctxs sc op addr hPrep =>
    intro k op' f' hOp' hk' hOn
    rcases update_some_iff.mp hOp' with ⟨rfl, rfl⟩ | ⟨hNe, hOp'⟩
    · obtain rfl : f = f' := by
        simpa [Cli.kicked] using hk'
      cases hPrep with
      | opens r isHttp type hHd hOpen hcc hEngine hRef hTake hOff =>
        rw [hOff] at hOn
        cases hOn
      | stream hHd hOpen hCtx hsc hWait hRef =>
        have hStored := hRun.stored.handle f.handle _ hHd hOpen
        rw [hCtx, hRef] at hStored
        exact Option.some.inj hStored
    · refine hStream k op' f' hOp' ?_ hOn
      simpa [Cli.kicked, Function.update_of_ne hNe] using hk'
  | goReturn hOp => exact hPhase hOp
  | goReport hOp => exact hPhase hOp
  | goPanic hOp => exact hPhase hOp
  | goDone hOp => exact hPhase hOp
  | _ => exact hStream

/-! ## What a receive took -/

def Returned (ops : Nat → Option Op) (reported : List TaskResult) (x : Taken) : Prop :=
  (∃ op, ops x.op = some op ∧ op.phase = .reporting (bufferBytes x.msg) none) ∨
    ∃ r ∈ reported, r.op = x.op ∧ r.err = none ∧ r.result = bufferBytes x.msg

/-- A receive takes one message exactly when it succeeds. -/
structure Took (ops : Nat → Option Op) (reported : List TaskResult) (taken : List Taken) :
    Prop where
  nodup : (taken.map Taken.op).Nodup
  op : ∀ x ∈ taken, ∃ op, ops x.op = some op ∧ op.kind = .recv ∧ op.stream = x.stream
  returned : ∀ x ∈ taken, Returned ops reported x
  succeeded : ∀ k op, ops k = some op → op.kind = .recv → Succeeded ops reported k →
    ∃ x ∈ taken, x.op = k

theorem Took.not_running (h : Took s.eng.ops s.eng.reported s.eng.taken) (hRun : Run ok s)
    {x : Taken} (hx : x ∈ s.eng.taken) {op : Op} (hOp : s.eng.ops x.op = some op) :
    op.phase ≠ .running := by
  intro hRunning
  rcases h.returned x hx with ⟨op', hop', hPhase⟩ | ⟨r, hr, hk, _⟩
  · rw [hOp] at hop'
    cases hop'
    rw [hRunning] at hPhase
    cases hPhase
  · have hMem : x.op ∈ s.eng.reported.map TaskResult.op := by
      rw [← hk]
      exact List.mem_map_of_mem hr
    rw [hRun.reported.mem_iff x.op op hOp, hRunning] at hMem
    cases hMem

theorem Took.op_setPhase {ops : Nat → Option Op} {reported : List TaskResult} {taken : List Taken}
    (h : Took ops reported taken) {k : Nat} {op : Op} (hOp : ops k = some op) (phase : Phase) :
    ∀ x ∈ taken, ∃ op', Function.update ops k (some { op with phase }) x.op = some op' ∧
      op'.kind = .recv ∧ op'.stream = x.stream := by
  intro x hx
  obtain ⟨op', hop', hKind, hStream⟩ := h.op x hx
  by_cases hEq : x.op = k
  · rw [hEq, hOp] at hop'
    cases hop'
    exact ⟨{ op with phase }, by rw [hEq, Function.update_self], hKind, hStream⟩
  · exact ⟨op', update_of_some hop' hEq, hKind, hStream⟩

theorem Took.setPhase {ops : Nat → Option Op} {reported : List TaskResult} {taken : List Taken}
    (h : Took ops reported taken) {k : Nat} {op : Op} (hOp : ops k = some op) {phase : Phase}
    (hOld : ∀ result, op.phase ≠ .reporting result none)
    (hNew : ∀ result, phase ≠ .reporting result none) :
    Took (Function.update ops k (some { op with phase })) reported taken := by
  constructor
  · exact h.nodup
  · exact h.op_setPhase hOp phase
  · intro x hx
    rcases h.returned x hx with ⟨op', hop', hPhase⟩ | hRep
    · refine .inl ⟨op', update_of_some hop' fun hEq => ?_, hPhase⟩
      rw [hEq, hOp] at hop'
      cases hop'
      exact hOld _ hPhase
    · exact .inr hRep
  · intro k' op' hop' hKind hDone
    rcases update_some_iff.mp hop' with ⟨rfl, rfl⟩ | ⟨_, hop'⟩
    · exact h.succeeded k' op hOp hKind (hDone.setPhase hNew)
    · exact h.succeeded k' op' hop' hKind (hDone.setPhase hNew)

theorem Took.report {ops : Nat → Option Op} {reported : List TaskResult} {taken : List Taken}
    (h : Took ops reported taken) {k : Nat} {op : Op} (hOp : ops k = some op)
    {result err : Option Bytes}
    (hMsg : ∀ msg, op.phase = .reporting msg none → result = msg ∧ err = none)
    (hErr : err = none → op.phase = .reporting result none) {phase : Phase}
    (hNew : ∀ result, phase ≠ .reporting result none) :
    Took (Function.update ops k (some { op with phase }))
      (reported ++ [⟨op.taskId, result, err, k⟩]) taken := by
  constructor
  · exact h.nodup
  · exact h.op_setPhase hOp phase
  · intro x hx
    rcases h.returned x hx with ⟨op', hop', hPhase⟩ | ⟨r, hr, hRest⟩
    · by_cases hEq : x.op = k
      · rw [hEq, hOp] at hop'
        cases hop'
        obtain ⟨rfl, rfl⟩ := hMsg _ hPhase
        exact .inr ⟨_, List.mem_append_right _ (List.mem_singleton_self _), hEq.symm, rfl, rfl⟩
      · exact .inl ⟨op', update_of_some hop' hEq, hPhase⟩
    · exact .inr ⟨r, List.mem_append_left _ hr, hRest⟩
  · intro k' op' hop' hKind hDone
    have hBefore := (hDone.setPhase hNew).report hOp hErr
    rcases update_some_iff.mp hop' with ⟨rfl, rfl⟩ | ⟨_, hop'⟩
    · exact h.succeeded k' op hOp hKind hBefore
    · exact h.succeeded k' op' hop' hKind hBefore

theorem taken_returned (out : GoOut) (k : Nat) (op : Op) :
    (op.kind = .recv ∧ ∃ bytes, out = .ok bytes ∧ out.taken k op = [⟨op.stream, k, bytes⟩] ∧
      out.phase op.kind = .reporting (bufferBytes bytes) none) ∨
    ((op.kind ≠ .recv ∨ ∀ bytes, out ≠ .ok bytes) ∧ out.taken k op = []) := by
  unfold GoOut.taken GoOut.phase
  cases out <;> cases op.kind <;> simp

theorem Took.goReturn (h : Took s.eng.ops s.eng.reported s.eng.taken) (hRun : Run ok s) {k : Nat}
    {op : Op} (hOp : s.eng.ops k = some op) (hRunning : op.phase = .running) (out : GoOut) :
    Took (Function.update s.eng.ops k (some { op with phase := out.phase op.kind }))
      s.eng.reported (s.eng.taken ++ out.taken k op) := by
  have hNe : ∀ x ∈ s.eng.taken, x.op ≠ k := by
    rintro x hx rfl
    exact h.not_running hRun hx hOp hRunning
  have hOld : ∀ x ∈ s.eng.taken, (∃ op', Function.update s.eng.ops k
      (some { op with phase := out.phase op.kind }) x.op = some op' ∧ op'.kind = .recv ∧
      op'.stream = x.stream) ∧ Returned (Function.update s.eng.ops k
      (some { op with phase := out.phase op.kind })) s.eng.reported x := by
    intro x hx
    obtain ⟨op', hop', hRest⟩ := h.op x hx
    refine ⟨⟨op', update_of_some hop' (hNe x hx), hRest⟩, ?_⟩
    exact (h.returned x hx).imp
      (fun ⟨op', hop', hPhase⟩ => ⟨op', update_of_some hop' (hNe x hx), hPhase⟩) id
  -- a receive that has succeeded by now is an old one or this one
  have hDone : ∀ k' op', Function.update s.eng.ops k
      (some { op with phase := out.phase op.kind }) k' = some op' → op'.kind = .recv →
      Succeeded (Function.update s.eng.ops k (some { op with phase := out.phase op.kind }))
        s.eng.reported k' →
      (∃ x ∈ s.eng.taken, x.op = k') ∨ (k' = k ∧ op.kind = .recv ∧ ∃ bytes, out = .ok bytes) := by
    intro k' op' hop' hKind hDone
    rcases update_some_iff.mp hop' with ⟨rfl, rfl⟩ | ⟨_, hop'⟩
    · rcases hDone.returned with hDone | ⟨_, hOut⟩
      · exact .inl (h.succeeded k' op hOp hKind hDone)
      · exact .inr ⟨rfl, hKind, hOut⟩
    · rcases hDone.returned with hDone | ⟨rfl, _⟩
      · exact .inl (h.succeeded k' op' hop' hKind hDone)
      · contradiction
  rcases taken_returned out k op with ⟨hKind, bytes, _, hTaken, hPhase⟩ | ⟨hOther, hTaken⟩
  · rw [hTaken]
    constructor
    · rw [List.map_append]
      refine List.nodup_append.mpr ⟨h.nodup, List.nodup_singleton _, ?_⟩
      rintro k' hk' _ hk rfl
      obtain ⟨x, hx, rfl⟩ := List.mem_map.mp hk'
      exact hNe x hx (List.mem_singleton.mp hk)
    · intro x hx
      rcases List.mem_append.mp hx with hx | hx
      · exact (hOld x hx).1
      · obtain rfl := List.mem_singleton.mp hx
        exact ⟨_, Function.update_self .., hKind, rfl⟩
    · intro x hx
      rcases List.mem_append.mp hx with hx | hx
      · exact (hOld x hx).2
      · obtain rfl := List.mem_singleton.mp hx
        exact .inl ⟨_, Function.update_self .., hPhase⟩
    · intro k' op' hop' hKind' hSucceeded
      rcases hDone k' op' hop' hKind' hSucceeded with ⟨x, hx, hEq⟩ | ⟨rfl, _⟩
      · exact ⟨x, List.mem_append_left _ hx, hEq⟩
      · exact ⟨_, List.mem_append_right _ (List.mem_singleton_self _), rfl⟩
  · rw [hTaken, List.append_nil]
    refine ⟨h.nodup, fun x hx => (hOld x hx).1, fun x hx => (hOld x hx).2, ?_⟩
    intro k' op' hop' hKind' hSucceeded
    rcases hDone k' op' hop' hKind' hSucceeded with hx | ⟨_, hKind, bytes, hOut⟩
    · exact hx
    · rcases hOther with hOther | hOther
      · exact absurd hKind hOther
      · exact absurd hOut (hOther bytes)

theorem Run.took (h : Run ok s) : Took s.eng.ops s.eng.reported s.eng.taken := by
  refine h.induct (P := fun s => Took s.eng.ops s.eng.reported s.eng.taken)
    ⟨List.nodup_nil, by simp [init, Engine.init], by simp [init, Engine.init],
      by simp [init, Engine.init]⟩ ?_
  intro s a t hRun _ hTook _ _ hChange
  cases hChange with
  | @kick _ f ctxs sctxs sc op addr hPrep hKick =>
    have hOld : ∀ {k : Nat} {op' : Op}, s.eng.ops k = some op' →
        Function.update s.eng.ops f.kick (some op) k = some op' := by
      intro k op' hk
      have := hRun.op_lt hk
      exact update_of_some hk (by omega)
    have hPhase := hPrep.op_eq.2.2
    constructor
    · exact hTook.nodup
    · intro x hx
      obtain ⟨op', hop', hRest⟩ := hTook.op x hx
      exact ⟨op', hOld hop', hRest⟩
    · intro x hx
      rcases hTook.returned x hx with ⟨op', hop', hRest⟩ | hReported
      · exact .inl ⟨op', hOld hop', hRest⟩
      · exact .inr hReported
    · intro k op' hop' hKind hDone
      have hDone := hDone.setPhase (by simp [hPhase])
      rcases update_some_iff.mp hop' with ⟨rfl, _⟩ | ⟨_, hop'⟩
      · have := hRun.succeeded_lt hDone
        omega
      · exact hTook.succeeded k op' hop' hKind hDone
  | goReturn hOp hRunning => exact hTook.goReturn hRun hOp hRunning _
  | goReport hOp hPhase =>
    refine hTook.report hOp ?_ (fun hErr => by rw [hPhase, hErr]) (by simp)
    intro msg hMsg
    rw [hPhase] at hMsg
    cases hMsg
    exact ⟨rfl, rfl⟩
  | goPanic hOp hPhase => exact hTook.report hOp (by simp [hPhase]) (by simp) (by simp)
  | goDone hOp hPhase => exact hTook.setPhase hOp (by simp [hPhase]) (by simp)
  | _ => exact hTook

/-! ## What Lua received -/

def takenOn (taken : List Taken) (o : Nat) : List Taken :=
  taken.filter fun x => decide (x.stream = o)

def receivedOn (received : List Received) (o : Nat) : List Bytes :=
  (received.filter fun x => decide (x.stream = o)).map Received.payload

def Answered (outcomes : List (Nat × Outcome)) (k : Nat) : Prop :=
  ∃ r, (k, .result r) ∈ outcomes

theorem answered_snoc_result {outcomes : List (Nat × Outcome)} {k k' : Nat} {r : TaskRes} :
    Answered (outcomes ++ [(k', .result r)]) k ↔ Answered outcomes k ∨ k = k' := by
  simp [Answered, exists_or]

theorem answered_snoc {outcomes : List (Nat × Outcome)} {k k' : Nat} {o : Outcome}
    (ho : o = .timeout ∨ o = .aborted) :
    Answered (outcomes ++ [(k', o)]) k ↔ Answered outcomes k := by
  rcases ho with rfl | rfl <;> simp [Answered]

/-- Of what was taken off a stream, Lua has received all but at most the last
message, and that one has not been answered. -/
def Flows (taken : List Taken) (received : List Received) (outcomes : List (Nat × Outcome)) :
    Prop :=
  ∀ o, ∃ done tail, takenOn taken o = done ++ tail ∧ done.map Taken.msg = receivedOn received o ∧
    (∀ x ∈ done, Answered outcomes x.op) ∧ (∀ x ∈ tail, ¬ Answered outcomes x.op) ∧
    tail.length ≤ 1

/-- While a receive runs, no message of its stream was taken by one that was
given up. -/
def Unskipped (s : State) : Prop :=
  ∀ k op, s.eng.ops k = some op → op.kind = .recv → op.phase = .running →
    ∀ x ∈ s.eng.taken, x.stream = op.stream → ¬ s.givenUp x.op

theorem Run.answered_processed (h : Run ok s) {k : Nat} {r : TaskRes}
    (hMem : (k, .result r) ∈ s.cli.outcomes) : r ∈ s.thread.processed := by
  refine h.induct (P := fun s => ∀ k r, (k, .result r) ∈ s.cli.outcomes → r ∈ s.thread.processed)
    (by simp [init, Cli.init]) ?_ k r hMem
  intro s a t hRun _ hAnswered _ _ hChange
  cases hChange with
  | resume hOccupied hId hSettles =>
    intro k r hMem
    rcases mem_outcomes_snoc.mp hMem with hMem | hEq
    · exact List.mem_append_left _ (hAnswered k r hMem)
    · cases hEq
      exact List.mem_append_right _ (List.mem_singleton_self _)
  | cancel hOccupied => exact fun k r hMem => List.mem_append_left _ (hAnswered k r hMem)
  | timeout =>
    intro k r hMem
    rcases mem_outcomes_snoc.mp hMem with hMem | hEq
    · exact hAnswered k r hMem
    · cases hEq
  | abort =>
    intro k r hMem
    rcases mem_outcomes_snoc.mp hMem with hMem | hEq
    · exact hAnswered k r hMem
    · cases hEq
  | threadEvent hEvent =>
    obtain ⟨kept, dropped, ph, free, posted, hHands, hEq⟩ := threadEventHandler_ok hRun.holds hEvent
    cases hEq
    exact hAnswered
  | _ => exact hAnswered

theorem Run.not_answered (h : Run noStaleReuse s) {k : Nat} {op : Op}
    (hOp : s.eng.ops k = some op) (hPhase : op.phase.unreported = true) :
    ¬ Answered s.cli.outcomes k := by
  rintro ⟨r, hMem⟩
  have hOwn : k = r.op := h.matched.answered_own (k, r.op) ⟨r, hMem, rfl⟩
  have hProcessed := h.answered_processed hMem
  have hOut := (h.outstanding_of_unreported hOp hPhase).1
  rw [hOwn] at hOut
  exact hOut (List.mem_map_of_mem hProcessed)

theorem Run.taken_frame (h : Run noStaleReuse s) {x : Taken} (hx : x ∈ s.eng.taken) :
    ∃ f, s.cli.kicks x.op = some f ∧ f.op = .recv ∧ f.handle = x.stream := by
  obtain ⟨op, hOp, hKind, hStream⟩ := h.took.op x hx
  obtain ⟨f, hf, _, hEq⟩ := h.started.op_kick x.op op hOp
  have hRecv := hEq.trans hKind
  refine ⟨f, hf, hRecv, ?_⟩
  rw [← hStream]
  exact (h.fresh_opens.op_stream hOp hf (by rw [hRecv]; rfl)).symm

/-- Who waits on a stream while a goroutine works on it waits for that one. -/
theorem Run.waits_for (h : Run noStaleReuse s) {k : Nat} {op : Op} (hOp : s.eng.ops k = some op)
    (hOn : op.kind.onStream = true) (hPhase : op.phase.unreported = true) {co : Nat} {f : Frame}
    (hf : s.cli.frames co = some f) (hfOn : f.op.onStream = true) (hHandle : f.handle = op.stream) :
    f.kick = k := by
  obtain ⟨f', hf', hSctx, hKind⟩ := h.started.op_kick k op hOp
  have hOn' : f'.op.onStream = true := by
    rw [hKind]
    exact hOn
  have hStream := h.fresh_opens.op_stream hOp hf' hOn'
  have hSame := h.rooted.same_sctx (h.pending hf).1 hf' hfOn hOn' (hHandle.trans hStream)
  exact h.matched.waiter_eq f.sctx f.kick k ⟨co, f, hf, rfl⟩
    ⟨f', hf', hSame.symm, h.outstanding_of_unreported hOp hPhase⟩

theorem Run.stream_alone (h : Run noStaleReuse s) {k k' : Nat} {op op' : Op}
    (hOp : s.eng.ops k = some op) (hOp' : s.eng.ops k' = some op')
    (hOn : op.kind.onStream = true) (hOn' : op'.kind.onStream = true)
    (hPhase : op.phase.unreported = true) (hPhase' : op'.phase.unreported = true)
    (hStream : op.stream = op'.stream) : k = k' := by
  obtain ⟨f, hf, hSctx, hKind⟩ := h.started.op_kick k op hOp
  obtain ⟨f', hf', hSctx', hKind'⟩ := h.started.op_kick k' op' hOp'
  rw [← hKind] at hOn
  rw [← hKind'] at hOn'
  have hHandle := h.fresh_opens.op_stream hOp hf hOn
  have hHandle' := h.fresh_opens.op_stream hOp' hf' hOn'
  have hSame := h.rooted.same_sctx hf hf' hOn hOn' (by rw [← hHandle, ← hHandle', hStream])
  exact h.matched.inflight_unique f.sctx k k' ⟨f, hf, rfl, h.outstanding_of_unreported hOp hPhase⟩
    ⟨f', hf', hSame.symm, h.outstanding_of_unreported hOp' hPhase'⟩

/-- A message that was not answered was taken by a receive that still waits or
was given up. -/
theorem Run.waiting_or_givenUp (h : Run ok s) {k : Nat} {f : Frame}
    (hf : s.cli.kicks k = some f) (hOpen : ¬ Answered s.cli.outcomes k) :
    s.cli.frames f.co = some f ∨ s.givenUp k := by
  by_cases hEnded : k ∈ Cli.ended s.cli.outcomes
  · obtain ⟨⟨k', o⟩, hMem, rfl⟩ := List.mem_map.mp hEnded
    cases o with
    | result r => exact absurd ⟨r, hMem⟩ hOpen
    | timeout => exact .inr (.inl hMem)
    | aborted => exact .inr (.inr hMem)
  · exact .inl (h.logged.awaited k f hf hEnded)

theorem givenUp_snoc {outcomes : List (Nat × Outcome)} {k k' : Nat} {o : Outcome}
    (h : (k, .timeout) ∈ outcomes ++ [(k', o)] ∨ (k, .aborted) ∈ outcomes ++ [(k', o)]) :
    ((k, .timeout) ∈ outcomes ∨ (k, .aborted) ∈ outcomes) ∨ (k = k' ∧ ∀ r, o ≠ .result r) := by
  rcases h with h | h
  · rcases mem_outcomes_snoc.mp h with h | h
    · exact .inl (.inl h)
    · cases h
      exact .inr ⟨rfl, by simp⟩
  · rcases mem_outcomes_snoc.mp h with h | h
    · exact .inl (.inr h)
    · cases h
      exact .inr ⟨rfl, by simp⟩

/-- Giving up a receive leaves no other one running on its stream. -/
theorem Unskipped.giveUp (h : s.Unskipped) (hRun : Run noStaleReuse s) {f : Frame}
    (hf : s.cli.frames f.co = some f) {cli : Cli} {o : Outcome}
    (hOutcomes : cli.outcomes = s.cli.outcomes ++ [(f.kick, o)]) :
    ({ s with cli } : State).Unskipped := by
  intro k op hOp hKind hRunning x hx hStream hGivenUp
  simp only [givenUp, hOutcomes] at hGivenUp
  rcases givenUp_snoc hGivenUp with hBefore | ⟨hEq, _⟩
  · exact h k op hOp hKind hRunning x hx hStream hBefore
  · obtain ⟨f', hf', hRecv, hHandle⟩ := hRun.taken_frame hx
    rw [hEq, (hRun.pending hf).1] at hf'
    cases hf'
    have hSame := hRun.waits_for hOp (by rw [hKind]; rfl) (by rw [hRunning]; rfl) hf
      (by rw [hRecv]; rfl) (hHandle.trans hStream)
    rw [← hSame, ← hEq] at hOp
    exact hRun.took.not_running hRun hx hOp hRunning

theorem Run.unskipped (h : Run orderly s) : s.Unskipped := by
  refine h.induct (P := Unskipped) (by simp [Unskipped, init, Engine.init]) ?_
  intro s a t hReach hv hUn hOk hStep hChange
  have hRun : Run noStaleReuse s := Run.stale_free hReach
  -- a goroutine that is past its RPC stays past it
  have hPhase : ∀ {k : Nat} {op : Op} {phase : Phase}, phase ≠ .running →
      ∀ k' op', Function.update s.eng.ops k (some { op with phase }) k' = some op' →
        op'.kind = .recv → op'.phase = .running →
        ∀ x ∈ s.eng.taken, x.stream = op'.stream → ¬ s.givenUp x.op := by
    intro k op phase hPast k' op' hOp' hKind hRunning
    rcases update_some_iff.mp hOp' with ⟨_, rfl⟩ | ⟨_, hOp'⟩
    · exact absurd hRunning hPast
    · exact hUn k' op' hOp' hKind hRunning
  cases hChange with
  | @kick _ f ctxs sctxs sc op addr hPrep hKick =>
    intro k op' hOp' hKind hRunning x hx hStream
    rcases update_some_iff.mp hOp' with ⟨_, rfl⟩ | ⟨_, hOp'⟩
    · have hOff : s.kickOff a = some f := by
        simp [kickOff, hStep, Cli.kicked, ← hKick]
      have hRecv : f.op = .recv := hPrep.op_eq.2.1.symm.trans hKind
      refine hOk.2 f hOff hRecv x hx (hStream.trans ?_)
      cases hPrep with
      | opens r isHttp type hHd hOpen hcc hEngine hRef hTake hOp =>
        rw [hRecv] at hOp
        cases hOp
      | stream hHd hOpen hCtx hsc hWait hRef =>
        have hStored := hRun.fresh_opens.stored.handle f.handle _ hHd hOpen
        rw [hCtx, hRef] at hStored
        exact Option.some.inj hStored
    · exact hUn k op' hOp' hKind hRunning x hx hStream
  | @resume r occupied f addr sc hOccupied hId hSettles =>
    intro k op hOp hKind hRunning x hx hStream hGivenUp
    refine hUn k op hOp hKind hRunning x hx hStream ?_
    exact (givenUp_snoc hGivenUp).resolve_right fun hNew => hNew.2 r rfl
  | timeout hSettles => exact hUn.giveUp hRun hSettles.frame rfl
  | abort hSettles => exact hUn.giveUp hRun hSettles.frame rfl
  | @goReturn k out op hOp hRunning =>
    intro k' op' hOp' hKind hRunning' x hx hStream
    rcases List.mem_append.mp hx with hx | hx
    · exact hPhase (out.phase_ne_running _) k' op' hOp' hKind hRunning' x hx hStream
    · -- two receives never run on one stream
      rcases update_some_iff.mp hOp' with ⟨_, rfl⟩ | ⟨hNe, hOp'⟩
      · exact absurd hRunning' (out.phase_ne_running _)
      · rcases taken_returned out k op with ⟨hRecv, bytes, _, hTaken, _⟩ | ⟨_, hTaken⟩
        · rw [hTaken] at hx
          obtain rfl := List.mem_singleton.mp hx
          have hSame := hRun.stream_alone hOp hOp' (by rw [hRecv]; rfl) (by rw [hKind]; rfl)
            (by rw [hRunning]; rfl) (by rw [hRunning']; rfl) hStream
          exact absurd hSame.symm hNe
        · rw [hTaken] at hx
          cases hx
  | goReport hOp => exact hPhase (by simp)
  | goPanic hOp => exact hPhase (by simp)
  | goDone hOp => exact hPhase (by simp)
  | _ => exact hUn

@[simp] theorem takenOn_append (xs ys : List Taken) (o : Nat) :
    takenOn (xs ++ ys) o = takenOn xs o ++ takenOn ys o := by
  simp [takenOn]

@[simp] theorem receivedOn_append (xs ys : List Received) (o : Nat) :
    receivedOn (xs ++ ys) o = receivedOn xs o ++ receivedOn ys o := by
  simp [receivedOn]

theorem mem_takenOn {taken : List Taken} {o : Nat} {x : Taken} :
    x ∈ takenOn taken o ↔ x ∈ taken ∧ x.stream = o := by
  simp [takenOn]

theorem answeredPayload_fail (f : Frame) (msg : Bytes) :
    Cli.answeredPayload f (.fail msg) = [] := by
  unfold Cli.answeredPayload
  cases f.op <;> rfl

theorem Flows.giveUp {taken : List Taken} {received : List Received}
    {outcomes : List (Nat × Outcome)} (h : Flows taken received outcomes) {k : Nat} {o : Outcome}
    (ho : o = .timeout ∨ o = .aborted) : Flows taken received (outcomes ++ [(k, o)]) := by
  intro st
  obtain ⟨done, tail, hSplit, hMsgs, hDone, hTail, hLen⟩ := h st
  refine ⟨done, tail, hSplit, hMsgs, fun x hx => ?_, fun x hx => ?_, hLen⟩
  · exact (answered_snoc ho).mpr (hDone x hx)
  · exact mt (answered_snoc ho).mp (hTail x hx)

theorem Flows.goReturn (h : Flows s.eng.taken s.cli.received s.cli.outcomes)
    (hRun : Run noStaleReuse s) (hUn : s.Unskipped) {k : Nat} {op : Op}
    (hOp : s.eng.ops k = some op) (hRunning : op.phase = .running) (out : GoOut) :
    Flows (s.eng.taken ++ out.taken k op) s.cli.received s.cli.outcomes := by
  intro o
  obtain ⟨done, tail, hSplit, hMsgs, hDone, hTail, hLen⟩ := h o
  rcases taken_returned out k op with ⟨hKind, bytes, _, hTaken, _⟩ | ⟨_, hTaken⟩
  · rw [hTaken, takenOn_append]
    by_cases hStream : op.stream = o
    · subst hStream
      have hNil : tail = [] := by
        refine List.eq_nil_iff_forall_not_mem.mpr fun x hx => ?_
        have hMem : x ∈ takenOn s.eng.taken op.stream := by
          rw [hSplit]
          exact List.mem_append_right _ hx
        obtain ⟨hMem, hStream⟩ := mem_takenOn.mp hMem
        obtain ⟨f, hf, hRecv, hHandle⟩ := hRun.taken_frame hMem
        rcases hRun.waiting_or_givenUp hf (hTail x hx) with hWait | hGivenUp
        · have hSame := hRun.waits_for hOp (by rw [hKind]; rfl) (by rw [hRunning]; rfl) hWait
            (by rw [hRecv]; rfl) (hHandle.trans hStream)
          rw [hRun.logged.kick_eq x.op f hf] at hSame
          rw [← hSame] at hOp
          exact hRun.took.not_running hRun hMem hOp hRunning
        · exact hUn k op hOp hKind hRunning x hMem hStream hGivenUp
      refine ⟨done, [⟨op.stream, k, bytes⟩], ?_, hMsgs, hDone, ?_, Nat.le_refl _⟩
      · rw [hSplit, hNil, List.append_nil]
        simp [takenOn]
      · intro x hx
        obtain rfl := List.mem_singleton.mp hx
        exact hRun.not_answered hOp (by rw [hRunning]; rfl)
    · refine ⟨done, tail, ?_, hMsgs, hDone, hTail, hLen⟩
      rw [hSplit]
      simp [takenOn, hStream]
  · rw [hTaken, List.append_nil]
    exact ⟨done, tail, hSplit, hMsgs, hDone, hTail, hLen⟩

theorem reply_of_message {r : TaskRes} {r' : TaskResult} (hEq : r'.report = r.report)
    (hErr : r'.err = none) {msg : Bytes} (hResult : r'.result = bufferBytes msg) :
    ∃ payload, r.reply = .ok payload ∧ payload.getD [] = msg := by
  have hType : r'.report.type = r.type := congrArg Report.type hEq
  have hData : r'.report.data = r.buf.map Buf.data := congrArg Report.data hEq
  by_cases hNil : msg = []
  · simp only [TaskResult.report, TaskRes.report, TaskResult.encode, hErr, hResult, bufferBytes,
      if_pos hNil] at hType
    exact ⟨none, by rw [TaskRes.reply, ← hType], hNil.symm⟩
  · simp only [TaskResult.report, TaskRes.report, TaskResult.encode, hErr, hResult, bufferBytes,
      if_neg hNil, Option.map_some] at hType hData
    exact ⟨some msg, by rw [TaskRes.reply, ← hType, ← hData], rfl⟩

theorem Run.answered_message (h : Run noStaleReuse s) {r : TaskRes} (hr : r ∈ s.thread.occupied)
    {f : Frame} (hf : s.cli.frames f.co = some f) (hOwn : r.op = f.kick) :
    (∃ x ∈ s.eng.taken, x.op = f.kick ∧ x.stream = f.handle ∧
      Cli.answeredPayload f r.reply = [⟨f.handle, x.msg⟩]) ∨
    ((∀ x ∈ s.eng.taken, x.op ≠ f.kick) ∧ Cli.answeredPayload f r.reply = []) := by
  have hHanded : r ∈ s.thread.handed := by
    simp only [ThreadCtx.handed, List.mem_append]
    tauto
  have hKick := (h.pending hf).1
  obtain ⟨r', hr', hOp, _, hReport⟩ := h.handed_report hHanded
  obtain ⟨op, hop, _, hPhase⟩ := h.handed_op hHanded
  by_cases hTook : ∃ x ∈ s.eng.taken, x.op = f.kick
  · obtain ⟨x, hx, hxOp⟩ := hTook
    obtain ⟨f', hf', hRecv, hHandle⟩ := h.taken_frame hx
    rw [hxOp, hKick] at hf'
    cases hf'
    refine .inl ⟨x, hx, hxOp, hHandle.symm, ?_⟩
    rcases h.took.returned x hx with ⟨op', hop', hReporting⟩ | ⟨r'', hr'', hOp'', hErr, hResult⟩
    · rw [hxOp, ← hOwn, hop] at hop'
      cases hop'
      rw [hReporting] at hPhase
      cases hPhase
    · obtain rfl : r'' = r' := by
        refine List.inj_on_of_nodup_map h.reported.nodup hr'' hr' ?_
        rw [hOp'', hxOp, hOp, hOwn]
      obtain ⟨payload, hReply, hMsg⟩ := reply_of_message hReport hErr hResult
      simp [Cli.answeredPayload, hRecv, hReply, hMsg]
  · refine .inr ⟨fun x hx hEq => hTook ⟨x, hx, hEq⟩, ?_⟩
    cases hReply : r.reply with
    | fail msg => exact answeredPayload_fail f msg
    | ok payload =>
      by_cases hRecv : f.op = .recv
      · exfalso
        obtain ⟨f', hf', _, hKind⟩ := h.started.op_kick r.op op hop
        rw [hOwn, hKick] at hf'
        cases hf'
        obtain ⟨x, hx, hEq⟩ := h.took.succeeded r.op op hop (hKind.symm.trans hRecv)
          (.inr ⟨r', hr', hOp, err_none_of_reply hReport hReply⟩)
        exact hTook ⟨x, hx, hEq.trans hOwn⟩
      · unfold Cli.answeredPayload
        cases hKind : f.op <;> simp_all

theorem Flows.resume (h : Flows s.eng.taken s.cli.received s.cli.outcomes)
    (hRun : Run noStaleReuse s) {r : TaskRes} (hr : r ∈ s.thread.occupied) {f : Frame}
    (hf : s.cli.frames f.co = some f) (hId : r.taskId = f.sctx) :
    Flows s.eng.taken (s.cli.received ++ Cli.answeredPayload f r.reply)
      (s.cli.outcomes ++ [(f.kick, .result r)]) := by
  have hOwn : f.kick = r.op := by
    obtain ⟨hOut, f', hf', hSctx⟩ := hRun.posted_outstanding hr
    exact hRun.matched.waiter_eq f.sctx f.kick r.op ⟨f.co, f, hf, rfl⟩
      ⟨f', hf', hSctx.trans hId, hOut⟩
  have hOpen : ¬ Answered s.cli.outcomes f.kick := by
    rintro ⟨r', hMem⟩
    exact (hRun.pending hf).2 (List.mem_map.mpr ⟨_, hMem, rfl⟩)
  intro o
  obtain ⟨done, tail, hSplit, hMsgs, hDone, hTail, hLen⟩ := h o
  have hDone' : ∀ x ∈ done, Answered (s.cli.outcomes ++ [(f.kick, .result r)]) x.op :=
    fun x hx => answered_snoc_result.mpr (.inl (hDone x hx))
  have hOld : (∀ x ∈ tail, x.op ≠ f.kick) →
      ∀ x ∈ tail, ¬ Answered (s.cli.outcomes ++ [(f.kick, .result r)]) x.op := by
    intro hNe x hx hAns
    exact (answered_snoc_result.mp hAns).elim (hTail x hx) (hNe x hx)
  have hTailMem : ∀ x ∈ tail, x ∈ s.eng.taken ∧ x.stream = o := by
    intro x hx
    refine mem_takenOn.mp ?_
    rw [hSplit]
    exact List.mem_append_right _ hx
  rcases hRun.answered_message hr hf hOwn.symm with
    ⟨x, hx, hxOp, hStream, hPayload⟩ | ⟨hNone, hPayload⟩
  · rw [hPayload, receivedOn_append]
    by_cases hO : f.handle = o
    · -- the message that was outstanding on this stream
      have hMem : x ∈ tail := by
        have hAll : x ∈ takenOn s.eng.taken o := mem_takenOn.mpr ⟨hx, hStream.trans hO⟩
        rw [hSplit] at hAll
        refine (List.mem_append.mp hAll).resolve_left fun hBad => hOpen ?_
        rw [← hxOp]
        exact hDone x hBad
      obtain ⟨y, rfl⟩ : ∃ y, tail = [y] := by
        refine List.length_eq_one_iff.mp ?_
        have := List.length_pos_of_mem hMem
        omega
      obtain rfl := List.mem_singleton.mp hMem
      refine ⟨done ++ [x], [], by simpa using hSplit, ?_, ?_, by simp, by simp⟩
      · simp [hMsgs, receivedOn, hO]
      · intro y hy
        rcases List.mem_append.mp hy with hy | hy
        · exact hDone' y hy
        · obtain rfl := List.mem_singleton.mp hy
          exact answered_snoc_result.mpr (.inr hxOp)
    · refine ⟨done, tail, hSplit, by simp [hMsgs, receivedOn, hO], hDone', hOld ?_, hLen⟩
      intro y hy hEq
      obtain ⟨hyMem, hyStream⟩ := hTailMem y hy
      have hSame := List.inj_on_of_nodup_map hRun.took.nodup hyMem hx (hEq.trans hxOp.symm)
      rw [hSame, hStream] at hyStream
      exact hO hyStream
  · rw [hPayload, List.append_nil]
    exact ⟨done, tail, hSplit, hMsgs, hDone', hOld fun y hy => hNone y (hTailMem y hy).1, hLen⟩

theorem Run.flows (h : Run orderly s) : Flows s.eng.taken s.cli.received s.cli.outcomes := by
  refine h.induct (P := fun s => Flows s.eng.taken s.cli.received s.cli.outcomes)
    (fun o => ⟨[], [], by simp [takenOn, init, Engine.init], by simp [receivedOn, init, Cli.init],
      by simp, by simp, by simp⟩) ?_
  intro s a t hReach _ hFlows hOk hStep hChange
  have hRun : Run noStaleReuse s := Run.stale_free hReach
  cases hChange with
  | resume hOccupied hId hSettles =>
    exact hFlows.resume hRun (by simp [hOccupied]) hSettles.frame hId
  | timeout hSettles =>
    rw [Cli.resumed, answeredPayload_fail, List.append_nil]
    exact hFlows.giveUp (.inl rfl)
  | abort hSettles => exact hFlows.giveUp (.inr rfl)
  | goReturn hOp hRunning => exact hFlows.goReturn hRun (Run.unskipped hReach) hOp hRunning _
  | _ => exact hFlows

/-! ## Messages in order without gaps -/

/-- What Lua received from a stream is a prefix of what was taken off it. -/
def MessagesInOrder (s : State) : Prop :=
  ∀ o, receivedOn s.cli.received o <+: (takenOn s.eng.taken o).map Taken.msg

theorem messages_in_order (h : Run orderly s) : s.MessagesInOrder := by
  intro o
  obtain ⟨done, tail, hSplit, hMsgs, _⟩ := h.flows o
  rw [hSplit, List.map_append, hMsgs]
  exact List.prefix_append _ _

def receiveOne (k : Nat) (msg : Bytes) : List Action := [
  .recv 0 1 7 ⟨true, none, true, some (101 + k), none⟩,
  .goReturn k (.ok msg),
  .goReport k,
  .waitReturn,
  .threadTest,
  .threadEvent [] true,
  .postEvent,
  .drain,
  .drain]

theorem messages_in_order_receiveOne : ∃ s : State, s.cli.received = [⟨0, [5]⟩, ⟨0, []⟩] ∧
    s.MessagesInOrder := by
  have hRun := run_after orderly (openedStream ++ receiveOne 1 [5] ++ receiveOne 2 [])
    (by decide +kernel)
  exact ⟨_, by decide +kernel, messages_in_order hRun⟩

/-- A receive times out after its goroutine took the message; the next receive
returns the message after it. -/
theorem message_skipped : ∃ s, Reachable s ∧ ¬ s.MessagesInOrder := by
  have hRun := run_after (fun _ _ => True) (openedStream ++ [
    .recv 0 1 7 ⟨true, none, true, some 101, none⟩,
    .goReturn 1 (.ok [5]),
    .timer 1,
    .goReport 1,
    .waitReturn,
    .threadTest,
    .threadEvent [] true,
    .postEvent,
    .drain,
    .drain] ++ receiveOne 2 [6]) (by decide +kernel)
  refine ⟨_, hRun, fun hOrder => ?_⟩
  have hFirst := hOrder 0
  revert hFirst
  decide +kernel

end GrpcClient.State
