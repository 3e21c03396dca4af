import GrpcClient.GrpcCalls

/-! # Opens come first

Every goroutine follows the script of its operation. From that and from the
store of streams, no call reaches a stream before its open is complete, in any
run at all.
-/

namespace GrpcClient

open PartialMap

def GoOut.Ok (out : GoOut) : Prop := ∃ bytes, out = .ok bytes

def madeBy (calls : List Made) (k : Nat) : List (RpcCall × GoOut) :=
  (calls.filter fun m => decide (m.op = k)).map fun m => (m.call, m.out)

theorem madeBy_snoc (calls : List Made) (m : Made) :
    madeBy (calls ++ [m]) m.op = madeBy calls m.op ++ [(m.call, m.out)] := by
  simp [madeBy]

theorem madeBy_snoc_of_ne (calls : List Made) {m : Made} {k : Nat} (hNe : m.op ≠ k) :
    madeBy (calls ++ [m]) k = madeBy calls k := by
  simp [madeBy, hNe]

theorem mem_madeBy {calls : List Made} {k : Nat} {x : RpcCall × GoOut} :
    x ∈ madeBy calls k ↔ ∃ m ∈ calls, m.op = k ∧ (m.call, m.out) = x := by
  simp [madeBy, and_assoc]

theorem madeBy_eq_nil {calls : List Made} {k : Nat} (h : ∀ m ∈ calls, m.op ≠ k) :
    madeBy calls k = [] := by
  simpa [madeBy] using h

/-! ## The job of a goroutine -/

namespace State

variable {s t : State} {ok : State → Action → Prop}

theorem job_returned {k : Nat} {op : Op} (hOp : s.eng.ops k = some op) (out : GoOut) :
    ({ s with eng := s.eng.returned k op out } : State).job =
      Function.update s.job k (some ⟨op.kind, op.stream, false⟩) := by
  funext k'
  by_cases hEq : k' = k
  · subst hEq
    simp [job, Engine.returned, Op.job, out.phase_ne_running]
  · simp [job, Engine.returned, hEq]

theorem Kicks.job {f : Frame} {op : Op} (h : s.Kicks f op t) :
    t.job = Function.update s.job f.kick (some ⟨op.kind, op.stream, true⟩) := by
  funext k
  by_cases hEq : k = f.kick
  · subst hEq
    simp [State.job, h.ops, Op.job, h.running]
  · simp [State.job, h.ops, hEq]

theorem job_of_running {k : Nat} {op : Op} (hOp : s.eng.ops k = some op)
    (hRun : op.phase = .running) : s.job k = some ⟨op.kind, op.stream, true⟩ := by
  simp [job, hOp, Op.job, hRun]

theorem job_eq_some {k : Nat} {j : Job} (h : s.job k = some j) :
    ∃ op, s.eng.ops k = some op ∧ op.job = j := Option.map_eq_some_iff.mp h

theorem Run.job_lt (h : Run ok s) {k : Nat} {j : Job} (hj : s.job k = some j) :
    k < s.cli.nextKick := by
  obtain ⟨op, hOp, _⟩ := job_eq_some hj
  exact h.op_lt hOp

theorem Kicks.job_new {f : Frame} {op : Op} (h : s.Kicks f op t) (hRun : Run ok s) :
    s.job f.kick = none := by
  cases hj : s.job f.kick with
  | none => rfl
  | some j =>
    have hLt := hRun.job_lt hj
    rw [h.kick] at hLt
    exact absurd hLt (Nat.lt_irrefl _)

end State

namespace Grpc

open State (Keeps Kicks)
open Script (Follows)

variable {g g' : Grpc}

/-! ## Every goroutine follows its script -/

structure Followed (g : Grpc) : Prop where
  script : ∀ k j, g.st.job k = some j → ∃ req, g.reqs k = some req ∧
    Follows GoOut.Ok (j.kind.rpcCalls req) (madeBy g.calls k) (g.left k) j.running
  job : ∀ m ∈ g.calls, ∃ j, g.st.job m.op = some j ∧ j.stream = m.stream

theorem rpcCalls_ne_nil {kind : OpKind} {req : Request}
    (h : kind = .newStream → req.type ≠ .unary) : kind.rpcCalls req ≠ [] := by
  cases kind with
  | newStream =>
    have hType := h rfl
    unfold OpKind.rpcCalls Request.newStreamCalls
    cases hCode : req.type with
    | unary => exact absurd hCode hType
    | _ => simp [StreamType.code, Conn.streamDesc]
  | _ => simp [OpKind.rpcCalls, Request.recvCalls]

theorem request_type {st : State} {f : Frame} {op : Op} (h : g.st.Kicks f op st) (method : String)
    (data : Bytes) (hNew : f.op = .newStream) : (g.request st f op method data).type ≠ .unary := by
  obtain ⟨_, sc, hsc, hType⟩ := h.opens (by rw [hNew]; rfl)
  intro hUnary
  simp only [request, hNew, OpKind.onStream, hsc] at hUnary
  have hCall := hType.mp hUnary
  rw [hNew] at hCall
  cases hCall

theorem Followed.calls_lt (h : g.Followed) {ok : State → GrpcClient.Action → Prop}
    (hRun : State.Run ok g.st) {m : Made} (hm : m ∈ g.calls) : m.op < g.st.cli.nextKick := by
  obtain ⟨j, hj, _⟩ := h.job m hm
  exact hRun.job_lt hj

/-- What the next call of a running goroutine does to the log. -/
theorem Followed.record (h : g.Followed) {k : Nat} {op : Op} {c : RpcCall} {cs : List RpcCall}
    {out : GoOut} {job : Nat → Option Job} {run : Bool} (hOp : g.st.eng.ops k = some op)
    (hRun : op.phase = .running) (hLeft : g.left k = c :: cs)
    (hJob : job = Function.update g.st.job k (some ⟨op.kind, op.stream, run⟩))
    (hNext : ∀ script made, Follows GoOut.Ok script made (c :: cs) true →
      Follows GoOut.Ok script (made ++ [(c, out)]) cs run) :
    (∀ k' j, job k' = some j → ∃ req, g.reqs k' = some req ∧
      Follows GoOut.Ok (j.kind.rpcCalls req) (madeBy (g.record k op c cs out).calls k')
        ((g.record k op c cs out).left k') j.running) ∧
    ∀ m ∈ (g.record k op c cs out).calls, ∃ j, job m.op = some j ∧ j.stream = m.stream := by
  have hOld := State.job_of_running hOp hRun
  rw [hJob]
  constructor
  · intro k' j hj
    obtain ⟨rfl, rfl⟩ | ⟨hNe, hj⟩ := update_some_iff.mp hj
    · obtain ⟨req, hReq, hFollows⟩ := h.script k' _ hOld
      rw [hLeft] at hFollows
      refine ⟨req, hReq, ?_⟩
      have hMade := madeBy_snoc g.calls ⟨k', op.stream, c, out⟩
      simp only [Grpc.record, Function.update_self]
      rw [hMade]
      exact hNext _ _ hFollows
    · obtain ⟨req, hReq, hFollows⟩ := h.script k' j hj
      refine ⟨req, hReq, ?_⟩
      simp only [Grpc.record, Function.update_of_ne hNe]
      rw [madeBy_snoc_of_ne g.calls (Ne.symm hNe)]
      exact hFollows
  · intro m hm
    obtain hm | hm := List.mem_append.mp hm
    · obtain ⟨j, hj, hStream⟩ := h.job m hm
      by_cases hEq : m.op = k
      · rw [hEq, hOld] at hj
        cases hj
        exact ⟨⟨op.kind, op.stream, run⟩, by rw [hEq, Function.update_self], hStream⟩
      · exact ⟨j, update_of_some hj hEq, hStream⟩
    · obtain rfl := List.mem_singleton.mp hm
      exact ⟨_, Function.update_self .., rfl⟩

theorem Followed.keeps (h : g.Followed) {st : State} (hKeeps : g.st.Keeps st) :
    ({ g with st } : Grpc).Followed := by
  constructor
  · intro k j hj
    rw [hKeeps.job] at hj
    exact h.script k j hj
  · intro m hm
    rw [hKeeps.job]
    exact h.job m hm

/-- A goroutine that starts has all its calls before it. -/
theorem Followed.kicks (h : g.Followed) {ok : State → GrpcClient.Action → Prop}
    (hRun : State.Run ok g.st) {st : State} {f : Frame} {op : Op} (hKicks : g.st.Kicks f op st)
    {req : Request} (hType : f.op = .newStream → req.type ≠ .unary) :
    ({ g with
      st
      reqs := Function.update g.reqs f.kick (some req)
      left := Function.update g.left f.kick (op.kind.rpcCalls req) } : Grpc).Followed := by
  constructor
  · intro k j hj
    rw [hKicks.job] at hj
    obtain ⟨rfl, rfl⟩ | ⟨hNe, hj⟩ := update_some_iff.mp hj
    · refine ⟨req, Function.update_self .., ?_⟩
      have hMade : madeBy g.calls f.kick = [] := by
        apply madeBy_eq_nil
        intro m hm
        have := h.calls_lt hRun hm
        have := hKicks.kick
        omega
      simp only [hMade, Function.update_self]
      apply Follows.start
      apply rpcCalls_ne_nil
      rw [hKicks.kind]
      exact hType
    · obtain ⟨req', hReq, hFollows⟩ := h.script k j hj
      exact ⟨req', update_of_some hReq hNe, by simpa only [Function.update_of_ne hNe]⟩
  · intro m hm
    obtain ⟨j, hj, hStream⟩ := h.job m hm
    refine ⟨j, ?_, hStream⟩
    rw [hKicks.job]
    apply update_of_some hj
    intro hEq
    rw [hEq, hKicks.job_new hRun] at hj
    cases hj

section Runs

variable {ok : State → GrpcClient.Action → Prop} (hOk : Returns ok)

include hOk

theorem Run.followed (h : Run (onWorker ok) g) : g.Followed := by
  apply h.induct hOk (P := Followed)
  · exact ⟨by simp [Grpc.init, State.job, State.init, Engine.init], by simp [Grpc.init]⟩
  intro g a g' _ hRun hF _ hChange
  cases hChange with
  | keeps hStep hKeeps => exact hF.keeps hKeeps
  | kicks hStep hOffered hKicks => exact hF.kicks hRun hKicks (request_type hKicks _ _)
  | @more k op c c' cs bytes hOp hRunning hLeft =>
    have hJob : g.st.job = Function.update g.st.job k (some ⟨op.kind, op.stream, true⟩) := by
      rw [← State.job_of_running hOp hRunning, Function.update_eq_self]
    obtain ⟨hScript, hCalls⟩ := hF.record hOp hRunning hLeft hJob
      fun _ _ hFollows => hFollows.more ⟨_, rfl⟩
    exact ⟨hScript, hCalls⟩
  | @last k op c cs out hOp hRunning hLeft hEnd =>
    have hJob := State.job_returned hOp (s := g.st)
    have hNext : ∀ script made, Follows GoOut.Ok script made (c :: cs) true →
        Follows GoOut.Ok script (made ++ [(c, out)]) cs false := by
      intro script made hFollows
      apply hFollows.last
      rintro ⟨bytes, hOut⟩
      exact hEnd bytes hOut
    obtain ⟨hScript, hCalls⟩ := hF.record hOp hRunning hLeft (hJob _) hNext
    exact ⟨hScript, hCalls⟩

end Runs

/-! ## The open comes first -/

/-- Stream `o` was opened without an error, and its open makes no more calls. -/
structure Opened (g : Grpc) (o : Nat) : Prop where
  job : g.st.job o = some ⟨.newStream, o, false⟩
  made : ∃ req, g.reqs o = some req ∧ (madeBy g.calls o).map Prod.fst = req.newStreamCalls
  ok : ∀ x ∈ madeBy g.calls o, x.2.Ok

theorem Opened.congr {o : Nat} (h : g.Opened o) (hJob : g'.st.job o = g.st.job o)
    (hReqs : g'.reqs o = g.reqs o) (hMade : madeBy g'.calls o = madeBy g.calls o) :
    g'.Opened o := by
  constructor
  · rw [hJob]
    exact h.job
  · rw [hReqs, hMade]
    exact h.made
  · rw [hMade]
    exact h.ok

theorem Opened.not_running {o k : Nat} {op : Op} (h : g.Opened o)
    (hOp : g.st.eng.ops k = some op) (hRun : op.phase = .running) : k ≠ o := by
  rintro rfl
  have hJob := State.job_of_running hOp hRun
  rw [h.job] at hJob
  exact absurd (congrArg (Option.map Job.running) hJob) (by simp)

/-- An open that is complete stays as it is. -/
theorem Opened.step {o : Nat} (h : g.Opened o) {ok : State → GrpcClient.Action → Prop}
    (hRun : State.Run ok g.st) {a : Action} (hChange : g.Change a g') : g'.Opened o := by
  cases hChange with
  | keeps hStep hKeeps => exact h.congr (by rw [hKeeps.job]) rfl rfl
  | @kicks a method data st f op hStep hOffered hKicks =>
    have hNe : o ≠ f.kick := by
      rintro rfl
      have hNew := hKicks.job_new hRun
      rw [h.job] at hNew
      cases hNew
    apply h.congr
    · rw [hKicks.job, Function.update_of_ne hNe]
    · exact Function.update_of_ne hNe _ _
    · rfl
  | @more k op c c' cs bytes hOp hRunning hLeft =>
    have hNe := h.not_running hOp hRunning
    exact h.congr rfl rfl (madeBy_snoc_of_ne _ hNe)
  | @last k op c cs out hOp hRunning hLeft hEnd =>
    have hNe := h.not_running hOp hRunning
    apply h.congr
    · rw [State.job_returned hOp, Function.update_of_ne hNe.symm]
    · rfl
    · exact madeBy_snoc_of_ne _ hNe

/-- A successful open is complete. -/
theorem Followed.opened (h : g.Followed) {k : Nat} {op : Op} {c : RpcCall} {cs : List RpcCall}
    {bytes : Bytes} (hOp : g.st.eng.ops k = some op) (hRun : op.phase = .running)
    (hLeft : g.left k = c :: cs) (hEnd : cs = []) (hNew : op.kind = .newStream)
    (hStream : op.stream = k) :
    Opened { g.record k op c cs (.ok bytes) with
      st := { g.st with eng := g.st.eng.returned k op (.ok bytes) } } k := by
  obtain ⟨req, hReq, hFollows⟩ := h.script k _ (State.job_of_running hOp hRun)
  rw [hLeft] at hFollows
  have hMade := madeBy_snoc g.calls ⟨k, op.stream, c, .ok bytes⟩
  have hAll : ∀ x ∈ madeBy g.calls k ++ [(c, .ok bytes)], x.2.Ok := by
    intro x hx
    obtain hx | hx := List.mem_append.mp hx
    · exact hFollows.ok_of_running x hx
    · rw [List.mem_singleton.mp hx]
      exact ⟨bytes, rfl⟩
  have hDone := (hFollows.last fun _ => hEnd).complete hAll rfl
  constructor
  · rw [State.job_returned hOp, Function.update_self, hNew, hStream]
  · refine ⟨req, hReq, ?_⟩
    simp only [Grpc.record]
    rw [hMade, hDone, hNew]
    rfl
  · simp only [Grpc.record]
    rw [hMade]
    exact hAll

def OpenBefore (g : Grpc) (pre : List Made) (o : Nat) : Prop :=
  ∃ req, g.reqs o = some req ∧ (madeBy pre o).map Prod.fst = req.newStreamCalls ∧
    ∀ x ∈ madeBy pre o, x.2.Ok

structure OpensFirst (g : Grpc) : Prop where
  ref : ∀ p o, g.st.eng.streamRef p = some o → g.Opened o
  onStream : ∀ k j, g.st.job k = some j → j.kind.onStream = true → g.Opened j.stream
  own : ∀ k j, g.st.job k = some j → j.kind.onStream = false → j.stream = k
  later : ∀ k j, g.st.job k = some j → j.kind.onStream = true → j.stream < k
  order : ∀ pre m post, g.calls = pre ++ m :: post → m.op ≠ m.stream → g.OpenBefore pre m.stream

theorem OpensFirst.job_update (h : g.OpensFirst) {k : Nat} {op : Op} {run : Bool}
    (hOp : g.st.eng.ops k = some op) {k' : Nat} {j : Job}
    (hj : Function.update g.st.job k (some ⟨op.kind, op.stream, run⟩) k' = some j) :
    (j.kind.onStream = true → g.Opened j.stream ∧ j.stream < k') ∧
      (j.kind.onStream = false → j.stream = k') := by
  obtain ⟨rfl, rfl⟩ | ⟨_, hj⟩ := update_some_iff.mp hj
  · have hOld : g.st.job k' = some op.job := by simp [State.job, hOp]
    exact ⟨fun hOn => ⟨h.onStream k' op.job hOld hOn, h.later k' op.job hOld hOn⟩,
      h.own k' op.job hOld⟩
  · exact ⟨fun hOn => ⟨h.onStream k' j hj hOn, h.later k' j hj hOn⟩, h.own k' j hj⟩

/-- The next call of a running goroutine keeps the order. -/
theorem OpensFirst.record (h : g.OpensFirst) {k : Nat} {op : Op} {c : RpcCall}
    {out : GoOut} (hOp : g.st.eng.ops k = some op) {pre post : List Made} {m : Made}
    (hSplit : g.calls ++ [⟨k, op.stream, c, out⟩] = pre ++ m :: post)
    (hNe : m.op ≠ m.stream) : g.OpenBefore pre m.stream := by
  obtain rfl | ⟨post, x, rfl⟩ := List.eq_nil_or_concat' post
  · obtain ⟨rfl, hLast⟩ := List.append_inj' hSplit rfl
    cases hLast
    have hOld : g.st.job k = some op.job := by simp [State.job, hOp]
    have hOn : op.kind.onStream = true := by
      by_contra hOff
      exact hNe (h.own k op.job hOld (by simpa [Op.job] using hOff)).symm
    have hOpened := h.onStream k op.job hOld hOn
    obtain ⟨req, hReq, hMade⟩ := hOpened.made
    exact ⟨req, hReq, hMade, hOpened.ok⟩
  · rw [← List.cons_append, ← List.append_assoc] at hSplit
    obtain ⟨hSplit, _⟩ := List.append_inj' hSplit rfl
    exact h.order pre m post hSplit hNe

theorem OpensFirst.opened (h : g.OpensFirst) (hF : g.Followed) {m : Made} (hm : m ∈ g.calls)
    (hNe : m.op ≠ m.stream) : g.Opened m.stream := by
  obtain ⟨j, hj, hStream⟩ := hF.job m hm
  cases hOn : j.kind.onStream with
  | true =>
    rw [← hStream]
    exact h.onStream m.op j hj hOn
  | false => exact absurd ((h.own m.op j hj hOn).symm.trans hStream) hNe

theorem OpensFirst.keeps (h : g.OpensFirst) {st : State} (hKeeps : g.st.Keeps st)
    (hStep : ∀ o, g.Opened o → ({ g with st } : Grpc).Opened o) :
    ({ g with st } : Grpc).OpensFirst := by
  constructor
  · exact fun p o hRef => hStep o (h.ref p o (hKeeps.streamRef p o hRef))
  · intro k j hj hOn
    rw [hKeeps.job] at hj
    exact hStep _ (h.onStream k j hj hOn)
  · intro k j hj hOff
    rw [hKeeps.job] at hj
    exact h.own k j hj hOff
  · intro k j hj hOn
    rw [hKeeps.job] at hj
    exact h.later k j hj hOn
  · exact h.order

/-- An operation starts on a stream that the store has. -/
theorem OpensFirst.kicks (h : g.OpensFirst) (hF : g.Followed)
    {ok : State → GrpcClient.Action → Prop} (hRun : State.Run ok g.st) {st : State} {f : Frame}
    {op : Op} (hKicks : g.st.Kicks f op st) {req : Request} {left : Nat → List RpcCall}
    (hg' : g' = { g with st, reqs := Function.update g.reqs f.kick (some req), left })
    (hStep : ∀ o, g.Opened o → g'.Opened o) : g'.OpensFirst := by
  subst hg'
  constructor
  · intro p o hRef
    rw [hKicks.streamRef] at hRef
    exact hStep o (h.ref p o hRef)
  · intro k j hj hOn
    rw [hKicks.job] at hj
    obtain ⟨rfl, rfl⟩ | ⟨_, hj⟩ := update_some_iff.mp hj
    · rw [hKicks.kind] at hOn
      exact hStep _ (h.ref _ _ (hKicks.onStream hOn))
    · exact hStep _ (h.onStream k j hj hOn)
  · intro k j hj hOff
    rw [hKicks.job] at hj
    obtain ⟨rfl, rfl⟩ | ⟨_, hj⟩ := update_some_iff.mp hj
    · rw [hKicks.kind] at hOff
      exact (hKicks.opens hOff).1
    · exact h.own k j hj hOff
  · intro k j hj hOn
    rw [hKicks.job] at hj
    obtain ⟨rfl, rfl⟩ | ⟨_, hj⟩ := update_some_iff.mp hj
    · rw [hKicks.kind] at hOn
      have hLt := hRun.job_lt (h.ref _ _ (hKicks.onStream hOn)).job
      rw [hKicks.kick]
      exact hLt
    · exact h.later k j hj hOn
  · intro pre m post hSplit hNe
    obtain ⟨req', hReq, hBefore⟩ := h.order pre m post hSplit hNe
    have hCalls : g.calls = pre ++ m :: post := hSplit
    have hOpened := h.opened hF (m := m) (by simp [hCalls]) hNe
    refine ⟨req', update_of_some hReq ?_, hBefore⟩
    intro hEq
    have hJob := hOpened.job
    rw [hEq, hKicks.job_new hRun] at hJob
    cases hJob

section Runs

variable {ok : State → GrpcClient.Action → Prop} (hOk : Returns ok)

include hOk

theorem Run.opensFirst (h : Run (onWorker ok) g) : g.OpensFirst := by
  apply h.induct hOk (P := OpensFirst)
  · constructor <;> simp [Grpc.init, State.job, State.init, Engine.init]
  intro g a g' hReach hRun hFirst _ hChange
  have hF := Run.followed hOk hReach
  have hStep : ∀ o, g.Opened o → g'.Opened o := fun _ hOpened => hOpened.step hRun hChange
  cases hChange with
  | keeps _ hKeeps => exact hFirst.keeps hKeeps hStep
  | kicks _ hOffered hKicks => exact hFirst.kicks hF hRun hKicks rfl hStep
  | more hOp hRunning hLeft =>
    constructor
    · exact fun p o hRef => hStep o (hFirst.ref p o hRef)
    · exact fun k j hj hOn => hStep _ (hFirst.onStream k j hj hOn)
    · exact hFirst.own
    · exact hFirst.later
    · exact fun pre m post hSplit hNe => hFirst.record hOp hSplit hNe
  | @last k op c cs out hOp hRunning hLeft hEnd =>
    have hJob := State.job_returned hOp (s := g.st)
    constructor
    · intro p o hRef
      obtain ⟨hNew, ⟨bytes, rfl⟩, hStore⟩ | ⟨_, hStore⟩ :=
        State.streamRef_returned out g.st.eng.streamRef k op
      · simp only [Engine.returned, hStore] at hRef
        obtain ⟨rfl, rfl⟩ | ⟨_, hRef⟩ := update_some_iff.mp hRef
        · apply hF.opened hOp hRunning hLeft (hEnd bytes rfl) hNew
          exact hFirst.own k _ (State.job_of_running hOp hRunning) (by simp [hNew, OpKind.onStream])
        · exact hStep o (hFirst.ref p o hRef)
      · simp only [Engine.returned, hStore] at hRef
        exact hStep o (hFirst.ref p o hRef)
    · intro k' j hj hOn
      rw [hJob] at hj
      exact hStep _ ((hFirst.job_update hOp hj).1 hOn).1
    · intro k' j hj hOff
      rw [hJob] at hj
      exact (hFirst.job_update hOp hj).2 hOff
    · intro k' j hj hOn
      rw [hJob] at hj
      exact ((hFirst.job_update hOp hj).1 hOn).2
    · exact fun pre m post hSplit hNe => hFirst.record hOp hSplit hNe

end Runs

/-- The open of stream `o` made all its calls before `post`, none of them failed,
and it makes none in `post`. -/
def OpenComplete (g : Grpc) (pre post : List Made) (o : Nat) : Prop :=
  ∃ req, g.reqs o = some req ∧
    (pre.filter fun x => decide (x.op = o)).map Made.call = req.newStreamCalls ∧
    (∀ x ∈ pre, x.op = o → x.out.Ok) ∧ ∀ x ∈ post, x.op ≠ o

/-- No call reaches a stream before its open is complete. -/
theorem opens_first (h : Reachable g) {pre post : List Made} {m : Made}
    (hSplit : g.calls = pre ++ m :: post) (hNe : m.op ≠ m.stream) :
    g.OpenComplete pre post m.stream := by
  have hRun : Run (onWorker fun _ _ => True) g := h.mono fun g a _ _ _ _ => by
    cases a <;> trivial
  have hFirst := hRun.opensFirst returns_true
  have hOpened := hFirst.opened (hRun.followed returns_true) (m := m) (by simp [hSplit]) hNe
  obtain ⟨req, hReq, hBefore, hOk⟩ := hFirst.order pre m post hSplit hNe
  obtain ⟨req', hReq', hMade⟩ := hOpened.made
  rw [hReq] at hReq'
  cases hReq'
  have hMap : (madeBy pre m.stream).map Prod.fst =
      (pre.filter fun x => decide (x.op = m.stream)).map Made.call := by
    simp [madeBy]
  refine ⟨req, hReq, hMap.symm.trans hBefore, ?_, ?_⟩
  · intro x hx hOp
    exact hOk (x.call, x.out) (mem_madeBy.mpr ⟨x, hx, hOp, rfl⟩)
  · -- the calls of the open are already all before this one
    have hLater : (madeBy (m :: post) m.stream).map Prod.fst = [] := by
      have hAll : madeBy g.calls m.stream = madeBy pre m.stream ++ madeBy (m :: post) m.stream := by
        simp [hSplit, madeBy]
      rw [hAll, List.map_append, hBefore] at hMade
      exact List.append_right_eq_self.mp hMade
    intro x hx hOp
    have hMem : (x.call, x.out) ∈ madeBy (m :: post) m.stream :=
      mem_madeBy.mpr ⟨x, List.mem_cons_of_mem m hx, hOp, rfl⟩
    rw [List.map_eq_nil_iff.mp hLater] at hMem
    cases hMem

/-- The event loop takes the report of operation `k`. -/
def handOver (k : Nat) : List Action :=
  [GrpcClient.Action.goReport k, .waitReturn, .threadTest, .threadEvent [] true, .postEvent, .drain,
    .drain].map fun a => .worker a "" []

/-- A client stream is opened, sends one more message and is asked for the answer. -/
def sumStream : List Action :=
  [.worker (.connect (some 1) (.ok []) 50) "" [],
    .worker (.newStream 0 1 7 true .clientStream ⟨true, none, true, some 100, some 10⟩)
      "/calc.Calc/Sum" [1],
    .rpc 0 (.ok []), .rpc 0 (.ok [])] ++ handOver 0 ++
  [.worker (.send 0 1 7 ⟨true, none, true, some 101, none⟩) "" [2], .rpc 1 (.ok [])] ++
  handOver 1 ++
  [.worker (.recv 0 1 7 ⟨true, none, true, some 102, none⟩) "" [], .rpc 2 (.ok []),
    .rpc 2 (.ok [3])]

theorem sumStream_runs : (after (fun _ _ => True) sumStream).isSome := by decide +kernel

theorem opens_first_sumStream : ∃ g : Grpc, ∃ pre post,
    g.calls = pre ++ ⟨1, 0, .sendMsg [2], .ok []⟩ :: post ∧ g.OpenComplete pre post 0 := by
  have hSplit : ((after (fun _ _ => True) sumStream).get sumStream_runs).calls =
      [⟨0, 0, .newStream ⟨true, false⟩ "/calc.Calc/Sum", .ok []⟩, ⟨0, 0, .sendMsg [1], .ok []⟩] ++
        ⟨1, 0, .sendMsg [2], .ok []⟩ ::
          [⟨2, 0, .closeSend, .ok []⟩, ⟨2, 0, .recvMsg, .ok [3]⟩] := by
    decide +kernel
  exact ⟨_, _, _, hSplit, opens_first (run_after _ _ sumStream_runs) hSplit (by decide)⟩

end Grpc

end GrpcClient
