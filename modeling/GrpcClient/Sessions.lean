import GrpcClient.CallSequence

/-! # Streams as sessions

What grpc-go may expect of the calls on a stream, as a machine for each type of
stream. A client stream is asked for its message only right after it was closed
for sending, a server stream is sent its request and nothing more, and a stream
whose open failed is left alone.
-/

namespace GrpcClient

open PartialMap

inductive Session
  | fresh
  | opening
  | requested
  | ready
  | halfClosed
  | failed
deriving DecidableEq, Repr

def GoOut.branch (out : GoOut) (good bad : Session) : Session :=
  match out with
  | .ok _ => good
  | .err _ | .panic _ => bad

def StreamType.next (type : StreamType) : Session → RpcCall × GoOut → Option Session
  | .fresh, (.newStream desc _, out) =>
    if desc = ⟨decide (type ≠ .serverStream), decide (type ≠ .clientStream)⟩
    then some (out.branch .opening .failed) else none
  | .opening, (.sendMsg _, out) =>
    some (out.branch (if type = .serverStream then .requested else .ready) .failed)
  | .requested, (.closeSend, out) => some (out.branch .ready .failed)
  | .ready, (.sendMsg _, _) => if type = .serverStream then none else some .ready
  | .ready, (.closeSend, out) =>
    match type with
    | .clientStream => some (out.branch .halfClosed .ready)
    | .bidirectionalStream => some .ready
    | _ => none
  | .ready, (.recvMsg, _) =>
    match type with
    | .serverStream | .bidirectionalStream => some .ready
    | _ => none
  | .halfClosed, (.recvMsg, _) => some .ready
  | _, _ => none

namespace Grpc

open State (Keeps Kicks noStaleReuse)
open Script (Follows)

variable {g g' : Grpc}

/-! ## The types of the operations -/

/-- An operation on a stream is offered by the type that its stream was opened
with, and it runs with that type. -/
def Typed (g : Grpc) : Prop :=
  ∀ k j, g.st.job k = some j → j.kind.onStream = true → ∃ req opener,
    g.reqs k = some req ∧ g.reqs j.stream = some opener ∧ req.type = opener.type ∧
      opener.type.offers j.kind = true

theorem Run.typed_new (h : Run (onWorker noStaleReuse) g) {a : GrpcClient.Action}
    {method : String} {data : Bytes} {st : State} {f : Frame} {op : Op}
    (hA : onWorker noStaleReuse g (.worker a method data)) (hStep : g.st.step a = .ok st)
    (hOffered : g.offered a) (hKicks : g.st.Kicks f op st) (hOn : op.kind.onStream = true) :
    ∃ opener, g.reqs op.stream = some opener ∧ (∃ j, g.st.job op.stream = some j) ∧
      (g.request st f op method data).type = opener.type ∧ opener.type.offers op.kind = true := by
  have hRun := Run.worker returns_noStaleReuse h
  have hOnF : f.op.onStream = true := by
    rw [← hKicks.kind]
    exact hOn
  have hOpened := (Run.opensFirst returns_noStaleReuse h).ref _ _ (hKicks.onStream hOnF)
  obtain ⟨opener, hOpener, _⟩ := hOpened.made
  have hNext : State.Run noStaleReuse st := hRun.tail hA hStep
  have hHandle : op.stream = f.handle := by
    apply hNext.fresh_opens.op_stream (k := f.kick) _ _ hOnF
    · rw [hKicks.ops, Function.update_self]
    · rw [hKicks.kicks, Function.update_self]
  have hOff : g.st.kickOff a = some f := by
    simp [State.kickOff, hStep, hKicks.kicks, ← hKicks.kick]
  have hOffers := hOffered f hOff hOnF
  have hType : g.typeOf op.stream = opener.type := by simp [typeOf, hOpener]
  refine ⟨opener, hOpener, ⟨_, hOpened.job⟩, ?_, ?_⟩
  · simp only [request, hOnF, if_true]
    exact hType
  · rw [← hHandle, hType, ← hKicks.kind] at hOffers
    exact hOffers

theorem Run.typed (h : Run (onWorker noStaleReuse) g) : g.Typed := by
  apply h.induct returns_noStaleReuse (P := Typed)
  · intro k j hj
    cases hj
  intro g a g' hReach hRun hTyped hA hChange
  cases hChange with
  | keeps hStep hKeeps =>
    intro k j hj
    rw [hKeeps.job] at hj
    exact hTyped k j hj
  | @kicks a method data st f op hStep hOffered hKicks =>
    intro k j hj hOn
    rw [hKicks.job] at hj
    have hOld : ∀ {o : Nat} {req : Request}, (∃ j, g.st.job o = some j) → g.reqs o = some req →
        Function.update g.reqs f.kick (some (g.request st f op method data)) o = some req := by
      rintro o req ⟨j, hj⟩ hReq
      apply update_of_some hReq
      rintro rfl
      rw [hKicks.job_new hRun] at hj
      cases hj
    obtain ⟨rfl, rfl⟩ | ⟨_, hBefore⟩ := update_some_iff.mp hj
    · obtain ⟨opener, hOpener, hJob, hType, hOffers⟩ :=
        Run.typed_new hReach hA hStep hOffered hKicks hOn
      exact ⟨_, opener, Function.update_self .., hOld hJob hOpener, hType, hOffers⟩
    · obtain ⟨req, opener, hReq, hOpener, hRest⟩ := hTyped k j hBefore hOn
      have hOpened := (Run.opensFirst returns_noStaleReuse hReach).onStream k j hBefore hOn
      exact ⟨req, opener, hOld ⟨j, hBefore⟩ hReq, hOld ⟨_, hOpened.job⟩ hOpener, hRest⟩
  | more => exact hTyped
  | @last k₀ op c cs out hOp hRunning hLeft hEnd =>
    intro k j hj hOn
    rw [State.job_returned hOp] at hj
    obtain ⟨rfl, rfl⟩ | ⟨_, hBefore⟩ := update_some_iff.mp hj
    · exact hTyped k ⟨op.kind, op.stream, true⟩ (State.job_of_running hOp hRunning) hOn
    · exact hTyped k j hBefore hOn

/-! ## Every operation is a piece of a session -/

section Blocks

variable {type : StreamType} {made : List (RpcCall × GoOut)} {left : List RpcCall} {run : Bool}

/-- An operation that the type offers takes the session from `ready` back to
`ready`. -/
theorem session_operation {kind : OpKind} {req : Request} (hType : req.type = type)
    (hOffers : type.offers kind = true)
    (h : Follows GoOut.Ok (kind.rpcCalls req) made left run) :
    ∃ s, made.foldlM type.next .ready = some s ∧ (run = false → s = .ready) := by
  cases kind with
  | call => cases type <;> cases hOffers
  | newStream => cases type <;> cases hOffers
  | send =>
    obtain ⟨rfl, rfl⟩ | ⟨out, rfl, rfl⟩ := h.one
    · exact ⟨.ready, rfl, fun _ => rfl⟩
    · cases type <;> first | exact ⟨.ready, rfl, fun _ => rfl⟩ | cases hOffers
  | closeSend =>
    obtain ⟨rfl, rfl⟩ | ⟨out, rfl, rfl⟩ := h.one
    · exact ⟨.ready, rfl, fun _ => rfl⟩
    · cases type <;> first | exact ⟨.ready, rfl, fun _ => rfl⟩ | cases hOffers
  | recv =>
    by_cases hClient : type = .clientStream
    · subst hClient
      simp only [OpKind.rpcCalls, Request.recvCalls, hType, if_true, List.singleton_append] at h
      -- `recv_close`: half-close and receive, or stop at the half-close
      obtain ⟨rfl, rfl⟩ | ⟨out, made, rfl, ⟨rfl, rfl, hEnd⟩ | ⟨⟨bytes, rfl⟩, hRest⟩⟩ := h.uncons
      · exact ⟨.ready, rfl, fun _ => rfl⟩
      · cases out with
        | ok bytes => cases hEnd ⟨bytes, rfl⟩
        | err text => exact ⟨.ready, rfl, fun _ => rfl⟩
        | panic text => exact ⟨.ready, rfl, fun _ => rfl⟩
      · obtain ⟨rfl, rfl⟩ | ⟨out, rfl, rfl⟩ := hRest.one
        · exact ⟨.halfClosed, rfl, by simp⟩
        · exact ⟨.ready, rfl, fun _ => rfl⟩
    · simp only [OpKind.rpcCalls, Request.recvCalls, hType, if_neg hClient, List.nil_append] at h
      obtain ⟨rfl, rfl⟩ | ⟨out, rfl, rfl⟩ := h.one
      · exact ⟨.ready, rfl, fun _ => rfl⟩
      · cases type with
        | serverStream | bidirectionalStream => exact ⟨.ready, rfl, fun _ => rfl⟩
        | clientStream => exact absurd rfl hClient
        | unary => cases hOffers

theorem newStreamCalls_eq {req : Request} (hType : req.type ≠ .unary) : req.newStreamCalls =
    .newStream ⟨decide (req.type ≠ .serverStream), decide (req.type ≠ .clientStream)⟩ req.method ::
      .sendMsg req.data :: if req.type = .serverStream then [.closeSend] else [] := by
  obtain ⟨type, method, data⟩ := req
  cases type with
  | unary => exact absurd rfl hType
  | _ => rfl

theorem session_open {req : Request} (hType : req.type ≠ .unary)
    (h : Follows GoOut.Ok req.newStreamCalls made left run) :
    ∃ s, made.foldlM req.type.next .fresh = some s ∧
      (made.map Prod.fst = req.newStreamCalls → (∀ x ∈ made, x.2.Ok) → s = .ready) := by
  have hOpen : ∀ (out : GoOut) (rest : List (RpcCall × GoOut)),
      ((RpcCall.newStream ⟨decide (req.type ≠ .serverStream), decide (req.type ≠ .clientStream)⟩
        req.method, out) :: rest).foldlM req.type.next .fresh =
      rest.foldlM req.type.next (out.branch .opening .failed) := by
    simp [StreamType.next]
  rw [newStreamCalls_eq hType] at h ⊢
  obtain ⟨rfl, rfl⟩ | ⟨out, made, rfl, hSend⟩ := h.uncons
  · exact ⟨.fresh, rfl, fun hAll => by cases hAll⟩
  rw [hOpen]
  obtain ⟨rfl, rfl, _⟩ | ⟨⟨bytes, rfl⟩, hSend⟩ := hSend
  · exact ⟨_, rfl, fun hAll => by cases hAll⟩
  obtain ⟨rfl, rfl⟩ | ⟨out, made, rfl, hClose⟩ := hSend.uncons
  · exact ⟨.opening, rfl, fun hAll => by cases hAll⟩
  by_cases hServer : req.type = .serverStream
  · simp only [if_pos hServer] at hClose ⊢
    rw [hServer]
    obtain ⟨rfl, rfl, _⟩ | ⟨⟨bytes', rfl⟩, hClose⟩ := hClose
    · exact ⟨_, rfl, fun hAll => by cases hAll⟩
    · obtain ⟨rfl, rfl⟩ | ⟨out, rfl, rfl⟩ := hClose.one
      · exact ⟨.requested, rfl, fun hAll => by cases hAll⟩
      · refine ⟨_, rfl, fun _ hOk => ?_⟩
        obtain ⟨bytes'', rfl⟩ := hOk (.closeSend, out) (by simp)
        rfl
  · simp only [if_neg hServer] at hClose ⊢
    obtain ⟨rfl, rfl, _⟩ | ⟨_, hRest⟩ := hClose
    · refine ⟨out.branch .ready .failed, by simp [StreamType.next, GoOut.branch, hServer], ?_⟩
      intro _ hOk
      obtain ⟨bytes', rfl⟩ := hOk (.sendMsg req.data, out) (by simp)
      rfl
    · exact absurd rfl hRest.script_ne_nil

end Blocks

/-! ## Every stream is a session -/

theorem opsOn_open (h : Run (onWorker noStaleReuse) g) {o : Nat} {j : Job}
    (hj : g.st.job o = some j) (hNew : j.kind = .newStream) :
    ∃ ks, g.opsOn o = o :: ks ∧ ∀ k ∈ ks, ∃ j', g.st.job k = some j' ∧ j'.stream = o ∧
      j'.kind.onStream = true := by
  have hRun := Run.worker returns_noStaleReuse h
  have hFirst := Run.opensFirst returns_noStaleReuse h
  have hOwn := hFirst.own o j hj (by rw [hNew]; rfl)
  have hMem : o ∈ g.opsOn o := (mem_opsOn hRun).mpr ⟨j, hj, hOwn⟩
  have hSorted : (g.opsOn o).Pairwise (· < ·) := List.pairwise_lt_range.filter _
  have hLe : ∀ k ∈ g.opsOn o, ∃ j', g.st.job k = some j' ∧ j'.stream = o ∧
      (j'.kind.onStream = true ∨ k = o) ∧ o ≤ k := by
    intro k hk
    obtain ⟨j', hj', hStream⟩ := (mem_opsOn hRun).mp hk
    cases hOn : j'.kind.onStream with
    | true =>
      have := hFirst.later k j' hj' hOn
      exact ⟨j', hj', hStream, .inl hOn, by omega⟩
    | false =>
      have := hFirst.own k j' hj' hOn
      exact ⟨j', hj', hStream, .inr (by omega), by omega⟩
  cases hOps : g.opsOn o with
  | nil =>
    rw [hOps] at hMem
    cases hMem
  | cons k ks =>
    rw [hOps] at hMem hSorted hLe
    obtain ⟨hHead, _⟩ := List.pairwise_cons.mp hSorted
    have hEq : k = o := by
      obtain hEq | hTail := List.mem_cons.mp hMem
      · exact hEq.symm
      · have := hHead o hTail
        obtain ⟨_, _, _, _, hGe⟩ := hLe k List.mem_cons_self
        omega
    subst hEq
    refine ⟨ks, rfl, fun k' hk' => ?_⟩
    obtain ⟨j', hj', hStream, hKind, _⟩ := hLe k' (List.mem_cons_of_mem k hk')
    have := hHead k' hk'
    exact ⟨j', hj', hStream, hKind.resolve_right (by omega)⟩

/-- The calls on a stream, in the order in which grpc-go sees them, are a session
of this type. -/
def SessionOf (g : Grpc) (type : StreamType) (o : Nat) : Prop :=
  ∃ s, ((callsOn g.calls o).map fun m => (m.call, m.out)).foldlM type.next .fresh = some s

/-- An operation behind the open is a block from `ready`, and back to `ready` once
it has returned. -/
theorem Run.session_block (h : Run (onWorker noStaleReuse) g) {o k : Nat} {req : Request}
    {j : Job} (hReq : g.reqs o = some req) (hj : g.st.job k = some j) (hStream : j.stream = o)
    (hOn : j.kind.onStream = true) :
    ∃ s, (madeBy g.calls k).foldlM req.type.next .ready = some s ∧
      (j.running = false → s = .ready) := by
  obtain ⟨req', opener, hReq', hOpener, hType, hOffers⟩ := h.typed k j hj hOn
  obtain ⟨req'', hReq'', hFollows⟩ := (Run.followed returns_noStaleReuse h).script k j hj
  rw [hReq'] at hReq''
  cases hReq''
  rw [hStream, hReq] at hOpener
  cases hOpener
  exact session_operation hType hOffers hFollows

theorem Run.callsOn_open (h : Run (onWorker noStaleReuse) g) {o : Nat} {ks : List Nat}
    (hOps : g.opsOn o = o :: ks) : ((callsOn g.calls o).map fun m => (m.call, m.out)) =
      madeBy g.calls o ++ ks.flatMap (madeBy g.calls) := by
  rw [h.callsOn_blocks o, hOps, List.flatMap_cons, List.map_append, List.map_flatMap]
  rfl

theorem Run.session_ready (h : Run (onWorker noStaleReuse) g) {o : Nat} {ks : List Nat}
    {req : Request} (hReq : g.reqs o = some req) (hOps : g.opsOn o = o :: ks)
    (hOn : ∀ k ∈ ks, ∃ j, g.st.job k = some j ∧ j.stream = o ∧ j.kind.onStream = true) :
    ks.Pairwise fun k _ => (madeBy g.calls k).foldlM req.type.next .ready = some .ready := by
  have hReturned := h.opsOn_returned o
  rw [hOps] at hReturned
  apply (List.pairwise_cons.mp hReturned).2.imp_of_mem
  rintro k k' hk _ ⟨j', hj', hDone⟩
  obtain ⟨j, hj, hStream, hOnStream⟩ := hOn k hk
  rw [hj] at hj'
  cases hj'
  obtain ⟨s, hRun, hReady⟩ := h.session_block hReq hj hStream hOnStream
  rw [hReady hDone] at hRun
  exact hRun

theorem session_followed (h : Run (onWorker noStaleReuse) g) {o : Nat} {op : Op} {req : Request}
    (hOp : g.st.eng.ops o = some op) (hNew : op.kind = .newStream) (hReq : g.reqs o = some req) :
    g.SessionOf req.type o := by
  have hj : g.st.job o = some op.job := congrArg (Option.map Op.job) hOp
  have hF := Run.followed returns_noStaleReuse h
  have hFirst := Run.opensFirst returns_noStaleReuse h
  obtain ⟨ks, hOps, hOn⟩ := opsOn_open h hj hNew
  obtain ⟨req', hReq', hFollows⟩ := hF.script o op.job hj
  rw [hReq] at hReq'
  cases hReq'
  rw [show op.job.kind = .newStream from hNew] at hFollows
  obtain ⟨s, hOpen, hReady⟩ := session_open (hF.type_ne_unary hj hReq hNew) hFollows
  rw [SessionOf, h.callsOn_open hOps, List.foldlM_append, hOpen]
  cases ks with
  | nil => exact ⟨s, rfl⟩
  | cons k ks =>
    -- an operation behind the open: the open was answered, so the stream is ready
    obtain ⟨j', hj', hStream, hOnStream⟩ := hOn k List.mem_cons_self
    have hOpened := hFirst.onStream k j' hj' hOnStream
    rw [hStream] at hOpened
    obtain ⟨req', hReq', hMade⟩ := hOpened.made
    rw [hReq] at hReq'
    cases hReq'
    rw [hReady hMade hOpened.ok]
    apply Script.foldlM_blocks
    · intro k hk
      obtain ⟨j', hj', hStream, hOnStream⟩ := hOn k hk
      obtain ⟨s, hRun, _⟩ := h.session_block hReq hj' hStream hOnStream
      exact ⟨s, hRun⟩
    · exact h.session_ready hReq hOps hOn

theorem session_followed_sumStream : ∃ g : Grpc, (callsOn g.calls 0).length = 5 ∧
    g.SessionOf .clientStream 0 := by
  have hRun := run_after (onWorker noStaleReuse) sumStream (by decide +kernel)
  exact ⟨_, by decide +kernel, @session_followed _ hRun 0
    ⟨10, .newStream, 0, 0, .deferred none⟩ ⟨.clientStream, "/calc.Calc/Sum", [1]⟩
    (by decide +kernel) rfl (by decide +kernel)⟩

end Grpc

end GrpcClient
