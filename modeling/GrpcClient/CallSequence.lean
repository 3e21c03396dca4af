import GrpcClient.CallOrder

/-! # One operation after the other

As long as results match their waiters, the operations on a stream do not
overlap. Its calls are then those of one operation after the other, in the order
of their kick-offs, and messages are sent in the order in which Lua sends them.
-/

namespace GrpcClient

def RpcCall.message : RpcCall → Option Bytes
  | .sendMsg msg => some msg
  | _ => none

namespace Grpc

open PartialMap
open State (Keeps Kicks noStaleReuse)
open Script (Follows Serial)

variable {g g' : Grpc}

/-! ## One operation after the other -/

def callsOn (calls : List Made) (o : Nat) : List Made :=
  calls.filter fun m => decide (m.stream = o)

/-- The operations on stream `o`, from its open on. -/
def opsOn (g : Grpc) (o : Nat) : List Nat :=
  (List.range g.st.cli.nextKick).filter fun k => decide ((g.st.job k).map Job.stream = some o)

/-- Of two operations on a stream, the earlier one has returned. -/
def Sequential (g : Grpc) : Prop :=
  ∀ k k' j j', g.st.job k = some j → g.st.job k' = some j' → j.stream = j'.stream → k < k' →
    j.running = false

/-- An operation starts on a stream only when the ones before it have returned. -/
theorem OpensFirst.earlier_returned (h : g.OpensFirst) {st : State}
    (hRun : State.Run noStaleReuse st) {f : Frame} {op : Op} (hKicks : g.st.Kicks f op st)
    (hNew : g.st.job f.kick = none) {k : Nat} {j : Job} (hj : g.st.job k = some j)
    (hStream : j.stream = op.stream) : j.running = false := by
  cases hOn : f.op.onStream with
  | false =>
    -- an open is alone on its stream
    have hOwn := (hKicks.opens hOn).1
    cases hOnOld : j.kind.onStream with
    | false =>
      rw [← hOwn, ← hStream, h.own k j hj hOnOld, hj] at hNew
      cases hNew
    | true =>
      have hOpened := h.onStream k j hj hOnOld
      rw [hStream, hOwn] at hOpened
      rw [hOpened.job] at hNew
      cases hNew
  | true =>
    have hOpened := h.ref _ _ (hKicks.onStream hOn)
    cases hOnOld : j.kind.onStream with
    | false =>
      have hOwn := h.own k j hj hOnOld
      rw [← hStream, hOwn] at hOpened
      rw [hOpened.job] at hj
      cases hj
      rfl
    | true =>
      by_contra hRunning
      obtain ⟨old, hOld, rfl⟩ := State.job_eq_some hj
      have hNe : k ≠ f.kick := by
        rintro rfl
        rw [hj] at hNew
        cases hNew
      have hOp : st.eng.ops f.kick = some op := by rw [hKicks.ops, Function.update_self]
      have hOld' : st.eng.ops k = some old := by rw [hKicks.ops, Function.update_of_ne hNe, hOld]
      have hPhase : old.phase = .running := by simpa [Op.job] using hRunning
      apply hNe
      exact hRun.stream_alone hOld' hOp hOnOld (by rw [hKicks.kind]; exact hOn)
        (by rw [hPhase]; rfl) (by rw [hKicks.running]; rfl) hStream

theorem Run.sequential (h : Run (onWorker noStaleReuse) g) : g.Sequential := by
  apply h.induct returns_noStaleReuse (P := Sequential)
  · intro k k' j j' hj
    cases hj
  intro g a g' hReach hRun hSeq hA hChange
  have hFirst := Run.opensFirst returns_noStaleReuse hReach
  cases hChange with
  | keeps hStep hKeeps =>
    intro k k' j j' hj hj'
    rw [hKeeps.job] at hj hj'
    exact hSeq k k' j j' hj hj'
  | @kicks a method data st f op hStep hOffered hKicks =>
    intro k k' j j' hj hj' hStream hLt
    rw [hKicks.job] at hj hj'
    obtain ⟨rfl, _⟩ | ⟨_, hBefore⟩ := update_some_iff.mp hj
    · -- nothing is kicked off after the last kick-off
      obtain ⟨rfl, _⟩ | ⟨_, hBefore'⟩ := update_some_iff.mp hj'
      · exact absurd hLt (Nat.lt_irrefl _)
      · have := hRun.job_lt hBefore'
        have := hKicks.kick
        omega
    · obtain ⟨rfl, rfl⟩ | ⟨_, hBefore'⟩ := update_some_iff.mp hj'
      · exact hFirst.earlier_returned (hRun.tail hA hStep) hKicks (hKicks.job_new hRun) hBefore
          hStream
      · exact hSeq k k' j j' hBefore hBefore' hStream hLt
  | more => exact hSeq
  | @last k₀ op c cs out hOp hRunning hLeft hEnd =>
    intro k k' j j' hj hj' hStream hLt
    rw [State.job_returned hOp] at hj hj'
    have hOld : g.st.job k₀ = some ⟨op.kind, op.stream, true⟩ := State.job_of_running hOp hRunning
    obtain ⟨rfl, rfl⟩ | ⟨_, hBefore⟩ := update_some_iff.mp hj
    · rfl
    · obtain ⟨rfl, rfl⟩ | ⟨_, hBefore'⟩ := update_some_iff.mp hj'
      · exact hSeq k _ j _ hBefore hOld hStream hLt
      · exact hSeq k k' j j' hBefore hBefore' hStream hLt

theorem mem_opsOn (hRun : State.Run noStaleReuse g.st) {o k : Nat} :
    k ∈ g.opsOn o ↔ ∃ j, g.st.job k = some j ∧ j.stream = o := by
  simp only [opsOn, List.mem_filter, List.mem_range, decide_eq_true_eq, Option.map_eq_some_iff]
  constructor
  · exact fun h => h.2
  · rintro ⟨j, hj, hStream⟩
    exact ⟨hRun.job_lt hj, j, hj, hStream⟩

theorem mem_callsOn {calls : List Made} {o : Nat} {m : Made} :
    m ∈ callsOn calls o ↔ m ∈ calls ∧ m.stream = o := by
  simp [callsOn]

theorem Sequential.record (h : g.Sequential) (hF : g.Followed) {k : Nat} {op : Op} {c : RpcCall}
    {out : GoOut} {o : Nat} (hSerial : Serial Made.op (callsOn g.calls o))
    (hOp : g.st.eng.ops k = some op) (hRun : op.phase = .running) :
    Serial Made.op (callsOn (g.calls ++ [⟨k, op.stream, c, out⟩]) o) := by
  rw [callsOn, List.filter_append]
  by_cases hStream : op.stream = o
  · rw [List.filter_cons_of_pos (by simpa using hStream), List.filter_nil]
    apply hSerial.snoc
    intro m hm
    obtain ⟨hm, hOn⟩ := mem_callsOn.mp hm
    obtain ⟨j, hj, hEq⟩ := hF.job m hm
    by_contra hLate
    have hReturned := h k m.op _ j (State.job_of_running hOp hRun) hj
      (by rw [hEq, hOn]; exact hStream) (Nat.lt_of_not_le hLate)
    cases hReturned
  · rw [List.filter_cons_of_neg (by simpa using hStream), List.filter_nil, List.append_nil]
    exact hSerial

theorem Run.serial (h : Run (onWorker noStaleReuse) g) (o : Nat) :
    Serial Made.op (callsOn g.calls o) := by
  apply h.induct returns_noStaleReuse (P := fun g => Serial Made.op (callsOn g.calls o))
  · exact List.Pairwise.nil
  intro g a g' hReach _ hSerial _ hChange
  have hSeq := hReach.sequential
  have hF := Run.followed returns_noStaleReuse hReach
  cases hChange with
  | keeps => exact hSerial
  | kicks => exact hSerial
  | more hOp hRunning => exact hSeq.record hF hSerial hOp hRunning
  | last hOp hRunning => exact hSeq.record hF hSerial hOp hRunning

/-- The calls on a stream are those of its operations one after the other. Every
operation follows its script, and it has returned when another one comes after
it. -/
structure InSequence (g : Grpc) (o : Nat) : Prop where
  blocks : callsOn g.calls o =
    (g.opsOn o).flatMap fun k => g.calls.filter fun m => decide (m.op = k)
  script : ∀ k ∈ g.opsOn o, ∃ j req, g.st.job k = some j ∧ g.reqs k = some req ∧
    Follows GoOut.Ok (j.kind.rpcCalls req) (madeBy g.calls k) (g.left k) j.running
  returned : (g.opsOn o).Pairwise fun k _ => ∃ j, g.st.job k = some j ∧ j.running = false

theorem Followed.calls_of (h : g.Followed) {k o : Nat} {j : Job} (hj : g.st.job k = some j) :
    ((callsOn g.calls o).filter fun m => decide (m.op = k)) =
      if j.stream = o then g.calls.filter fun m => decide (m.op = k) else [] := by
  have hStream : ∀ m ∈ g.calls, m.op = k → m.stream = j.stream := by
    rintro m hm rfl
    obtain ⟨j', hj', hEq⟩ := h.job m hm
    rw [hj] at hj'
    cases hj'
    exact hEq.symm
  rw [callsOn, List.filter_filter]
  split
  · rename_i hOn
    apply List.filter_congr
    intro m hm
    by_cases hEq : m.op = k
    · simp [hEq, hStream m hm hEq, hOn]
    · simp [hEq]
  · rename_i hOff
    apply List.filter_eq_nil_iff.mpr
    intro m hm hEq
    simp only [Bool.and_eq_true, decide_eq_true_eq] at hEq
    exact hOff ((hStream m hm hEq.1).symm.trans hEq.2)

theorem Followed.no_calls (h : g.Followed) {k : Nat} (hj : g.st.job k = none) {m : Made}
    (hm : m ∈ g.calls) : m.op ≠ k := by
  rintro rfl
  obtain ⟨j, hSome, _⟩ := h.job m hm
  rw [hj] at hSome
  cases hSome

theorem Followed.block_eq (h : g.Followed) (o k : Nat) :
    ((callsOn g.calls o).filter fun m => decide (m.op = k)) =
      if (g.st.job k).map Job.stream = some o
      then g.calls.filter fun m => decide (m.op = k) else [] := by
  cases hj : g.st.job k with
  | none =>
    rw [if_neg (by simp)]
    apply List.filter_eq_nil_iff.mpr
    intro m hm
    simpa using h.no_calls hj (mem_callsOn.mp hm).1
  | some j => simpa using h.calls_of hj

theorem Run.callsOn_blocks (h : Run (onWorker noStaleReuse) g) (o : Nat) : callsOn g.calls o =
    (g.opsOn o).flatMap fun k => g.calls.filter fun m => decide (m.op = k) := by
  have hRun := Run.worker returns_noStaleReuse h
  have hF := Run.followed returns_noStaleReuse h
  have hLt : ∀ m ∈ callsOn g.calls o, m.op < g.st.cli.nextKick :=
    fun m hm => hF.calls_lt hRun (mem_callsOn.mp hm).1
  calc callsOn g.calls o
      = (List.range g.st.cli.nextKick).flatMap fun k =>
          (callsOn g.calls o).filter fun m => decide (m.op = k) := (h.serial o).blocks hLt
    _ = (g.opsOn o).flatMap fun k =>
          (callsOn g.calls o).filter fun m => decide (m.op = k) := by
        apply (Script.flatMap_filter _ _ _ _).symm
        intro k _ hOff
        rw [hF.block_eq, if_neg (by simpa using hOff)]
    _ = (g.opsOn o).flatMap fun k => g.calls.filter fun m => decide (m.op = k) := by
        apply List.flatMap_congr
        intro k hk
        obtain ⟨j, hj, hStream⟩ := (mem_opsOn hRun).mp hk
        rw [hF.calls_of hj, if_pos hStream]

theorem Run.opsOn_returned (h : Run (onWorker noStaleReuse) g) (o : Nat) :
    (g.opsOn o).Pairwise fun k _ => ∃ j, g.st.job k = some j ∧ j.running = false := by
  have hRun := Run.worker returns_noStaleReuse h
  apply List.Pairwise.imp_of_mem (R := (· < ·))
  · intro k k' hk hk' hLt
    obtain ⟨j, hj, hStream⟩ := (mem_opsOn hRun).mp hk
    obtain ⟨j', hj', hStream'⟩ := (mem_opsOn hRun).mp hk'
    exact ⟨j, hj, h.sequential k k' j j' hj hj' (hStream.trans hStream'.symm) hLt⟩
  · exact List.pairwise_lt_range.filter _

theorem operations_in_sequence (h : Run (onWorker noStaleReuse) g) (o : Nat) : g.InSequence o := by
  refine ⟨h.callsOn_blocks o, fun k hk => ?_, h.opsOn_returned o⟩
  obtain ⟨j, hj, _⟩ := (mem_opsOn (Run.worker returns_noStaleReuse h)).mp hk
  obtain ⟨req, hReq, hFollows⟩ := (Run.followed returns_noStaleReuse h).script k j hj
  exact ⟨j, req, hj, hReq, hFollows⟩

theorem operations_in_sequence_sumStream : ∃ g : Grpc, g.opsOn 0 = [0, 1, 2] ∧ g.InSequence 0 := by
  have hRun := run_after (onWorker noStaleReuse) sumStream (by decide +kernel)
  exact ⟨_, by decide +kernel, operations_in_sequence hRun 0⟩

/-! ## Messages that are sent -/

/-- What goes to `SendMsg` on stream `o`. -/
def sentOn (g : Grpc) (o : Nat) : List Bytes :=
  (callsOn g.calls o).filterMap fun m => m.call.message

/-- What Lua hands over for stream `o`: the request of its open and those of the
sends on its handle. -/
def requestOn (g : Grpc) (o k : Nat) : Option Bytes :=
  match g.st.cli.kicks k, g.reqs k with
  | some f, some req =>
    if f.op = .newStream ∧ k = o ∨ f.op = .send ∧ f.handle = o then some req.data else none
  | _, _ => none

def requestedOn (g : Grpc) (o : Nat) : List Bytes :=
  (List.range g.st.cli.nextKick).filterMap (g.requestOn o)

/-- The messages sent are those that Lua hands over, in their order, with at most
the last one missing. -/
def SendsInOrder (g : Grpc) (o : Nat) : Prop :=
  ∃ rest, g.sentOn o ++ rest = g.requestedOn o ∧ rest.length ≤ 1

theorem rpcCalls_messages {kind : OpKind} {req : Request}
    (h : kind = .newStream → req.type ≠ .unary) :
    (kind.rpcCalls req).filterMap RpcCall.message =
      if kind = .newStream ∨ kind = .send then [req.data] else [] := by
  cases kind with
  | newStream =>
    have hType := h rfl
    cases hCode : req.type with
    | unary => exact absurd hCode hType
    | _ =>
      simp only [OpKind.rpcCalls, Request.newStreamCalls, hCode, StreamType.code, Conn.streamDesc]
      rfl
  | recv =>
    by_cases hClient : req.type = .clientStream <;>
      simp [OpKind.rpcCalls, Request.recvCalls, hClient, RpcCall.message]
  | _ => simp [OpKind.rpcCalls, RpcCall.message]

theorem Followed.type_ne_unary (h : g.Followed) {k : Nat} {j : Job} {req : Request}
    (hj : g.st.job k = some j) (hReq : g.reqs k = some req) (hNew : j.kind = .newStream) :
    req.type ≠ .unary := by
  obtain ⟨req', hReq', hFollows⟩ := h.script k j hj
  rw [hReq] at hReq'
  cases hReq'
  intro hType
  apply hFollows.script_ne_nil
  simp [hNew, OpKind.rpcCalls, Request.newStreamCalls, hType, StreamType.code, Conn.streamDesc]

def sentBy (g : Grpc) (o k : Nat) : List Bytes :=
  ((callsOn g.calls o).filter fun m => decide (m.op = k)).filterMap fun m => m.call.message

theorem Followed.sentBy_eq (h : g.Followed) {k o : Nat} {j : Job} (hj : g.st.job k = some j) :
    g.sentBy o k = if j.stream = o
      then ((madeBy g.calls k).map Prod.fst).filterMap RpcCall.message else [] := by
  rw [sentBy, h.calls_of hj]
  split
  · rw [madeBy, List.map_map, List.filterMap_map]
    rfl
  · rfl

theorem Followed.started (h : g.Followed) {ok : State → GrpcClient.Action → Prop}
    (hRun : State.Run ok g.st) {k : Nat} (hk : k < g.st.cli.nextKick) : ∃ j req,
    g.st.job k = some j ∧ g.reqs k = some req ∧
      Follows GoOut.Ok (j.kind.rpcCalls req) (madeBy g.calls k) (g.left k) j.running := by
  obtain ⟨f, hf⟩ := (hRun.logged.kick_lt k).mpr hk
  obtain ⟨op, hOp⟩ := hRun.started.kick_op k f hf
  have hj : g.st.job k = some op.job := by simp [State.job, hOp]
  obtain ⟨req, hReq, hFollows⟩ := h.script k op.job hj
  exact ⟨op.job, req, hj, hReq, hFollows⟩

theorem Run.requestOn_eq (h : Run (onWorker noStaleReuse) g) {k : Nat} {j : Job} {req : Request}
    (hj : g.st.job k = some j) (hReq : g.reqs k = some req) (o : Nat) :
    (g.requestOn o k).toList =
      if j.stream = o then (j.kind.rpcCalls req).filterMap RpcCall.message else [] := by
  have hRun := Run.worker returns_noStaleReuse h
  have hF := Run.followed returns_noStaleReuse h
  have hFirst := Run.opensFirst returns_noStaleReuse h
  obtain ⟨op, hOp, rfl⟩ := State.job_eq_some hj
  obtain ⟨f, hf, _, hKind⟩ := hRun.started.op_kick k op hOp
  have hOwn : op.kind.onStream = false → op.stream = k := hFirst.own k op.job hj
  have hHandle : op.kind.onStream = true → op.stream = f.handle := by
    intro hOn
    exact hRun.fresh_opens.op_stream hOp hf (by rw [hKind]; exact hOn)
  rw [rpcCalls_messages fun hNew => hF.type_ne_unary hj hReq hNew]
  simp only [requestOn, hf, hReq, hKind, Op.job]
  obtain ⟨taskId, kind, conn, stream, phase⟩ := op
  cases kind with
  | newStream =>
    obtain rfl := hOwn rfl
    by_cases hEq : stream = o <;> simp [hEq]
  | send =>
    obtain rfl := hHandle rfl
    by_cases hEq : f.handle = o <;> simp [hEq]
  | _ => simp

theorem OpensFirst.opened_of_later (h : g.OpensFirst) {k k' : Nat} {j j' : Job}
    (hj : g.st.job k = some j) (hj' : g.st.job k' = some j') (hStream : j.stream = j'.stream)
    (hLt : k < k') : g.Opened j.stream := by
  cases hOn : j'.kind.onStream with
  | true =>
    rw [hStream]
    exact h.onStream k' j' hj' hOn
  | false =>
    -- the later one is no open, which would be the first operation of the stream
    have hOwn' := h.own k' j' hj' hOn
    cases hOnOld : j.kind.onStream with
    | true =>
      have := h.later k j hj hOnOld
      omega
    | false =>
      have := h.own k j hj hOnOld
      omega

theorem Followed.complete_messages (h : g.Followed) {k : Nat} {j : Job} {req : Request}
    (hj : g.st.job k = some j) (hReq : g.reqs k = some req)
    (hFollows : Follows GoOut.Ok (j.kind.rpcCalls req) (madeBy g.calls k) (g.left k) false)
    (hOpened : g.Opened j.stream) (hOwn : j.kind.onStream = false → j.stream = k) :
    ((madeBy g.calls k).map Prod.fst).filterMap RpcCall.message =
      (j.kind.rpcCalls req).filterMap RpcCall.message := by
  have hType := fun hNew => h.type_ne_unary hj hReq hNew
  have hSplit := congrArg (List.filterMap RpcCall.message) hFollows.split
  rw [List.filterMap_append] at hSplit
  obtain ⟨kind, stream, running⟩ := j
  cases kind with
  | newStream =>
    obtain rfl := hOwn rfl
    obtain ⟨req', hReq', hMade⟩ := hOpened.made
    rw [hReq] at hReq'
    cases hReq'
    rw [hMade]
    rfl
  | send =>
    obtain ⟨_, hRun⟩ | ⟨out, hMade, _⟩ := hFollows.one
    · cases hRun
    · rw [hMade]
      rfl
  | _ =>
    rw [rpcCalls_messages hType] at hSplit ⊢
    simp only [reduceCtorEq, or_self, if_false] at hSplit ⊢
    exact (List.append_eq_nil_iff.mp hSplit).1

/-- What went out on a stream is what each kick-off sent, in the order of the
kick-offs. -/
theorem Run.sentOn_eq (h : Run (onWorker noStaleReuse) g) (o : Nat) :
    g.sentOn o = (List.range g.st.cli.nextKick).flatMap (g.sentBy o) := by
  have hRun := Run.worker returns_noStaleReuse h
  have hF := Run.followed returns_noStaleReuse h
  have hLt : ∀ m ∈ callsOn g.calls o, m.op < g.st.cli.nextKick :=
    fun m hm => hF.calls_lt hRun (mem_callsOn.mp hm).1
  rw [sentOn, (h.serial o).blocks hLt, List.filterMap_flatMap]
  rfl

/-- A kick-off has at most one message to send, and sends no other. -/
theorem Run.sentBy_prefix (h : Run (onWorker noStaleReuse) g) (o : Nat) {k : Nat}
    (hk : k < g.st.cli.nextKick) :
    ∃ rest, g.sentBy o k ++ rest = (g.requestOn o k).toList ∧ rest.length ≤ 1 := by
  have hRun := Run.worker returns_noStaleReuse h
  have hF := Run.followed returns_noStaleReuse h
  obtain ⟨j, req, hj, hReq, hFollows⟩ := hF.started hRun hk
  rw [h.requestOn_eq hj hReq, hF.sentBy_eq hj]
  split
  · refine ⟨(g.left k).filterMap RpcCall.message, ?_, ?_⟩
    · rw [← List.filterMap_append, hFollows.split]
    · have hLen := congrArg List.length (congrArg (List.filterMap RpcCall.message) hFollows.split)
      rw [List.filterMap_append, List.length_append,
        rpcCalls_messages fun hNew => hF.type_ne_unary hj hReq hNew] at hLen
      split at hLen
      · simp only [List.length_singleton] at hLen
        omega
      · simp only [List.length_nil] at hLen
        omega
  · exact ⟨[], rfl, Nat.zero_le 1⟩

/-- A kick-off has sent all it has to send before a later one sends on the stream. -/
theorem Run.sentBy_complete (h : Run (onWorker noStaleReuse) g) (o : Nat) {k k' : Nat}
    (hLt : k < k') (hk' : k' < g.st.cli.nextKick) :
    g.sentBy o k = (g.requestOn o k).toList ∨ (g.requestOn o k').toList = [] := by
  have hRun := Run.worker returns_noStaleReuse h
  have hF := Run.followed returns_noStaleReuse h
  have hFirst := Run.opensFirst returns_noStaleReuse h
  obtain ⟨j, req, hj, hReq, hFollows⟩ := hF.started hRun (hLt.trans hk')
  obtain ⟨j', req', hj', hReq', _⟩ := hF.started hRun hk'
  rw [h.requestOn_eq hj hReq, h.requestOn_eq hj' hReq', hF.sentBy_eq hj]
  by_cases hStream' : j'.stream = o
  · left
    split
    · rename_i hStream
      have hReturned := h.sequential k k' j j' hj hj' (hStream.trans hStream'.symm) hLt
      have hOpened := hFirst.opened_of_later hj hj' (hStream.trans hStream'.symm) hLt
      rw [hReturned] at hFollows
      exact hF.complete_messages hj hReq hFollows hOpened (hFirst.own k j hj)
    · rfl
  · exact .inr (if_neg hStream')

/-- The messages of a stream reach `SendMsg` in the order in which Lua sends them.
None is skipped and none comes twice; at most the last one is not there yet, or
never will be because its stream did not open. -/
theorem sends_in_order (h : Run (onWorker noStaleReuse) g) (o : Nat) : g.SendsInOrder o := by
  have hRequested : g.requestedOn o =
      (List.range g.st.cli.nextKick).flatMap fun k => (g.requestOn o k).toList :=
    List.filterMap_eq_flatMap_toList _ _
  rw [SendsInOrder, h.sentOn_eq, hRequested]
  apply Script.flatMap_prefix
  · intro k hk
    exact h.sentBy_prefix o (List.mem_range.mp hk)
  · apply List.Pairwise.imp_of_mem (R := (· < ·))
    · intro k k' _ hk' hLt
      exact h.sentBy_complete o hLt (List.mem_range.mp hk')
    · exact List.pairwise_lt_range

theorem sends_in_order_sumStream : ∃ g : Grpc, g.sentOn 0 = [[1], [2]] ∧ g.SendsInOrder 0 := by
  have hRun := run_after (onWorker noStaleReuse) sumStream (by decide +kernel)
  exact ⟨_, by decide +kernel, sends_in_order hRun 0⟩

end Grpc

end GrpcClient
