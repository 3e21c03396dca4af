import GrpcClient.CallOptions
import GrpcClient.Lib.Script
import GrpcClient.Messages

/-! # The calls of the engine on grpc-go

`conn/grpc.go` runs every operation as a few calls on a `grpc.ClientConn` or on a
`grpc.ClientStream`, one after the other, and the first error ends it. In the
worker such a goroutine returns in one step. Here it makes its calls one by one,
so that the calls of several goroutines on one stream interleave, and the
kick-offs carry the request that Lua hands over.
-/

namespace GrpcClient

open Fallible PartialMap

inductive RpcCall
  | invoke (method : String) (req : Bytes)
  | newStream (desc : Conn.StreamDesc) (method : String)
  | sendMsg (msg : Bytes)
  | closeSend
  | recvMsg
deriving DecidableEq, Repr

/-- `NGX_GRPC_CLIENT_STREAM_TYPE_*`, the same numbers in Lua and in the engine. -/
def StreamType.code : StreamType → Nat
  | .unary => 0
  | .clientStream => 1
  | .serverStream => 2
  | .bidirectionalStream => 3

structure Request where
  type : StreamType
  method : String
  data : Bytes
deriving DecidableEq, Repr

/-- `NewStream`; it panics before its first call on an unknown type. -/
def Request.newStreamCalls (req : Request) : List RpcCall :=
  match Conn.streamDesc req.type.code with
  | none => []
  | some desc =>
    [.newStream desc req.method, .sendMsg req.data] ++
      if req.type = .serverStream then [.closeSend] else []

/-- `Stream.Recv`. On a client stream it stands behind `recv_close`. -/
def Request.recvCalls (req : Request) : List RpcCall :=
  (if req.type = .clientStream then [.closeSend] else []) ++ [.recvMsg]

/-- The body of the goroutine of an operation. -/
def OpKind.rpcCalls (kind : OpKind) (req : Request) : List RpcCall :=
  match kind with
  | .call => [.invoke req.method req.data]
  | .newStream => req.newStreamCalls
  | .recv => req.recvCalls
  | .send => [.sendMsg req.data]
  | .closeSend => [.closeSend]

/-- The method tables at the end of `grpc.lua`, with `recv_close` as a receive. -/
def StreamType.offers : StreamType → OpKind → Bool
  | .serverStream, .recv => true
  | .clientStream, .send | .clientStream, .recv => true
  | .bidirectionalStream, .send | .bidirectionalStream, .closeSend
  | .bidirectionalStream, .recv => true
  | _, _ => false

/-- A call that goroutine `op` made, and what grpc-go answered. -/
structure Made where
  op : Nat
  stream : Nat
  call : RpcCall
  out : GoOut
deriving DecidableEq, Repr

/-- The worker with the requests of its kick-offs, the calls that every goroutine
has still to make, and a ghost log of the calls made. -/
structure Grpc where
  st : State
  reqs : Nat → Option Request
  left : Nat → List RpcCall
  calls : List Made

def Action.isReturn : Action → Bool
  | .goReturn .. => true
  | _ => false

namespace Grpc

def init : Grpc := ⟨.init, fun _ => none, fun _ => [], []⟩

inductive Action
  | worker (a : GrpcClient.Action) (method : String) (data : Bytes)
  | rpc (k : Nat) (out : GoOut)
deriving DecidableEq, Repr

/-- The type that stream or call `k` was opened with. -/
def typeOf (g : Grpc) (k : Nat) : StreamType := ((g.reqs k).map Request.type).getD .unary

/-- The table of the stream has the method that the action calls. -/
def offered (g : Grpc) (a : GrpcClient.Action) : Prop :=
  ∀ f ∈ g.st.kickOff a, f.op.onStream = true → (g.typeOf f.handle).offers f.op = true

instance (g : Grpc) (a : GrpcClient.Action) : Decidable (g.offered a) :=
  inferInstanceAs (Decidable (∀ f ∈ g.st.kickOff a, _))

/-- The request that goes with a kick-off. A call or an open has the type of its
sctx, and a stream keeps the type it was opened with. -/
def request (g : Grpc) (st : State) (f : Frame) (op : Op) (method : String) (data : Bytes) :
    Request where
  type :=
    if f.op.onStream then g.typeOf op.stream
    else ((st.cli.sctxs f.sctx).map StreamCtx.type).getD .unary
  method := method
  data := data

/-- A kick-off hands its request to the goroutine. -/
def kicked (g : Grpc) (st : State) (method : String) (data : Bytes) : Grpc :=
  match st.cli.kicks g.st.cli.nextKick, st.eng.ops g.st.cli.nextKick with
  | some f, some op =>
    let req := g.request st f op method data
    { g with
      st
      reqs := Function.update g.reqs f.kick (some req)
      left := Function.update g.left f.kick (op.kind.rpcCalls req) }
  | _, _ => { g with st }

def record (g : Grpc) (k : Nat) (op : Op) (c : RpcCall) (cs : List RpcCall) (out : GoOut) : Grpc :=
  { g with
    left := Function.update g.left k cs
    calls := g.calls ++ [⟨k, op.stream, c, out⟩] }

/-- Goroutine `k` makes its next call. An error and the answer of the last call
end the RPC. -/
def rpc (g : Grpc) (k : Nat) (out : GoOut) : Except Stop Grpc :=
  match g.st.eng.ops k, g.left k with
  | some op, c :: cs =>
    if op.phase = .running then
      match out, cs with
      | .ok _, _ :: _ => .ok (g.record k op c cs out)
      | _, _ => do
        let eng ← g.st.eng.goReturn k out
        .ok { g.record k op c cs out with st := { g.st with eng } }
    else .error .blocked
  | _, _ => .error .blocked

def step (g : Grpc) : Action → Except Stop Grpc
  | .worker a method data =>
    if a.isReturn = true ∨ ¬ g.offered a then .error .blocked
    else do
      let st ← g.st.step a
      .ok (g.kicked st method data)
  | .rpc k out => g.rpc k out

abbrev Run (ok : Grpc → Action → Prop) : Grpc → Prop := Transition.Reaches step ok init

abbrev Reachable : Grpc → Prop := Run fun _ _ => True

def after (ok : Grpc → Action → Prop) [∀ g a, Decidable (ok g a)] (as : List Action) :
    Option Grpc :=
  Transition.exec step ok init as

theorem run_after (ok : Grpc → Action → Prop) [∀ g a, Decidable (ok g a)] (as : List Action)
    (h : (after ok as).isSome) : Run ok ((after ok as).get h) :=
  Transition.exec_reaches h

end Grpc

/-! ## The calls of a successful open are those of `NewStream` -/

namespace Conn

/-- What a connection answers to a call of an open. -/
def ClientConn.answer (c : ClientConn) (ctx : Context) : RpcCall → Option String
  | .newStream desc method => c.newStream ctx desc method
  | .sendMsg msg => c.sendMsg ctx msg
  | .closeSend => c.closeSend ctx
  | .invoke .. | .recvMsg => none

theorem newStream_eq_calls (c : ClientConn) (opt : CallOption) (req : Request)
    (hType : req.type ≠ .unary) :
    newStream c req.method req.data opt req.type.code =
      match req.newStreamCalls.findSome? (c.answer (opContext opt).1) with
      | some err => giveUp (opContext opt).2 (opContext opt).1 err
      | none => .stream ⟨(opContext opt).1, (opContext opt).2, req.type.code⟩ := by
  obtain ⟨type, method, data⟩ := req
  unfold newStream Request.newStreamCalls
  cases type with
  | unary => exact absurd rfl hType
  | clientStream =>
    simp only [StreamType.code, streamDesc, reduceCtorEq, if_false, List.append_nil,
      List.findSome?_cons, List.findSome?_nil, ClientConn.answer]
    cases c.newStream (opContext opt).1 ⟨true, false⟩ method <;>
      cases c.sendMsg (opContext opt).1 data <;> rfl
  | serverStream =>
    simp only [StreamType.code, streamDesc, if_true, List.cons_append, List.nil_append,
      List.findSome?_cons, List.findSome?_nil, ClientConn.answer]
    cases c.newStream (opContext opt).1 ⟨false, true⟩ method <;>
      cases c.sendMsg (opContext opt).1 data <;> cases c.closeSend (opContext opt).1 <;> rfl
  | bidirectionalStream =>
    simp only [StreamType.code, streamDesc, reduceCtorEq, if_false, List.append_nil,
      List.findSome?_cons, List.findSome?_nil, ClientConn.answer]
    cases c.newStream (opContext opt).1 ⟨true, true⟩ method <;>
      cases c.sendMsg (opContext opt).1 data <;> rfl

end Conn

/-! ## What a step does to the goroutines -/

/-- What the calls depend on of an operation. -/
structure Job where
  kind : OpKind
  stream : Nat
  running : Bool
deriving DecidableEq, Repr

def Op.job (op : Op) : Job := ⟨op.kind, op.stream, decide (op.phase = .running)⟩

namespace State

variable {s t : State}

def job (s : State) (k : Nat) : Option Job := (s.eng.ops k).map Op.job

/-- No goroutine starts or returns. -/
structure Keeps (s t : State) : Prop where
  job : t.job = s.job
  kicks : t.cli.kicks = s.cli.kicks
  next : t.cli.nextKick = s.cli.nextKick
  streamRef : ∀ p o, t.eng.streamRef p = some o → s.eng.streamRef p = some o

/-- The kick-off of `f` starts the goroutine of `op`. -/
structure Kicks (s : State) (f : Frame) (op : Op) (t : State) : Prop where
  kick : f.kick = s.cli.nextKick
  kicks : t.cli.kicks = Function.update s.cli.kicks f.kick (some f)
  next : t.cli.nextKick = f.kick + 1
  ops : t.eng.ops = Function.update s.eng.ops f.kick (some op)
  streamRef : t.eng.streamRef = s.eng.streamRef
  kind : op.kind = f.op
  running : op.phase = .running
  onStream : f.op.onStream = true → s.eng.streamRef f.sctx = some op.stream
  opens : f.op.onStream = false → op.stream = f.kick ∧
    ∃ sc, t.cli.sctxs f.sctx = some sc ∧ (sc.type = .unary ↔ f.op = .call)

theorem job_setPhase {k : Nat} {op : Op} (phase : Phase) (hOp : s.eng.ops k = some op)
    (hOld : op.phase ≠ .running) (hNew : phase ≠ .running) :
    (fun k' => (Function.update s.eng.ops k (some { op with phase }) k').map Op.job) = s.job := by
  funext k'
  by_cases hEq : k' = k
  · subst hEq
    simp [job, hOp, Op.job, hOld, hNew]
  · simp [job, hEq]

theorem Change.keeps_or_kicks {a : Action} (h : s.Change a t) (hReturn : a.isReturn = false) :
    s.Keeps t ∨ ∃ f op, s.Kicks f op t := by
  have hClosed : ∀ {p q : Ptr} {o : Nat}, Function.update s.eng.streamRef p none q = some o →
      s.eng.streamRef q = some o := fun hRef => (update_none_iff.mp hRef).2
  cases h with
  | goReturn => cases hReturn
  | @kick _ f ctxs sctxs sc op addr hPrep hKick hRun hAddr =>
    obtain ⟨_, hKind, hPhase⟩ := hPrep.op_eq
    refine .inr ⟨f, op, hKick, rfl, rfl, rfl, rfl, hKind, hPhase, ?_, ?_⟩
    · intro hOn
      cases hPrep with
      | opens r isHttp type hHd hOpen hcc hEngine hRef hTake hOff =>
        rw [hOff] at hOn
        cases hOn
      | stream hHd hOpen hCtx hsc hWait hRef hOn => exact hRef
    · intro hOff
      cases hPrep with
      | opens r isHttp type hHd hOpen hcc hEngine hRef hTake hOff hType =>
        exact ⟨rfl, _, Function.update_self .., hType⟩
      | stream hHd hOpen hCtx hsc hWait hRef hOn =>
        rw [hOn] at hOff
        cases hOff
  | streamClose => exact .inl ⟨rfl, rfl, rfl, fun p o => hClosed⟩
  | streamGc => exact .inl ⟨rfl, rfl, rfl, fun p o => hClosed⟩
  | streamGcFree => exact .inl ⟨rfl, rfl, rfl, fun p o => hClosed⟩
  | goReport hOp hPhase =>
    have hJob := job_setPhase (.deferred none) hOp (by simp [hPhase]) (by simp)
    exact .inl ⟨hJob, rfl, rfl, fun _ _ h => h⟩
  | goPanic hOp hPhase =>
    have hJob := job_setPhase .finished hOp (by simp [hPhase]) (by simp)
    exact .inl ⟨hJob, rfl, rfl, fun _ _ h => h⟩
  | goDone hOp hPhase =>
    have hJob := job_setPhase .finished hOp (by simp [hPhase]) (by simp)
    exact .inl ⟨hJob, rfl, rfl, fun _ _ h => h⟩
  | _ => exact .inl ⟨rfl, rfl, rfl, fun _ _ h => h⟩

theorem Run.kicks_next {ok : State → Action → Prop} (h : Run ok s) :
    s.cli.kicks s.cli.nextKick = none := by
  cases hk : s.cli.kicks s.cli.nextKick with
  | none => rfl
  | some f => exact absurd ((h.logged.kick_lt _).mp ⟨f, hk⟩) (Nat.lt_irrefl _)

end State

namespace Grpc

open State (Keeps Kicks noStaleReuse)

variable {g g' : Grpc}

inductive Change (g : Grpc) : Action → Grpc → Prop
  | keeps {a : GrpcClient.Action} {method : String} {data : Bytes} {st : State}
      (hStep : g.st.step a = .ok st) (hKeeps : g.st.Keeps st) :
      Change g (.worker a method data) { g with st }
  | kicks {a : GrpcClient.Action} {method : String} {data : Bytes} {st : State} {f : Frame}
      {op : Op} (hStep : g.st.step a = .ok st) (hOffered : g.offered a) (hKicks : g.st.Kicks f op st) :
      Change g (.worker a method data) { g with
        st
        reqs := Function.update g.reqs f.kick (some (g.request st f op method data))
        left := Function.update g.left f.kick
          (op.kind.rpcCalls (g.request st f op method data)) }
  | more {k : Nat} {op : Op} {c c' : RpcCall} {cs : List RpcCall} {bytes : Bytes}
      (hOp : g.st.eng.ops k = some op) (hRun : op.phase = .running)
      (hLeft : g.left k = c :: c' :: cs) :
      Change g (.rpc k (.ok bytes)) (g.record k op c (c' :: cs) (.ok bytes))
  | last {k : Nat} {op : Op} {c : RpcCall} {cs : List RpcCall} {out : GoOut}
      (hOp : g.st.eng.ops k = some op) (hRun : op.phase = .running) (hLeft : g.left k = c :: cs)
      (hEnd : ∀ bytes, out = .ok bytes → cs = []) :
      Change g (.rpc k out) { g.record k op c cs out with
        st := { g.st with eng := g.st.eng.returned k op out } }

theorem rpc_change {k : Nat} {out : GoOut} (h : g.rpc k out = .ok g') :
    g.Change (.rpc k out) g' := by
  unfold rpc at h
  split at h
  · rename_i op c cs hOp hLeft
    split at h
    · rename_i hRun
      split at h
      · cases h
        exact .more hOp hRun hLeft
      · rename_i hNotMore
        obtain ⟨eng, hEng, h⟩ := bind_eq_ok h
        cases h
        obtain ⟨op', hOp', _, rfl⟩ := Engine.goReturn_ok hEng
        rw [hOp] at hOp'
        cases hOp'
        apply Change.last hOp hRun hLeft
        intro bytes hOut
        cases cs with
        | nil => rfl
        | cons c' cs => exact absurd rfl (hNotMore bytes c' cs hOut)
    · cases h
  · cases h

/-- A condition on the steps of the worker, as one on the steps with calls. -/
def onWorker (ok : State → GrpcClient.Action → Prop) (g : Grpc) : Action → Prop
  | .worker a _ _ => ok g.st a
  | .rpc .. => True

instance (ok : State → GrpcClient.Action → Prop) [∀ s a, Decidable (ok s a)] (g : Grpc)
    (a : Action) : Decidable (g.onWorker ok a) :=
  match a with
  | .worker a _ _ => inferInstanceAs (Decidable (ok g.st a))
  | .rpc .. => inferInstanceAs (Decidable True)

/-- The condition does not depend on what an RPC answers. -/
def Returns (ok : State → GrpcClient.Action → Prop) : Prop :=
  ∀ s k out, State.Run ok s → ok s (.goReturn k out)

theorem returns_true : Returns fun _ _ => True := fun _ _ _ _ => trivial

theorem returns_noStaleReuse : Returns noStaleReuse := by
  intro s k out hRun f hOff
  have hFrame : s.kickOff (.goReturn k out) = none := by
    unfold State.kickOff
    split
    · rename_i t hStep
      obtain ⟨eng, _, hStep⟩ := bind_eq_ok hStep
      cases hStep
      exact hRun.kicks_next
    · rfl
  rw [hFrame] at hOff
  cases hOff

section Runs

variable {ok : State → GrpcClient.Action → Prop} (hOk : Returns ok)

include hOk

theorem Run.worker (h : Run (onWorker ok) g) : State.Run ok g.st := by
  apply h.invariant (P := fun g => State.Run ok g.st) .refl
  intro g a g' _ hRun hA hStep
  cases a with
  | worker a method data =>
    simp only [step] at hStep
    split at hStep
    · cases hStep
    · obtain ⟨st, hSt, hStep⟩ := bind_eq_ok hStep
      cases hStep
      have hSame : (g.kicked st method data).st = st := by
        unfold kicked
        split <;> rfl
      rw [hSame]
      exact .tail hRun hA hSt
  | rpc k out =>
    cases rpc_change hStep with
    | more => exact hRun
    | last hOp hRunning =>
      apply Transition.Reaches.tail hRun (hOk _ k out hRun)
      rw [State.step, Engine.goReturn_eq hOp hRunning]
      rfl

theorem Run.change (h : Run (onWorker ok) g) {a : Action} (hStep : g.step a = .ok g') :
    g.Change a g' := by
  have hRun := h.worker hOk
  cases a with
  | worker a method data =>
    simp only [step] at hStep
    split at hStep
    · cases hStep
    · rename_i hGuard
      obtain ⟨hReturn, hOffered⟩ := not_or.mp hGuard
      obtain ⟨st, hSt, hStep⟩ := bind_eq_ok hStep
      cases hStep
      have hChange := hRun.valid.step_change hSt
      obtain hKeeps | ⟨f, op, hKicks⟩ := hChange.keeps_or_kicks (by simpa using hReturn)
      · have hNone : st.cli.kicks g.st.cli.nextKick = none := by
          rw [hKeeps.kicks]
          exact hRun.kicks_next
        simp only [kicked, hNone]
        exact .keeps hSt hKeeps
      · have hKick : st.cli.kicks g.st.cli.nextKick = some f := by
          rw [hKicks.kicks, ← hKicks.kick, Function.update_self]
        have hOp : st.eng.ops g.st.cli.nextKick = some op := by
          rw [hKicks.ops, ← hKicks.kick, Function.update_self]
        simp only [kicked, hKick, hOp]
        exact .kicks hSt (not_not.mp hOffered) hKicks
  | rpc k out => exact rpc_change hStep

theorem Run.induct {P : Grpc → Prop} (h : Run (onWorker ok) g) (hInit : P init)
    (hChange : ∀ g a g', Run (onWorker ok) g → State.Run ok g.st → P g → g.onWorker ok a →
      g.Change a g' → P g') : P g :=
  h.invariant hInit fun _ _ _ hRun hP hA hStep =>
    hChange _ _ _ hRun (Run.worker hOk hRun) hP hA (Run.change hOk hRun hStep)

end Runs

end Grpc

end GrpcClient
