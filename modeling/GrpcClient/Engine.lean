import Mathlib.Logic.Function.Basic
import GrpcClient.TaskQueue

/-! # The gRPC engine

`grpc-engine/main.go` with what it uses of `grpc-engine/conn/grpc.go`. Every
operation is a goroutine that first runs the RPC, then reports, and then runs
its deferred `reportPanic`. What the RPC returns is the environment's choice.

An operation is named by the number of the kick-off that started it, a
`grpc.ClientConn` by the number of its connect, and a `conn.Stream` by the
operation that opened it.
-/

namespace GrpcClient

inductive Fault
  | useAfterFree
  | nullDeref
  | assertFailed
  | deadCoroutine
  | connPanic
  | streamPanic
deriving DecidableEq, Repr

/-- Why a step does not happen: the action is not possible in this state, or
the worker process goes down in it. -/
inductive Stop
  | blocked
  | fault (f : Fault)
deriving DecidableEq, Repr

inductive OpKind
  | call
  | newStream
  | recv
  | send
  | closeSend
deriving DecidableEq, Repr

def OpKind.onStream : OpKind → Bool
  | .recv | .send | .closeSend => true
  | .call | .newStream => false

/-- Where a goroutine is. `deferred` carries what `recover()` will return. -/
inductive Phase
  | running
  | reporting (result err : Option Bytes)
  | deferred (panicked : Option Bytes)
  | finished
deriving DecidableEq, Repr

/-- The goroutine has still to call `ReportFinishedTask`. -/
def Phase.unreported : Phase → Bool
  | .running | .reporting _ _ | .deferred (some _) => true
  | .deferred none | .finished => false

structure Op where
  taskId : Ptr
  kind : OpKind
  conn : Nat
  stream : Nat
  phase : Phase
deriving DecidableEq, Repr

structure Taken where
  stream : Nat
  op : Nat
  msg : Bytes
deriving DecidableEq, Repr

structure Engine where
  engineCtxRef : Ptr → Option Nat
  streamRef : Ptr → Option Nat
  ops : Nat → Option Op
  queue : TaskQueue
  nextConn : Nat
  closedConns : List Nat
  closedStreams : List Nat
  taken : List Taken
  reported : List TaskResult

def Engine.init : Engine where
  engineCtxRef := fun _ => none
  streamRef := fun _ => none
  ops := fun _ => none
  queue := .init
  nextConn := 0
  closedConns := []
  closedStreams := []
  taken := []
  reported := []

inductive GoOut
  | ok (out : Bytes)
  | err (text : Bytes)
  | panic (text : Bytes)
deriving DecidableEq, Repr

/-- `bytes.Buffer.Bytes()`, which is nil when nothing was written. -/
def bufferBytes (out : Bytes) : Option Bytes := if out = [] then none else some out

namespace Engine

/-- `grpc_engine_connect`. A failed or panicking dial returns NULL. -/
def grpcEngineConnect (e : Engine) (dial : GoOut) (ref : Ptr) : Option Ptr × Engine :=
  match dial with
  | .ok _ =>
    (some ref, { e with
      engineCtxRef := Function.update e.engineCtxRef ref (some e.nextConn)
      nextConn := e.nextConn + 1 })
  | .err _ | .panic _ => (none, e)

def grpcEngineClose (e : Engine) (ref : Ptr) : Engine :=
  match e.engineCtxRef ref with
  | none => e
  | some c =>
    { e with
      engineCtxRef := Function.update e.engineCtxRef ref none
      closedConns := e.closedConns ++ [c] }

def grpcEngineCloseStream (e : Engine) (sctx : Ptr) : Engine :=
  match e.streamRef sctx with
  | none => e
  | some s =>
    { e with
      streamRef := Function.update e.streamRef sctx none
      closedStreams := e.closedStreams ++ [s] }

/-- The `go func()` at the end of every exported operation. -/
def start (e : Engine) (k : Nat) (op : Op) : Engine :=
  { e with ops := Function.update e.ops k (some op) }

/-- `grpc_engine_call` and `grpc_engine_new_stream` up to the goroutine. -/
def openOp (e : Engine) (k : Nat) (kind : OpKind) (taskId ref : Ptr) : Except Stop Engine :=
  match e.engineCtxRef ref with
  | none => .error (.fault .connPanic)
  | some c => .ok (e.start k ⟨taskId, kind, c, k, .running⟩)

def grpcEngineCall (e : Engine) (k : Nat) (taskId ref : Ptr) : Except Stop Engine :=
  e.openOp k .call taskId ref

def grpcEngineNewStream (e : Engine) (k : Nat) (sctx ref : Ptr) : Except Stop Engine :=
  e.openOp k .newStream sctx ref

/-- `grpc_engine_stream_recv`, `_send` and `_close_send` up to the goroutine. -/
def streamOp (e : Engine) (k : Nat) (kind : OpKind) (sctx : Ptr) : Except Stop Engine :=
  match e.streamRef sctx with
  | none => .error (.fault .streamPanic)
  | some s => .ok (e.start k ⟨sctx, kind, 0, s, .running⟩)

def grpcEngineStreamRecv (e : Engine) (k : Nat) (sctx : Ptr) : Except Stop Engine :=
  e.streamOp k .recv sctx

def grpcEngineStreamSend (e : Engine) (k : Nat) (sctx : Ptr) : Except Stop Engine :=
  e.streamOp k .send sctx

def grpcEngineStreamCloseSend (e : Engine) (k : Nat) (sctx : Ptr) : Except Stop Engine :=
  e.streamOp k .closeSend sctx

def setPhase (e : Engine) (k : Nat) (op : Op) (phase : Phase) : Engine :=
  { e with ops := Function.update e.ops k (some { op with phase }) }

/-- What the body of a goroutine does when its RPC succeeds: a stream is
stored before the report, and a received message has left the stream. -/
def succeed (e : Engine) (k : Nat) (op : Op) (out : Bytes) : Engine :=
  match op.kind with
  | .call => e.setPhase k op (.reporting (bufferBytes out) none)
  | .newStream =>
    { e.setPhase k op (.reporting none none) with
      streamRef := Function.update e.streamRef op.taskId (some k) }
  | .recv =>
    { e.setPhase k op (.reporting (bufferBytes out) none) with
      taken := e.taken ++ [⟨op.stream, k, out⟩] }
  | .send | .closeSend => e.setPhase k op (.reporting none none)

/-- The RPC of goroutine `k` returns or panics. -/
def goReturn (e : Engine) (k : Nat) (out : GoOut) : Except Stop Engine :=
  match e.ops k with
  | some op =>
    if op.phase = .running then
      match out with
      | .ok bytes => .ok (e.succeed k op bytes)
      | .err text => .ok (e.setPhase k op (.reporting none (some text)))
      | .panic text => .ok (e.setPhase k op (.deferred (some text)))
    else .error .blocked
  | none => .error .blocked

def reportFinishedTask (e : Engine) (r : TaskResult) : Engine :=
  { e with queue := e.queue.reportFinishedTask r, reported := e.reported ++ [r] }

/-- The body of goroutine `k` reports. -/
def goReport (e : Engine) (k : Nat) : Except Stop Engine :=
  match e.ops k with
  | some op =>
    match op.phase with
    | .reporting result err =>
      .ok ((e.reportFinishedTask ⟨op.taskId, result, err, k⟩).setPhase k op (.deferred none))
    | _ => .error .blocked
  | none => .error .blocked

/-- The deferred `reportPanic` of goroutine `k`. -/
def reportPanic (e : Engine) (k : Nat) : Except Stop Engine :=
  match e.ops k with
  | some op =>
    match op.phase with
    | .deferred none => .ok (e.setPhase k op .finished)
    | .deferred (some text) =>
      .ok ((e.reportFinishedTask ⟨op.taskId, none, some text, k⟩).setPhase k op .finished)
    | _ => .error .blocked
  | none => .error .blocked

end Engine

end GrpcClient
