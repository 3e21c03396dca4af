import GrpcClient.Answers
import GrpcClient.LoadSequence

/-! # The functions that an application calls

`Conn:call`, the stream constructors and the methods of the streams in
`lib/resty/grpc.lua` from their arguments to what they return, outside of
`init_worker`. Each of them looks up its method, encodes, kicks off an operation
and yields. A coroutine that is resumed goes on behind its yield, decodes and
returns, all before the next step of the worker.

The ghost fields `args` and `lib` of `Asked` and `lib` of `Return` say what a
function was called with, and the library as it found it then and as it found it
behind its yield.
-/

namespace GrpcClient

variable {P : Protobuf}

/-- `pb.encode` and `pb.decode`. A missing payload is nil, and an error is the
text that they raise. -/
structure Codec (P : Protobuf) where
  Value : Type
  encode : PbState P → String → Value → Except Bytes Bytes
  decode : PbState P → String → Option Bytes → Except Bytes Value

/-- The types and the option that a call keeps over its yield, or its stream. -/
structure Stub where
  inputType : String
  outputType : String
  int64Encoding : Option Nat
deriving DecidableEq, Repr

inductive Args (C : Codec P)
  | opens (service method : String) (req : C.Value) (int64Encoding : Option Nat)
  | sends (req : C.Value)
  | polls

/-- An operation that waits: what its function keeps over the yield, and the
ghosts. -/
structure Asked (C : Codec P) where
  stub : Stub
  args : Args C
  lib : Library P

/-- A failure is nil and the text `what` followed by `err`. -/
inductive LuaResult (C : Codec P)
  | value (v : C.Value)
  | stream (h : Nat)
  | done
  | failed (what : String) (err : Bytes)

/-- What a function returned in coroutine `co`; without a kick-off it did not yield. -/
structure Return (C : Codec P) where
  co : Nat
  kick : Option Nat
  result : LuaResult C
  lib : Library P

structure Api (C : Codec P) where
  grpc : Grpc
  lib : Library P
  asked : Nat → Option (Asked C)
  stubs : Nat → Option Stub
  returns : List (Return C)

def OpKind.failText : OpKind → String
  | .call => "failed to call: "
  | .newStream => "failed to new stream: "
  | .recv => "failed to recv: "
  | .send => "failed to send: "
  | .closeSend => "failed to close send: "

/-- The values that `coroutine._yield` returns; a killed coroutine gets none. -/
def Outcome.reply : Outcome → Option Reply
  | .result r => some r.reply
  | .timeout => some (.fail timeoutMsg)
  | .aborted => none

def Action.kicksOff : Action → Bool
  | .call .. | .newStream .. | .recv .. | .send .. | .closeSend .. => true
  | _ => false

namespace State

def openRefusal (s : State) (type : StreamType) (g co r : Nat) (isHttp : Bool) (env : KickEnv) :
    String :=
  match handle s.cli.conns g with
  | .ok hd =>
    match s.newStream hd.ctx r isHttp type co env with
    | .ok (.error text, _) => text
    | _ => ""
  | .error _ => ""

def streamRefusal (s : State)
    (cOp : State → Ptr → Nat → Nat → KickEnv → Except Stop (Option String × State))
    (h co r : Nat) (env : KickEnv) : String :=
  match handle s.cli.streams h with
  | .ok hd =>
    match cOp s hd.ctx r co env with
    | .ok (some text, _) => text
    | _ => ""
  | .error _ => ""

def refusal (s : State) : Action → String
  | .call g co r isHttp env => s.openRefusal .unary g co r isHttp env
  | .newStream g co r isHttp type env => s.openRefusal type g co r isHttp env
  | .recv h co r env => s.streamRefusal streamRecv h co r env
  | .send h co r env => s.streamRefusal streamSend h co r env
  | .closeSend h co r env => s.streamRefusal streamCloseSend h co r env
  | _ => ""

def resumed (s t : State) : Option (Frame × Reply) := do
  let (k, o) ← t.cli.outcomes[s.cli.outcomes.length]?
  let f ← t.cli.kicks k
  let reply ← o.reply
  pure (f, reply)

end State

namespace Api

variable {C : Codec P}

def init (C : Codec P) : Api C := ⟨.init, .init P, fun _ => none, fun _ => none, []⟩

def failed (w : Api C) (co : Nat) (what : String) (err : Bytes) : Api C :=
  { w with returns := w.returns ++ [⟨co, none, .failed what err, w.lib⟩] }

def returned (w : Api C) (f : Frame) (result : LuaResult C) (lib : Library P) : Api C :=
  { w with returns := w.returns ++ [⟨f.co, some f.kick, result, lib⟩] }

def kickOff (w : Api C) (kind : OpKind) (co : Nat) (a : GrpcClient.Action) (path : String)
    (data : Bytes) (asked : Asked C) : Except Stop (Api C) := do
  let grpc ← w.grpc.step (.worker a path data)
  match grpc.st.cli.kicks w.grpc.st.cli.nextKick with
  | none => .ok ({ w with grpc }.failed co (kind.failText ++ w.grpc.st.refusal a) [])
  | some f => .ok { w with grpc, asked := Function.update w.asked f.kick (some asked) }

def sendOff (w : Api C) (kind : OpKind) (co : Nat) (a : GrpcClient.Action) (args : Args C)
    (stub : Stub) (path : String) (req : C.Value) : Except Stop (Api C) :=
  let (pb, lib) := w.lib.loadState stub.int64Encoding
  match C.encode pb.2 stub.inputType req with
  | .error text => .ok ({ w with lib }.failed co "failed to encode: " text)
  | .ok data => { w with lib }.kickOff kind co a path data ⟨stub, args, w.lib⟩

/-- `Conn:call` and `new_stream`. A coroutine that is suspended calls nothing. -/
def luaOpen (w : Api C) (kind : OpKind) (g co : Nat) (a : GrpcClient.Action)
    (service method : String) (req : C.Value) (int64Encoding : Option Nat) :
    Except Stop (Api C) :=
  if (w.grpc.st.cli.frames co).isSome then .error .blocked
  else if w.lib.protocInst.isNone then .ok (w.failed co "proto files not loaded" [])
  else do
    let hd ← State.handle w.grpc.st.cli.conns g
    if hd.closed then .ok (w.failed co "closed" [])
    else
      match w.lib.findMethod service method with
      | .error text => .ok (w.failed co text [])
      | .ok m =>
        w.sendOff kind co a (.opens service method req int64Encoding)
          ⟨m.inputType, m.outputType, int64Encoding⟩ ("/" ++ service ++ "/" ++ method) req

/-- `stream_recv`, `stream_send` and `stream_close_send`, of which only the
second has a request. -/
def luaStreamOp (w : Api C) (kind : OpKind) (h co : Nat) (a : GrpcClient.Action)
    (req : Option C.Value) : Except Stop (Api C) :=
  if (w.grpc.st.cli.frames co).isSome then .error .blocked
  else do
    let hd ← State.handle w.grpc.st.cli.streams h
    match w.stubs h with
    | none => .error .blocked
    | some stub =>
      if hd.closed then .ok (w.failed co "closed" [])
      else
        match req with
        | none => w.kickOff kind co a "" [] ⟨stub, .polls, w.lib⟩
        | some req => w.sendOff kind co a (.sends req) stub "" req

/-- `stream_recv_close` closes the stream once it has its message. -/
def recvClose (w : Api C) (f : Frame) : Except Stop (Api C) :=
  if f.op = .recv ∧ w.grpc.typeOf f.handle = .clientStream then do
    let grpc ← w.grpc.step (.worker (.streamClose f.handle) "" [])
    .ok { w with grpc }
  else .ok w

def luaReturn (w : Api C) (f : Frame) (asked : Asked C) (reply : Reply) : Except Stop (Api C) :=
  match reply with
  | .fail err => .ok (w.returned f (.failed f.op.failText err) w.lib)
  | .ok payload =>
    match f.op with
    | .newStream =>
      .ok ({ w with stubs := Function.update w.stubs f.kick (some asked.stub) }.returned f
        (.stream f.kick) w.lib)
    | .send | .closeSend => .ok (w.returned f .done w.lib)
    | .call | .recv =>
      let (pb, lib) := w.lib.loadState asked.stub.int64Encoding
      match C.decode pb.2 asked.stub.outputType payload with
      | .error text => .ok ({ w with lib }.returned f (.failed "failed to decode: " text) w.lib)
      | .ok v => ({ w with lib }.returned f (.value v) w.lib).recvClose f

def onWorker (w : Api C) (a : GrpcClient.Action) : Except Stop (Api C) := do
  let grpc ← w.grpc.step (.worker a "" [])
  match w.grpc.st.resumed grpc.st with
  | none => .ok { w with grpc }
  | some (f, reply) =>
    match w.asked f.kick with
    | none => .error .blocked
    | some asked => ({ w with grpc } : Api C).luaReturn f asked reply

inductive Action (C : Codec P)
  | call (g co r : Nat) (isHttp : Bool) (env : KickEnv) (service method : String) (req : C.Value)
      (int64Encoding : Option Nat)
  | newStream (g co r : Nat) (isHttp : Bool) (type : StreamType) (env : KickEnv)
      (service method : String) (req : C.Value) (int64Encoding : Option Nat)
  | recv (h co r : Nat) (env : KickEnv)
  | send (h co r : Nat) (env : KickEnv) (req : C.Value)
  | closeSend (h co r : Nat) (env : KickEnv)
  | worker (a : GrpcClient.Action)
  | rpc (k : Nat) (out : GoOut)
  | load (l : LoadArgs)
  | appState (s : Option Nat)

def step (w : Api C) : Action C → Except Stop (Api C)
  | .call g co r isHttp env service method req enc =>
    w.luaOpen .call g co (.call g co r isHttp env) service method req enc
  | .newStream g co r isHttp type env service method req enc =>
    w.luaOpen .newStream g co (.newStream g co r isHttp type env) service method req enc
  | .recv h co r env => w.luaStreamOp .recv h co (.recv h co r env) none
  | .send h co r env req => w.luaStreamOp .send h co (.send h co r env) (some req)
  | .closeSend h co r env => w.luaStreamOp .closeSend h co (.closeSend h co r env) none
  | .worker a => if a.kicksOff then .error .blocked else w.onWorker a
  | .rpc k out => do
    let grpc ← w.grpc.step (.rpc k out)
    .ok { w with grpc }
  | .load l => .ok { w with lib := (w.lib.load l).2 }
  | .appState s => do
    let lib ← w.lib.step (.appState s)
    .ok { w with lib }

abbrev Run (ok : Api C → Action C → Prop) : Api C → Prop := Transition.Reaches step ok (init C)

abbrev Reachable : Api C → Prop := Run fun _ _ => True

def after (ok : Api C → Action C → Prop) [∀ w a, Decidable (ok w a)] (as : List (Action C)) :
    Option (Api C) :=
  Transition.exec step ok (init C) as

theorem run_after (ok : Api C → Action C → Prop) [∀ w a, Decidable (ok w a)]
    (as : List (Action C)) (h : (after ok as).isSome) : Run ok ((after ok as).get h) :=
  Transition.exec_reaches h

end Api

end GrpcClient
