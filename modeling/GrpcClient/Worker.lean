import GrpcClient.Client

/-! # One worker: event loop, wait thread and engine together

The rest of `src/ngx_grpc_client.c`: the wait thread with its two handlers, the
functions that Lua calls, and the interleaving of all parties. One action is
one event-loop callback, one call from Lua up to its yield, one iteration of
the loop that drains the posted results, or one atomic piece of the wait thread
or of a goroutine. Lua code that a resumed coroutine runs is the actions that
follow, so it may come in the middle of the drain.

The functions of `lib/resty/grpc.lua` have `lua` in front of their names.

Memory that the allocator hands out, the success of a thread post and the
context checks of lua-nginx-module are parameters of the actions.
-/

namespace GrpcClient

/-- Where the wait task is. It is active from its post until the event loop
takes its completion. -/
inductive ThreadPhase
  | idle
  | waiting
  | returned
  | completed
deriving DecidableEq, Repr

structure Batch where
  id : Nat
  recs : List TaskRes
deriving DecidableEq, Repr

/-- `ngx_grpc_cli_thread_ctx_t`. A posted event context is the result it
holds. Ghost fields are `nextBatch`, `processed` and `lost`. -/
structure ThreadCtx where
  phase : ThreadPhase
  finishedTasks : Option Batch
  finishedTaskNum : Nat
  posted : Bool
  occupied : List TaskRes
  free : List TaskRes
  nextBatch : Nat
  processed : List TaskRes
  lost : List TaskRes

def ThreadCtx.init : ThreadCtx := ⟨.idle, none, 0, false, [], [], 0, [], []⟩

structure Mem where
  freedBufs : List Nat
  freedArrays : List Nat

def Mem.init : Mem := ⟨[], []⟩

structure State where
  cli : Cli
  eng : Engine
  thread : ThreadCtx
  mem : Mem
  draining : Bool
  quit : Bool
  exiting : Bool
  terminate : Bool

def State.init : State := ⟨.init, .init, .init, .init, false, false, false, false⟩

structure KickEnv where
  reqCtx : Bool
  badContext : Option String
  postOk : Bool
  node : Option Ptr
  sctx : Option Ptr
deriving DecidableEq, Repr

def Mem.freeBuf (m : Mem) (b : Option Buf) : Mem :=
  match b with
  | none => m
  | some b => { m with freedBufs := m.freedBufs ++ [b.addr] }

def Mem.freeArray (m : Mem) (b : Batch) : Mem :=
  { m with freedArrays := m.freedArrays ++ [b.id] }

namespace ThreadCtx

def active (th : ThreadCtx) : Bool := decide (th.phase ≠ .idle)

/-- `ngx_thread_task_post`; `none` is `NGX_ERROR`. -/
def taskPost (th : ThreadCtx) (postOk : Bool) : Option ThreadCtx :=
  if th.active then none
  else if postOk then some { th with phase := .waiting }
  else none

def scheduleTaskThreadIfNeeded (th : ThreadCtx) (postOk : Bool) : Option ThreadCtx :=
  if th.active then some th else th.taskPost postOk

def insertPostedEventCtx (th : ThreadCtx) (memOk : Bool) (r : TaskRes) : ThreadCtx :=
  match th.free with
  | _ :: free => { th with free, occupied := th.occupied ++ [r] }
  | [] =>
    if memOk then { th with occupied := th.occupied ++ [r] }
    else { th with lost := th.lost ++ [r] }

/-- The loop of `ngx_grpc_cli_thread_event_handler`, where the allocations of
the records numbered in `oom` fail. -/
def insertAll (oom : List Nat) (i : Nat) (th : ThreadCtx) : List TaskRes → ThreadCtx
  | [] => th
  | r :: rs => insertAll oom (i + 1) (th.insertPostedEventCtx (decide (i ∉ oom)) r) rs

end ThreadCtx

namespace State

/-- `grpc_engine_wait` returns to `ngx_grpc_cli_thread_handler`. -/
def waitReturn (s : State) : Except Stop State :=
  if s.thread.phase = .waiting then
    match s.eng.queue.wait with
    | none => .error .blocked
    | some (recs, queue) =>
      -- an empty batch is the NULL array
      let batch := if recs = [] then none else some ⟨s.thread.nextBatch, recs⟩
      .ok { s with
        eng := { s.eng with queue }
        thread := { s.thread with
          phase := .returned
          finishedTasks := batch
          finishedTaskNum := recs.length
          nextBatch := s.thread.nextBatch + 1 } }
  else .error .blocked

def threadTest (s : State) : Except Stop State :=
  if s.thread.phase = .returned then
    let thread := { s.thread with phase := .completed }
    if s.exiting ∨ s.terminate then
      match s.thread.finishedTasks with
      | none => .ok { s with thread }
      | some b =>
        .ok { s with thread, mem := (b.recs.foldl (fun m r => m.freeBuf r.buf) s.mem).freeArray b }
    else .ok { s with thread }
  else .error .blocked

def readBatch (s : State) : Except Stop (List TaskRes) :=
  if s.thread.finishedTaskNum = 0 then .ok []
  else do
    let b ← nonNull s.thread.finishedTasks
    if b.id ∈ s.mem.freedArrays then .error (.fault .useAfterFree)
    else .ok (b.recs.take s.thread.finishedTaskNum)

def postBatch (s : State) (oom : List Nat) : Except Stop State := do
  let recs ← s.readBatch
  let thread := { s.thread with phase := .idle }.insertAll oom 0 recs
  match s.thread.finishedTasks with
  | some b =>
    if s.thread.finishedTaskNum > 0 then
      .ok { s with
        thread := { thread with finishedTasks := none, posted := true }
        mem := s.mem.freeArray b }
    else .ok { s with thread }
  | none => .ok { s with thread }

/-- `ngx_thread_pool_handler` clears `active` and runs
`ngx_grpc_cli_thread_event_handler`. -/
def threadEventHandler (s : State) (oom : List Nat) (postOk : Bool) : Except Stop State :=
  if s.thread.phase = .completed ∧ ¬ s.draining then do
    let t ← s.postBatch oom
    if s.quit ∨ s.exiting then .ok t
    else if s.cli.taskNum ≤ s.thread.finishedTaskNum then .ok t
    else
      match t.thread.taskPost postOk with
      | some thread => .ok { t with thread }
      | none => .ok t
  else .error .blocked

def postEvent (s : State) : Except Stop State :=
  if s.thread.posted ∧ ¬ s.draining then
    .ok { s with thread := { s.thread with posted := false }, draining := true }
  else .error .blocked

/-- One round of the loop of `ngx_grpc_cli_thread_post_event_handler`. -/
def threadPostEventHandler (s : State) : Except Stop State :=
  if s.draining then
    match s.thread.occupied with
    | [] => .ok { s with draining := false }
    | r :: occupied =>
      let thread := { s.thread with
        occupied, free := s.thread.free ++ [r], processed := s.thread.processed ++ [r] }
      match s.cli.lookupTask r.taskId with
      | none => .ok { s with thread, mem := s.mem.freeBuf r.buf }
      | some _ => do
        let (freed, cli) ← s.cli.deliver r
        .ok { s with cli, thread, mem := s.mem.freeBuf freed }
  else .error .blocked

/-- `ngx_grpc_cli_kick_off_task`; `none` is `NGX_OK`. -/
def kickOffTask (s : State) (env : KickEnv) (p : Ptr) (co : Nat) :
    Except Stop (Option String × State) :=
  if env.reqCtx = false then .ok (some "no request ctx found", s)
  else
    match env.badContext with
    | some msg => .ok (some msg, s)
    | none =>
      match s.thread.scheduleTaskThreadIfNeeded env.postOk with
      | none => .ok (some "task post failed", s)
      | some thread => do
        match ← s.cli.keepTask p env.node with
        | none => .ok (some "no memory", { s with thread })
        | some cli =>
          let cli ← cli.armWait p co
          .ok (none, { s with cli, thread })

/-- `ngx_grpc_cli_new_stream`: the error message or the sctx. -/
def newStream (s : State) (c : Ptr) (r : Nat) (isHttp : Bool) (type : StreamType) (co : Nat)
    (env : KickEnv) : Except Stop (Except String Ptr × State) := do
  let cc ← deref s.cli.ctxs c
  match cc.engineCtx with
  | none => .ok (.error "closed", s)
  | some ref =>
    match ← s.cli.takeSctx c env.sctx r isHttp type with
    | none => .ok (.error "no memory", s)
    | some (p, cli) =>
      match ← { s with cli }.kickOffTask env p co with
      | (some msg, s) =>
        let cli ← s.cli.pushFree c p
        .ok (.error msg, { s with cli })
      | (none, s) =>
        if type = .unary then do
          let eng ← s.eng.grpcEngineCall s.cli.nextKick p ref
          .ok (.ok p, { s with eng })
        else do
          let eng ← s.eng.grpcEngineNewStream s.cli.nextKick p ref
          let cli ← s.cli.pushOpening c p
          .ok (.ok p, { s with eng, cli })

/-- The common body of `ngx_grpc_cli_stream_recv`, `_send` and `_close_send`. -/
def streamOp (engineOp : Engine → Nat → Ptr → Except Stop Engine) (s : State) (p : Ptr) (r : Nat)
    (co : Nat) (env : KickEnv) : Except Stop (Option String × State) := do
  let sc ← deref s.cli.sctxs p
  match Cli.checkStreamStatus sc r with
  | some msg => .ok (some msg, s)
  | none =>
    match ← s.kickOffTask env p co with
    | (some msg, s) => .ok (some msg, s)
    | (none, s) =>
      let eng ← engineOp s.eng s.cli.nextKick p
      .ok (none, { s with eng })

def streamRecv : State → Ptr → Nat → Nat → KickEnv → Except Stop (Option String × State) :=
  streamOp Engine.grpcEngineStreamRecv

def streamSend : State → Ptr → Nat → Nat → KickEnv → Except Stop (Option String × State) :=
  streamOp Engine.grpcEngineStreamSend

def streamCloseSend : State → Ptr → Nat → Nat → KickEnv → Except Stop (Option String × State) :=
  streamOp Engine.grpcEngineStreamCloseSend

def connect (s : State) (alloc : Option Ptr) (dial : GoOut) (ref : Ptr) :
    Except Stop (Option Ptr × State) :=
  match alloc with
  | none => .ok (none, s)
  | some c =>
    if (s.cli.ctxs c).isSome ∨ (s.eng.engineCtxRef ref).isSome then .error .blocked
    else
      match s.eng.grpcEngineConnect dial ref with
      | (none, eng) => .ok (none, { s with eng })
      | (some ref, eng) =>
        .ok (some c, { s with eng, cli := s.cli.setCtx c ⟨some ref, [], [], false, s.eng.nextConn⟩ })

def closeEngineCtx (s : State) (c : Ptr) : Except Stop State := do
  let cc ← deref s.cli.ctxs c
  match cc.engineCtx with
  | none => .ok s
  | some ref =>
    .ok { s with
      eng := s.eng.grpcEngineClose ref
      cli := s.cli.setCtx c { cc with engineCtx := none } }

/-- `ngx_grpc_cli_close`; `gc` is the call from the finaliser. -/
def close (s : State) (c : Ptr) (gc : Bool) : Except Stop State := do
  let s ← s.closeEngineCtx c
  if gc then do
    let cc ← deref s.cli.ctxs c
    if cc.opening = [] then do
      let cli ← s.cli.freeConn c
      .ok { s with cli }
    else .ok { s with cli := s.cli.setCtx c { cc with freeDelayed := true } }
  else .ok s

def closeStream (s : State) (p : Ptr) (gc : Bool) : Except Stop State :=
  let s := { s with eng := s.eng.grpcEngineCloseStream p }
  if gc then do
    let cli ← s.cli.releaseSctx p
    .ok { s with cli }
  else .ok s

end State

inductive Action
  | connect (alloc : Option Ptr) (dial : GoOut) (ref : Ptr)
  | connClose (g : Nat)
  | connGc (g : Nat)
  | call (g co r : Nat) (isHttp : Bool) (env : KickEnv)
  | newStream (g co r : Nat) (isHttp : Bool) (type : StreamType) (env : KickEnv)
  | recv (h co r : Nat) (env : KickEnv)
  | send (h co r : Nat) (env : KickEnv)
  | closeSend (h co r : Nat) (env : KickEnv)
  | streamClose (h : Nat)
  | streamGc (h : Nat)
  | timer (co : Nat)
  | abort (co : Nat)
  | goReturn (k : Nat) (out : GoOut)
  | goReport (k : Nat)
  | goDefer (k : Nat)
  | waitTimer
  | waitReturn
  | threadTest
  | threadEvent (oom : List Nat) (postOk : Bool)
  | postEvent
  | drain
  | quit
  | exit
  | terminate
deriving DecidableEq, Repr

namespace State

def handle (m : Nat → Option Handle) (g : Nat) : Except Stop Handle :=
  match m g with
  | some hd => .ok hd
  | none => .error .blocked

def luaConnect (s : State) (alloc : Option Ptr) (dial : GoOut) (ref : Ptr) : Except Stop State := do
  let (c, t) ← s.connect alloc dial ref
  match c with
  | none => .ok t
  | some c =>
    .ok { t with cli := { t.cli with
      conns := Function.update t.cli.conns s.eng.nextConn (some ⟨c, false⟩) } }

def luaConnClose (s : State) (g : Nat) : Except Stop State := do
  let hd ← handle s.cli.conns g
  if hd.closed then .ok s
  else
    let conns := Function.update s.cli.conns g (some { hd with closed := true })
    close { s with cli := { s.cli with conns } } hd.ctx false

def luaStreamClose (s : State) (h : Nat) : Except Stop State := do
  let hd ← handle s.cli.streams h
  if hd.closed then .ok s
  else
    let streams := Function.update s.cli.streams h (some { hd with closed := true })
    closeStream { s with cli := { s.cli with streams } } hd.ctx false

/-- `ctx_gc_handler`. Lua does not finalise a handle to which the frame of a
suspended coroutine refers. -/
def luaConnGc (s : State) (g : Nat) : Except Stop State := do
  let hd ← handle s.cli.conns g
  if ∃ f ∈ s.cli.suspended, f.op.onStream = false ∧ f.handle = g then .error .blocked
  else
    let conns := Function.update s.cli.conns g none
    close { s with cli := { s.cli with conns } } hd.ctx true

def luaStreamGc (s : State) (h : Nat) : Except Stop State := do
  let hd ← handle s.cli.streams h
  if ∃ f ∈ s.cli.suspended, f.op.onStream = true ∧ f.handle = h then .error .blocked
  else
    let streams := Function.update s.cli.streams h none
    closeStream { s with cli := { s.cli with streams } } hd.ctx true

/-- `Conn:call` and `new_stream` up to the yield. -/
def luaOpen (s : State) (op : OpKind) (type : StreamType) (g co r : Nat) (isHttp : Bool)
    (env : KickEnv) : Except Stop State := do
  let hd ← handle s.cli.conns g
  if (s.cli.frames co).isSome then .error .blocked
  else if hd.closed then .ok s
  else
    match ← s.newStream hd.ctx r isHttp type co env with
    | (.error _, t) => .ok t
    | (.ok p, t) => .ok { t with cli := t.cli.yield co op p g }

def luaCall (s : State) (g co r : Nat) (isHttp : Bool) (env : KickEnv) : Except Stop State :=
  s.luaOpen .call .unary g co r isHttp env

def luaNewStream (s : State) (g co r : Nat) (isHttp : Bool) (type : StreamType) (env : KickEnv) :
    Except Stop State :=
  if type = .unary then .error .blocked else s.luaOpen .newStream type g co r isHttp env

/-- The common body of `stream_recv`, `stream_send` and `stream_close_send` up
to the yield. -/
def luaStreamOp (cOp : State → Ptr → Nat → Nat → KickEnv → Except Stop (Option String × State))
    (op : OpKind) (s : State) (h co r : Nat) (env : KickEnv) : Except Stop State := do
  let hd ← handle s.cli.streams h
  if (s.cli.frames co).isSome then .error .blocked
  else if hd.closed then .ok s
  else
    match ← cOp s hd.ctx r co env with
    | (some _, t) => .ok t
    | (none, t) => .ok { t with cli := t.cli.yield co op hd.ctx h }

def luaRecv : State → Nat → Nat → Nat → KickEnv → Except Stop State :=
  luaStreamOp streamRecv .recv

def luaSend : State → Nat → Nat → Nat → KickEnv → Except Stop State :=
  luaStreamOp streamSend .send

def luaCloseSend : State → Nat → Nat → Nat → KickEnv → Except Stop State :=
  luaStreamOp streamCloseSend .closeSend

def timer (s : State) (co : Nat) : Except Stop State :=
  if s.draining then .error .blocked
  else do
    let (freed, cli) ← s.cli.expireTimer co
    .ok { s with cli, mem := s.mem.freeBuf freed }

def step (s : State) : Action → Except Stop State
  | .connect alloc dial ref => s.luaConnect alloc dial ref
  | .connClose g => s.luaConnClose g
  | .connGc g => s.luaConnGc g
  | .call g co r isHttp env => s.luaCall g co r isHttp env
  | .newStream g co r isHttp type env => s.luaNewStream g co r isHttp type env
  | .recv h co r env => s.luaRecv h co r env
  | .send h co r env => s.luaSend h co r env
  | .closeSend h co r env => s.luaCloseSend h co r env
  | .streamClose h => s.luaStreamClose h
  | .streamGc h => s.luaStreamGc h
  | .timer co => s.timer co
  | .abort co => do
    let cli ← s.cli.abort co
    .ok { s with cli }
  | .goReturn k out => do
    let eng ← s.eng.goReturn k out
    .ok { s with eng }
  | .goReport k => do
    let eng ← s.eng.goReport k
    .ok { s with eng }
  | .goDefer k => do
    let eng ← s.eng.reportPanic k
    .ok { s with eng }
  | .waitTimer => .ok { s with eng := { s.eng with queue := s.eng.queue.signal } }
  | .waitReturn => s.waitReturn
  | .threadTest => s.threadTest
  | .threadEvent oom postOk => s.threadEventHandler oom postOk
  | .postEvent => s.postEvent
  | .drain => s.threadPostEventHandler
  | .quit => .ok { s with quit := true }
  | .exit => .ok { s with quit := false, exiting := true }
  | .terminate => .ok { s with terminate := true }

end State

end GrpcClient
