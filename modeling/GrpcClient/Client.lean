import GrpcClient.Engine

/-! # The nginx side: contexts, task registry and suspended coroutines

The data and the static functions of `src/ngx_grpc_client.c` that touch no
thread and no engine, with the part of `lib/resty/grpc.lua` and of
lua-nginx-module that suspends and resumes a coroutine around them. The HTTP
and the stream subsystem have the same code twice; here it is one function and
`isHttp` selects the cleanup hook. A function stands under its name in the
source, without the prefix `ngx_grpc_cli_`.

A pointer is an address, and a missing entry of a map is an address that is
not allocated. The red-black tree is the list of its nodes. Ghost fields are
`owner` (the connect a context belongs to), `kicks`, `nextKick`, `outcomes` and
`received`.
-/

namespace GrpcClient

inductive CliState
  | ok
  | timeout
deriving DecidableEq, Repr

inductive StreamType
  | unary
  | clientStream
  | serverStream
  | bidirectionalStream
deriving DecidableEq, Repr

/-- `ngx_grpc_cli_stream_ctx_t` without the queue link, which is membership in
a list of the parent. -/
structure StreamCtx where
  r : Option Nat
  waitCoCtx : Option Nat
  prevData : Option Ptr
  res : Option TaskRes
  state : CliState
  node : Option Ptr
  parent : Option Ptr
  type : StreamType
  isHttp : Bool
  owner : Nat
deriving DecidableEq, Repr

def StreamCtx.zero : StreamCtx := ⟨none, none, none, none, .ok, none, none, .unary, false, 0⟩

/-- `ngx_grpc_cli_ctx_t`. The lists are in queue order, head first. -/
structure Ctx where
  engineCtx : Option Ptr
  opening : List Ptr
  free : List Ptr
  freeDelayed : Bool
  owner : Nat
deriving DecidableEq, Repr

inductive Cleanup
  | http
  | stream
deriving DecidableEq, Repr

def Cleanup.of (isHttp : Bool) : Cleanup := if isHttp then .http else .stream

structure CoCtx where
  data : Option Ptr
  timerSet : Bool
  sleepData : Option Ptr
  cleanup : Option Cleanup
deriving DecidableEq, Repr

structure Node where
  addr : Ptr
  key : Ptr
deriving DecidableEq, Repr

inductive Reply
  | ok (payload : Option Bytes)
  | fail (msg : Bytes)
deriving DecidableEq, Repr

inductive Outcome
  | result (r : TaskRes)
  | timeout
  | aborted
deriving DecidableEq, Repr

/-- The Lua frame of a coroutine suspended in an operation. The handle is the
connection's for a call or a stream open and the stream's otherwise. -/
structure Frame where
  kick : Nat
  co : Nat
  op : OpKind
  sctx : Ptr
  handle : Nat
deriving DecidableEq, Repr

/-- A Lua table over a C context; `closed` is `self.ctx == nil`. -/
structure Handle where
  ctx : Ptr
  closed : Bool
deriving DecidableEq, Repr

structure Received where
  stream : Nat
  payload : Bytes
deriving DecidableEq, Repr

structure Cli where
  ctxs : Ptr → Option Ctx
  sctxs : Ptr → Option StreamCtx
  ongoingTasks : List Node
  ongoingTasksNum : Int
  coctxs : Nat → CoCtx
  frames : Nat → Option Frame
  conns : Nat → Option Handle
  streams : Nat → Option Handle
  kicks : Nat → Option Frame
  nextKick : Nat
  outcomes : List (Nat × Outcome)
  received : List Received

def Cli.init : Cli where
  ctxs := fun _ => none
  sctxs := fun _ => none
  ongoingTasks := []
  ongoingTasksNum := 0
  coctxs := fun _ => ⟨none, false, none, none⟩
  frames := fun _ => none
  conns := fun _ => none
  streams := fun _ => none
  kicks := fun _ => none
  nextKick := 0
  outcomes := []
  received := []

def Cli.suspended (s : Cli) : List Frame :=
  (List.range s.nextKick).filterMap fun k =>
    (s.kicks k).filter fun f => decide (s.frames f.co = some f)

def deref {β : Type} (m : Ptr → Option β) (p : Ptr) : Except Stop β :=
  match m p with
  | some v => .ok v
  | none => .error (.fault .useAfterFree)

def nonNull {β : Type} : Option β → Except Stop β
  | some v => .ok v
  | none => .error (.fault .nullDeref)

/-- The text "timeout". -/
def timeoutMsg : Bytes := [116, 105, 109, 101, 111, 117, 116]

def TaskRes.reply (r : TaskRes) : Reply :=
  match r.type with
  | .ok => .ok (r.buf.map Buf.data)
  | .okNotRes => .ok none
  | .err => .fail ((r.buf.map Buf.data).getD [])

namespace Cli

def setSctx (s : Cli) (p : Ptr) (sc : StreamCtx) : Cli :=
  { s with sctxs := Function.update s.sctxs p (some sc) }

def setCtx (s : Cli) (c : Ptr) (cc : Ctx) : Cli :=
  { s with ctxs := Function.update s.ctxs c (some cc) }

def setCo (s : Cli) (co : Nat) (x : CoCtx) : Cli :=
  { s with coctxs := Function.update s.coctxs co x }

def lookupTask (s : Cli) (key : Ptr) : Option Node :=
  s.ongoingTasks.find? fun n => decide (n.key = key)

def taskNum (s : Cli) : Int := s.ongoingTasksNum

/-- `ngx_grpc_cli_keep_task`; `none` is `NGX_ERROR`. The allocator never gives
out the address of a live node. -/
def keepTask (s : Cli) (p : Ptr) (node : Option Ptr) : Except Stop (Option Cli) :=
  match node with
  | none => .ok none
  | some a =>
    if a ∈ s.ongoingTasks.map Node.addr then .error .blocked
    else do
      let sc ← deref s.sctxs p
      .ok (some { s.setSctx p { sc with node := some a } with
        ongoingTasksNum := s.ongoingTasksNum + 1
        ongoingTasks := ⟨a, p⟩ :: s.ongoingTasks })

def unkeepTask (s : Cli) (p : Ptr) : Except Stop Cli := do
  let sc ← deref s.sctxs p
  match sc.node with
  | none => .ok s
  | some a =>
    .ok { s.setSctx p { sc with node := none } with
      ongoingTasksNum := s.ongoingTasksNum - 1
      ongoingTasks := s.ongoingTasks.filter fun n => decide (n.addr ≠ a) }

def pushFree (s : Cli) (c p : Ptr) : Except Stop Cli := do
  let cc ← deref s.ctxs c
  .ok (s.setCtx c { cc with free := p :: cc.free })

def pushOpening (s : Cli) (c p : Ptr) : Except Stop Cli := do
  let cc ← deref s.ctxs c
  .ok (s.setCtx c { cc with opening := p :: cc.opening })

/-- The second half of `ngx_grpc_cli_kick_off_task`, after the task is kept. -/
def armWait (s : Cli) (p : Ptr) (co : Nat) : Except Stop Cli := do
  let sc ← deref s.sctxs p
  .ok ((s.setSctx p { sc with state := .ok, waitCoCtx := some co }).setCo co
    ⟨some p, true, some p, some (.of sc.isHttp)⟩)

def yield (s : Cli) (co : Nat) (op : OpKind) (p : Ptr) (handle : Nat) : Cli :=
  let f : Frame := ⟨s.nextKick, co, op, p, handle⟩
  { s with
    frames := Function.update s.frames co (some f)
    kicks := Function.update s.kicks s.nextKick (some f)
    nextKick := s.nextKick + 1 }

def putRes (s : Cli) (p : Ptr) : Except Stop (Reply × Option Buf × Cli) := do
  let sc ← deref s.sctxs p
  let pushed ← match sc.state, sc.res with
    | .timeout, _ => .ok (Reply.fail timeoutMsg, none)
    | .ok, some r => .ok (r.reply, r.buf)
    | .ok, none => .error (.fault .assertFailed)
  -- the sctx is reused only when it is an unary stream
  if sc.type = .unary then do
    let c ← nonNull sc.parent
    let s ← s.pushFree c p
    .ok (pushed.1, pushed.2, s)
  else .ok (pushed.1, pushed.2, s)

/-- The Lua code after `coroutine._yield()`: a successful open makes the stream
handle with its finaliser, a successful `recv` returns the payload. -/
def luaAnswer (s : Cli) (f : Frame) (reply : Reply) : Cli :=
  match f.op, reply with
  | .newStream, .ok _ =>
    { s with streams := Function.update s.streams f.kick (some ⟨f.sctx, false⟩) }
  | .recv, .ok payload => { s with received := s.received ++ [⟨f.handle, payload.getD []⟩] }
  | _, _ => s

def luaResume (s : Cli) (co : Nat) (reply : Reply) (o : Outcome) : Except Stop Cli :=
  match s.frames co with
  | none => .error (.fault .deadCoroutine)
  | some f =>
    .ok (luaAnswer { s with
      frames := Function.update s.frames co none
      outcomes := s.outcomes ++ [(f.kick, o)] } f reply)

def resume (s : Cli) (co : Nat) (o : Outcome) : Except Stop (Option Buf × Cli) := do
  let p ← nonNull (s.coctxs co).data
  let sc ← deref s.sctxs p
  let s := s.setCo co { s.coctxs co with data := sc.prevData }
  let (reply, freed, s) ← s.putRes p
  let s ← s.luaResume co reply o
  .ok (freed, s)

def toResume (s : Cli) (p : Ptr) (o : Outcome) : Except Stop (Option Buf × Cli) := do
  let s ← s.unkeepTask p
  let sc ← deref s.sctxs p
  let co ← nonNull sc.waitCoCtx
  let s := s.setSctx p { sc with waitCoCtx := none, prevData := (s.coctxs co).data }
  let s := s.setCo co { s.coctxs co with data := some p }
  s.resume co o

/-- The body of the loop of `ngx_grpc_cli_thread_post_event_handler` for a
result whose task is registered. -/
def deliver (s : Cli) (r : TaskRes) : Except Stop (Option Buf × Cli) := do
  let sc ← deref s.sctxs r.taskId
  let s := s.setSctx r.taskId { sc with res := some r }
  let co ← nonNull sc.waitCoCtx
  let s := s.setCo co { s.coctxs co with timerSet := false, cleanup := none }
  s.toResume r.taskId (.result r)

def timeoutHandler (s : Cli) (p : Ptr) : Except Stop (Option Buf × Cli) := do
  let sc ← deref s.sctxs p
  let s := s.setSctx p { sc with state := .timeout }
  let co ← nonNull sc.waitCoCtx
  let s := s.setCo co { s.coctxs co with cleanup := none }
  s.toResume p .timeout

def expireTimer (s : Cli) (co : Nat) : Except Stop (Option Buf × Cli) :=
  if (s.coctxs co).timerSet then do
    let p ← nonNull (s.coctxs co).sleepData
    let s := s.setCo co { s.coctxs co with timerSet := false }
    s.timeoutHandler p
  else .error .blocked

def cleanup (s : Cli) (co : Nat) : Except Stop Cli := do
  let p ← nonNull (s.coctxs co).data
  let s := s.setCo co { s.coctxs co with timerSet := false }
  s.unkeepTask p

/-- lua-nginx-module kills a suspended coroutine: it runs the cleanup hook if
one is set, clears the hook and drops the frame. -/
def abort (s : Cli) (co : Nat) : Except Stop Cli :=
  match s.frames co with
  | none => .error .blocked
  | some f =>
    match (s.coctxs co).cleanup with
    | none => .ok { s with frames := Function.update s.frames co none }
    | some _ => do
      let s ← s.cleanup co
      let s := s.setCo co { s.coctxs co with cleanup := none }
      .ok { s with
        frames := Function.update s.frames co none
        outcomes := s.outcomes ++ [(f.kick, .aborted)] }

/-- Takes the last sctx of the free list or allocates one, and fills it in as
`ngx_grpc_cli_new_stream` does; `none` is "no memory". -/
def takeSctx (s : Cli) (c : Ptr) (alloc : Option Ptr) (r : Nat) (isHttp : Bool)
    (type : StreamType) : Except Stop (Option (Ptr × Cli)) := do
  let cc ← deref s.ctxs c
  let sc : StreamCtx :=
    { StreamCtx.zero with r := some r, isHttp, parent := some c, type, owner := cc.owner }
  match cc.free.getLast? with
  | some p => do
    let _ ← deref s.sctxs p
    .ok (some (p, (s.setCtx c { cc with free := cc.free.dropLast }).setSctx p sc))
  | none =>
    match alloc with
    | none => .ok none
    | some p => if (s.sctxs p).isSome then .error .blocked else .ok (some (p, s.setSctx p sc))

def freeAll (s : Cli) : List Ptr → Except Stop Cli
  | [] => .ok s
  | p :: ps => do
    let _ ← deref s.sctxs p
    freeAll { s with sctxs := Function.update s.sctxs p none } ps

/-- `ngx_grpc_cli_free_conn`, from the last sctx of the free list on. -/
def freeConn (s : Cli) (c : Ptr) : Except Stop Cli := do
  let cc ← deref s.ctxs c
  let s ← s.freeAll cc.free.reverse
  .ok { s with ctxs := Function.update s.ctxs c none }

/-- The finaliser half of `ngx_grpc_cli_close_stream`. An sctx that is on no
list has a zeroed queue link. -/
def releaseSctx (s : Cli) (p : Ptr) : Except Stop Cli := do
  let sc ← deref s.sctxs p
  let c ← nonNull sc.parent
  let cc ← deref s.ctxs c
  if p ∈ cc.opening ∨ p ∈ cc.free then
    let cc := { cc with opening := cc.opening.erase p, free := p :: cc.free.erase p }
    let s := (s.setCtx c cc).setSctx p { sc with r := none }
    if cc.freeDelayed ∧ cc.opening = [] then s.freeConn c else .ok s
  else .error (.fault .nullDeref)

/-- `ngx_grpc_cli_check_stream_status`; `none` is `NGX_OK`. -/
def checkStreamStatus (sc : StreamCtx) (r : Nat) : Option String :=
  if sc.r = none then some "closed"
  else if sc.r ≠ some r then some "bad request"
  else if sc.waitCoCtx ≠ none then some "busy waiting"
  else none

end Cli

end GrpcClient
