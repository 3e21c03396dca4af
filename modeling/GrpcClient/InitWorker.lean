import GrpcClient.Connections

/-! # The `init_worker` phase

In this phase there is no coroutine to suspend: `ngx_grpc_cli_call` starts the
RPC and then waits in `grpc_engine_wait` itself, and it takes the first record
of the batch for its own. While it waits nothing else runs on the nginx side.
Every `Wait` starts a timer; when the timer fires its callback still has to take
the lock, and a `timer.Stop()` that comes in between does not undo it.
-/

namespace GrpcClient

open Fallible

/-- What a blocking `ngx_grpc_cli_call` leaves for Lua. -/
inductive CallResult
  | closed
  | timeout
  | output (data : Bytes)
  | failed (text : Bytes)
deriving DecidableEq, Repr

def errBufSize : Nat := 512

/-- The blocking branch of `ngx_grpc_cli_call` on its first record. -/
def TaskRes.blockingResult (r : TaskRes) : Except Stop CallResult :=
  match r.type, r.buf with
  | .ok, some b => .ok (.output b.data)
  -- assert(res->buf != NULL)
  | .ok, none => .error (.fault .assertFailed)
  | .err, buf => .ok (.failed (((buf.map Buf.data).getD []).take errBufSize))
  -- assert(type == NGX_GRPC_CLIENT_RES_TYPE_ERR)
  | .okNotRes, _ => .error (.fault .assertFailed)

/-- The blocking branch of `ngx_grpc_cli_call` on the whole batch. -/
def CallResult.ofBatch : List TaskRes → Except Stop CallResult
  | [] => .ok .timeout
  | r :: _ => r.blockingResult

/-- A worker in its `init_worker` phase. `current` is the operation of the call
in progress, `armed` and `fired` are the `Wait` timers before and after they
fire. Ghost fields are `log` and `dropped`, the records of a batch after the
first. -/
structure InitWorker where
  st : State
  current : Option Nat
  armed : List Nat
  fired : List Nat
  log : List (Nat × CallResult)
  dropped : List TaskRes

namespace InitWorker

def init : InitWorker := ⟨.init, none, [], [], [], []⟩

inductive Action
  | connect (alloc : Option Ptr) (dial : GoOut) (ref : Ptr)
  | connClose (g : Nat)
  | connGc (g : Nat)
  | call (g : Nat) (taskId : Ptr)
  | goReturn (k : Nat) (out : GoOut)
  | goReport (k : Nat)
  | goDefer (k : Nat)
  | timerFires (k : Nat)
  | timerSignals (k : Nat)
  | waitReturn
deriving DecidableEq, Repr

def between (b : InitWorker) (a : GrpcClient.Action) : Except Stop InitWorker :=
  if b.current = none then do
    let st ← b.st.step a
    .ok { b with st }
  else .error .blocked

def goroutine (b : InitWorker) (a : GrpcClient.Action) : Except Stop InitWorker := do
  let st ← b.st.step a
  .ok { b with st }

/-- The next number for a call. It is shared with the kick-offs, which come when
the phase is over. -/
def numbered (st : State) : State := { st with cli := { st.cli with nextKick := st.cli.nextKick + 1 } }

def endsClosed (b : InitWorker) : InitWorker :=
  { b with st := numbered b.st, log := b.log ++ [(b.st.cli.nextKick, .closed)] }

/-- `Conn:call` and the blocking branch of `ngx_grpc_cli_call` up to the wait.
The task id is the address of an sctx on the stack. -/
def call (b : InitWorker) (g : Nat) (taskId : Ptr) : Except Stop InitWorker :=
  if b.current = none then do
    let hd ← State.handle b.st.cli.conns g
    if hd.closed then .ok b.endsClosed
    else do
      let cc ← deref b.st.cli.ctxs hd.ctx
      match cc.engineCtx with
      | none => .ok b.endsClosed
      | some ref => do
        let eng ← b.st.eng.grpcEngineCall b.st.cli.nextKick taskId ref
        .ok { b with
          st := numbered { b.st with eng }
          current := some b.st.cli.nextKick
          armed := b.armed ++ [b.st.cli.nextKick] }
  else .error .blocked

/-- `grpc_engine_wait` returns to `ngx_grpc_cli_call`. -/
def waitReturn (b : InitWorker) : Except Stop InitWorker :=
  match b.current with
  | none => .error .blocked
  | some k =>
    match b.st.eng.queue.wait with
    | none => .error .blocked
    | some (recs, queue) => do
      let res ← CallResult.ofBatch recs
      .ok { b with
        st := { b.st with eng := { b.st.eng with queue } }
        current := none
        armed := b.armed.erase k
        log := b.log ++ [(k, res)]
        dropped := b.dropped ++ recs.tail }

def step (b : InitWorker) : Action → Except Stop InitWorker
  | .connect alloc dial ref => b.between (.connect alloc dial ref)
  | .connClose g => b.between (.connClose g)
  | .connGc g => b.between (.connGc g)
  | .call g taskId => b.call g taskId
  | .goReturn k out => b.goroutine (.goReturn k out)
  | .goReport k => b.goroutine (.goReport k)
  | .goDefer k => b.goroutine (.goDefer k)
  | .timerFires k =>
    if k ∈ b.armed then .ok { b with armed := b.armed.erase k, fired := b.fired ++ [k] }
    else .error .blocked
  | .timerSignals k =>
    if k ∈ b.fired then do
      let st ← b.st.step .waitTimer
      .ok { b with st, fired := b.fired.erase k }
    else .error .blocked
  | .waitReturn => b.waitReturn

abbrev Run (ok : InitWorker → Action → Prop) : InitWorker → Prop :=
  Transition.Reaches step ok init

abbrev Reachable : InitWorker → Prop := Run fun _ _ => True

def after (ok : InitWorker → Action → Prop) [∀ b a, Decidable (ok b a)] (as : List Action) :
    Option InitWorker :=
  Transition.exec step ok init as

theorem run_after (ok : InitWorker → Action → Prop) [∀ b a, Decidable (ok b a)] (as : List Action)
    (h : (after ok as).isSome) : Run ok ((after ok as).get h) :=
  Transition.exec_reaches h

end InitWorker

/-! ## What Lua code between two calls leaves alone -/

namespace State

variable {s t : State}

structure SameWork (s t : State) : Prop where
  ops : t.eng.ops = s.eng.ops
  queue : t.eng.queue = s.eng.queue
  reported : t.eng.reported = s.eng.reported
  nextKick : t.cli.nextKick = s.cli.nextKick

theorem luaConnect_sameWork {alloc : Option Ptr} {dial : GoOut} {ref : Ptr}
    (h : s.luaConnect alloc dial ref = .ok t) : s.SameWork t := by
  unfold luaConnect connect at h
  cases alloc with
  | none =>
    cases h
    exact ⟨rfl, rfl, rfl, rfl⟩
  | some c =>
    by_cases hUsed : (s.cli.ctxs c).isSome ∨ (s.eng.engineCtxRef ref).isSome
    · simp only [if_pos hUsed] at h
      cases h
    · simp only [if_neg hUsed] at h
      cases dial <;> cases h <;> exact ⟨rfl, rfl, rfl, rfl⟩

theorem Valid.luaConnClose_sameWork (hv : s.Valid) {g : Nat} (h : s.luaConnClose g = .ok t) :
    s.SameWork t := by
  obtain ⟨hd, hHd, h⟩ := bind_eq_ok h
  obtain ⟨cc, hcc, _⟩ := hv.cli.handles.conn_ctx g hd (handle_ok hHd)
  split at h
  · cases h
    exact ⟨rfl, rfl, rfl, rfl⟩
  · obtain ⟨u, hClose, h⟩ := bind_eq_ok h
    obtain rfl := closeEngineCtx_ok hClose hcc
    cases h
    exact ⟨rfl, rfl, rfl, rfl⟩

theorem Valid.luaConnGc_sameWork (hv : s.Valid) {g : Nat} (h : s.luaConnGc g = .ok t) :
    s.SameWork t := by
  obtain ⟨hd, hHd, h⟩ := bind_eq_ok h
  obtain ⟨cc, hcc, _⟩ := hv.cli.handles.conn_ctx g hd (handle_ok hHd)
  split at h
  · cases h
  · obtain ⟨u, hClose, h⟩ := bind_eq_ok h
    obtain rfl := closeEngineCtx_ok hClose hcc
    simp only [if_true, Cli.setCtx] at h
    rw [deref_eq (Function.update_self ..), ok_bind] at h
    split at h
    · obtain ⟨cli, hCli, h⟩ := bind_eq_ok h
      cases h
      rw [Cli.freeConn_ok (Function.update_self ..) hCli]
      exact ⟨rfl, rfl, rfl, rfl⟩
    · cases h
      exact ⟨rfl, rfl, rfl, rfl⟩

end State

namespace InitWorker

open PartialMap

variable {b t : InitWorker} {ok : InitWorker → Action → Prop}

/-! ## What one action does -/

def started (st : State) (taskId : Ptr) (n : Nat) : State :=
  let op : Op := ⟨taskId, .call, n, st.cli.nextKick, .running⟩
  numbered { st with eng := st.eng.start st.cli.nextKick op }

inductive Change (b : InitWorker) : Action → InitWorker → Prop
  | between {a : Action} {st : State} {a' : GrpcClient.Action} (hIdle : b.current = none)
      (hStep : b.st.step a' = .ok st) (hSame : b.st.SameWork st) : Change b a { b with st }
  | closed {g : Nat} {taskId : Ptr} (hIdle : b.current = none) :
      Change b (.call g taskId) b.endsClosed
  | call {g : Nat} {taskId ref : Ptr} {hd : Handle} {cc : Ctx} {n : Nat} (hIdle : b.current = none)
      (hHd : b.st.cli.conns g = some hd) (hcc : b.st.cli.ctxs hd.ctx = some cc)
      (hEngine : cc.engineCtx = some ref) (hRef : b.st.eng.engineCtxRef ref = some n) :
      Change b (.call g taskId) { b with
        st := started b.st taskId n
        current := some b.st.cli.nextKick
        armed := b.armed ++ [b.st.cli.nextKick] }
  | goReturn {k : Nat} {out : GoOut} {op : Op} (hOp : b.st.eng.ops k = some op)
      (hRun : op.phase = .running) :
      Change b (.goReturn k out) { b with st := { b.st with eng := b.st.eng.returned k op out } }
  | goReport {k : Nat} {op : Op} {result err : Option Bytes} (hOp : b.st.eng.ops k = some op)
      (hPhase : op.phase = .reporting result err) :
      Change b (.goReport k) { b with st := { b.st with
        eng := b.st.eng.reportedBy k op ⟨op.taskId, result, err, k⟩ (.deferred none) } }
  | goPanic {k : Nat} {op : Op} {text : Bytes} (hOp : b.st.eng.ops k = some op)
      (hPhase : op.phase = .deferred (some text)) :
      Change b (.goDefer k) { b with st := { b.st with
        eng := b.st.eng.reportedBy k op ⟨op.taskId, none, some text, k⟩ .finished } }
  | goDone {k : Nat} {op : Op} (hOp : b.st.eng.ops k = some op)
      (hPhase : op.phase = .deferred none) :
      Change b (.goDefer k) { b with st := { b.st with eng := b.st.eng.setPhase k op .finished } }
  | timerFires {k : Nat} :
      Change b (.timerFires k) { b with armed := b.armed.erase k, fired := b.fired ++ [k] }
  | timerSignals {k : Nat} :
      Change b (.timerSignals k) { b with
        st := { b.st with eng := { b.st.eng with queue := b.st.eng.queue.signal } }
        fired := b.fired.erase k }
  | waitReturn {k : Nat} {recs : List TaskRes} {queue : TaskQueue} {res : CallResult}
      (hCurrent : b.current = some k) (hWait : b.st.eng.queue.wait = some (recs, queue))
      (hRes : CallResult.ofBatch recs = .ok res) :
      Change b .waitReturn { b with
        st := { b.st with eng := { b.st.eng with queue } }
        current := none
        armed := b.armed.erase k
        log := b.log ++ [(k, res)]
        dropped := b.dropped ++ recs.tail }

theorem between_ok {a : GrpcClient.Action} (h : b.between a = .ok t) :
    b.current = none ∧ ∃ st, b.st.step a = .ok st ∧ t = { b with st } := by
  unfold between at h
  split at h
  · rename_i hIdle
    obtain ⟨st, hStep, h⟩ := bind_eq_ok h
    cases h
    exact ⟨hIdle, st, hStep, rfl⟩
  · cases h

theorem call_change {g : Nat} {taskId : Ptr} (h : b.call g taskId = .ok t) :
    b.Change (.call g taskId) t := by
  unfold call at h
  split at h
  · rename_i hIdle
    obtain ⟨hd, hHd, h⟩ := bind_eq_ok h
    split at h
    · cases h
      exact .closed hIdle
    · obtain ⟨cc, hcc, h⟩ := bind_eq_ok h
      split at h
      · cases h
        exact .closed hIdle
      · rename_i ref hEngine
        obtain ⟨eng, hEng, h⟩ := bind_eq_ok h
        obtain ⟨n, hRef, rfl⟩ := Engine.openOp_ok hEng
        cases h
        exact .call hIdle (State.handle_ok hHd) (deref_ok_iff.mp hcc) hEngine hRef
  · cases h

theorem waitReturn_change (h : b.waitReturn = .ok t) : b.Change .waitReturn t := by
  unfold waitReturn at h
  split at h
  · cases h
  · split at h
    · cases h
    · rename_i hCurrent _ recs queue hWait
      obtain ⟨res, hRes, h⟩ := bind_eq_ok h
      cases h
      exact .waitReturn hCurrent hWait hRes

theorem step_change (hv : b.st.Valid) {a : Action} (h : b.step a = .ok t) : b.Change a t := by
  cases a with
  | connect alloc dial ref =>
    obtain ⟨hIdle, st, hStep, rfl⟩ := between_ok h
    exact .between hIdle hStep (State.luaConnect_sameWork hStep)
  | connClose g =>
    obtain ⟨hIdle, st, hStep, rfl⟩ := between_ok h
    exact .between hIdle hStep (hv.luaConnClose_sameWork hStep)
  | connGc g =>
    obtain ⟨hIdle, st, hStep, rfl⟩ := between_ok h
    exact .between hIdle hStep (hv.luaConnGc_sameWork hStep)
  | call g taskId => exact call_change h
  | goReturn k out =>
    obtain ⟨st, hStep, h⟩ := bind_eq_ok h
    obtain ⟨eng, hEng, hStep⟩ := bind_eq_ok hStep
    obtain ⟨op, hOp, hRun, rfl⟩ := Engine.goReturn_ok hEng
    cases hStep
    cases h
    exact .goReturn hOp hRun
  | goReport k =>
    obtain ⟨st, hStep, h⟩ := bind_eq_ok h
    obtain ⟨eng, hEng, hStep⟩ := bind_eq_ok hStep
    obtain ⟨op, result, err, hOp, hPhase, rfl⟩ := Engine.goReport_ok hEng
    cases hStep
    cases h
    exact .goReport hOp hPhase
  | goDefer k =>
    obtain ⟨st, hStep, h⟩ := bind_eq_ok h
    obtain ⟨eng, hEng, hStep⟩ := bind_eq_ok hStep
    obtain ⟨op, hOp, ⟨hPhase, rfl⟩ | ⟨text, hPhase, rfl⟩⟩ := Engine.reportPanic_ok hEng
    · cases hStep
      cases h
      exact .goDone hOp hPhase
    · cases hStep
      cases h
      exact .goPanic hOp hPhase
  | timerFires k =>
    simp only [step] at h
    split at h
    · cases h
      exact .timerFires
    · cases h
  | timerSignals k =>
    simp only [step] at h
    split at h
    · cases h
      exact .timerSignals
    · cases h
  | waitReturn => exact waitReturn_change h

/-! ## Connections -/

theorem numbered_inv {cli : Cli} (h : cli.Inv) : Cli.Inv { cli with nextKick := cli.nextKick + 1 } where
  registry := h.registry
  lists := h.lists
  suspended := { h.suspended with
    frame_kick := fun co f hf =>
      have hKick := h.suspended.frame_kick co f hf
      ⟨hKick.1, Nat.lt_succ_of_lt hKick.2.1, hKick.2.2⟩ }
  handles := h.handles
  refs := { h.refs with
    stream_kick := fun k hd hHd =>
      have hKick := h.refs.stream_kick k hd hHd
      ⟨Nat.lt_succ_of_lt hKick.1, hKick.2⟩ }

theorem Change.sound {a : Action} (hSound : b.st.Sound) (h : b.Change a t) : t.st.Sound := by
  have hValid := hSound.valid
  cases h with
  | between hIdle hStep hSame => exact hSound.step hStep
  | closed | call =>
    exact ⟨⟨numbered_inv hValid.cli, hValid.conn_lt⟩, hSound.owned, hSound.linked⟩
  | _ => exact ⟨⟨hValid.cli, hValid.conn_lt⟩, hSound.owned, hSound.linked⟩

theorem Run.sound (h : Run ok b) : b.st.Sound :=
  h.invariant (P := fun b => b.st.Sound) State.sound_init fun _ _ _ _ hSound _ hStep =>
    (step_change hSound.valid hStep).sound hSound

theorem Run.induct {P : InitWorker → Prop} (h : Run ok b) (hInit : P init)
    (hChange : ∀ b a t, P b → ok b a → b.step a = .ok t → b.Change a t → P t) : P b :=
  h.invariant hInit fun _ _ _ hRun hP hOk hStep =>
    hChange _ _ _ hP hOk hStep (step_change (Run.sound hRun).valid hStep)

/-- A blocking call finds the connection of its context, too. -/
structure ConnsFound (b : InitWorker) : Prop extends State.References b.st where
  no_panic : ∀ a, b.step a ≠ .error (.fault .connPanic)
  own : ∀ g taskId t k, b.step (.call g taskId) = .ok t → t.current = some k →
    ∃ hd cc, b.st.cli.conns g = some hd ∧ b.st.cli.ctxs hd.ctx = some cc ∧
      t.st.eng.ops k = some ⟨taskId, .call, cc.owner, k, .running⟩ ∧
      cc.owner ∉ b.st.eng.closedConns

theorem blockingResult_error {r : TaskRes} {e : Stop} (h : r.blockingResult = .error e) :
    e = .fault .assertFailed := by
  unfold TaskRes.blockingResult at h
  split at h <;> cases h <;> rfl

theorem ofBatch_error {recs : List TaskRes} {e : Stop} (h : CallResult.ofBatch recs = .error e) :
    e = .fault .assertFailed := by
  cases recs with
  | nil => cases h
  | cons r recs => exact blockingResult_error h

theorem call_no_panic (hSound : b.st.Sound) {g : Nat} {taskId : Ptr} :
    b.call g taskId ≠ .error (.fault .connPanic) := by
  intro h
  unfold call at h
  split at h
  · rcases bind_eq_error h with hHandle | ⟨hd, _, h⟩
    · cases State.handle_error hHandle
    · split at h
      · cases h
      · rcases bind_eq_error h with hDeref | ⟨cc, hcc, h⟩
        · cases (State.deref_error hDeref).1
        · split at h
          · cases h
          · rename_i ref hEngine
            have hEntry := hSound.linked.entry hd.ctx cc ref (deref_ok_iff.mp hcc) hEngine
            simp only [Engine.grpcEngineCall, Engine.openOp, hEntry] at h
            cases h
  · cases h

theorem no_connPanic (hSound : b.st.Sound) (a : Action) :
    b.step a ≠ .error (.fault .connPanic) := by
  intro h
  have hWorker : ∀ a, b.st.step a ≠ .error (.fault .connPanic) := fun a hFault =>
    hSound.connsFound.no_panic a (State.faults_eq_some.mpr hFault)
  have hBetween : ∀ a, b.between a ≠ .error (.fault .connPanic) := by
    intro a h
    unfold between at h
    split at h
    · rcases bind_eq_error h with hStep | ⟨_, _, h⟩
      · exact hWorker a hStep
      · cases h
    · cases h
  have hGoroutine : ∀ a, b.goroutine a ≠ .error (.fault .connPanic) := by
    intro a h
    rcases bind_eq_error h with hStep | ⟨_, _, h⟩
    · exact hWorker a hStep
    · cases h
  cases a with
  | connect | connClose | connGc => exact hBetween _ h
  | goReturn | goReport | goDefer => exact hGoroutine _ h
  | call g taskId => exact call_no_panic hSound h
  | timerFires k =>
    simp only [step] at h
    split at h <;> cases h
  | timerSignals k =>
    simp only [step] at h
    split at h <;> cases h
  | waitReturn =>
    simp only [step, waitReturn] at h
    split at h
    · cases h
    · split at h
      · cases h
      · rcases bind_eq_error h with hBatch | ⟨_, _, h⟩
        · cases (ofBatch_error hBatch)
        · cases h

theorem Run.connsFound (h : Run ok b) : b.ConnsFound := by
  have hSound := h.sound
  refine ⟨hSound.references, no_connPanic hSound, ?_⟩
  intro g taskId t k hStep hCurrent
  cases step_change hSound.valid hStep with
  | between hIdle =>
    rw [hIdle] at hCurrent
    cases hCurrent
  | closed hIdle =>
    rw [endsClosed, hIdle] at hCurrent
    cases hCurrent
  | @call _ _ ref hd cc n hIdle hHd hcc hEngine hRef =>
    cases hCurrent
    obtain ⟨rfl, hOpen⟩ := hSound.linked.resolve hcc hEngine hRef
    exact ⟨hd, cc, hHd, hcc, Function.update_self .., hOpen⟩

/-- Connections are found in the `init_worker` phase and in every state that the
worker reaches afterwards. -/
theorem connections_found (h : Reachable b) :
    b.ConnsFound ∧ (b.current = none → ∀ s, Transition.Reaches State.step (fun _ _ => True) b.st s →
      s.ConnsFound) := by
  refine ⟨h.connsFound, fun _ s hs => State.Sound.connsFound ?_⟩
  exact hs.invariant (P := State.Sound) h.sound fun _ _ _ _ hSound _ hStep => hSound.step hStep

/-- A closed connection, and a second one that gets its freed reference. -/
def reissuedRef : List Action := [
  .connect (some 1) (.ok []) 50,
  .connClose 0,
  .connect (some 2) (.ok []) 50]

def requestCall : List GrpcClient.Action := [
  .call 1 1 7 true ⟨true, none, true, some 100, some 10⟩]

theorem connections_found_reissuedRef : ∃ (b : InitWorker) (s : State),
    b.st.cli.ctxs 2 = some ⟨some 50, [], [], false, 1⟩ ∧ b.ConnsFound ∧
    s.eng.ops 0 = some ⟨10, .call, 1, 0, .running⟩ ∧ s.ConnsFound := by
  have hRun := run_after (fun _ _ => True) reissuedRef (by decide +kernel)
  obtain ⟨hFound, hLater⟩ := connections_found hRun
  have hCall := hLater (by decide +kernel) _
    (Transition.reaches_of_exec requestCall .refl (Option.some_get (by decide +kernel)).symm)
  exact ⟨_, _, by decide +kernel, hFound, by decide +kernel, hCall⟩

end InitWorker

end GrpcClient
