import Mathlib.Data.Rat.Floor
import GrpcClient.Engine

/-! # The options of a call

How `timeout` and `metadata` get from the Lua options through `CallOpt` to the
context of the engine, and what `Call`, `NewStream` and `Stream.Close` of
`conn/grpc.go` do with that context. nginx arms its timer from the same
`CallOpt`.
-/

namespace GrpcClient.Conn

/-- A Lua number as an unsigned integer of 64 bits. What the conversion makes of a
number that does not fit is the parameter `wide`. -/
def toMsec (wide : ℚ → Nat) (t : ℚ) : Nat := if t < 2 ^ 64 then ⌊t⌋₊ else wide t % 2 ^ 64

structure CallOpt where
  timeout : Nat
  metadata : List (String × String)
deriving Repr

/-- The options as `call_with_pb_state` and `new_stream` fill them. -/
def callOpt (wide : ℚ → Nat) (timeout : Option ℚ) (metadata : Option (List (String × String))) :
    CallOpt where
  timeout :=
    match timeout with
    | some t => if 0 < t then toMsec wide t else 60 * 1000
    | none => 60 * 1000
  metadata := metadata.getD []

/-- What `ngx_grpc_cli_kick_off_task` passes to `ngx_add_timer`. -/
def timerMsec (opt : CallOpt) : Nat := opt.timeout

structure CallOption where
  timeout : Int
  metadata : List String

def convertMetadata (opt : CallOpt) : List String := opt.metadata.flatMap fun md => [md.1, md.2]

/-- `grpc_engine_call` and `grpc_engine_new_stream`: a `Duration` is signed, and
its product wraps. -/
def callOption (opt : CallOpt) : CallOption where
  timeout := (BitVec.ofNat 64 opt.timeout * 1000000#64).toInt
  metadata := convertMetadata opt

structure Context where
  metadata : List String
  deadline : Option Int
  cancelled : Bool
deriving DecidableEq, Repr

abbrev CancelFunc := Context → Context

def createCtxWithMd (pairs : List String) : Context := ⟨pairs, none, false⟩

def withTimeout (ctx : Context) (timeout : Int) : Context × CancelFunc :=
  ({ ctx with deadline := some timeout }, fun ctx => { ctx with cancelled := true })

/-- The start of `Call` and `NewStream`. `cancel` stays nil without a timeout. -/
def opContext (opt : CallOption) : Context × Option CancelFunc :=
  let ctx := createCtxWithMd opt.metadata
  if opt.timeout > 0 then
    let (ctx, cancel) := withTimeout ctx opt.timeout
    (ctx, some cancel)
  else (ctx, none)

structure StreamDesc where
  clientStreams : Bool
  serverStreams : Bool
deriving DecidableEq, Repr

/-- What a `grpc.ClientConn` answers; a value of `newStream` and of the operations
on the stream is the error. -/
structure ClientConn where
  invoke : Context → String → Bytes → Except String Bytes
  newStream : Context → StreamDesc → String → Option String
  sendMsg : Context → Bytes → Option String
  closeSend : Context → Option String

def call (c : ClientConn) (method : String) (req : Bytes) (opt : CallOption) :
    Except String Bytes :=
  c.invoke (opContext opt).1 method req

structure Stream where
  ctx : Context
  cancel : Option CancelFunc
  streamType : Nat

inductive Panic
  | unknownStreamType
  | nilFunction
deriving DecidableEq, Repr

inductive NewStreamResult
  | stream (s : Stream)
  | error (err : String) (ctx : Context)
  | panicked (p : Panic)

def streamDesc : Nat → Option StreamDesc
  | 1 => some ⟨true, false⟩
  | 2 => some ⟨false, true⟩
  | 3 => some ⟨true, true⟩
  | _ => none

/-- An error path of `NewStream`: `cancel()` and the error. -/
def giveUp (cancel : Option CancelFunc) (ctx : Context) (err : String) : NewStreamResult :=
  match cancel with
  | some cancel => .error err (cancel ctx)
  | none => .panicked .nilFunction

def newStream (c : ClientConn) (method : String) (req : Bytes) (opt : CallOption)
    (streamType : Nat) : NewStreamResult :=
  let (ctx, cancel) := opContext opt
  match streamDesc streamType with
  | none => .panicked .unknownStreamType
  | some desc =>
    match c.newStream ctx desc method with
    | some err => giveUp cancel ctx err
    | none =>
      match c.sendMsg ctx req with
      | some err => giveUp cancel ctx err
      | none =>
        match if streamType = 2 then c.closeSend ctx else none with
        | some err => giveUp cancel ctx err
        | none => .stream ⟨ctx, cancel, streamType⟩

def Stream.close (s : Stream) : Stream :=
  match s.cancel with
  | some cancel => { s with ctx := cancel s.ctx, cancel := none }
  | none => s

/-! ## When both sides apply the same timeout -/

/-- nginx and the engine wait for the same positive time, and the engine can
always cancel. -/
structure SameTimeout (opt : CallOpt) : Prop where
  timer : 0 < timerMsec opt
  deadline : (opContext (callOption opt)).1.deadline = some (timerMsec opt * 1000000 : Int)
  noNilCall : ∀ c method req streamType,
    newStream c method req (callOption opt) streamType ≠ .panicked .nilFunction
  closes : ∀ c method req streamType s,
    newStream c method req (callOption opt) streamType = .stream s →
      s.ctx.deadline = some (timerMsec opt * 1000000 : Int) ∧ s.close.ctx.cancelled = true

/-- The largest number of milliseconds whose nanoseconds fit in a `Duration`. -/
def maxMsec : Nat := 9223372036854

theorem callOption_timeout_eq_iff {opt : CallOpt} :
    (callOption opt).timeout = opt.timeout * 1000000 ↔ opt.timeout ≤ maxMsec := by
  have hWrap : (callOption opt).timeout = Int.bmod (opt.timeout * 1000000) (2 ^ 64) := by
    change (BitVec.ofNat 64 opt.timeout * 1000000#64).toInt = _
    have hMsec : (1000000#64).toInt = 1000000 := by decide
    rw [BitVec.toInt_mul, BitVec.toInt_ofNat', hMsec, Int.bmod_mul_bmod]
  rw [hWrap, maxMsec, Int.bmod_def]
  split
  · omega
  · omega

theorem opContext_deadline (opt : CallOption) :
    (opContext opt).1.deadline = if opt.timeout > 0 then some opt.timeout else none := by
  unfold opContext
  split
  · rfl
  · rfl

theorem opContext_of_pos {opt : CallOption} (h : 0 < opt.timeout) : opContext opt =
    (⟨opt.metadata, some opt.timeout, false⟩, some fun ctx => { ctx with cancelled := true }) := by
  simp [opContext, createCtxWithMd, withTimeout, h]

/-- `NewStream` gives up with the context and the cancel function that the stream
would have had. -/
theorem newStream_cases (c : ClientConn) (method : String) (req : Bytes) (opt : CallOption)
    (streamType : Nat) :
    newStream c method req opt streamType = .panicked .unknownStreamType ∨
    (∃ err, newStream c method req opt streamType =
      giveUp (opContext opt).2 (opContext opt).1 err) ∨
    newStream c method req opt streamType =
      .stream ⟨(opContext opt).1, (opContext opt).2, streamType⟩ := by
  unfold newStream
  cases streamDesc streamType with
  | none => exact .inl rfl
  | some desc =>
    right
    dsimp only
    cases c.newStream (opContext opt).1 desc method with
    | some err => exact .inl ⟨err, rfl⟩
    | none =>
      cases c.sendMsg (opContext opt).1 req with
      | some err => exact .inl ⟨err, rfl⟩
      | none =>
        dsimp only
        cases if streamType = 2 then c.closeSend (opContext opt).1 else none with
        | some err => exact .inl ⟨err, rfl⟩
        | none => exact .inr rfl

theorem sameTimeout_iff {opt : CallOpt} :
    SameTimeout opt ↔ 0 < opt.timeout ∧ opt.timeout ≤ maxMsec := by
  constructor
  · intro h
    refine ⟨h.timer, callOption_timeout_eq_iff.mp ?_⟩
    have hDeadline := h.deadline
    rw [opContext_deadline, Option.ite_none_right_eq_some] at hDeadline
    exact Option.some.inj hDeadline.2
  · rintro ⟨hPos, hMax⟩
    have hTimeout : (callOption opt).timeout = opt.timeout * 1000000 :=
      callOption_timeout_eq_iff.mpr hMax
    have hCtx := opContext_of_pos (show 0 < (callOption opt).timeout by omega)
    refine ⟨hPos, by rw [hCtx, hTimeout, timerMsec], ?_, ?_⟩
    · intro c method req streamType hPanic
      obtain hCase | ⟨err, hCase⟩ | hCase :=
        newStream_cases c method req (callOption opt) streamType
      · rw [hCase] at hPanic
        cases hPanic
      · rw [hCase, hCtx] at hPanic
        cases hPanic
      · rw [hCase] at hPanic
        cases hPanic
    · intro c method req streamType s hStream
      obtain hCase | ⟨err, hCase⟩ | hCase :=
        newStream_cases c method req (callOption opt) streamType
      · rw [hCase] at hStream
        cases hStream
      · rw [hCase, hCtx] at hStream
        cases hStream
      · rw [hCase, hCtx] at hStream
        cases hStream
        exact ⟨by rw [hTimeout, timerMsec], rfl⟩

/-- The timeout is absent or not positive, or it is at least one and its
nanoseconds fit. -/
def TimeoutFits (wide : ℚ → Nat) : Option ℚ → Prop
  | none => True
  | some t => t ≤ 0 ∨ (1 ≤ t ∧ t < maxMsec + 1) ∨
    (2 ^ 64 ≤ t ∧ 0 < wide t % 2 ^ 64 ∧ wide t % 2 ^ 64 ≤ maxMsec)

theorem toMsec_iff {wide : ℚ → Nat} {t : ℚ} (hPos : 0 < t) :
    0 < toMsec wide t ∧ toMsec wide t ≤ maxMsec ↔ (1 ≤ t ∧ t < maxMsec + 1) ∨
      (2 ^ 64 ≤ t ∧ 0 < wide t % 2 ^ 64 ∧ wide t % 2 ^ 64 ≤ maxMsec) := by
  have hMax : (maxMsec : ℚ) + 1 < 2 ^ 64 := by norm_num [maxMsec]
  unfold toMsec
  split
  · rename_i hFits
    have hFloor : ⌊t⌋₊ ≤ maxMsec ↔ t < maxMsec + 1 := by
      rw [← Nat.lt_add_one_iff, Nat.floor_lt hPos.le]
      push_cast
      rfl
    rw [Nat.floor_pos, hFloor]
    constructor
    · exact .inl
    · rintro (h | ⟨hWide, -⟩)
      · exact h
      · exact absurd hFits (not_lt.mpr hWide)
  · rename_i hWide
    constructor
    · exact fun h => .inr ⟨not_lt.mp hWide, h⟩
    · rintro (⟨-, hSmall⟩ | ⟨-, h⟩)
      · exact absurd (hSmall.trans hMax) hWide
      · exact h

theorem timeouts_agree (wide : ℚ → Nat) (timeout : Option ℚ)
    (metadata : Option (List (String × String))) :
    SameTimeout (callOpt wide timeout metadata) ↔ TimeoutFits wide timeout := by
  rw [sameTimeout_iff]
  cases timeout with
  | none => simp [callOpt, TimeoutFits, maxMsec]
  | some t =>
    by_cases hPos : 0 < t
    · have hNot : ¬ t ≤ 0 := not_le.mpr hPos
      simp only [callOpt, if_pos hPos, TimeoutFits, hNot, false_or]
      exact toMsec_iff hPos
    · simp [callOpt, hPos, TimeoutFits, not_lt.mp hPos, maxMsec]

def refusing : ClientConn where
  invoke _ _ _ := .error "refused"
  newStream _ _ _ := some "refused"
  sendMsg _ _ := some "refused"
  closeSend _ := some "refused"

/-- Half a millisecond is positive in Lua and no timeout in the engine, where the
refused stream then makes `NewStream` call nil. -/
theorem half_msec_calls_nil : ¬ SameTimeout (callOpt (fun _ => 0) (some (1 / 2)) none) := by
  intro h
  have hZero : callOpt (fun _ => 0) (some (1 / 2)) none = ⟨0, []⟩ := by
    norm_num [callOpt, toMsec]
  rw [hZero] at h
  exact h.noNilCall refusing "/echo.Echo/Get" [] 1 rfl

end GrpcClient.Conn
