import GrpcClient.LuaChange

/-! # Functions that yielded

A function of the Lua module that yielded returns once, when its coroutine is
resumed, and the functions return in that order. A coroutine that is killed
returns nothing. After `recv_close` returned a message, its stream is not used
again.
-/

namespace GrpcClient

open PartialMap

/-- The kick-offs whose coroutine was resumed, in that order. -/
def Cli.resumptions (outcomes : List (Nat × Outcome)) : List Nat :=
  ended (outcomes.filter fun x => x.2.reply.isSome)

theorem Cli.resumptions_append {outcomes : List (Nat × Outcome)} {k : Nat} {o : Outcome} :
    resumptions (outcomes ++ [(k, o)]) =
      resumptions outcomes ++ if o.reply.isSome then [k] else [] := by
  unfold resumptions ended
  cases hReply : o.reply <;> simp [hReply]

theorem Outcome.reply_isSome {o : Outcome} : o.reply.isSome = true ↔ o ≠ .aborted := by
  cases o <;> simp [reply]

theorem State.Asks.ne {s t : State} {co handle k : Nat} {kind : OpKind} {f f' : Frame}
    (h : s.Asks t co kind handle f) (hRun : State.Reachable s) (hf : s.cli.kicks k = some f') :
    k ≠ f.kick := by
  rw [h.kick]
  exact ((hRun.logged.kick_lt k).mp ⟨f', hf⟩).ne

theorem State.Asks.kept {s t : State} {co handle k : Nat} {kind : OpKind} {f f' : Frame}
    (h : s.Asks t co kind handle f) (hRun : State.Reachable s) (hf : s.cli.kicks k = some f') :
    t.cli.kicks k = some f' := by
  rw [h.kicks, Function.update_of_ne (h.ne hRun hf), hf]

/-- The function was called with this service, method and option, and found this
method in the library. -/
structure Asked.Names {P : Protobuf} {C : Codec P} (a : Asked C) (service method : String)
    (enc : Option Nat) (m : Method) : Prop where
  args : ∃ req, a.args = .opens service method req enc
  found : a.lib.findMethod service method = .ok m

/-- The function opened a call or a stream, with the types of the method that it
found and the option that it was called with. -/
def Asked.Opens {P : Protobuf} {C : Codec P} (a : Asked C) : Prop :=
  ∃ service method enc m, a.Names service method enc m ∧
    a.stub = ⟨m.inputType, m.outputType, enc⟩

/-- The message of the sample is empty, and so is what it is encoded to. A type is
known once a definition has been loaded. -/
def sampleCodec : Codec sample where
  Value := Unit
  encode pb _ _ := if (pb.types : List String).length < 2 then .error [] else .ok []
  decode pb _ _ := if (pb.types : List String).length < 2 then .error [] else .ok ()

namespace Api

variable {P : Protobuf} {C : Codec P} {w w' : Api C}

theorem closes_true : Closes fun _ _ => True := fun _ _ _ => trivial

theorem permits_true {okA : Api C → Action C → Prop} (w : Api C) (a : Action C) (_ : okA w a) :
    w.permits (fun _ _ => True) a := fun _ _ => trivial

/-! ## Streams and what they were opened with -/

/-- Every operation has what it was asked, and every stream and every operation on
it the stub of its open. -/
structure Linked (w : Api C) : Prop where
  asked : ∀ k f, w.grpc.st.cli.kicks k = some f → ∃ a, w.asked k = some a
  kicked : ∀ k a, w.asked k = some a → ∃ f, w.grpc.st.cli.kicks k = some f
  own : ∀ k f a, w.grpc.st.cli.kicks k = some f → w.asked k = some a → f.op.onStream = false →
    a.Opens
  stream : ∀ k f a, w.grpc.st.cli.kicks k = some f → w.asked k = some a → f.op.onStream = true →
    ∃ a', w.asked f.handle = some a' ∧ a'.Opens ∧ a'.stub = a.stub
  opener : ∀ h stub, w.stubs h = some stub → ∃ a, w.asked h = some a ∧ a.Opens ∧ a.stub = stub
  stub : ∀ h hd, w.grpc.st.cli.streams h = some hd → ∃ stub, w.stubs h = some stub

theorem Begins.asked_opens {f : Frame} {path : String} {data : Bytes} {a : Asked C}
    {lib : Library P} (h : w.Begins f path data a lib) (hOff : f.op.onStream = false) : a.Opens := by
  cases h with
  | @opens service method m enc req data _ hFound hEncode =>
    exact ⟨service, method, enc, m, ⟨⟨req, rfl⟩, hFound⟩, rfl⟩
  | sends hOp =>
    rw [hOp] at hOff
    cases hOff
  | polls hOp =>
    obtain hOp | hOp := hOp
    · rw [hOp] at hOff
      cases hOff
    · rw [hOp] at hOff
      cases hOff

theorem Begins.opener {f : Frame} {path : String} {data : Bytes} {a : Asked C} {lib : Library P}
    (h : w.Begins f path data a lib) (hOn : f.op.onStream = true) :
    w.stubs f.handle = some a.stub := by
  cases h with
  | opens hOff =>
    rw [hOff] at hOn
    cases hOn
  | sends hOp hStub => exact hStub
  | polls hOp hStub => exact hStub

/-- Only an open that was answered leaves a stub, its own. -/
theorem Goes.stub_cases {lib lib' : Library P} {stubs stubs' : Nat → Option Stub} {f : Frame}
    {a : Asked C} {reply : Reply} {result : LuaResult C}
    (h : Goes lib stubs f a reply result lib' stubs') :
    stubs' = stubs ∧ (f.op = .newStream → ∀ payload, reply ≠ .ok payload) ∨
      f.op = .newStream ∧ stubs' = Function.update stubs f.kick (some a.stub) := by
  cases h with
  | failed => exact .inl ⟨rfl, fun _ _ => nofun⟩
  | opened hOp => exact .inr ⟨hOp, rfl⟩
  | done hOp | undecoded hOp | value hOp =>
    refine .inl ⟨rfl, fun hOpen => ?_⟩
    rw [hOpen] at hOp
    simp at hOp

theorem Linked.settled (h : w.Linked) {grpc : Grpc} {lib : Library P} {stubs : Nat → Option Stub}
    {returns : List (Return C)} (hKicks : w.grpc.st.SameKicks grpc.st)
    (hOpener : ∀ h stub, stubs h = some stub →
      ∃ a, w.asked h = some a ∧ a.Opens ∧ a.stub = stub)
    (hStub : ∀ h hd, grpc.st.cli.streams h = some hd → ∃ stub, stubs h = some stub) :
    ({ w with grpc, lib, stubs, returns } : Api C).Linked := by
  constructor
  · simp only [hKicks.kicks]
    exact h.asked
  · simp only [hKicks.kicks]
    exact h.kicked
  · simp only [hKicks.kicks]
    exact h.own
  · simp only [hKicks.kicks]
    exact h.stream
  · exact hOpener
  · exact hStub

theorem Linked.kept (h : w.Linked) {st : State} (hStreams : w.grpc.st.KeepsStreams st) :
    ∀ k hd, st.cli.streams k = some hd → ∃ stub, w.stubs k = some stub := by
  intro k hd hHd
  obtain ⟨hd', hHd', _⟩ := hStreams k hd hHd
  exact h.stub k hd' hHd'

theorem Linked.asks (h : w.Linked) (hReach : State.Reachable w.grpc.st)
    {ok : State → GrpcClient.Action → Prop} {grpc : Grpc} {lib : Library P} {co handle : Nat}
    {kind : OpKind} {f : Frame} {path : String} {data : Bytes} {a : Asked C}
    (hGrpc : Grpc.Asks ok w.grpc grpc co kind handle f path data)
    (hBegins : w.Begins f path data a lib) :
    ({ w with grpc, lib, asked := Function.update w.asked f.kick (some a) } : Api C).Linked := by
  have hKept : ∀ k a', w.asked k = some a' →
      Function.update w.asked f.kick (some a) k = some a' := by
    intro k a' ha'
    obtain ⟨f', hf'⟩ := h.kicked k a' ha'
    exact update_of_some ha' (hGrpc.asks.ne hReach hf')
  constructor
  · intro k f' hf'
    simp only [hGrpc.asks.kicks] at hf'
    obtain ⟨rfl, rfl⟩ | ⟨_, hf'⟩ := update_some_iff.mp hf'
    · exact ⟨a, Function.update_self ..⟩
    · obtain ⟨a', ha'⟩ := h.asked k f' hf'
      exact ⟨a', hKept k a' ha'⟩
  · intro k a' ha'
    obtain ⟨rfl, rfl⟩ | ⟨_, ha'⟩ := update_some_iff.mp ha'
    · exact ⟨f, by simp only [hGrpc.asks.kicks, Function.update_self]⟩
    · obtain ⟨f', hf'⟩ := h.kicked k a' ha'
      exact ⟨f', hGrpc.asks.kept hReach hf'⟩
  · intro k f' a' hf' ha' hOff
    simp only [hGrpc.asks.kicks] at hf'
    obtain ⟨rfl, rfl⟩ | ⟨hOld, hf'⟩ := update_some_iff.mp hf'
    · simp only [Function.update_self] at ha'
      cases ha'
      exact hBegins.asked_opens hOff
    · simp only [Function.update_of_ne hOld] at ha'
      exact h.own k f' a' hf' ha' hOff
  · intro k f' a' hf' ha' hOn
    simp only [hGrpc.asks.kicks] at hf'
    obtain ⟨rfl, rfl⟩ | ⟨hOld, hf'⟩ := update_some_iff.mp hf'
    · simp only [Function.update_self] at ha'
      cases ha'
      obtain ⟨a', ha', hRest⟩ := h.opener _ _ (hBegins.opener hOn)
      exact ⟨a', hKept _ a' ha', hRest⟩
    · simp only [Function.update_of_ne hOld] at ha'
      obtain ⟨a'', ha'', hRest⟩ := h.stream k f' a' hf' ha' hOn
      exact ⟨a'', hKept _ a'' ha'', hRest⟩
  · intro k stub hStub
    obtain ⟨a', ha', hEq⟩ := h.opener k stub hStub
    exact ⟨a', hKept k a' ha', hEq⟩
  · exact h.kept hGrpc.streams

theorem Linked.returned (h : w.Linked) (hReach : State.Reachable w.grpc.st)
    {ok : State → GrpcClient.Action → Prop} {grpc : Grpc} {f : Frame} {a : Asked C}
    {o : Outcome} {reply : Reply} {result : LuaResult C} {found lib : Library P}
    {stubs : Nat → Option Stub} (hGrpc : Grpc.Ends ok w.grpc grpc f o)
    (hReply : o.reply = some reply) (hAsked : w.asked f.kick = some a)
    (hGoes : Goes w.lib w.stubs f a reply result lib stubs) :
    ({ w with grpc, lib, stubs }.returned f result found).Linked := by
  obtain ⟨hSame, hNot⟩ | ⟨hOp, hNew⟩ := hGoes.stub_cases
  · apply h.settled hGrpc.same
    · rw [hSame]
      exact h.opener
    · intro k hd hHd
      rw [hSame]
      obtain ⟨hd', hHd', _⟩ | ⟨_, hOp, payload, hSome⟩ := hGrpc.streams k hd hHd
      · exact h.stub k hd' hHd'
      · rw [hReply] at hSome
        exact absurd (Option.some.inj hSome) (hNot hOp payload)
  · apply h.settled hGrpc.same
    · intro k stub hStub
      rw [hNew] at hStub
      obtain ⟨rfl, rfl⟩ | ⟨_, hStub⟩ := update_some_iff.mp hStub
      · have hKick := (hReach.pending hGrpc.frame).1
        exact ⟨a, hAsked, h.own _ f a hKick hAsked (by rw [hOp]; rfl), rfl⟩
      · exact h.opener k stub hStub
    · intro k hd hHd
      rw [hNew]
      by_cases hEq : k = f.kick
      · subst hEq
        exact ⟨a.stub, Function.update_self ..⟩
      · obtain ⟨hd', hHd', _⟩ | ⟨hEq', _⟩ := hGrpc.streams k hd hHd
        · obtain ⟨stub, hStub⟩ := h.stub k hd' hHd'
          exact ⟨stub, update_of_some hStub hEq⟩
        · exact absurd hEq' hEq

theorem Run.linked {okA : Api C → Action C → Prop} (h : Run okA w) : w.Linked := by
  apply Run.induct closes_true permits_true h
  · exact ⟨by simp [init, Grpc.init, State.init, Cli.init], by simp [init], by simp [init],
      by simp [init], by simp [init], by simp [init, Grpc.init, State.init, Cli.init]⟩
  intro w a w' _ hReach _ hLinked _ hChange
  cases hChange with
  | loaded | swapped => exact hLinked.settled (.refl _) hLinked.opener hLinked.stub
  | quiet hGrpc | refused hGrpc =>
    exact hLinked.settled hGrpc.same hLinked.opener (hLinked.kept hGrpc.streams)
  | asked hGrpc hBegins => exact hLinked.asks hReach hGrpc hBegins
  | killed hGrpc hReply =>
    apply hLinked.settled hGrpc.same hLinked.opener
    intro k hd hHd
    obtain ⟨hd', hHd', _⟩ | ⟨_, _, payload, hSome⟩ := hGrpc.streams k hd hHd
    · exact hLinked.stub k hd' hHd'
    · rw [hReply] at hSome
      cases hSome
  | returned hGrpc hReply hAsked hGoes => exact hLinked.returned hReach hGrpc hReply hAsked hGoes

/-! ## Each function returns once -/

def kicksReturned (w : Api C) : List Nat := w.returns.filterMap Return.kick

@[simp] theorem kicksReturned_failed (co : Nat) (what : String) (err : Bytes) :
    (w.failed co what err).kicksReturned = w.kicksReturned := by
  simp [kicksReturned, failed]

@[simp] theorem kicksReturned_returned (f : Frame) (result : LuaResult C) (lib : Library P) :
    (w.returned f result lib).kicksReturned = w.kicksReturned ++ [f.kick] := by
  simp [kicksReturned, returned]

structure Follows (w : Api C) : Prop where
  order : w.kicksReturned = Cli.resumptions w.grpc.st.cli.outcomes
  own : ∀ r ∈ w.returns, ∀ k ∈ r.kick, ∃ f, w.grpc.st.cli.kicks k = some f ∧ r.co = f.co

section Runs

variable {okA : Api C → Action C → Prop}

theorem Run.follows (h : Run okA w) : w.Follows := by
  apply Run.induct closes_true permits_true h ⟨rfl, by simp [init]⟩
  intro w a w' _ hReach hReach' ⟨hOrder, hOwn⟩ _ hChange
  cases hChange with
  | loaded | swapped => exact ⟨hOrder, hOwn⟩
  | quiet hGrpc =>
    refine ⟨by rw [hGrpc.outcomes]; exact hOrder, ?_⟩
    rw [hGrpc.same.kicks]
    exact hOwn
  | refused hGrpc =>
    constructor
    · rw [kicksReturned_failed]
      simp only [failed, hGrpc.outcomes]
      exact hOrder
    · intro r hr k hk
      simp only [failed, hGrpc.same.kicks]
      obtain hr | hr := List.mem_append.mp hr
      · exact hOwn r hr k hk
      · rw [List.mem_singleton.mp hr] at hk
        cases hk
  | asked hGrpc =>
    refine ⟨by rw [hGrpc.outcomes]; exact hOrder, fun r hr k hk => ?_⟩
    obtain ⟨f, hf, hCo⟩ := hOwn r hr k hk
    exact ⟨f, hGrpc.asks.kept hReach hf, hCo⟩
  | killed hGrpc hReply =>
    refine ⟨?_, ?_⟩
    · simpa [hGrpc.outcomes, Cli.resumptions_append, hReply, kicksReturned] using hOrder
    · rw [hGrpc.same.kicks]
      exact hOwn
  | @returned a grpc lib stubs f asked o reply result hGrpc hReply =>
    constructor
    · rw [kicksReturned_returned]
      simp only [returned, hGrpc.outcomes, Cli.resumptions_append, hReply, ← hOrder]
      rfl
    · intro r hr k hk
      simp only [returned, hGrpc.same.kicks]
      obtain hr | hr := List.mem_append.mp hr
      · exact hOwn r hr k hk
      · rw [List.mem_singleton.mp hr] at hk ⊢
        cases hk
        exact ⟨f, (hReach.pending hGrpc.frame).1, rfl⟩

end Runs

/-- A function that yielded has returned unless it still waits or was killed. -/
theorem Run.returned_iff {okA : Api C → Action C → Prop} (h : Run okA w) {k : Nat} {f : Frame}
    (hf : w.grpc.st.cli.kicks k = some f) : k ∈ w.kicksReturned ↔
      w.grpc.st.cli.frames f.co ≠ some f ∧ (k, .aborted) ∉ w.grpc.st.cli.outcomes := by
  have hRun := (Run.grpc closes_true permits_true h).reachable
  rw [(Run.follows h).order]
  constructor
  · intro hMem
    obtain ⟨⟨_, o⟩, ho, rfl⟩ := List.mem_map.mp hMem
    obtain ⟨ho, hReply⟩ := List.mem_filter.mp ho
    constructor
    · intro hWaits
      apply (hRun.pending hWaits).2
      rw [hRun.logged.kick_eq _ f hf]
      exact List.mem_map_of_mem ho
    · intro hKilled
      have hSame := List.inj_on_of_nodup_map hRun.logged.nodup ho hKilled rfl
      cases hSame
      cases hReply
  · rintro ⟨hEnded, hAlive⟩
    have hMem : k ∈ Cli.ended w.grpc.st.cli.outcomes := by
      by_contra hNot
      exact hEnded (hRun.logged.awaited k f hf hNot)
    obtain ⟨⟨_, o⟩, ho, rfl⟩ := List.mem_map.mp hMem
    have hReply : o.reply.isSome = true := by
      rw [Outcome.reply_isSome]
      rintro rfl
      exact hAlive ho
    exact List.mem_map_of_mem (List.mem_filter.mpr ⟨ho, hReply⟩)

/-- Each function that yielded returns once, in its own coroutine and in the order
of the resumptions, unless it still waits or was killed. -/
structure ReturnsOnce (w : Api C) : Prop where
  nodup : w.kicksReturned.Nodup
  order : w.kicksReturned = Cli.resumptions w.grpc.st.cli.outcomes
  own : ∀ r ∈ w.returns, ∀ k ∈ r.kick, ∃ f, w.grpc.st.cli.kicks k = some f ∧ r.co = f.co
  fate : ∀ k f, w.grpc.st.cli.kicks k = some f → (k ∈ w.kicksReturned ↔
    w.grpc.st.cli.frames f.co ≠ some f ∧ (k, .aborted) ∉ w.grpc.st.cli.outcomes)

theorem returns_once (h : Reachable w) : w.ReturnsOnce := by
  have hRun := (Run.grpc closes_true permits_true h).reachable
  obtain ⟨hOrder, hOwn⟩ := Run.follows h
  refine ⟨?_, hOrder, hOwn, fun k f hf => Run.returned_iff h hf⟩
  rw [hOrder]
  exact (List.filter_sublist.map Prod.fst).nodup hRun.logged.nodup

/-- The event loop takes the report of operation `k`. -/
def handOver (k : Nat) : List (Action C) :=
  [GrpcClient.Action.goReport k, .waitReturn, .threadTest, .threadEvent [] true, .postEvent, .drain,
    .drain].map .worker

def opened : List (Action sampleCodec) :=
  [.load (loadStr echoProto), .worker (.connect (some 1) (.ok []) 50),
    .newStream 0 1 7 true .clientStream ⟨true, none, true, some 100, some 10⟩ "echo.Echo" "Get" ()
      (some 2),
    .rpc 0 (.ok []), .rpc 0 (.ok [])] ++ handOver 0

theorem returns_once_opened : ∃ w : Api sampleCodec, w.kicksReturned = [0] ∧ w.ReturnsOnce := by
  have hRun := run_after (fun _ _ => True) opened (by decide +kernel)
  exact ⟨_, by decide +kernel, returns_once hRun⟩

/-! ## Streams after `recv_close` -/

/-- A `recv_close` that returned a message is the last operation on its stream. -/
def ClosesLast (w : Api C) : Prop :=
  ∀ r ∈ w.returns, ∀ k ∈ r.kick, ∀ f v, w.grpc.st.cli.kicks k = some f → r.result = .value v →
    f.op = .recv → w.grpc.typeOf f.handle = .clientStream →
      (∀ hd, w.grpc.st.cli.streams f.handle = some hd → hd.closed = true) ∧
      ∀ k' f', w.grpc.st.cli.kicks k' = some f' → f'.op.onStream = true → f'.handle = f.handle →
        k' ≤ k

/-- What holds of the operations on a stream: they come behind its open, a waiting
one is the last so far, and so is a `recv_close` that returned a message. -/
structure Closing (w : Api C) : Prop where
  opened : ∀ k f, w.grpc.st.cli.kicks k = some f → f.op.onStream = true →
    f.handle ∈ Cli.ended w.grpc.st.cli.outcomes
  latest : ∀ k f, w.grpc.st.cli.kicks k = some f → k ∉ Cli.ended w.grpc.st.cli.outcomes →
    f.op.onStream = true → ∀ k' f', w.grpc.st.cli.kicks k' = some f' → f'.op.onStream = true →
      f'.handle = f.handle → k' ≤ k
  final : w.ClosesLast

section Runs

variable {okA : Api C → Action C → Prop}

theorem Closing.quiet (h : w.Closing) {ok : State → GrpcClient.Action → Prop} {grpc : Grpc}
    {lib : Library P} {returns : List (Return C)} (hGrpc : Grpc.Quiet ok w.grpc grpc)
    (hReturns : ∀ r ∈ returns, ∀ k ∈ r.kick, r ∈ w.returns) :
    ({ w with grpc, lib, returns } : Api C).Closing := by
  constructor
  · simp only [hGrpc.same.kicks, hGrpc.outcomes]
    exact h.opened
  · simp only [hGrpc.same.kicks, hGrpc.outcomes]
    exact h.latest
  · intro r hr k hk f v hf hValue hOp hType
    simp only [hGrpc.same.kicks, Grpc.typeOf, hGrpc.reqs] at hf hType ⊢
    obtain ⟨hClosed, hLast⟩ := h.final r (hReturns r hr k hk) k hk f v hf hValue hOp hType
    refine ⟨fun hd hHd => ?_, hLast⟩
    obtain ⟨hd', hHd', hStays⟩ := hGrpc.streams _ hd hHd
    exact hStays (hClosed hd' hHd')

theorem kick_lt_of_asks (hReach : State.Reachable w.grpc.st) {t : State} {co handle k : Nat}
    {kind : OpKind} {f f' : Frame} (h : w.grpc.st.Asks t co kind handle f)
    (hf' : w.grpc.st.cli.kicks k = some f') : k < f.kick := by
  rw [h.kick]
  exact (hReach.logged.kick_lt k).mp ⟨f', hf'⟩

theorem ended_of_stream (hReach : State.Reachable w.grpc.st) {handle : Nat} {hd : Handle}
    (hHd : w.grpc.st.cli.streams handle = some hd) :
    handle ∈ Cli.ended w.grpc.st.cli.outcomes := by
  obtain ⟨hBefore, hNot⟩ := hReach.valid.cli.refs.stream_kick _ hd hHd
  obtain ⟨fo, hfo⟩ := (hReach.logged.kick_lt _).mpr hBefore
  by_contra hWaits
  apply hNot fo.co fo (hReach.logged.awaited _ fo hfo hWaits)
  exact hReach.logged.kick_eq _ fo hfo

/-- The operation that is kicked off waits, and no other one on its stream does. -/
theorem Closing.asked_latest (h : w.Closing) (hReach : State.Reachable w.grpc.st)
    {ok : State → GrpcClient.Action → Prop} {grpc : Grpc} {co handle : Nat} {kind : OpKind}
    {f : Frame} {path : String} {data : Bytes}
    (hGrpc : Grpc.Asks ok w.grpc grpc co kind handle f path data) {k k' : Nat} {f₁ f₂ : Frame}
    (hf₁ : grpc.st.cli.kicks k = some f₁) (hWaits : k ∉ Cli.ended grpc.st.cli.outcomes)
    (hOn : f₁.op.onStream = true) (hf₂ : grpc.st.cli.kicks k' = some f₂)
    (hOn' : f₂.op.onStream = true) (hSame : f₂.handle = f₁.handle) : k' ≤ k := by
  simp only [hGrpc.asks.kicks, hGrpc.outcomes] at hf₁ hf₂ hWaits
  obtain ⟨rfl, rfl⟩ | ⟨_, hf₁⟩ := update_some_iff.mp hf₁
  · obtain ⟨rfl, rfl⟩ | ⟨_, hf₂⟩ := update_some_iff.mp hf₂
    · exact Nat.le_refl _
    · exact (kick_lt_of_asks hReach hGrpc.asks hf₂).le
  · obtain ⟨rfl, rfl⟩ | ⟨_, hf₂⟩ := update_some_iff.mp hf₂
    · have hFrame := hReach.logged.awaited k f₁ hf₁ hWaits
      exact absurd hSame.symm ((hGrpc.idle hOn').2 f₁.co f₁ hFrame hOn)
    · exact h.latest k f₁ hf₁ hWaits hOn k' f₂ hf₂ hOn' hSame

/-- A stream that `recv_close` closed is refused, so the kick-off is on another one. -/
theorem Closing.asked_final (h : w.Closing) (hFollows : w.Follows)
    (hReach : State.Reachable w.grpc.st) {ok : State → GrpcClient.Action → Prop} {grpc : Grpc}
    {lib : Library P} {co handle : Nat} {kind : OpKind} {f : Frame} {path : String} {data : Bytes}
    {asked : Nat → Option (Asked C)}
    (hGrpc : Grpc.Asks ok w.grpc grpc co kind handle f path data) :
    ({ w with grpc, lib, asked } : Api C).ClosesLast := by
  intro r hr k hk f₁ v hf₁ hValue hOp hType
  obtain ⟨fr, hfr, _⟩ := hFollows.own r hr k hk
  have hf₁ : w.grpc.st.cli.kicks k = some f₁ := by
    rw [← hf₁, hGrpc.asks.kept hReach hfr, hfr]
  have hOn : f₁.op.onStream = true := by rw [hOp]; rfl
  have hOld : f₁.handle ≠ f.kick := by
    obtain ⟨fo, hfo, _⟩ := hReach.logged.ended_frame _ (h.opened k f₁ hf₁ hOn)
    exact (kick_lt_of_asks hReach hGrpc.asks hfo).ne
  have hType : w.grpc.typeOf f₁.handle = .clientStream := by
    obtain ⟨req, hReqs, _⟩ := hGrpc.reqs
    simpa [Grpc.typeOf, hReqs, hOld] using hType
  obtain ⟨hClosed, hLast⟩ := h.final r hr k hk f₁ v hf₁ hValue hOp hType
  constructor
  · intro hd hHd
    obtain ⟨hd', hHd', hStays⟩ := hGrpc.streams _ hd hHd
    exact hStays (hClosed hd' hHd')
  · intro k' f₂ hf₂ hOn' hSame
    simp only [hGrpc.asks.kicks] at hf₂
    obtain ⟨rfl, rfl⟩ | ⟨_, hf₂⟩ := update_some_iff.mp hf₂
    · obtain ⟨hd, hHd, hOpen⟩ := (hGrpc.idle hOn').1
      rw [hSame] at hHd
      rw [hClosed hd hHd] at hOpen
      cases hOpen
    · exact hLast k' f₂ hf₂ hOn' hSame

theorem Closing.asked (h : w.Closing) (hFollows : w.Follows) (hReach : State.Reachable w.grpc.st)
    {ok : State → GrpcClient.Action → Prop} {grpc : Grpc} {lib : Library P} {co handle : Nat}
    {kind : OpKind} {f : Frame} {path : String} {data : Bytes} {asked : Nat → Option (Asked C)}
    (hGrpc : Grpc.Asks ok w.grpc grpc co kind handle f path data) :
    ({ w with grpc, lib, asked } : Api C).Closing := by
  constructor
  · intro k f' hf' hOn
    simp only [hGrpc.asks.kicks, hGrpc.outcomes] at hf' ⊢
    obtain ⟨rfl, rfl⟩ | ⟨_, hf'⟩ := update_some_iff.mp hf'
    · obtain ⟨hd, hHd, _⟩ := (hGrpc.idle hOn).1
      exact ended_of_stream hReach hHd
    · exact h.opened k f' hf' hOn
  · intro k f₁ hf₁ hWaits hOn k' f₂ hf₂ hOn' hSame
    exact h.asked_latest hReach hGrpc hf₁ hWaits hOn hf₂ hOn' hSame
  · exact h.asked_final hFollows hReach hGrpc

/-- The end of a wait. With a message from `recv_close` the stream is closed, and
no later operation on it has begun. -/
theorem Closing.ended (h : w.Closing) (hReach : State.Reachable w.grpc.st)
    {ok : State → GrpcClient.Action → Prop} {grpc : Grpc} {lib : Library P}
    {stubs : Nat → Option Stub} {f : Frame} {o : Outcome} {returns : List (Return C)}
    (hGrpc : Grpc.Ends ok w.grpc grpc f o)
    (hReturns : ∀ r ∈ returns, r ∈ w.returns ∨ ∀ k ∈ r.kick, k = f.kick ∧
      ClosesAfter f r.result grpc) :
    ({ w with grpc, lib, stubs, returns } : Api C).Closing := by
  have hPending := hReach.pending hGrpc.frame
  constructor
  · intro k f' hf' hOn
    simp only [hGrpc.same.kicks, hGrpc.outcomes] at hf' ⊢
    exact Cli.mem_ended_append.mpr (.inl (h.opened k f' hf' hOn))
  · intro k f₁ hf₁ hWaits
    simp only [hGrpc.same.kicks, hGrpc.outcomes] at hf₁ hWaits ⊢
    exact h.latest k f₁ hf₁ fun hOld => hWaits (Cli.mem_ended_append.mpr (.inl hOld))
  · intro r hr k hk f₁ v hf₁ hValue hOp hType
    simp only [hGrpc.same.kicks, Grpc.typeOf, hGrpc.reqs] at hf₁ hType ⊢
    have hOn : f₁.op.onStream = true := by rw [hOp]; rfl
    obtain hr | hNew := hReturns r hr
    · obtain ⟨hClosed, hLast⟩ := h.final r hr k hk f₁ v hf₁ hValue hOp hType
      refine ⟨fun hd hHd => ?_, hLast⟩
      obtain ⟨hd', hHd', hStays⟩ | ⟨hEq, _⟩ := hGrpc.streams _ hd hHd
      · exact hStays (hClosed hd' hHd')
      · -- an open that still waits has no operations
        exact absurd (hEq ▸ h.opened k f₁ hf₁ hOn) hPending.2
    · obtain ⟨rfl, hClosed⟩ := hNew k hk
      rw [hPending.1] at hf₁
      cases hf₁
      refine ⟨?_, h.latest _ f hPending.1 hPending.2 hOn⟩
      exact hClosed v hValue hOp (by simpa [Grpc.typeOf, hGrpc.reqs] using hType)

theorem Run.closing (h : Run okA w) : w.Closing := by
  apply Run.induct closes_true permits_true h
  · exact ⟨by simp [init, Grpc.init, State.init, Cli.init],
      by simp [init, Grpc.init, State.init, Cli.init], by simp [ClosesLast, init]⟩
  intro w a w' hRun hReach _ hClosing _ hChange
  cases hChange with
  | loaded | swapped => exact ⟨hClosing.opened, hClosing.latest, hClosing.final⟩
  | quiet hGrpc => exact hClosing.quiet hGrpc fun r hr _ _ => hr
  | refused hGrpc =>
    apply hClosing.quiet hGrpc
    intro r hr k hk
    obtain hr | hr := List.mem_append.mp hr
    · exact hr
    · rw [List.mem_singleton.mp hr] at hk
      cases hk
  | asked hGrpc => exact hClosing.asked (Run.follows hRun) hReach hGrpc
  | killed hGrpc => exact hClosing.ended hReach hGrpc fun r hr => .inl hr
  | returned hGrpc _ _ _ hClosed =>
    apply hClosing.ended hReach hGrpc
    intro r hr
    obtain hr | hr := List.mem_append.mp hr
    · exact .inl hr
    · rw [List.mem_singleton.mp hr]
      refine .inr fun k hk => ?_
      cases hk
      exact ⟨rfl, hClosed⟩

end Runs

theorem recv_close_last (h : Reachable w) : w.ClosesLast := (Run.closing h).final

def recvClosed : List (Action sampleCodec) :=
  opened ++ [.recv 0 1 7 ⟨true, none, true, some 102, none⟩, .rpc 1 (.ok []), .rpc 1 (.ok [])] ++
    handOver 1

theorem recv_close_last_recvClosed : ∃ w : Api sampleCodec, w.kicksReturned = [0, 1] ∧
    w.grpc.typeOf 0 = .clientStream ∧ w.ClosesLast := by
  have hRun := run_after (fun _ _ => True) recvClosed (by decide +kernel)
  exact ⟨_, by decide +kernel, by decide +kernel, recv_close_last hRun⟩

end Api

end GrpcClient
