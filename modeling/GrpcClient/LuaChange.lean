import GrpcClient.WorkerSteps

/-! # What one step does to the functions of the Lua module

A function is refused, starts an operation, or goes on behind its yield and
returns. `Api.Change` lists these with what the code has checked on the way.
-/

namespace GrpcClient

open Fallible PartialMap

theorem Grpc.Run.reachable {g : Grpc} {ok : State → GrpcClient.Action → Prop}
    (h : Grpc.Run (Grpc.onWorker ok) g) : State.Reachable g.st := by
  apply Grpc.Run.worker Grpc.returns_true
  apply h.mono
  intro g a _ _ _ _
  cases a with
  | worker | rpc => trivial

/-! ## The functions -/

namespace Api

variable {P : Protobuf} {C : Codec P}

/-- What a function does before it yields in an operation: an open finds its
method, the others have the stub of their stream. -/
inductive Begins (w : Api C) (f : Frame) : String → Bytes → Asked C → Library P → Prop
  | opens {service method : String} {m : Method} {enc : Option Nat} {req : C.Value} {data : Bytes}
      (hOff : f.op.onStream = false) (hFound : w.lib.findMethod service method = .ok m)
      (hEncode : C.encode (w.lib.loadState enc).1.2 m.inputType req = .ok data) :
      Begins w f ("/" ++ service ++ "/" ++ method) data
        ⟨⟨m.inputType, m.outputType, enc⟩, .opens service method req enc, w.lib⟩
        (w.lib.loadState enc).2
  | sends {stub : Stub} {req : C.Value} {data : Bytes} (hOp : f.op = .send)
      (hStub : w.stubs f.handle = some stub)
      (hEncode : C.encode (w.lib.loadState stub.int64Encoding).1.2 stub.inputType req = .ok data) :
      Begins w f "" data ⟨stub, .sends req, w.lib⟩ (w.lib.loadState stub.int64Encoding).2
  | polls {stub : Stub} (hOp : f.op = .recv ∨ f.op = .closeSend)
      (hStub : w.stubs f.handle = some stub) : Begins w f "" [] ⟨stub, .polls, w.lib⟩ w.lib

/-- What a function does behind its yield, with the two values it got there. -/
inductive Goes (lib : Library P) (stubs : Nat → Option Stub) (f : Frame) (asked : Asked C) :
    Reply → LuaResult C → Library P → (Nat → Option Stub) → Prop
  | failed {err : Bytes} :
      Goes lib stubs f asked (.fail err) (.failed f.op.failText err) lib stubs
  | opened {payload : Option Bytes} (hOp : f.op = .newStream) :
      Goes lib stubs f asked (.ok payload) (.stream f.kick) lib
        (Function.update stubs f.kick (some asked.stub))
  | done {payload : Option Bytes} (hOp : f.op = .send ∨ f.op = .closeSend) :
      Goes lib stubs f asked (.ok payload) .done lib stubs
  | undecoded {payload : Option Bytes} {text : Bytes} (hOp : f.op = .call ∨ f.op = .recv)
      (hDecode : C.decode (lib.loadState asked.stub.int64Encoding).1.2 asked.stub.outputType
        payload = .error text) :
      Goes lib stubs f asked (.ok payload) (.failed "failed to decode: " text)
        (lib.loadState asked.stub.int64Encoding).2 stubs
  | value {payload : Option Bytes} {v : C.Value} (hOp : f.op = .call ∨ f.op = .recv)
      (hDecode : C.decode (lib.loadState asked.stub.int64Encoding).1.2 asked.stub.outputType
        payload = .ok v) :
      Goes lib stubs f asked (.ok payload) (.value v) (lib.loadState asked.stub.int64Encoding).2
        stubs

/-- `recv_close` leaves no open handle behind when it returns a message. -/
def ClosesAfter (f : Frame) (result : LuaResult C) (grpc : Grpc) : Prop :=
  ∀ v, result = .value v → f.op = .recv → grpc.typeOf f.handle = .clientStream →
    ∀ hd, grpc.st.cli.streams f.handle = some hd → hd.closed = true

/-- One step, in which the worker below takes steps that meet `ok`. -/
inductive Change (ok : State → GrpcClient.Action → Prop) (w : Api C) : Action C → Api C → Prop
  | loaded {l : LoadArgs} : Change ok w (.load l) { w with lib := (w.lib.load l).2 }
  | swapped {s : Option Nat} {lib : Library P} (hStep : w.lib.step (.appState s) = .ok lib) :
      Change ok w (.appState s) { w with lib }
  | quiet {a : Action C} {grpc : Grpc} (hGrpc : Grpc.Quiet ok w.grpc grpc) :
      Change ok w a { w with grpc }
  | refused {a : Action C} {grpc : Grpc} {lib : Library P} {co : Nat} {what : String} {err : Bytes}
      (hGrpc : Grpc.Quiet ok w.grpc grpc)
      (hLib : lib = w.lib ∨ ∃ enc, lib = (w.lib.loadState enc).2) :
      Change ok w a ({ w with grpc, lib }.failed co what err)
  | asked {a : Action C} {grpc : Grpc} {lib : Library P} {f : Frame} {path : String}
      {data : Bytes} {asked : Asked C} {co handle : Nat} {kind : OpKind}
      (hGrpc : Grpc.Asks ok w.grpc grpc co kind handle f path data)
      (hBegins : w.Begins f path data asked lib) :
      Change ok w a { w with grpc, lib, asked := Function.update w.asked f.kick (some asked) }
  | killed {a : Action C} {grpc : Grpc} {f : Frame} {o : Outcome}
      (hGrpc : Grpc.Ends ok w.grpc grpc f o) (hReply : o.reply = none) : Change ok w a { w with grpc }
  | returned {a : Action C} {grpc : Grpc} {lib : Library P} {stubs : Nat → Option Stub} {f : Frame}
      {asked : Asked C} {o : Outcome} {reply : Reply} {result : LuaResult C}
      (hGrpc : Grpc.Ends ok w.grpc grpc f o)
      (hReply : o.reply = some reply) (hAsked : w.asked f.kick = some asked)
      (hGoes : Goes w.lib w.stubs f asked reply result lib stubs)
      (hClosed : ClosesAfter f result grpc) :
      Change ok w a ({ w with grpc, lib, stubs }.returned f result w.lib)

def Action.starts : Action C → Option GrpcClient.Action
  | .call g co r isHttp env _ _ _ _ => some (.call g co r isHttp env)
  | .newStream g co r isHttp type env _ _ _ _ => some (.newStream g co r isHttp type env)
  | .recv h co r env => some (.recv h co r env)
  | .send h co r env _ => some (.send h co r env)
  | .closeSend h co r env => some (.closeSend h co r env)
  | .worker a => some a
  | .rpc .. | .load _ | .appState _ => none

def Action.loads : Action C → Option LoadArgs
  | .load l => some l
  | _ => none

/-- A condition on the steps of the worker, as one on the calls of the functions. -/
def permits (ok : State → GrpcClient.Action → Prop) (w : Api C) (a : Action C) : Prop :=
  ∀ b ∈ a.starts, ok w.grpc.st b

/-- The condition does not depend on what `recv_close` closes. -/
def Closes (ok : State → GrpcClient.Action → Prop) : Prop :=
  ∀ s h, State.Reachable s → ok s (.streamClose h)

variable {w w' : Api C} {ok : State → GrpcClient.Action → Prop}

section Steps

variable (hRun : State.Reachable w.grpc.st)

include hRun

theorem kickOff_change {act : Action C} {kind : OpKind}
    {co handle : Nat} {a : GrpcClient.Action} {path : String} {data : Bytes} {asked : Asked C}
    {lib : Library P} (hA : a.kicksOff = true) (hOk : ok w.grpc.st a)
    (hKicks : ∀ t, w.grpc.st.step a = .ok t →
      w.grpc.st.SameKicks t ∨ ∃ f, w.grpc.st.Asks t co kind handle f)
    (hLib : lib = w.lib ∨ ∃ enc, lib = (w.lib.loadState enc).2)
    (hBegins : ∀ f : Frame, f.op = kind → f.handle = handle → w.Begins f path data asked lib)
    (h : ({ w with lib } : Api C).kickOff kind co a path data asked = .ok w') :
    w.Change ok act w' := by
  obtain ⟨grpc, hGrpc, h⟩ := bind_eq_ok h
  have hSame := hKicks _ (Grpc.step_worker hGrpc).1
  obtain hQuiet | ⟨f, hAsks⟩ := Grpc.step_kickOff hRun hA hOk hSame hGrpc
  · have hNone : grpc.st.cli.kicks w.grpc.st.cli.nextKick = none := by
      rw [hQuiet.same.kicks]
      exact hRun.kicks_next
    simp only [hNone] at h
    cases h
    exact .refused hQuiet hLib
  · have hKick : grpc.st.cli.kicks w.grpc.st.cli.nextKick = some f := by
      rw [hAsks.asks.kicks, ← hAsks.asks.kick, Function.update_self]
    simp only [hKick] at h
    cases h
    exact .asked hAsks (hBegins f hAsks.asks.op hAsks.asks.handle)

theorem sendOff_change {act : Action C} {kind : OpKind}
    {co handle : Nat} {a : GrpcClient.Action} {args : Args C} {stub : Stub} {path : String}
    {req : C.Value}
    (hA : a.kicksOff = true) (hOk : ok w.grpc.st a)
    (hKicks : ∀ t, w.grpc.st.step a = .ok t →
      w.grpc.st.SameKicks t ∨ ∃ f, w.grpc.st.Asks t co kind handle f)
    (hBegins : ∀ (f : Frame) (data : Bytes), f.op = kind → f.handle = handle →
      C.encode (w.lib.loadState stub.int64Encoding).1.2 stub.inputType req = .ok data →
      w.Begins f path data ⟨stub, args, w.lib⟩ (w.lib.loadState stub.int64Encoding).2)
    (h : w.sendOff kind co a args stub path req = .ok w') : w.Change ok act w' := by
  simp only [sendOff] at h
  split at h
  · cases h
    exact .refused (.refl _) (.inr ⟨_, rfl⟩)
  · rename_i data hEncode
    exact kickOff_change hRun hA hOk hKicks (.inr ⟨_, rfl⟩)
      (fun f hOp hHandle => hBegins f data hOp hHandle hEncode) h

theorem luaOpen_change {act : Action C} {kind : OpKind}
    {g co : Nat} {a : GrpcClient.Action} {service method : String} {req : C.Value}
    {enc : Option Nat} (h : w.luaOpen kind g co a service method req enc = .ok w')
    (hA : a.kicksOff = true) (hOk : ok w.grpc.st a) (hOff : kind.onStream = false)
    (hKicks : ∀ t, w.grpc.st.step a = .ok t →
      w.grpc.st.SameKicks t ∨ ∃ f, w.grpc.st.Asks t co kind g f) : w.Change ok act w' := by
  have hRefused : ∀ what err, w.Change ok act (w.failed co what err) := fun what err =>
    .refused (Grpc.Quiet.refl w.grpc) (.inl rfl)
  unfold luaOpen at h
  split at h
  · cases h
  · split at h
    · cases h
      exact hRefused _ _
    · obtain ⟨hd, _, h⟩ := bind_eq_ok h
      split at h
      · cases h
        exact hRefused _ _
      · split at h
        · cases h
          exact hRefused _ _
        · rename_i m hFound
          apply sendOff_change hRun hA hOk hKicks _ h
          intro f data hOp _ hEncode
          exact .opens (by rw [hOp, hOff]) hFound hEncode

theorem luaStreamOp_change {act : Action C} {kind : OpKind}
    {h co : Nat} {a : GrpcClient.Action} {req : Option C.Value}
    (hRes : w.luaStreamOp kind h co a req = .ok w') (hA : a.kicksOff = true) (hOk : ok w.grpc.st a)
    (hSend : ∀ r, req = some r → kind = .send)
    (hPoll : req = none → kind = .recv ∨ kind = .closeSend)
    (hKicks : ∀ t, w.grpc.st.step a = .ok t →
      w.grpc.st.SameKicks t ∨ ∃ f, w.grpc.st.Asks t co kind h f) : w.Change ok act w' := by
  unfold luaStreamOp at hRes
  split at hRes
  · cases hRes
  · obtain ⟨hd, _, hRes⟩ := bind_eq_ok hRes
    split at hRes
    · cases hRes
    · rename_i stub hStub
      split at hRes
      · cases hRes
        exact .refused (Grpc.Quiet.refl w.grpc) (.inl rfl)
      · cases req with
        | none =>
          apply kickOff_change hRun hA hOk hKicks (.inl rfl) _ hRes
          intro f hOp hHandle
          exact .polls (hOp ▸ hPoll rfl) (hHandle ▸ hStub)
        | some req =>
          apply sendOff_change hRun hA hOk hKicks _ hRes
          intro f data hOp hHandle hEncode
          exact .sends (hOp.trans (hSend req rfl)) (hHandle ▸ hStub) hEncode

theorem recvClose_quiet (hCloses : Closes ok) {f : Frame} {v : C.Value}
    {found lib : Library P}
    (h : ({ w with lib }.returned f (.value v) found).recvClose f = .ok w') :
    ∃ grpc, Grpc.Quiet ok w.grpc grpc ∧ ClosesAfter f (.value v) grpc ∧
      w' = { w with grpc, lib }.returned f (.value v) found := by
  unfold recvClose at h
  split at h
  · obtain ⟨grpc, hClose, h⟩ := bind_eq_ok h
    cases h
    obtain ⟨hQuiet, hClosed⟩ := Grpc.step_streamClose hRun (hCloses _ _ hRun) hClose
    exact ⟨grpc, hQuiet, fun _ _ _ _ => hClosed, rfl⟩
  · rename_i hNot
    cases h
    exact ⟨w.grpc, .refl _, fun _ _ hRecv hType => absurd ⟨hRecv, hType⟩ hNot, rfl⟩

/-- Behind its yield a function takes no other step of the worker than the close
in `recv_close`. -/
theorem luaReturn_goes (hCloses : Closes ok) {f : Frame} {asked : Asked C}
    {reply : Reply} (h : w.luaReturn f asked reply = .ok w') :
    ∃ result lib stubs grpc, Goes w.lib w.stubs f asked reply result lib stubs ∧
      Grpc.Quiet ok w.grpc grpc ∧ ClosesAfter f result grpc ∧
      w' = { w with grpc, lib, stubs }.returned f result w.lib := by
  have hPlain {result : LuaResult C} {lib : Library P} {stubs : Nat → Option Stub}
      (hGoes : Goes w.lib w.stubs f asked reply result lib stubs) (hNot : ∀ v, result ≠ .value v) :
      ∃ result' lib' stubs' grpc, Goes w.lib w.stubs f asked reply result' lib' stubs' ∧
        Grpc.Quiet ok w.grpc grpc ∧ ClosesAfter f result' grpc ∧
        { w with lib, stubs }.returned f result w.lib =
          { w with grpc, lib := lib', stubs := stubs' }.returned f result' w.lib :=
    ⟨_, _, _, w.grpc, hGoes, .refl _, fun v hEq => absurd hEq (hNot v), rfl⟩
  cases reply with
  | fail err =>
    cases h
    exact hPlain .failed fun _ => nofun
  | ok payload =>
    cases hOp : f.op with
    | newStream =>
      simp only [luaReturn, hOp] at h
      cases h
      exact hPlain (.opened hOp) fun _ => nofun
    | send | closeSend =>
      have hDone : f.op = .send ∨ f.op = .closeSend := by simp [hOp]
      simp only [luaReturn, hOp] at h
      cases h
      exact hPlain (.done hDone) fun _ => nofun
    | call | recv =>
      have hDecodes : f.op = .call ∨ f.op = .recv := by simp [hOp]
      simp only [luaReturn, hOp] at h
      split at h
      · rename_i text hDecode
        cases h
        exact hPlain (.undecoded hDecodes hDecode) fun _ => nofun
      · rename_i v hDecode
        obtain ⟨grpc, hQuiet, hClosed, rfl⟩ := recvClose_quiet hRun hCloses h
        exact ⟨_, _, _, grpc, .value hDecodes hDecode, hQuiet, hClosed, rfl⟩

theorem onWorker_change (hCloses : Closes ok) {a : GrpcClient.Action}
    (hA : a.kicksOff = false) (hOk : ok w.grpc.st a) (h : w.onWorker a = .ok w') :
    w.Change ok (.worker a) w' := by
  obtain ⟨grpc, hGrpc, h⟩ := bind_eq_ok h
  have hNext : State.Reachable grpc.st := .tail hRun trivial (Grpc.step_worker hGrpc).1
  obtain hQuiet | ⟨f, o, hEnds⟩ := Grpc.step_other hRun hA hOk hGrpc
  · simp only [hQuiet.resumed] at h
    cases h
    exact .quiet hQuiet
  · cases hReply : o.reply with
    | none =>
      simp only [hEnds.resumed hRun, hReply, Option.map_none] at h
      cases h
      exact .killed hEnds hReply
    | some reply =>
      simp only [hEnds.resumed hRun, hReply, Option.map_some] at h
      split at h
      · cases h
      · rename_i asked hAsked
        obtain ⟨result, lib, stubs, grpc', hGoes, hQuiet, hClosed, rfl⟩ :=
          luaReturn_goes hNext hCloses h
        exact .returned (hEnds.quiet hQuiet) hReply hAsked hGoes hClosed

theorem step_change (hCloses : Closes ok) {a : Action C}
    (hOk : w.permits ok a) (h : w.step a = .ok w') :
    w.Change ok a w' := by
  cases a with
  | call g co r isHttp env service method req enc =>
    apply luaOpen_change hRun h rfl (hOk _ rfl) rfl
    intro t hStep
    exact State.luaOpen_kicks hStep
  | newStream g co r isHttp type env service method req enc =>
    apply luaOpen_change hRun h rfl (hOk _ rfl) rfl
    intro t hStep
    simp only [State.step, State.luaNewStream] at hStep
    split at hStep
    · cases hStep
    · exact State.luaOpen_kicks hStep
  | recv h' co r env =>
    simp only [step] at h
    apply luaStreamOp_change hRun h rfl (hOk _ rfl)
    · rintro _ ⟨⟩
    · exact fun _ => .inl rfl
    · intro t hStep
      exact State.luaStreamOp_kicks hStep
  | send h' co r env req =>
    simp only [step] at h
    apply luaStreamOp_change hRun h rfl (hOk _ rfl)
    · exact fun _ _ => rfl
    · rintro ⟨⟩
    · intro t hStep
      exact State.luaStreamOp_kicks hStep
  | closeSend h' co r env =>
    simp only [step] at h
    apply luaStreamOp_change hRun h rfl (hOk _ rfl)
    · rintro _ ⟨⟩
    · exact fun _ => .inr rfl
    · intro t hStep
      exact State.luaStreamOp_kicks hStep
  | worker a =>
    simp only [step] at h
    split at h
    · cases h
    · rename_i hA
      exact onWorker_change hRun hCloses (by simpa using hA) (hOk a rfl) h
  | rpc k out =>
    obtain ⟨grpc, hGrpc, h⟩ := bind_eq_ok h
    cases h
    exact .quiet (Grpc.step_rpc hGrpc)
  | load l =>
    cases h
    exact .loaded
  | appState s =>
    obtain ⟨lib, hLib, h⟩ := bind_eq_ok h
    cases h
    exact .swapped hLib

end Steps

theorem Change.steps {a : Action C} (h : w.Change ok a w') :
    Transition.Reaches Grpc.step (Grpc.onWorker ok) w.grpc w'.grpc := by
  cases h with
  | loaded | swapped => exact .refl
  | quiet hGrpc | refused hGrpc | asked hGrpc | killed hGrpc | returned hGrpc => exact hGrpc.steps

section Runs

variable {okA : Api C → Action C → Prop} (hCloses : Closes ok)
  (hOk : ∀ w a, okA w a → w.permits ok a)

include hCloses hOk

theorem Run.grpc (h : Run okA w) : Grpc.Run (Grpc.onWorker ok) w.grpc := by
  apply h.invariant (P := fun w => Grpc.Run (Grpc.onWorker ok) w.grpc) .refl
  intro w a w' _ hRun hA hStep
  exact hRun.trans (step_change hRun.reachable hCloses (hOk w a hA) hStep).steps

theorem Run.induct {P : Api C → Prop} (h : Run okA w) (hInit : P (init C))
    (hChange : ∀ w a w', Run okA w → State.Reachable w.grpc.st → State.Reachable w'.grpc.st →
      P w → okA w a → w.Change ok a w' → P w') : P w := by
  apply h.invariant hInit
  intro w a w' hRun hP hA hStep
  have hReach := (Run.grpc hCloses hOk hRun).reachable
  have hReach' := (Run.grpc hCloses hOk (.tail hRun hA hStep)).reachable
  exact hChange w a w' hRun hReach hReach' hP hA
    (step_change hReach hCloses (hOk w a hA) hStep)

end Runs

end Api

end GrpcClient
