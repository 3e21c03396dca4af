import GrpcClient.LuaReturns

/-! # From the arguments of a function to what it returns

A function hands over the encoding of its argument, and what it returns is what
`grpc-go` answered to its operation, decoded. Both happen in the protobuf state
of the library and with the options of the call or of the stream, whatever is
loaded in between.
-/

namespace GrpcClient

open PartialMap

/-! ## The library under calls -/

namespace Library

variable {P : Protobuf} {w w' : Library P}

structure Sound (w : Library P) : Prop where
  filled : w.Filled
  started : w.Started

def Pins (w w' : Library P) : Prop := ∀ i, w.currentPbState = some i → w'.currentPbState = some i

theorem Pins.ready (h : w.Pins w') (hReady : w.currentPbState ≠ none) :
    w'.currentPbState ≠ none := by
  obtain ⟨i, hLib⟩ := Option.ne_none_iff_exists'.mp hReady
  rw [h i hLib]
  exact Option.some_ne_none i

theorem sound_init : (init P).Sound := ⟨⟨fun _ h => absurd rfl h, nofun⟩, started_init⟩

theorem Sound.loadState (h : w.Sound) (enc : Option Nat) : (w.loadState enc).2.Sound := by
  obtain ⟨hInst, hLib, _⟩ := loadState_variables w enc
  refine ⟨h.filled.loadState enc, ?_⟩
  unfold Started
  rw [hInst, hLib]
  exact h.started

theorem pins_loadState (w : Library P) (enc : Option Nat) : w.Pins (w.loadState enc).2 := by
  intro i hLib
  rw [(loadState_variables w enc).2.1, hLib]

theorem Sound.load (h : w.Sound) {l : LoadArgs} (hOk : w.indexable (.load l)) :
    (w.load l).2.Sound :=
  ⟨h.filled.load hOk, started_afterLoad w l⟩

theorem Sound.pins_load (h : w.Sound) {l : LoadArgs} (hOk : w.indexable (.load l)) :
    w.Pins (w.load l).2 := by
  intro i hLib
  obtain ⟨err, hFailed⟩ | ⟨d, hErr, hDesc, hDone⟩ := load_cases hOk
  · rw [hFailed]
    exact hLib
  · have hStarted := h.started (by rw [hLib]; exact Option.some_ne_none i)
    obtain ⟨inst, hInst⟩ := Option.ne_none_iff_exists'.mp hStarted
    rw [load_loaded hErr hDesc hDone]
    simp [loadedWith, own, hInst, hLib]

theorem appState_eq {s : Option Nat} (h : w.step (.appState s) = .ok w') :
    w' = (w.pbState s).2 := by
  cases s with
  | none =>
    cases h
    rfl
  | some i =>
    simp only [step] at h
    split at h
    · cases h
      rfl
    · cases h

theorem Sound.appState (h : w.Sound) {s : Option Nat} (hStep : w.step (.appState s) = .ok w') :
    w'.Sound ∧ w.Pins w' := by
  rw [appState_eq hStep]
  cases s with
  | none => exact ⟨⟨⟨h.filled.index, h.filled.found⟩, h.started⟩, fun _ => id⟩
  | some i => exact ⟨⟨⟨h.filled.index, h.filled.found⟩, h.started⟩, fun _ => id⟩

theorem Pins.trans {w₁ w₂ w₃ : Library P} (h : w₁.Pins w₂) (h' : w₂.Pins w₃) : w₁.Pins w₃ :=
  fun i hLib => h' i (h i hLib)

/-- The library's own state as it is, but with the mode that the option asks for. -/
structure Uses (w : Library P) (enc : Option Nat) (pb : Nat × PbState P) : Prop where
  own : w.currentPbState = some pb.1
  state : pb.2 = { w.states pb.1 with int64 := int64Mode enc }

theorem uses_loadState (hReady : w.currentPbState ≠ none) (enc : Option Nat) :
    w.Uses enc (w.loadState enc).1 := by
  obtain ⟨i, hLib⟩ := Option.ne_none_iff_exists'.mp hReady
  constructor <;> simp [loadState, hLib, pbState, pbOption]

end Library

/-! ## What the worker keeps -/

namespace Grpc

variable {g g' : Grpc} {ok : State → GrpcClient.Action → Prop} {f : Frame}

structure Extends (g g' : Grpc) : Prop where
  kicks : ∀ k f, g.st.cli.kicks k = some f → g'.st.cli.kicks k = some f
  outcomes : ∀ x ∈ g.st.cli.outcomes, x ∈ g'.st.cli.outcomes

theorem Extends.refl (g : Grpc) : g.Extends g := ⟨fun _ _ => id, fun _ => id⟩

theorem Quiet.extends (h : Quiet ok g g') : g.Extends g' := by
  constructor
  · rw [h.same.kicks]
    exact fun _ _ => id
  · rw [h.outcomes]
    exact fun _ => id

theorem Asks.extends {co handle : Nat} {kind : OpKind} {path : String} {data : Bytes}
    (h : Asks ok g g' co kind handle f path data) (hRun : State.Reachable g.st) :
    g.Extends g' := by
  constructor
  · intro k f' hf'
    exact h.asks.kept hRun hf'
  · rw [h.outcomes]
    exact fun _ => id

theorem Ends.extends {o : Outcome} (h : Ends ok g g' f o) : g.Extends g' := by
  constructor
  · rw [h.same.kicks]
    exact fun _ _ => id
  · rw [h.outcomes]
    exact fun _ => List.mem_append_left _

end Grpc

/-! ## What is asked -/

theorem GoOut.reply_ok {out : GoOut} {kind : OpKind} {payload : Option Bytes}
    (h : out.reply kind = .ok payload) :
    ∃ bytes, out = .ok bytes ∧ (kind = .call ∨ kind = .recv → payload = bufferBytes bytes) := by
  cases out with
  | ok bytes =>
    refine ⟨bytes, rfl, ?_⟩
    rintro (rfl | rfl)
    · exact (Reply.ok.inj h).symm
    · exact (Reply.ok.inj h).symm
  | err text | panic text => cases h

/-- The kick-off that named the method: the open of the stream, or the operation's
own. -/
def Frame.opener (f : Frame) : Nat := if f.op.onStream then f.handle else f.kick

namespace Api

open State (noStaleReuse)

variable {P : Protobuf} {C : Codec P} {w w' : Api C}

/-- The request of an operation, by what its function kept of the open. -/
inductive Requested (f : Frame) (a : Asked C) (req : Request) : Prop
  | opens {service method : String} {enc : Option Nat} {v : C.Value} {pb : Nat × PbState P}
      (hOff : f.op.onStream = false) (hArgs : a.args = .opens service method v enc)
      (hPath : req.method = "/" ++ service ++ "/" ++ method)
      (hUses : a.lib.Uses a.stub.int64Encoding pb)
      (hEncode : C.encode pb.2 a.stub.inputType v = .ok req.data)
  | sends {v : C.Value} {pb : Nat × PbState P} (hOp : f.op = .send) (hArgs : a.args = .sends v)
      (hUses : a.lib.Uses a.stub.int64Encoding pb)
      (hEncode : C.encode pb.2 a.stub.inputType v = .ok req.data)
  | polls (hOp : f.op = .recv ∨ f.op = .closeSend) (hArgs : a.args = .polls)
      (hData : req.data = [])

/-- Every operation so far has the request that its function was asked for. -/
structure Requests (w : Api C) : Prop where
  sound : w.lib.Sound
  ready : ∀ k a, w.asked k = some a → a.lib.currentPbState ≠ none
  pins : ∀ k a, w.asked k = some a → a.lib.Pins w.lib
  requested : ∀ k f a, w.grpc.st.cli.kicks k = some f → w.asked k = some a →
    ∃ req, w.grpc.reqs k = some req ∧ Requested f a req

theorem Requests.ready_now (h : w.Requests) {k : Nat} {a : Asked C} (ha : w.asked k = some a) :
    w.lib.currentPbState ≠ none :=
  (h.pins k a ha).ready (h.ready k a ha)

theorem Requests.settled (h : w.Requests) {grpc : Grpc} {lib : Library P}
    {stubs : Nat → Option Stub} {returns : List (Return C)} (hSound : lib.Sound)
    (hPins : w.lib.Pins lib) (hKicks : w.grpc.st.SameKicks grpc.st)
    (hReqs : grpc.reqs = w.grpc.reqs) :
    ({ w with grpc, lib, stubs, returns } : Api C).Requests := by
  refine ⟨hSound, h.ready, fun k a ha => (h.pins k a ha).trans hPins, ?_⟩
  simp only [hKicks.kicks, hReqs]
  exact h.requested

theorem Begins.requested (h : w.Requests) (hLinked : w.Linked) {f : Frame} {path : String}
    {data : Bytes} {a : Asked C} {lib : Library P} (hBegins : w.Begins f path data a lib) :
    lib.Sound ∧ w.lib.Pins lib ∧ w.lib.currentPbState ≠ none ∧ a.lib = w.lib ∧
      ∀ req : Request, req.method = path → req.data = data → Requested f a req := by
  cases hBegins with
  | @opens service method m enc v data hOff hFound hEncode =>
    have hReady := h.sound.filled.index service (Library.index_of_found hFound)
    have hPins := Library.pins_loadState w.lib enc
    have hUses := Library.uses_loadState hReady enc
    refine ⟨h.sound.loadState enc, hPins, hReady, rfl, ?_⟩
    rintro req hPath rfl
    exact .opens hOff rfl hPath hUses hEncode
  | @sends stub v data hOp hStub hEncode =>
    obtain ⟨a', ha', _⟩ := hLinked.opener _ stub hStub
    have hReady := h.ready_now ha'
    have hPins := Library.pins_loadState w.lib stub.int64Encoding
    have hUses := Library.uses_loadState hReady stub.int64Encoding
    refine ⟨h.sound.loadState _, hPins, hReady, rfl, ?_⟩
    rintro req _ rfl
    exact .sends hOp rfl hUses hEncode
  | @polls stub hOp hStub =>
    obtain ⟨a', ha', _⟩ := hLinked.opener _ stub hStub
    refine ⟨h.sound, fun _ => id, h.ready_now ha', rfl, ?_⟩
    exact fun req _ hData => .polls hOp rfl hData

theorem Requests.asks (h : w.Requests) (hLinked : w.Linked)
    {ok : State → GrpcClient.Action → Prop} {grpc : Grpc} {lib : Library P} {co handle : Nat}
    {kind : OpKind} {f : Frame} {path : String} {data : Bytes} {a : Asked C}
    (hGrpc : Grpc.Asks ok w.grpc grpc co kind handle f path data)
    (hBegins : w.Begins f path data a lib) :
    ({ w with grpc, lib, asked := Function.update w.asked f.kick (some a) } : Api C).Requests := by
  obtain ⟨hSound, hPins, hReady, hLib, hRequested⟩ := Begins.requested h hLinked hBegins
  obtain ⟨req, hReqs, hMethod, hData⟩ := hGrpc.reqs
  refine ⟨hSound, fun k a' ha' => ?_, fun k a' ha' => ?_, fun k f' a' hf' ha' => ?_⟩
  · obtain ⟨rfl, rfl⟩ | ⟨_, ha'⟩ := update_some_iff.mp ha'
    · exact hLib ▸ hReady
    · exact h.ready k a' ha'
  · obtain ⟨rfl, rfl⟩ | ⟨_, ha'⟩ := update_some_iff.mp ha'
    · exact hLib ▸ hPins
    · exact (h.pins k a' ha').trans hPins
  · simp only [hGrpc.asks.kicks] at hf'
    simp only [hReqs]
    obtain ⟨rfl, rfl⟩ | ⟨hOld, hf'⟩ := update_some_iff.mp hf'
    · simp only [Function.update_self] at ha'
      cases ha'
      exact ⟨req, Function.update_self .., hRequested req hMethod hData⟩
    · simp only [Function.update_of_ne hOld] at ha'
      obtain ⟨req', hReq', hRest⟩ := h.requested k f' a' hf' ha'
      exact ⟨req', update_of_some hReq' hOld, hRest⟩

/-! ## What comes back -/

/-- What a function makes of what it was resumed with, in the library as it finds it. -/
inductive Went (lib : Library P) (f : Frame) (a : Asked C) : Reply → LuaResult C → Prop
  | failed {err : Bytes} : Went lib f a (.fail err) (.failed f.op.failText err)
  | opened {payload : Option Bytes} (hOp : f.op = .newStream) :
      Went lib f a (.ok payload) (.stream f.kick)
  | done {payload : Option Bytes} (hOp : f.op = .send ∨ f.op = .closeSend) :
      Went lib f a (.ok payload) .done
  | undecoded {payload : Option Bytes} {pb : Nat × PbState P} {text : Bytes}
      (hOp : f.op = .call ∨ f.op = .recv) (hUses : lib.Uses a.stub.int64Encoding pb)
      (hDecode : C.decode pb.2 a.stub.outputType payload = .error text) :
      Went lib f a (.ok payload) (.failed "failed to decode: " text)
  | value {payload : Option Bytes} {pb : Nat × PbState P} {v : C.Value}
      (hOp : f.op = .call ∨ f.op = .recv) (hUses : lib.Uses a.stub.int64Encoding pb)
      (hDecode : C.decode pb.2 a.stub.outputType payload = .ok v) :
      Went lib f a (.ok payload) (.value v)

theorem Goes.went {lib lib' : Library P} {stubs stubs' : Nat → Option Stub} {f : Frame}
    {a : Asked C} {reply : Reply} {result : LuaResult C}
    (h : Goes lib stubs f a reply result lib' stubs') (hSound : lib.Sound)
    (hReady : lib.currentPbState ≠ none) :
    lib'.Sound ∧ lib.Pins lib' ∧ Went lib f a reply result := by
  have hPins := Library.pins_loadState lib a.stub.int64Encoding
  have hUses := Library.uses_loadState hReady a.stub.int64Encoding
  cases h with
  | failed => exact ⟨hSound, fun _ => id, .failed⟩
  | opened hOp => exact ⟨hSound, fun _ => id, .opened hOp⟩
  | done hOp => exact ⟨hSound, fun _ => id, .done hOp⟩
  | undecoded hOp hDecode => exact ⟨hSound.loadState _, hPins, .undecoded hOp hUses hDecode⟩
  | value hOp hDecode => exact ⟨hSound.loadState _, hPins, .value hOp hUses hDecode⟩

/-- Every function that yielded came back with what its coroutine was resumed with. -/
def Results (w : Api C) : Prop :=
  ∀ r ∈ w.returns, ∀ k ∈ r.kick, ∃ f a o reply, w.grpc.st.cli.kicks k = some f ∧
    w.asked k = some a ∧ (k, o) ∈ w.grpc.st.cli.outcomes ∧ o.reply = some reply ∧
    r.lib.Pins w.lib ∧ Went r.lib f a reply r.result

theorem Results.keep (h : w.Results) {grpc : Grpc} {lib : Library P}
    {asked : Nat → Option (Asked C)} {stubs : Nat → Option Stub} {returns : List (Return C)}
    (hGrpc : w.grpc.Extends grpc)
    (hAsked : ∀ k f a, w.grpc.st.cli.kicks k = some f → w.asked k = some a → asked k = some a)
    (hPins : w.lib.Pins lib)
    (hReturns : ∀ r ∈ returns, ∀ k ∈ r.kick, r ∈ w.returns ∨ ∃ f a o reply,
      grpc.st.cli.kicks k = some f ∧ asked k = some a ∧ (k, o) ∈ grpc.st.cli.outcomes ∧
      o.reply = some reply ∧ r.lib.Pins lib ∧ Went r.lib f a reply r.result) :
    (⟨grpc, lib, asked, stubs, returns⟩ : Api C).Results := by
  intro r hr k hk
  obtain hr | hNew := hReturns r hr k hk
  · obtain ⟨f, a, o, reply, hf, ha, ho, hReply, hLib, hWent⟩ := h r hr k hk
    exact ⟨f, a, o, reply, hGrpc.kicks k f hf, hAsked k f a hf ha, hGrpc.outcomes _ ho, hReply,
      hLib.trans hPins, hWent⟩
  · exact hNew

/-! ## Over a run -/

/-- No kick-off uses the address of an operation that was given up and whose result
is outstanding, and what is loaded can be indexed. -/
def orderly (w : Api C) (a : Action C) : Prop :=
  w.permits noStaleReuse a ∧ ∀ l ∈ a.loads, w.lib.indexable (.load l)

theorem closes_noStaleReuse : Closes noStaleReuse := by
  intro s h hReach f hf
  have hNone : s.kickOff (.streamClose h) = none := by
    unfold State.kickOff
    split
    · rename_i t hStep
      rw [(hReach.step_same rfl hStep).kicks]
      exact hReach.kicks_next
    · rfl
  rw [hNone] at hf
  cases hf

theorem orderly_permits (w : Api C) (a : Action C) (h : w.orderly a) : w.permits noStaleReuse a :=
  h.1

theorem Run.requests (h : Run orderly w) : w.Requests := by
  apply Run.induct closes_noStaleReuse orderly_permits h
  · exact ⟨Library.sound_init, by simp [init], by simp [init], by simp [init]⟩
  intro w a w' hRun hReach _ hReq hOk hChange
  have hLinked := Run.linked hRun
  cases hChange with
  | loaded =>
    have hLoad := hOk.2 _ rfl
    exact hReq.settled (hReq.sound.load hLoad) (hReq.sound.pins_load hLoad) (.refl _) rfl
  | swapped hStep =>
    obtain ⟨hSound, hPins⟩ := hReq.sound.appState hStep
    exact hReq.settled hSound hPins (.refl _) rfl
  | quiet hGrpc | killed hGrpc =>
    exact hReq.settled hReq.sound (fun _ => id) hGrpc.same hGrpc.reqs
  | refused hGrpc hLib =>
    obtain rfl | ⟨enc, rfl⟩ := hLib
    · exact hReq.settled hReq.sound (fun _ => id) hGrpc.same hGrpc.reqs
    · exact hReq.settled (hReq.sound.loadState enc) (Library.pins_loadState _ enc) hGrpc.same
        hGrpc.reqs
  | asked hGrpc hBegins => exact hReq.asks hLinked hGrpc hBegins
  | returned hGrpc hReply hAsked hGoes =>
    obtain ⟨hSound, hPins, _⟩ := hGoes.went hReq.sound (hReq.ready_now hAsked)
    exact hReq.settled hSound hPins hGrpc.same hGrpc.reqs

theorem Run.results (h : Run orderly w) : w.Results := by
  apply Run.induct closes_noStaleReuse orderly_permits h
  · simp [Results, init]
  intro w a w' hRun hReach _ hRes hOk hChange
  have hReq := Run.requests hRun
  have hLinked := Run.linked hRun
  have hSame : ∀ k f a, w.grpc.st.cli.kicks k = some f → w.asked k = some a → w.asked k = some a :=
    fun _ _ _ _ => id
  cases hChange with
  | loaded =>
    exact hRes.keep (.refl _) hSame (hReq.sound.pins_load (hOk.2 _ rfl)) fun r hr _ _ => .inl hr
  | swapped hStep =>
    exact hRes.keep (.refl _) hSame (hReq.sound.appState hStep).2 fun r hr _ _ => .inl hr
  | quiet hGrpc => exact hRes.keep hGrpc.extends hSame (fun _ => id) fun r hr _ _ => .inl hr
  | @refused _ grpc lib co what err hGrpc hLib =>
    have hPins : w.lib.Pins lib := by
      obtain rfl | ⟨enc, rfl⟩ := hLib
      · exact fun _ => id
      · exact Library.pins_loadState _ enc
    apply hRes.keep hGrpc.extends hSame hPins
    intro r hr k hk
    obtain hr | hr := List.mem_append.mp hr
    · exact .inl hr
    · rw [List.mem_singleton.mp hr] at hk
      cases hk
  | asked hGrpc hBegins =>
    apply hRes.keep (hGrpc.extends hReach) _ (Begins.requested hReq hLinked hBegins).2.1
      fun r hr _ _ => .inl hr
    intro k f a hf ha
    exact update_of_some ha (hGrpc.asks.ne hReach hf)
  | killed hGrpc hReply =>
    exact hRes.keep hGrpc.extends hSame (fun _ => id) fun r hr _ _ => .inl hr
  | @returned _ grpc lib stubs f a o reply result hGrpc hReply hAsked hGoes =>
    obtain ⟨_, hPins, hWent⟩ := hGoes.went hReq.sound (hReq.ready_now hAsked)
    have hKick := hGrpc.extends.kicks _ f (hReach.pending hGrpc.frame).1
    have hOutcome : (f.kick, o) ∈ grpc.st.cli.outcomes := by
      rw [hGrpc.outcomes]
      exact List.mem_append_right _ (List.mem_singleton_self _)
    apply hRes.keep hGrpc.extends hSame hPins
    intro r hr k hk
    obtain hr | hr := List.mem_append.mp hr
    · exact .inl hr
    · rw [List.mem_singleton.mp hr] at hk ⊢
      cases hk
      exact .inr ⟨f, a, o, reply, hKick, hAsked, hOutcome, hReply, hPins, hWent⟩

/-- The function that named the method of the operation was called with this
service, method and option, and found this method. -/
def Names (w : Api C) (f : Frame) (service method : String) (enc : Option Nat) (m : Method) :
    Prop :=
  ∃ a, w.asked f.opener = some a ∧ a.Names service method enc m

theorem Linked.names (h : w.Linked) {k : Nat} {f : Frame} {a : Asked C}
    (hf : w.grpc.st.cli.kicks k = some f) (hKick : f.kick = k) (ha : w.asked k = some a) :
    ∃ service method enc m, w.Names f service method enc m ∧
      a.stub = ⟨m.inputType, m.outputType, enc⟩ := by
  cases hOn : f.op.onStream with
  | false =>
    obtain ⟨service, method, enc, m, hNames, hStub⟩ := h.own k f a hf ha hOn
    refine ⟨service, method, enc, m, ⟨a, ?_, hNames⟩, hStub⟩
    simp [Frame.opener, hOn, hKick, ha]
  | true =>
    obtain ⟨a', ha', ⟨service, method, enc, m, hNames, hStub⟩, hSame⟩ := h.stream k f a hf ha hOn
    refine ⟨service, method, enc, m, ⟨a', ?_, hNames⟩, hSame ▸ hStub⟩
    simp [Frame.opener, hOn, ha']

/-- What goes to the engine: for an open the path of the method that its arguments
name, and for an open or a send the encoding of the argument, in the library's own
state, with the request type of the method and the option of the open. -/
inductive Sent (w : Api C) (f : Frame) (a : Asked C) (req : Request) : Prop
  | opens {service method : String} {enc : Option Nat} {m : Method} {v : C.Value}
      {pb : Nat × PbState P} (hOff : f.op.onStream = false)
      (hArgs : a.args = .opens service method v enc)
      (hFound : a.lib.findMethod service method = .ok m)
      (hPath : req.method = "/" ++ service ++ "/" ++ method) (hUses : a.lib.Uses enc pb)
      (hOwn : w.lib.currentPbState = some pb.1)
      (hEncode : C.encode pb.2 m.inputType v = .ok req.data)
  | sends {service method : String} {enc : Option Nat} {m : Method} {v : C.Value}
      {pb : Nat × PbState P} (hOp : f.op = .send) (hArgs : a.args = .sends v)
      (hNames : w.Names f service method enc m) (hUses : a.lib.Uses enc pb)
      (hOwn : w.lib.currentPbState = some pb.1)
      (hEncode : C.encode pb.2 m.inputType v = .ok req.data)
  | polls (hOp : f.op = .recv ∨ f.op = .closeSend) (hArgs : a.args = .polls)
      (hData : req.data = [])

def RequestsEncoded (w : Api C) : Prop :=
  ∀ k f, w.grpc.st.cli.kicks k = some f → ∃ a req, w.asked k = some a ∧
    w.grpc.reqs k = some req ∧ w.Sent f a req

theorem requests_encoded (h : Run orderly w) : w.RequestsEncoded := by
  intro k f hf
  have hLinked := Run.linked h
  obtain ⟨a, ha⟩ := hLinked.asked k f hf
  obtain ⟨req, hReqs, hRequested⟩ := (Run.requests h).requested k f a hf ha
  have hPins := (Run.requests h).pins k a ha
  refine ⟨a, req, ha, hReqs, ?_⟩
  have hKick := (Run.grpc closes_noStaleReuse orderly_permits h).reachable.logged.kick_eq k f hf
  cases hRequested with
  | opens hOff hArgs hPath hUses hEncode =>
    obtain ⟨service, method, enc, m, ⟨⟨v, hSame⟩, hFound⟩, hStub⟩ := hLinked.own k f a hf ha hOff
    rw [hSame] at hArgs
    cases hArgs
    rw [hStub] at hUses hEncode
    exact .opens hOff hSame hFound hPath hUses (hPins _ hUses.own) hEncode
  | sends hOp hArgs hUses hEncode =>
    obtain ⟨service, method, enc, m, hNames, hStub⟩ := hLinked.names hf hKick ha
    rw [hStub] at hUses hEncode
    exact .sends hOp hArgs hNames hUses (hPins _ hUses.own) hEncode
  | polls hOp hArgs hData => exact .polls hOp hArgs hData

/-- A message is a number, and its bytes name the type and the mode as well. -/
def taggedCodec : Codec sample where
  Value := Nat
  encode pb type v :=
    let mode := match pb.int64 with | .number => 1 | .string => 2 | .hexstring => 3
    if (pb.types : List String).length < 2 then .error []
    else .ok [UInt8.ofNat type.length, mode, UInt8.ofNat v]
  decode pb type payload :=
    if (pb.types : List String).length < 2 then .error []
    else .ok (type.length + (payload.getD []).length)

/-- Another definition is loaded between the open and the operations on the stream,
and one more while `recv_close` waits. -/
def loadBetween : List (Action taggedCodec) :=
  [.load (loadStr echoProto), .worker (.connect (some 1) (.ok []) 50),
    .newStream 0 1 7 true .clientStream ⟨true, none, true, some 100, some 10⟩ "echo.Echo" "Get"
      (4 : Nat) (some 2),
    .rpc 0 (.ok []), .rpc 0 (.ok [])] ++ handOver 0 ++
  [.load (loadFile "ping.proto" (some pingProto)),
    .send 0 1 7 ⟨true, none, true, some 101, none⟩ (5 : Nat), .rpc 1 (.ok [])] ++ handOver 1 ++
  [.recv 0 1 7 ⟨true, none, true, some 102, none⟩,
    .load (loadFile "pong.proto" (some pingProto)), .rpc 2 (.ok []), .rpc 2 (.ok [9])] ++ handOver 2

instance (w : Api taggedCodec) (a : Action taggedCodec) : Decidable (w.orderly a) :=
  inferInstanceAs (Decidable ((∀ b ∈ a.starts, w.grpc.st.noStaleReuse b) ∧
    ∀ l ∈ a.loads, w.lib.indexable (.load l)))

theorem loadBetween_runs : (after orderly loadBetween).isSome := by decide +kernel

theorem requests_encoded_loadBetween : ∃ w : Api taggedCodec,
    [0, 1, 2].map (fun k => (w.grpc.reqs k).map fun req => (req.method, req.data)) =
      [some ("/echo.Echo/Get", [7, 2, 4]), some ("", [7, 2, 5]), some ("", [])] ∧
    w.RequestsEncoded :=
  ⟨_, by decide +kernel, requests_encoded (run_after _ _ loadBetween_runs)⟩

end Api

end GrpcClient
