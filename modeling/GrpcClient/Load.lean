import Mathlib.Logic.Function.Basic
import GrpcClient.Lib.Transition
import GrpcClient.Lib.Update
import GrpcClient.Engine

/-! # Loading definitions and the protobuf state

`_M.load`, `load_state` and the lookup of a method in `lib/resty/grpc.lua`. The
lua-protobuf library keeps one current state for the whole Lua VM, and the
module puts its own in and the old one back around everything it does. What it
uses of lua-protobuf is the parameter `Protobuf`. A state is an object: it has a
number, and loads and options change its contents.
-/

namespace GrpcClient

structure Method where
  name : String
  inputType : String
  outputType : String
deriving DecidableEq, Repr

/-- The parser leaves `method` nil in a service without methods. -/
structure Service where
  name : String
  method : Option (List Method)
deriving DecidableEq, Repr

structure FileDesc where
  package : Option String
  service : Option (List Service)
deriving DecidableEq, Repr

abbrev Files := String → Option String

/-- What `protoc:load` and `protoc:loadfile` leave behind. -/
structure Compiled (Parser Types : Type) where
  error : Option String
  parser : Parser
  types : Types

/-- The part of lua-protobuf in use. `compile` gets the key, and the text unless
the key names a file. -/
structure Protobuf where
  Parser : Type
  Types : Type
  new : Parser
  loaded : Parser → String → Option FileDesc
  empty : Types
  reload : Types → Types
  compile : Parser → Types → Files → String → Option String → Compiled Parser Types

inductive Int64Mode
  | number
  | string
  | hexstring
deriving DecidableEq, Repr

structure PbState (P : Protobuf) where
  types : P.Types
  int64 : Int64Mode

abbrev Index := String → Option (String → Option Method)

structure ProtocInst (P : Protobuf) where
  parser : P.Parser
  index : Index

/-- The variables of the module and the states of lua-protobuf. The ghost field
`found` says that a call or an open has found its method. -/
structure Library (P : Protobuf) where
  states : Nat → PbState P
  nextState : Nat
  current : Nat
  protocInst : Option (ProtocInst P)
  currentPbState : Option Nat
  found : Bool

structure LoadArgs where
  source : String
  protoType : Option Nat
  files : Files

inductive LoadResult
  | loaded
  | failed (err : String)
  | raised
deriving DecidableEq, Repr

namespace LoadArgs

def isFile (l : LoadArgs) : Bool := decide (l.protoType = none ∨ l.protoType = some 1)

def loadedKey (l : LoadArgs) : String := if l.isFile then l.source else "dummy"

def text (l : LoadArgs) : Option String := if l.isFile then none else some l.source

end LoadArgs

def methodIndex (ms : List Method) : String → Option Method :=
  ms.foldl (fun t m => Function.update t m.name (some m)) fun _ => none

/-- The loop of `_M.load` over the services; `false` is a Lua error in it. -/
def indexServices (package : Option String) (index : Index) : List Service → Bool × Index
  | [] => (true, index)
  | s :: ss =>
    match s.method, package with
    | some ms, some pkg =>
      indexServices package
        (Function.update index (pkg ++ "." ++ s.name) (some (methodIndex ms))) ss
    -- ipairs(nil), or the concatenation of nil
    | _, _ => (false, index)

namespace Library

variable {P : Protobuf}

def init (P : Protobuf) : Library P := ⟨fun _ => ⟨P.empty, .number⟩, 1, 0, none, none, false⟩

/-- `pb.state`: the state that was installed, and the new one in its place. -/
def pbState (w : Library P) : Option Nat → Nat × Library P
  | none =>
    (w.current, { w with
      states := Function.update w.states w.nextState ⟨P.empty, .number⟩
      nextState := w.nextState + 1
      current := w.nextState })
  | some i => (w.current, { w with current := i })

def setTypes (w : Library P) (types : P.Types) : Library P :=
  { w with states := Function.update w.states w.current { w.states w.current with types } }

def pbOption (w : Library P) (int64 : Int64Mode) : Library P :=
  { w with states := Function.update w.states w.current { w.states w.current with int64 } }

/-- The start of `_M.load`: the old state, the compiler, and the library's state
installed. -/
def prepare (w : Library P) : Nat × ProtocInst P × Library P :=
  match w.protocInst with
  | none =>
    let (oldState, w) := w.pbState none
    let w := w.setTypes (P.reload (w.states w.current).types)
    (oldState, ⟨P.new, fun _ => none⟩, w)
  | some inst =>
    let (oldState, w) := w.pbState w.currentPbState
    (oldState, inst, w)

def load (w : Library P) (l : LoadArgs) : LoadResult × Library P :=
  let (oldState, inst, w) := w.prepare
  let out := P.compile inst.parser (w.states w.current).types l.files l.loadedKey l.text
  let w := { w.setTypes out.types with protocInst := some ⟨out.parser, inst.index⟩ }
  match out.error with
  | some err => (.failed ("failed to load protobuf: " ++ err), (w.pbState (some oldState)).2)
  | none =>
    match P.loaded out.parser l.loadedKey with
    | none => (.raised, w)
    | some d =>
      let (done, index) := indexServices d.package inst.index (d.service.getD [])
      let w := { w with protocInst := some ⟨out.parser, index⟩ }
      if done then
        let (lib, w) := w.pbState none
        (.loaded, ({ w with currentPbState := some lib }.pbState (some oldState)).2)
      else (.raised, w)

/-- The lookup at the start of `Conn:call` and `new_stream`. -/
def findMethod (w : Library P) (service method : String) : Except String Method :=
  match w.protocInst with
  | none => .error "proto files not loaded"
  | some inst =>
    match inst.index service with
    | none => .error ("service " ++ service ++ " not found")
    | some serv =>
      match serv method with
      | none => .error ("method " ++ method ++ " not found")
      | some m => .ok m

/-- How `load_state` reads `opt.int64_encoding`. -/
def int64Mode : Option Nat → Int64Mode
  | none | some 1 => .number
  | some 2 => .string
  | some _ => .hexstring

/-- `load_state`: the state in which the encoder or decoder runs, and the module
afterwards. The `pcall` returns whether or not that one raises. -/
def loadState (w : Library P) (enc : Option Nat) : (Nat × PbState P) × Library P :=
  let (oldState, w) := w.pbState w.currentPbState
  let w := w.pbOption (int64Mode enc)
  ((w.current, w.states w.current), (w.pbState (some oldState)).2)

end Library

/-- What happens in a worker: the application uses `pb.state` itself, and the
module is called. A call encodes and decodes only with a method that it found. -/
inductive LuaAction
  | appState (s : Option Nat)
  | load (l : LoadArgs)
  | find (service method : String)
  | loadState (enc : Option Nat)

namespace Library

variable {P : Protobuf}

def step (w : Library P) : LuaAction → Except Stop (Library P)
  | .appState none => .ok (w.pbState none).2
  | .appState (some i) =>
    if i < w.nextState then .ok (w.pbState (some i)).2 else .error .blocked
  | .load l => .ok (w.load l).2
  | .find service method =>
    match w.findMethod service method with
    | .ok _ => .ok { w with found := true }
    | .error _ => .ok w
  | .loadState enc => if w.found then .ok (w.loadState enc).2 else .error .blocked

abbrev Run (ok : Library P → LuaAction → Prop) : Library P → Prop :=
  Transition.Reaches step ok (init P)

abbrev Reachable : Library P → Prop := Run fun _ _ => True

def after (ok : Library P → LuaAction → Prop) [∀ w a, Decidable (ok w a)] (as : List LuaAction) :
    Option (Library P) :=
  Transition.exec step ok (init P) as

theorem run_after (ok : Library P → LuaAction → Prop) [∀ w a, Decidable (ok w a)]
    (as : List LuaAction) (h : (after ok as).isSome) : Run ok ((after ok as).get h) :=
  Transition.exec_reaches h

end Library

/-! ## What a load does -/

/-- The loop over the services meets no nil. -/
def FileDesc.Indexable (d : FileDesc) : Prop :=
  ∀ s ∈ d.service.getD [], d.package ≠ none ∧ s.method ≠ none

instance (d : FileDesc) : Decidable d.Indexable :=
  inferInstanceAs (Decidable (∀ s ∈ d.service.getD [], d.package ≠ none ∧ s.method ≠ none))

theorem indexServices_done {package : Option String} {index : Index} {ss : List Service}
    (h : ∀ s ∈ ss, package ≠ none ∧ s.method ≠ none) : (indexServices package index ss).1 = true := by
  induction ss generalizing index with
  | nil => rfl
  | cons s ss ih =>
    obtain ⟨hPackage, hMethod⟩ := h s List.mem_cons_self
    obtain ⟨pkg, rfl⟩ := Option.ne_none_iff_exists'.mp hPackage
    obtain ⟨ms, hMs⟩ := Option.ne_none_iff_exists'.mp hMethod
    simp only [indexServices, hMs]
    exact ih fun s' hs' => h s' (List.mem_cons_of_mem _ hs')

namespace Library

variable {P : Protobuf} {w : Library P}

def parser (w : Library P) : P.Parser := w.protocInst.elim P.new ProtocInst.parser

def index (w : Library P) : Index := w.protocInst.elim (fun _ => none) ProtocInst.index

/-- The state in which a load compiles, and the next one to be made. -/
structure Own (P : Protobuf) where
  id : Nat
  next : Nat
  state : PbState P

/-- A missing state is made, and `protoc.reload` fills it only with a new
compiler. -/
def own (w : Library P) : Own P :=
  match w.protocInst, w.currentPbState with
  | none, _ => ⟨w.nextState, w.nextState + 1, ⟨P.reload P.empty, .number⟩⟩
  | some _, none => ⟨w.nextState, w.nextState + 1, ⟨P.empty, .number⟩⟩
  | some _, some i => ⟨i, w.nextState, w.states i⟩

def compiled (w : Library P) (l : LoadArgs) : Compiled P.Parser P.Types :=
  P.compile w.parser w.own.state.types l.files l.loadedKey l.text

theorem prepare_eq (w : Library P) : w.prepare = (w.current, ⟨w.parser, w.index⟩,
    { w with
      states := Function.update w.states w.own.id w.own.state
      nextState := w.own.next
      current := w.own.id }) := by
  unfold prepare own parser index
  cases hInst : w.protocInst with
  | none => simp [pbState, setTypes, hInst]
  | some inst =>
    cases hLib : w.currentPbState with
    | none => simp [pbState, hInst, hLib]
    | some i => simp [pbState, hInst, hLib]

/-- The module after the compiler ran, with the library's state installed. -/
def compiling (w : Library P) (l : LoadArgs) : Library P :=
  { w with
    states := Function.update w.states w.own.id { w.own.state with types := (w.compiled l).types }
    nextState := w.own.next
    current := w.own.id
    protocInst := some ⟨(w.compiled l).parser, w.index⟩ }

/-- The library after a load that came to its end. -/
def loadedWith (w : Library P) (l : LoadArgs) (index : Index) : Library P :=
  { w.compiling l with
    states := Function.update (w.compiling l).states w.own.next ⟨P.empty, .number⟩
    nextState := w.own.next + 1
    current := w.current
    protocInst := some ⟨(w.compiled l).parser, index⟩
    currentPbState := some w.own.id }

theorem load_eq (w : Library P) (l : LoadArgs) : w.load l =
    match (w.compiled l).error with
    | some err => (.failed ("failed to load protobuf: " ++ err),
        { w.compiling l with current := w.current })
    | none =>
      match P.loaded (w.compiled l).parser l.loadedKey with
      | none => (.raised, w.compiling l)
      | some d =>
        let (done, index) := indexServices d.package w.index (d.service.getD [])
        if done then (.loaded, w.loadedWith l index)
        else (.raised, { w.compiling l with
          protocInst := some ⟨(w.compiled l).parser, index⟩ }) := by
  have hOut : P.compile w.parser w.own.state.types l.files l.loadedKey l.text = w.compiled l := rfl
  simp only [load, prepare_eq, setTypes, Function.update_self, Function.update_idem, hOut]
  cases (w.compiled l).error with
  | some err => rfl
  | none =>
    cases P.loaded (w.compiled l).parser l.loadedKey with
    | none => rfl
    | some d => rfl

theorem load_failed {l : LoadArgs} {err : String} (hErr : (w.compiled l).error = some err) :
    w.load l = (.failed ("failed to load protobuf: " ++ err),
      { w.compiling l with current := w.current }) := by
  simp only [load_eq, hErr]

theorem load_loaded {l : LoadArgs} {d : FileDesc} (hErr : (w.compiled l).error = none)
    (hDesc : P.loaded (w.compiled l).parser l.loadedKey = some d)
    (hDone : (indexServices d.package w.index (d.service.getD [])).1 = true) :
    w.load l = (.loaded,
      w.loadedWith l (indexServices d.package w.index (d.service.getD [])).2) := by
  simp only [load_eq, hErr, hDesc, hDone, if_true]

theorem loaded_cases {l : LoadArgs} (h : (w.load l).1 = .loaded) : (w.compiled l).error = none ∧
    ∃ d, P.loaded (w.compiled l).parser l.loadedKey = some d ∧
      (indexServices d.package w.index (d.service.getD [])).1 = true := by
  rw [load_eq] at h
  cases hErr : (w.compiled l).error with
  | some err =>
    rw [hErr] at h
    cases h
  | none =>
    refine ⟨rfl, ?_⟩
    rw [hErr] at h
    cases hDesc : P.loaded (w.compiled l).parser l.loadedKey with
    | none =>
      simp only [hDesc] at h
      cases h
    | some d =>
      refine ⟨d, rfl, ?_⟩
      simp only [hDesc] at h
      by_contra hDone
      simp only [hDone] at h
      cases h

/-- The index after a load. A loop that raises has filled it up to that service. -/
def indexed (w : Library P) (l : LoadArgs) : Index :=
  match (w.compiled l).error, P.loaded (w.compiled l).parser l.loadedKey with
  | none, some d => (indexServices d.package w.index (d.service.getD [])).2
  | _, _ => w.index

theorem load_protocInst (w : Library P) (l : LoadArgs) :
    (w.load l).2.protocInst = some ⟨(w.compiled l).parser, w.indexed l⟩ := by
  rw [load_eq]
  unfold indexed
  cases (w.compiled l).error with
  | some err => rfl
  | none =>
    cases P.loaded (w.compiled l).parser l.loadedKey with
    | none => rfl
    | some d =>
      dsimp only
      split
      · rfl
      · rfl

/-! ## The application's state is restored -/

/-- What a load compiles has a package if it has services, and its services have
methods. -/
def indexable (w : Library P) (a : LuaAction) : Prop :=
  match a with
  | .load l => (w.compiled l).error = none →
    ∃ d ∈ P.loaded (w.compiled l).parser l.loadedKey, d.Indexable
  | _ => True

instance (w : Library P) : (a : LuaAction) → Decidable (w.indexable a)
  | .load _ => inferInstanceAs (Decidable (_ → ∃ d ∈ _, _))
  | .appState _ | .find _ _ | .loadState _ => inferInstanceAs (Decidable True)

/-- The operation leaves the current state as it was, and an encoder or decoder
runs in the library's state with the mode of its own options. -/
def Restores (w : Library P) (a : LuaAction) : Prop :=
  match a with
  | .load l => (w.load l).2.current = w.current
  | .loadState enc => w.found = true → (w.loadState enc).2.current = w.current ∧
    ∃ i, w.currentPbState = some i ∧
      (w.loadState enc).1 = (i, { w.states i with int64 := int64Mode enc })
  | _ => True

/-- A load that meets no nil fails or succeeds. -/
theorem load_cases {l : LoadArgs} (h : w.indexable (.load l)) :
    (∃ err, w.load l = (.failed ("failed to load protobuf: " ++ err),
      { w.compiling l with current := w.current })) ∨
    ∃ d, (w.compiled l).error = none ∧
      P.loaded (w.compiled l).parser l.loadedKey = some d ∧
      (indexServices d.package w.index (d.service.getD [])).1 = true := by
  cases hErr : (w.compiled l).error with
  | some err => exact .inl ⟨err, load_failed hErr⟩
  | none =>
    obtain ⟨d, hDesc, hIndexable⟩ := h hErr
    exact .inr ⟨d, rfl, hDesc, indexServices_done hIndexable⟩

theorem load_current {l : LoadArgs} (h : w.indexable (.load l)) :
    (w.load l).2.current = w.current := by
  obtain ⟨err, hFailed⟩ | ⟨d, hErr, hDesc, hDone⟩ := load_cases h
  · rw [hFailed]
  · rw [load_loaded hErr hDesc hDone]
    rfl

/-- A method is found only after a load that left its state behind. -/
structure Filled (w : Library P) : Prop where
  index : ∀ service, w.index service ≠ none → w.currentPbState ≠ none
  found : w.found = true → w.currentPbState ≠ none

theorem Filled.load (h : w.Filled) {l : LoadArgs} (hOk : w.indexable (.load l)) :
    (w.load l).2.Filled := by
  obtain ⟨err, hFailed⟩ | ⟨d, hErr, hDesc, hDone⟩ := load_cases hOk
  · rw [hFailed]
    exact ⟨h.index, h.found⟩
  · rw [load_loaded hErr hDesc hDone]
    exact ⟨fun _ _ => Option.some_ne_none _, fun _ => Option.some_ne_none _⟩

theorem index_of_found {service method : String} {m : Method}
    (h : w.findMethod service method = .ok m) : w.index service ≠ none := by
  unfold findMethod at h
  unfold index
  cases hInst : w.protocInst with
  | none =>
    rw [hInst] at h
    cases h
  | some inst =>
    simp only [hInst] at h
    intro hNone
    simp only [Option.elim_some] at hNone
    rw [hNone] at h
    cases h

/-- An encoder or decoder leaves the variables of the module alone. -/
theorem loadState_variables (w : Library P) (enc : Option Nat) :
    (w.loadState enc).2.protocInst = w.protocInst ∧
    (w.loadState enc).2.currentPbState = w.currentPbState ∧
    (w.loadState enc).2.found = w.found := by
  cases hLib : w.currentPbState with
  | none => simp [loadState, pbState, pbOption, hLib]
  | some i => simp [loadState, pbState, pbOption, hLib]

theorem Filled.loadState (h : w.Filled) (enc : Option Nat) : (w.loadState enc).2.Filled := by
  obtain ⟨hInst, hLib, hFound⟩ := loadState_variables w enc
  refine ⟨fun service hIndex => ?_, fun hUsed => ?_⟩
  · rw [hLib]
    rw [Library.index, hInst] at hIndex
    exact h.index service hIndex
  · rw [hLib]
    exact h.found (hFound ▸ hUsed)

theorem Run.filled (h : Run indexable w) : w.Filled := by
  refine h.invariant (P := Filled) ⟨fun service h => absurd rfl h, by rintro ⟨⟩⟩ ?_
  intro w a t _ hFilled hOk hStep
  cases a with
  | appState s =>
    cases s with
    | none =>
      cases hStep
      exact ⟨hFilled.index, hFilled.found⟩
    | some i =>
      simp only [step] at hStep
      split at hStep
      · cases hStep
        exact ⟨hFilled.index, hFilled.found⟩
      · cases hStep
  | load l =>
    cases hStep
    exact hFilled.load hOk
  | find service method =>
    simp only [step] at hStep
    split at hStep
    · rename_i m hFound
      cases hStep
      exact ⟨hFilled.index, fun _ => hFilled.index service (index_of_found hFound)⟩
    · cases hStep
      exact hFilled
  | loadState enc =>
    simp only [step] at hStep
    split at hStep
    · cases hStep
      exact hFilled.loadState enc
    · cases hStep

theorem state_restored (h : Run indexable w) {a : LuaAction} (hOk : w.indexable a) :
    w.Restores a := by
  cases a with
  | load l => exact load_current hOk
  | loadState enc =>
    intro hFound
    obtain ⟨i, hLib⟩ := Option.ne_none_iff_exists'.mp (h.filled.found hFound)
    simp [loadState, hLib, pbState, pbOption]
  | appState | find => trivial

end Library

/-! ## A small lua-protobuf -/

def echoProto : String :=
  "package echo; message M \x7b\x7d service Echo \x7b rpc Get (M) returns (M); \x7d"

def pingProto : String :=
  "package ping; message M \x7b\x7d service Ping \x7b rpc Send (M) returns (M); \x7d"

def bareProto : String := "message M \x7b\x7d service Bare \x7b rpc Get (M) returns (M); \x7d"

/-- The descriptors of the three texts; every other text is a syntax error. -/
def sampleDesc (text : String) : Option FileDesc :=
  if text = echoProto then
    some ⟨some "echo", some [⟨"Echo", some [⟨"Get", ".echo.M", ".echo.M"⟩]⟩]⟩
  else if text = pingProto then
    some ⟨some "ping", some [⟨"Ping", some [⟨"Send", ".ping.M", ".ping.M"⟩]⟩]⟩
  else if text = bareProto then some ⟨none, some [⟨"Bare", some [⟨"Get", ".M", ".M"⟩]⟩]⟩
  else none

/-- The parser's table has `none` for a name whose parsing broke off. The types
are the names of what is loaded, and only with `descriptor.proto` among them can
a descriptor be encoded. -/
def sample : Protobuf where
  Parser := List (String × Option FileDesc)
  Types := List String
  new := []
  loaded p key := (p.lookup key).join
  empty := []
  reload types := "descriptor.proto" :: types
  compile p types files key text :=
    let load (p : List (String × Option FileDesc)) : Compiled _ _ :=
      if "descriptor.proto" ∈ types then ⟨none, p, types.insert key⟩
      else ⟨some "type 'google.protobuf.FileDescriptorSet' does not exists", p, types⟩
    match p.lookup key, text.or (files key) with
    | some (some _), _ => load p
    | some none, _ => ⟨some ("loop loaded: " ++ key), p, types⟩
    | none, none => ⟨some ("module load error: " ++ key), p, types⟩
    | none, some src =>
      match sampleDesc src with
      | none => ⟨some "syntax error", (key, none) :: p, types⟩
      | some d => load ((key, some d) :: p)

def loadStr (text : String) : LoadArgs := ⟨text, some 2, fun _ => none⟩

def loadFile (path : String) (content : Option String) : LoadArgs := ⟨path, none, fun _ => content⟩

namespace Library

def echoCall : List LuaAction := [
  .load (loadStr echoProto),
  .find "echo.Echo" "Get"]

theorem state_restored_echoCall : ∃ w : Library sample, w.currentPbState = some 1 ∧
    w.found = true ∧ w.Restores (.load (loadFile "missing.proto" none)) ∧
    w.Restores (.loadState (some 2)) := by
  have hRun := run_after (P := sample) indexable echoCall (by decide +kernel)
  exact ⟨_, by decide +kernel, by decide +kernel, state_restored hRun (by decide +kernel),
    state_restored hRun trivial⟩

/-- A service outside of any package: the loop over the services raises while the
library's state is installed. -/
theorem bare_load_leaks_state : ∃ (w : Library sample) (a : LuaAction), Reachable w ∧
    ¬ w.Restores a := by
  refine ⟨init sample, .load (loadStr bareProto), .refl, fun hRestores => ?_⟩
  revert hRestores
  simp only [Restores]
  decide +kernel

end Library

end GrpcClient
