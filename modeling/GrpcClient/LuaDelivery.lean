import GrpcClient.Delivery
import GrpcClient.LuaProgress
import GrpcClient.LuaResults

/-! # From the answers of grpc-go to the return of a function

As long as no wait is given up, a function that yielded returns, and what it
returns is made of what grpc-go answers to the calls of its operation.
-/

namespace GrpcClient

open Fallible PartialMap Transition

namespace State

variable {s t : State} {k : Nat}

/-- The end of a stream brings no result nearer and takes none away. -/
theorem streamClose_left {h : Nat} (hStep : s.step (.streamClose h) = .ok t) :
    t.stepsLeft k = s.stepsLeft k ∧ t.job = s.job ∧ t.cli.kicks = s.cli.kicks := by
  obtain ⟨hd, _, hStep⟩ := bind_eq_ok hStep
  split at hStep
  · cases hStep
    exact ⟨rfl, rfl, rfl⟩
  · simp only [closeStream, Engine.grpcEngineCloseStream_eq] at hStep
    cases hStep
    exact ⟨rfl, rfl, rfl⟩

theorem kicksOff_of_delivers {out : GoOut} {a : Action} (h : delivers k out s a) :
    a.kicksOff = false := by
  simp only [delivers, List.mem_cons, List.not_mem_nil, or_false] at h
  obtain rfl | rfl | rfl | rfl | rfl | rfl | rfl | rfl := h <;> rfl

/-- A step that kicks nothing off and is no return leaves the goroutines running. -/
theorem Run.job_kept {ok : State → Action → Prop} (h : Run ok s) {a : Action}
    (hReturn : a.isReturn = false) (hStep : s.step a = .ok t)
    (hKicks : t.cli.kicks = s.cli.kicks) : t.job = s.job := by
  obtain hKeeps | ⟨f, op, hKick⟩ := (h.valid.step_change hStep).keeps_or_kicks hReturn
  · exact hKeeps.job
  · have hNew : t.cli.kicks f.kick = some f := by rw [hKick.kicks, Function.update_self]
    rw [hKicks, hKick.kick, h.kicks_next] at hNew
    cases hNew

end State

namespace Grpc

open State (patient)

variable {g : Grpc} {k : Nat} {f : Frame} {answer : RpcCall → GoOut}

theorem returns_patient : Returns patient := by
  intro s k out _
  simp [patient, State.undisturbed, Action.givesUp, Action.postOk, Action.oom]

/-! ## The goroutine makes its calls -/

theorem rpc_more {op : Op} {c c' : RpcCall} {cs : List RpcCall} (hOp : g.st.eng.ops k = some op)
    (hRunning : op.phase = .running) (hLeft : g.left k = c :: c' :: cs) (bytes : Bytes) :
    g.step (.rpc k (.ok bytes)) = .ok (g.record k op c (c' :: cs) (.ok bytes)) := by
  simp only [step, rpc, hOp, hLeft, hRunning, if_true]

theorem rpc_last {op : Op} {c : RpcCall} {cs : List RpcCall} {out : GoOut}
    (hOp : g.st.eng.ops k = some op) (hRunning : op.phase = .running) (hLeft : g.left k = c :: cs)
    (hEnd : ∀ bytes, out = .ok bytes → cs = []) : g.step (.rpc k out) =
      .ok { g.record k op c cs out with
        st := { g.st with eng := g.st.eng.returned k op out } } := by
  simp only [step, rpc, hOp, hLeft, hRunning, if_true]
  split
  · rename_i bytes c' cs'
    cases hEnd bytes rfl
  · rw [Engine.goReturn_eq hOp hRunning, ok_bind]

theorem Run.next_call {ok : State → GrpcClient.Action → Prop} (hOk : Returns ok)
    (h : Run (onWorker ok) g) {op : Op} (hOp : g.st.eng.ops k = some op)
    (hRunning : op.phase = .running) : ∃ c cs, g.left k = c :: cs := by
  obtain ⟨req, _, hFollows⟩ :=
    (Run.followed hOk h).script k _ (State.job_of_running hOp hRunning)
  exact List.exists_cons_of_ne_nil hFollows.left_ne_nil

/-- The calls that a running goroutine has still to make. -/
def callsLeft (k : Nat) (g : Grpc) : Nat :=
  if (g.st.job k).map Job.running = some true then (g.left k).length else 0

def answersLeft (k : Nat) (g : Grpc) : Nat := g.callsLeft k + g.st.stepsLeft k

/-- The goroutine of `k` gets the answer to its next call, or another step than a
return brings the result of `k` nearer. -/
inductive Nearer (k : Nat) (answer : RpcCall → GoOut) (g : Grpc) : Prop
  | called {c : RpcCall} {cs : List RpcCall} {op : Op} {g' : Grpc} (hLeft : g.left k = c :: cs)
      (hStep : g.step (.rpc k (answer c)) = .ok g') (hKicks : g'.st.cli.kicks = g.st.cli.kicks)
      (hCalls : g'.calls = g.calls ++ [⟨k, op.stream, c, answer c⟩])
      (hLt : g'.answersLeft k < g.answersLeft k)
  | moved {a : GrpcClient.Action} {st : State} {out : GoOut}
      (hDelivers : State.delivers k out g.st a) (hReturn : a.isReturn = false)
      (hStep : g.st.step a = .ok st) (hKicks : st.cli.kicks = g.st.cli.kicks)
      (hJob : st.job = g.st.job) (hLt : st.stepsLeft k < g.st.stepsLeft k)

/-- A running goroutine makes its next call, and returns with the last one. -/
theorem nearer_of_call {op : Op} {c : RpcCall} {cs : List RpcCall}
    (hOp : g.st.eng.ops k = some op) (hRunning : op.phase = .running) (hLeft : g.left k = c :: cs)
    (hLt : ({ g.st with eng := g.st.eng.returned k op (answer c) } : State).stepsLeft k <
      g.st.stepsLeft k) : g.Nearer k answer := by
  have hJob := State.job_of_running hOp hRunning
  by_cases hMore : ∃ bytes, answer c = .ok bytes ∧ cs ≠ []
  · obtain ⟨bytes, hOut, hNe⟩ := hMore
    obtain ⟨c', cs, rfl⟩ := List.exists_cons_of_ne_nil hNe
    have hStep := rpc_more hOp hRunning hLeft bytes
    rw [← hOut] at hStep
    apply Nearer.called hLeft hStep rfl rfl
    have hBefore : g.callsLeft k = cs.length + 2 := by simp [callsLeft, hJob, hLeft]
    have hAfter : (g.record k op c (c' :: cs) (answer c)).callsLeft k = cs.length + 1 := by
      simp [callsLeft, record, hJob]
    rw [answersLeft, answersLeft, hBefore, hAfter]
    exact Nat.add_lt_add_right (Nat.lt_succ_self _) _
  · have hStep := rpc_last hOp hRunning hLeft fun bytes hOut => by
      by_contra hNe
      exact hMore ⟨bytes, hOut, hNe⟩
    apply Nearer.called hLeft hStep rfl rfl
    have hAfter : callsLeft k { g.record k op c cs (answer c) with
        st := { g.st with eng := g.st.eng.returned k op (answer c) } } = 0 := by
      simp [callsLeft, State.job_returned hOp]
    rw [answersLeft, answersLeft, hAfter, Nat.zero_add]
    exact lt_of_lt_of_le hLt (Nat.le_add_left _ _)

theorem Run.nearer (h : Run (onWorker patient) g) (hf : g.st.cli.kicks k = some f)
    (hOpen : ¬ g.st.Delivered k) (answer : RpcCall → GoOut) : g.Nearer k answer := by
  have hRun := Run.worker returns_patient h
  obtain ⟨a, st, hDelivers, hStep, hKicks, hLt⟩ :=
    hRun.nearer hf hOpen (((g.left k).head?.map answer).getD (.ok []))
  cases hReturn : a.isReturn with
  | false => exact .moved hDelivers hReturn hStep hKicks (hRun.job_kept hReturn hStep hKicks) hLt
  | true =>
    have hGo : a = .goReturn k (((g.left k).head?.map answer).getD (.ok [])) := by
      obtain hEq | hOther := List.mem_cons.mp hDelivers
      · exact hEq
      · simp only [List.mem_cons, List.not_mem_nil, or_false] at hOther
        obtain rfl | rfl | rfl | rfl | rfl | rfl | rfl := hOther <;> cases hReturn
    rw [hGo] at hStep
    obtain ⟨eng, hEng, hStep⟩ := bind_eq_ok hStep
    cases hStep
    obtain ⟨op, hOp, hRunning, rfl⟩ := Engine.goReturn_ok hEng
    obtain ⟨c, cs, hLeft⟩ := Run.next_call returns_patient h hOp hRunning
    simp only [hLeft, List.head?_cons, Option.map_some, Option.getD_some] at hLt
    exact nearer_of_call hOp hRunning hLeft hLt

end Grpc

namespace Api

open State (patient)

variable {P : Protobuf} {C : Codec P} {w u : Api C} {k : Nat} {f : Frame}
  {answer : RpcCall → GoOut}

/-- No wait is given up, the worker stays up, and what is loaded can be indexed. -/
def serene (w : Api C) (a : Action C) : Prop :=
  w.permits patient a ∧ ∀ l ∈ a.loads, w.lib.indexable (.load l)

theorem closes_patient : Closes patient := by
  intro s h _
  simp [patient, State.undisturbed, GrpcClient.Action.givesUp, GrpcClient.Action.postOk,
    GrpcClient.Action.oom]

theorem serene_permits (w : Api C) (a : Action C) (h : w.serene a) : w.permits patient a := h.1

theorem Run.patient (h : Run serene w) : Grpc.Run (Grpc.onWorker patient) w.grpc :=
  Run.grpc closes_patient serene_permits h

theorem Run.orderly (h : Run serene w) : Run orderly w := by
  apply h.mono
  intro w a w' hRun hOk _
  have hWorker := Grpc.Run.worker Grpc.returns_patient (Run.patient hRun)
  exact ⟨fun b _ => hWorker.uses_fresh b, hOk.2⟩

/-- A step of the goroutine of `k`, whose calls get these answers, of the wait
thread or of the event loop. -/
inductive answering (k : Nat) (answer : RpcCall → GoOut) (w : Api C) : Action C → Prop
  | called {c : RpcCall} {cs : List RpcCall} (hLeft : w.grpc.left k = c :: cs) :
      answering k answer w (.rpc k (answer c))
  | moved {a : GrpcClient.Action} {out : GoOut} (hDelivers : State.delivers k out w.grpc.st a) :
      answering k answer w (.worker a)

theorem serene_of_answering {a : Action C} (h : answering k answer w a) : w.serene a := by
  cases h with
  | called => exact ⟨by simp [permits, Action.starts], by simp [Action.loads]⟩
  | moved hDelivers =>
    refine ⟨?_, by simp [Action.loads]⟩
    rintro b ⟨⟩
    exact State.patient_of_delivers hDelivers

theorem After.left {st st' : State} (h : After st st') (k : Nat) :
    st'.stepsLeft k = st.stepsLeft k ∧ st'.job = st.job ∧ st'.cli.kicks = st.cli.kicks := by
  obtain rfl | ⟨_, hStep⟩ := h
  · exact ⟨rfl, rfl, rfl⟩
  · exact State.streamClose_left hStep

/-- What is known of the states on the way. -/
structure Awaits (k : Nat) (f : Frame) (answer : RpcCall → GoOut) (w u : Api C) : Prop where
  run : Run serene u
  kick : u.grpc.st.cli.kicks k = some f
  answered : ∃ cs : List RpcCall,
    madeBy u.grpc.calls k = madeBy w.grpc.calls k ++ cs.map fun c => (c, answer c)

theorem Awaits.nearer (h : Awaits k f answer w u) (hOpen : ¬ u.grpc.st.Delivered k) :
    ∃ a u', answering k answer u a ∧ u.step a = .ok u' ∧ Awaits k f answer w u' ∧
      u'.grpc.answersLeft k < u.grpc.answersLeft k := by
  obtain ⟨cs, hAnswered⟩ := h.answered
  cases (Run.patient h.run).nearer h.kick hOpen answer with
  | @called c _ op g' hLeft hStep hKicks hCalls hLt =>
    have hApi : u.step (.rpc k (answer c)) = .ok { u with grpc := g' } := by
      simp only [step, hStep, ok_bind]
    have hOk : answering k answer u (.rpc k (answer c)) := .called hLeft
    refine ⟨_, _, hOk, hApi, ⟨.tail h.run (serene_of_answering hOk) hApi, ?_, cs ++ [c], ?_⟩, hLt⟩
    · rw [← h.kick]
      exact congrFun hKicks k
    · have hMade := madeBy_snoc u.grpc.calls ⟨k, op.stream, c, answer c⟩
      simp only [hCalls, hMade, hAnswered, List.map_append, List.map_singleton, List.append_assoc]
  | @moved a _ _ hDelivers hReturn hStep hKicks hJob hLt =>
    obtain ⟨u', st', hApi, hGrpc, hAfter⟩ :=
      h.run.worker_next (State.kicksOff_of_delivers hDelivers) hReturn hStep
    have hOk : answering k answer u (.worker a) := .moved hDelivers
    obtain ⟨hLeft, hJob', hKicks'⟩ := hAfter.left k
    refine ⟨_, u', hOk, hApi, ⟨.tail h.run (serene_of_answering hOk) hApi, ?_, cs, ?_⟩, ?_⟩
    · rw [← h.kick, hGrpc]
      exact congrFun (hKicks'.trans hKicks) k
    · rw [hGrpc]
      exact hAnswered
    · rw [hGrpc, Grpc.answersLeft, Grpc.answersLeft, Grpc.callsLeft, Grpc.callsLeft, hLeft,
        hJob', hJob]
      exact Nat.add_lt_add_left hLt _

instance (w : Api sampleCodec) (a : Action sampleCodec) : Decidable (w.serene a) :=
  inferInstanceAs (Decidable ((∀ b ∈ a.starts, w.grpc.st.patient b) ∧
    ∀ l ∈ a.loads, w.lib.indexable (.load l)))

end Api

end GrpcClient
