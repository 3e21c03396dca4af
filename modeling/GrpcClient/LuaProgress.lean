import GrpcClient.LuaReturns
import GrpcClient.Progress

/-! # Functions come back

What a function does behind its yield is never refused. The event loop alone
therefore lets every function return that yielded and was not killed.
-/

namespace GrpcClient

open Fallible PartialMap Transition

namespace State

variable {s t : State} {ok : State → Action → Prop}

theorem answeredStreams_kept {streams : Nat → Option Handle} {k : Nat} {hd : Handle}
    (hHd : streams k = some hd) (f : Frame) (reply : Reply) :
    ∃ hd', Cli.answeredStreams streams f reply k = some hd' := by
  cases reply with
  | fail msg => exact ⟨hd, by rw [answeredStreams_fail, hHd]⟩
  | ok payload =>
    cases hOp : f.op with
    | newStream =>
      simp only [Cli.answeredStreams, hOp]
      by_cases hEq : k = f.kick
      · subst hEq
        exact ⟨_, Function.update_self ..⟩
      · exact ⟨hd, update_of_some hHd hEq⟩
    | call | recv | send | closeSend => exact ⟨hd, by simp only [Cli.answeredStreams, hOp, hHd]⟩

theorem Change.ended_streams {a : Action} (h : s.Change a t)
    (hMore : t.cli.outcomes ≠ s.cli.outcomes) {k : Nat} {hd : Handle}
    (hHd : s.cli.streams k = some hd) : ∃ hd', t.cli.streams k = some hd' := by
  cases h with
  | resume => exact answeredStreams_kept hHd _ _
  | timeout => exact answeredStreams_kept hHd _ _
  | abort => exact ⟨hd, hHd⟩
  | _ => exact absurd rfl hMore

/-- `stream_close` of a stream that is there is not refused, and it ends no wait. -/
theorem streamClose_next {k : Nat} {hd : Handle} (hHd : s.cli.streams k = some hd) :
    ∃ t, s.step (.streamClose k) = .ok t ∧ t.cli.nextKick = s.cli.nextKick ∧
      t.waitsLeft = s.waitsLeft := by
  simp only [step, luaStreamClose, handle, hHd, ok_bind]
  split
  · exact ⟨s, rfl, rfl, rfl⟩
  · exact ⟨_, rfl, rfl, rfl⟩

end State

namespace Grpc

variable {g : Grpc} {a : GrpcClient.Action} {st : State}

theorem step_next (hRun : State.Reachable g.st) (hA : a.kicksOff = false)
    (hReturn : a.isReturn = false) (hStep : g.st.step a = .ok st) :
    g.step (.worker a "" []) = .ok { g with st } := by
  have hSame := hRun.step_same hA hStep
  have hNone : g.st.kickOff a = none := by
    unfold State.kickOff
    rw [hStep]
    exact (congrFun hSame.kicks _).trans hRun.kicks_next
  have hGuard : ¬ (a.isReturn = true ∨ ¬ g.offered a) := by
    rintro (hIs | hNot)
    · rw [hReturn] at hIs
      cases hIs
    · apply hNot
      intro f hf
      rw [hNone] at hf
      cases hf
  simp only [step, if_neg hGuard, hStep, ok_bind, kicked_of_same hRun hSame]

end Grpc

namespace Api

variable {P : Protobuf} {C : Codec P} {w : Api C} {okA : Api C → Action C → Prop}

def After (st st' : State) : Prop := st' = st ∨ ∃ h, st.step (.streamClose h) = .ok st'

theorem recvClose_next (hReach : State.Reachable w.grpc.st) {f : Frame}
    (hStream : f.op = .recv → ∃ hd, w.grpc.st.cli.streams f.handle = some hd) :
    ∃ w' st, w.recvClose f = .ok w' ∧ w'.grpc = { w.grpc with st } ∧ After w.grpc.st st := by
  unfold recvClose
  split
  · rename_i hCloses
    obtain ⟨hd, hHd⟩ := hStream hCloses.1
    obtain ⟨st, hStep, _⟩ := State.streamClose_next hHd
    rw [Grpc.step_next hReach rfl rfl hStep]
    exact ⟨_, st, rfl, rfl, .inr ⟨f.handle, hStep⟩⟩
  · exact ⟨w, w.grpc.st, rfl, rfl, .inl rfl⟩

theorem luaReturn_next (hReach : State.Reachable w.grpc.st) {f : Frame} (a : Asked C)
    (reply : Reply) (hStream : f.op = .recv → ∃ hd, w.grpc.st.cli.streams f.handle = some hd) :
    ∃ w' st, w.luaReturn f a reply = .ok w' ∧ w'.grpc = { w.grpc with st } ∧
      After w.grpc.st st := by
  cases reply with
  | fail err => exact ⟨_, w.grpc.st, rfl, rfl, .inl rfl⟩
  | ok payload =>
    cases hOp : f.op with
    | newStream | send | closeSend =>
      simp only [luaReturn, hOp]
      exact ⟨_, w.grpc.st, rfl, rfl, .inl rfl⟩
    | call | recv =>
      simp only [luaReturn, hOp]
      split
      · exact ⟨_, w.grpc.st, rfl, rfl, .inl rfl⟩
      · apply recvClose_next
        · exact hReach
        · exact hStream

theorem Run.worker_next (h : Run okA w) {a : GrpcClient.Action} {st : State}
    (hA : a.kicksOff = false) (hReturn : a.isReturn = false) (hStep : w.grpc.st.step a = .ok st) :
    ∃ w' st', w.step (.worker a) = .ok w' ∧ w'.grpc = { w.grpc with st := st' } ∧
      After st st' := by
  have hReach := (Run.grpc closes_true permits_true h).reachable
  have hReach' : State.Reachable st := .tail hReach trivial hStep
  have hGrpc := Grpc.step_next hReach hA hReturn hStep
  simp only [step, hA, Bool.false_eq_true, if_false, onWorker, hGrpc, ok_bind]
  have hCases : Grpc.Quiet (fun _ _ => True) w.grpc _ ∨
      ∃ f o, Grpc.Ends (fun _ _ => True) w.grpc _ f o := Grpc.step_other hReach hA trivial hGrpc
  obtain hQuiet | ⟨f, o, hEnds⟩ := hCases
  · simp only [hQuiet.resumed]
    exact ⟨_, st, rfl, rfl, .inl rfl⟩
  · rw [hEnds.resumed hReach]
    cases hReply : o.reply with
    | none => exact ⟨_, st, rfl, rfl, .inl rfl⟩
    | some reply =>
      obtain ⟨asked, hAsked⟩ := (Run.linked h).asked _ f (hReach.pending hEnds.frame).1
      simp only [Option.map_some, hAsked]
      apply luaReturn_next hReach'
      intro hOp
      obtain ⟨hd, hHd, _⟩ :=
        hReach.valid.cli.refs.frame_stream f.co f hEnds.frame (by rw [hOp]; rfl)
      apply (hReach.valid.step_change hStep).ended_streams _ hHd
      rw [hEnds.outcomes]
      simp

/-! ## The event loop lets them return -/

def endsWaits (w : Api C) : Action C → Prop
  | .worker a => w.grpc.st.endsWaits a
  | _ => False

/-- The Lua code of the coroutines that a step of the worker resumes never refuses
the step. -/
def NeverRefused (w : Api C) : Prop :=
  ∀ a st, a.kicksOff = false → a.isReturn = false → w.grpc.st.step a = .ok st →
    ∃ w', w.step (.worker a) = .ok w'

/-- Every function that yielded so far has returned or was killed. -/
def Settled (n : Nat) (w : Api C) : Prop :=
  w.grpc.st.cli.nextKick = n ∧
    ∀ k < n, k ∈ w.kicksReturned ∨ (k, .aborted) ∈ w.grpc.st.cli.outcomes

theorem Run.settled (h : Run okA w) (hEnded : w.grpc.st.AllEnded w.grpc.st.cli.nextKick) :
    w.Settled w.grpc.st.cli.nextKick := by
  have hReach := (Run.grpc closes_true permits_true h).reachable
  refine ⟨rfl, fun k hLt => ?_⟩
  obtain ⟨f, hf, hFrame⟩ := hReach.logged.ended_frame k (hEnded.2 k hLt)
  by_cases hKilled : (k, Outcome.aborted) ∈ w.grpc.st.cli.outcomes
  · exact .inr hKilled
  · exact .inl ((Run.returned_iff h hf).mpr ⟨hFrame, hKilled⟩)

theorem Run.neverRefused (h : Run okA w) : w.NeverRefused := by
  intro a st hA hReturn hStep
  obtain ⟨w', _, hNext, _⟩ := h.worker_next hA hReturn hStep
  exact ⟨w', hNext⟩

theorem After.waitsLeft {st st' : State} (h : After st st') :
    st'.cli.nextKick = st.cli.nextKick ∧ st'.waitsLeft = st.waitsLeft := by
  obtain rfl | ⟨k, hStep⟩ := h
  · exact ⟨rfl, rfl⟩
  · obtain ⟨hd, hHd, _⟩ := bind_eq_ok hStep
    obtain ⟨t, hStep', hRest⟩ := State.streamClose_next (State.handle_ok hHd)
    rw [hStep] at hStep'
    cases hStep'
    exact hRest

/-- From every reachable state the event loop alone lets every function return that
yielded and was not killed, with one step for each posted record and each
registered task and one for the end of the drain; and no step of the worker is
refused. -/
theorem functions_return (h : Reachable w) :
    Leads step endsWaits (Settled w.grpc.st.cli.nextKick)
      (w.grpc.st.thread.occupied.length + 1 + w.grpc.st.cli.ongoingTasks.length) w ∧
    w.NeverRefused := by
  refine ⟨?_, h.neverRefused⟩
  apply Leads.mono _ w.grpc.st.waitsLeft_le
  apply leads_of_variant (I := fun u => Reachable u ∧
    u.grpc.st.cli.nextKick = w.grpc.st.cli.nextKick) fun u => u.grpc.st.waitsLeft
  · rintro u ⟨hRun, hNext⟩ hNot
    have hReach := (Run.grpc closes_true permits_true hRun).reachable
    rw [← hNext] at hNot ⊢
    obtain ⟨a, st, hA, hStep, hSame, hLt⟩ :=
      hReach.waits_next fun hEnded => hNot (Run.settled hRun hEnded)
    have hOther : a.kicksOff = false ∧ a.isReturn = false := by
      obtain rfl | ⟨co, rfl⟩ := hA
      · exact ⟨rfl, rfl⟩
      · exact ⟨rfl, rfl⟩
    obtain ⟨u', st', hStep', hGrpc, hAfter⟩ := hRun.worker_next hOther.1 hOther.2 hStep
    obtain ⟨hNext', hLeft⟩ := hAfter.waitsLeft
    refine ⟨.worker a, u', hA, hStep', ⟨.tail hRun trivial hStep', ?_⟩, ?_⟩
    · rw [hGrpc]
      exact hNext'.trans hSame
    · rw [hGrpc]
      exact hLeft ▸ hLt
  · exact ⟨h, rfl⟩

/-- The first open waits, and its coroutine may only be woken by the timer. -/
def opening : List (Action sampleCodec) :=
  [.load (loadStr echoProto), .worker (.connect (some 1) (.ok []) 50),
    .newStream 0 1 7 true .clientStream ⟨true, none, true, some 100, some 10⟩ "echo.Echo" "Get" ()
      none]

theorem functions_return_opening : ∃ w : Api sampleCodec, w.kicksReturned = [] ∧
    Leads step endsWaits (Settled 1) 2 w ∧ w.NeverRefused := by
  have hRun := run_after (fun _ _ => True) opening (by decide +kernel)
  exact ⟨_, by decide +kernel, functions_return hRun⟩

end Api

end GrpcClient
