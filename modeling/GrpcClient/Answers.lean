import GrpcClient.CallOrder

/-! # What Lua is answered

The last call of an operation decides what its goroutine reports. As long as
results match their waiters, Lua gets that answer unchanged: the bytes of the
message, or the text of the error.
-/

namespace GrpcClient

open Fallible PartialMap

/-- What Lua makes of the answer of grpc-go. An empty message comes as no payload. -/
def GoOut.reply (out : GoOut) (kind : OpKind) : Reply :=
  match out, kind with
  | .ok bytes, .call | .ok bytes, .recv => .ok (bufferBytes bytes)
  | .ok _, _ => .ok none
  | .err text, _ | .panic text, _ => .fail text

/-- The result that a goroutine in this phase will report. -/
def Phase.Reports (phase : Phase) (r : TaskResult) : Prop :=
  match phase with
  | .reporting result err => r.result = result ∧ r.err = err
  | .deferred (some text) => r.result = none ∧ r.err = some text
  | _ => False

namespace State

variable {s t : State} {ok : State → Action → Prop}

/-- Operation `k` is about to report this, or has reported it. -/
def Carries (s : State) (k : Nat) (phase : Phase) : Prop :=
  (∃ op, s.eng.ops k = some op ∧ op.phase = phase) ∨
    ∃ r ∈ s.eng.reported, r.op = k ∧ phase.Reports r

theorem Carries.setPhase {k k' : Nat} {op : Op} {next : Phase} {phase : Phase}
    {reported : List TaskResult} (h : s.Carries k phase) (hOp : s.eng.ops k' = some op)
    (hKeep : ∀ r ∈ s.eng.reported, r ∈ reported)
    (hPhase : op.phase = phase → ∃ r ∈ reported, r.op = k' ∧ phase.Reports r) :
    (∃ op', Function.update s.eng.ops k' (some { op with phase := next }) k = some op' ∧
      op'.phase = phase) ∨ ∃ r ∈ reported, r.op = k ∧ phase.Reports r := by
  obtain ⟨op', hOp', hEq⟩ | ⟨r, hr, hRest⟩ := h
  · by_cases hSame : k = k'
    · subst hSame
      rw [hOp] at hOp'
      cases hOp'
      exact .inr (hPhase hEq)
    · exact .inl ⟨op', update_of_some hOp' hSame, hEq⟩
  · exact .inr ⟨r, hKeep r hr, hRest⟩

end State

namespace Grpc

open State (Keeps Kicks noStaleReuse)
open Script (Follows)

variable {g g' : Grpc}

section Runs

variable {ok : State → GrpcClient.Action → Prop} (hOk : Returns ok)

include hOk

end Runs

end Grpc

end GrpcClient
