import Mathlib.Data.List.Nodup

/-! # The engine's queue of finished tasks

`grpc-engine/task/task.go`. A goroutine appends its result under the lock, and
the wait thread drains the whole list at once and turns every result into the
record that the C side reads. The lock makes `Done` and the part of `Wait`
after the condition loop atomic, so each is one function here.

The fields `op`, `addr` and `nextBuf` are ghost: they number the engine
operation that reported a result and the C buffers that `Wait` allocates.
-/

namespace GrpcClient

abbrev Ptr := Nat

abbrev Bytes := List UInt8

inductive ResType
  | ok
  | err
  | okNotRes
deriving DecidableEq, Repr

/-- `taskResult`: an error is reported with a nil result. -/
structure TaskResult where
  id : Ptr
  result : Option Bytes
  err : Option Bytes
  op : Nat
deriving DecidableEq, Repr

structure Buf where
  addr : Nat
  data : Bytes
deriving DecidableEq, Repr

/-- `ngx_grpc_cli_task_res_t`. The type is the tag in the low bits of `buf`,
and `buf` is the address without the tag, so `none` is the NULL that remains
of a record without a payload. -/
structure TaskRes where
  taskId : Ptr
  size : Nat
  type : ResType
  buf : Option Buf
  op : Nat
deriving DecidableEq, Repr

/-- What a result says, without the place of its payload in memory. -/
structure Report where
  taskId : Ptr
  type : ResType
  data : Option Bytes
  op : Nat
deriving DecidableEq, Repr

def TaskRes.report (r : TaskRes) : Report := ⟨r.taskId, r.type, r.buf.map Buf.data, r.op⟩

/-- The three cases of the loop in `Wait`, with `C.CBytes` giving buffer `b`. -/
def TaskResult.encode (b : Nat) (r : TaskResult) : TaskRes :=
  match r.err, r.result with
  | some e, _ => ⟨r.id, e.length, .err, some ⟨b, e⟩, r.op⟩
  | none, none => ⟨r.id, 0, .okNotRes, none, r.op⟩
  | none, some out => ⟨r.id, out.length, .ok, some ⟨b, out⟩, r.op⟩

def TaskResult.report (r : TaskResult) : Report := (r.encode 0).report

def encodeAll (b : Nat) : List TaskResult → List TaskRes
  | [] => []
  | r :: rs => r.encode b :: encodeAll (b + 1) rs

structure TaskQueue where
  done : Bool
  tasks : List TaskResult
  nextBuf : Nat

def TaskQueue.init : TaskQueue := ⟨false, [], 0⟩

def TaskQueue.signal (q : TaskQueue) : TaskQueue := { q with done := true }

/-- `ReportFinishedTask`, whose body is `taskQueue.Done`. -/
def TaskQueue.reportFinishedTask (q : TaskQueue) (r : TaskResult) : TaskQueue :=
  { q with tasks := q.tasks ++ [r] }.signal

/-- `taskQueue.Wait` once `done` lets it leave the loop around `cond.Wait`. -/
def TaskQueue.wait (q : TaskQueue) : Option (List TaskRes × TaskQueue) :=
  if q.done then
    some (encodeAll q.nextBuf q.tasks, ⟨false, [], q.nextBuf + q.tasks.length⟩)
  else none

@[simp] theorem encode_taskId (b : Nat) (r : TaskResult) : (r.encode b).taskId = r.id := by
  unfold TaskResult.encode
  split <;> rfl

@[simp] theorem encode_op (b : Nat) (r : TaskResult) : (r.encode b).op = r.op := by
  unfold TaskResult.encode
  split <;> rfl

@[simp] theorem encode_report (b : Nat) (r : TaskResult) : (r.encode b).report = r.report := by
  unfold TaskResult.report TaskResult.encode
  split <;> rfl

theorem encode_buf {b : Nat} {r : TaskResult} {x : Buf} (h : (r.encode b).buf = some x) :
    x.addr = b := by
  unfold TaskResult.encode at h
  split at h <;> simp at h <;> subst h <;> rfl

@[simp] theorem encodeAll_report (b : Nat) (rs : List TaskResult) :
    (encodeAll b rs).map TaskRes.report = rs.map TaskResult.report := by
  induction rs generalizing b with
  | nil => rfl
  | cons r rs ih => simp [encodeAll, ih]

def bufAddrs (rs : List TaskRes) : List Nat := rs.filterMap fun r => r.buf.map Buf.addr

@[simp] theorem bufAddrs_append (rs rs' : List TaskRes) :
    bufAddrs (rs ++ rs') = bufAddrs rs ++ bufAddrs rs' := by
  simp [bufAddrs]

theorem encodeAll_bufAddrs (b : Nat) (rs : List TaskResult) :
    (∀ a ∈ bufAddrs (encodeAll b rs), b ≤ a ∧ a < b + rs.length) ∧
      (bufAddrs (encodeAll b rs)).Nodup := by
  induction rs generalizing b with
  | nil => exact ⟨by simp [encodeAll, bufAddrs], List.nodup_nil⟩
  | cons r rs ih =>
    obtain ⟨hRange, hNodup⟩ := ih (b + 1)
    have hTail : ∀ a ∈ bufAddrs (encodeAll (b + 1) rs), b < a ∧ a < b + (rs.length + 1) := by
      intro a ha
      have := hRange a ha
      omega
    simp only [encodeAll, bufAddrs, List.filterMap_cons, List.length_cons]
    cases hBuf : (r.encode b).buf with
    | none =>
      refine ⟨fun a ha => ?_, hNodup⟩
      have := hTail a ha
      omega
    | some x =>
      have hx : x.addr = b := encode_buf hBuf
      simp only [Option.map_some, List.mem_cons, List.nodup_cons]
      constructor
      · rintro a (rfl | ha)
        · omega
        · have := hTail a ha
          omega
      · refine ⟨fun hMem => ?_, hNodup⟩
        have := hTail x.addr hMem
        omega

end GrpcClient
