import GrpcClient.Lib.Words
import GrpcClient.TaskQueue

/-! # The records of a batch in memory

`TaskResult.encode` says what a record means to its reader. Here is the record
itself: the 24 bytes that `taskQueue.Wait` of `grpc-engine/task/task.go` writes,
and what the C side reads in them.
-/

namespace GrpcClient

open Words

/-! ## The engine -/

/-- The switch of `init` on a `uint16` that the host has stored. Its default panics. -/
def hostEndian (host : ByteOrder) : Option ByteOrder :=
  match host.store 2 0xABCD with
  | [0xCD, 0xAB] => some .littleEndian
  | [0xAB, 0xCD] => some .bigEndian
  | _ => none

/-- A byte slice or a string of Go. Its length is an `int`. -/
structure GoBytes where
  data : Bytes
  fits : data.length < 2 ^ 63

def GoBytes.len (s : GoBytes) : BitVec 64 := BitVec.ofNat 64 s.data.length

/-- `taskResult`, with the text of the error. A nil slice is no result. -/
structure FinishedTask where
  id : BitVec 64
  result : Option GoBytes
  err : Option GoBytes

/-- The constants `GrpcResType*`, which are `NGX_GRPC_CLIENT_RES_TYPE_*` in C. -/
def ResType.code : ResType → BitVec 64
  | .ok => 0
  | .err => 1
  | .okNotRes => 2

/-- `size` and `ptrRes`, with `C.CBytes` returning `ptr`. -/
def FinishedTask.payload (ptr : BitVec 64) (res : FinishedTask) : BitVec 64 × BitVec 64 :=
  match res.err, res.result with
  | some errStr, _ => (errStr.len, ptr ||| ResType.err.code)
  | none, none => (0, ResType.okNotRes.code)
  | none, some result => (result.len, ptr)

structure TaskIdBuf where
  bytes : Bytes
  size : bytes.length = 24

def TaskIdBuf.new : TaskIdBuf := ⟨List.replicate 24 0, rfl⟩

/-- `PutUint64` on the part of the buffer that starts at `lo`. -/
def TaskIdBuf.putUint64 (order : ByteOrder) (buf : TaskIdBuf) (lo : Nat) (v : BitVec 64)
    (h : lo + 8 ≤ 24) : TaskIdBuf :=
  ⟨overwrite buf.bytes lo (order.store 8 v.toNat), by
    rw [length_overwrite, buf.size]
    rw [length_store, buf.size]
    exact h⟩

/-- The loop of `Wait` from record number `b` on, where `C.CBytes` returns `cBytes b`. -/
def waitLoop (order : ByteOrder) (cBytes : Nat → BitVec 64) :
    Nat → TaskIdBuf → Bytes → List FinishedTask → TaskIdBuf × Bytes
  | _, taskIdBuf, out, [] => (taskIdBuf, out)
  | b, taskIdBuf, out, res :: tasks =>
    let (size, ptrRes) := res.payload (cBytes b)
    let taskIdBuf := taskIdBuf.putUint64 order 0 res.id (by decide)
    let taskIdBuf := taskIdBuf.putUint64 order 8 size (by decide)
    let taskIdBuf := taskIdBuf.putUint64 order 16 ptrRes (by decide)
    waitLoop order cBytes (b + 1) taskIdBuf (out ++ taskIdBuf.bytes) tasks

def waitBytes (order : ByteOrder) (cBytes : Nat → BitVec 64) (taskIdBuf : TaskIdBuf)
    (tasks : List FinishedTask) : Bytes × Nat :=
  let out := (waitLoop order cBytes 0 taskIdBuf [] tasks).2
  (out, out.length / 24)

/-! ## The C side -/

/-- `ngx_grpc_cli_task_res_t` before the tag is taken out of `buf`. -/
structure RawRes where
  taskId : BitVec 64
  size : BitVec 64
  buf : BitVec 64
deriving DecidableEq

/-- The word that the host loads from the eight bytes at `lo`. -/
def loadWord (host : ByteOrder) (bs : Bytes) (lo : Nat) : BitVec 64 :=
  BitVec.ofNat 64 (host.load ((bs.drop lo).take 8))

def RawRes.read (host : ByteOrder) (bs : Bytes) : RawRes :=
  ⟨loadWord host bs 0, loadWord host bs 8, loadWord host bs 16⟩

def finishedTasks (host : ByteOrder) (n : Nat) (bs : Bytes) : List RawRes :=
  (records 24 n bs).map (RawRes.read host)

/-- `(int64_t) (res->buf) & 7`. -/
def RawRes.type (res : RawRes) : BitVec 64 := res.buf &&& 7

/-- `(int64_t) (res->buf) >> 3 << 3`. -/
def RawRes.address (res : RawRes) : BitVec 64 := res.buf.sshiftRight 3 <<< 3

/-! ## The bytes of a record -/

@[simp] theorem hostEndian_eq (host : ByteOrder) : hostEndian host = some host := by
  cases host with
  | littleEndian => rfl
  | bigEndian => rfl

def RawRes.bytes (order : ByteOrder) (res : RawRes) : Bytes :=
  order.store 8 res.taskId.toNat ++ (order.store 8 res.size.toNat ++ order.store 8 res.buf.toNat)

@[simp] theorem RawRes.length_bytes (order : ByteOrder) (res : RawRes) :
    (res.bytes order).length = 24 := by
  simp [RawRes.bytes]

theorem ofNat_load_store (host : ByteOrder) (v : BitVec 64) :
    BitVec.ofNat 64 (host.load (host.store 8 v.toNat)) = v := by
  have hBound : v.toNat < 256 ^ 8 := v.isLt
  rw [load_store host hBound, BitVec.ofNat_toNat, BitVec.setWidth_eq]

theorem RawRes.read_bytes (host : ByteOrder) (res : RawRes) :
    RawRes.read host (res.bytes host) = res := by
  have hId : loadWord host (res.bytes host) 0 = res.taskId := by
    rw [loadWord, RawRes.bytes, List.drop_zero, List.take_left' (length_store host 8 _),
      ofNat_load_store]
  have hSize : loadWord host (res.bytes host) 8 = res.size := by
    rw [loadWord, RawRes.bytes, List.drop_left' (length_store host 8 _),
      List.take_left' (length_store host 8 _), ofNat_load_store]
  have hBuf : loadWord host (res.bytes host) 16 = res.buf := by
    rw [loadWord, RawRes.bytes, ← List.append_assoc, List.drop_left' (by simp),
      List.take_of_length_le (by simp), ofNat_load_store]
  rw [RawRes.read, hId, hSize, hBuf]

/-- Nothing of the record before is left in the buffer. -/
theorem TaskIdBuf.put_fields (order : ByteOrder) (buf : TaskIdBuf) (id size ptrRes : BitVec 64) :
    (((buf.putUint64 order 0 id (by decide)).putUint64 order 8 size (by decide)).putUint64
      order 16 ptrRes (by decide)).bytes = RawRes.bytes order ⟨id, size, ptrRes⟩ := by
  have hEnd : buf.bytes.drop 24 = [] := List.drop_eq_nil_of_le buf.size.le
  simp only [TaskIdBuf.putUint64, RawRes.bytes, overwrite_zero, length_store]
  rw [overwrite_append (length_store order 8 _).symm, length_store, ← List.append_assoc,
    overwrite_append (by simp), length_store, List.drop_drop, List.drop_drop, hEnd]
  simp

def FinishedTask.record (ptr : BitVec 64) (res : FinishedTask) : RawRes :=
  ⟨res.id, (res.payload ptr).1, (res.payload ptr).2⟩

theorem waitLoop_out (order : ByteOrder) (cBytes : Nat → BitVec 64) (b : Nat) (buf : TaskIdBuf)
    (out : Bytes) (tasks : List FinishedTask) :
    (waitLoop order cBytes b buf out tasks).2 =
      out ++ ((tasks.mapIdx fun i t => t.record (cBytes (b + i))).map
        (RawRes.bytes order)).flatten := by
  induction tasks generalizing b buf out with
  | nil => simp [waitLoop]
  | cons res tasks ih =>
    simp only [waitLoop]
    rw [ih, TaskIdBuf.put_fields]
    simp only [List.mapIdx_cons, List.map_cons, List.flatten_cons, List.append_assoc,
      Nat.add_zero, Nat.add_assoc, Nat.add_comm 1, FinishedTask.record]

/-- Reading back what `Wait` has written, in the host's byte order. -/
theorem finishedTasks_waitBytes (host : ByteOrder) (cBytes : Nat → BitVec 64) (buf : TaskIdBuf)
    (tasks : List FinishedTask) :
    (waitBytes host cBytes buf tasks).1.length = 24 * tasks.length ∧
      (waitBytes host cBytes buf tasks).2 = tasks.length ∧
      finishedTasks host (waitBytes host cBytes buf tasks).2 (waitBytes host cBytes buf tasks).1 =
        tasks.mapIdx fun i t => t.record (cBytes i) := by
  have hOut := waitLoop_out host cBytes 0 buf [] tasks
  generalize hRs : (tasks.mapIdx fun i t => t.record (cBytes (0 + i))) = rs at hOut
  have hLength : rs.length = tasks.length := by
    rw [← hRs, List.length_mapIdx]
  have hRecord : ∀ r ∈ rs.map (RawRes.bytes host), r.length = 24 := by
    intro r hr
    obtain ⟨res, -, rfl⟩ := List.mem_map.mp hr
    exact RawRes.length_bytes host res
  have hBytes : (waitBytes host cBytes buf tasks).1.length = 24 * tasks.length := by
    rw [waitBytes, hOut, List.nil_append, length_flatten_records _ hRecord, List.length_map,
      hLength]
  have hCount : (waitBytes host cBytes buf tasks).2 = tasks.length := by
    have : (waitBytes host cBytes buf tasks).2 = (waitBytes host cBytes buf tasks).1.length / 24 :=
      rfl
    omega
  refine ⟨hBytes, hCount, ?_⟩
  have hRead := records_flatten _ hRecord
  rw [List.length_map, hLength] at hRead
  rw [hCount, finishedTasks, waitBytes, hOut, List.nil_append, hRead, List.map_map]
  simp only [Nat.zero_add] at hRs
  rw [hRs]
  exact List.map_id'' (RawRes.read_bytes host) rs

/-! ## What a record says -/

def FinishedTask.kind (t : FinishedTask) : ResType :=
  match t.err, t.result with
  | some _, _ => .err
  | none, none => .okNotRes
  | none, some _ => .ok

def FinishedTask.data (t : FinishedTask) : Bytes :=
  match t.err, t.result with
  | some errStr, _ => errStr.data
  | none, none => []
  | none, some result => result.data

/-- The C side's view of a record for a task whose payload is at `ptr`. The last field
is what its asserts say. -/
structure RawRes.Describes (res : RawRes) (t : FinishedTask) (ptr : BitVec 64) : Prop where
  taskId : res.taskId = t.id
  type : res.type = t.kind.code
  size : res.size.toNat = t.data.length
  address : res.address = if t.kind = .okNotRes then 0 else ptr
  notNull : res.buf ≠ 0

theorem GoBytes.toNat_len (s : GoBytes) : s.len.toNat = s.data.length := by
  have hFits := s.fits
  rw [GoBytes.len, BitVec.toNat_ofNat]
  omega

theorem code_below (type : ResType) : Below 3 type.code := by
  apply below_of_lt
  cases type with
  | ok => decide
  | err => decide
  | okNotRes => decide

theorem tagged_describes {ptr : BitVec 64} (hAligned : Aligned 3 ptr) (type : ResType)
    (id size : BitVec 64) :
    (RawRes.mk id size (ptr ||| type.code)).type = type.code ∧
      (RawRes.mk id size (ptr ||| type.code)).address = ptr :=
  ⟨tag_and_mask hAligned (code_below type), untag_shift hAligned (code_below type)⟩

theorem FinishedTask.record_describes (t : FinishedTask) {ptr : BitVec 64} (hNull : ptr ≠ 0)
    (hAligned : ptr.toNat % 8 = 0) : (t.record ptr).Describes t ptr := by
  have hBits : Aligned 3 ptr := aligned_of_mod hAligned
  obtain ⟨id, result, err⟩ := t
  cases err with
  | some errStr =>
    obtain ⟨hType, hAddress⟩ := tagged_describes hBits .err id errStr.len
    refine ⟨rfl, hType, errStr.toNat_len, hAddress, fun hZero => hNull ?_⟩
    have hOr : ptr ||| ResType.err.code = 0 := hZero
    exact (BitVec.or_eq_zero_iff.mp hOr).1
  | none =>
    cases result with
    | none =>
      -- the tag is all there is in the field
      have hType : ResType.okNotRes.code &&& 7 = ResType.okNotRes.code := by decide
      have hAddress : ResType.okNotRes.code.sshiftRight 3 <<< 3 = 0 := by decide
      have hTag : ResType.okNotRes.code ≠ 0 := by decide
      exact ⟨rfl, hType, rfl, hAddress, hTag⟩
    | some result =>
      obtain ⟨hType, hAddress⟩ := tagged_describes hBits .ok id result.len
      have hTag : ptr ||| ResType.ok.code = ptr := BitVec.or_zero
      rw [hTag] at hType hAddress
      exact ⟨rfl, hType, result.toNat_len, hAddress, hNull⟩

/-- The batch that `Wait` returns, with the byte order that `init` has found, and the
array that C reads: one record a task, in order. -/
theorem batch_decodes (host : ByteOrder) (cBytes : Nat → BitVec 64)
    (hNull : ∀ b, cBytes b ≠ 0) (hAligned : ∀ b, (cBytes b).toNat % 8 = 0) (buf : TaskIdBuf)
    (tasks : List FinishedTask) :
    ∃ order out n, hostEndian host = some order ∧ waitBytes order cBytes buf tasks = (out, n) ∧
      out.length = 24 * tasks.length ∧ n = tasks.length ∧
      (finishedTasks host n out).length = tasks.length ∧
      ∀ (i : Nat) (t : FinishedTask), tasks[i]? = some t →
        ∃ res : RawRes, (finishedTasks host n out)[i]? = some res ∧
          res.Describes t (cBytes i) := by
  obtain ⟨hLength, hCount, hRead⟩ := finishedTasks_waitBytes host cBytes buf tasks
  refine ⟨host, (waitBytes host cBytes buf tasks).1, (waitBytes host cBytes buf tasks).2,
    hostEndian_eq host, rfl, hLength, hCount, ?_, fun i t ht => ?_⟩
  · rw [hRead, List.length_mapIdx]
  · refine ⟨t.record (cBytes i), ?_, t.record_describes (hNull i) (hAligned i)⟩
    rw [hRead, List.getElem?_mapIdx, ht, Option.map_some]

/-- Buffers in the upper half of the address space. -/
def highBytes (b : Nat) : BitVec 64 := BitVec.ofNat 64 (2 ^ 63 + 16 * (b % 2 ^ 32))

theorem highBytes_toNat (b : Nat) : (highBytes b).toNat = 2 ^ 63 + 16 * (b % 2 ^ 32) := by
  rw [highBytes, BitVec.toNat_ofNat]
  omega

theorem highBytes_ne_zero (b : Nat) : highBytes b ≠ 0 := by
  intro hZero
  have hNat : (0 : BitVec 64).toNat = 2 ^ 63 + 16 * (b % 2 ^ 32) := hZero ▸ highBytes_toNat b
  have hNil : (0 : BitVec 64).toNat = 0 := rfl
  omega

theorem highBytes_aligned (b : Nat) : (highBytes b).toNat % 8 = 0 := by
  rw [highBytes_toNat]
  omega

/-- A response, a message without result and an error. -/
def threeTasks : List FinishedTask :=
  [⟨10, some ⟨[1, 2, 3], by decide⟩, none⟩, ⟨11, none, none⟩, ⟨12, none, some ⟨[4], by decide⟩⟩]

theorem batch_decodes_threeTasks :
    ∃ out n, waitBytes .bigEndian highBytes .new threeTasks = (out, n) ∧ out.length = 72 ∧
      ∃ res : RawRes, (finishedTasks .bigEndian n out)[2]? = some res ∧ res.taskId = 12 ∧
        res.type = 1 ∧ res.size = 1 ∧ res.address = 0x8000000000000020 := by
  obtain ⟨order, out, n, hOrder, hWait, hLength, _, _, hRead⟩ :=
    batch_decodes .bigEndian highBytes highBytes_ne_zero highBytes_aligned .new threeTasks
  cases hOrder
  obtain ⟨res, hRes, hDesc⟩ := hRead 2 ⟨12, none, some ⟨[4], by decide⟩⟩ rfl
  refine ⟨out, n, hWait, hLength, res, hRes, hDesc.taskId, hDesc.type, ?_, ?_⟩
  · exact BitVec.eq_of_toNat_eq hDesc.size
  · rw [hDesc.address, if_neg (by decide)]
    exact BitVec.eq_of_toNat_eq (highBytes_toNat 2)

/-! ## The records of the task queue

The queue that the worker's model drains holds the same results with a ghost
field, and its records stand for the ones in memory.
-/

def FinishedTask.toResult (t : FinishedTask) (op : Nat) : TaskResult :=
  ⟨t.id.toNat, t.result.map GoBytes.data, t.err.map GoBytes.data, op⟩

structure RawRes.Refines (cBytes : Nat → BitVec 64) (res : RawRes) (r : TaskRes) : Prop where
  taskId : res.taskId.toNat = r.taskId
  size : res.size.toNat = r.size
  type : res.type = r.type.code
  address : res.address = (r.buf.map fun x => cBytes x.addr).getD 0

theorem RawRes.Describes.refines {cBytes : Nat → BitVec 64} {res : RawRes} {t : FinishedTask}
    {b : Nat} (h : res.Describes t (cBytes b)) (op : Nat) :
    res.Refines cBytes ((t.toResult op).encode b) := by
  obtain ⟨hId, hType, hSize, hAddress, _⟩ := h
  obtain ⟨id, result, err⟩ := t
  cases err with
  | some errStr => exact ⟨congrArg BitVec.toNat hId, hSize, hType, hAddress⟩
  | none =>
    cases result with
    | none => exact ⟨congrArg BitVec.toNat hId, hSize, hType, hAddress⟩
    | some result => exact ⟨congrArg BitVec.toNat hId, hSize, hType, hAddress⟩

theorem records_refine {cBytes : Nat → BitVec 64} (hNull : ∀ b, cBytes b ≠ 0)
    (hAligned : ∀ b, (cBytes b).toNat % 8 = 0) {tasks : List FinishedTask}
    {results : List TaskResult}
    (hTasks : List.Forall₂ (fun t r => ∃ op, r = FinishedTask.toResult t op) tasks results)
    (b : Nat) :
    List.Forall₂ (RawRes.Refines cBytes) (tasks.mapIdx fun i t => t.record (cBytes (b + i)))
      (encodeAll b results) := by
  induction hTasks generalizing b with
  | nil => exact .nil
  | @cons t r tasks results hTask _ ih =>
    obtain ⟨op, rfl⟩ := hTask
    have hTail := ih (b + 1)
    simp only [Nat.add_assoc, Nat.add_comm 1] at hTail
    rw [List.mapIdx_cons, encodeAll]
    exact .cons ((t.record_describes (hNull b) (hAligned b)).refines op) hTail

/-- What C reads refines the records that `TaskQueue.wait` returns. -/
theorem TaskQueue.wait_refined {cBytes : Nat → BitVec 64} (hNull : ∀ b, cBytes b ≠ 0)
    (hAligned : ∀ b, (cBytes b).toNat % 8 = 0) {q q' : TaskQueue} {recs : List TaskRes}
    (hWait : q.wait = some (recs, q')) {tasks : List FinishedTask}
    (hTasks : List.Forall₂ (fun t r => ∃ op, r = FinishedTask.toResult t op) tasks q.tasks)
    (host : ByteOrder) (buf : TaskIdBuf) {out : Bytes} {n : Nat}
    (hBytes : waitBytes host (fun i => cBytes (q.nextBuf + i)) buf tasks = (out, n)) :
    List.Forall₂ (RawRes.Refines cBytes) (finishedTasks host n out) recs := by
  have hRecs : recs = encodeAll q.nextBuf q.tasks := by
    unfold TaskQueue.wait at hWait
    split at hWait
    · cases hWait
      rfl
    · cases hWait
  obtain ⟨_, _, hRead⟩ :=
    finishedTasks_waitBytes host (fun i => cBytes (q.nextBuf + i)) buf tasks
  rw [hBytes] at hRead
  rw [hRead, hRecs]
  exact records_refine hNull hAligned hTasks q.nextBuf

/-- What C reads when `Wait` drains the three tasks. -/
theorem TaskQueue.wait_refined_threeTasks : ∃ recs,
    List.Forall₂ (RawRes.Refines highBytes)
      (finishedTasks .bigEndian 3
        (waitBytes .bigEndian (fun i => highBytes (0 + i)) .new threeTasks).1) recs ∧
    recs.map TaskRes.taskId = [10, 11, 12] := by
  have hTasks : List.Forall₂ (fun t r => ∃ op, r = FinishedTask.toResult t op) threeTasks
      (threeTasks.map fun t => t.toResult 0) :=
    .cons ⟨0, rfl⟩ (.cons ⟨0, rfl⟩ (.cons ⟨0, rfl⟩ .nil))
  exact ⟨_, TaskQueue.wait_refined highBytes_ne_zero highBytes_aligned
    (q := ⟨true, threeTasks.map fun t => t.toResult 0, 0⟩) rfl hTasks .bigEndian .new rfl, rfl⟩

end GrpcClient
