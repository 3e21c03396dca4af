import GrpcClient.QueueWaits

/-! # The atomic operations of the task queue

`TaskQueue` has `Done`, a timeout and the end of `Wait` as single operations. The
threads refine it: a `Done` call takes effect when it appends its result, a
callback when it gets the lock, and a `Wait` when it clears the flag.
-/

namespace GrpcClient

/-- One operation of the queue, with the results of the waits that have returned. -/
inductive TaskQueue.Next :
    TaskQueue × List (List TaskRes) → TaskQueue × List (List TaskRes) → Prop
  | done (q : TaskQueue) (log : List (List TaskRes)) (r : TaskResult) :
      Next (q, log) (q.reportFinishedTask r, log)
  | timeout (q : TaskQueue) (log : List (List TaskRes)) : Next (q, log) (q.signal, log)
  | wait {q q' : TaskQueue} {out : List TaskRes} (log : List (List TaskRes)) :
      q.wait = some (out, q') → Next (q, log) (q', log ++ [out])

namespace QueueThreads

open Relation

variable {s t : QueueThreads} {a : QueueAct} {ok : QueueThreads → QueueAct → Prop}

/-- The owner of the lock is about to set the flag. -/
def setsDone (s : QueueThreads) : Bool :=
  match s.lock with
  | some (.caller c) => decide (s.calls c = some .setDone)
  | _ => false

/-- The queue that the calls have made, with no `Wait` on its way out. -/
def called (s : QueueThreads) : TaskQueue × List (List TaskRes) :=
  (if s.setsDone then s.queue.signal else s.queue, s.returned.map Prod.snd)

/-- The operations that have taken effect. -/
def committed (s : QueueThreads) : TaskQueue × List (List TaskRes) :=
  match s.waiter with
  | some (_, .stopTimer) | some (_, .drain) =>
    (⟨false, [], s.queue.nextBuf + s.queue.tasks.length⟩,
      s.returned.map Prod.snd ++ [encodeAll s.queue.nextBuf s.queue.tasks])
  | some (_, .leave out) => (s.queue, s.returned.map Prod.snd ++ [out])
  | _ => s.called

theorem called_of_free (h : s.lock = none) : s.called = (s.queue, s.returned.map Prod.snd) := by
  simp [called, setsDone, h]

theorem called_of_waiter (h : s.lock = some .waiter) :
    s.called = (s.queue, s.returned.map Prod.snd) := by
  simp [called, setsDone, h]

theorem called_of_caller {c : Caller} {pc : CallPc} (h : s.lock = some (.caller c))
    (hCall : s.calls c = some pc) :
    s.called = (if pc = .setDone then s.queue.signal else s.queue, s.returned.map Prod.snd) := by
  simp [called, setsDone, h, hCall]

/-- Without the lock, `Wait` has nothing half done. -/
theorem committed_of_outside (h : ¬ s.inside .waiter) : s.committed = s.called := by
  unfold committed
  split
  · rename_i hAt
    exact absurd ((inside_waiter hAt).mpr rfl) h
  · rename_i hAt
    exact absurd ((inside_waiter hAt).mpr rfl) h
  · rename_i hAt
    exact absurd ((inside_waiter hAt).mpr rfl) h
  · rfl

theorem committed_of_caller (hOwned : s.Owned) {c : Caller} {pc : CallPc}
    (hCall : s.calls c = some pc) (hHolds : pc.holds = true) :
    s.committed =
      (if pc = .setDone then s.queue.signal else s.queue, s.returned.map Prod.snd) := by
  have hInside := (inside_caller hCall).mpr hHolds
  have hOutside : ¬ s.inside .waiter := by
    intro hWaiter
    cases hOwned.unique hInside hWaiter
  rw [committed_of_outside hOutside, called_of_caller ((hOwned _).mpr hInside) hCall]

theorem committed_of_free (hOwned : s.Owned) (hFree : s.lock = none) :
    s.committed = (s.queue, s.returned.map Prod.snd) := by
  have hNobody : Mutex.Owned none s.inside := hFree ▸ hOwned
  rw [committed_of_outside (hNobody.not_inside _), called_of_free hFree]

theorem committed_of_waiter (hOwned : s.Owned) {w : Nat} {pc : WaitPc}
    (hWaiter : s.waiter = some (w, pc)) (hHolds : pc.holds = true)
    (hCommitted : s.committed = s.called) :
    s.committed = (s.queue, s.returned.map Prod.snd) := by
  rw [hCommitted, called_of_waiter ((hOwned _).mpr ((inside_waiter hWaiter).mpr hHolds))]

/-- `Wait` leaves its loop with the flag set. -/
theorem Run.found (h : Run ok s) {w : Nat} (hAt : s.waiter = some (w, .clearDone)) :
    s.queue.done = true := by
  refine h.induct (P := fun s => ∀ w, s.waiter = some (w, .clearDone) → s.queue.done = true)
    nofun ?_ w hAt
  intro s a t _ _ hFound _ hMove w hAt
  cases hMove with
  | wait => cases hAt
  | waiter _ hMove =>
    cases hMove with
    | found hDone => exact hDone
    | _ => cases hAt
  | expire | done => exact hFound w hAt
  | caller _ hMove =>
    cases hMove with
    | setDone => rfl
    | signal =>
      obtain ⟨⟨w', pc⟩, hAt', hEq⟩ := Option.map_eq_some_iff.mp hAt
      cases pc <;> cases hEq
      exact hFound w hAt'
    | _ => exact hFound w hAt

theorem WaiterMove.committed (hRun : Run ok s) {w : Nat} {pc : WaitPc}
    (hWaiter : s.waiter = some (w, pc)) (hMove : s.WaiterMove w pc t) :
    ReflTransGen TaskQueue.Next s.committed t.committed := by
  have hv := Run.valid hRun
  have hOwned : t.Owned := hMove.owned hWaiter hv.owned
  cases hMove with
  | lock hFree =>
    rw [committed_of_free hv.owned hFree, committed_of_waiter hOwned rfl rfl rfl]
  | found | notDone | ticket =>
    rw [committed_of_waiter hv.owned hWaiter rfl (by rw [QueueThreads.committed, hWaiter]),
      committed_of_waiter hOwned rfl rfl rfl]
  | unlock =>
    rw [committed_of_waiter hv.owned hWaiter rfl (by rw [QueueThreads.committed, hWaiter]),
      committed_of_free hOwned rfl]
  | wake =>
    rw [QueueThreads.committed, hWaiter]
    exact .refl
  | clearDone =>
    have hWait : s.queue.wait = some (encodeAll s.queue.nextBuf s.queue.tasks,
        ⟨false, [], s.queue.nextBuf + s.queue.tasks.length⟩) :=
      if_pos (Run.found hRun hWaiter)
    rw [committed_of_waiter hv.owned hWaiter rfl (by rw [QueueThreads.committed, hWaiter])]
    exact .single (.wait _ hWait)
  | stopTimer =>
    rw [QueueThreads.committed, hWaiter]
    exact .refl
  | drain =>
    have hUnset : s.queue.done = false := (Run.awake hRun).unset w _ hWaiter rfl
    rw [QueueThreads.committed, hWaiter, ← hUnset]
    exact .refl
  | leave out =>
    rw [committed_of_free hOwned rfl, QueueThreads.committed, hWaiter]
    simp only [List.map_append, List.map_cons, List.map_nil]
    exact .refl

theorem CallerMove.committed (hOwned : s.Owned) {c : Caller} {pc : CallPc}
    (hCall : s.calls c = some pc) (hMove : s.CallerMove c pc t) :
    ReflTransGen TaskQueue.Next s.committed t.committed := by
  have hOwned' : t.Owned := hMove.owned hCall hOwned
  have hSelf : ∀ next, Function.update s.calls c (some next) c = some next :=
    fun next => Function.update_self ..
  cases hMove with
  | lockDone r hFree =>
    rw [committed_of_free hOwned hFree, committed_of_caller hOwned' (hSelf _) rfl]
    exact .refl
  | lockCallback hFree =>
    rw [committed_of_free hOwned hFree, committed_of_caller hOwned' (hSelf _) rfl]
    exact .single (.timeout _ _)
  | append r =>
    rw [committed_of_caller hOwned hCall rfl, committed_of_caller hOwned' (hSelf _) rfl]
    exact .single (.done _ _ r)
  | setDone | signal =>
    rw [committed_of_caller hOwned hCall rfl, committed_of_caller hOwned' (hSelf _) rfl]
    exact .refl
  | unlock =>
    rw [committed_of_caller hOwned hCall rfl, committed_of_free hOwned' rfl]
    exact .refl

/-- A call that starts has done nothing yet. -/
theorem committed_of_starts (hOwned : s.Owned) {c : Caller} {pc : CallPc}
    (hNone : s.calls c = none) (hCalls : t.calls = Function.update s.calls c (some pc))
    (hLock : t.lock = s.lock) (hQueue : t.queue = s.queue) (hWaiter : t.waiter = s.waiter)
    (hReturned : t.returned = s.returned) :
    ReflTransGen TaskQueue.Next s.committed t.committed := by
  have hSets : t.setsDone = s.setsDone := by
    unfold setsDone
    rw [hLock]
    split
    · rename_i c' hLock'
      obtain ⟨pc', hCall', _⟩ := (hOwned _).mp hLock'
      have hNe : c' ≠ c := by
        rintro rfl
        cases hNone.symm.trans hCall'
      rw [hCalls, Function.update_of_ne hNe]
    · rfl
  have hSame : t.committed = s.committed := by
    simp only [committed, called, hSets, hQueue, hWaiter, hReturned]
  rw [hSame]

theorem Move.committed (hRun : Run ok s) (hMove : s.Move a t) :
    ReflTransGen TaskQueue.Next s.committed t.committed := by
  have hv := Run.valid hRun
  cases hMove with
  | wait hIdle =>
    rw [QueueThreads.committed, hIdle]
    exact .refl
  | waiter hWaiter hMove => exact hMove.committed hRun hWaiter
  | expire hArmed =>
    exact committed_of_starts hv.owned (hv.callback_none hArmed) rfl rfl rfl rfl rfl
  | done hFree => exact committed_of_starts hv.owned hFree rfl rfl rfl rfl rfl
  | caller hCall hMove => exact hMove.committed hv.owned hCall

theorem Run.committed (h : Run ok s) :
    ReflTransGen TaskQueue.Next (TaskQueue.init, []) s.committed := by
  obtain ⟨x, hNext, rfl⟩ := h.simulate (R := fun s x => x = s.committed) rfl
    fun s a t x hRun hx _ hStep =>
      ⟨t.committed, hx ▸ (step_move hStep).committed hRun, rfl⟩
  exact hNext

/-- Whenever the lock is free, the queue and what the waits have returned are those of
some sequence of the atomic operations. -/
theorem Run.refines_atomic (h : Run ok s) (hFree : s.lock = none) :
    ReflTransGen TaskQueue.Next (TaskQueue.init, []) (s.queue, s.returned.map Prod.snd) := by
  have hNext := Run.committed h
  rwa [committed_of_free (Run.valid h).owned hFree] at hNext

def wokenWithResult : List QueueAct := reportedAsleep ++ List.replicate 7 .waiter

theorem Run.refines_atomic_wokenWithResult :
    ∃ s : QueueThreads, s.returned = [(0, [⟨10, 1, .ok, some ⟨0, [1]⟩, 0⟩])] ∧
      ReflTransGen TaskQueue.Next (TaskQueue.init, []) (s.queue, s.returned.map Prod.snd) := by
  have hRun := run_after (fun _ _ => True) wokenWithResult (by decide +kernel)
  exact ⟨_, by decide +kernel, Run.refines_atomic hRun (by decide +kernel)⟩

end QueueThreads

end GrpcClient
