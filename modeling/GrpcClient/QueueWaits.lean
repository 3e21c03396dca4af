import GrpcClient.Lib.Update
import GrpcClient.QueueThreads

/-! # Waits on the task queue

One flag tells the waiter both of results and of its timeout. A result never
waits for a sleeper, because the flag and the list change under the same lock.
The flag does not say whose timeout it was.
-/

namespace GrpcClient

/-- The statements where `Wait` has seen `done` unset, or has cleared it, and holds
the lock since. -/
def WaitPc.seenUnset : WaitPc → Bool
  | .ticket | .unlock _ | .stopTimer | .drain | .leave _ => true
  | _ => false

theorem WaitPc.holds_of_seenUnset {pc : WaitPc} (h : pc.seenUnset = true) : pc.holds = true := by
  cases pc <;> first | rfl | cases h

@[simp] theorem WaitPc.signal_seenUnset (pc : WaitPc) : pc.signal.seenUnset = pc.seenUnset := by
  cases pc <;> rfl

/-- `timer.Stop` has been called. -/
def WaitPc.stopped : WaitPc → Bool
  | .drain | .leave _ => true
  | _ => false

/-- `Wait` is out of its loop and has not drained the list. -/
def WaitPc.leaving : WaitPc → Bool
  | .clearDone | .stopTimer | .drain => true
  | _ => false

@[simp] theorem WaitPc.signal_stopped (pc : WaitPc) : pc.signal.stopped = pc.stopped := by
  cases pc <;> rfl

@[simp] theorem WaitPc.signal_leaving (pc : WaitPc) : pc.signal.leaving = pc.leaving := by
  cases pc <;> rfl

theorem WaitPc.signal_leave {pc : WaitPc} {out : List TaskRes} (h : pc.signal = .leave out) :
    pc = .leave out := by
  cases pc <;> first | exact h | cases h

namespace QueueThreads

open PartialMap

variable {s t : QueueThreads} {a : QueueAct} {ok : QueueThreads → QueueAct → Prop}

theorem calls_of_ne {c c' : Caller} {pc : CallPc} {now next : Option CallPc}
    (h : s.calls c' = some pc) (hNow : s.calls c = now) (hNe : now ≠ some pc) :
    Function.update s.calls c next c' = some pc := by
  apply update_of_some h
  rintro rfl
  exact hNe (hNow.symm.trans h)

/-! ## No result is slept on -/

/-- Results are in the list only while the flag is set, about to be set, or taken
back by a waiter about to drain them. A waiter sleeps with the flag set only while
its signal is about to come. -/
structure Awake (s : QueueThreads) : Prop where
  pending : s.queue.tasks ≠ [] → s.queue.done = true ∨ (∃ c, s.calls c = some .setDone) ∨
    ∃ w, s.waiter = some (w, .stopTimer) ∨ s.waiter = some (w, .drain)
  unset : ∀ w pc, s.waiter = some (w, pc) → pc.seenUnset = true → s.queue.done = false
  asleep : ∀ w, s.waiter = some (w, .parked false) → s.queue.done = true →
    ∃ c, s.calls c = some .signal
  parks : ∀ w signalled, s.waiter = some (w, .unlock signalled) → signalled = false

theorem Awake.waiter_move (h : s.Awake) {w : Nat} {pc : WaitPc}
    (hWaiter : s.waiter = some (w, pc)) (hMove : s.WaiterMove w pc t) : t.Awake := by
  -- the cases of `pending` that are about the waiter itself are settled by its place
  have hPending : pc ≠ .stopTimer → pc ≠ .drain → s.queue.tasks ≠ [] →
      s.queue.done = true ∨ ∃ c, s.calls c = some .setDone := by
    intro hStop hDrain hTasks
    rcases h.pending hTasks with hDone | hSet | ⟨w', hAt | hAt⟩
    · exact .inl hDone
    · exact .inr hSet
    · rw [hWaiter] at hAt
      cases hAt
      exact absurd rfl hStop
    · rw [hWaiter] at hAt
      cases hAt
      exact absurd rfl hDrain
  constructor
  · intro hTasks
    cases hMove with
    | clearDone => exact .inr (.inr ⟨w, .inl rfl⟩)
    | stopTimer => exact .inr (.inr ⟨w, .inr rfl⟩)
    | drain => exact absurd rfl hTasks
    | _ => exact (hPending nofun nofun hTasks).imp_right .inl
  · intro w' pc' hWaiter' hUnset
    cases hMove with
    | notDone hDone => exact hDone
    | clearDone => rfl
    | ticket | stopTimer | drain => exact h.unset w _ hWaiter rfl
    | _ => cases hWaiter' <;> cases hUnset
  · intro w' hWaiter' hDone
    cases hMove with
    | unlock b =>
      have hUnset : s.queue.done = false := h.unset w _ hWaiter rfl
      cases hUnset.symm.trans hDone
    | _ => cases hWaiter'
  · intro w' b hWaiter'
    cases hMove with
    | ticket =>
      cases hWaiter'
      rfl
    | _ => cases hWaiter'

/-- What the flag, the list and the other calls keep when a call moves that is not
about to set the flag or to signal. -/
theorem Awake.other_call (h : s.Awake) {c : Caller} {now next : Option CallPc}
    (hNow : s.calls c = now) (hSet : now ≠ some .setDone) (hSignal : now ≠ some .signal)
    (hCalls : t.calls = Function.update s.calls c next) (hQueue : t.queue = s.queue)
    (hWaiter : t.waiter = s.waiter) : t.Awake := by
  constructor
  · intro hTasks
    rw [hQueue] at hTasks
    rw [hQueue, hWaiter, hCalls]
    refine (h.pending hTasks).imp_right (Or.imp_left ?_)
    rintro ⟨c', hc'⟩
    exact ⟨c', calls_of_ne hc' hNow hSet⟩
  · intro w pc hAt
    rw [hWaiter] at hAt
    rw [hQueue]
    exact h.unset w pc hAt
  · intro w hAt hDone
    rw [hWaiter] at hAt
    rw [hQueue] at hDone
    obtain ⟨c', hc'⟩ := h.asleep w hAt hDone
    exact ⟨c', hCalls ▸ calls_of_ne hc' hNow hSignal⟩
  · intro w b hAt
    rw [hWaiter] at hAt
    exact h.parks w b hAt

theorem Awake.caller_move (h : s.Awake) (hOwned : s.Owned) {c : Caller} {pc : CallPc}
    (hCall : s.calls c = some pc) (hMove : s.CallerMove c pc t) : t.Awake := by
  cases hMove with
  | lockDone | lockCallback | unlock => exact h.other_call hCall nofun nofun rfl rfl rfl
  | append r =>
    refine ⟨fun _ => .inr (.inl ⟨c, Function.update_self ..⟩), h.unset, ?_, h.parks⟩
    intro w hAt hDone
    obtain ⟨c', hc'⟩ := h.asleep w hAt hDone
    exact ⟨c', calls_of_ne hc' hCall nofun⟩
  | setDone =>
    refine ⟨fun _ => .inl rfl, ?_, fun _ _ _ => ⟨c, Function.update_self ..⟩, h.parks⟩
    intro w pc hAt hUnset
    -- the waiter would hold the lock together with the call
    have hWaiter : s.inside .waiter :=
      (inside_waiter hAt).mpr (WaitPc.holds_of_seenUnset hUnset)
    cases hOwned.unique hWaiter ((inside_caller hCall).mpr rfl)
  | signal =>
    refine ⟨fun hTasks => ?_, fun w pc hAt hUnset => ?_, fun w hAt _ => ?_, fun w b hAt => ?_⟩
    · rcases h.pending hTasks with hDone | ⟨c', hc'⟩ | ⟨w, hAt | hAt⟩
      · exact .inl hDone
      · exact .inr (.inl ⟨c', calls_of_ne hc' hCall nofun⟩)
      · exact .inr (.inr ⟨w, .inl (congrArg (Option.map _) hAt)⟩)
      · exact .inr (.inr ⟨w, .inr (congrArg (Option.map _) hAt)⟩)
    · obtain ⟨⟨w', pc'⟩, hAt', hEq⟩ := Option.map_eq_some_iff.mp hAt
      cases hEq
      rw [WaitPc.signal_seenUnset] at hUnset
      exact h.unset w pc' hAt' hUnset
    · obtain ⟨⟨w', pc'⟩, _, hEq⟩ := Option.map_eq_some_iff.mp hAt
      cases pc' <;> cases hEq
    · obtain ⟨⟨w', pc'⟩, hAt', hEq⟩ := Option.map_eq_some_iff.mp hAt
      cases pc' with
      | unlock =>
        cases hOwned.unique ((inside_waiter hAt').mpr rfl) ((inside_caller hCall).mpr rfl)
      | _ => cases hEq

theorem Run.awake (h : Run ok s) : s.Awake := by
  refine h.induct ⟨fun hTasks => absurd rfl hTasks, nofun, nofun, nofun⟩ ?_
  intro s a t _ hv hAwake _ hMove
  cases hMove with
  | wait hIdle =>
    refine ⟨fun hTasks => ?_, fun w pc hAt hUnset => ?_, fun w hAt => ?_, fun w b hAt => ?_⟩
    · refine (hAwake.pending hTasks).imp_right (Or.imp_right ?_)
      rintro ⟨w, hAt | hAt⟩
      · cases hIdle.symm.trans hAt
      · cases hIdle.symm.trans hAt
    · cases hAt
      cases hUnset
    · cases hAt
    · cases hAt
  | waiter hWaiter hMove => exact hAwake.waiter_move hWaiter hMove
  | expire hArmed =>
    exact hAwake.other_call (hv.callback_none hArmed) nofun nofun rfl rfl rfl
  | done hFree => exact hAwake.other_call hFree nofun nofun rfl rfl rfl
  | caller hCall hMove => exact hAwake.caller_move hv.owned hCall hMove

/-- The steps of the waiter alone bring `Wait` number `w` to return `out`. -/
def Returns (s : QueueThreads) (w : Nat) (out : List TaskRes) : Prop :=
  ∃ n t, Transition.exec step (fun _ _ => True) s (List.replicate n .waiter) = some t ∧
    t.waiter = none ∧ t.returned = s.returned ++ [(w, out)]

theorem returns_of_lock {w : Nat} (hWaiter : s.waiter = some (w, .lock)) (hFree : s.lock = none)
    (hDone : s.queue.done = true) : s.Returns w (encodeAll s.queue.nextBuf s.queue.tasks) := by
  obtain ⟨lock, ⟨done, tasks, nextBuf⟩, waiter, waits, timers, calls, returned⟩ := s
  cases hWaiter
  cases hFree
  cases hDone
  -- Lock, the test, three statements under the lock, and Unlock
  exact ⟨6, _, rfl, rfl, rfl⟩

theorem returns_of_parked {w : Nat} (hWaiter : s.waiter = some (w, .parked true))
    (hFree : s.lock = none) (hDone : s.queue.done = true) :
    s.Returns w (encodeAll s.queue.nextBuf s.queue.tasks) := by
  obtain ⟨n, t, hExec, hIdle, hReturned⟩ :=
    returns_of_lock (s := s.waiting w .lock) rfl hFree hDone
  refine ⟨n + 1, t, ?_, hIdle, hReturned⟩
  rw [List.replicate_succ, Transition.exec, if_pos trivial, step, waiterStep, hWaiter]
  exact hExec

/-- While a result is pending and the lock is free, the flag is set and a sleeper has
been signalled, a `Wait` that runs or is called comes back with all the results
that are there, and no `Wait` lies down in `cond.Wait`. A ticket is not signalled
before its owner has parked. -/
structure NotSleptOn (s : QueueThreads) : Prop where
  done : s.lock = none → s.queue.tasks ≠ [] → s.queue.done = true
  signalled : s.lock = none → s.queue.tasks ≠ [] →
    ∀ w signalled, s.waiter = some (w, .parked signalled) → signalled = true
  returns : s.lock = none → s.queue.tasks ≠ [] → ∀ w pc, s.waiter = some (w, pc) →
    s.Returns w (encodeAll s.queue.nextBuf s.queue.tasks)
  later : s.lock = none → s.queue.tasks ≠ [] → s.waiter = none →
    ∃ t, s.step .wait = .ok t ∧ t.Returns s.waits (encodeAll s.queue.nextBuf s.queue.tasks)
  awake : ∀ w pc, s.waiter = some (w, pc) → (pc = .ticket ∨ ∃ b, pc = .unlock b) →
    s.queue.tasks = []
  parks : ∀ w signalled, s.waiter = some (w, .unlock signalled) → signalled = false

theorem Awake.done_of_free (h : s.Awake) (hv : s.Valid) (hFree : s.lock = none)
    (hTasks : s.queue.tasks ≠ []) : s.queue.done = true := by
  have hNobody : Mutex.Owned none s.inside := hFree ▸ hv.owned
  rcases h.pending hTasks with hDone | ⟨c, hc⟩ | ⟨w, hAt | hAt⟩
  · exact hDone
  · exact absurd ((inside_caller hc).mpr rfl) (hNobody.not_inside _)
  · exact absurd ((inside_waiter hAt).mpr rfl) (hNobody.not_inside _)
  · exact absurd ((inside_waiter hAt).mpr rfl) (hNobody.not_inside _)

theorem Awake.signalled_of_free (h : s.Awake) (hv : s.Valid) (hFree : s.lock = none)
    (hDone : s.queue.done = true) {w : Nat} {b : Bool}
    (hAt : s.waiter = some (w, .parked b)) : b = true := by
  have hNobody : Mutex.Owned none s.inside := hFree ▸ hv.owned
  cases b with
  | true => rfl
  | false =>
    obtain ⟨c, hc⟩ := h.asleep w hAt hDone
    exact absurd ((inside_caller hc).mpr rfl) (hNobody.not_inside _)

theorem Awake.tasks_of_unset (h : s.Awake) (hv : s.Valid) {w : Nat} {pc : WaitPc}
    (hAt : s.waiter = some (w, pc)) (hPc : pc = .ticket ∨ ∃ b, pc = .unlock b) :
    s.queue.tasks = [] := by
  have hUnset : pc.seenUnset = true := by
    rcases hPc with rfl | ⟨b, rfl⟩
    · rfl
    · rfl
  have hInside := (inside_waiter hAt).mpr (WaitPc.holds_of_seenUnset hUnset)
  by_contra hTasks
  rcases h.pending hTasks with hDone | ⟨c, hc⟩ | ⟨w', hAt' | hAt'⟩
  · cases (h.unset w pc hAt hUnset).symm.trans hDone
  · cases hv.owned.unique hInside ((inside_caller hc).mpr rfl)
  · rw [hAt] at hAt'
    cases hAt'
    rcases hPc with hPc | ⟨_, hPc⟩ <;> cases hPc
  · rw [hAt] at hAt'
    cases hAt'
    rcases hPc with hPc | ⟨_, hPc⟩ <;> cases hPc

theorem not_slept_on (h : Reachable s) : s.NotSleptOn := by
  have hv := Run.valid h
  have hAwake := Run.awake h
  refine ⟨hAwake.done_of_free hv, ?_, ?_, ?_, fun w pc => hAwake.tasks_of_unset hv,
    hAwake.parks⟩
  · intro hFree hTasks w b hAt
    exact hAwake.signalled_of_free hv hFree (hAwake.done_of_free hv hFree hTasks) hAt
  · intro hFree hTasks w pc hAt
    have hDone := hAwake.done_of_free hv hFree hTasks
    have hOutside : pc.holds = false := by
      have hNobody : Mutex.Owned none s.inside := hFree ▸ hv.owned
      exact Bool.eq_false_iff.mpr fun hHolds =>
        hNobody.not_inside _ ((inside_waiter hAt).mpr hHolds)
    cases pc with
    | lock => exact returns_of_lock hAt hFree hDone
    | parked b =>
      obtain rfl := hAwake.signalled_of_free hv hFree hDone hAt
      exact returns_of_parked hAt hFree hDone
    | _ => cases hOutside
  · intro hFree hTasks hIdle
    have hDone := hAwake.done_of_free hv hFree hTasks
    refine ⟨_, if_pos hIdle, ?_⟩
    exact returns_of_lock rfl hFree hDone

/-- A `Wait` that sleeps when a result is reported. -/
def reportedAsleep : List QueueAct :=
  [.wait, .waiter, .waiter, .waiter, .waiter, .done 0 ⟨10, some [1], none, 0⟩, .caller (.done 0),
    .caller (.done 0), .caller (.done 0), .caller (.done 0), .caller (.done 0)]

theorem not_slept_on_reportedAsleep : ∃ s : QueueThreads, s.lock = none ∧
    s.queue.tasks = [⟨10, some [1], none, 0⟩] ∧ s.waiter = some (0, .parked true) ∧
    s.NotSleptOn := by
  have hRun := run_after (fun _ _ => True) reportedAsleep (by decide +kernel)
  exact ⟨_, by decide +kernel, by decide +kernel, by decide +kernel, not_slept_on hRun⟩

/-! ## Whose timeout it was -/

/-- When a `Wait` stops its timer, the callback of that timer is not running. -/
def stopsInTime (s : QueueThreads) : QueueAct → Prop
  | .waiter => ∀ x ∈ s.waiter, x.2 = .stopTimer → s.calls (.callback x.1) = none
  | _ => True

instance (s : QueueThreads) : (a : QueueAct) → Decidable (s.stopsInTime a)
  | .waiter => inferInstanceAs (Decidable (∀ x ∈ s.waiter, _))
  | .wait | .expire _ | .done .. | .caller _ => inferInstanceAs (Decidable True)

/-- A `Wait` that returns without results has seen its own timer expire. -/
def OwnTimeout (s : QueueThreads) : Prop :=
  ∀ w, (w, []) ∈ s.returned → s.timers w = some .expired

/-- `Wait` number `w` is running and has not stopped its timer. -/
def Timed (s : QueueThreads) (w : Nat) : Prop :=
  ∃ pc, s.waiter = some (w, pc) ∧ pc.stopped = false

/-- The waiter's place, up to a signal, and the results are not touched by the others. -/
theorem Move.waiter_stays (hMove : s.Move a t) (hWait : a ≠ .wait) (hWaiter : a ≠ .waiter) :
    t.returned = s.returned ∧ (s.queue.tasks ≠ [] → t.queue.tasks ≠ []) ∧
      ∀ w pc, t.waiter = some (w, pc) →
        ∃ pc', s.waiter = some (w, pc') ∧ (pc' = pc ∨ pc'.signal = pc) := by
  cases hMove with
  | wait => exact absurd rfl hWait
  | waiter => exact absurd rfl hWaiter
  | expire | done => exact ⟨rfl, id, fun w pc hAt => ⟨pc, hAt, .inl rfl⟩⟩
  | caller _ hMove =>
    cases hMove with
    | append r =>
      exact ⟨rfl, fun _ => List.append_ne_nil_of_right_ne_nil _ (List.cons_ne_nil r []),
        fun w pc hAt => ⟨pc, hAt, .inl rfl⟩⟩
    | signal =>
      refine ⟨rfl, id, fun w pc hAt => ?_⟩
      obtain ⟨⟨w', pc'⟩, hAt', hEq⟩ := Option.map_eq_some_iff.mp hAt
      cases hEq
      exact ⟨pc', hAt', .inr rfl⟩
    | _ => exact ⟨rfl, id, fun w pc hAt => ⟨pc, hAt, .inl rfl⟩⟩

theorem Move.timed (hMove : s.Move a t) {w : Nat} (h : s.Timed w) :
    t.Timed w ∨ (a = .waiter ∧ s.waiter = some (w, .stopTimer)) := by
  obtain ⟨pc, hAt, hStopped⟩ := h
  cases hMove with
  | wait hIdle => cases hIdle.symm.trans hAt
  | waiter hWaiter hMove =>
    rw [hAt] at hWaiter
    cases hWaiter
    cases hMove with
    | stopTimer => exact .inr ⟨rfl, hAt⟩
    | drain | leave => cases hStopped
    | _ => exact .inl ⟨_, rfl, rfl⟩
  | expire | done => exact .inl ⟨pc, hAt, hStopped⟩
  | caller _ hMove =>
    cases hMove with
    | signal =>
      refine .inl ⟨pc.signal, congrArg (Option.map _) hAt, ?_⟩
      rw [WaitPc.signal_stopped, hStopped]
    | _ => exact .inl ⟨pc, hAt, hStopped⟩

/-- A timer is armed by its `Wait` and no longer once it was stopped. -/
theorem Move.armed (hMove : s.Move a t) {w : Nat} (h : t.timers w = some .armed) :
    t.Timed w ∨ (s.timers w = some .armed ∧ ¬ (a = .waiter ∧ s.waiter = some (w, .stopTimer))) := by
  cases hMove with
  | wait hIdle =>
    by_cases hEq : w = s.waits
    · exact .inl ⟨.lock, congrArg (fun w => some (w, WaitPc.lock)) hEq.symm, rfl⟩
    · exact .inr ⟨(Function.update_of_ne hEq ..).symm.trans h, nofun⟩
  | @waiter w' pc _ hWaiter hMove =>
    cases hMove with
    | stopTimer =>
      by_cases hEq : w = w'
      · subst hEq
        have hArmed := (Function.update_self w _ s.timers).symm.trans h
        obtain ⟨timer, _, hStop⟩ := Option.map_eq_some_iff.mp hArmed
        cases timer <;> cases hStop
      · refine .inr ⟨(Function.update_of_ne hEq ..).symm.trans h, fun hStop => hEq ?_⟩
        rw [hWaiter] at hStop
        cases hStop.2
        rfl
    | _ =>
      refine .inr ⟨h, fun hStop => ?_⟩
      rw [hWaiter] at hStop
      cases hStop.2
  | @expire w' hArmed =>
    by_cases hEq : w = w'
    · subst hEq
      cases (Function.update_self w _ s.timers).symm.trans h
    · exact .inr ⟨(Function.update_of_ne hEq ..).symm.trans h, nofun⟩
  | done => exact .inr ⟨h, nofun⟩
  | caller _ hMove => cases hMove <;> exact .inr ⟨h, nofun⟩

/-- Only the timer of the running `Wait` can still make a difference. -/
structure Current (s : QueueThreads) : Prop where
  callback : ∀ w pc, s.calls (.callback w) = some pc → s.Timed w
  armed : ∀ w, s.timers w = some .armed → s.Timed w

theorem Run.current (h : Run stopsInTime s) : s.Current := by
  refine h.induct ⟨nofun, nofun⟩ ?_
  intro s a t _ _ hCur hOk hMove
  constructor
  · intro w pc hCall
    rcases hMove.callback hCall with ⟨pc', hCall'⟩ | rfl
    · rcases hMove.timed (hCur.callback w pc' hCall') with hTimed | ⟨rfl, hAt⟩
      · exact hTimed
      · rw [hOk (w, .stopTimer) hAt rfl] at hCall'
        cases hCall'
    · cases hMove with
      | expire hArmed => exact hCur.armed w hArmed
  · intro w hArmed
    rcases hMove.armed hArmed with hTimed | ⟨hArmed', hNot⟩
    · exact hTimed
    · exact (hMove.timed (hCur.armed w hArmed')).resolve_right hNot

/-- A `Done` call has a result, and has appended it when it sets the flag. -/
structure Reported (s : QueueThreads) : Prop where
  result : ∀ k, s.calls (.done k) ≠ some (.lock none)
  appended : ∀ k, s.calls (.done k) = some .setDone → s.queue.tasks ≠ []

theorem Reported.other_call (h : s.Reported) {c : Caller} {next : Option CallPc}
    (hCalls : t.calls = Function.update s.calls c next)
    (hLock : ∀ k, c = .done k → next ≠ some (.lock none))
    (hSet : ∀ k, c = .done k → next = some .setDone → t.queue.tasks ≠ [])
    (hTasks : s.queue.tasks ≠ [] → t.queue.tasks ≠ []) : t.Reported := by
  constructor
  · intro k hCall
    rw [hCalls, Function.update_apply] at hCall
    split at hCall
    · rename_i hEq
      exact hLock k hEq.symm hCall
    · exact h.result k hCall
  · intro k hCall
    rw [hCalls, Function.update_apply] at hCall
    split at hCall
    · rename_i hEq
      exact hSet k hEq.symm hCall
    · exact hTasks (h.appended k hCall)

theorem Run.reported (h : Run ok s) : s.Reported := by
  refine h.induct ⟨nofun, nofun⟩ ?_
  intro s a t _ hv hRep _ hMove
  cases hMove with
  | wait => exact ⟨hRep.result, hRep.appended⟩
  | waiter hWaiter hMove =>
    cases hMove with
    | drain =>
      refine ⟨hRep.result, fun k hCall => ?_⟩
      have hCaller : s.inside (.caller (.done k)) := (inside_caller hCall).mpr rfl
      cases hv.owned.unique ((inside_waiter hWaiter).mpr rfl) hCaller
    | _ => exact ⟨hRep.result, hRep.appended⟩
  | expire => exact hRep.other_call rfl nofun nofun id
  | done => exact hRep.other_call rfl nofun nofun id
  | @caller c pc _ hCall hMove =>
    cases hMove with
    | lockCallback =>
      refine hRep.other_call rfl nofun (fun k hEq _ => ?_) id
      subst hEq
      exact absurd hCall (hRep.result k)
    | append r =>
      have hTasks : s.queue.tasks ++ [r] ≠ [] :=
        List.append_ne_nil_of_right_ne_nil _ (List.cons_ne_nil r [])
      exact hRep.other_call rfl nofun (fun _ _ _ => hTasks) fun _ => hTasks
    | lockDone | setDone | signal | unlock => exact hRep.other_call rfl nofun nofun id

/-- There is a result, or the timer of `Wait` number `w` has expired. -/
def Excused (s : QueueThreads) (w : Nat) : Prop :=
  s.queue.tasks ≠ [] ∨ s.timers w = some .expired

/-- The flag, and from it a `Wait` that leaves, have a reason that concerns the
running `Wait`. -/
structure Told (s : QueueThreads) : Prop where
  done : s.queue.done = true → s.queue.tasks ≠ [] ∨ ∃ w pc, s.waiter = some (w, pc) ∧
    s.timers w = some .expired
  leaving : ∀ w pc, s.waiter = some (w, pc) → pc.leaving = true → s.Excused w
  leave : ∀ w, s.waiter = some (w, .leave []) → s.timers w = some .expired
  returned : s.OwnTimeout

theorem Told.other_move (h : s.Told) (hv : s.Valid) (hMove : s.Move a t) (hWait : a ≠ .wait)
    (hWaiter : a ≠ .waiter)
    (hDone : t.queue.done = true → t.queue.tasks ≠ [] ∨ ∃ w pc, t.waiter = some (w, pc) ∧
      t.timers w = some .expired) : t.Told := by
  obtain ⟨hReturned, hTasks, hPlace⟩ := hMove.waiter_stays hWait hWaiter
  refine ⟨hDone, fun w pc hAt hLeaving => ?_, fun w hAt => ?_, fun w hMem => ?_⟩
  · obtain ⟨pc', hAt', hPc⟩ := hPlace w pc hAt
    have hLeaving' : pc'.leaving = true := by
      rcases hPc with rfl | rfl
      · exact hLeaving
      · rwa [WaitPc.signal_leaving] at hLeaving
    exact (h.leaving w pc' hAt' hLeaving').imp hTasks (hv.expired_stays hMove)
  · obtain ⟨pc', hAt', hPc⟩ := hPlace w _ hAt
    have hLeave : pc' = .leave [] := by
      rcases hPc with hPc | hPc
      · exact hPc
      · exact WaitPc.signal_leave hPc
    exact hv.expired_stays hMove (h.leave w (hLeave ▸ hAt'))
  · rw [hReturned] at hMem
    exact hv.expired_stays hMove (h.returned w hMem)

theorem encodeAll_eq_nil {b : Nat} {rs : List TaskResult} (h : encodeAll b rs = []) : rs = [] := by
  cases rs with
  | nil => rfl
  | cons r rs => cases h

theorem Told.waiter_move (h : s.Told) (hv : s.Valid) (hAwake : s.Awake) {w : Nat} {pc : WaitPc}
    (hWaiter : s.waiter = some (w, pc)) (hMove : s.WaiterMove w pc t) : t.Told := by
  have hOwn : ∀ v, s.timers v = some .expired → t.timers v = some .expired :=
    fun v => hv.expired_stays (.waiter hWaiter hMove)
  have hDone : s.queue.done = true → s.Excused w := by
    intro hDone
    rcases h.done hDone with hTasks | ⟨w', pc', hAt, hExpired⟩
    · exact .inl hTasks
    · rw [hWaiter] at hAt
      cases hAt
      exact .inr hExpired
  refine ⟨fun hSet => ?_, fun w' pc' hAt hLeaving => ?_, fun w' hAt => ?_, fun w' hMem => ?_⟩
  · cases hMove with
    | clearDone => cases hSet
    | stopTimer | drain | leave => cases (hAwake.unset w _ hWaiter rfl).symm.trans hSet
    | _ => exact (hDone hSet).imp_right fun hExpired => ⟨w, _, rfl, hExpired⟩
  · cases hMove with
    | found hSet =>
      cases hAt
      exact hDone hSet
    | clearDone =>
      cases hAt
      exact h.leaving w _ hWaiter rfl
    | stopTimer =>
      cases hAt
      exact (h.leaving w _ hWaiter rfl).imp_right (hOwn w)
    | _ => cases hAt <;> cases hLeaving
  · cases hMove with
    | drain =>
      simp only [Option.some.injEq, Prod.mk.injEq, WaitPc.leave.injEq] at hAt
      obtain ⟨rfl, hOut⟩ := hAt
      exact (h.leaving w _ hWaiter rfl).resolve_left fun hTasks => hTasks (encodeAll_eq_nil hOut)
    | _ => cases hAt
  · cases hMove with
    | leave out =>
      rcases List.mem_append.mp hMem with hMem | hMem
      · exact h.returned w' hMem
      · cases List.mem_singleton.mp hMem
        exact h.leave w hWaiter
    | _ => exact hOwn w' (h.returned w' hMem)

theorem Run.told (h : Run stopsInTime s) : s.Told := by
  refine h.induct ⟨nofun, nofun, nofun, nofun⟩ ?_
  intro s a t hRun hv hTold _ hMove
  cases hMove with
  | wait hIdle =>
    refine ⟨fun hSet => ?_, fun w pc hAt hLeaving => ?_, fun w hAt => ?_, fun w hMem => ?_⟩
    · rcases hTold.done hSet with hTasks | ⟨w, pc, hAt, _⟩
      · exact .inl hTasks
      · cases hIdle.symm.trans hAt
    · cases hAt
      cases hLeaving
    · cases hAt
    · exact hv.expired_stays (.wait hIdle) (hTold.returned w hMem)
  | waiter hWaiter hMove => exact hTold.waiter_move hv (Run.awake hRun) hWaiter hMove
  | expire hArmed =>
    refine hTold.other_move hv (.expire hArmed) nofun nofun fun hSet => ?_
    refine (hTold.done hSet).imp_right ?_
    rintro ⟨w, pc, hAt, hExpired⟩
    exact ⟨w, pc, hAt, hv.expired_stays (.expire hArmed) hExpired⟩
  | done hFree => exact hTold.other_move hv (.done hFree) nofun nofun hTold.done
  | @caller c pc _ hCall hMove =>
    refine hTold.other_move hv (.caller hCall hMove) nofun nofun fun hSet => ?_
    cases hMove with
    | append r => exact .inl (List.append_ne_nil_of_right_ne_nil _ (List.cons_ne_nil r []))
    | setDone =>
      -- a result was appended, or it is the callback of the running `Wait`
      cases c with
      | done k => exact .inl ((Run.reported hRun).appended k hCall)
      | callback w =>
        obtain ⟨pc, hAt, _⟩ := (Run.current hRun).callback w _ hCall
        exact .inr ⟨w, pc, hAt, hv.callback w _ hCall⟩
    | signal =>
      refine (hTold.done hSet).imp_right ?_
      rintro ⟨w, pc, hAt, hExpired⟩
      exact ⟨w, pc.signal, congrArg (Option.map _) hAt, hExpired⟩
    | _ => exact hTold.done hSet

theorem empty_wait_expired (h : Run stopsInTime s) : s.OwnTimeout := (Run.told h).returned

/-- A `Wait` that times out, whose callback is through when it leaves. -/
def timedOut : List QueueAct :=
  [.wait, .waiter, .waiter, .waiter, .waiter, .expire 0, .caller (.callback 0),
    .caller (.callback 0), .caller (.callback 0), .caller (.callback 0), .waiter, .waiter,
    .waiter, .waiter, .waiter, .waiter, .waiter]

theorem empty_wait_expired_timedOut :
    ∃ s : QueueThreads, s.returned = [(0, [])] ∧ s.OwnTimeout := by
  have hRun := run_after stopsInTime timedOut (by decide +kernel)
  exact ⟨_, by decide +kernel, empty_wait_expired hRun⟩

/-- The timer expires just before a result comes in. Its callback gets the lock when
the `Wait` has returned the result, and sets the flag for the next one. -/
def leftOver : List QueueAct :=
  [.wait, .done 0 ⟨10, some [1], none, 0⟩, .caller (.done 0), .caller (.done 0),
    .caller (.done 0), .caller (.done 0), .caller (.done 0), .waiter, .expire 0, .waiter, .waiter,
    .waiter, .waiter, .waiter, .caller (.callback 0), .caller (.callback 0),
    .caller (.callback 0), .caller (.callback 0), .wait, .waiter, .waiter, .waiter, .waiter,
    .waiter, .waiter]

theorem left_over_callback_empties_next_wait : ∃ s, Reachable s ∧ ¬ s.OwnTimeout := by
  have hRun := run_after (fun _ _ => True) leftOver (by decide +kernel)
  refine ⟨_, hRun, fun hOwn => ?_⟩
  have hMem : (1, []) ∈ ((after (fun _ _ => True) leftOver).get (by decide +kernel)).returned := by
    decide +kernel
  have hStopped : ((after (fun _ _ => True) leftOver).get (by decide +kernel)).timers 1 =
      some .stopped := by decide +kernel
  cases hStopped.symm.trans (hOwn 1 hMem)

end QueueThreads

end GrpcClient
