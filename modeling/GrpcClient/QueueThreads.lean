import Mathlib.Logic.Function.Basic
import GrpcClient.Lib.Mutex
import GrpcClient.Lib.Transition
import GrpcClient.TaskQueue

/-! # The threads of the task queue

`TaskQueue` treats `Done` and the end of `Wait` as atomic. Here each of them
takes the lock, does its work one statement at a time and gives the lock back,
in any order with the others. There is one `Wait` at a time, numbered for the
sake of its timer, any number of `Done` calls, and a callback for every timer
that has expired.
-/

namespace GrpcClient

/-- A `Done` call, or the callback of the timer of `Wait` number `w`. -/
inductive Caller
  | done (k : Nat)
  | callback (w : Nat)
deriving DecidableEq, Repr

inductive Thread
  | waiter
  | caller (c : Caller)
deriving DecidableEq, Repr

/-- The statement that a `Done` call or a callback is about to execute. A callback
has no result to append. -/
inductive CallPc
  | lock (r : Option TaskResult)
  | append (r : TaskResult)
  | setDone
  | signal
  | unlock
deriving DecidableEq, Repr

/-- The statement that `Wait` is about to execute. `cond.Wait` takes a ticket,
unlocks, sleeps until the ticket is signalled and locks again, which is `lock` as in
the beginning: either way the test of the loop comes next. -/
inductive WaitPc
  | lock
  | test
  | ticket
  | unlock (signalled : Bool)
  | parked (signalled : Bool)
  | clearDone
  | stopTimer
  | drain
  | leave (out : List TaskRes)
deriving DecidableEq, Repr

/-- An expired timer has started its callback. -/
inductive Timer
  | armed
  | stopped
  | expired
deriving DecidableEq, Repr

/-- The numbers of the waits are ghost, and so is `returned`: every `Wait` that returned,
with its results. -/
structure QueueThreads where
  lock : Option Thread
  queue : TaskQueue
  waiter : Option (Nat × WaitPc)
  waits : Nat
  timers : Nat → Option Timer
  calls : Caller → Option CallPc
  returned : List (Nat × List TaskRes)

inductive QueueAct
  | wait
  | waiter
  | expire (w : Nat)
  | done (k : Nat) (r : TaskResult)
  | caller (c : Caller)
deriving DecidableEq, Repr

/-- `cond.Signal` marks a ticket that is out. Without one it does nothing. -/
def WaitPc.signal : WaitPc → WaitPc
  | .unlock _ => .unlock true
  | .parked _ => .parked true
  | pc => pc

/-- The statements between taking the lock and giving it back. -/
def WaitPc.holds : WaitPc → Bool
  | .lock | .parked _ => false
  | _ => true

def CallPc.holds : CallPc → Bool
  | .lock _ => false
  | _ => true

@[simp] theorem WaitPc.signal_holds (pc : WaitPc) : pc.signal.holds = pc.holds := by
  cases pc <;> rfl

def Timer.stop : Timer → Timer
  | .armed => .stopped
  | t => t

namespace QueueThreads

def init : QueueThreads := ⟨none, .init, none, 0, fun _ => none, fun _ => none, []⟩

def waiting (s : QueueThreads) (w : Nat) (pc : WaitPc) : QueueThreads :=
  { s with waiter := some (w, pc) }

def calling (s : QueueThreads) (c : Caller) (pc : CallPc) : QueueThreads :=
  { s with calls := Function.update s.calls c (some pc) }

/-- One step of `Wait`. A thread that cannot go on is refused. -/
def waiterStep (s : QueueThreads) : Except Unit QueueThreads :=
  match s.waiter with
  | none => .error ()
  | some (w, .lock) =>
    if s.lock = none then .ok { s.waiting w .test with lock := some .waiter } else .error ()
  | some (w, .test) => .ok (s.waiting w (if s.queue.done then .clearDone else .ticket))
  | some (w, .ticket) => .ok (s.waiting w (.unlock false))
  | some (w, .unlock signalled) => .ok { s.waiting w (.parked signalled) with lock := none }
  -- there are no spurious wake-ups
  | some (w, .parked signalled) => if signalled then .ok (s.waiting w .lock) else .error ()
  | some (w, .clearDone) =>
    .ok { s.waiting w .stopTimer with queue := { s.queue with done := false } }
  -- `Stop` does not wait for a callback that has started
  | some (w, .stopTimer) =>
    .ok { s.waiting w .drain with
      timers := Function.update s.timers w ((s.timers w).map Timer.stop) }
  | some (w, .drain) =>
    .ok { s.waiting w (.leave (encodeAll s.queue.nextBuf s.queue.tasks)) with
      queue := ⟨s.queue.done, [], s.queue.nextBuf + s.queue.tasks.length⟩ }
  | some (w, .leave out) =>
    .ok { s with lock := none, waiter := none, returned := s.returned ++ [(w, out)] }

/-- One step of a `Done` call or of a callback. -/
def callerStep (s : QueueThreads) (c : Caller) : Except Unit QueueThreads :=
  match s.calls c with
  | none => .error ()
  | some (.lock r) =>
    if s.lock = none then
      .ok { s.calling c (r.elim .setDone .append) with lock := some (.caller c) }
    else .error ()
  | some (.append r) =>
    .ok { s.calling c .setDone with queue := { s.queue with tasks := s.queue.tasks ++ [r] } }
  | some .setDone => .ok { s.calling c .signal with queue := { s.queue with done := true } }
  | some .signal =>
    .ok { s.calling c .unlock with waiter := s.waiter.map fun (w, pc) => (w, pc.signal) }
  | some .unlock => .ok { s with lock := none, calls := Function.update s.calls c none }

def step (s : QueueThreads) (a : QueueAct) : Except Unit QueueThreads :=
  match a with
  | .wait =>
    if s.waiter = none then
      .ok { s.waiting s.waits .lock with
        waits := s.waits + 1, timers := Function.update s.timers s.waits (some .armed) }
    else .error ()
  | .waiter => s.waiterStep
  | .expire w =>
    if s.timers w = some .armed then
      .ok { s.calling (.callback w) (.lock none) with
        timers := Function.update s.timers w (some .expired) }
    else .error ()
  | .done k r =>
    if s.calls (.done k) = none then .ok (s.calling (.done k) (.lock (some r))) else .error ()
  | .caller c => s.callerStep c

abbrev Run (ok : QueueThreads → QueueAct → Prop) : QueueThreads → Prop :=
  Transition.Reaches step ok init

abbrev Reachable : QueueThreads → Prop := Run fun _ _ => True

variable {s t : QueueThreads} {a : QueueAct} {ok : QueueThreads → QueueAct → Prop}

/-! ## What a step does -/

/-- The steps of `Wait`. -/
inductive WaiterMove (s : QueueThreads) (w : Nat) : WaitPc → QueueThreads → Prop
  | lock : s.lock = none →
      WaiterMove s w .lock { s with lock := some .waiter, waiter := some (w, .test) }
  | found : s.queue.done = true →
      WaiterMove s w .test { s with waiter := some (w, .clearDone) }
  | notDone : s.queue.done = false →
      WaiterMove s w .test { s with waiter := some (w, .ticket) }
  | ticket : WaiterMove s w .ticket { s with waiter := some (w, .unlock false) }
  | unlock (b : Bool) :
      WaiterMove s w (.unlock b) { s with lock := none, waiter := some (w, .parked b) }
  | wake : WaiterMove s w (.parked true) { s with waiter := some (w, .lock) }
  | clearDone : WaiterMove s w .clearDone
      { s with waiter := some (w, .stopTimer), queue := ⟨false, s.queue.tasks, s.queue.nextBuf⟩ }
  | stopTimer : WaiterMove s w .stopTimer
      { s with
        waiter := some (w, .drain)
        timers := Function.update s.timers w ((s.timers w).map Timer.stop) }
  | drain : WaiterMove s w .drain
      { s with
        waiter := some (w, .leave (encodeAll s.queue.nextBuf s.queue.tasks))
        queue := ⟨s.queue.done, [], s.queue.nextBuf + s.queue.tasks.length⟩ }
  | leave (out : List TaskRes) : WaiterMove s w (.leave out)
      { s with lock := none, waiter := none, returned := s.returned ++ [(w, out)] }

/-- The steps of a `Done` call or a callback. -/
inductive CallerMove (s : QueueThreads) (c : Caller) : CallPc → QueueThreads → Prop
  | lockDone (r : TaskResult) : s.lock = none → CallerMove s c (.lock (some r))
      { s with
        lock := some (.caller c), calls := Function.update s.calls c (some (.append r)) }
  | lockCallback : s.lock = none → CallerMove s c (.lock none)
      { s with lock := some (.caller c), calls := Function.update s.calls c (some .setDone) }
  | append (r : TaskResult) : CallerMove s c (.append r)
      { s with
        queue := ⟨s.queue.done, s.queue.tasks ++ [r], s.queue.nextBuf⟩
        calls := Function.update s.calls c (some .setDone) }
  | setDone : CallerMove s c .setDone
      { s with
        queue := ⟨true, s.queue.tasks, s.queue.nextBuf⟩
        calls := Function.update s.calls c (some .signal) }
  | signal : CallerMove s c .signal
      { s with
        waiter := s.waiter.map fun (w, pc) => (w, pc.signal)
        calls := Function.update s.calls c (some .unlock) }
  | unlock : CallerMove s c .unlock
      { s with lock := none, calls := Function.update s.calls c none }

inductive Move (s : QueueThreads) : QueueAct → QueueThreads → Prop
  | wait : s.waiter = none → Move s .wait
      { s with
        waiter := some (s.waits, .lock), waits := s.waits + 1
        timers := Function.update s.timers s.waits (some .armed) }
  | waiter {w : Nat} {pc : WaitPc} {t : QueueThreads} :
      s.waiter = some (w, pc) → WaiterMove s w pc t → Move s .waiter t
  | expire {w : Nat} : s.timers w = some .armed → Move s (.expire w)
      { s with
        timers := Function.update s.timers w (some .expired)
        calls := Function.update s.calls (.callback w) (some (.lock none)) }
  | done {k : Nat} {r : TaskResult} : s.calls (.done k) = none → Move s (.done k r)
      { s with calls := Function.update s.calls (.done k) (some (.lock (some r))) }
  | caller {c : Caller} {pc : CallPc} {t : QueueThreads} :
      s.calls c = some pc → CallerMove s c pc t → Move s (.caller c) t

theorem waiterStep_move (h : s.waiterStep = .ok t) :
    ∃ w pc, s.waiter = some (w, pc) ∧ s.WaiterMove w pc t := by
  unfold waiterStep at h
  cases hWaiter : s.waiter with
  | none =>
    simp only [hWaiter] at h
    cases h
  | some x =>
    obtain ⟨w, pc⟩ := x
    refine ⟨w, pc, rfl, ?_⟩
    simp only [hWaiter] at h
    cases pc with
    | lock =>
      dsimp only at h
      split at h
      · rename_i hFree
        cases h
        exact .lock hFree
      · cases h
    | test =>
      cases h
      split
      · rename_i hDone
        exact .found hDone
      · rename_i hDone
        exact .notDone (Bool.eq_false_iff.mpr hDone)
    | ticket =>
      cases h
      exact .ticket
    | unlock b =>
      cases h
      exact .unlock b
    | parked b =>
      cases b with
      | true =>
        cases h
        exact .wake
      | false => cases h
    | clearDone =>
      cases h
      exact .clearDone
    | stopTimer =>
      cases h
      exact .stopTimer
    | drain =>
      cases h
      exact .drain
    | leave out =>
      cases h
      exact .leave out

theorem callerStep_move {c : Caller} (h : s.callerStep c = .ok t) :
    ∃ pc, s.calls c = some pc ∧ s.CallerMove c pc t := by
  unfold callerStep at h
  cases hCall : s.calls c with
  | none =>
    simp only [hCall] at h
    cases h
  | some pc =>
    refine ⟨pc, rfl, ?_⟩
    simp only [hCall] at h
    cases pc with
    | lock r =>
      dsimp only at h
      split at h
      · rename_i hFree
        cases h
        cases r with
        | some r => exact .lockDone r hFree
        | none => exact .lockCallback hFree
      · cases h
    | append r =>
      cases h
      exact .append r
    | setDone =>
      cases h
      exact .setDone
    | signal =>
      cases h
      exact .signal
    | unlock =>
      cases h
      exact .unlock

theorem step_move (h : s.step a = .ok t) : s.Move a t := by
  cases a with
  | wait =>
    simp only [step] at h
    split at h
    · rename_i hIdle
      cases h
      exact .wait hIdle
    · cases h
  | waiter =>
    obtain ⟨w, pc, hWaiter, hMove⟩ := waiterStep_move h
    exact .waiter hWaiter hMove
  | expire w =>
    simp only [step] at h
    split at h
    · rename_i hArmed
      cases h
      exact .expire hArmed
    · cases h
  | done k r =>
    simp only [step] at h
    split at h
    · rename_i hFree
      cases h
      exact .done hFree
    · cases h
  | caller c =>
    obtain ⟨pc, hCall, hMove⟩ := callerStep_move h
    exact .caller hCall hMove

/-! ## Who holds the lock -/

def inside (s : QueueThreads) : Thread → Prop
  | .waiter => ∃ w pc, s.waiter = some (w, pc) ∧ pc.holds = true
  | .caller c => ∃ pc, s.calls c = some pc ∧ pc.holds = true

theorem inside_waiter {w : Nat} {pc : WaitPc} (h : s.waiter = some (w, pc)) :
    s.inside .waiter ↔ pc.holds = true := by
  constructor
  · rintro ⟨w', pc', hWaiter, hHolds⟩
    rw [h] at hWaiter
    cases hWaiter
    exact hHolds
  · exact fun hHolds => ⟨w, pc, h, hHolds⟩

theorem inside_caller {c : Caller} {pc : CallPc} (h : s.calls c = some pc) :
    s.inside (.caller c) ↔ pc.holds = true := by
  constructor
  · rintro ⟨pc', hCall, hHolds⟩
    rw [h] at hCall
    cases hCall
    exact hHolds
  · exact fun hHolds => ⟨pc, h, hHolds⟩

/-- A step of the waiter leaves the others where they are. -/
theorem inside_of_calls (hCalls : t.calls = s.calls) (u : Thread) (hu : u ≠ .waiter) :
    t.inside u ↔ s.inside u := by
  cases u with
  | waiter => exact absurd rfl hu
  | caller c => simp only [inside, hCalls]

theorem inside_of_update {c : Caller} {pc : Option CallPc}
    (hCalls : t.calls = Function.update s.calls c pc)
    (hWaiter : t.inside .waiter ↔ s.inside .waiter) (u : Thread) (hu : u ≠ .caller c) :
    t.inside u ↔ s.inside u := by
  cases u with
  | waiter => exact hWaiter
  | caller c' =>
    have hNe : c' ≠ c := fun hEq => hu (congrArg Thread.caller hEq)
    simp only [inside, hCalls, Function.update_of_ne hNe]

theorem inside_signalled {f : Nat × WaitPc → Nat × WaitPc} (hWaiter : t.waiter = s.waiter.map f)
    (hf : ∀ x, (f x).2.holds = x.2.holds) : t.inside .waiter ↔ s.inside .waiter := by
  cases hs : s.waiter with
  | none => simp [inside, hWaiter, hs]
  | some x =>
    have ht : t.waiter = some ((f x).1, (f x).2) := by rw [hWaiter, hs]; rfl
    rw [inside_waiter ht, inside_waiter hs, hf]

abbrev Owned (s : QueueThreads) : Prop := Mutex.Owned s.lock s.inside

/-- A step of the waiter that neither takes nor gives back the lock. -/
theorem Owned.waiter_keeps (h : s.Owned) (hWaiter : t.inside .waiter ↔ s.inside .waiter)
    (hLock : t.lock = s.lock) (hCalls : t.calls = s.calls) : t.Owned := by
  have hSame : ∀ u, t.inside u ↔ s.inside u := by
    intro u
    by_cases hu : u = .waiter
    · exact hu ▸ hWaiter
    · exact inside_of_calls hCalls u hu
  have hOwned := Mutex.Owned.of_iff h hSame
  rwa [← hLock] at hOwned

theorem Owned.caller_keeps (h : s.Owned) {c : Caller} {pc pc' : CallPc}
    (hCall : s.calls c = some pc) (hCalls : t.calls = Function.update s.calls c (some pc'))
    (hHolds : pc'.holds = pc.holds) (hLock : t.lock = s.lock)
    (hWaiter : t.inside .waiter ↔ s.inside .waiter) : t.Owned := by
  have hCall' : t.calls c = some pc' := by rw [hCalls, Function.update_self]
  have hSame : ∀ u, t.inside u ↔ s.inside u := by
    intro u
    by_cases hu : u = .caller c
    · rw [hu, inside_caller hCall, inside_caller hCall', hHolds]
    · exact inside_of_update hCalls hWaiter u hu
  have hOwned := Mutex.Owned.of_iff h hSame
  rwa [← hLock] at hOwned

/-- A new call waits for the lock. -/
theorem Owned.starts (h : s.Owned) {c : Caller} {r : Option TaskResult}
    (hCall : s.calls c = none) (hLock : t.lock = s.lock) (hWaiter : t.waiter = s.waiter)
    (hCalls : t.calls = Function.update s.calls c (some (.lock r))) : t.Owned := by
  have hSame : ∀ u, t.inside u ↔ s.inside u := by
    intro u
    by_cases hu : u = .caller c
    · subst hu
      simp [inside, hCalls, hCall, CallPc.holds]
    · exact inside_of_update hCalls (by simp only [inside, hWaiter]) u hu
  have hOwned := Mutex.Owned.of_iff h hSame
  rwa [← hLock] at hOwned

theorem WaiterMove.owned {w : Nat} {pc : WaitPc} (hWaiter : s.waiter = some (w, pc))
    (hMove : s.WaiterMove w pc t) (h : s.Owned) : t.Owned := by
  cases hMove with
  | lock hFree =>
    have hNone : Mutex.Owned none s.inside := hFree ▸ h
    exact hNone.acquire ⟨w, .test, rfl, rfl⟩ (inside_of_calls rfl)
  | unlock b =>
    refine Mutex.Owned.release h ((inside_waiter hWaiter).mpr rfl) ?_ (inside_of_calls rfl)
    rw [inside_waiter rfl]
    exact Bool.false_ne_true
  | leave out =>
    refine Mutex.Owned.release h ((inside_waiter hWaiter).mpr rfl) ?_ (inside_of_calls rfl)
    rintro ⟨_, _, hNone, _⟩
    cases hNone
  | found | notDone | ticket | wake | clearDone | stopTimer | drain =>
    refine h.waiter_keeps ?_ rfl rfl
    rw [inside_waiter hWaiter, inside_waiter rfl]
    exact Iff.rfl

theorem CallerMove.owned {c : Caller} {pc : CallPc} (hCall : s.calls c = some pc)
    (hMove : s.CallerMove c pc t) (h : s.Owned) : t.Owned := by
  cases hMove with
  | lockDone r hFree =>
    have hNone : Mutex.Owned none s.inside := hFree ▸ h
    refine hNone.acquire ⟨.append r, ?_, rfl⟩ (inside_of_update rfl Iff.rfl)
    exact Function.update_self ..
  | lockCallback hFree =>
    have hNone : Mutex.Owned none s.inside := hFree ▸ h
    refine hNone.acquire ⟨.setDone, ?_, rfl⟩ (inside_of_update rfl Iff.rfl)
    exact Function.update_self ..
  | unlock =>
    refine Mutex.Owned.release h ((inside_caller hCall).mpr rfl) ?_
      (inside_of_update rfl Iff.rfl)
    rintro ⟨_, hNone, _⟩
    cases (Function.update_self c none s.calls).symm.trans hNone
  | signal =>
    exact h.caller_keeps hCall rfl rfl rfl
      (inside_signalled rfl fun x => WaitPc.signal_holds x.2)
  | append | setDone => exact h.caller_keeps hCall rfl rfl rfl Iff.rfl

/-- Lock ownership, and that callbacks belong to expired timers of waits that were
started. -/
structure Valid (s : QueueThreads) : Prop where
  owned : s.Owned
  callback : ∀ w pc, s.calls (.callback w) = some pc → s.timers w = some .expired
  fresh : ∀ w, s.waits ≤ w → s.timers w = none
  waiter_lt : ∀ w pc, s.waiter = some (w, pc) → w < s.waits

theorem Valid.init : Valid init where
  owned u := by
    cases u with
    | waiter => simp [QueueThreads.init, inside]
    | caller c => simp [QueueThreads.init, inside]
  callback _ _ h := by cases h
  fresh _ _ := rfl
  waiter_lt _ _ h := by cases h

theorem Valid.callback_none (h : s.Valid) {w : Nat} (hArmed : s.timers w = some .armed) :
    s.calls (.callback w) = none := by
  refine Option.eq_none_iff_forall_ne_some.mpr fun pc hCall => ?_
  rw [h.callback w pc hCall] at hArmed
  cases hArmed

/-- An expired timer is never set again. -/
theorem Valid.expired_stays (h : s.Valid) (hMove : s.Move a t) {w : Nat}
    (hExpired : s.timers w = some .expired) : t.timers w = some .expired := by
  cases hMove with
  | wait =>
    have hNe : w ≠ s.waits := by
      rintro rfl
      rw [h.fresh _ (Nat.le_refl _)] at hExpired
      cases hExpired
    exact (Function.update_of_ne hNe ..).trans hExpired
  | @waiter w' _ _ hWaiter hMove =>
    cases hMove with
    | stopTimer =>
      by_cases hEq : w = w'
      · subst hEq
        exact (Function.update_self ..).trans (by rw [hExpired]; rfl)
      · exact (Function.update_of_ne hEq ..).trans hExpired
    | _ => exact hExpired
  | @expire w' hArmed =>
    have hNe : w ≠ w' := by
      rintro rfl
      rw [hArmed] at hExpired
      cases hExpired
    exact (Function.update_of_ne hNe ..).trans hExpired
  | done => exact hExpired
  | caller hCall hMove => cases hMove <;> exact hExpired

theorem CallerMove.calls {c : Caller} {pc : CallPc} (hMove : s.CallerMove c pc t) :
    ∃ next, t.calls = Function.update s.calls c next := by
  cases hMove <;> exact ⟨_, rfl⟩

theorem WaiterMove.calls {w : Nat} {pc : WaitPc} (hMove : s.WaiterMove w pc t) :
    t.calls = s.calls := by
  cases hMove <;> rfl

/-- A callback is running, or its timer has just expired. -/
theorem Move.callback (hMove : s.Move a t) {w : Nat} {pc : CallPc}
    (hCall : t.calls (.callback w) = some pc) :
    (∃ pc', s.calls (.callback w) = some pc') ∨ a = .expire w := by
  cases hMove with
  | wait => exact .inl ⟨pc, hCall⟩
  | waiter _ hMove => exact .inl ⟨pc, hMove.calls ▸ hCall⟩
  | @expire w' =>
    by_cases hEq : w = w'
    · exact .inr (congrArg QueueAct.expire hEq.symm)
    · have hNe : Caller.callback w ≠ .callback w' := fun h => hEq (Caller.callback.inj h)
      simp only [Function.update_of_ne hNe] at hCall
      exact .inl ⟨pc, hCall⟩
  | @done k =>
    have hNe : Caller.callback w ≠ .done k := nofun
    simp only [Function.update_of_ne hNe] at hCall
    exact .inl ⟨pc, hCall⟩
  | @caller c pc' _ hCall' hMove =>
    by_cases hEq : Caller.callback w = c
    · exact .inl ⟨pc', hEq ▸ hCall'⟩
    · obtain ⟨next, hCalls⟩ := hMove.calls
      rw [hCalls, Function.update_of_ne hEq] at hCall
      exact .inl ⟨pc, hCall⟩

theorem Valid.owned_move (h : s.Valid) (hMove : s.Move a t) : t.Owned := by
  cases hMove with
  | wait hIdle =>
    refine h.owned.waiter_keeps ?_ rfl rfl
    rw [inside_waiter rfl]
    simp [inside, hIdle, WaitPc.holds]
  | waiter hWaiter hMove => exact hMove.owned hWaiter h.owned
  | expire hArmed => exact h.owned.starts (h.callback_none hArmed) rfl rfl rfl
  | done hFree => exact h.owned.starts hFree rfl rfl rfl
  | caller hCall hMove => exact hMove.owned hCall h.owned

theorem Valid.fresh_move (h : s.Valid) (hMove : s.Move a t) {w : Nat} (hw : t.waits ≤ w) :
    t.timers w = none := by
  cases hMove with
  | wait =>
    have hLt : s.waits + 1 ≤ w := hw
    exact (Function.update_of_ne (by omega) ..).trans (h.fresh w (by omega))
  | @waiter w' pc _ hWaiter hMove =>
    have hLt := h.waiter_lt w' pc hWaiter
    cases hMove with
    | stopTimer =>
      have hLe : s.waits ≤ w := hw
      exact (Function.update_of_ne (by omega) ..).trans (h.fresh w hLe)
    | _ => exact h.fresh w hw
  | @expire w' hArmed =>
    have hNe : w ≠ w' := by
      rintro rfl
      rw [h.fresh w hw] at hArmed
      cases hArmed
    exact (Function.update_of_ne hNe ..).trans (h.fresh w hw)
  | done => exact h.fresh w hw
  | caller hCall hMove => cases hMove <;> exact h.fresh w hw

theorem Valid.waiter_move (h : s.Valid) (hMove : s.Move a t) {w : Nat} {pc : WaitPc}
    (hWaiter : t.waiter = some (w, pc)) : w < t.waits := by
  cases hMove with
  | wait =>
    cases hWaiter
    exact Nat.lt_succ_self _
  | waiter hWaiter' hMove =>
    have hLt := h.waiter_lt _ _ hWaiter'
    cases hMove <;> cases hWaiter <;> exact hLt
  | expire | done => exact h.waiter_lt w pc hWaiter
  | caller hCall hMove =>
    cases hMove with
    | signal =>
      obtain ⟨⟨w', pc'⟩, hWaiter', hEq⟩ := Option.map_eq_some_iff.mp hWaiter
      cases hEq
      exact h.waiter_lt w pc' hWaiter'
    | _ => exact h.waiter_lt w pc hWaiter

theorem Valid.step (h : s.Valid) (hMove : s.Move a t) : t.Valid where
  owned := h.owned_move hMove
  callback w pc hCall := by
    rcases hMove.callback hCall with ⟨pc', hCall'⟩ | rfl
    · exact h.expired_stays hMove (h.callback w pc' hCall')
    · cases hMove
      exact Function.update_self ..
  fresh _ := h.fresh_move hMove
  waiter_lt _ _ := h.waiter_move hMove

/-! ## Runs -/

theorem Run.valid (h : Run ok s) : s.Valid :=
  h.invariant Valid.init fun _ _ _ _ hValid _ hStep => hValid.step (step_move hStep)

theorem Run.induct {P : QueueThreads → Prop} (h : Run ok s) (hInit : P init)
    (hMove : ∀ s a t, Run ok s → s.Valid → P s → ok s a → s.Move a t → P t) : P s :=
  h.invariant hInit fun s a t hRun hP hOk hStep =>
    hMove s a t hRun (Run.valid hRun) hP hOk (step_move hStep)

def after (ok : QueueThreads → QueueAct → Prop) [∀ s a, Decidable (ok s a)]
    (as : List QueueAct) : Option QueueThreads :=
  Transition.exec step ok init as

theorem run_after (ok : QueueThreads → QueueAct → Prop) [∀ s a, Decidable (ok s a)]
    (as : List QueueAct) (h : (after ok as).isSome) : Run ok ((after ok as).get h) :=
  Transition.exec_reaches h

end QueueThreads

end GrpcClient
