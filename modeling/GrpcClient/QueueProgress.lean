import GrpcClient.Lib.Progress
import GrpcClient.QueueWaits

/-! # No thread is blocked

The owner of the lock goes on until it gives the lock back, so that the others get
it. A `Wait` that sleeps is signalled once its timer has expired, if nothing is
reported before.
-/

namespace GrpcClient

/-- `Wait` is in its loop. -/
def WaitPc.looping : WaitPc → Bool
  | .lock | .test | .ticket | .unlock _ | .parked _ => true
  | _ => false

@[simp] theorem WaitPc.signal_looping (pc : WaitPc) : pc.signal.looping = pc.looping := by
  cases pc <;> rfl

/-- The call has still to set the flag. -/
def CallPc.unset : CallPc → Bool
  | .lock _ | .append _ | .setDone => true
  | _ => false

/-- The statements of the call up to its return. -/
def CallPc.left : CallPc → Nat
  | .lock _ => 5
  | .append _ => 4
  | .setDone => 3
  | .signal => 2
  | .unlock => 1

/-- The statements of `Wait` up to its return. Without the flag it goes to sleep
first, and the way to its timer is counted apart. -/
def WaitPc.left (done : Bool) : WaitPc → Nat
  | .leave _ => 1
  | .drain => 2
  | .stopTimer => 3
  | .clearDone => 4
  | .test => if done then 5 else 10
  | .lock => if done then 6 else 11
  | .parked _ => 7
  | .unlock _ => 8
  | .ticket => 9

/-- The statements of `Wait` until it gives back the lock. -/
def WaitPc.held : WaitPc → Nat
  | .test => 5
  | .clearDone => 4
  | .stopTimer => 3
  | .drain | .ticket => 2
  | .leave _ | .unlock _ => 1
  | .lock | .parked _ => 0

@[simp] theorem WaitPc.signal_left (done : Bool) (pc : WaitPc) :
    pc.signal.left done = pc.left done := by
  cases pc <;> rfl

theorem WaitPc.left_le (done : Bool) (pc : WaitPc) : pc.left done ≤ 11 := by
  cases done <;> cases pc <;> simp [left]

theorem WaitPc.left_mono (pc : WaitPc) {done done' : Bool} (h : done = true → done' = true) :
    pc.left done' ≤ pc.left done := by
  cases done with
  | true => exact Nat.le_of_eq (by rw [h rfl])
  | false => cases done' <;> cases pc <;> simp [left]

theorem CallPc.left_le (pc : CallPc) : pc.left ≤ 5 := by
  cases pc <;> simp [left]

theorem WaitPc.held_le (pc : WaitPc) : pc.held ≤ 5 := by
  cases pc <;> simp [held]

def Thread.next : Thread → QueueAct
  | .waiter => .waiter
  | .caller c => .caller c

namespace QueueThreads

open PartialMap Transition

variable {s t : QueueThreads} {a : QueueAct} {ok : QueueThreads → QueueAct → Prop}

/-! ## A sleeper is woken -/

/-- The flag is set, or the timer of `Wait` number `w` will have it set. -/
def Alarmed (s : QueueThreads) (w : Nat) : Prop :=
  s.queue.done = true ∨ s.timers w = some .armed ∨
    ∃ pc, s.calls (.callback w) = some pc ∧ pc.unset = true

theorem CallerMove.done_stays {c : Caller} {pc : CallPc} (hMove : s.CallerMove c pc t)
    (hDone : s.queue.done = true) : t.queue.done = true := by
  cases hMove with
  | setDone => rfl
  | _ => exact hDone

theorem CallerMove.timers {c : Caller} {pc : CallPc} (hMove : s.CallerMove c pc t) :
    t.timers = s.timers := by
  cases hMove <;> rfl

theorem Alarmed.caller_move {w : Nat} (h : s.Alarmed w) {c : Caller} {pc : CallPc}
    (hCall : s.calls c = some pc) (hMove : s.CallerMove c pc t) : t.Alarmed w := by
  obtain hDone | hArmed | ⟨pc', hCallback, hUnset⟩ := h
  · exact .inl (hMove.done_stays hDone)
  · exact .inr (.inl (hMove.timers ▸ hArmed))
  · by_cases hEq : Caller.callback w = c
    · subst hEq
      rw [hCall] at hCallback
      cases hCallback
      cases hMove with
      | lockDone | lockCallback | append => exact .inr (.inr ⟨_, Function.update_self .., rfl⟩)
      | setDone => exact .inl rfl
      | signal | unlock => cases hUnset
    · obtain ⟨next, hCalls⟩ := hMove.calls
      refine .inr (.inr ⟨pc', ?_, hUnset⟩)
      rw [hCalls, Function.update_of_ne hEq, hCallback]

/-- A `Wait` in its loop is woken, and it is woken only when the flag is set. -/
structure Wakes (s : QueueThreads) : Prop where
  signal : ∀ c, s.calls c = some .signal → s.queue.done = true
  signalled : ∀ w, s.waiter = some (w, .parked true) → s.queue.done = true
  alarmed : ∀ w pc, s.waiter = some (w, pc) → pc.looping = true → s.Alarmed w

theorem Wakes.caller_move (h : s.Wakes) {c : Caller} {pc : CallPc} (hCall : s.calls c = some pc)
    (hMove : s.CallerMove c pc t) : t.Wakes := by
  constructor
  · intro c' hSignal
    by_cases hEq : c' = c
    · subst hEq
      cases hMove with
      | setDone => rfl
      | _ => simp at hSignal
    · obtain ⟨next, hCalls⟩ := hMove.calls
      rw [hCalls, Function.update_of_ne hEq] at hSignal
      exact hMove.done_stays (h.signal c' hSignal)
  · intro w hAt
    cases hMove with
    | signal => exact h.signal c hCall
    | setDone => rfl
    | _ => exact h.signalled w hAt
  · intro w pc' hAt hLoop
    have hAlarmed : s.Alarmed w := by
      cases hMove with
      | signal =>
        obtain ⟨⟨w', pc''⟩, hAt', hEq⟩ := Option.map_eq_some_iff.mp hAt
        cases hEq
        rw [WaitPc.signal_looping] at hLoop
        exact h.alarmed w pc'' hAt' hLoop
      | _ => exact h.alarmed w pc' hAt hLoop
    exact hAlarmed.caller_move hCall hMove

theorem Wakes.waiter_move (h : s.Wakes) (hOwned : s.Owned) (hAwake : s.Awake) {w : Nat}
    {pc : WaitPc} (hAt : s.waiter = some (w, pc)) (hMove : s.WaiterMove w pc t) : t.Wakes := by
  constructor
  · intro c hSignal
    rw [hMove.calls] at hSignal
    cases hMove with
    | clearDone =>
      cases hOwned.unique ((inside_waiter hAt).mpr rfl) ((inside_caller hSignal).mpr rfl)
    | _ => exact h.signal c hSignal
  · intro w' hAt'
    cases hMove with
    | unlock b =>
      cases hAt'
      cases hAwake.parks w true hAt
    | _ => cases hAt'
  · intro w' pc' hAt' hLoop
    cases hMove with
    | lock | notDone | ticket | unlock | wake =>
      cases hAt'
      exact h.alarmed w _ hAt rfl
    | leave => cases hAt'
    | _ =>
      cases hAt'
      cases hLoop

theorem Run.wakes (h : Run ok s) : s.Wakes := by
  refine h.induct ⟨nofun, nofun, nofun⟩ ?_
  intro s a t hRun hv hWakes _ hMove
  cases hMove with
  | wait hIdle =>
    refine ⟨hWakes.signal, nofun, fun w pc hAt _ => ?_⟩
    cases hAt
    exact .inr (.inl (Function.update_self ..))
  | waiter hAt hMove => exact hWakes.waiter_move hv.owned (Run.awake hRun) hAt hMove
  | @expire w' hArmed =>
    have hNone := hv.callback_none hArmed
    refine ⟨fun c hSignal => ?_, hWakes.signalled, fun w pc hAt hLoop => ?_⟩
    · obtain ⟨_, hEq⟩ | ⟨_, hSignal⟩ := update_some_iff.mp hSignal
      · cases hEq
      · exact hWakes.signal c hSignal
    · by_cases hEq : w = w'
      · subst hEq
        exact .inr (.inr ⟨_, Function.update_self .., rfl⟩)
      · refine (hWakes.alarmed w pc hAt hLoop).imp_right (Or.imp ?_ ?_)
        · exact fun hArmed' => (Function.update_of_ne hEq ..).trans hArmed'
        · rintro ⟨pc', hCall, hUnset⟩
          exact ⟨pc', calls_of_ne hCall hNone nofun, hUnset⟩
  | @done k r hFree =>
    refine ⟨fun c hSignal => ?_, hWakes.signalled, fun w pc hAt hLoop => ?_⟩
    · obtain ⟨_, hEq⟩ | ⟨_, hSignal⟩ := update_some_iff.mp hSignal
      · cases hEq
      · exact hWakes.signal c hSignal
    · refine (hWakes.alarmed w pc hAt hLoop).imp_right (Or.imp_right ?_)
      rintro ⟨pc', hCall, hUnset⟩
      have hNe : Caller.callback w ≠ .done k := nofun
      refine ⟨pc', ?_, hUnset⟩
      simp only [Function.update_of_ne hNe, hCall]
  | caller hCall hMove => exact hWakes.caller_move hCall hMove

/-! ## The owner of the lock goes on -/

theorem Valid.caller_outside (hv : s.Valid) (hFree : s.lock = none) {c : Caller} {pc : CallPc}
    (hCall : s.calls c = some pc) : pc.holds = false := by
  have hNobody : Mutex.Owned none s.inside := hFree ▸ hv.owned
  exact Bool.eq_false_iff.mpr fun hHolds =>
    hNobody.not_inside _ ((inside_caller hCall).mpr hHolds)

theorem Valid.waiter_outside (hv : s.Valid) (hFree : s.lock = none) {w : Nat} {pc : WaitPc}
    (hAt : s.waiter = some (w, pc)) : pc.holds = false := by
  have hNobody : Mutex.Owned none s.inside := hFree ▸ hv.owned
  exact Bool.eq_false_iff.mpr fun hHolds =>
    hNobody.not_inside _ ((inside_waiter hAt).mpr hHolds)

theorem Owned.next (h : s.Owned) {u : Thread} (hLock : s.lock = some u) :
    ∃ t, s.step u.next = .ok t := by
  cases u with
  | waiter =>
    obtain ⟨w, pc, hAt, hHolds⟩ := (h .waiter).mp hLock
    cases pc with
    | lock | parked => cases hHolds
    | _ => simp [Thread.next, step, waiterStep, hAt]
  | caller c =>
    obtain ⟨pc, hCall, hHolds⟩ := (h (.caller c)).mp hLock
    cases pc with
    | lock => cases hHolds
    | _ => simp [Thread.next, step, callerStep, hCall]

/-- What is left of the call that has the lock. -/
def holderLeft (s : QueueThreads) : Nat :=
  match s.lock with
  | some (.caller c) => ((s.calls c).map CallPc.left).getD 0
  | _ => 0

theorem holderLeft_le (s : QueueThreads) : s.holderLeft ≤ 5 := by
  unfold holderLeft
  split
  · rename_i c _
    cases s.calls c with
    | none => exact Nat.zero_le 5
    | some pc => exact pc.left_le
  · exact Nat.zero_le 5

/-- The steps of the owner of the lock until it gives it back. -/
def lockLeft (s : QueueThreads) : Nat :=
  match s.lock with
  | some .waiter => (s.waiter.map fun x => x.2.held).getD 0
  | _ => s.holderLeft

theorem CallerMove.holderLeft_lt {c : Caller} {pc : CallPc} (hMove : s.CallerMove c pc t)
    (hCall : s.calls c = some pc) (hHolds : pc.holds = true) (hLock : s.lock = some (.caller c)) :
    t.holderLeft < s.holderLeft := by
  have hLeft : s.holderLeft = pc.left := by simp [holderLeft, hLock, hCall]
  rw [hLeft]
  cases hMove with
  | lockDone | lockCallback => cases hHolds
  | unlock => exact Nat.one_pos
  | _ => simp [holderLeft, hLock, CallPc.left]

theorem lockLeft_of_ne (h : s.lock ≠ some .waiter) : s.lockLeft = s.holderLeft := by
  unfold lockLeft
  split
  · rename_i hLock
    exact absurd hLock h
  · rfl

theorem lockLeft_le (s : QueueThreads) : s.lockLeft ≤ 5 := by
  unfold lockLeft
  split
  · cases s.waiter with
    | none => exact Nat.zero_le 5
    | some x => exact x.2.held_le
  · exact s.holderLeft_le

/-- The owner gives the lock back, and the other calls wait for it. -/
theorem Owned.nearer (h : s.Owned) {u : Thread} (hLock : s.lock = some u) :
    ∃ t, s.step u.next = .ok t ∧ t.lockLeft < s.lockLeft ∧
      ∀ c, .caller c ≠ u → t.calls c = s.calls c := by
  obtain ⟨t, hStep⟩ := h.next hLock
  refine ⟨t, hStep, ?_⟩
  cases u with
  | waiter =>
    cases step_move hStep with
    | @waiter w pc _ hAt hMove =>
      have hHolds : pc.holds = true := (inside_waiter hAt).mp ((h .waiter).mp hLock)
      have hLeft : s.lockLeft = pc.held := by simp [lockLeft, hLock, hAt]
      refine ⟨?_, fun c _ => by rw [hMove.calls]⟩
      rw [hLeft]
      cases hMove with
      | lock | wake => cases hHolds
      | unlock | leave => exact Nat.one_pos
      | _ => simp [lockLeft, hLock, WaitPc.held]
  | caller c =>
    cases step_move hStep with
    | @caller _ pc _ hCall hMove =>
      have hHolds : pc.holds = true := (inside_caller hCall).mp ((h (.caller c)).mp hLock)
      have hNext : t.lock ≠ some .waiter := by cases hMove <;> simp [hLock]
      constructor
      · rw [lockLeft_of_ne hNext, lockLeft_of_ne (by simp [hLock])]
        exact hMove.holderLeft_lt hCall hHolds hLock
      · intro c' hNe
        obtain ⟨next, hCalls⟩ := hMove.calls
        rw [hCalls, Function.update_of_ne fun hEq => hNe (congrArg Thread.caller hEq)]

/-! ## Calls return -/

/-- The steps of the threads that run, and of their timers. -/
def unaided (_ : QueueThreads) : QueueAct → Prop
  | .wait | .done .. => False
  | .waiter | .expire _ | .caller _ => True

theorem unaided_next (u : Thread) : s.unaided u.next := by
  cases u <;> trivial

def callLeft (s : QueueThreads) (c : Caller) : Nat :=
  match s.calls c with
  | none => 0
  | some pc => pc.left + if pc.holds then 0 else s.lockLeft

theorem callLeft_le (s : QueueThreads) (c : Caller) : s.callLeft c ≤ 10 := by
  have hLock := s.lockLeft_le
  unfold callLeft
  split
  · omega
  · rename_i pc _
    have := pc.left_le
    split <;> omega

theorem callLeft_of_holds {c : Caller} {pc : CallPc} (hCall : s.calls c = some pc)
    (hHolds : pc.holds = true) : s.callLeft c = pc.left := by
  simp [callLeft, hCall, hHolds]

/-- A call goes on once it has the lock, and before that it takes the lock or lets the
owner go on. -/
theorem Valid.call_nearer (hv : s.Valid) {c : Caller} (hCall : s.calls c ≠ none) :
    ∃ a t, s.unaided a ∧ s.step a = .ok t ∧ t.callLeft c < s.callLeft c := by
  obtain ⟨pc, hCall⟩ := Option.ne_none_iff_exists'.mp hCall
  cases hLock : s.lock with
  | none =>
    have hOutside := hv.caller_outside hLock hCall
    cases pc with
    | lock r =>
      have hStep : s.step (.caller c) =
          .ok { s.calling c (r.elim .setDone .append) with lock := some (.caller c) } := by
        simp [QueueThreads.step, callerStep, hCall, hLock]
      refine ⟨.caller c, _, trivial, hStep, ?_⟩
      cases r <;> simp [callLeft, calling, hCall, CallPc.holds, CallPc.left] <;> omega
    | _ => cases hOutside
  | some u =>
    obtain ⟨t, hStep, hLt, hOthers⟩ := hv.owned.nearer hLock
    refine ⟨u.next, t, unaided_next u, hStep, ?_⟩
    have hOwner : pc.holds = true ↔ u = .caller c := by
      rw [← inside_caller hCall, ← hv.owned (.caller c), hLock, Option.some_inj]
    cases hHolds : pc.holds with
    | true =>
      obtain rfl := hOwner.mp hHolds
      rw [callLeft_of_holds hCall hHolds]
      cases step_move hStep with
      | caller hCall' hMove =>
        rw [hCall] at hCall'
        cases hCall'
        cases hMove with
        | lockDone | lockCallback => cases hHolds
        | _ => simp [callLeft, CallPc.holds, CallPc.left]
    | false =>
      have hNe : Thread.caller c ≠ u := fun hEq => by simp [hOwner.mpr hEq.symm] at hHolds
      simp only [callLeft, hOthers c hNe, hCall, hHolds]
      exact Nat.add_lt_add_left hLt _

/-! ## Waits return -/

/-- What is left before the timer of `Wait` number `w` has taken the lock. -/
def wakeLeft (s : QueueThreads) (w : Nat) : Nat :=
  if s.timers w = some .armed then 6
  else if (s.calls (.callback w)).map CallPc.holds = some false then 5
  else 0

/-- A `Wait` needs its timer only in its loop, and as long as the flag is not set. -/
def alarmLeft (s : QueueThreads) (w : Nat) (pc : WaitPc) : Nat :=
  if s.queue.done = true ∨ pc.looping = false then 0 else s.wakeLeft w

def waitLeft (s : QueueThreads) : Nat :=
  match s.waiter with
  | none => 0
  | some (w, pc) => s.holderLeft + s.alarmLeft w pc + pc.left s.queue.done

theorem alarmLeft_le (s : QueueThreads) (w : Nat) (pc : WaitPc) : s.alarmLeft w pc ≤ 6 := by
  unfold alarmLeft wakeLeft
  split
  · exact Nat.zero_le 6
  · split
    · exact Nat.le_refl 6
    · split <;> omega

theorem waitLeft_eq {w : Nat} {pc : WaitPc} (hAt : s.waiter = some (w, pc)) :
    s.waitLeft = s.holderLeft + s.alarmLeft w pc + pc.left s.queue.done := by
  simp only [waitLeft, hAt]

theorem waitLeft_le (s : QueueThreads) : s.waitLeft ≤ 22 := by
  cases hAt : s.waiter with
  | none => simp [waitLeft, hAt]
  | some x =>
    have hHolder := s.holderLeft_le
    have hAlarm := s.alarmLeft_le x.1 x.2
    have hPc := x.2.left_le s.queue.done
    rw [waitLeft_eq hAt]
    omega

theorem alarmLeft_of_out {w : Nat} {pc : WaitPc} (h : pc.looping = false) :
    s.alarmLeft w pc = 0 := if_pos (.inr h)

/-- `Wait` number `w` runs or has returned. -/
def Started (s : QueueThreads) (w : Nat) : Prop :=
  (∃ pc, s.waiter = some (w, pc)) ∨ ∃ out, (w, out) ∈ s.returned

theorem waitLeft_lt {w : Nat} {pc pc' : WaitPc} (hAt : s.waiter = some (w, pc))
    (hAt' : t.waiter = some (w, pc')) (hHolder : t.holderLeft ≤ s.holderLeft)
    (hAlarm : t.alarmLeft w pc' ≤ s.alarmLeft w pc)
    (hPc : pc'.left t.queue.done < pc.left s.queue.done) : t.waitLeft < s.waitLeft := by
  rw [waitLeft_eq hAt, waitLeft_eq hAt']
  omega

/-- The statements of `Wait`, which wakes up only with the flag set. -/
theorem WaiterMove.nearer {w : Nat} {pc : WaitPc} (hAt : s.waiter = some (w, pc))
    (hMove : s.WaiterMove w pc t) (hWake : pc = .parked true → s.queue.done = true) :
    t.Started w ∧ t.waitLeft < s.waitLeft := by
  cases hMove with
  | lock =>
    refine ⟨.inl ⟨_, rfl⟩, waitLeft_lt hAt rfl (Nat.zero_le _) (Nat.le_refl _) ?_⟩
    cases s.queue.done <;> decide
  | found hDone =>
    refine ⟨.inl ⟨_, rfl⟩, waitLeft_lt hAt rfl (Nat.le_refl _) ?_ ?_⟩
    · rw [alarmLeft_of_out rfl]
      exact Nat.zero_le _
    · rw [hDone]
      decide
  | notDone hDone =>
    refine ⟨.inl ⟨_, rfl⟩, waitLeft_lt hAt rfl (Nat.le_refl _) (Nat.le_refl _) ?_⟩
    rw [hDone]
    decide
  | ticket =>
    exact ⟨.inl ⟨_, rfl⟩, waitLeft_lt hAt rfl (Nat.le_refl _) (Nat.le_refl _) (Nat.lt_succ_self 8)⟩
  | unlock b =>
    exact ⟨.inl ⟨_, rfl⟩, waitLeft_lt hAt rfl (Nat.zero_le _) (Nat.le_refl _) (Nat.lt_succ_self 7)⟩
  | wake =>
    refine ⟨.inl ⟨_, rfl⟩, waitLeft_lt hAt rfl (Nat.le_refl _) (Nat.le_refl _) ?_⟩
    rw [hWake rfl]
    exact Nat.lt_succ_self 6
  | clearDone | stopTimer | drain =>
    refine ⟨.inl ⟨_, rfl⟩, waitLeft_lt hAt rfl (Nat.le_refl _) ?_ (Nat.lt_succ_self _)⟩
    rw [alarmLeft_of_out rfl]
    exact Nat.zero_le _
  | leave out =>
    refine ⟨.inr ⟨out, by simp⟩, ?_⟩
    rw [waitLeft_eq hAt]
    exact Nat.lt_add_left _ Nat.one_pos

/-- The owner of the lock is not about to take it. -/
theorem CallerMove.locks {c : Caller} {pc : CallPc} (hMove : s.CallerMove c pc t)
    (hHolds : pc.holds = true) {c' : Caller} (h : (t.calls c').map CallPc.holds = some false) :
    (s.calls c').map CallPc.holds = some false := by
  by_cases hEq : c' = c
  · subst hEq
    cases hMove with
    | lockDone | lockCallback => cases hHolds
    | _ => simp [CallPc.holds] at h
  · obtain ⟨next, hCalls⟩ := hMove.calls
    rwa [hCalls, Function.update_of_ne hEq] at h

theorem CallerMove.alarmLeft_le {c : Caller} {pc : CallPc} (hMove : s.CallerMove c pc t)
    (hHolds : pc.holds = true) (w : Nat) (pc' : WaitPc) : t.alarmLeft w pc' ≤ s.alarmLeft w pc' := by
  have hWake : t.wakeLeft w ≤ s.wakeLeft w := by
    unfold wakeLeft
    rw [hMove.timers]
    split
    · exact Nat.le_refl 6
    · split
      · rename_i hLock
        exact Nat.le_of_eq (if_pos (hMove.locks hHolds hLock)).symm
      · exact Nat.zero_le _
  by_cases hNone : s.queue.done = true ∨ pc'.looping = false
  · have hNone' := hNone.imp_left hMove.done_stays
    rw [alarmLeft, if_pos hNone']
    exact Nat.zero_le _
  · rw [alarmLeft, alarmLeft, if_neg hNone]
    split
    · exact Nat.zero_le _
    · exact hWake

/-- A call leaves `Wait` where it is, up to a signal. -/
theorem CallerMove.waits {c : Caller} {now : CallPc} (hMove : s.CallerMove c now t) {w : Nat}
    {pc : WaitPc} (hAt : s.waiter = some (w, pc)) :
    t.waiter = some (w, pc) ∨ t.waiter = some (w, pc.signal) := by
  cases hMove with
  | signal => exact .inr (congrArg (Option.map _) hAt)
  | _ => exact .inl hAt

/-- What the owner of the lock does brings `Wait` nearer to its return. -/
theorem CallerMove.nearer {w : Nat} {pc : WaitPc} (hAt : s.waiter = some (w, pc)) {c : Caller}
    {now : CallPc} (hCall : s.calls c = some now) (hMove : s.CallerMove c now t)
    (hHolds : now.holds = true) (hLock : s.lock = some (.caller c)) :
    t.Started w ∧ t.waitLeft < s.waitLeft := by
  have hHolder := hMove.holderLeft_lt hCall hHolds hLock
  have hAlarm := hMove.alarmLeft_le hHolds w pc
  have hPc := pc.left_mono hMove.done_stays
  obtain hAt' | hAt' := hMove.waits hAt
  · refine ⟨.inl ⟨pc, hAt'⟩, ?_⟩
    rw [waitLeft_eq hAt, waitLeft_eq hAt']
    omega
  · refine ⟨.inl ⟨pc.signal, hAt'⟩, ?_⟩
    have hSame : t.alarmLeft w pc.signal = t.alarmLeft w pc := by simp [alarmLeft]
    rw [waitLeft_eq hAt, waitLeft_eq hAt', hSame, WaitPc.signal_left]
    omega

/-- The timer of a sleeper goes off, and its callback takes the lock. -/
theorem Valid.alarm_nearer (hv : s.Valid) {w : Nat} (hAt : s.waiter = some (w, .parked false))
    (hFree : s.lock = none) (hUnset : s.queue.done = false) (hAlarmed : s.Alarmed w) :
    ∃ a t, s.unaided a ∧ s.step a = .ok t ∧ t.Started w ∧ t.waitLeft < s.waitLeft := by
  have hLeft : s.waitLeft = s.wakeLeft w + 7 := by
    simp [waitLeft, hAt, holderLeft, hFree, alarmLeft, hUnset, WaitPc.looping, WaitPc.left]
  rw [hLeft]
  obtain hDone | hArmed | ⟨pc, hCall, hPc⟩ := hAlarmed
  · rw [hUnset] at hDone
    cases hDone
  · refine ⟨.expire w, _, trivial, if_pos hArmed, .inl ⟨_, hAt⟩, ?_⟩
    simp [waitLeft, calling, hAt, holderLeft, hFree, alarmLeft, hUnset, WaitPc.looping,
      WaitPc.left, wakeLeft, hArmed, CallPc.holds]
  · have hOutside := hv.caller_outside hFree hCall
    have hExpired := hv.callback w pc hCall
    cases pc with
    | lock r =>
      have hStep : s.step (.caller (.callback w)) = .ok
          { s.calling (.callback w) (r.elim .setDone .append) with
            lock := some (.caller (.callback w)) } := by
        simp [QueueThreads.step, callerStep, hCall, hFree]
      refine ⟨.caller (.callback w), _, trivial, hStep, .inl ⟨_, hAt⟩, ?_⟩
      cases r <;> simp [waitLeft, calling, hAt, holderLeft, alarmLeft, hUnset, WaitPc.looping,
        WaitPc.left, wakeLeft, hExpired, hCall, CallPc.holds, CallPc.left]
    | _ => cases hOutside

/-- The owner of the lock goes on, and without an owner `Wait` itself or its timer. -/
theorem wait_nearer (h : Reachable s) {w : Nat} {pc : WaitPc} (hAt : s.waiter = some (w, pc)) :
    ∃ a t, s.unaided a ∧ s.step a = .ok t ∧ t.Started w ∧ t.waitLeft < s.waitLeft := by
  have hv := Run.valid h
  have hWakes := Run.wakes h
  have hWaiter : ∀ t, s.step .waiter = .ok t → t.Started w ∧ t.waitLeft < s.waitLeft := by
    intro t hStep
    cases step_move hStep with
    | waiter hAt' hMove =>
      rw [hAt] at hAt'
      cases hAt'
      exact hMove.nearer hAt fun hParked => hWakes.signalled w (hParked ▸ hAt)
  cases hLock : s.lock with
  | some u =>
    obtain ⟨t, hStep⟩ := hv.owned.next hLock
    refine ⟨u.next, t, unaided_next u, hStep, ?_⟩
    cases u with
    | waiter => exact hWaiter t hStep
    | caller c =>
      cases step_move hStep with
      | caller hCall hMove =>
        exact hMove.nearer hAt hCall ((inside_caller hCall).mp ((hv.owned _).mp hLock)) hLock
  | none =>
    have hOutside := hv.waiter_outside hLock hAt
    cases pc with
    | lock =>
      have hStep : s.step .waiter = .ok { s.waiting w .test with lock := some .waiter } := by
        simp [step, waiterStep, hAt, hLock]
      exact ⟨.waiter, _, trivial, hStep, hWaiter _ hStep⟩
    | parked signalled =>
      cases signalled with
      | true =>
        have hStep : s.step .waiter = .ok (s.waiting w .lock) := by simp [step, waiterStep, hAt]
        exact ⟨.waiter, _, trivial, hStep, hWaiter _ hStep⟩
      | false =>
        have hUnset : s.queue.done = false := by
          by_contra hSet
          have hDone : s.queue.done = true := by simpa using hSet
          cases (Run.awake h).signalled_of_free hv hLock hDone hAt
        exact hv.alarm_nearer hAt hLock hUnset (hWakes.alarmed w _ hAt rfl)
    | _ => cases hOutside

/-! ## The queue does not block -/

/-- A signal is on the way to `Wait` number `w`, or its timer or the callback of that
will send one. -/
def WokenBy (s : QueueThreads) (w : Nat) : Prop :=
  (∃ c, s.calls c = some .signal) ∨ s.timers w = some .armed ∨
    ∃ pc, s.calls (.callback w) = some pc ∧ pc.unset = true

theorem Run.wokenBy (h : Run ok s) {w : Nat} (hAt : s.waiter = some (w, .parked false)) :
    s.WokenBy w :=
  ((Run.wakes h).alarmed w _ hAt rfl).imp_left ((Run.awake h).asleep w hAt)

/-- Every `Wait` and every call that has begun can return without any other call.
Who holds the lock can go on, and a `Wait` that sleeps was signalled and will find
the flag set, or is going to be signalled. -/
structure NeverBlocked (s : QueueThreads) : Prop where
  waits : ∀ w pc, s.waiter = some (w, pc) →
    Leads step unaided (fun t => ∃ out, (w, out) ∈ t.returned) 22 s
  calls : ∀ c pc, s.calls c = some pc → Leads step unaided (fun t => t.calls c = none) 10 s
  owner : ∀ u, s.lock = some u → ∃ t, s.step u.next = .ok t
  signalled : ∀ w, s.waiter = some (w, .parked true) → s.queue.done = true
  sleeper : ∀ w, s.waiter = some (w, .parked false) → s.WokenBy w

theorem never_blocked (h : Reachable s) : s.NeverBlocked := by
  constructor
  · intro w pc hAt
    apply Leads.mono _ s.waitLeft_le
    apply leads_of_variant (I := fun t => Reachable t ∧ t.Started w) waitLeft
    · rintro t ⟨hRun, hStarted⟩ hNot
      obtain ⟨pc', hAt'⟩ := hStarted.resolve_right hNot
      obtain ⟨a, u, hOk, hStep, hNext, hLt⟩ := wait_nearer hRun hAt'
      exact ⟨a, u, hOk, hStep, ⟨.tail hRun trivial hStep, hNext⟩, hLt⟩
    · exact ⟨h, .inl ⟨pc, hAt⟩⟩
  · intro c pc hCall
    apply Leads.mono _ (s.callLeft_le c)
    apply leads_of_variant (I := Reachable) fun t => t.callLeft c
    · intro t hRun hNot
      obtain ⟨a, u, hOk, hStep, hLt⟩ := (Run.valid hRun).call_nearer hNot
      exact ⟨a, u, hOk, hStep, .tail hRun trivial hStep, hLt⟩
    · exact h
  · intro u hLock
    exact (Run.valid h).owned.next hLock
  · exact (Run.wakes h).signalled
  · intro w hAt
    exact Run.wokenBy h hAt

/-- A `Wait` sleeps while a `Done` call waits for the callback that has the lock. -/
def callbackFirst : List QueueAct :=
  [.wait, .waiter, .waiter, .waiter, .waiter, .done 0 ⟨10, some [1], none, 0⟩, .expire 0,
    .caller (.callback 0)]

theorem never_blocked_callbackFirst : ∃ s : QueueThreads, s.waiter = some (0, .parked false) ∧
    s.lock = some (.caller (.callback 0)) ∧ s.NeverBlocked := by
  have hRun := run_after (fun _ _ => True) callbackFirst (by decide +kernel)
  exact ⟨_, by decide +kernel, by decide +kernel, never_blocked hRun⟩

end QueueThreads

end GrpcClient
