import FreeRtosCpp11.Transition.Run
import Mathlib.Algebra.Group.Nat.Defs
import Mathlib.Logic.Function.Basic
import Mathlib.Tactic.Simps.Basic

/-! The condition variable of `gthr-default.h` over direct-to-task
notifications. Tasks, condition variables and mutexes are arbitrary types, so
nothing bounds their number. Each kernel call, each operation on a list under
its semaphore and each mutex operation is one step of one task; any task may
take the next step. Only the condition variables use the notifications. -/
namespace FreeRtos.CondVar

/-- `portMAX_DELAY` of the 32-bit tick type: block without a time limit. -/
def portMaxDelay : Nat := 2 ^ 32 - 1

/-- The values of `ucNotifyState`. -/
inductive NotifyState where
  | notWaiting
  | waiting
  | received
  deriving DecidableEq, Repr

/-- The notification fields of a TCB; `prvInitialiseNewTask` zeroes them. The
count is a 32-bit word: in the runs that the theorems speak of it is 0 or 1. -/
structure Notification where
  ulNotifiedValue : Nat := 0
  ucNotifyState : NotifyState := .notWaiting
  deriving DecidableEq, Repr

/-- First critical section of `ulTaskGenericNotifyTake`: announce the wait
when no notification is pending. -/
def Notification.announce (n : Notification) : Notification :=
  if n.ulNotifiedValue = 0 then { n with ucNotifyState := .waiting } else n

/-- Second critical section of `ulTaskGenericNotifyTake` with
`xClearCountOnExit = pdTRUE`: the value read is cleared. -/
def Notification.clear (n : Notification) : Notification :=
  { n with
    ulNotifiedValue := if n.ulNotifiedValue ≠ 0 then 0 else n.ulNotifiedValue
    ucNotifyState := .notWaiting }

/-- `xTaskNotifyGive`, that is `xTaskGenericNotify` with `eIncrement`. The task
leaves the Blocked state because `ucNotifyState` is no longer `waiting`. -/
def Notification.give (n : Notification) : Notification :=
  { ulNotifiedValue := n.ulNotifiedValue + 1, ucNotifyState := .received }

/-- The arguments of one call of `__gthread_cond_wait` (`timed = false`, and
`ticks` is `portMAX_DELAY`) or `__gthread_cond_timedwait` (`ticks` is the
`pdMS_TO_TICKS` of the remaining time). -/
structure Wait (Cond Mutex : Type) where
  timed : Bool
  cond : Cond
  mutex : Mutex
  ticks : Nat
  deriving DecidableEq

/-- The next statement of a task inside the condition variable functions. -/
inductive Pc (Task Cond Mutex : Type) where
  /-- Outside these functions. -/
  | idle
  /-- `cond->lock()` before the push. -/
  | waitLock (w : Wait Cond Mutex)
  /-- `cond->push(native_task_handle())`. -/
  | push (w : Wait Cond Mutex)
  /-- `cond->unlock()` after the push. -/
  | waitUnlock (w : Wait Cond Mutex)
  /-- `__gthread_mutex_unlock(mutex)`. -/
  | mutexUnlock (w : Wait Cond Mutex)
  /-- `ulTaskNotifyTake`, first critical section. -/
  | take (w : Wait Cond Mutex)
  /-- `ulTaskNotifyTake`, in the Blocked state. -/
  | blocked (w : Wait Cond Mutex)
  /-- `ulTaskNotifyTake`, second critical section. -/
  | takeRead (w : Wait Cond Mutex)
  /-- `__gthread_mutex_lock(mutex)`, with the value of `fTimeout`. -/
  | mutexLock (w : Wait Cond Mutex) (fTimeout : Bool)
  /-- `cond->lock()` of the timeout branch. -/
  | removeLock (w : Wait Cond Mutex)
  /-- `cond->remove(this_thrd_hndl)`. -/
  | remove (w : Wait Cond Mutex)
  /-- `cond->unlock()` of the timeout branch, then `return 138`. -/
  | removeUnlock (w : Wait Cond Mutex)
  /-- `cond->lock()` of signal (`all = false`) or broadcast (`all = true`). -/
  | notifyLock (all : Bool) (c : Cond)
  /-- `!cond->empty()`, and when it holds `front` and `pop`. -/
  | pop (all : Bool) (c : Cond)
  /-- `xTaskNotifyGive(t)` for the popped handle. -/
  | give (all : Bool) (c : Cond) (t : Task)
  /-- `cond->unlock()` of signal or broadcast. -/
  | notifyUnlock (all : Bool) (c : Cond)
  deriving DecidableEq

structure St (Task Cond Mutex : Type) where
  /-- The handle belongs to a task that has not been deleted. -/
  live : Task → Bool
  pc : Task → Pc Task Cond Mutex
  note : Task → Notification
  /-- `cv_task_list::_que`. -/
  que : Cond → List Task
  /-- The task between `lock` and `unlock` of `cv_task_list::_sem`. -/
  sem : Cond → Option Task
  /-- The holder of a mutex. -/
  mtx : Mutex → Option Task

inductive Act (Task Cond Mutex : Type) where
  /-- `xTaskCreate` answers this handle. -/
  | create (t : Task)
  /-- The task deletes itself at the end of its function. -/
  | exit (t : Task)
  /-- `vTaskDelete` on the task, at whatever statement it is. -/
  | delete (t : Task)
  | lock (t : Task) (m : Mutex)
  | unlock (t : Task) (m : Mutex)
  | wait (t : Task) (c : Cond) (m : Mutex)
  | timedwait (t : Task) (c : Cond) (m : Mutex) (ticks : Nat)
  | signal (t : Task) (c : Cond)
  | broadcast (t : Task) (c : Cond)
  /-- The task executes its next statement. -/
  | step (t : Task)
  /-- The block time of the task's notification wait runs out. -/
  | expire (t : Task)
  deriving DecidableEq

variable {Task Cond Mutex : Type} [DecidableEq Task] [DecidableEq Cond] [DecidableEq Mutex]

namespace St

@[simps -fullyApplied] def setPc (s : St Task Cond Mutex) (t : Task) (pc : Pc Task Cond Mutex) : St Task Cond Mutex :=
  { s with pc := Function.update s.pc t pc }

@[simps -fullyApplied] def setNote (s : St Task Cond Mutex) (t : Task) (n : Notification) : St Task Cond Mutex :=
  { s with note := Function.update s.note t n }

@[simps -fullyApplied] def setQue (s : St Task Cond Mutex) (c : Cond) (q : List Task) : St Task Cond Mutex :=
  { s with que := Function.update s.que c q }

@[simps -fullyApplied] def setSem (s : St Task Cond Mutex) (c : Cond) (holder : Option Task) : St Task Cond Mutex :=
  { s with sem := Function.update s.sem c holder }

@[simps -fullyApplied] def setMtx (s : St Task Cond Mutex) (m : Mutex) (holder : Option Task) : St Task Cond Mutex :=
  { s with mtx := Function.update s.mtx m holder }

end St

/-- A live task outside the functions may enter one of them or use a mutex. -/
def ready (s : St Task Cond Mutex) (t : Task) : Bool :=
  s.live t && s.pc t == .idle

/-- The next statement of a task; `none` while it cannot proceed. -/
def advance (s : St Task Cond Mutex) (t : Task) : Option (St Task Cond Mutex) :=
  match s.pc t with
  | .idle => none
  | .waitLock w =>
      if s.sem w.cond = none then some ((s.setSem w.cond (some t)).setPc t (.push w)) else none
  | .push w => some ((s.setQue w.cond (s.que w.cond ++ [t])).setPc t (.waitUnlock w))
  | .waitUnlock w => some ((s.setSem w.cond none).setPc t (.mutexUnlock w))
  | .mutexUnlock w =>
      if s.mtx w.mutex = some t then some ((s.setMtx w.mutex none).setPc t (.take w)) else none
  | .take w =>
      -- only block if the count is zero, and only for a block time other than zero
      some ((s.setNote t (s.note t).announce).setPc t
        (if (s.note t).ulNotifiedValue = 0 ∧ 0 < w.ticks then .blocked w else .takeRead w))
  | .blocked w =>
      if (s.note t).ucNotifyState = .waiting then none else some (s.setPc t (.takeRead w))
  | .takeRead w =>
      some ((s.setNote t (s.note t).clear).setPc t
        (.mutexLock w (w.timed && (s.note t).ulNotifiedValue == 0)))
  | .mutexLock w fTimeout =>
      if s.mtx w.mutex = none then
        some ((s.setMtx w.mutex (some t)).setPc t (if fTimeout then .removeLock w else .idle))
      else none
  | .removeLock w =>
      if s.sem w.cond = none then some ((s.setSem w.cond (some t)).setPc t (.remove w)) else none
  | .remove w =>
      some ((s.setQue w.cond ((s.que w.cond).filter (· ≠ t))).setPc t (.removeUnlock w))
  | .removeUnlock w => some ((s.setSem w.cond none).setPc t .idle)
  | .notifyLock all c =>
      if s.sem c = none then some ((s.setSem c (some t)).setPc t (.pop all c)) else none
  | .pop all c =>
      match s.que c with
      | [] => some (s.setPc t (.notifyUnlock all c))
      | front :: rest => some ((s.setQue c rest).setPc t (.give all c front))
  | .give all c front =>
      -- `if` for signal, `while` for broadcast
      some ((s.setNote front (s.note front).give).setPc t
        (if all then .pop all c else .notifyUnlock all c))
  | .notifyUnlock _ c => some ((s.setSem c none).setPc t .idle)

/-- One atomic step of the system. The mutex is taken before a wait is entered.
A deleted task executes no further statement; what it holds stays taken and its
entries stay where they are, only its TCB is given back. -/
def next (s : St Task Cond Mutex) : Act Task Cond Mutex → Option (St Task Cond Mutex)
  | .create t =>
      if s.live t then none
      else some { s with live := Function.update s.live t true
                         note := Function.update s.note t {} }
  | .exit t =>
      if ready s t then some { s with live := Function.update s.live t false } else none
  | .delete t =>
      if s.live t then
        some { (s.setNote t {}).setPc t .idle with live := Function.update s.live t false }
      else none
  | .lock t m =>
      if ready s t ∧ s.mtx m = none then some (s.setMtx m (some t)) else none
  | .unlock t m =>
      if ready s t ∧ s.mtx m = some t then some (s.setMtx m none) else none
  | .wait t c m =>
      if ready s t ∧ s.mtx m = some t then
        some (s.setPc t (.waitLock ⟨false, c, m, portMaxDelay⟩))
      else none
  | .timedwait t c m ticks =>
      if ready s t ∧ s.mtx m = some t then some (s.setPc t (.waitLock ⟨true, c, m, ticks⟩))
      else none
  | .signal t c => if ready s t then some (s.setPc t (.notifyLock false c)) else none
  | .broadcast t c => if ready s t then some (s.setPc t (.notifyLock true c)) else none
  | .step t => advance s t
  | .expire t => match s.pc t with
      | .blocked w => if w.ticks = portMaxDelay then none else some (s.setPc t (.takeRead w))
      | _ => none

/-- No task is inside the functions, no list has an entry, no lock is taken
and no notification is pending. -/
structure Start (s : St Task Cond Mutex) : Prop where
  pc : ∀ t, s.pc t = .idle
  note : ∀ t, s.note t = {}
  que : ∀ c, s.que c = []
  sem : ∀ c, s.sem c = none
  mtx : ∀ m, s.mtx m = none

def system (Task Cond Mutex : Type) [DecidableEq Task] [DecidableEq Cond] [DecidableEq Mutex] :
    Transition.System (St Task Cond Mutex) (Act Task Cond Mutex) where
  start := Start
  next := next

/-- A start state with the given live tasks. -/
def boot (live : Task → Bool) : St Task Cond Mutex where
  live := live
  pc := fun _ => .idle
  note := fun _ => {}
  que := fun _ => []
  sem := fun _ => none
  mtx := fun _ => none

omit [DecidableEq Task] [DecidableEq Cond] [DecidableEq Mutex] in
theorem boot_start (live : Task → Bool) : Start (boot live : St Task Cond Mutex) where
  pc := fun _ => rfl
  note := fun _ => rfl
  que := fun _ => rfl
  sem := fun _ => rfl
  mtx := fun _ => rfl

end FreeRtos.CondVar
