import FreeRtosCpp11.Transition.Run
import Mathlib.Logic.Function.Basic

/-! The thread-specific values of `gthr_key.cpp` and `gthr_key_type.h`: one key
for all threads, which maps task handles to pointers. Each section under the
mutex of the key is one step; the registered destructor runs outside of it and
may come back to the key. The heap may give a new task the handle of one that
was reclaimed. A thread may also be deleted before its exit, outside of the
sections: `join` and `detach` through an object whose handle the heap has given
to it do that. A null pointer is `none`. -/
namespace FreeRtos.KeyStore

/-- The way of a thread through `__execute_native_thread_routine`. -/
inductive Phase (Value : Type) where
  | unborn
  /-- `__t->_M_run()`. -/
  | running
  /-- `CallDestructor` has erased the entry and left the mutex. -/
  | erased (val : Option Value)
  /-- `_desFoo(val)` has not returned. -/
  | destructing (val : Value)
  /-- `CallDestructor` has returned. -/
  | exited
  /-- The TCB is freed. -/
  | reclaimed
  deriving DecidableEq, Repr

/-- The TCB of the thread is in use. -/
def Phase.live {Value : Type} : Phase Value → Bool
  | .unborn | .reclaimed => false
  | _ => true

/-- The thread executes user code, which may come to the key. -/
def Phase.inUserCode {Value : Type} : Phase Value → Bool
  | .running | .destructing _ => true
  | _ => false

/-- The value with which the destructor runs. -/
def Phase.argument {Value : Type} : Phase Value → Option Value
  | .destructing val => some val
  | _ => none

structure St (Thread Handle Value : Type) where
  /-- `Key::_specValue`. -/
  specValue : Handle → Option (Option Value)
  phase : Thread → Phase Value
  /-- The thread whose TCB is at the handle. -/
  occupant : Handle → Option Thread

inductive Act (Thread Value : Type) where
  | create (t : Thread)
  | getspecific (t : Thread)
  | setspecific (t : Thread) (ptr : Option Value)
  /-- The section of `CallDestructor` under the mutex. -/
  | callDestructor (t : Thread)
  /-- `if (_desFoo && val) _desFoo(val)`. -/
  | desFoo (t : Thread)
  | desFooReturns (t : Thread)
  | reclaim (t : Thread)
  /-- `vTaskDelete` of a thread that has not ended. -/
  | delete (t : Thread)
  deriving DecidableEq

def Act.thread {Thread Value : Type} : Act Thread Value → Thread
  | .create t | .getspecific t | .setspecific t _ | .callDestructor t
  | .desFoo t | .desFooReturns t | .reclaim t | .delete t => t

variable {Thread Handle Value : Type} [DecidableEq Thread] [DecidableEq Handle]

namespace St

def setPhase (s : St Thread Handle Value) (t : Thread) (phase : Phase Value) : St Thread Handle Value :=
  { s with phase := Function.update s.phase t phase }

omit [DecidableEq Handle] in
@[simp] theorem phase_setPhase (s : St Thread Handle Value) (t : Thread) (phase : Phase Value) :
    (s.setPhase t phase).phase = Function.update s.phase t phase := rfl

/-- The result of `freertos_gthread_getspecific` for the task with the handle. -/
def getspecific (s : St Thread Handle Value) (task : Handle) : Option Value :=
  match s.specValue task with
  | none => none
  | some ptr => ptr

omit [DecidableEq Handle] in
@[simp] theorem getspecific_setPhase (s : St Thread Handle Value) (t : Thread) (phase : Phase Value)
    (task : Handle) : (s.setPhase t phase).getspecific task = s.getspecific task := rfl

/-- `freertos_gthread_setspecific`. -/
def setspecific (s : St Thread Handle Value) (task : Handle) (ptr : Option Value) :
    St Thread Handle Value :=
  { s with specValue := Function.update s.specValue task (if ptr.isSome then some ptr else none) }

omit [DecidableEq Thread] in
@[simp] theorem phase_setspecific (s : St Thread Handle Value) (task : Handle) (ptr : Option Value) :
    (s.setspecific task ptr).phase = s.phase := rfl

/-- `Key::CallDestructor` up to the end of the section. -/
def callDestructor (s : St Thread Handle Value) (t : Thread) (task : Handle) : St Thread Handle Value :=
  match s.specValue task with
  | none => s.setPhase t .exited
  | some val =>
      { s.setPhase t (.erased val) with specValue := Function.update s.specValue task none }

/-- The TCB of the thread goes back to the heap. -/
def free (s : St Thread Handle Value) (t : Thread) (task : Handle) : St Thread Handle Value :=
  { s.setPhase t .reclaimed with occupant := Function.update s.occupant task none }

@[simp] theorem phase_free (s : St Thread Handle Value) (t : Thread) (task : Handle) :
    (s.free t task).phase = Function.update s.phase t .reclaimed := rfl

end St

/-- One atomic step. The handle of a thread is what the heap gives it, and
`desFoo` tells whether a destructor is registered. -/
def next [DecidableEq Value] (handle : Thread → Handle) (desFoo : Bool) (s : St Thread Handle Value) :
    Act Thread Value → Option (St Thread Handle Value)
  | .create t =>
      if s.phase t = .unborn ∧ s.occupant (handle t) = none then
        some { s.setPhase t .running with occupant := Function.update s.occupant (handle t) (some t) }
      else none
  | .getspecific t => if (s.phase t).inUserCode then some s else none
  | .setspecific t ptr =>
      if (s.phase t).inUserCode then some (s.setspecific (handle t) ptr) else none
  | .callDestructor t =>
      if s.phase t = .running then some (s.callDestructor t (handle t)) else none
  | .desFoo t => match s.phase t with
      | .erased (some val) => some (s.setPhase t (if desFoo then .destructing val else .exited))
      | .erased none => some (s.setPhase t .exited)
      | _ => none
  | .desFooReturns t => match s.phase t with
      | .destructing _ => some (s.setPhase t .exited)
      | _ => none
  | .reclaim t => if s.phase t = .exited then some (s.free t (handle t)) else none
  | .delete t => if (s.phase t).live then some (s.free t (handle t)) else none

/-- The key has been created and no thread yet. -/
structure Start (s : St Thread Handle Value) : Prop where
  specValue : ∀ h, s.specValue h = none
  phase : ∀ t, s.phase t = .unborn
  occupant : ∀ h, s.occupant h = none

def system [DecidableEq Value] (handle : Thread → Handle) (desFoo : Bool) :
    Transition.System (St Thread Handle Value) (Act Thread Value) where
  start := Start
  next := next handle desFoo

def St.initial : St Thread Handle Value where
  specValue _ := none
  phase _ := .unborn
  occupant _ := none

omit [DecidableEq Thread] [DecidableEq Handle] in
theorem St.initial_start : Start (St.initial : St Thread Handle Value) :=
  ⟨fun _ => rfl, fun _ => rfl, fun _ => rfl⟩

abbrev History (Thread Handle Value : Type) := Transition.Trace (St Thread Handle Value) (Act Thread Value)

/-- What a step does. -/
inductive Step (handle : Thread → Handle) (desFoo : Bool) (s : St Thread Handle Value) :
    Act Thread Value → St Thread Handle Value → Prop where
  | create (t : Thread) (hUnborn : s.phase t = .unborn) (hFree : s.occupant (handle t) = none) :
      Step handle desFoo s (.create t)
        { s.setPhase t .running with occupant := Function.update s.occupant (handle t) (some t) }
  | getspecific (t : Thread) (hUser : (s.phase t).inUserCode = true) :
      Step handle desFoo s (.getspecific t) s
  | setspecific (t : Thread) (ptr : Option Value) (hUser : (s.phase t).inUserCode = true) :
      Step handle desFoo s (.setspecific t ptr) (s.setspecific (handle t) ptr)
  | absent (t : Thread) (hRunning : s.phase t = .running) (hFind : s.specValue (handle t) = none) :
      Step handle desFoo s (.callDestructor t) (s.setPhase t .exited)
  | erase (t : Thread) (val : Option Value) (hRunning : s.phase t = .running)
      (hFind : s.specValue (handle t) = some val) :
      Step handle desFoo s (.callDestructor t)
        { s.setPhase t (.erased val) with specValue := Function.update s.specValue (handle t) none }
  | invoke (t : Thread) (v : Value) (hErased : s.phase t = .erased (some v)) (hDesFoo : desFoo = true) :
      Step handle desFoo s (.desFoo t) (s.setPhase t (.destructing v))
  | skip (t : Thread) (val : Option Value) (hErased : s.phase t = .erased val)
      (hNull : (desFoo && val.isSome) = false) : Step handle desFoo s (.desFoo t) (s.setPhase t .exited)
  | desFooReturns (t : Thread) (v : Value) (hDestructing : s.phase t = .destructing v) :
      Step handle desFoo s (.desFooReturns t) (s.setPhase t .exited)
  | reclaim (t : Thread) (hExited : s.phase t = .exited) :
      Step handle desFoo s (.reclaim t) (s.free t (handle t))
  | delete (t : Thread) (hLive : (s.phase t).live = true) :
      Step handle desFoo s (.delete t) (s.free t (handle t))

variable {handle : Thread → Handle} {desFoo : Bool} {s s' : St Thread Handle Value} {a : Act Thread Value}

theorem step_of_next [DecidableEq Value] (hNext : next handle desFoo s a = some s') : Step handle desFoo s a s' := by
  cases a with
  | create t =>
      simp only [next, Option.ite_none_right_eq_some, Option.some.injEq] at hNext
      obtain ⟨⟨hUnborn, hFree⟩, rfl⟩ := hNext
      exact .create t hUnborn hFree
  | getspecific t =>
      simp only [next, Option.ite_none_right_eq_some, Option.some.injEq] at hNext
      obtain ⟨hUser, rfl⟩ := hNext
      exact .getspecific t hUser
  | setspecific t ptr =>
      simp only [next, Option.ite_none_right_eq_some, Option.some.injEq] at hNext
      obtain ⟨hUser, rfl⟩ := hNext
      exact .setspecific t ptr hUser
  | callDestructor t =>
      simp only [next, Option.ite_none_right_eq_some, Option.some.injEq] at hNext
      obtain ⟨hRunning, rfl⟩ := hNext
      cases hFind : s.specValue (handle t) with
      | none => simpa [St.callDestructor, hFind] using .absent t hRunning hFind
      | some val => simpa [St.callDestructor, hFind] using .erase t val hRunning hFind
  | desFoo t =>
      cases hPhase : s.phase t with
      | erased val =>
          cases val with
          | none =>
              simp only [next, hPhase, Option.some.injEq] at hNext
              subst hNext
              exact .skip t none hPhase (by simp)
          | some v =>
              simp only [next, hPhase, Option.some.injEq] at hNext
              subst hNext
              cases desFoo with
              | true => exact .invoke t v hPhase rfl
              | false => exact .skip t (some v) hPhase rfl
      | _ => simp [next, hPhase] at hNext
  | desFooReturns t =>
      cases hPhase : s.phase t with
      | destructing v =>
          simp only [next, hPhase, Option.some.injEq] at hNext
          subst hNext
          exact .desFooReturns t v hPhase
      | _ => simp [next, hPhase] at hNext
  | reclaim t =>
      simp only [next, Option.ite_none_right_eq_some, Option.some.injEq] at hNext
      obtain ⟨hExited, rfl⟩ := hNext
      exact .reclaim t hExited
  | delete t =>
      simp only [next, Option.ite_none_right_eq_some, Option.some.injEq] at hNext
      obtain ⟨hLive, rfl⟩ := hNext
      exact .delete t hLive

end FreeRtos.KeyStore
