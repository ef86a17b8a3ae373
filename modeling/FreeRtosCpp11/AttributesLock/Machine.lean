import FreeRtosCpp11.Thread.Machine

/-! Task attributes of `thread_gthread.h` and `thread_with_attributes.h`.
`create_thread` reads them through one global pointer, which an `attributes_lock`
sets to the object it is given and resets at its destruction. Both are critical
sections; what a task may do while another one is in its critical section
depends on the port. The object belongs to the caller and may end before the
lock does, as the temporary of `lock{{.stackWordCount = 4096U}}` ends with that
declaration; what is in its place afterwards is anybody's. -/
namespace FreeRtos.AttributesLock

open Thread (Port)

/-- `free_rtos_std::attributes`. -/
structure Attributes where
  taskName : String
  stackWordCount : Nat
  priority : Nat
  deriving DecidableEq, Repr

structure Config where
  port : Port
  /-- `configMAX_PRIORITIES`. -/
  maxPriorities : Nat
  /-- `configDEFAULT_STD_THREAD_STACK_SIZE`. -/
  defaultStackSize : Option Nat

/-- `attributes_lock::_default`; `tskIDLE_PRIORITY` is 0. -/
def Config.default (c : Config) : Attributes where
  taskName := "Task"
  stackWordCount := c.defaultStackSize.getD 512
  priority := 0 + 1

/-- The priority that `prvInitialiseNewTask` gives to a task. -/
def Config.uxPriority (c : Config) (attr : Attributes) : Nat :=
  if c.maxPriorities ≤ attr.priority then c.maxPriorities - 1 else attr.priority

/-- The lifetime of an `attributes` object. -/
inductive Life where
  | before
  | during
  | over
  deriving DecidableEq, Repr

structure St (Task Obj : Type) where
  /-- `attributes_lock::_attrib`; `none` is the address of `_default`. -/
  attrib : Option Obj
  /-- What is in the memory of an `attributes` object, or where it was. -/
  memory : Obj → Attributes
  life : Obj → Life
  /-- The value of the object, the last one that it had in its lifetime. -/
  value : Obj → Attributes
  /-- The objects given to the locks alive in each task, the innermost one first. -/
  locks : Task → List Obj
  /-- The task is in the critical section of `create_thread`. -/
  creating : Task → Bool
  /-- What each existing task was created with. -/
  tcb : Task → Option Attributes
  /-- `pxCurrentTCB`; nobody runs after `std::terminate`. -/
  running : Option Task

inductive Act (Task Obj : Type) where
  /-- The construction of an `attributes` object. -/
  | init (t : Task) (o : Obj) (attr : Attributes)
  /-- An assignment to the object; after its lifetime, whatever else the memory is used for. -/
  | write (t : Task) (o : Obj) (attr : Attributes)
  /-- The end of the lifetime of the object. -/
  | finish (t : Task) (o : Obj)
  /-- The constructor of `attributes_lock`. -/
  | lock (t : Task) (o : Obj)
  /-- The destructor of the innermost `attributes_lock` of the task. -/
  | unlock (t : Task)
  /-- `create_thread` up to `xTaskCreate`, which may fail. -/
  | create (t : Task) (new : Option Task)
  /-- The end of the critical section of `create_thread`. -/
  | created (t : Task)
  /-- The kernel switches to another task. -/
  | switch (t u : Task)
  deriving DecidableEq

variable {Task Obj : Type} [DecidableEq Task] [DecidableEq Obj]

namespace St

/-- The task has entered a critical section and not left it. -/
def critical (s : St Task Obj) (t : Task) : Bool := s.creating t || !(s.locks t).isEmpty

/-- The task executes code outside of `create_thread`. -/
def runs (s : St Task Obj) (t : Task) : Bool := s.running == some t && !s.creating t

def write (s : St Task Obj) (o : Obj) (attr : Attributes) : St Task Obj :=
  { s with
    memory := Function.update s.memory o attr
    value := if s.life o = .during then Function.update s.value o attr else s.value }

/-- `attributes_lock(const attributes &attrib)`. -/
def lock (s : St Task Obj) (t : Task) (o : Obj) : St Task Obj :=
  { s with attrib := some o, locks := Function.update s.locks t (o :: s.locks t) }

/-- `~attributes_lock()`. -/
def unlock (s : St Task Obj) (t : Task) : St Task Obj :=
  { s with attrib := none, locks := Function.update s.locks t (s.locks t).tail }

/-- `*internal::attributes_lock::_attrib`. -/
def attr (c : Config) (s : St Task Obj) : Attributes := s.attrib.elim c.default s.memory

/-- `xTaskCreate` of a new task. `prvAddNewTaskToReadyList` yields to a task of
higher priority, and a synchronous port switches in spite of the critical section. -/
def xTaskCreate (c : Config) (s : St Task Obj) (t u : Task) (attr : Attributes) : St Task Obj :=
  { s with
    creating := Function.update s.creating t true
    tcb := Function.update s.tcb u (some attr)
    running :=
      if c.port = .synchronous ∧ (s.tcb t).any (fun own => c.uxPriority own < c.uxPriority attr) then some u
      else some t }

end St

/-- The attributes that `create_thread` passes to `xTaskCreate`. -/
def passes (c : Config) (s : St Task Obj) : Act Task Obj → Option (Task × Attributes)
  | .create t _ => some (t, s.attr c)
  | _ => none

/-- One atomic step. -/
def next (c : Config) (s : St Task Obj) : Act Task Obj → Option (St Task Obj)
  | .init t o attr =>
      if s.runs t ∧ s.life o = .before then
        some { s with
          memory := Function.update s.memory o attr
          value := Function.update s.value o attr
          life := Function.update s.life o .during }
      else none
  | .write t o attr => if s.runs t ∧ s.life o ≠ .before then some (s.write o attr) else none
  | .finish t o =>
      if s.runs t ∧ s.life o = .during then some { s with life := Function.update s.life o .over } else none
  | .lock t o => if s.runs t ∧ s.life o = .during then some (s.lock t o) else none
  | .unlock t => if s.runs t ∧ s.locks t ≠ [] then some (s.unlock t) else none
  | .create t none => if s.runs t then some { s with running := none } else none
  | .create t (some u) =>
      if s.runs t ∧ s.tcb u = none then some (s.xTaskCreate c t u (s.attr c)) else none
  | .created t =>
      if s.running = some t ∧ s.creating t then
        some { s with creating := Function.update s.creating t false }
      else none
  | .switch t u =>
      -- inside a critical section only a task's own yield switches, and only where the trap does
      if s.running = some t ∧ (s.tcb u).isSome ∧
          (s.critical t = false ∨ (c.port = .synchronous ∧ s.creating t = false)) then
        some { s with running := some u }
      else none

structure Start (s : St Task Obj) : Prop where
  attrib : s.attrib = none
  life : ∀ o, s.life o = .before
  locks : ∀ t, s.locks t = []
  creating : ∀ t, s.creating t = false

def system (Task Obj : Type) [DecidableEq Task] [DecidableEq Obj] (c : Config) :
    Transition.System (St Task Obj) (Act Task Obj) where
  start := Start
  next := next c

abbrev History (Task Obj : Type) := Transition.Trace (St Task Obj) (Act Task Obj)

/-- The attributes meant for a thread that the task creates. -/
def St.innermost (c : Config) (s : St Task Obj) (t : Task) : Attributes :=
  (s.locks t).head?.elim c.default s.value

/-- What a step does. -/
inductive Step (c : Config) (s : St Task Obj) : Act Task Obj → St Task Obj → Prop where
  | init (t : Task) (o : Obj) (attr : Attributes) (hRuns : s.runs t = true) (hBefore : s.life o = .before) :
      Step c s (.init t o attr)
        { s with
          memory := Function.update s.memory o attr
          value := Function.update s.value o attr
          life := Function.update s.life o .during }
  | write (t : Task) (o : Obj) (attr : Attributes) (hRuns : s.runs t = true) (hLife : s.life o ≠ .before) :
      Step c s (.write t o attr) (s.write o attr)
  | finish (t : Task) (o : Obj) (hRuns : s.runs t = true) (hDuring : s.life o = .during) :
      Step c s (.finish t o) { s with life := Function.update s.life o .over }
  | lock (t : Task) (o : Obj) (hRuns : s.runs t = true) (hDuring : s.life o = .during) :
      Step c s (.lock t o) (s.lock t o)
  | unlock (t : Task) (hRuns : s.runs t = true) (hHeld : s.locks t ≠ []) :
      Step c s (.unlock t) (s.unlock t)
  | terminate (t : Task) (hRuns : s.runs t = true) : Step c s (.create t none) { s with running := none }
  | create (t u : Task) (hRuns : s.runs t = true) (hNew : s.tcb u = none) :
      Step c s (.create t (some u)) (s.xTaskCreate c t u (s.attr c))
  | created (t : Task) (hRunning : s.running = some t) (hCreating : s.creating t = true) :
      Step c s (.created t) { s with creating := Function.update s.creating t false }
  | switch (t u : Task) (hRunning : s.running = some t)
      (hYield : s.critical t = false ∨ (c.port = .synchronous ∧ s.creating t = false)) :
      Step c s (.switch t u) { s with running := some u }

theorem step_of_next {c : Config} {s s' : St Task Obj} {a : Act Task Obj} (hNext : next c s a = some s') :
    Step c s a s' := by
  cases a with
  | init t o attr =>
      simp only [next, Option.ite_none_right_eq_some, Option.some.injEq] at hNext
      obtain ⟨⟨hRuns, hBefore⟩, rfl⟩ := hNext
      exact .init t o attr hRuns hBefore
  | write t o attr =>
      simp only [next, Option.ite_none_right_eq_some, Option.some.injEq] at hNext
      obtain ⟨⟨hRuns, hLife⟩, rfl⟩ := hNext
      exact .write t o attr hRuns hLife
  | finish t o =>
      simp only [next, Option.ite_none_right_eq_some, Option.some.injEq] at hNext
      obtain ⟨⟨hRuns, hDuring⟩, rfl⟩ := hNext
      exact .finish t o hRuns hDuring
  | lock t o =>
      simp only [next, Option.ite_none_right_eq_some, Option.some.injEq] at hNext
      obtain ⟨⟨hRuns, hDuring⟩, rfl⟩ := hNext
      exact .lock t o hRuns hDuring
  | unlock t =>
      simp only [next, Option.ite_none_right_eq_some, Option.some.injEq] at hNext
      obtain ⟨⟨hRuns, hHeld⟩, rfl⟩ := hNext
      exact .unlock t hRuns hHeld
  | create t new =>
      cases new with
      | none =>
          simp only [next, Option.ite_none_right_eq_some, Option.some.injEq] at hNext
          obtain ⟨hRuns, rfl⟩ := hNext
          exact .terminate t hRuns
      | some u =>
          simp only [next, Option.ite_none_right_eq_some, Option.some.injEq] at hNext
          obtain ⟨⟨hRuns, hNew⟩, rfl⟩ := hNext
          exact .create t u hRuns hNew
  | created t =>
      simp only [next, Option.ite_none_right_eq_some, Option.some.injEq] at hNext
      obtain ⟨⟨hRunning, hCreating⟩, rfl⟩ := hNext
      exact .created t hRunning hCreating
  | switch t u =>
      simp only [next, Option.ite_none_right_eq_some, Option.some.injEq] at hNext
      obtain ⟨⟨hRunning, _, hYield⟩, rfl⟩ := hNext
      exact .switch t u hRunning hYield

end FreeRtos.AttributesLock
