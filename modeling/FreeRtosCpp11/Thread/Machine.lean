import FreeRtosCpp11.Transition.Run
import Mathlib.Logic.Function.Basic

/-! `std::thread` of `thread.cpp` over `gthr_freertos`. The `n`-th construction
names its event group, its `_State` and its task `n`; a task keeps this number
for ever, while the memory of its TCB, and with it the `TaskHandle_t`, may be
given to a later task, or to something that is no task. Kernel calls and critical sections are single steps,
except that `xTaskCreate` may switch to the new task in the middle of the
critical section of `create_thread`. Any task may take the next step. -/
namespace FreeRtos.Thread

/-- What `portYIELD` does inside a critical section: the SWI and `ecall` traps
switch at once, the Cortex-M ports pend the switch. -/
inductive Port where
  | synchronous
  | deferred
  deriving DecidableEq

/-- `gthr_freertos`; `none` is `nullptr`. -/
structure Gthr (Handle : Type) where
  taskHandle : Option Handle := none
  evHandle : Option Nat := none
  arg : Option Nat := none
  fOwner : Bool := false
  deriving DecidableEq

/-- The objects of type `gthr_freertos` that are not copies: the one inside a
`std::thread`, and the local object of a task (`tmp` of `std::swap`, or
`invalid` of join and detach). -/
inductive Loc (Addr : Type) where
  | obj (a : Addr)
  | tmp (t : Nat)
  deriving DecidableEq

/-- `deleted` tasks wait for the idle task with their TCB still allocated. -/
inductive Life where
  | unborn
  | alive
  | deleted
  | reclaimed
  deriving DecidableEq

/-- The next statement of `__execute_native_thread_routine`, by what was done
last. A task that existed at the start is always at `user`. -/
inductive Phase where
  | user
  | entry
  | copied
  | started
  | running
  | returned
  | destroyed
  | keyDtor
  | keyed
  | exited
  deriving DecidableEq

/-- The moves of `std::swap(a, b)`: `tmp = move(a)`, `a = move(b)`, `b = move(tmp)`. -/
inductive Leg where
  | save
  | copy
  | restore
  deriving DecidableEq

/-- The next statement of a move: the first critical section, the wait for the
start of the source's thread, or the second critical section. -/
inductive Stage where
  | check
  | wait
  | move
  deriving DecidableEq

/-- The next statement of a task inside an operation on `std::thread` objects. -/
inductive Op (Addr : Type) where
  | idle
  | create (a : Addr) (k prio : Nat)
  | storeTls (a : Addr) (k : Nat)
  | release (a : Addr) (k : Nat) (err : Nat)
  | joinWait (a : Addr)
  | joinReset (a : Addr)
  | detachWait (a : Addr)
  | detachCrit (a : Addr)
  | detachReset (a : Addr)
  | swap (a b : Addr) (leg : Leg) (stage : Stage)
  deriving DecidableEq

structure St (Handle Addr : Type) where
  life : Nat → Life
  /-- The value that `xTaskCreate` stored for the task. -/
  handle : Nat → Option Handle
  priority : Nat → Nat
  /-- The thread-local slot `eEvStoragePos`. -/
  tls : Nat → Option Nat
  /-- The object whose address was passed to `xTaskCreate`. -/
  param : Nat → Addr
  /-- The task that called `xTaskCreate`. -/
  maker : Nat → Nat
  phase : Nat → Phase
  /-- The variable `local` of the task. -/
  copy : Nat → Gthr Handle
  op : Nat → Op Addr
  /-- The task whose TCB is allocated at the address. -/
  occupant : Handle → Option Nat
  /-- What is at an address without a TCB is taken by `eTaskGetState` for a task
  that is not deleted. The list pointer of a TCB that was freed is null, so this
  comes with the next use of its memory, as the stack of a task for one. -/
  foreign : Handle → Bool
  /-- Calls of `vTaskDelete` and `vTaskSetThreadLocalStoragePointer` on memory
  without a TCB. What they overwrite there is not followed any further. -/
  stray : Nat
  hnd : Loc Addr → Gthr Handle
  /-- The task that uses the object. -/
  busy : Addr → Option Nat
  eStartedEv : Nat → Bool
  eJoinEv : Nat → Bool
  /-- Calls of `vEventGroupDelete` on the group. -/
  deletes : Nat → Nat
  /-- Who ran and who destroyed a `_State`. -/
  runs : Nat → List Nat
  destroys : Nat → List Nat
  /-- The task inside the critical section of `create_thread`. -/
  crit : Option Nat
  /-- `s_key` is set. -/
  sKey : Bool
  /-- The number of the next construction. -/
  next : Nat
  terminated : Bool

inductive Act (Handle Addr : Type) where
  | construct (t : Nat) (a : Addr) (prio : Nat)
  /-- `xTaskCreate` answers this handle. -/
  | create (t : Nat) (h : Handle)
  | join (t : Nat) (a : Addr)
  | detach (t : Nat) (a : Addr)
  /-- Also the move constructor, which swaps with a new object. -/
  | swap (t : Nat) (a b : Addr)
  | moveAssign (t : Nat) (a b : Addr)
  | setKey (t : Nat) (created : Bool)
  /-- `xEventGroupCreate` or `xTaskCreate` fails. -/
  | allocationFails (t : Nat)
  /-- The task executes its next statement. -/
  | step (t : Nat)
  /-- `prvCheckTasksWaitingTermination` frees the TCB. -/
  | reclaim (j : Nat)
  /-- Memory without a TCB is given to something else, which fills it. -/
  | reuse (h : Handle) (foreign : Bool)
  deriving DecidableEq

variable {Handle Addr : Type} [DecidableEq Handle] [DecidableEq Addr]

namespace St

/-- The task can take a step. -/
def runnable (s : St Handle Addr) (t : Nat) : Bool :=
  !s.terminated && s.life t == .alive && (s.crit.isNone || s.crit == some t)

/-- The task executes user code, which may call into `std::thread`. -/
def inUserCode (s : St Handle Addr) (t : Nat) : Bool :=
  s.runnable t && s.op t == .idle &&
    (s.phase t == .user || s.phase t == .running || s.phase t == .keyDtor)

/-- `joinable()`: the handle differs from that of a default `id`. -/
def joinable (s : St Handle Addr) (a : Addr) : Bool := (s.hnd (.obj a)).taskHandle.isSome

/-- `eTaskGetState` answers `eDeleted`. -/
def eDeleted (s : St Handle Addr) (h : Option Handle) : Bool :=
  match h.bind s.occupant with
  | some j => s.life j == .deleted
  | none => !h.any s.foreign

def setOp (s : St Handle Addr) (t : Nat) (op : Op Addr) : St Handle Addr :=
  { s with op := Function.update s.op t op }

def setPhase (s : St Handle Addr) (k : Nat) (phase : Phase) : St Handle Addr :=
  { s with phase := Function.update s.phase k phase }

/-- `move(gthr_freertos &&r)`. -/
def move (s : St Handle Addr) (dst src : Loc Addr) : St Handle Addr :=
  { s with hnd := Function.update (Function.update s.hnd dst (s.hnd src)) src {} }

/-- `vEventGroupDelete`, when the handle is not null. -/
def deleteGroup (s : St Handle Addr) (g : Option Nat) : St Handle Addr :=
  { s with deletes := fun e => if g = some e then s.deletes e + 1 else s.deletes e }

/-- `vTaskDelete(nullptr)`: the idle task frees the TCB later. -/
def deleteSelf (s : St Handle Addr) (t : Nat) : St Handle Addr :=
  { s with life := Function.update s.life t .deleted }

/-- `vTaskDelete` of another task, whose TCB is freed at once. -/
def deleteOther (s : St Handle Addr) (h : Option Handle) (j : Nat) : St Handle Addr :=
  { s with
    life := Function.update s.life j .reclaimed
    occupant := fun h' => if h = some h' then none else s.occupant h'
    foreign := fun h' => if h = some h' then false else s.foreign h' }

/-- A kernel call takes memory for a TCB that holds none. -/
def astray (s : St Handle Addr) : St Handle Addr := { s with stray := s.stray + 1 }

/-- `operator=(gthr_freertos &&)` with an owning left side, from the first
critical section on. A caller that deletes itself does not come back on the
synchronous ports. -/
def assignOwner (port : Port) (s : St Handle Addr) (t : Nat) (dst src : Loc Addr) :
    St Handle Addr × Bool :=
  let g := s.hnd dst
  if s.eDeleted g.taskHandle then ((s.deleteGroup g.evHandle).move dst src, true)
  else match g.taskHandle.bind s.occupant with
    | some j =>
        if j ≠ t then (((s.deleteOther g.taskHandle j).deleteGroup g.evHandle).move dst src, true)
        else match port with
          | .synchronous => (s.deleteSelf t, false)
          | .deferred => (((s.deleteSelf t).deleteGroup g.evHandle).move dst src, true)
    | none => ((s.astray.deleteGroup g.evHandle).move dst src, true)

end St

/-- Target and source of a move of `std::swap` by a task. -/
def Leg.dst (t : Nat) (a b : Addr) : Leg → Loc Addr
  | .save => .tmp t
  | .copy => .obj a
  | .restore => .obj b

def Leg.src (t : Nat) (a b : Addr) : Leg → Loc Addr
  | .save => .obj a
  | .copy => .obj b
  | .restore => .tmp t

/-- What follows a move of `std::swap`. -/
def Leg.after (a b : Addr) : Leg → Op Addr
  | .save => .swap a b .copy .check
  | .copy => .swap a b .restore .check
  | .restore => .idle

namespace St

/-- The move is done; the objects are free again after the last one. -/
def finishLeg (s : St Handle Addr) (t : Nat) (a b : Addr) (leg : Leg) : St Handle Addr :=
  { s.setOp t (leg.after a b) with
    busy := fun c => if leg = .restore ∧ (c = a ∨ c = b) then none else s.busy c }

/-- Join and detach are done with the object. -/
def finishCall (s : St Handle Addr) (t : Nat) (a : Addr) : St Handle Addr :=
  { s.setOp t .idle with busy := Function.update s.busy a none }

/-- The move constructor (`save`) or `operator=` of one move of `std::swap`. -/
def advanceSwap (port : Port) (s : St Handle Addr) (t : Nat) (a b : Addr) (leg : Leg) :
    Stage → Option (St Handle Addr)
  | .check =>
      let dst := leg.dst t a b
      let src := leg.src t a b
      if leg ≠ .save ∧ dst = src then some (s.finishLeg t a b leg)
      else if leg ≠ .save ∧ (s.hnd dst).fOwner then
        match s.assignOwner port t dst src with
        | (s', true) => some (s'.finishLeg t a b leg)
        | (s', false) => some s'
      else if (s.hnd src).fOwner then some (s.setOp t (.swap a b leg .wait))
      else some ((s.move dst src).finishLeg t a b leg)
  | .wait =>
      if (s.hnd (leg.src t a b)).evHandle.any s.eStartedEv then some (s.setOp t (.swap a b leg .move))
      else none
  | .move => some ((s.move (leg.dst t a b) (leg.src t a b)).finishLeg t a b leg)

/-- `_M_id = std::move(invalid)`, the end of join and detach. -/
def advanceReset (port : Port) (s : St Handle Addr) (t : Nat) (a : Addr) : St Handle Addr :=
  if (s.hnd (.obj a)).fOwner then
    match s.assignOwner port t (.obj a) (.tmp t) with
    | (s', true) => s'.finishCall t a
    | (s', false) => s'
  else (s.move (.obj a) (.tmp t)).finishCall t a

/-- The critical section of `detach` when the task `j` is found under the handle. -/
def detachFound (s : St Handle Addr) (a : Addr) (j : Nat) : St Handle Addr :=
  { s.deleteGroup (s.hnd (.obj a)).evHandle with
    tls := Function.update s.tls j none
    hnd := Function.update s.hnd (.obj a) { s.hnd (.obj a) with fOwner := false } }

/-- The critical section of `detach` when the memory under the handle passes for
a TCB. -/
def detachAstray (s : St Handle Addr) (a : Addr) : St Handle Addr :=
  { s.astray.deleteGroup (s.hnd (.obj a)).evHandle with
    hnd := Function.update s.hnd (.obj a) { s.hnd (.obj a) with fOwner := false } }

/-- The end of `create_thread`: store the event group with the task found under
the handle, and become its owner. A store into freed memory changes no task. -/
def storeTls (s : St Handle Addr) (a : Addr) : St Handle Addr :=
  let g := s.hnd (.obj a)
  { s with
    tls := fun j => if g.taskHandle.bind s.occupant = some j then g.evHandle else s.tls j
    hnd := Function.update s.hnd (.obj a) { g with fOwner := true }
    crit := none }

/-- The end of `_M_start_thread`: with an error, the `unique_ptr` of the caller
destroys the state. -/
def releaseState (s : St Handle Addr) (t k err : Nat) : St Handle Addr :=
  { s with destroys := fun x => if err ≠ 0 ∧ x = k then s.destroys x ++ [t] else s.destroys x }

/-- The next statement of a task inside an operation. -/
def advanceOp (port : Port) (s : St Handle Addr) (t : Nat) : Op Addr → Option (St Handle Addr)
  | .idle => none
  | .create .. => none
  | .storeTls a k =>
      -- `create_thread` returns true, hence `__gthread_create` returns 0
      some ((s.storeTls a).setOp t (.release a k 0))
  | .release a k err => some ((s.releaseState t k err).finishCall t a)
  | .joinWait a =>
      if (s.hnd (.obj a)).evHandle.any (fun e => s.eJoinEv e && s.eStartedEv e) then
        some (s.setOp t (.joinReset a))
      else none
  | .joinReset a => some (s.advanceReset port t a)
  | .detachWait a =>
      if (s.hnd (.obj a)).evHandle.any s.eStartedEv then some (s.setOp t (.detachCrit a)) else none
  | .detachCrit a =>
      if s.eDeleted (s.hnd (.obj a)).taskHandle then some (s.setOp t (.detachReset a))
      else match (s.hnd (.obj a)).taskHandle.bind s.occupant with
        | some j => some ((s.detachFound a j).setOp t (.detachReset a))
        | none => some ((s.detachAstray a).setOp t (.detachReset a))
  | .detachReset a => some (s.advanceReset port t a)
  | .swap a b leg stage => s.advanceSwap port t a b leg stage

/-- The event group that `notify_joined` reads from the thread-local slot; a null
handle stands for the calling task. -/
def joinGroup (s : St Handle Addr) (k : Nat) : Option Nat :=
  match (s.copy k).taskHandle with
  | some h => (s.occupant h).bind s.tls
  | none => s.tls k

/-- `local{*static_cast<__gthread_t *>(__p)}`. -/
def copyHandle (s : St Handle Addr) (k : Nat) : St Handle Addr :=
  { s with
    copy := Function.update s.copy k { s.hnd (.obj (s.param k)) with fOwner := false }
    phase := Function.update s.phase k .copied }

def notifyStarted (s : St Handle Addr) (k : Nat) : St Handle Addr :=
  { s with
    eStartedEv := fun e => (s.copy k).evHandle == some e || s.eStartedEv e
    phase := Function.update s.phase k .started }

/-- `__t->_M_run()` begins. -/
def runState (s : St Handle Addr) (k : Nat) : St Handle Addr :=
  { s with
    runs := fun x => if (s.copy k).arg = some x then s.runs x ++ [k] else s.runs x
    phase := Function.update s.phase k .running }

/-- `__t` goes out of scope. -/
def destroyState (s : St Handle Addr) (k : Nat) : St Handle Addr :=
  { s with
    destroys := fun x => if (s.copy k).arg = some x then s.destroys x ++ [k] else s.destroys x
    phase := Function.update s.phase k .destroyed }

/-- The critical section of `notify_joined`. -/
def notifyJoined (s : St Handle Addr) (k : Nat) : St Handle Addr :=
  { s with
    eJoinEv := fun e => s.joinGroup k == some e || s.eJoinEv e
    phase := Function.update s.phase k .exited }

/-- The next statement of `__execute_native_thread_routine`. -/
def advanceBody (s : St Handle Addr) (k : Nat) : Phase → Option (St Handle Addr)
  | .user => none
  | .entry => some (s.copyHandle k)
  | .copied => some (s.notifyStarted k)
  | .started => some (s.runState k)
  | .running => some (s.setPhase k .returned)
  | .returned => some (s.destroyState k)
  | .destroyed => some (s.setPhase k (if s.sKey then .keyDtor else .keyed))
  | .keyDtor => some (s.setPhase k .keyed)
  | .keyed => some (s.notifyJoined k)
  | .exited => some (s.deleteSelf k)

/-- The call takes the object, and its local object is null. -/
def enter (s : St Handle Addr) (t : Nat) (a : Addr) (op : Op Addr) : St Handle Addr :=
  { s.setOp t op with
    busy := Function.update s.busy a (some t)
    hnd := Function.update s.hnd (.tmp t) {} }

def enterSwap (s : St Handle Addr) (t : Nat) (a b : Addr) : St Handle Addr :=
  { s.setOp t (.swap a b .save .check) with
    busy := fun c => if c = a ∨ c = b then some t else s.busy c }

/-- `_M_start_thread` up to the call of `xTaskCreate`. -/
def construct (s : St Handle Addr) (t : Nat) (a : Addr) (prio : Nat) : St Handle Addr :=
  { s.setOp t (.create a s.next prio) with
    next := s.next + 1
    busy := Function.update s.busy a (some t)
    hnd := Function.update s.hnd (.obj a) { evHandle := some s.next, arg := some s.next } }

/-- `xTaskCreate`, which switches to a task of higher priority where the port
does not wait for the end of the critical section. -/
def xTaskCreate (port : Port) (s : St Handle Addr) (t : Nat) (h : Handle) (a : Addr) (k prio : Nat) :
    St Handle Addr :=
  { s.setOp t (.storeTls a k) with
    life := Function.update s.life k .alive
    handle := Function.update s.handle k (some h)
    priority := Function.update s.priority k prio
    tls := Function.update s.tls k none
    param := Function.update s.param k a
    maker := Function.update s.maker k t
    occupant := Function.update s.occupant h (some k)
    hnd := Function.update s.hnd (.obj a) { s.hnd (.obj a) with taskHandle := some h }
    crit := if port = .synchronous ∧ s.priority t < prio then none else some t }

end St

/-- One atomic step of the system. -/
def next (port : Port) (s : St Handle Addr) : Act Handle Addr → Option (St Handle Addr)
  | .construct t a prio =>
      if s.inUserCode t ∧ s.busy a = none ∧ s.hnd (.obj a) = {} then some (s.construct t a prio)
      else none
  | .create t h => match s.op t with
      | .create a k prio =>
          if s.runnable t ∧ s.occupant h = none then some (s.xTaskCreate port t h a k prio) else none
      | _ => none
  | .join t a =>
      if s.inUserCode t ∧ s.busy a = none then
        -- `EINVAL` is thrown for an object without a thread
        some (if s.joinable a then s.enter t a (.joinWait a) else s)
      else none
  | .detach t a =>
      if s.inUserCode t ∧ s.busy a = none then
        some (if s.joinable a then s.enter t a (.detachWait a) else s)
      else none
  | .swap t a b =>
      if s.inUserCode t ∧ s.busy a = none ∧ s.busy b = none then some (s.enterSwap t a b) else none
  | .moveAssign t a b =>
      if s.inUserCode t ∧ s.busy a = none ∧ s.busy b = none then
        some (if s.joinable a then { s with terminated := true } else s.enterSwap t a b)
      else none
  | .setKey t created => if s.inUserCode t then some { s with sKey := created } else none
  | .allocationFails t =>
      if s.inUserCode t || (s.runnable t && s.op t matches .create ..) then
        some { s with terminated := true }
      else none
  | .step t =>
      if s.runnable t then
        if s.op t = .idle then s.advanceBody t (s.phase t) else s.advanceOp port t (s.op t)
      else none
  | .reclaim j =>
      if s.life j = .deleted ∧ s.crit = none ∧ s.terminated = false then
        some (s.deleteOther (s.handle j) j)
      else none
  | .reuse h foreign =>
      if s.occupant h = none then some { s with foreign := Function.update s.foreign h foreign }
      else none

/-- Nothing has been constructed; some tasks run user code. -/
structure Start (s : St Handle Addr) : Prop where
  life : ∀ k, s.life k = if k < s.next then .alive else .unborn
  phase : ∀ k, s.phase k = if k < s.next then .user else .entry
  handle : ∀ k, s.next ≤ k → s.handle k = none
  occupant : ∀ h j, s.occupant h = some j ↔ s.handle j = some h
  tls : ∀ k, s.tls k = none
  copy : ∀ k, s.copy k = {}
  op : ∀ t, s.op t = .idle
  hnd : ∀ l, s.hnd l = {}
  busy : ∀ a, s.busy a = none
  eStartedEv : ∀ e, s.eStartedEv e = false
  eJoinEv : ∀ e, s.eJoinEv e = false
  deletes : ∀ e, s.deletes e = 0
  runs : ∀ x, s.runs x = []
  destroys : ∀ x, s.destroys x = []
  crit : s.crit = none

def system (Handle Addr : Type) [DecidableEq Handle] [DecidableEq Addr] (port : Port) :
    Transition.System (St Handle Addr) (Act Handle Addr) where
  start := Start
  next := next port

/-- A start with the given number of tasks, all of priority 1; the handle of
the `k`-th task is `k`. -/
def boot (tasks : Nat) : St Nat Nat where
  life k := if k < tasks then .alive else .unborn
  handle k := if k < tasks then some k else none
  priority _ := 1
  tls _ := none
  param _ := 0
  maker _ := 0
  phase k := if k < tasks then .user else .entry
  copy _ := {}
  op _ := .idle
  occupant h := if h < tasks then some h else none
  foreign _ := false
  stray := 0
  hnd _ := {}
  busy _ := none
  eStartedEv _ := false
  eJoinEv _ := false
  deletes _ := 0
  runs _ := []
  destroys _ := []
  crit := none
  sKey := false
  next := tasks
  terminated := false

theorem boot_start (tasks : Nat) : Start (boot tasks) where
  life _ := rfl
  phase _ := rfl
  handle k h := if_neg (Nat.not_lt.mpr h)
  occupant h j := by
    simp only [boot, Option.ite_none_right_eq_some, Option.some.injEq]
    omega
  tls _ := rfl
  copy _ := rfl
  op _ := rfl
  hnd _ := rfl
  busy _ := rfl
  eStartedEv _ := rfl
  eJoinEv _ := rfl
  deletes _ := rfl
  runs _ := rfl
  destroys _ := rfl
  crit := rfl

end FreeRtos.Thread
