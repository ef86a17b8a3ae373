import FreeRtosCpp11.Lists.Moves

/-! The scheduler of `tasks.c`: its lists, its clock and its choice of the task
that runs. The lists are the rounds that `list.c` implements. A task is known by
a number, and the owner of a list item is the task whose item it is. A call that
would break the rules of the lists or fail an assertion has no result. -/
namespace FreeRtos.Tasks

open Links

/-- The list items of a task. -/
inductive Item where
  | xStateListItem (pxTCB : Nat)
  | xEventListItem (pxTCB : Nat)
  deriving DecidableEq, Repr

/-- The owner of an item, set by `prvInitialiseNewTask`. -/
def Item.pvOwner : Item → Nat
  | .xStateListItem pxTCB => pxTCB
  | .xEventListItem pxTCB => pxTCB

/-- The lists of the scheduler, and those of the objects that tasks wait for. -/
inductive TaskList where
  | pxReadyTasksLists (uxPriority : Nat)
  | xDelayedTaskList1
  | xDelayedTaskList2
  | xPendingReadyList
  | xSuspendedTaskList
  | xTasksWaitingTermination
  | pxEventList (e : Nat)
  deriving DecidableEq, Repr

/-- The configuration: a bitmap of 32 bits has room for all priorities, and the
value of an event item that holds a priority has the top bit clear. -/
structure Config where
  configUSE_16_BIT_TICKS : Bool
  configUSE_PORT_OPTIMISED_TASK_SELECTION : Bool
  configMAX_PRIORITIES : Nat
  xIdleTaskHandle : Nat
  priorities : 0 < configMAX_PRIORITIES ∧ configMAX_PRIORITIES < 0x8000
  optimised : configUSE_PORT_OPTIMISED_TASK_SELECTION = true → configMAX_PRIORITIES ≤ 32

namespace Config

def portMAX_DELAY (cfg : Config) : Nat := if cfg.configUSE_16_BIT_TICKS then 0xffff else 0xffffffff

def taskEVENT_LIST_ITEM_VALUE_IN_USE (cfg : Config) : Nat :=
  if cfg.configUSE_16_BIT_TICKS then 0x8000 else 0x80000000

/-- A sum of two `TickType_t`. -/
def ticks (cfg : Config) (a b : Nat) : Nat := (a + b) % (cfg.portMAX_DELAY + 1)

/-- A difference of two `TickType_t`. -/
def ticksBetween (cfg : Config) (a b : Nat) : Nat := (a + (cfg.portMAX_DELAY + 1) - b) % (cfg.portMAX_DELAY + 1)

end Config

structure TCB where
  uxPriority : Nat
  uxBasePriority : Nat
  uxMutexesHeld : Nat
  ucDelayAborted : Bool
  deriving Repr

/-- The plain variables of the scheduler, and the context switch that the port
was asked for and has not made yet. -/
structure Vars where
  pxCurrentTCB : Nat
  pxDelayedTaskList : TaskList
  pxOverflowDelayedTaskList : TaskList
  xTickCount : Nat
  xPendedTicks : Nat
  /-- A signed word of the source, compared for equality only: with what
  `vTaskInternalSetTimeOutState` found at most one start of the count earlier. -/
  xNumOfOverflows : Nat
  xNextTaskUnblockTime : Nat
  uxSchedulerSuspended : Nat
  uxDeletedTasksWaitingCleanUp : Nat
  xYieldPending : Bool
  portYIELD : Bool

structure Kernel extends Vars where
  lists : Lists.Abs Item TaskList
  tcb : Nat → TCB
  uxTopReadyPriority : Nat

variable (cfg : Config) (k : Kernel)

namespace Kernel

/-- A call of `list.c`. -/
def call (act : Lists.Act Item TaskList) : Kernel := { k with lists := k.lists.step act }

def setTCB (t : Nat) (tcb : TCB) : Kernel := { k with tcb := Function.update k.tcb t tcb }

def vListInsertEnd (pxList : TaskList) (pxNewListItem : Item) : Option Kernel :=
  if k.lists.home pxNewListItem = none then some (k.call (.insertEnd pxList pxNewListItem)) else none

def vListInsert (pxList : TaskList) (pxNewListItem : Item) : Option Kernel :=
  if k.lists.home pxNewListItem = none then some (k.call (.insert pxList pxNewListItem)) else none

def listCURRENT_LIST_LENGTH (pxList : TaskList) : Nat := (k.lists.round pxList).order.length

/-- The number of items left in the list of the item. -/
def uxListRemove (pxItemToRemove : Item) : Option (Nat × Kernel) :=
  (k.lists.home pxItemToRemove).map fun pxList =>
    ((k.call (.remove pxItemToRemove)).listCURRENT_LIST_LENGTH pxList, k.call (.remove pxItemToRemove))

def listGET_HEAD_ENTRY (pxList : TaskList) : Option Item := (k.lists.round pxList).order.head?

/-- The next entry of a list becomes the current task; the list must have one. -/
def listGET_OWNER_OF_NEXT_ENTRY (pxList : TaskList) : Option Kernel :=
  (k.lists.round pxList).waiting.head?.map fun pxItem =>
    { k.call (.nextEntry pxList) with pxCurrentTCB := pxItem.pvOwner }

end Kernel

open Kernel

/-! The two ways to find the highest priority. -/

def portRESET_READY_PRIORITY (uxPriority : Nat) : Kernel :=
  if cfg.configUSE_PORT_OPTIMISED_TASK_SELECTION then
    { k with uxTopReadyPriority := k.uxTopReadyPriority &&& (0xffffffff ^^^ (1 <<< uxPriority)) }
  else k

def taskRECORD_READY_PRIORITY (uxPriority : Nat) : Kernel :=
  if cfg.configUSE_PORT_OPTIMISED_TASK_SELECTION then
    { k with uxTopReadyPriority := k.uxTopReadyPriority ||| (1 <<< uxPriority) }
  else if uxPriority > k.uxTopReadyPriority then { k with uxTopReadyPriority := uxPriority }
  else k

def taskRESET_READY_PRIORITY (uxPriority : Nat) : Kernel :=
  if cfg.configUSE_PORT_OPTIMISED_TASK_SELECTION then
    if k.listCURRENT_LIST_LENGTH (.pxReadyTasksLists uxPriority) = 0 then portRESET_READY_PRIORITY cfg k uxPriority
    else k
  else k

def builtin_clz (x : Nat) : Nat := 31 - x.log2

/-- The bitmap must not be empty. -/
def portGET_HIGHEST_PRIORITY (uxReadyPriorities : Nat) : Option Nat :=
  if uxReadyPriorities = 0 then none else some (31 - builtin_clz uxReadyPriorities)

/-- The loop down from a priority to one that has ready tasks. -/
def highestFrom : Nat → Option Nat
  | 0 => if k.listCURRENT_LIST_LENGTH (.pxReadyTasksLists 0) = 0 then none else some 0
  | p + 1 =>
      if k.listCURRENT_LIST_LENGTH (.pxReadyTasksLists (p + 1)) = 0 then highestFrom p else some (p + 1)

def taskSELECT_HIGHEST_PRIORITY_TASK : Option Kernel :=
  if cfg.configUSE_PORT_OPTIMISED_TASK_SELECTION then
    (portGET_HIGHEST_PRIORITY k.uxTopReadyPriority).bind fun uxTopPriority =>
      k.listGET_OWNER_OF_NEXT_ENTRY (.pxReadyTasksLists uxTopPriority)
  else
    (highestFrom k k.uxTopReadyPriority).bind fun uxTopPriority =>
      (k.listGET_OWNER_OF_NEXT_ENTRY (.pxReadyTasksLists uxTopPriority)).map fun k =>
        { k with uxTopReadyPriority := uxTopPriority }

def vTaskSwitchContext : Option Kernel :=
  if k.uxSchedulerSuspended ≠ 0 then some { k with xYieldPending := true }
  else taskSELECT_HIGHEST_PRIORITY_TASK cfg { k with xYieldPending := false }

/-! Tasks that become ready, and tasks that block. -/

def prvAddTaskToReadyList (t : Nat) : Option Kernel :=
  (taskRECORD_READY_PRIORITY cfg k (k.tcb t).uxPriority).vListInsertEnd
    (.pxReadyTasksLists (k.tcb t).uxPriority) (.xStateListItem t)

/-- The event item of a task leaves its list, if it is in one. -/
def removeEventItem (t : Nat) : Kernel :=
  if k.lists.home (.xEventListItem t) ≠ none then k.call (.remove (.xEventListItem t)) else k

/-- `uxListRemove` of the state item and `prvAddTaskToReadyList`. -/
def unblock (t : Nat) : Option Kernel :=
  (k.uxListRemove (.xStateListItem t)).bind fun (_, k) => prvAddTaskToReadyList cfg k t

def prvResetNextTaskUnblockTime : Kernel :=
  { k with
    xNextTaskUnblockTime := match k.listGET_HEAD_ENTRY k.pxDelayedTaskList with
      | none => cfg.portMAX_DELAY
      | some pxItem => k.lists.value pxItem }

def prvAddCurrentTaskToDelayedList (xTicksToWait : Nat) (xCanBlockIndefinitely : Bool) : Option Kernel :=
  let cur := k.pxCurrentTCB
  let k := k.setTCB cur { k.tcb cur with ucDelayAborted := false }
  (k.uxListRemove (.xStateListItem cur)).bind fun (left, k) =>
    let k := if left = 0 then portRESET_READY_PRIORITY cfg k (k.tcb cur).uxPriority else k
    if xTicksToWait = cfg.portMAX_DELAY ∧ xCanBlockIndefinitely then
      k.vListInsertEnd .xSuspendedTaskList (.xStateListItem cur)
    else
      let xTimeToWake := cfg.ticks k.xTickCount xTicksToWait
      let k := k.call (.setValue (.xStateListItem cur) xTimeToWake)
      if xTimeToWake < k.xTickCount then k.vListInsert k.pxOverflowDelayedTaskList (.xStateListItem cur)
      else
        (k.vListInsert k.pxDelayedTaskList (.xStateListItem cur)).map fun k =>
          if xTimeToWake < k.xNextTaskUnblockTime then { k with xNextTaskUnblockTime := xTimeToWake } else k

/-! The tick. -/

/-- The loop over the delayed tasks whose time has come; it passes no more tasks
than the list has. The answer says whether one of them should run. -/
def unblockTasks : Nat → Kernel → Bool → Option (Bool × Kernel)
  | 0, _, _ => none
  | fuel + 1, k, xSwitchRequired =>
      match k.listGET_HEAD_ENTRY k.pxDelayedTaskList with
      | none => some (xSwitchRequired, { k with xNextTaskUnblockTime := cfg.portMAX_DELAY })
      | some pxItem =>
          let t := pxItem.pvOwner
          let xItemValue := k.lists.value (.xStateListItem t)
          if k.xTickCount < xItemValue then some (xSwitchRequired, { k with xNextTaskUnblockTime := xItemValue })
          else
            (k.uxListRemove (.xStateListItem t)).bind fun (_, k) =>
              (prvAddTaskToReadyList cfg (removeEventItem k t) t).bind fun k =>
                unblockTasks fuel k
                  (xSwitchRequired || decide ((k.tcb t).uxPriority ≥ (k.tcb k.pxCurrentTCB).uxPriority))

/-- `taskSWITCH_DELAYED_LISTS`; the delayed list must be empty. -/
def taskSWITCH_DELAYED_LISTS : Option Kernel :=
  if k.listCURRENT_LIST_LENGTH k.pxDelayedTaskList = 0 then
    some (prvResetNextTaskUnblockTime cfg
      { k with
        pxDelayedTaskList := k.pxOverflowDelayedTaskList
        pxOverflowDelayedTaskList := k.pxDelayedTaskList
        xNumOfOverflows := k.xNumOfOverflows + 1 })
  else none

/-- `xTaskIncrementTick`: whether a context switch is required, and the state. -/
def xTaskIncrementTick : Option (Bool × Kernel) :=
  if k.uxSchedulerSuspended = 0 then
    let xConstTickCount := cfg.ticks k.xTickCount 1
    let k := { k with xTickCount := xConstTickCount }
    (if xConstTickCount = 0 then taskSWITCH_DELAYED_LISTS cfg k else some k).bind fun k =>
      (if xConstTickCount ≥ k.xNextTaskUnblockTime then
          unblockTasks cfg (k.listCURRENT_LIST_LENGTH k.pxDelayedTaskList + 1) k false
        else some (false, k)).map fun (xSwitchRequired, k) =>
          (xSwitchRequired ||
            decide (k.listCURRENT_LIST_LENGTH (.pxReadyTasksLists (k.tcb k.pxCurrentTCB).uxPriority) > 1) ||
            k.xYieldPending, k)
  else some (false, { k with xPendedTicks := cfg.ticks k.xPendedTicks 1 })

/-! Suspending the scheduler. -/

def vTaskSuspendAll : Kernel := { k with uxSchedulerSuspended := k.uxSchedulerSuspended + 1 }

/-- The loop over the tasks that became ready while the scheduler was suspended.
The answer says whether there was one. -/
def movePending : Nat → Kernel → Bool → Option (Bool × Kernel)
  | 0, _, _ => none
  | fuel + 1, k, moved =>
      match k.listGET_HEAD_ENTRY .xPendingReadyList with
      | none => some (moved, k)
      | some pxItem =>
          let t := pxItem.pvOwner
          (k.uxListRemove (.xEventListItem t)).bind fun (_, k) =>
            (unblock cfg k t).bind fun k =>
              movePending fuel
                (if (k.tcb t).uxPriority ≥ (k.tcb k.pxCurrentTCB).uxPriority then { k with xYieldPending := true }
                else k) true

/-- The ticks that came while the scheduler was suspended. -/
def catchUp : Nat → Kernel → Option Kernel
  | 0, k => some k
  | xPendedCounts + 1, k =>
      (xTaskIncrementTick cfg k).bind fun (xSwitchRequired, k) =>
        catchUp xPendedCounts (if xSwitchRequired then { k with xYieldPending := true } else k)

/-- `xTaskResumeAll`: whether it yielded, and the state. There is always a task. -/
def xTaskResumeAll : Option (Bool × Kernel) :=
  if k.uxSchedulerSuspended = 0 then none
  else
    let k := { k with uxSchedulerSuspended := k.uxSchedulerSuspended - 1 }
    if k.uxSchedulerSuspended = 0 then
      (movePending cfg (k.listCURRENT_LIST_LENGTH .xPendingReadyList + 1) k false).bind fun (moved, k) =>
        (catchUp cfg k.xPendedTicks (if moved then prvResetNextTaskUnblockTime cfg k else k)).map fun k =>
          let k := { k with xPendedTicks := 0 }
          if k.xYieldPending then (true, { k with portYIELD := true }) else (false, k)
    else some (false, k)

/-! Waiting for events. -/

def vTaskPlaceOnEventList (e xTicksToWait : Nat) : Option Kernel :=
  (k.vListInsert (.pxEventList e) (.xEventListItem k.pxCurrentTCB)).bind fun k =>
    prvAddCurrentTaskToDelayedList cfg k xTicksToWait true

def vTaskPlaceOnUnorderedEventList (e xItemValue xTicksToWait : Nat) : Option Kernel :=
  let k := k.call (.setValue (.xEventListItem k.pxCurrentTCB)
    (xItemValue ||| cfg.taskEVENT_LIST_ITEM_VALUE_IN_USE))
  (k.vListInsertEnd (.pxEventList e) (.xEventListItem k.pxCurrentTCB)).bind fun k =>
    prvAddCurrentTaskToDelayedList cfg k xTicksToWait true

/-- `xTaskRemoveFromEventList`: whether the task should run, and the state. -/
def xTaskRemoveFromEventList (e : Nat) : Option (Bool × Kernel) :=
  (k.listGET_HEAD_ENTRY (.pxEventList e)).bind fun pxItem =>
    let t := pxItem.pvOwner
    (k.uxListRemove (.xEventListItem t)).bind fun (_, k) =>
      (if k.uxSchedulerSuspended = 0 then unblock cfg k t
        else k.vListInsertEnd .xPendingReadyList (.xEventListItem t)).map fun k =>
          if (k.tcb t).uxPriority > (k.tcb k.pxCurrentTCB).uxPriority then (true, { k with xYieldPending := true })
          else (false, k)

def vTaskRemoveFromUnorderedEventList (t xItemValue : Nat) : Option Kernel :=
  let k := k.call (.setValue (.xEventListItem t) (xItemValue ||| cfg.taskEVENT_LIST_ITEM_VALUE_IN_USE))
  (k.uxListRemove (.xEventListItem t)).bind fun (_, k) =>
    (unblock cfg k t).map fun k =>
      if (k.tcb t).uxPriority > (k.tcb k.pxCurrentTCB).uxPriority then { k with xYieldPending := true } else k

/-! Suspending and resuming tasks. -/

def vTaskSuspend (t : Nat) : Option Kernel :=
  (k.uxListRemove (.xStateListItem t)).bind fun (left, k) =>
    let k := if left = 0 then taskRESET_READY_PRIORITY cfg k (k.tcb t).uxPriority else k
    ((removeEventItem k t).vListInsertEnd .xSuspendedTaskList (.xStateListItem t)).map fun k =>
      let k := prvResetNextTaskUnblockTime cfg k
      if t = k.pxCurrentTCB then { k with portYIELD := true } else k

def prvTaskIsTaskSuspended (t : Nat) : Bool :=
  k.lists.home (.xStateListItem t) = some .xSuspendedTaskList ∧ k.lists.home (.xEventListItem t) = none

def vTaskResume (t : Nat) : Option Kernel :=
  if t ≠ k.pxCurrentTCB ∧ prvTaskIsTaskSuspended k t then
    (unblock cfg k t).map fun k =>
      if (k.tcb t).uxPriority ≥ (k.tcb k.pxCurrentTCB).uxPriority then { k with portYIELD := true } else k
  else some k

/-- `xTaskResumeFromISR`: whether a context switch is required, and the state. -/
def xTaskResumeFromISR (t : Nat) : Option (Bool × Kernel) :=
  if prvTaskIsTaskSuspended k t then
    if k.uxSchedulerSuspended = 0 then
      let xYieldRequired := decide ((k.tcb t).uxPriority ≥ (k.tcb k.pxCurrentTCB).uxPriority)
      (unblock cfg (if xYieldRequired then { k with xYieldPending := true } else k) t).map fun k =>
        (xYieldRequired, k)
    else (k.vListInsertEnd .xPendingReadyList (.xEventListItem t)).map fun k => (false, k)
  else some (false, k)

inductive eTaskState where
  | eRunning
  | eReady
  | eBlocked
  | eSuspended
  | eDeleted
  deriving DecidableEq, Repr

/-- `eTaskGetState`, for tasks that do not wait for a notification. -/
def eTaskGetState (t : Nat) : eTaskState :=
  if t = k.pxCurrentTCB then .eRunning
  else
    let pxStateList := k.lists.home (.xStateListItem t)
    if pxStateList = some k.pxDelayedTaskList ∨ pxStateList = some k.pxOverflowDelayedTaskList then .eBlocked
    else if pxStateList = some .xSuspendedTaskList then
      if k.lists.home (.xEventListItem t) = none then .eSuspended else .eBlocked
    else if pxStateList = some .xTasksWaitingTermination ∨ pxStateList = none then .eDeleted
    else .eReady

/-- `xTaskAbortDelay`, between its calls of `vTaskSuspendAll` and
`xTaskResumeAll`: whether the task was blocked, and the state. -/
def xTaskAbortDelay (t : Nat) : Option (Bool × Kernel) :=
  if eTaskGetState k t = .eBlocked then
    (k.uxListRemove (.xStateListItem t)).bind fun (_, k) =>
      let k :=
        if k.lists.home (.xEventListItem t) ≠ none then
          (k.call (.remove (.xEventListItem t))).setTCB t { k.tcb t with ucDelayAborted := true }
        else k
      (prvAddTaskToReadyList cfg k t).map fun k =>
        if (k.tcb t).uxPriority > (k.tcb k.pxCurrentTCB).uxPriority then (true, { k with xYieldPending := true })
        else (true, k)
  else some (false, k)

/-! Priorities. -/

/-- The value that an event item has for a priority, unless it is in use. -/
def setEventValue (t uxPriority : Nat) : Kernel :=
  if k.lists.value (.xEventListItem t) &&& cfg.taskEVENT_LIST_ITEM_VALUE_IN_USE = 0 then
    k.call (.setValue (.xEventListItem t) (cfg.configMAX_PRIORITIES - uxPriority))
  else k

/-- A ready task moves to the list of its priority; `uxPriorityUsedOnEntry` names
the list in which it may be, and `uxPriorityReset` the bit that is reset. -/
def moveReady (t uxPriorityUsedOnEntry uxPriorityReset : Nat) : Option Kernel :=
  if k.lists.home (.xStateListItem t) = some (.pxReadyTasksLists uxPriorityUsedOnEntry) then
    (k.uxListRemove (.xStateListItem t)).bind fun (left, k) =>
      prvAddTaskToReadyList cfg (if left = 0 then portRESET_READY_PRIORITY cfg k uxPriorityReset else k) t
  else some k

def vTaskPrioritySet (t uxNewPriority : Nat) : Option Kernel :=
  let tcb := k.tcb t
  let uxCurrentBasePriority := tcb.uxBasePriority
  if uxCurrentBasePriority = uxNewPriority then some k
  else
    let xYieldRequired :=
      if uxNewPriority > uxCurrentBasePriority then
        decide (t ≠ k.pxCurrentTCB ∧ uxNewPriority ≥ (k.tcb k.pxCurrentTCB).uxPriority)
      else decide (t = k.pxCurrentTCB)
    let k := k.setTCB t
      { tcb with
        uxPriority := if tcb.uxBasePriority = tcb.uxPriority then uxNewPriority else tcb.uxPriority
        uxBasePriority := uxNewPriority }
    (moveReady cfg (setEventValue cfg k t uxNewPriority) t tcb.uxPriority tcb.uxPriority).map fun k =>
      if xYieldRequired then { k with portYIELD := true } else k

/-- `xTaskPriorityInherit`: whether the holder of the mutex has inherited a
priority, and the state. -/
def xTaskPriorityInherit (t : Nat) : Option (Bool × Kernel) :=
  let tcb := k.tcb t
  let uxPriority := (k.tcb k.pxCurrentTCB).uxPriority
  if tcb.uxPriority < uxPriority then
    let k := (setEventValue cfg k t uxPriority).setTCB t { tcb with uxPriority := uxPriority }
    (moveReady cfg k t tcb.uxPriority tcb.uxPriority).map fun k => (true, k)
  else some (decide (tcb.uxBasePriority < uxPriority), k)

/-- `xTaskPriorityDisinherit`, for the current task: whether a context switch is
required, and the state. -/
def xTaskPriorityDisinherit : Option (Bool × Kernel) :=
  let t := k.pxCurrentTCB
  if (k.tcb t).uxMutexesHeld = 0 then none
  else
    let tcb := { k.tcb t with uxMutexesHeld := (k.tcb t).uxMutexesHeld - 1 }
    let k := k.setTCB t tcb
    if tcb.uxPriority ≠ tcb.uxBasePriority ∧ tcb.uxMutexesHeld = 0 then
      (k.uxListRemove (.xStateListItem t)).bind fun (left, k) =>
        let k := if left = 0 then portRESET_READY_PRIORITY cfg k tcb.uxPriority else k
        let k := k.setTCB t { tcb with uxPriority := tcb.uxBasePriority }
        let k := k.call (.setValue (.xEventListItem t) (cfg.configMAX_PRIORITIES - tcb.uxBasePriority))
        (prvAddTaskToReadyList cfg k t).map fun k => (true, k)
    else some (false, k)

/-- The base priority of a task, or the priority of a task that waits for it. -/
def uxPriorityToUse (tcb : TCB) (uxHighestPriorityWaitingTask : Nat) : Nat :=
  if tcb.uxBasePriority < uxHighestPriorityWaitingTask then uxHighestPriorityWaitingTask else tcb.uxBasePriority

/-- `vTaskPriorityDisinheritAfterTimeout`. The bit that is reset is the one of
the new priority. -/
def vTaskPriorityDisinheritAfterTimeout (t uxHighestPriorityWaitingTask : Nat) : Option Kernel :=
  let tcb := k.tcb t
  let uxPriorityToUse := uxPriorityToUse tcb uxHighestPriorityWaitingTask
  if tcb.uxMutexesHeld = 0 then none
  else if tcb.uxPriority ≠ uxPriorityToUse ∧ tcb.uxMutexesHeld = 1 then
    if t = k.pxCurrentTCB then none
    else
      let k := k.setTCB t { tcb with uxPriority := uxPriorityToUse }
      moveReady cfg (setEventValue cfg k t uxPriorityToUse) t tcb.uxPriority uxPriorityToUse
  else some k

def pvTaskIncrementMutexHeldCount : Kernel :=
  k.setTCB k.pxCurrentTCB
    { k.tcb k.pxCurrentTCB with uxMutexesHeld := (k.tcb k.pxCurrentTCB).uxMutexesHeld + 1 }

/-! Tasks that come and go. -/

/-- The list items of a new task, and its control block. -/
def prvInitialiseNewTask (t uxPriority : Nat) : Kernel :=
  let uxPriority :=
    if uxPriority ≥ cfg.configMAX_PRIORITIES then cfg.configMAX_PRIORITIES - 1 else uxPriority
  (k.setTCB t ⟨uxPriority, uxPriority, 0, false⟩).call
    (.setValue (.xEventListItem t) (cfg.configMAX_PRIORITIES - uxPriority))

/-- `xTaskCreate`, with `prvAddNewTaskToReadyList` while the scheduler runs. -/
def xTaskCreate (t uxPriority : Nat) : Option Kernel :=
  (prvAddTaskToReadyList cfg (prvInitialiseNewTask cfg k t uxPriority) t).map fun k =>
    if (k.tcb k.pxCurrentTCB).uxPriority < (k.tcb t).uxPriority then { k with portYIELD := true } else k

def vTaskDelete (t : Nat) : Option Kernel :=
  (k.uxListRemove (.xStateListItem t)).bind fun (left, k) =>
    let k := if left = 0 then taskRESET_READY_PRIORITY cfg k (k.tcb t).uxPriority else k
    let k := removeEventItem k t
    if t = k.pxCurrentTCB then
      (k.vListInsertEnd .xTasksWaitingTermination (.xStateListItem t)).map fun k =>
        { k with uxDeletedTasksWaitingCleanUp := k.uxDeletedTasksWaitingCleanUp + 1, portYIELD := true }
    else some (prvResetNextTaskUnblockTime cfg k)

/-- A pass of the loop of `prvCheckTasksWaitingTermination`. -/
def prvCheckTasksWaitingTermination : Option Kernel :=
  (k.listGET_HEAD_ENTRY .xTasksWaitingTermination).bind fun pxItem =>
    (k.uxListRemove (.xStateListItem pxItem.pvOwner)).map fun (_, k) =>
      { k with uxDeletedTasksWaitingCleanUp := k.uxDeletedTasksWaitingCleanUp - 1 }

/-! Before the scheduler runs. -/

/-- Nothing is in the lists yet, and no task is current. -/
def prvInitialiseTaskLists : Kernel where
  pxCurrentTCB := cfg.xIdleTaskHandle
  pxDelayedTaskList := .xDelayedTaskList1
  pxOverflowDelayedTaskList := .xDelayedTaskList2
  xTickCount := 0
  xPendedTicks := 0
  xNumOfOverflows := 0
  xNextTaskUnblockTime := 0
  uxSchedulerSuspended := 0
  uxDeletedTasksWaitingCleanUp := 0
  xYieldPending := false
  portYIELD := false
  lists :=
    { value := fun _ => 0
      owner := fun _ => 0
      home := fun _ => none
      round := fun _ => ⟨[], []⟩ }
  tcb := fun _ => ⟨0, 0, 0, false⟩
  uxTopReadyPriority := 0

/-- `prvAddNewTaskToReadyList` for the first task and for a later one: the last
task of the highest priority is the current one. -/
def prvAddNewTaskToReadyList (isFirst : Bool) (t uxPriority : Nat) : Option Kernel :=
  let k := prvInitialiseNewTask cfg k t uxPriority
  prvAddTaskToReadyList cfg
    (if isFirst ∨ (k.tcb k.pxCurrentTCB).uxPriority ≤ (k.tcb t).uxPriority then { k with pxCurrentTCB := t } else k) t

/-- The tasks that are created before the scheduler runs. -/
def createTasks : Bool → List (Nat × Nat) → Kernel → Option Kernel
  | _, [], k => some k
  | isFirst, (t, uxPriority) :: tasks, k =>
      (prvAddNewTaskToReadyList cfg k isFirst t uxPriority).bind (createTasks false tasks)

/-- `vTaskStartScheduler`, after the tasks with their priorities are created; the
idle task is one of them. -/
def vTaskStartScheduler (configINITIAL_TICK_COUNT : Nat) (tasks : List (Nat × Nat)) : Option Kernel :=
  (createTasks cfg true tasks (prvInitialiseTaskLists cfg)).map fun k =>
    { k with
      xNextTaskUnblockTime := cfg.portMAX_DELAY
      xTickCount := configINITIAL_TICK_COUNT }

/-! The calls, in any order that the rules of the kernel allow. -/

inductive Act where
  | xTaskIncrementTick
  | portYIELD
  | vTaskSwitchContext
  | vTaskSuspendAll
  | xTaskResumeAll
  | vTaskDelay (xTicksToDelay : Nat)
  | vTaskPlaceOnEventList (e xTicksToWait : Nat)
  | vTaskPlaceOnUnorderedEventList (e xItemValue xTicksToWait : Nat)
  | xTaskRemoveFromEventList (e : Nat)
  | vTaskRemoveFromUnorderedEventList (t xItemValue : Nat)
  | vTaskSuspend (t : Nat)
  | vTaskResume (t : Nat)
  | xTaskResumeFromISR (t : Nat)
  | xTaskAbortDelay (t : Nat)
  | xTaskCatchUpTicks (xTicksToCatchUp : Nat)
  | vTaskPrioritySet (t uxNewPriority : Nat)
  | xTaskPriorityInherit (t : Nat)
  | giveMutex (e : Nat)
  | vTaskPriorityDisinheritAfterTimeout (t uxHighestPriorityWaitingTask : Nat)
  | pvTaskIncrementMutexHeldCount
  | xTaskCreate (t uxPriority : Nat)
  | vTaskDelete (t : Nat)
  | prvCheckTasksWaitingTermination
  deriving DecidableEq, Repr

namespace Kernel

/-- The task is in the ready list of its priority. -/
def ready (t : Nat) : Bool :=
  k.lists.home (.xStateListItem t) = some (.pxReadyTasksLists (k.tcb t).uxPriority)

/-- The task is created and not deleted. -/
def lives (t : Nat) : Bool :=
  k.lists.home (.xStateListItem t) ≠ none ∧ k.lists.home (.xStateListItem t) ≠ some .xTasksWaitingTermination

end Kernel

/-- A task may block: the idle task never does, the scheduler is suspended once,
by the call that blocks, and the time to wait is not zero. -/
def mayBlock (xTicksToWait : Nat) : Bool :=
  k.ready k.pxCurrentTCB ∧ k.pxCurrentTCB ≠ cfg.xIdleTaskHandle ∧ k.uxSchedulerSuspended = 1 ∧
    0 < xTicksToWait ∧ xTicksToWait ≤ cfg.portMAX_DELAY

/-- Ticks, interrupts and the port act at any time, and a task acts while it is
ready; the other conditions are assertions and comments of the calls. -/
def enabled : Act → Bool
  | .xTaskIncrementTick | .portYIELD | .xTaskResumeFromISR _ => true
  | .vTaskSwitchContext => k.portYIELD
  | .xTaskResumeAll => k.uxSchedulerSuspended ≠ 0
  | .xTaskRemoveFromEventList e => k.listCURRENT_LIST_LENGTH (.pxEventList e) ≠ 0
  | .vTaskDelay n | .vTaskPlaceOnEventList _ n => mayBlock cfg k n
  | .vTaskPlaceOnUnorderedEventList _ v n => mayBlock cfg k n ∧ v ≤ cfg.portMAX_DELAY
  | .vTaskRemoveFromUnorderedEventList t v =>
      k.ready k.pxCurrentTCB ∧ k.uxSchedulerSuspended ≠ 0 ∧ v ≤ cfg.portMAX_DELAY ∧
        k.lists.home (.xEventListItem t) ≠ none ∧ k.lists.home (.xEventListItem t) ≠ some .xPendingReadyList
  | .vTaskSuspend t | .vTaskDelete t =>
      k.ready k.pxCurrentTCB ∧ k.lives t ∧ t ≠ cfg.xIdleTaskHandle ∧
        (t = k.pxCurrentTCB → k.uxSchedulerSuspended = 0)
  | .xTaskAbortDelay _ => k.ready k.pxCurrentTCB ∧ k.uxSchedulerSuspended ≠ 0
  | .xTaskCatchUpTicks n => k.ready k.pxCurrentTCB ∧ k.uxSchedulerSuspended = 1 ∧ n ≤ cfg.portMAX_DELAY
  | .vTaskPrioritySet t p => k.ready k.pxCurrentTCB ∧ k.lives t ∧ p < cfg.configMAX_PRIORITIES
  | .xTaskPriorityInherit t => k.ready k.pxCurrentTCB ∧ k.lives t
  | .giveMutex _ => k.ready k.pxCurrentTCB ∧ (k.tcb k.pxCurrentTCB).uxMutexesHeld ≠ 0
  | .vTaskPriorityDisinheritAfterTimeout t p =>
      k.ready k.pxCurrentTCB ∧ k.lives t ∧ t ≠ k.pxCurrentTCB ∧ (k.tcb t).uxMutexesHeld ≠ 0 ∧
        p < cfg.configMAX_PRIORITIES
  | .xTaskCreate t _ =>
      k.ready k.pxCurrentTCB ∧ k.lists.home (.xStateListItem t) = none ∧ k.lists.home (.xEventListItem t) = none
  | .prvCheckTasksWaitingTermination =>
      k.ready k.pxCurrentTCB ∧ k.pxCurrentTCB = cfg.xIdleTaskHandle ∧ k.uxDeletedTasksWaitingCleanUp ≠ 0
  | .vTaskSuspendAll | .vTaskResume _ | .pvTaskIncrementMutexHeldCount => k.ready k.pxCurrentTCB

/-- A request for a context switch. -/
def yieldIf (xYieldRequired : Bool) (k : Kernel) : Kernel :=
  if xYieldRequired then { k with portYIELD := true } else k

/-- The part of `xQueueGenericSend` that gives a mutex back: the yield that the
priority asks for is left out when a task waits for the mutex. -/
def giveMutex (e : Nat) : Option Kernel :=
  (xTaskPriorityDisinherit cfg k).bind fun (xYieldRequired, k) =>
    if k.listCURRENT_LIST_LENGTH (.pxEventList e) ≠ 0 then
      (xTaskRemoveFromEventList cfg k e).map fun (woken, k) => yieldIf woken k
    else some (yieldIf xYieldRequired k)

/-- What an enabled call does. The tick handler asks the port for the context
switch that the tick requires, and a task that has blocked yields when it
resumes the scheduler. -/
def perform : Act → Option Kernel
  | .xTaskIncrementTick => (xTaskIncrementTick cfg k).map fun (xSwitchRequired, k) => yieldIf xSwitchRequired k
  | .portYIELD => some { k with portYIELD := true }
  | .vTaskSwitchContext => vTaskSwitchContext cfg { k with portYIELD := false }
  | .vTaskSuspendAll => some (vTaskSuspendAll k)
  | .xTaskResumeAll => (xTaskResumeAll cfg k).map fun (_, k) => yieldIf (!k.ready k.pxCurrentTCB) k
  | .vTaskDelay n => prvAddCurrentTaskToDelayedList cfg k n false
  | .vTaskPlaceOnEventList e n => vTaskPlaceOnEventList cfg k e n
  | .vTaskPlaceOnUnorderedEventList e v n => vTaskPlaceOnUnorderedEventList cfg k e v n
  | .xTaskRemoveFromEventList e => (xTaskRemoveFromEventList cfg k e).map Prod.snd
  | .vTaskRemoveFromUnorderedEventList t v => vTaskRemoveFromUnorderedEventList cfg k t v
  | .vTaskSuspend t => vTaskSuspend cfg k t
  | .vTaskResume t => vTaskResume cfg k t
  | .xTaskResumeFromISR t => (xTaskResumeFromISR cfg k t).map Prod.snd
  | .xTaskAbortDelay t => (xTaskAbortDelay cfg k t).map Prod.snd
  | .xTaskCatchUpTicks n => some { k with xPendedTicks := cfg.ticks k.xPendedTicks n }
  | .vTaskPrioritySet t p => vTaskPrioritySet cfg k t p
  | .xTaskPriorityInherit t => (xTaskPriorityInherit cfg k t).map Prod.snd
  | .giveMutex e => giveMutex cfg k e
  | .vTaskPriorityDisinheritAfterTimeout t p => vTaskPriorityDisinheritAfterTimeout cfg k t p
  | .pvTaskIncrementMutexHeldCount => some (pvTaskIncrementMutexHeldCount k)
  | .xTaskCreate t p => xTaskCreate cfg k t p
  | .vTaskDelete t => vTaskDelete cfg k t
  | .prvCheckTasksWaitingTermination => prvCheckTasksWaitingTermination k

def next (act : Act) : Option Kernel := if enabled cfg k act then perform cfg k act else none

/-- The scheduler starts with some tasks, the idle task among them. -/
def system : Transition.System Kernel Act where
  start k := ∃ configINITIAL_TICK_COUNT ≤ cfg.portMAX_DELAY, ∃ tasks, (cfg.xIdleTaskHandle, 0) ∈ tasks ∧
    vTaskStartScheduler cfg configINITIAL_TICK_COUNT tasks = some k
  next := next cfg

end FreeRtos.Tasks
