import FreeRtosCpp11.Tasks.Machine

/-! What the scheduler knows of each task: where its two items are, the value of
its state item and its control block. Every call of `list.c` changes the view of
one task. -/
namespace FreeRtos.Tasks

open Links

structure View where
  state : Option TaskList
  event : Option TaskList
  time : Nat
  tcb : TCB

def Kernel.view (k : Kernel) (t : Nat) : View where
  state := k.lists.home (.xStateListItem t)
  event := k.lists.home (.xEventListItem t)
  time := k.lists.value (.xStateListItem t)
  tcb := k.tcb t

/-- The task is in the ready list of its priority. -/
def View.ready (v : View) : Prop := v.state = some (.pxReadyTasksLists v.tcb.uxPriority)

variable {cfg : Config} {k : Kernel} {l : TaskList} {t u v p : Nat}

theorem ready_iff : k.ready t = true ↔ (k.view t).ready := decide_eq_true_iff

theorem lives_iff : k.lives t = true ↔ (k.view t).state ≠ none ∧ (k.view t).state ≠ some .xTasksWaitingTermination :=
  decide_eq_true_iff

namespace Kernel

@[simp] theorem toVars_call (act : Lists.Act Item TaskList) : (k.call act).toVars = k.toVars := rfl

@[simp] theorem tcb_call (act : Lists.Act Item TaskList) : (k.call act).tcb = k.tcb := rfl

@[simp] theorem uxTopReadyPriority_call (act : Lists.Act Item TaskList) :
    (k.call act).uxTopReadyPriority = k.uxTopReadyPriority := rfl

@[simp] theorem toVars_setTCB (tcb : TCB) : (k.setTCB t tcb).toVars = k.toVars := rfl

@[simp] theorem lists_setTCB (tcb : TCB) : (k.setTCB t tcb).lists = k.lists := rfl

@[simp] theorem tcb_setTCB (tcb : TCB) : (k.setTCB t tcb).tcb t = tcb := Function.update_self ..

@[simp] theorem uxTopReadyPriority_setTCB (tcb : TCB) :
    (k.setTCB t tcb).uxTopReadyPriority = k.uxTopReadyPriority := rfl

@[simp] theorem view_setTCB (tcb : TCB) :
    (k.setTCB t tcb).view = Function.update k.view t { k.view t with tcb := tcb } := by
  funext u
  by_cases hTask : u = t
  · subst hTask
    simp [view, setTCB]
  · simp [view, setTCB, hTask]

/-- A state item that goes to another list, or leaves its list. -/
theorem view_of_state {act : Lists.Act Item TaskList} {x : Option TaskList}
    (hHome : (k.lists.step act).home = Function.update k.lists.home (.xStateListItem t) x)
    (hValue : (k.lists.step act).value = k.lists.value) :
    (k.call act).view = Function.update k.view t { k.view t with state := x } := by
  funext u
  by_cases hTask : u = t
  · subst hTask
    simp [view, call, hHome, hValue]
  · simp [view, call, hHome, hValue, hTask]

theorem view_of_event {act : Lists.Act Item TaskList} {x : Option TaskList}
    (hHome : (k.lists.step act).home = Function.update k.lists.home (.xEventListItem t) x)
    (hValue : (k.lists.step act).value = k.lists.value) :
    (k.call act).view = Function.update k.view t { k.view t with event := x } := by
  funext u
  by_cases hTask : u = t
  · subst hTask
    simp [view, call, hHome, hValue]
  · simp [view, call, hHome, hValue, hTask]

@[simp] theorem view_insertEnd_state : (k.call (.insertEnd l (.xStateListItem t))).view =
    Function.update k.view t { k.view t with state := some l } :=
  view_of_state Lists.Abs.home_insertEnd rfl

@[simp] theorem view_insert_state : (k.call (.insert l (.xStateListItem t))).view =
    Function.update k.view t { k.view t with state := some l } :=
  view_of_state Lists.Abs.home_insert rfl

@[simp] theorem view_remove_state : (k.call (.remove (.xStateListItem t))).view =
    Function.update k.view t { k.view t with state := none } :=
  view_of_state Lists.Abs.home_remove Lists.Abs.value_remove

@[simp] theorem view_insertEnd_event : (k.call (.insertEnd l (.xEventListItem t))).view =
    Function.update k.view t { k.view t with event := some l } :=
  view_of_event Lists.Abs.home_insertEnd rfl

@[simp] theorem view_insert_event : (k.call (.insert l (.xEventListItem t))).view =
    Function.update k.view t { k.view t with event := some l } :=
  view_of_event Lists.Abs.home_insert rfl

@[simp] theorem view_remove_event : (k.call (.remove (.xEventListItem t))).view =
    Function.update k.view t { k.view t with event := none } :=
  view_of_event Lists.Abs.home_remove Lists.Abs.value_remove

@[simp] theorem view_nextEntry : (k.call (.nextEntry l)).view = k.view := rfl

@[simp] theorem view_setValue_state : (k.call (.setValue (.xStateListItem t) v)).view =
    Function.update k.view t { k.view t with time := v } := by
  funext u
  by_cases hTask : u = t
  · subst hTask
    simp [view, call]
  · simp [view, call, hTask]

@[simp] theorem view_setValue_event : (k.call (.setValue (.xEventListItem t) v)).view = k.view := by
  funext u
  simp [view, call]

end Kernel

/-- A list that is none of the two delayed ones. -/
def Plain (l : TaskList) : Prop := l ≠ .xDelayedTaskList1 ∧ l ≠ .xDelayedTaskList2

@[simp] theorem plain_ready : Plain (.pxReadyTasksLists p) := ⟨nofun, nofun⟩

@[simp] theorem plain_pending : Plain .xPendingReadyList := ⟨nofun, nofun⟩

@[simp] theorem plain_suspended : Plain .xSuspendedTaskList := ⟨nofun, nofun⟩

@[simp] theorem plain_terminated : Plain .xTasksWaitingTermination := ⟨nofun, nofun⟩

@[simp] theorem plain_event : Plain (.pxEventList p) := ⟨nofun, nofun⟩

/-- The lists hold every item once, and the delayed ones by the time to wake. -/
structure Sorted (a : Lists.Abs Item TaskList) (vars : Vars) : Prop where
  sound : a.Sound
  lists : vars.pxDelayedTaskList = .xDelayedTaskList1 ∧ vars.pxOverflowDelayedTaskList = .xDelayedTaskList2 ∨
    vars.pxDelayedTaskList = .xDelayedTaskList2 ∧ vars.pxOverflowDelayedTaskList = .xDelayedTaskList1
  delayed : a.Ascending vars.pxDelayedTaskList
  overflow : a.Ascending vars.pxOverflowDelayedTaskList

namespace Sorted

variable {a : Lists.Abs Item TaskList} {vars : Vars} {i : Item}

theorem delayed_ne (h : Sorted a vars) : vars.pxDelayedTaskList ≠ vars.pxOverflowDelayedTaskList := by
  rcases h.lists with ⟨hd, ho⟩ | ⟨hd, ho⟩ <;> simp [hd, ho]

theorem plain (h : Sorted a vars) (hPlain : Plain l) :
    l ≠ vars.pxDelayedTaskList ∧ l ≠ vars.pxOverflowDelayedTaskList := by
  rcases h.lists with ⟨hd, ho⟩ | ⟨hd, ho⟩ <;> simp [hd, ho, hPlain.1, hPlain.2]

theorem insertEnd (h : Sorted a vars) (hFree : a.home i = none) (hPlain : Plain l) :
    Sorted (a.step (.insertEnd l i)) vars :=
  ⟨h.sound.insertEnd hFree, h.lists, h.delayed.insertEnd (h.plain hPlain).1.symm,
    h.overflow.insertEnd (h.plain hPlain).2.symm⟩

theorem insert (h : Sorted a vars) (hFree : a.home i = none) : Sorted (a.step (.insert l i)) vars :=
  ⟨h.sound.insert hFree, h.lists, h.delayed.insert, h.overflow.insert⟩

theorem remove (h : Sorted a vars) : Sorted (a.step (.remove i)) vars :=
  ⟨h.sound.remove, h.lists, h.delayed.remove h.sound, h.overflow.remove h.sound⟩

theorem nextEntry (h : Sorted a vars) : Sorted (a.step (.nextEntry l)) vars :=
  ⟨h.sound.nextEntry, h.lists, h.delayed.nextEntry, h.overflow.nextEntry⟩

theorem setValue (h : Sorted a vars) (hDelayed : a.home i ≠ some vars.pxDelayedTaskList)
    (hOverflow : a.home i ≠ some vars.pxOverflowDelayedTaskList) : Sorted (a.step (.setValue i v)) vars :=
  ⟨h.sound.setValue, h.lists, h.delayed.setValue h.sound hDelayed, h.overflow.setValue h.sound hOverflow⟩

/-- Other variables may change. -/
theorem congr {vars' : Vars} (h : Sorted a vars) (hDelayed : vars'.pxDelayedTaskList = vars.pxDelayedTaskList)
    (hOverflow : vars'.pxOverflowDelayedTaskList = vars.pxOverflowDelayedTaskList) : Sorted a vars' := by
  obtain ⟨hSound, hLists, hAscending, hLater⟩ := h
  rw [← hDelayed, ← hOverflow] at hLists
  rw [← hDelayed] at hAscending
  rw [← hOverflow] at hLater
  exact ⟨hSound, hLists, hAscending, hLater⟩

end Sorted

end FreeRtos.Tasks
