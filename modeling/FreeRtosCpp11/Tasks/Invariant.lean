import FreeRtosCpp11.Tasks.View

/-! What every call of the scheduler keeps: each task is in the lists that its
state asks for, and the search for the highest priority does not miss a task. -/
namespace FreeRtos.Tasks

open Links

variable {cfg : Config} {k k' : Kernel} {l : TaskList} {t u p n : Nat} {v : View} {vars : Vars}

/-- A task is where its state has it. A task that waits for an event is not
ready, and a delayed task on the second list wakes after the count of ticks has
started anew. -/
structure Placed (cfg : Config) (vars : Vars) (v : View) : Prop where
  state : ∀ l, v.state = some l → l = .pxReadyTasksLists v.tcb.uxPriority ∨ l = vars.pxDelayedTaskList ∨
    l = vars.pxOverflowDelayedTaskList ∨ l = .xSuspendedTaskList ∨ l = .xTasksWaitingTermination
  event : ∀ l, v.event = some l → l = .xPendingReadyList ∨ ∃ e, l = .pxEventList e
  blocked : v.event ≠ none → v.state = some vars.pxDelayedTaskList ∨
    v.state = some vars.pxOverflowDelayedTaskList ∨ v.state = some .xSuspendedTaskList
  priority : v.tcb.uxPriority < cfg.configMAX_PRIORITIES ∧ v.tcb.uxBasePriority < cfg.configMAX_PRIORITIES
  later : v.state = some vars.pxOverflowDelayedTaskList → v.time < vars.xTickCount

/-- A delayed task is not due before the given time. -/
def Due (cfg : Config) (vars : Vars) (n : Nat) (v : View) : Prop :=
  v.state = some vars.pxDelayedTaskList → n ≤ v.time ∧ v.time ≤ cfg.portMAX_DELAY

structure Core (cfg : Config) (k : Kernel) : Prop where
  sorted : Sorted k.lists k.toVars
  tick : k.xTickCount ≤ cfg.portMAX_DELAY
  placed : ∀ t, Placed cfg k.toVars (k.view t)
  idle : (k.view cfg.xIdleTaskHandle).ready
  deleted : k.listCURRENT_LIST_LENGTH .xTasksWaitingTermination = k.uxDeletedTasksWaitingCleanUp

theorem sound_length_congr {a b : Lists.Abs Item TaskList} (hFirst : a.Sound) (hSecond : b.Sound)
    (hHome : ∀ i, a.home i = some l ↔ b.home i = some l) :
    (a.round l).order.length = (b.round l).order.length := by
  refine ((List.perm_ext_iff_of_nodup (hFirst.nodup l) (hSecond.nodup l)).mpr fun i => ?_).length_eq
  rw [hFirst.member, hSecond.member, hHome]

/-- A list for state items has no event item. -/
theorem Placed.event_ne (h : Placed cfg vars v) (hList : l ≠ .xPendingReadyList) (hEvent : ∀ e, l ≠ .pxEventList e) :
    v.event ≠ some l := by
  intro hSame
  rcases h.event l hSame with hPending | ⟨e, hOther⟩
  · exact hList hPending
  · exact hEvent e hOther

/-- The length of a list for state items, by the states of the tasks. -/
theorem length_congr (hFirst : Core cfg k) (hSound : k'.lists.Sound) (hEvents : ∀ t, (k'.view t).event ≠ some l)
    (hList : l ≠ .xPendingReadyList) (hEvent : ∀ e, l ≠ .pxEventList e)
    (hStates : ∀ t, (k'.view t).state = some l ↔ (k.view t).state = some l) :
    k'.listCURRENT_LIST_LENGTH l = k.listCURRENT_LIST_LENGTH l := by
  refine sound_length_congr hSound hFirst.sorted.sound fun i => ?_
  cases i with
  | xStateListItem t => exact hStates t
  | xEventListItem t =>
      exact iff_of_false (hEvents t) ((hFirst.placed t).event_ne hList hEvent)

/-- One task changes its place, and the deleted tasks are counted again. -/
theorem Core.replace {d : Nat} (h : Core cfg k) (hVars : k'.toVars = { k.toVars with uxDeletedTasksWaitingCleanUp := d })
    (hView : k'.view = Function.update k.view t v) (hSorted : Sorted k'.lists k'.toVars)
    (hPlaced : Placed cfg k.toVars v) (hIdle : t = cfg.xIdleTaskHandle → v.ready)
    (hDeleted : k'.listCURRENT_LIST_LENGTH .xTasksWaitingTermination = d) : Core cfg k' := by
  have hAll : ∀ u, Placed cfg k.toVars (k'.view u) := by
    rw [hView]
    exact (Function.forall_update_iff k.view fun _ v => Placed cfg k.toVars v).mpr ⟨hPlaced, fun u _ => h.placed u⟩
  refine ⟨hSorted, ?_, fun u => ?_, ?_, ?_⟩
  · rw [hVars]
    exact h.tick
  · obtain ⟨hState, hEvent, hBlocked, hPriority, hLater⟩ := hAll u
    rw [hVars]
    exact ⟨hState, hEvent, hBlocked, hPriority, hLater⟩
  · rw [hView]
    by_cases hTask : cfg.xIdleTaskHandle = t
    · rw [hTask, Function.update_self]
      exact hIdle hTask.symm
    · rw [Function.update_of_ne hTask]
      exact h.idle
  · rw [hDeleted, hVars]

/-- One task changes its place. -/
theorem Core.update (h : Core cfg k) (hVars : k'.toVars = k.toVars) (hView : k'.view = Function.update k.view t v)
    (hSorted : Sorted k'.lists k'.toVars) (hPlaced : Placed cfg k.toVars v) (hIdle : t = cfg.xIdleTaskHandle → v.ready)
    (hTerm : v.state = some .xTasksWaitingTermination ↔ (k.view t).state = some .xTasksWaitingTermination) :
    Core cfg k' := by
  refine h.replace hVars hView hSorted hPlaced hIdle ?_
  rw [← h.deleted]
  refine length_congr h hSorted.sound (fun u => ?_) nofun nofun ?_
  · rw [hView]
    exact (Function.forall_update_iff k.view fun _ v => v.event ≠ some TaskList.xTasksWaitingTermination).mpr
      ⟨hPlaced.event_ne nofun nofun, fun u _ => (h.placed u).event_ne nofun nofun⟩ u
  · rw [hView]
    exact (Function.forall_update_iff k.view fun u v => v.state = some TaskList.xTasksWaitingTermination ↔
      (k.view u).state = some .xTasksWaitingTermination).mpr ⟨hTerm, fun _ _ => Iff.rfl⟩

/-- Variables that the places of the tasks do not depend on. -/
theorem Core.congr (h : Core cfg k) (hLists : k'.lists = k.lists) (hTcb : k'.tcb = k.tcb)
    (hDelayed : k'.pxDelayedTaskList = k.pxDelayedTaskList)
    (hOverflow : k'.pxOverflowDelayedTaskList = k.pxOverflowDelayedTaskList) (hTick : k'.xTickCount = k.xTickCount)
    (hDeleted : k'.uxDeletedTasksWaitingCleanUp = k.uxDeletedTasksWaitingCleanUp) : Core cfg k' := by
  have hView : k'.view = k.view := by
    funext t
    simp only [Kernel.view, hLists, hTcb]
  refine ⟨?_, ?_, fun t => ?_, ?_, ?_⟩
  · rw [hLists]
    exact h.sorted.congr hDelayed hOverflow
  · rw [hTick]
    exact h.tick
  · obtain ⟨hState, hEvent, hBlocked, hPriority, hLater⟩ := h.placed t
    rw [hView]
    constructor
    · rw [hDelayed, hOverflow]
      exact hState
    · exact hEvent
    · rw [hDelayed, hOverflow]
      exact hBlocked
    · exact hPriority
    · rw [hOverflow, hTick]
      exact hLater
  · rw [hView]
    exact h.idle
  · rw [hDeleted, ← h.deleted, Kernel.listCURRENT_LIST_LENGTH, Kernel.listCURRENT_LIST_LENGTH, hLists]

end FreeRtos.Tasks
