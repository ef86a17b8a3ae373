import FreeRtosCpp11.Tasks.Ready

/-! The list calls of the scheduler, one task at a time. Each of them changes the
view of one task, and a function of the kernel is a few of them in a row. -/
namespace FreeRtos.Tasks

open Links

variable {cfg : Config} {k k' k₁ k₂ : Kernel} {l : TaskList} {t p n top top' : Nat} {v w : View}

/-- One task has changed its view, and the record of ready priorities is given. -/
structure Changed (k k' : Kernel) (t : Nat) (v : View) (top : Nat) : Prop where
  vars : k'.toVars = k.toVars
  view : k'.view = Function.update k.view t v
  sorted : Sorted k'.lists k'.toVars
  top : k'.uxTopReadyPriority = top

theorem Changed.here (h : Changed k k' t v top) : k'.view t = v := by
  rw [h.view, Function.update_self]

theorem Changed.trans (h : Changed k k₁ t v top) (h' : Changed k₁ k₂ t w top') : Changed k k₂ t w top' := by
  refine ⟨h'.vars.trans h.vars, ?_, h'.sorted, h'.top⟩
  rw [h'.view, h.view, Function.update_idem]

theorem Changed.tcb (h : Changed k k' t v top) : k'.tcb = Function.update k.tcb t v.tcb := by
  funext u
  have hView := congrArg View.tcb (congrFun h.view u)
  by_cases hTask : u = t
  · subst hTask
    rw [Function.update_self] at hView ⊢
    exact hView
  · rw [Function.update_of_ne hTask] at hView ⊢
    exact hView

section Calls

variable (hSorted : Sorted k.lists k.toVars)

include hSorted

theorem changed_refl (t : Nat) : Changed k k t (k.view t) k.uxTopReadyPriority :=
  ⟨rfl, (Function.update_eq_self t k.view).symm, hSorted, rfl⟩

theorem changed_remove_state (t : Nat) :
    Changed k (k.call (.remove (.xStateListItem t))) t { k.view t with state := none } k.uxTopReadyPriority :=
  ⟨rfl, Kernel.view_remove_state, hSorted.remove, rfl⟩

theorem changed_remove_event (t : Nat) :
    Changed k (k.call (.remove (.xEventListItem t))) t { k.view t with event := none } k.uxTopReadyPriority :=
  ⟨rfl, Kernel.view_remove_event, hSorted.remove, rfl⟩

theorem changed_removeEventItem (t : Nat) :
    Changed k (removeEventItem k t) t { k.view t with event := none } k.uxTopReadyPriority := by
  by_cases hEvent : k.lists.home (.xEventListItem t) = none
  · have hSame : { k.view t with event := none } = k.view t := by
      simp [Kernel.view, hEvent]
    rw [removeEventItem, if_neg (not_not.mpr hEvent), hSame]
    exact changed_refl hSorted t
  · rw [removeEventItem, if_pos hEvent]
    exact changed_remove_event hSorted t

theorem changed_insertEnd_state (hFree : (k.view t).state = none) (hPlain : Plain l) :
    Changed k (k.call (.insertEnd l (.xStateListItem t))) t { k.view t with state := some l }
      k.uxTopReadyPriority :=
  ⟨rfl, Kernel.view_insertEnd_state, hSorted.insertEnd hFree hPlain, rfl⟩

theorem changed_insert_state (hFree : (k.view t).state = none) :
    Changed k (k.call (.insert l (.xStateListItem t))) t { k.view t with state := some l }
      k.uxTopReadyPriority :=
  ⟨rfl, Kernel.view_insert_state, hSorted.insert hFree, rfl⟩

theorem changed_insertEnd_event (hFree : (k.view t).event = none) (hPlain : Plain l) :
    Changed k (k.call (.insertEnd l (.xEventListItem t))) t { k.view t with event := some l }
      k.uxTopReadyPriority :=
  ⟨rfl, Kernel.view_insertEnd_event, hSorted.insertEnd hFree hPlain, rfl⟩

theorem changed_insert_event (hFree : (k.view t).event = none) :
    Changed k (k.call (.insert l (.xEventListItem t))) t { k.view t with event := some l }
      k.uxTopReadyPriority :=
  ⟨rfl, Kernel.view_insert_event, hSorted.insert hFree, rfl⟩

theorem changed_setTCB (tcb : TCB) :
    Changed k (k.setTCB t tcb) t { k.view t with tcb := tcb } k.uxTopReadyPriority :=
  ⟨rfl, Kernel.view_setTCB tcb, hSorted, rfl⟩

/-- The time to wake, for an item in no list. -/
theorem changed_setTime (hFree : (k.view t).state = none) :
    Changed k (k.call (.setValue (.xStateListItem t) n)) t { k.view t with time := n } k.uxTopReadyPriority := by
  have hHome : k.lists.home (.xStateListItem t) = none := hFree
  refine ⟨rfl, Kernel.view_setValue_state, hSorted.setValue ?_ ?_, rfl⟩
  · rw [hHome]
    exact nofun
  · rw [hHome]
    exact nofun

theorem changed_setValue_event
    (hOut : (k.view t).event ≠ some k.pxDelayedTaskList ∧ (k.view t).event ≠ some k.pxOverflowDelayedTaskList) :
    Changed k (k.call (.setValue (.xEventListItem t) n)) t (k.view t) k.uxTopReadyPriority := by
  refine ⟨rfl, ?_, hSorted.setValue hOut.1 hOut.2, rfl⟩
  rw [Kernel.view_setValue_event, Function.update_eq_self]

theorem changed_record (cfg : Config) (t p : Nat) : Changed k (taskRECORD_READY_PRIORITY cfg k p) t (k.view t)
    (recorded cfg k.uxTopReadyPriority p) := by
  rw [taskRECORD_READY_PRIORITY_eq]
  exact ⟨rfl, (Function.update_eq_self t k.view).symm, hSorted, rfl⟩

theorem changed_reset (cfg : Config) (t p : Nat) : Changed k (portRESET_READY_PRIORITY cfg k p) t (k.view t)
    (unrecorded cfg k.uxTopReadyPriority p) := by
  rw [portRESET_READY_PRIORITY_eq]
  exact ⟨rfl, (Function.update_eq_self t k.view).symm, hSorted, rfl⟩

/-- A task in no state list goes to the ready list of its priority. -/
theorem changed_prvAddTaskToReadyList (cfg : Config) (hFree : (k.view t).state = none) :
    ∃ k', prvAddTaskToReadyList cfg k t = some k' ∧
      Changed k k' t { k.view t with state := some (.pxReadyTasksLists (k.tcb t).uxPriority) }
        (recorded cfg k.uxTopReadyPriority (k.tcb t).uxPriority) := by
  have hRecord := changed_record hSorted cfg t (k.tcb t).uxPriority
  have hHere := hRecord.here
  have hFree' : ((taskRECORD_READY_PRIORITY cfg k (k.tcb t).uxPriority).view t).state = none := by
    rw [hHere, hFree]
  have hInsert := changed_insertEnd_state hRecord.sorted hFree' (plain_ready (p := (k.tcb t).uxPriority))
  rw [hHere, hRecord.top] at hInsert
  exact ⟨_, if_pos hFree', hRecord.trans hInsert⟩

end Calls

theorem vListInsertEnd_state (hFree : (k.view t).state = none) :
    k.vListInsertEnd l (.xStateListItem t) = some (k.call (.insertEnd l (.xStateListItem t))) :=
  if_pos hFree

theorem vListInsert_state (hFree : (k.view t).state = none) :
    k.vListInsert l (.xStateListItem t) = some (k.call (.insert l (.xStateListItem t))) :=
  if_pos hFree

theorem vListInsertEnd_event (hFree : (k.view t).event = none) :
    k.vListInsertEnd l (.xEventListItem t) = some (k.call (.insertEnd l (.xEventListItem t))) :=
  if_pos hFree

theorem vListInsert_event (hFree : (k.view t).event = none) :
    k.vListInsert l (.xEventListItem t) = some (k.call (.insert l (.xEventListItem t))) :=
  if_pos hFree

theorem uxListRemove_state (hState : (k.view t).state = some l) :
    k.uxListRemove (.xStateListItem t) =
      some ((k.call (.remove (.xStateListItem t))).listCURRENT_LIST_LENGTH l, k.call (.remove (.xStateListItem t))) := by
  have hHome : k.lists.home (.xStateListItem t) = some l := hState
  rw [Kernel.uxListRemove, hHome]
  rfl

theorem uxListRemove_event (hEvent : (k.view t).event = some l) :
    k.uxListRemove (.xEventListItem t) =
      some ((k.call (.remove (.xEventListItem t))).listCURRENT_LIST_LENGTH l, k.call (.remove (.xEventListItem t))) := by
  have hHome : k.lists.home (.xEventListItem t) = some l := hEvent
  rw [Kernel.uxListRemove, hHome]
  rfl

/-- A task that is in some state list becomes ready. -/
theorem changed_unblock (cfg : Config) (hSorted : Sorted k.lists k.toVars) (hState : (k.view t).state = some l) :
    ∃ k', unblock cfg k t = some k' ∧
      Changed k k' t { k.view t with state := some (.pxReadyTasksLists (k.tcb t).uxPriority) }
        (recorded cfg k.uxTopReadyPriority (k.tcb t).uxPriority) := by
  have hRemove := changed_remove_state hSorted t
  obtain ⟨k', hAdd, hChanged⟩ := changed_prvAddTaskToReadyList hRemove.sorted cfg
    (by rw [hRemove.here] : ((k.call (.remove (.xStateListItem t))).view t).state = none)
  rw [hRemove.here] at hChanged
  refine ⟨k', ?_, hRemove.trans hChanged⟩
  rw [unblock, uxListRemove_state hState]
  exact hAdd

/-- The places of all tasks after one has become ready. -/
theorem Core.readied (h : Core cfg k) (hChanged : Changed k k' t v top)
    (hTerm : (k.view t).state ≠ some .xTasksWaitingTermination) (hReady : v.ready) (hEvent : v.event = none)
    (hPriority : v.tcb.uxPriority < cfg.configMAX_PRIORITIES ∧ v.tcb.uxBasePriority < cfg.configMAX_PRIORITIES) :
    Core cfg k' := by
  refine h.update hChanged.vars hChanged.view hChanged.sorted ?_ (fun _ => hReady) ?_
  · constructor
    · intro l hl
      rw [hReady] at hl
      exact Or.inl (Option.some.inj hl).symm
    · intro l hl
      rw [hEvent] at hl
      cases hl
    · exact fun hNot => absurd hEvent hNot
    · exact hPriority
    · intro hState
      rw [hReady] at hState
      exact absurd (Option.some.inj hState) (h.sorted.plain plain_ready).2
  · refine iff_of_false ?_ hTerm
    rw [hReady]
    exact nofun

theorem Steady.readied (h : Steady cfg k)
    (hChanged : Changed k k' t v (recorded cfg k.uxTopReadyPriority v.tcb.uxPriority))
    (hOut : ∀ q, (k.view t).state ≠ some (.pxReadyTasksLists q))
    (hTerm : (k.view t).state ≠ some .xTasksWaitingTermination) (hReady : v.ready) (hEvent : v.event = none)
    (hPriority : v.tcb.uxPriority < cfg.configMAX_PRIORITIES ∧ v.tcb.uxBasePriority < cfg.configMAX_PRIORITIES) :
    Steady cfg k' := by
  have hApart : v.state ≠ some k.pxDelayedTaskList := by
    rw [hReady]
    exact fun hSame => (h.sorted.plain plain_ready).1 (Option.some.inj hSame)
  refine ⟨h.toCore.readied hChanged hTerm hReady hEvent hPriority, ?_, ?_, ?_⟩
  · rw [hChanged.top, hChanged.view]
    exact h.selects.record hPriority.1 hOut hReady
  · rw [hChanged.view, hChanged.vars]
    exact (Function.forall_update_iff k.view fun _ v => Due cfg k.toVars (k.xTickCount + 1) v).mpr
      ⟨fun hSame => absurd hSame hApart, fun u _ => h.due u⟩
  · rw [hChanged.view, hChanged.vars]
    exact (Function.forall_update_iff k.view fun _ v => v.state = some k.pxDelayedTaskList →
      k.xNextTaskUnblockTime ≤ v.time).mpr ⟨fun hSame => absurd hSame hApart, fun u _ => h.next u⟩

/-- A task sleeps: its state item is in a delayed list or in the suspended one. -/
def Sleeps (vars : Vars) (x : Option TaskList) : Prop :=
  x = some vars.pxDelayedTaskList ∨ x = some vars.pxOverflowDelayedTaskList ∨ x = some .xSuspendedTaskList

theorem Sleeps.apart {vars : Vars} {a : Lists.Abs Item TaskList} {x : Option TaskList} (h : Sleeps vars x)
    (hSorted : Sorted a vars) (hPlain : Plain l) (hSuspended : l ≠ .xSuspendedTaskList) : x ≠ some l := by
  rintro rfl
  obtain ⟨hDelayed, hOverflow⟩ := hSorted.plain hPlain
  rcases h with hList | hList | hList
  · exact hDelayed (Option.some.inj hList)
  · exact hOverflow (Option.some.inj hList)
  · exact hSuspended (Option.some.inj hList)

/-- A task that waits is in no ready list, and was not deleted. -/
theorem Core.blocked_apart (h : Core cfg k) (hEvent : (k.view t).event ≠ none) :
    (∀ q, (k.view t).state ≠ some (.pxReadyTasksLists q)) ∧
      (k.view t).state ≠ some .xTasksWaitingTermination ∧ ∃ l, (k.view t).state = some l := by
  have hSleeps : Sleeps k.toVars (k.view t).state := (h.placed t).blocked hEvent
  refine ⟨fun q => hSleeps.apart h.sorted plain_ready nofun, hSleeps.apart h.sorted plain_terminated nofun, ?_⟩
  rcases hSleeps with hList | hList | hList <;> exact ⟨_, hList⟩

end FreeRtos.Tasks
