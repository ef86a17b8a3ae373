import FreeRtosCpp11.Tasks.Resume

/-! A task that blocks leaves the ready lists and wakes when its time has passed,
however far the count of ticks is. -/
namespace FreeRtos.Tasks

open Links

variable {cfg : Config} {k k' k₁ : Kernel} {l : TaskList} {t u p n e left top : Nat} {v w : View} {vars : Vars}
  {ev : Option TaskList} {can : Bool}

/-- One task has changed its view, and the deleted tasks are counted again. -/
theorem Good.replace {d : Nat} (h : Good cfg k) (hVars : k'.toVars = { k.toVars with uxDeletedTasksWaitingCleanUp := d })
    (hView : k'.view = Function.update k.view t v) (hSorted : Sorted k'.lists k'.toVars)
    (hPlaced : Placed cfg k.toVars v) (hIdle : t = cfg.xIdleTaskHandle → v.ready)
    (hSelects : Selects cfg k'.uxTopReadyPriority (Function.update k.view t v))
    (hDue : v.state = some k.pxDelayedTaskList →
      k.xTickCount < v.time ∧ v.time ≤ cfg.portMAX_DELAY ∧ k.xNextTaskUnblockTime ≤ v.time)
    (hPending : v.event = some .xPendingReadyList → k.uxSchedulerSuspended ≠ 0)
    (hDeleted : k'.listCURRENT_LIST_LENGTH .xTasksWaitingTermination = d) : Good cfg k' := by
  refine ⟨⟨h.toCore.replace hVars hView hSorted hPlaced hIdle hDeleted, ?_, ?_, ?_⟩, ?_⟩
  · rw [hView]
    exact hSelects
  · rw [hView, hVars]
    exact (Function.forall_update_iff k.view fun _ v => Due cfg k.toVars (k.xTickCount + 1) v).mpr
      ⟨fun hState => ⟨(hDue hState).1, (hDue hState).2.1⟩, fun u _ => h.due u⟩
  · rw [hView, hVars]
    exact (Function.forall_update_iff k.view fun _ v => v.state = some k.pxDelayedTaskList →
      k.xNextTaskUnblockTime ≤ v.time).mpr ⟨fun hState => (hDue hState).2.2, fun u _ => h.next u⟩
  · rw [hView, hVars]
    exact (Function.forall_update_iff k.view fun _ v => v.event = some TaskList.xPendingReadyList →
      k.uxSchedulerSuspended ≠ 0).mpr ⟨hPending, fun u _ => h.pending u⟩

/-- One task has changed its view, and all conditions hold of the new view. -/
theorem Good.changed (h : Good cfg k) (hChanged : Changed k k' t v top) (hPlaced : Placed cfg k.toVars v)
    (hIdle : t = cfg.xIdleTaskHandle → v.ready) (hSelects : Selects cfg top (Function.update k.view t v))
    (hDue : v.state = some k.pxDelayedTaskList →
      k.xTickCount < v.time ∧ v.time ≤ cfg.portMAX_DELAY ∧ k.xNextTaskUnblockTime ≤ v.time)
    (hPending : v.event = some .xPendingReadyList → k.uxSchedulerSuspended ≠ 0)
    (hTerm : v.state = some .xTasksWaitingTermination ↔ (k.view t).state = some .xTasksWaitingTermination) :
    Good cfg k' := by
  refine h.replace hChanged.vars hChanged.view hChanged.sorted hPlaced hIdle ?_ hDue hPending ?_
  · rw [hChanged.top]
    exact hSelects
  · have hCore := h.toCore.update hChanged.vars hChanged.view hChanged.sorted hPlaced hIdle hTerm
    rw [hCore.deleted, hChanged.vars]

/-- The next time to wake may be earlier. -/
theorem Good.lowerNext (h : Good cfg k) (hLe : n ≤ k.xNextTaskUnblockTime) :
    Good cfg { k with xNextTaskUnblockTime := n } :=
  ⟨⟨h.toCore.congr rfl rfl rfl rfl rfl rfl, h.selects, h.due,
    fun t hState => Nat.le_trans hLe (h.next t hState)⟩, h.pending⟩

theorem Changed.setNext (h : Changed k k' t v top) (n : Nat) :
    Changed { k with xNextTaskUnblockTime := n } { k' with xNextTaskUnblockTime := n } t v top := by
  refine ⟨?_, h.view, h.sorted.congr rfl rfl, h.top⟩
  show { k'.toVars with xNextTaskUnblockTime := n } = _
  rw [h.vars]

/-- A ready task leaves its list, and its bit is reset when it was the last one. -/
theorem changed_leave (h : Good cfg k) (hChanged : Changed k k₁ t v k.uxTopReadyPriority)
    (hState : v.state = some (.pxReadyTasksLists p)) (hEvent : ∀ q, v.event ≠ some (.pxReadyTasksLists q)) (q : Nat) :
    let left := (k₁.call (.remove (.xStateListItem t))).listCURRENT_LIST_LENGTH (.pxReadyTasksLists p)
    k₁.uxListRemove (.xStateListItem t) = some (left, k₁.call (.remove (.xStateListItem t))) ∧
      Changed k (if left = 0 then portRESET_READY_PRIORITY cfg (k₁.call (.remove (.xStateListItem t))) q
        else k₁.call (.remove (.xStateListItem t))) t { v with state := none }
        (if left = 0 then unrecorded cfg k.uxTopReadyPriority q else k.uxTopReadyPriority) ∧
      (left = 0 ↔ ∀ u, u ≠ t → (k.view u).state ≠ some (.pxReadyTasksLists p)) := by
  intro left
  have hRemove := changed_remove_state hChanged.sorted t
  have hAll := hChanged.trans hRemove
  rw [hChanged.here, hChanged.top] at hAll
  refine ⟨uxListRemove_state (by rw [hChanged.here, hState]), ?_, ?_⟩
  · split
    case isTrue =>
      have hReset := hAll.trans (changed_reset hAll.sorted cfg t q)
      rw [hAll.here, hAll.top] at hReset
      exact hReset
    case isFalse => exact hAll
  · have hEvents : ∀ u, ((k₁.call (.remove (.xStateListItem t))).view u).event ≠ some (.pxReadyTasksLists p) := by
      rw [hAll.view]
      exact (Function.forall_update_iff k.view fun _ v => v.event ≠ some (TaskList.pxReadyTasksLists p)).mpr
        ⟨hEvent p, fun u _ => (h.placed u).event_ne nofun nofun⟩
    rw [length_eq_zero_iff hAll.sorted.sound hEvents, hAll.view]
    refine (Function.forall_update_iff k.view fun _ v => v.state ≠ some (TaskList.pxReadyTasksLists p)).trans ?_
    exact and_iff_right nofun

/-- A ready task, not the idle one, goes to sleep. -/
theorem Good.asleep (h : Good cfg k)
    (hChanged : Changed k k' t v (if left = 0 then unrecorded cfg k.uxTopReadyPriority p else k.uxTopReadyPriority))
    (hState : (k.view t).state = some (.pxReadyTasksLists p)) (hIdle : t ≠ cfg.xIdleTaskHandle)
    (hLeft : left = 0 ↔ ∀ u, u ≠ t → (k.view u).state ≠ some (.pxReadyTasksLists p))
    (hSleeps : Sleeps k.toVars v.state)
    (hEvent : ∀ l, v.event = some l → ∃ e, l = .pxEventList e)
    (hPriority : v.tcb.uxPriority < cfg.configMAX_PRIORITIES ∧ v.tcb.uxBasePriority < cfg.configMAX_PRIORITIES)
    (hLater : v.state = some k.pxOverflowDelayedTaskList → v.time < k.xTickCount)
    (hDue : v.state = some k.pxDelayedTaskList →
      k.xTickCount < v.time ∧ v.time ≤ cfg.portMAX_DELAY ∧ k.xNextTaskUnblockTime ≤ v.time) : Good cfg k' := by
  have hOut : ∀ l, Plain l → l ≠ .xSuspendedTaskList → v.state ≠ some l := fun _ => hSleeps.apart h.sorted
  refine h.changed hChanged ⟨fun l hl => ?_, fun l hl => Or.inr (hEvent l hl), fun _ => hSleeps, hPriority, hLater⟩
    (fun hSame => absurd hSame hIdle) ?_ hDue ?_ ?_
  · rw [hl, Sleeps, Option.some_inj, Option.some_inj, Option.some_inj] at hSleeps
    rcases hSleeps with hList | hList | hList
    · exact Or.inr (Or.inl hList)
    · exact Or.inr (Or.inr (Or.inl hList))
    · exact Or.inr (Or.inr (Or.inr (Or.inl hList)))
  · refine h.selects.leave hState (fun q => hOut _ plain_ready nofun) (hLeft.trans ?_)
    refine Iff.trans ?_ (Function.forall_update_iff k.view fun _ v => v.state ≠ some (TaskList.pxReadyTasksLists p)).symm
    exact (and_iff_right (hOut _ plain_ready nofun)).symm
  · intro hSame
    obtain ⟨e, hList⟩ := hEvent _ hSame
    cases hList
  · refine iff_of_false (hOut _ plain_terminated nofun) ?_
    rw [hState]
    exact nofun

/-- What it does for the current task to block. -/
structure Blocked (cfg : Config) (k k' : Kernel) (ev : Option TaskList) (n : Nat) (can : Bool) : Prop
    extends Good cfg k' where
  view : ∃ v : View, k'.view = Function.update k.view k.pxCurrentTCB v ∧ v.event = ev ∧
    v.tcb = { k.tcb k.pxCurrentTCB with ucDelayAborted := false } ∧ ¬ v.ready ∧
    k.toVars.wakeAt cfg v = if n = cfg.portMAX_DELAY ∧ can = true then none else some (k.now cfg + n)
  vars : ∃ m, k'.toVars = { k.toVars with xNextTaskUnblockTime := m }

/-- The sum of the ticks is too large at most once. -/
theorem Config.ticks_eq {a : Nat} (hTick : a ≤ cfg.portMAX_DELAY) (hMax : n ≤ cfg.portMAX_DELAY) :
    a + n ≤ cfg.portMAX_DELAY ∧ cfg.ticks a n = a + n ∨
      cfg.ticks a n < a ∧ cfg.ticks a n + (cfg.portMAX_DELAY + 1) = a + n := by
  rw [Config.ticks]
  by_cases hWrap : a + n ≤ cfg.portMAX_DELAY
  · exact Or.inl ⟨hWrap, Nat.mod_eq_of_lt (by omega)⟩
  · rw [Nat.mod_eq_sub_mod (by omega), Nat.mod_eq_of_lt (by omega)]
    omega

/-- The current task blocks, after it was put in an event list or not. -/
theorem prvAddCurrentTaskToDelayedList_spec (h : Good cfg k) (hMay : mayBlock cfg k n = true)
    (hChanged : Changed k k₁ k.pxCurrentTCB { k.view k.pxCurrentTCB with event := ev } k.uxTopReadyPriority)
    (hEvent : ∀ l, ev = some l → ∃ e, l = .pxEventList e) (can : Bool) :
    ∃ k', prvAddCurrentTaskToDelayedList cfg k₁ n can = some k' ∧ Blocked cfg k k' ev n can := by
  obtain ⟨hRuns, hNotIdle, _, hPos, hMax⟩ := of_decide_eq_true hMay
  have hReady := ready_iff.mp hRuns
  have hPriority := (h.placed k.pxCurrentTCB).priority
  have hCurrent : k₁.pxCurrentTCB = k.pxCurrentTCB := by rw [hChanged.vars]
  have hTcb : k₁.tcb k.pxCurrentTCB = k.tcb k.pxCurrentTCB := by
    rw [hChanged.tcb, Function.update_self]
    rfl
  have hSet := hChanged.trans (changed_setTCB hChanged.sorted
    { k.tcb k.pxCurrentTCB with ucDelayAborted := false })
  rw [hChanged.here, hChanged.top] at hSet
  obtain ⟨hRemove, hLeft, hZero⟩ := changed_leave h hSet hReady
    (fun q hSame => by obtain ⟨e, he⟩ := hEvent _ hSame; cases he) (k.tcb k.pxCurrentTCB).uxPriority
  have hSame : (((k₁.setTCB k.pxCurrentTCB { k.tcb k.pxCurrentTCB with ucDelayAborted := false }).call
      (.remove (.xStateListItem k.pxCurrentTCB))).tcb k.pxCurrentTCB).uxPriority =
        (k.tcb k.pxCurrentTCB).uxPriority := by
    rw [Kernel.tcb_call, Kernel.tcb_setTCB]
  rw [prvAddCurrentTaskToDelayedList]
  dsimp only
  rw [hCurrent, hTcb, hRemove, Option.bind_some]
  dsimp only
  rw [hSame]
  generalize Kernel.listCURRENT_LIST_LENGTH _ _ = left at hLeft hZero ⊢
  generalize (if left = 0 then _ else _ : Kernel) = k₂ at hLeft ⊢
  obtain ⟨vars, lists, tcb, top⟩ := k₂
  obtain rfl : vars = k.toVars := hLeft.vars
  have hAway : ((⟨k.toVars, lists, tcb, top⟩ : Kernel).view k.pxCurrentTCB).state = none := by rw [hLeft.here]
  have hEvent' : ∀ l, { k.view k.pxCurrentTCB with event := ev }.event = some l → ∃ e, l = .pxEventList e := hEvent
  by_cases hForever : n = cfg.portMAX_DELAY ∧ can = true
  · have hInsert := hLeft.trans (changed_insertEnd_state hLeft.sorted hAway plain_suspended)
    rw [hLeft.here, hLeft.top] at hInsert
    rw [if_pos hForever, vListInsertEnd_state hAway]
    obtain ⟨hDelayed, hOverflow⟩ := h.sorted.plain plain_suspended
    refine ⟨_, rfl, h.asleep hInsert hReady hNotIdle hZero (Or.inr (Or.inr rfl)) hEvent' hPriority
      (fun hList => absurd (Option.some.inj hList) hOverflow) (fun hList => absurd (Option.some.inj hList) hDelayed),
      ⟨_, hInsert.view, rfl, rfl, nofun, ?_⟩, ⟨_, rfl⟩⟩
    rw [if_pos hForever, Vars.wakeAt, if_neg, if_neg]
    · exact fun hList => hOverflow (Option.some.inj hList)
    · exact fun hList => hDelayed (Option.some.inj hList)
  · have hTime := hLeft.trans (changed_setTime (n := cfg.ticks k.xTickCount n) hLeft.sorted hAway)
    rw [hLeft.here, hLeft.top] at hTime
    rw [if_neg hForever]
    dsimp only
    generalize Kernel.call _ (.setValue _ _) = k₃ at hTime ⊢
    obtain ⟨vars, lists, tcb, top⟩ := k₃
    obtain rfl : vars = k.toVars := hTime.vars
    have hFree : ((⟨k.toVars, lists, tcb, top⟩ : Kernel).view k.pxCurrentTCB).state = none := by rw [hTime.here]
    have hInsert : ∀ l, _ := fun l => hTime.trans (changed_insert_state (l := l) hTime.sorted hFree)
    rw [hTime.here, hTime.top] at hInsert
    rcases Config.ticks_eq h.tick hMax with ⟨hLe, hTicks⟩ | ⟨hLess, hTicks⟩
    · rw [if_neg (show ¬ cfg.ticks k.xTickCount n < k.xTickCount by omega), vListInsert_state hFree, Option.map_some]
      have hFirst := hInsert k.pxDelayedTaskList
      have hLater : some k.pxDelayedTaskList = some k.pxOverflowDelayedTaskList →
          cfg.ticks k.xTickCount n < k.xTickCount :=
        fun hList => absurd (Option.some.inj hList) h.sorted.delayed_ne
      have hNotReady : some k.pxDelayedTaskList ≠
          some (TaskList.pxReadyTasksLists (k.tcb k.pxCurrentTCB).uxPriority) :=
        fun hSame => (h.sorted.plain plain_ready).1 (Option.some.inj hSame).symm
      have hWake : k.toVars.wakeAt cfg ⟨some k.pxDelayedTaskList, ev, cfg.ticks k.xTickCount n,
          { k.tcb k.pxCurrentTCB with ucDelayAborted := false }⟩ =
            if n = cfg.portMAX_DELAY ∧ can = true then none else some (k.now cfg + n) := by
        rw [if_neg hForever, Vars.wakeAt, if_pos rfl, Kernel.now, Vars.now]
        congr 1
        dsimp only
        omega
      refine ⟨_, rfl, ?_⟩
      split
      case isTrue hEarlier =>
        have hGood := h.lowerNext (Nat.le_of_lt hEarlier)
        refine ⟨hGood.asleep (hFirst.setNext _) hReady hNotIdle hZero (Or.inl rfl) hEvent' hPriority hLater
          (fun _ => ⟨?_, ?_, Nat.le_refl _⟩), ⟨_, hFirst.view, rfl, rfl, hNotReady, hWake⟩, ⟨_, rfl⟩⟩
        · show k.xTickCount < cfg.ticks k.xTickCount n
          omega
        · show cfg.ticks k.xTickCount n ≤ _
          omega
      case isFalse hNot =>
        refine ⟨h.asleep hFirst hReady hNotIdle hZero (Or.inl rfl) hEvent' hPriority hLater
          (fun _ => ⟨?_, ?_, Nat.le_of_not_lt hNot⟩), ⟨_, hFirst.view, rfl, rfl, hNotReady, hWake⟩, ⟨_, rfl⟩⟩
        · show k.xTickCount < cfg.ticks k.xTickCount n
          omega
        · show cfg.ticks k.xTickCount n ≤ _
          omega
    · rw [if_pos hLess, vListInsert_state hFree]
      refine ⟨_, rfl, h.asleep (hInsert _) hReady hNotIdle hZero (Or.inr (Or.inl rfl)) hEvent' hPriority
        (fun _ => hLess) (fun hList => absurd (Option.some.inj hList).symm h.sorted.delayed_ne),
        ⟨_, (hInsert _).view, rfl, rfl, ?_, ?_⟩, ⟨_, (hInsert _).vars⟩⟩
      · exact fun hSame => (h.sorted.plain plain_ready).2 (Option.some.inj hSame).symm
      · rw [if_neg hForever, Vars.wakeAt, if_neg, if_pos rfl, Kernel.now, Vars.now, Nat.add_mul, Nat.one_mul]
        · congr 1
          dsimp only
          omega
        · exact fun hList => h.sorted.delayed_ne (Option.some.inj hList).symm

/-- The current task is in no event list. -/
theorem Good.running_event (h : Good cfg k) (hRuns : k.ready k.pxCurrentTCB = true) :
    (k.view k.pxCurrentTCB).event = none := by
  by_contra hWaits
  exact (h.blocked_apart hWaits).1 _ (ready_iff.mp hRuns)

theorem vTaskPlaceOnEventList_spec (h : Good cfg k) (hMay : mayBlock cfg k n = true) (e : Nat) :
    ∃ k', vTaskPlaceOnEventList cfg k e n = some k' ∧ Blocked cfg k k' (some (.pxEventList e)) n true := by
  have hFree := h.running_event (of_decide_eq_true hMay).1
  have hInsert := changed_insert_event (l := .pxEventList e) h.sorted hFree
  obtain ⟨k', hCall, hBlocked⟩ := prvAddCurrentTaskToDelayedList_spec h hMay hInsert
    (fun l hl => ⟨e, (Option.some.inj hl).symm⟩) true
  exact ⟨k', by rw [vTaskPlaceOnEventList, vListInsert_event hFree]; exact hCall, hBlocked⟩

theorem vTaskPlaceOnUnorderedEventList_spec (h : Good cfg k) (hMay : mayBlock cfg k n = true) (e u : Nat) :
    ∃ k', vTaskPlaceOnUnorderedEventList cfg k e u n = some k' ∧ Blocked cfg k k' (some (.pxEventList e)) n true := by
  have hFree := h.running_event (of_decide_eq_true hMay).1
  have hValue := changed_setValue_event (t := k.pxCurrentTCB) (n := u ||| cfg.taskEVENT_LIST_ITEM_VALUE_IN_USE)
    h.sorted (by rw [hFree]; exact ⟨nofun, nofun⟩)
  have hFree' : ((k.call (.setValue (.xEventListItem k.pxCurrentTCB)
      (u ||| cfg.taskEVENT_LIST_ITEM_VALUE_IN_USE))).view k.pxCurrentTCB).event = none := by
    rw [hValue.here, hFree]
  have hInsert := hValue.trans (changed_insertEnd_event hValue.sorted hFree' (plain_event (p := e)))
  rw [hValue.here, hValue.top] at hInsert
  obtain ⟨k', hCall, hBlocked⟩ := prvAddCurrentTaskToDelayedList_spec h hMay hInsert
    (fun l hl => ⟨e, (Option.some.inj hl).symm⟩) true
  refine ⟨k', ?_, hBlocked⟩
  rw [vTaskPlaceOnUnorderedEventList, Kernel.toVars_call, vListInsertEnd_event hFree']
  exact hCall

theorem vTaskDelay_spec (h : Good cfg k) (hMay : mayBlock cfg k n = true) :
    ∃ k', prvAddCurrentTaskToDelayedList cfg k n false = some k' ∧ Blocked cfg k k' none n false := by
  have hSame := changed_refl h.sorted k.pxCurrentTCB
  have hView : { k.view k.pxCurrentTCB with event := none } = k.view k.pxCurrentTCB := by
    rw [← h.running_event (of_decide_eq_true hMay).1]
  rw [← hView] at hSame
  exact prvAddCurrentTaskToDelayedList_spec h hMay hSame nofun false

end FreeRtos.Tasks
