import FreeRtosCpp11.Tasks.Block

/-! The calls that make one task ready: the end of its wait for an event, the end
of its suspension and the abort of its delay. -/
namespace FreeRtos.Tasks

open Links

variable {cfg : Config} {k k' k₁ : Kernel} {l : TaskList} {t u p n e top : Nat} {v w : View} {vars : Vars}

/-- A call has changed one task; requests for a context switch stay. -/
structure Outcome (cfg : Config) (k k' : Kernel) (t : Nat) (v : View) : Prop extends Good cfg k' where
  view : k'.view = Function.update k.view t v
  vars : ∃ n d x y, k'.toVars =
      { k.toVars with
        xNextTaskUnblockTime := n
        uxDeletedTasksWaitingCleanUp := d
        xYieldPending := k.xYieldPending || x
        portYIELD := k.portYIELD || y }

/-- A task that has changed does not call for a context switch: another one is
not above the current task, and the current task did not lose its place. -/
def Calm (k : Kernel) (t : Nat) (v : View) : Prop :=
  if t = k.pxCurrentTCB then
    (k.tcb k.pxCurrentTCB).uxPriority ≤ v.tcb.uxPriority ∧ (v.ready ∨ k.uxSchedulerSuspended ≠ 0)
  else v.ready → v.tcb.uxPriority ≤ (k.tcb k.pxCurrentTCB).uxPriority

/-- A change that calls for a context switch comes with the request for it. -/
def Answered (k k' : Kernel) (t : Nat) (v : View) : Prop :=
  k'.xYieldPending = true ∨ k'.portYIELD = true ∨ Calm k t v

theorem Good.setPortYIELD (h : Good cfg k) (y : Bool) : Good cfg { k with portYIELD := y } :=
  ⟨⟨h.toCore.congr rfl rfl rfl rfl rfl rfl, h.selects, h.due, h.next⟩, h.pending⟩

theorem Good.resetNext (h : Good cfg k) : Good cfg (prvResetNextTaskUnblockTime cfg k) :=
  ⟨h.toSteady.resetNext, h.pending⟩

theorem yield_eq (c : Prop) [Decidable c] (k : Kernel) :
    (if c then { k with portYIELD := true } else k) = { k with portYIELD := k.portYIELD || decide c } := by
  split
  case isTrue hHolds => rw [decide_eq_true hHolds, Bool.or_true]
  case isFalse hFails => rw [decide_eq_false hFails, Bool.or_false]

theorem raise_answer (c : Prop) [Decidable c] (k : Kernel) :
    (if c then (true, { k with xYieldPending := true }) else (false, k)) =
      (decide c, { k with xYieldPending := k.xYieldPending || decide c }) := by
  split
  case isTrue hHolds => rw [decide_eq_true hHolds, Bool.or_true]
  case isFalse hFails => rw [decide_eq_false hFails, Bool.or_false]

theorem Changed.pending (h : Changed k k' t v top) (hGood : Good cfg k') (x : Bool) :
    Outcome cfg k { k' with xYieldPending := k'.xYieldPending || x } t v := by
  refine ⟨hGood.setYieldPending _, h.view, k.xNextTaskUnblockTime, k.uxDeletedTasksWaitingCleanUp, x, false, ?_⟩
  show { k'.toVars with xYieldPending := k'.xYieldPending || x } = _
  rw [h.vars, Bool.or_false]

theorem Changed.yield (h : Changed k k' t v top) (hGood : Good cfg k') (y : Bool) :
    Outcome cfg k { k' with portYIELD := k'.portYIELD || y } t v := by
  refine ⟨hGood.setPortYIELD _, h.view, k.xNextTaskUnblockTime, k.uxDeletedTasksWaitingCleanUp, false, y, ?_⟩
  show { k'.toVars with portYIELD := k'.portYIELD || y } = _
  rw [h.vars, Bool.or_false]

theorem Changed.outcome (h : Changed k k' t v top) (hGood : Good cfg k') : Outcome cfg k k' t v := by
  refine ⟨hGood, h.view, k.xNextTaskUnblockTime, k.uxDeletedTasksWaitingCleanUp, false, false, ?_⟩
  rw [h.vars, Bool.or_false, Bool.or_false]

/-- A task that was not ready and not deleted is ready. -/
theorem Good.readied (h : Good cfg k)
    (hChanged : Changed k k' t v (recorded cfg k.uxTopReadyPriority v.tcb.uxPriority))
    (hOut : ∀ q, (k.view t).state ≠ some (.pxReadyTasksLists q))
    (hTerm : (k.view t).state ≠ some .xTasksWaitingTermination) (hReady : v.ready) (hEvent : v.event = none)
    (hPriority : v.tcb.uxPriority < cfg.configMAX_PRIORITIES ∧ v.tcb.uxBasePriority < cfg.configMAX_PRIORITIES) :
    Good cfg k' := by
  refine ⟨h.toSteady.readied hChanged hOut hTerm hReady hEvent hPriority, ?_⟩
  rw [hChanged.view, hChanged.vars]
  refine (Function.forall_update_iff k.view fun _ v => v.event = some TaskList.xPendingReadyList →
    k.uxSchedulerSuspended ≠ 0).mpr ⟨fun hSame => ?_, fun u _ => h.pending u⟩
  rw [hEvent] at hSame
  cases hSame

/-- A task whose event item leaves its list is ready. -/
theorem Good.release (h : Good cfg k) (hEvent : (k.view t).event ≠ none) :
    ∃ k', unblock cfg (k.call (.remove (.xEventListItem t))) t = some k' ∧
      Changed k k' t (k.view t).woken (recorded cfg k.uxTopReadyPriority (k.tcb t).uxPriority) ∧ Good cfg k' := by
  obtain ⟨k', hUnblock, hChanged, _⟩ := changed_release h.toSteady hEvent
  obtain ⟨hOut, hTerm, _⟩ := h.blocked_apart hEvent
  exact ⟨k', hUnblock, hChanged, h.readied hChanged hOut hTerm rfl rfl (h.placed t).priority⟩

/-- The task that changes keeps its priority. -/
theorem Changed.priority_eq (h : Changed k k' t v top) (hTcb : v.tcb.uxPriority = (k.tcb t).uxPriority) (u : Nat) :
    (k'.tcb u).uxPriority = (k.tcb u).uxPriority := by
  rw [h.tcb]
  by_cases hTask : u = t
  · subst hTask
    rw [Function.update_self, hTcb]
  · rw [Function.update_of_ne hTask]

/-- Whether the task is above the current one, after the call as before it. -/
theorem Changed.higher_iff (h : Changed k k' t v top) (hTcb : v.tcb.uxPriority = (k.tcb t).uxPriority) :
    (k'.tcb t).uxPriority > (k'.tcb k'.pxCurrentTCB).uxPriority ↔
      (k.tcb k.pxCurrentTCB).uxPriority < (k.tcb t).uxPriority := by
  have hCurrent : k'.pxCurrentTCB = k.pxCurrentTCB := by rw [h.vars]
  rw [h.priority_eq hTcb, h.priority_eq hTcb, hCurrent]

/-- A task that keeps its priority is a reason to yield when it is higher than that
of the current task. -/
theorem calm_or_higher {v : View} (hTcb : v.tcb.uxPriority = (k.tcb t).uxPriority)
    (hPlace : t = k.pxCurrentTCB → v.ready ∨ k.uxSchedulerSuspended ≠ 0) :
    (k.tcb k.pxCurrentTCB).uxPriority < (k.tcb t).uxPriority ∨ Calm k t v := by
  by_cases hHigher : (k.tcb k.pxCurrentTCB).uxPriority < (k.tcb t).uxPriority
  · exact Or.inl hHigher
  · refine Or.inr ?_
    unfold Calm
    split
    case isTrue hSame =>
      rw [hTcb, hSame]
      exact ⟨Nat.le_refl _, hPlace hSame⟩
    case isFalse =>
      rw [hTcb]
      exact fun _ => Nat.le_of_not_lt hHigher

theorem answered_pending {k₁ : Kernel} {c : Prop} [Decidable c] {v : View} (hTcb : v.tcb.uxPriority = (k.tcb t).uxPriority)
    (hPlace : t = k.pxCurrentTCB → v.ready ∨ k.uxSchedulerSuspended ≠ 0)
    (hMore : (k.tcb k.pxCurrentTCB).uxPriority < (k.tcb t).uxPriority → c) :
    Answered k { k₁ with xYieldPending := k₁.xYieldPending || decide c } t v := by
  rcases calm_or_higher hTcb hPlace with hHigher | hCalm
  · refine Or.inl ?_
    show (_ || _) = true
    rw [decide_eq_true (hMore hHigher), Bool.or_true]
  · exact Or.inr (Or.inr hCalm)

theorem answered_yield {k₁ : Kernel} {c : Prop} [Decidable c] {v : View} (hTcb : v.tcb.uxPriority = (k.tcb t).uxPriority)
    (hPlace : t = k.pxCurrentTCB → v.ready ∨ k.uxSchedulerSuspended ≠ 0)
    (hMore : (k.tcb k.pxCurrentTCB).uxPriority < (k.tcb t).uxPriority → c) :
    Answered k { k₁ with portYIELD := k₁.portYIELD || decide c } t v := by
  rcases calm_or_higher hTcb hPlace with hHigher | hCalm
  · refine Or.inr (Or.inl ?_)
    show (_ || _) = true
    rw [decide_eq_true (hMore hHigher), Bool.or_true]
  · exact Or.inr (Or.inr hCalm)

/-- What the event makes of a task that waits for it. -/
def View.signalled (vars : Vars) (v : View) : View :=
  if vars.uxSchedulerSuspended = 0 then v.woken else { v with event := some .xPendingReadyList }

@[simp] theorem View.priority_signalled : (v.signalled vars).tcb.uxPriority = v.tcb.uxPriority := by
  unfold signalled
  split <;> rfl

/-- A task that sleeps waits for the scheduler to be resumed. -/
theorem Good.changed_pend (h : Good cfg k) (hRun : k.uxSchedulerSuspended ≠ 0)
    (hSleeps : Sleeps k.toVars (k.view t).state)
    (hChanged : Changed k k' t { k.view t with event := some .xPendingReadyList } k.uxTopReadyPriority) :
    Good cfg k' := by
  have hOut : ∀ q, (k.view t).state ≠ some (.pxReadyTasksLists q) := fun q =>
    hSleeps.apart h.sorted plain_ready nofun
  obtain ⟨hState, _, _, hPriority, hLater⟩ := h.placed t
  refine h.changed hChanged ⟨hState, ?_, fun _ => hSleeps, hPriority, hLater⟩ ?_
    (h.selects.other hOut hOut) (fun hDelayed => ?_) (fun _ => hRun) Iff.rfl
  · intro l hl
    exact Or.inl (Option.some.inj hl).symm
  · rintro rfl
    exact absurd h.idle (hOut _)
  · have hDue := h.due t hDelayed
    exact ⟨hDue.1, hDue.2, h.next t hDelayed⟩

theorem xTaskRemoveFromEventList_spec (h : Good cfg k) (hSome : k.listCURRENT_LIST_LENGTH (.pxEventList e) ≠ 0) :
    ∃ t w b k', (k.lists.round (.pxEventList e)).order = .xEventListItem t :: w ∧
      xTaskRemoveFromEventList cfg k e = some (b, k') ∧
      (b = true ↔ (k.tcb k.pxCurrentTCB).uxPriority < (k.tcb t).uxPriority) ∧
      Outcome cfg k k' t ((k.view t).signalled k.toVars) ∧ Answered k k' t ((k.view t).signalled k.toVars) := by
  cases hHead : k.listGET_HEAD_ENTRY (.pxEventList e) with
  | none => exact absurd (List.length_eq_zero_iff.mpr (List.head?_eq_none_iff.mp hHead)) hSome
  | some i =>
      obtain ⟨t, w, rfl, hEvent, hOrder⟩ := h.head_event hHead (Or.inr ⟨e, rfl⟩)
      have hWaits : (k.view t).event ≠ none := by
        rw [hEvent]
        exact nofun
      have hMiddle : ∃ k₁ top, (if (k.call (.remove (.xEventListItem t))).uxSchedulerSuspended = 0 then
            unblock cfg (k.call (.remove (.xEventListItem t))) t
          else (k.call (.remove (.xEventListItem t))).vListInsertEnd .xPendingReadyList (.xEventListItem t)) =
            some k₁ ∧ Changed k k₁ t ((k.view t).signalled k.toVars) top ∧ Good cfg k₁ := by
        rw [Kernel.toVars_call]
        unfold View.signalled
        split
        case isTrue hRun =>
          obtain ⟨k₁, hUnblock, hChanged, hGood⟩ := h.release hWaits
          exact ⟨k₁, _, hUnblock, hChanged, hGood⟩
        case isFalse hRun =>
          have hRemove := changed_remove_event h.sorted t
          have hFree : ((k.call (.remove (.xEventListItem t))).view t).event = none := by rw [hRemove.here]
          have hInsert := hRemove.trans (changed_insertEnd_event hRemove.sorted hFree plain_pending)
          rw [hRemove.here, hRemove.top] at hInsert
          exact ⟨_, _, vListInsertEnd_event hFree, hInsert, h.changed_pend hRun ((h.placed t).blocked hWaits) hInsert⟩
      obtain ⟨k₁, top, hCall, hChanged, hGood⟩ := hMiddle
      have hMore := hChanged.higher_iff View.priority_signalled
      refine ⟨t, w, decide ((k₁.tcb t).uxPriority > (k₁.tcb k₁.pxCurrentTCB).uxPriority), _, hOrder, ?_, ?_,
        hChanged.pending hGood (decide ((k₁.tcb t).uxPriority > (k₁.tcb k₁.pxCurrentTCB).uxPriority)), ?_⟩
      · rw [xTaskRemoveFromEventList, hHead, Option.bind_some]
        dsimp only [Item.pvOwner]
        rw [uxListRemove_event hEvent, Option.bind_some]
        dsimp only
        rw [hCall, Option.map_some, raise_answer]
      · rw [decide_eq_true_eq]
        exact hMore
      · refine answered_pending View.priority_signalled (fun _ => ?_) hMore.mpr
        unfold View.signalled
        split
        case isTrue => exact Or.inl rfl
        case isFalse hRun => exact Or.inr hRun

/-- An event item is in none of the delayed lists. -/
theorem Core.event_apart (h : Core cfg k) (t : Nat) :
    (k.view t).event ≠ some k.pxDelayedTaskList ∧ (k.view t).event ≠ some k.pxOverflowDelayedTaskList := by
  constructor <;>
    refine (h.placed t).event_ne ?_ ?_ <;> rcases h.sorted.lists with ⟨hd, ho⟩ | ⟨hd, ho⟩ <;> simp [hd, ho]

/-- Nothing that the conditions look at has changed. -/
theorem Good.unchanged (h : Good cfg k) (hChanged : Changed k k' t (k.view t) k.uxTopReadyPriority) : Good cfg k' := by
  refine h.changed hChanged (h.placed t) (fun hSame => hSame ▸ h.idle) ?_ (fun hDelayed => ?_) (h.pending t) Iff.rfl
  · rw [Function.update_eq_self]
    exact h.selects
  · have hDue := h.due t hDelayed
    exact ⟨hDue.1, hDue.2, h.next t hDelayed⟩

theorem vTaskRemoveFromUnorderedEventList_spec (h : Good cfg k) (hWaits : (k.view t).event ≠ none) (n : Nat) :
    ∃ k', vTaskRemoveFromUnorderedEventList cfg k t n = some k' ∧ Outcome cfg k k' t (k.view t).woken ∧
      Answered k k' t (k.view t).woken := by
  have hValue := changed_setValue_event (n := n ||| cfg.taskEVENT_LIST_ITEM_VALUE_IN_USE) h.sorted (h.event_apart t)
  obtain ⟨l, hEvent⟩ := Option.ne_none_iff_exists'.mp hWaits
  obtain ⟨k₁, hUnblock, hReleased, hGood⟩ := (h.unchanged hValue).release (by rw [hValue.here]; exact hWaits)
  have hChanged := hValue.trans hReleased
  rw [hValue.here] at hChanged
  have hMore := hChanged.higher_iff rfl
  refine ⟨_, ?_, hChanged.pending hGood (decide ((k₁.tcb t).uxPriority > (k₁.tcb k₁.pxCurrentTCB).uxPriority)),
    answered_pending rfl (fun _ => Or.inl rfl) hMore.mpr⟩
  rw [vTaskRemoveFromUnorderedEventList]
  dsimp only
  rw [uxListRemove_event (by rw [hValue.here]; exact hEvent), Option.bind_some]
  dsimp only
  rw [hUnblock, Option.map_some, raise_eq]

/-- The task is suspended, and not by a wait without end. -/
theorem suspended_iff : prvTaskIsTaskSuspended k t = true ↔
    (k.view t).state = some .xSuspendedTaskList ∧ (k.view t).event = none :=
  decide_eq_true_iff

/-- A suspended task is ready when it is resumed. -/
theorem Good.unsuspend (h : Good cfg k) (hState : (k.view t).state = some .xSuspendedTaskList)
    (hEvent : (k.view t).event = none) :
    ∃ k', unblock cfg k t = some k' ∧
      Changed k k' t (k.view t).woken (recorded cfg k.uxTopReadyPriority (k.tcb t).uxPriority) ∧ Good cfg k' := by
  obtain ⟨k', hUnblock, hChanged⟩ := changed_unblock cfg h.sorted hState
  have hView : { k.view t with state := some (TaskList.pxReadyTasksLists (k.tcb t).uxPriority) } =
      (k.view t).woken := by
    unfold View.woken
    rw [← hEvent]
    rfl
  rw [hView] at hChanged
  refine ⟨k', hUnblock, hChanged, h.readied hChanged (fun q => ?_) ?_ rfl rfl (h.placed t).priority⟩
  · rw [hState]
    exact nofun
  · rw [hState]
    exact nofun

theorem vTaskResume_spec (h : Good cfg k) (t : Nat) :
    ∃ k', vTaskResume cfg k t = some k' ∧ (k' = k ∨
      (k.view t).state = some .xSuspendedTaskList ∧ Outcome cfg k k' t (k.view t).woken ∧
        Answered k k' t (k.view t).woken) := by
  unfold vTaskResume
  split
  case isTrue hBoth =>
    obtain ⟨hState, hEvent⟩ := suspended_iff.mp hBoth.2
    obtain ⟨k₁, hUnblock, hChanged, hGood⟩ := h.unsuspend hState hEvent
    have hCurrent : k₁.pxCurrentTCB = k.pxCurrentTCB := by rw [hChanged.vars]
    refine ⟨_, ?_, Or.inr ⟨hState,
      hChanged.yield hGood (decide ((k₁.tcb t).uxPriority ≥ (k₁.tcb k₁.pxCurrentTCB).uxPriority)),
      answered_yield rfl (fun _ => Or.inl rfl) fun hMore => ?_⟩⟩
    · rw [hUnblock, Option.map_some, yield_eq]
    · rw [hChanged.priority_eq rfl, hChanged.priority_eq rfl, hCurrent]
      exact Nat.le_of_lt hMore
  case isFalse => exact ⟨k, rfl, Or.inl rfl⟩

theorem xTaskResumeFromISR_spec (h : Good cfg k) (t : Nat) :
    ∃ b k', xTaskResumeFromISR cfg k t = some (b, k') ∧ (k' = k ∨
      (k.view t).state = some .xSuspendedTaskList ∧ Outcome cfg k k' t ((k.view t).signalled k.toVars) ∧
        Answered k k' t ((k.view t).signalled k.toVars)) := by
  unfold xTaskResumeFromISR
  split
  case isTrue hSuspended =>
    obtain ⟨hState, hEvent⟩ := suspended_iff.mp hSuspended
    unfold View.signalled
    split
    case isTrue hRun =>
      dsimp only
      rw [raise_eq]
      generalize hMore : decide ((k.tcb t).uxPriority ≥ (k.tcb k.pxCurrentTCB).uxPriority) = b
      obtain ⟨k', hUnblock, hChanged, hGood⟩ :=
        (h.setYieldPending (k.xYieldPending || decide (b = true))).unsuspend hState hEvent
      refine ⟨b, k', by rw [hUnblock, Option.map_some], Or.inr ⟨hState, ⟨hGood, hChanged.view,
        k.xNextTaskUnblockTime, k.uxDeletedTasksWaitingCleanUp, decide (b = true), false, ?_⟩, ?_⟩⟩
      · rw [hChanged.vars, Bool.or_false]
      · rcases calm_or_higher (v := (k.view t).woken) rfl fun _ => Or.inl rfl with hHigher | hCalm
        · refine Or.inl ?_
          rw [hChanged.vars, ← hMore]
          simp [Nat.le_of_lt hHigher]
        · exact Or.inr (Or.inr hCalm)
    case isFalse hRun =>
      have hSleeps : Sleeps k.toVars (k.view t).state := Or.inr (Or.inr hState)
      have hInsert := changed_insertEnd_event (l := .xPendingReadyList) h.sorted hEvent plain_pending
      refine ⟨false, _, by rw [vListInsertEnd_event hEvent, Option.map_some], Or.inr ⟨hState,
        hInsert.outcome (h.changed_pend hRun hSleeps hInsert), Or.inr (Or.inr ?_)⟩⟩
      unfold Calm
      split
      case isTrue hSame => exact ⟨hSame ▸ Nat.le_refl _, Or.inr hRun⟩
      case isFalse => exact fun hReady => absurd hReady (hSleeps.apart h.sorted plain_ready nofun)
  case isFalse => exact ⟨false, k, rfl, Or.inl rfl⟩

/-- A task that is blocked sleeps, and is not the current one. -/
theorem blocked_of_state (h : eTaskGetState k t = .eBlocked) :
    t ≠ k.pxCurrentTCB ∧ Sleeps k.toVars (k.view t).state := by
  unfold eTaskGetState at h
  split at h
  case isTrue => cases h
  case isFalse hOther =>
    refine ⟨hOther, ?_⟩
    dsimp only at h
    split at h
    case isTrue hDelayed => exact hDelayed.elim Or.inl fun hList => Or.inr (Or.inl hList)
    case isFalse =>
      split at h
      case isTrue hSuspended => exact Or.inr (Or.inr hSuspended)
      case isFalse => split at h <;> cases h

/-- What the abort of its delay makes of a task. -/
def View.aborted (v : View) : View :=
  { v.woken with tcb := { v.tcb with ucDelayAborted := decide (v.event ≠ none) || v.tcb.ucDelayAborted } }

theorem xTaskAbortDelay_spec (h : Good cfg k) (t : Nat) :
    ∃ b k', xTaskAbortDelay cfg k t = some (b, k') ∧ (k' = k ∨
      Sleeps k.toVars (k.view t).state ∧ Outcome cfg k k' t (k.view t).aborted ∧ Answered k k' t (k.view t).aborted) := by
  unfold xTaskAbortDelay
  split
  case isTrue hBlocked =>
    obtain ⟨hOther, hSleeps⟩ := blocked_of_state hBlocked
    have hState : ∃ l, (k.view t).state = some l := by
      rcases hSleeps with hList | hList | hList <;> exact ⟨_, hList⟩
    obtain ⟨l, hList⟩ := hState
    have hRemove := changed_remove_state h.sorted t
    have hMiddle : Changed k (if (k.call (.remove (.xStateListItem t))).lists.home (.xEventListItem t) ≠ none then
          ((k.call (.remove (.xStateListItem t))).call (.remove (.xEventListItem t))).setTCB t
            { (k.call (.remove (.xStateListItem t))).tcb t with ucDelayAborted := true }
        else k.call (.remove (.xStateListItem t))) t { (k.view t).aborted with state := none }
        k.uxTopReadyPriority := by
      have hEvent : (k.call (.remove (.xStateListItem t))).lists.home (.xEventListItem t) = (k.view t).event := by
        show ((k.call (.remove (.xStateListItem t))).view t).event = _
        rw [hRemove.here]
      rw [hEvent]
      unfold View.aborted
      by_cases hWaits : (k.view t).event = none
      · rw [if_neg (not_not.mpr hWaits)]
        simpa [hWaits, View.woken] using hRemove
      · rw [if_pos hWaits]
        have hFree := hRemove.trans (changed_remove_event hRemove.sorted t)
        rw [hRemove.here, hRemove.top] at hFree
        have hAll := hFree.trans (changed_setTCB hFree.sorted
          { (k.call (.remove (.xStateListItem t))).tcb t with ucDelayAborted := true })
        rw [hFree.here, hFree.top] at hAll
        rw [decide_eq_true hWaits, Bool.true_or]
        exact hAll
    obtain ⟨k₁, hAdd, hReadied⟩ := changed_prvAddTaskToReadyList hMiddle.sorted cfg
      (show ((_ : Kernel).view t).state = none by rw [hMiddle.here])
    have hChanged := hMiddle.trans hReadied
    rw [hMiddle.here, hMiddle.top, hMiddle.tcb, Function.update_self] at hChanged
    have hGood := h.readied hChanged (fun q => hSleeps.apart h.sorted plain_ready (by simp))
      (hSleeps.apart h.sorted plain_terminated (by simp)) rfl rfl (h.placed t).priority
    refine ⟨true, _, ?_, Or.inr ⟨hSleeps,
      hChanged.pending hGood (decide ((k₁.tcb t).uxPriority > (k₁.tcb k₁.pxCurrentTCB).uxPriority)),
      answered_pending rfl (fun _ => Or.inl rfl) (hChanged.higher_iff rfl).mpr⟩⟩
    rw [uxListRemove_state hList, Option.bind_some]
    dsimp only
    rw [hAdd, Option.map_some, ← raise_eq]
    split <;> rfl
  case isFalse => exact ⟨false, k, rfl, Or.inl rfl⟩

end FreeRtos.Tasks
