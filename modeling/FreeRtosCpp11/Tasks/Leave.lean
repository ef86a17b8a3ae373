import FreeRtosCpp11.Tasks.Wake

/-! Tasks that are suspended, deleted and created: a task leaves whatever list it
is in, and the search for the highest priority no longer finds it. -/
namespace FreeRtos.Tasks

open Links

variable {cfg : Config} {k k' k₁ : Kernel} {l : TaskList} {t u p n e top : Nat} {v w : View} {vars : Vars}

/-- A task that is not ready is in no ready list. -/
theorem Core.unready (h : Core cfg k) (hReady : ¬ (k.view t).ready) (q : Nat) :
    (k.view t).state ≠ some (.pxReadyTasksLists q) := by
  intro hq
  rcases (h.placed t).state _ hq with hSame | hSame | hSame | hSame | hSame
  · exact hReady (hq.trans (congrArg some hSame))
  · exact (h.sorted.plain plain_ready).1 hSame
  · exact (h.sorted.plain plain_ready).2 hSame
  · cases hSame
  · cases hSame

/-- A task leaves its state list, and the record of its priority is kept exact. -/
theorem changed_take (h : Good cfg k) (hState : (k.view t).state = some l) :
    ∃ left k₁ top, k.uxListRemove (.xStateListItem t) = some (left, k.call (.remove (.xStateListItem t))) ∧
      (if left = 0 then taskRESET_READY_PRIORITY cfg (k.call (.remove (.xStateListItem t))) (k.tcb t).uxPriority
        else k.call (.remove (.xStateListItem t))) = k₁ ∧
      Changed k k₁ t { k.view t with state := none } top ∧ ∀ v : View, (∀ q, v.state ≠ some (.pxReadyTasksLists q)) → Selects cfg top (Function.update k.view t v) := by
  have hRemove := changed_remove_state h.sorted t
  rw [taskRESET_READY_PRIORITY_eq]
  by_cases hReady : (k.view t).ready
  · have hHere : (k.view t).state = some (.pxReadyTasksLists (k.tcb t).uxPriority) := hReady
    obtain rfl := Option.some.inj (hState.symm.trans hHere)
    obtain ⟨hCall, hLeft, hZero⟩ := changed_leave h (changed_refl h.sorted t) hHere
      (fun q => (h.placed t).event_ne nofun nofun) (k.tcb t).uxPriority
    have hOthers : ∀ v : View, (∀ q, v.state ≠ some (.pxReadyTasksLists q)) →
        ((k.call (.remove (.xStateListItem t))).listCURRENT_LIST_LENGTH
          (.pxReadyTasksLists (k.tcb t).uxPriority) = 0 ↔
            ∀ u, (Function.update k.view t v u).state ≠ some (.pxReadyTasksLists (k.tcb t).uxPriority)) := by
      intro v hOut
      refine hZero.trans (Iff.trans ?_ (Function.forall_update_iff k.view fun _ v =>
        v.state ≠ some (TaskList.pxReadyTasksLists (k.tcb t).uxPriority)).symm)
      exact (and_iff_right (hOut _)).symm
    refine ⟨_, _, _, hCall, rfl, ?_, fun v hOut => h.selects.leave hHere hOut (hOthers v hOut)⟩
    by_cases hLast : (k.call (.remove (.xStateListItem t))).listCURRENT_LIST_LENGTH
        (.pxReadyTasksLists (k.tcb t).uxPriority) = 0
    · simp only [if_pos hLast] at hLeft ⊢
      exact hLeft
    · simp only [if_neg hLast] at hLeft ⊢
      exact hLeft
  · have hOld := h.unready hReady
    have hOther : ∀ v : View, (∀ q, v.state ≠ some (.pxReadyTasksLists q)) →
        Selects cfg k.uxTopReadyPriority (Function.update k.view t v) := fun v hOut => h.selects.other hOld hOut
    refine ⟨_, _, if (k.call (.remove (.xStateListItem t))).listCURRENT_LIST_LENGTH l = 0 ∧
        (k.call (.remove (.xStateListItem t))).listCURRENT_LIST_LENGTH (.pxReadyTasksLists (k.tcb t).uxPriority) = 0
      then unrecorded cfg k.uxTopReadyPriority (k.tcb t).uxPriority else k.uxTopReadyPriority,
      uxListRemove_state hState, rfl, ?_⟩
    by_cases hLast : (k.call (.remove (.xStateListItem t))).listCURRENT_LIST_LENGTH l = 0
    · rw [if_pos hLast]
      by_cases hEmpty : (k.call (.remove (.xStateListItem t))).listCURRENT_LIST_LENGTH
          (.pxReadyTasksLists (k.tcb t).uxPriority) = 0
      · rw [if_pos hEmpty, if_pos ⟨hLast, hEmpty⟩]
        have hReset := hRemove.trans (changed_reset hRemove.sorted cfg t (k.tcb t).uxPriority)
        rw [hRemove.here, hRemove.top] at hReset
        refine ⟨hReset, fun v hOut => (hOther v hOut).reset ?_⟩
        have hEvents : ∀ u, ((k.call (.remove (.xStateListItem t))).view u).event ≠
            some (.pxReadyTasksLists (k.tcb t).uxPriority) := by
          rw [hRemove.view]
          exact (Function.forall_update_iff k.view fun _ v => v.event ≠ some (TaskList.pxReadyTasksLists _)).mpr
            ⟨(h.placed t).event_ne nofun nofun, fun u _ => (h.placed u).event_ne nofun nofun⟩
        rw [length_eq_zero_iff hRemove.sorted.sound hEvents, hRemove.view] at hEmpty
        refine (Function.forall_update_iff k.view fun _ v => v.state ≠ some (TaskList.pxReadyTasksLists _)).mpr
          ⟨hOut _, fun u hu => ?_⟩
        have hThere := hEmpty u
        rwa [Function.update_of_ne hu] at hThere
      · rw [if_neg hEmpty, if_neg fun hBoth => hEmpty hBoth.2]
        exact ⟨hRemove, hOther⟩
    · rw [if_neg hLast, if_neg fun hBoth => hLast hBoth.1]
      exact ⟨hRemove, hOther⟩

/-- The task that is suspended sleeps until it is resumed. -/
def View.suspended (v : View) : View := { v with state := some .xSuspendedTaskList, event := none }

theorem Changed.resetNext (h : Changed k k' t v top) (hGood : Good cfg k') (y : Bool) :
    Outcome cfg k { prvResetNextTaskUnblockTime cfg k' with portYIELD := k'.portYIELD || y } t v := by
  refine ⟨hGood.resetNext.setPortYIELD _, h.view,
    (prvResetNextTaskUnblockTime cfg k').xNextTaskUnblockTime, k.uxDeletedTasksWaitingCleanUp, false, y, ?_⟩
  show { k'.toVars with
    xNextTaskUnblockTime := (prvResetNextTaskUnblockTime cfg k').xNextTaskUnblockTime
    portYIELD := k'.portYIELD || y } = _
  rw [h.vars, Bool.or_false]

theorem vTaskSuspend_spec (h : Good cfg k) (hState : (k.view t).state = some l)
    (hTerm : l ≠ .xTasksWaitingTermination) (hIdle : t ≠ cfg.xIdleTaskHandle) :
    ∃ k', vTaskSuspend cfg k t = some k' ∧ Outcome cfg k k' t (k.view t).suspended ∧
      Answered k k' t (k.view t).suspended := by
  obtain ⟨left, k₁, top, hCall, hAway, hTake, hSelects⟩ := changed_take h hState
  have hFree := hTake.trans (changed_removeEventItem hTake.sorted t)
  rw [hTake.here, hTake.top] at hFree
  have hOut : ((removeEventItem k₁ t).view t).state = none := by rw [hFree.here]
  have hChanged := hFree.trans (changed_insertEnd_state hFree.sorted hOut plain_suspended)
  rw [hFree.here, hFree.top] at hChanged
  obtain ⟨hDelayed, hOverflow⟩ := h.sorted.plain plain_suspended
  have hGood := h.changed hChanged ⟨fun l hl => Or.inr (Or.inr (Or.inr (Or.inl (Option.some.inj hl).symm))), nofun,
      fun hWaits => absurd rfl hWaits, (h.placed t).priority, fun hList => absurd (Option.some.inj hList) hOverflow⟩
    (fun hSame => absurd hSame hIdle) (hSelects _ nofun) (fun hList => absurd (Option.some.inj hList) hDelayed) nofun
    (iff_of_false nofun (by rw [hState]; exact fun hSame => hTerm (Option.some.inj hSame)))
  generalize hThere : (removeEventItem k₁ t).call (.insertEnd .xSuspendedTaskList (.xStateListItem t)) = k₂ at *
  have hCurrent : k₂.pxCurrentTCB = k.pxCurrentTCB := by rw [hChanged.vars]
  refine ⟨_, ?_, hChanged.resetNext hGood (decide (t = (prvResetNextTaskUnblockTime cfg k₂).pxCurrentTCB)), ?_⟩
  · rw [vTaskSuspend, hCall, Option.bind_some]
    dsimp only
    rw [Kernel.tcb_call, hAway, vListInsertEnd_state hOut, hThere, Option.map_some, yield_eq]
    rfl
  · by_cases hSelf : t = k.pxCurrentTCB
    · have hThere : t = (prvResetNextTaskUnblockTime cfg k₂).pxCurrentTCB := hSelf.trans hCurrent.symm
      refine Or.inr (Or.inl ?_)
      show (_ || _) = true
      rw [decide_eq_true hThere, Bool.or_true]
    · refine Or.inr (Or.inr ?_)
      rw [Calm, if_neg hSelf]
      exact nofun

theorem length_insertEnd {i : Item} : (k.call (.insertEnd l i)).listCURRENT_LIST_LENGTH l =
    k.listCURRENT_LIST_LENGTH l + 1 := by
  obtain ⟨A, B, hOld, hNew, _⟩ := Round.order_insertEnd (k.lists.round l) i
  simp only [Kernel.listCURRENT_LIST_LENGTH, Kernel.call, Lists.Abs.step, Function.update_self, hOld, hNew,
    List.length_append, List.length_cons]
  omega

/-- A deleted task, which is in the list of those that delete themselves or gone. -/
def View.deleted (v : View) (self : Bool) : View :=
  { v with state := if self then some .xTasksWaitingTermination else none, event := none }

theorem vTaskDelete_spec (h : Good cfg k) (hState : (k.view t).state = some l)
    (hTerm : l ≠ .xTasksWaitingTermination) (hIdle : t ≠ cfg.xIdleTaskHandle) :
    ∃ k', vTaskDelete cfg k t = some k' ∧
      Outcome cfg k k' t ((k.view t).deleted (decide (t = k.pxCurrentTCB))) ∧
      Answered k k' t ((k.view t).deleted (decide (t = k.pxCurrentTCB))) := by
  obtain ⟨left, k₁, top, hCall, hAway, hTake, hSelects⟩ := changed_take h hState
  have hFree := hTake.trans (changed_removeEventItem hTake.sorted t)
  rw [hTake.here, hTake.top] at hFree
  have hAlive : (k.view t).state ≠ some .xTasksWaitingTermination := by
    rw [hState]
    exact fun hSame => hTerm (Option.some.inj hSame)
  have hCurrent : (removeEventItem k₁ t).pxCurrentTCB = k.pxCurrentTCB := by rw [hFree.vars]
  rw [vTaskDelete, hCall, Option.bind_some]
  dsimp only
  rw [Kernel.tcb_call, hAway]
  by_cases hSelf : t = k.pxCurrentTCB
  · rw [if_pos (hSelf.trans hCurrent.symm), decide_eq_true hSelf]
    have hOut : ((removeEventItem k₁ t).view t).state = none := by rw [hFree.here]
    have hBefore : (removeEventItem k₁ t).listCURRENT_LIST_LENGTH .xTasksWaitingTermination =
        k.uxDeletedTasksWaitingCleanUp := by
      have hGone := h.toCore.update hFree.vars hFree.view hFree.sorted
        ⟨nofun, nofun, fun hWaits => absurd rfl hWaits, (h.placed t).priority, nofun⟩
        (fun hSame => absurd hSame hIdle) (iff_of_false nofun hAlive)
      rw [hGone.deleted, hFree.vars]
    have hChanged := hFree.trans (changed_insertEnd_state hFree.sorted hOut plain_terminated)
    rw [hFree.here, hFree.top] at hChanged
    rw [vListInsertEnd_state hOut, Option.map_some]
    have hLength := (length_insertEnd (k := removeEventItem k₁ t) (l := .xTasksWaitingTermination)
      (i := .xStateListItem t)).trans (congrArg (· + 1) hBefore)
    generalize (removeEventItem k₁ t).call (.insertEnd .xTasksWaitingTermination (.xStateListItem t)) = k₂ at *
    obtain ⟨hDelayed, hOverflow⟩ := h.sorted.plain plain_terminated
    have hVars : { k₂.toVars with uxDeletedTasksWaitingCleanUp := k₂.uxDeletedTasksWaitingCleanUp + 1 } =
        { k.toVars with uxDeletedTasksWaitingCleanUp := k.uxDeletedTasksWaitingCleanUp + 1 } := by
      rw [hChanged.vars]
    have hGood : Good cfg { k₂ with uxDeletedTasksWaitingCleanUp := k₂.uxDeletedTasksWaitingCleanUp + 1 } := by
      refine h.replace hVars hChanged.view (hChanged.sorted.congr rfl rfl) ⟨fun l hl => ?_, nofun,
        fun hWaits => absurd rfl hWaits, (h.placed t).priority, fun hList => absurd (Option.some.inj hList) hOverflow⟩
        (fun hSame => absurd hSame hIdle) ?_ (fun hList => absurd (Option.some.inj hList) hDelayed) nofun hLength
      · exact Or.inr (Or.inr (Or.inr (Or.inr (Option.some.inj hl).symm)))
      · rw [hChanged.top]
        exact hSelects _ nofun
    refine ⟨_, rfl, ⟨hGood.setPortYIELD true, hChanged.view, k.xNextTaskUnblockTime,
      k.uxDeletedTasksWaitingCleanUp + 1, false, true, ?_⟩, Or.inr (Or.inl rfl)⟩
    show { k₂.toVars with
      uxDeletedTasksWaitingCleanUp := k₂.uxDeletedTasksWaitingCleanUp + 1
      portYIELD := true } = _
    rw [hChanged.vars, Bool.or_false, Bool.or_true]
  · rw [if_neg (fun hSame => hSelf (hSame.trans hCurrent)), decide_eq_false hSelf]
    have hGood := h.changed hFree ⟨nofun, nofun, fun hWaits => absurd rfl hWaits, (h.placed t).priority, nofun⟩
      (fun hSame => absurd hSame hIdle) (hSelects _ nofun) nofun nofun (iff_of_false nofun hAlive)
    have hOutcome := hFree.resetNext hGood false
    rw [Bool.or_false] at hOutcome
    refine ⟨_, rfl, hOutcome, Or.inr (Or.inr ?_)⟩
    rw [Calm, if_neg hSelf]
    exact nofun

/-- The priority of a new task. -/
def Config.highest (cfg : Config) (p : Nat) : Nat :=
  if p ≥ cfg.configMAX_PRIORITIES then cfg.configMAX_PRIORITIES - 1 else p

def View.created (cfg : Config) (v : View) (p : Nat) : View :=
  { v with state := some (.pxReadyTasksLists (cfg.highest p)), tcb := ⟨cfg.highest p, cfg.highest p, 0, false⟩ }

theorem Config.highest_lt (cfg : Config) (p : Nat) : cfg.highest p < cfg.configMAX_PRIORITIES := by
  have hSome := cfg.priorities.1
  unfold Config.highest
  split <;> omega

theorem changed_prvInitialiseNewTask (hSorted : Sorted k.lists k.toVars) (hEvent : (k.view t).event = none)
    (cfg : Config) (p : Nat) : Changed k (prvInitialiseNewTask cfg k t p) t
      { k.view t with tcb := ⟨cfg.highest p, cfg.highest p, 0, false⟩ } k.uxTopReadyPriority := by
  have hSet := changed_setTCB (t := t) hSorted ⟨cfg.highest p, cfg.highest p, 0, false⟩
  have hNew := hSet.trans (changed_setValue_event (n := cfg.configMAX_PRIORITIES - cfg.highest p) hSet.sorted
    (by rw [hSet.here, hEvent]; exact ⟨nofun, nofun⟩))
  rw [hSet.here, hSet.top] at hNew
  exact hNew

theorem xTaskCreate_spec (h : Good cfg k) (hState : (k.view t).state = none) (hEvent : (k.view t).event = none)
    (hRuns : k.ready k.pxCurrentTCB = true) (p : Nat) :
    ∃ k', xTaskCreate cfg k t p = some k' ∧ Outcome cfg k k' t ((k.view t).created cfg p) ∧
      Answered k k' t ((k.view t).created cfg p) := by
  have hOther : t ≠ k.pxCurrentTCB := by
    rintro rfl
    have hHere := (ready_iff.mp hRuns).symm.trans hState
    cases hHere
  have hNew := changed_prvInitialiseNewTask h.sorted hEvent cfg p
  have hFree : ((prvInitialiseNewTask cfg k t p).view t).state = none := by
    rw [hNew.here]
    exact hState
  obtain ⟨k₁, hAdd, hReadied⟩ := changed_prvAddTaskToReadyList hNew.sorted cfg hFree
  have hChanged := hNew.trans hReadied
  rw [hNew.here, hNew.top, hNew.tcb, Function.update_self] at hChanged
  have hGood := h.readied hChanged (fun q => by rw [hState]; exact nofun) (by rw [hState]; exact nofun) rfl hEvent
    ⟨cfg.highest_lt p, cfg.highest_lt p⟩
  have hCurrent : k₁.pxCurrentTCB = k.pxCurrentTCB := by rw [hChanged.vars]
  have hRunning : k₁.tcb k.pxCurrentTCB = k.tcb k.pxCurrentTCB := by
    rw [hChanged.tcb, Function.update_of_ne hOther.symm]
  have hTask : (k₁.tcb t).uxPriority = cfg.highest p := by rw [hChanged.tcb, Function.update_self]
  refine ⟨_, by rw [xTaskCreate, hAdd, Option.map_some, yield_eq], hChanged.yield hGood
    (decide ((k₁.tcb k₁.pxCurrentTCB).uxPriority < (k₁.tcb t).uxPriority)), ?_⟩
  by_cases hMore : (k.tcb k.pxCurrentTCB).uxPriority < cfg.highest p
  · refine Or.inr (Or.inl ?_)
    show (_ || _) = true
    rw [hCurrent, hRunning, hTask, decide_eq_true hMore, Bool.or_true]
  · refine Or.inr (Or.inr ?_)
    rw [Calm, if_neg hOther]
    exact fun _ => Nat.le_of_not_lt hMore

/-- The idle task frees a task that has deleted itself. -/
theorem prvCheckTasksWaitingTermination_spec (h : Good cfg k) (hSome : k.uxDeletedTasksWaitingCleanUp ≠ 0) :
    ∃ t k', prvCheckTasksWaitingTermination k = some k' ∧ (k.view t).state = some .xTasksWaitingTermination ∧
      Outcome cfg k k' t { k.view t with state := none } := by
  rw [← h.deleted] at hSome
  cases hHead : k.listGET_HEAD_ENTRY .xTasksWaitingTermination with
  | none => exact absurd (List.length_eq_zero_iff.mpr (List.head?_eq_none_iff.mp hHead)) hSome
  | some i =>
      obtain ⟨t, w, rfl, hState, hOrder⟩ := h.head_state hHead (by simp) (by simp)
      have hRemove := changed_remove_state h.sorted t
      have hLength : (k.call (.remove (.xStateListItem t))).listCURRENT_LIST_LENGTH .xTasksWaitingTermination =
          k.uxDeletedTasksWaitingCleanUp - 1 := by
        have hNodup := h.sorted.sound.nodup .xTasksWaitingTermination
        rw [← h.deleted, Kernel.listCURRENT_LIST_LENGTH, Kernel.listCURRENT_LIST_LENGTH, Kernel.call,
          Lists.Abs.round_remove h.sorted.sound, hOrder]
        rw [hOrder] at hNodup
        rw [List.filter_cons_of_neg (by simp), Round.filter_ne_self (List.nodup_cons.mp hNodup).1]
        rfl
      have hGood : Good cfg { k.call (.remove (.xStateListItem t)) with
          uxDeletedTasksWaitingCleanUp := k.uxDeletedTasksWaitingCleanUp - 1 } := by
        have hOut : ∀ q, (k.view t).state ≠ some (.pxReadyTasksLists q) := by
          simp [hState]
        have hEvent : (k.view t).event = none := by
          by_contra hWaits
          exact (h.blocked_apart hWaits).2.1 hState
        refine h.replace rfl hRemove.view (hRemove.sorted.congr rfl rfl)
          ⟨by simp, (h.placed t).event, fun hWaits => absurd hEvent hWaits, (h.placed t).priority, by simp⟩ ?_
          (h.selects.other hOut (by simp)) (by simp) (h.pending t) hLength
        rintro rfl
        exact absurd h.idle (hOut _)
      refine ⟨t, _, ?_, hState, hGood, hRemove.view, k.xNextTaskUnblockTime, k.uxDeletedTasksWaitingCleanUp - 1,
        false, false, ?_⟩
      · rw [prvCheckTasksWaitingTermination, hHead, Option.bind_some]
        dsimp only [Item.pvOwner]
        rw [uxListRemove_state hState]
        rfl
      · show { k.toVars with uxDeletedTasksWaitingCleanUp := k.uxDeletedTasksWaitingCleanUp - 1 } = _
        rw [Bool.or_false, Bool.or_false]

end FreeRtos.Tasks
