import FreeRtosCpp11.Tasks.Leave

/-! Priorities that are set, inherited and given back: a ready task moves to the
list of its new priority. -/
namespace FreeRtos.Tasks

open Links

variable {cfg : Config} {k k' k₁ : Kernel} {l : TaskList} {t u p q n e top : Nat} {v w : View} {vars : Vars} {tcb : TCB}

instance : Decidable v.ready := inferInstanceAs (Decidable (_ = _))

/-- A task with another control block, in the ready list of its priority if it
is ready. -/
def View.withTCB (v : View) (tcb : TCB) : View :=
  { v with
    state := if v.ready then some (.pxReadyTasksLists tcb.uxPriority) else v.state
    tcb := tcb }

theorem View.ready_withTCB (hApart : ¬ v.ready → ∀ q, v.state ≠ some (.pxReadyTasksLists q)) :
    (v.withTCB tcb).ready ↔ v.ready := by
  unfold View.withTCB
  by_cases hReady : v.ready
  · rw [if_pos hReady]
    exact iff_of_true rfl hReady
  · rw [if_neg hReady]
    exact iff_of_false (hApart hReady _) hReady

/-- The control block changes, and a ready task keeps its priority. -/
theorem Good.setTCB (h : Good cfg k) (hChanged : Changed k k' t { k.view t with tcb := tcb } k.uxTopReadyPriority)
    (hPriority : tcb.uxPriority < cfg.configMAX_PRIORITIES ∧ tcb.uxBasePriority < cfg.configMAX_PRIORITIES)
    (hSame : (k.view t).ready → tcb.uxPriority = (k.tcb t).uxPriority) : Good cfg k' := by
  obtain ⟨hState, hEvent, hBlocked, _, hLater⟩ := h.placed t
  refine h.changed hChanged ⟨fun l hl => ?_, hEvent, hBlocked, hPriority, hLater⟩ ?_ ?_ (fun hDelayed => ?_)
    (h.pending t) Iff.rfl
  · rcases hState l hl with hReady | hRest
    · exact Or.inl (hSame (hl.trans (congrArg some hReady)) ▸ hReady)
    · exact Or.inr hRest
  · rintro rfl
    exact h.idle.trans (congrArg (fun p => some (TaskList.pxReadyTasksLists p)) (hSame h.idle).symm)
  · exact h.selects.state rfl
  · have hDue := h.due t hDelayed
    exact ⟨hDue.1, hDue.2, h.next t hDelayed⟩

theorem changed_setEventValue (hSorted : Sorted k.lists k.toVars)
    (hOut : (k.view t).event ≠ some k.pxDelayedTaskList ∧ (k.view t).event ≠ some k.pxOverflowDelayedTaskList)
    (cfg : Config) (p : Nat) : Changed k (setEventValue cfg k t p) t (k.view t) k.uxTopReadyPriority := by
  unfold setEventValue
  split
  case isTrue => exact changed_setValue_event hSorted hOut
  case isFalse => exact changed_refl hSorted t

/-- What the record of ready priorities is after a task has moved. -/
def moved (cfg : Config) (top left p q : Nat) : Nat :=
  recorded cfg (if left = 0 then unrecorded cfg top q else top) p

/-- A ready task moves from one ready list to another. -/
theorem Selects.move {view : Nat → View} {left : Nat} (h : Selects cfg top view) (hPriority : p < cfg.configMAX_PRIORITIES)
    (hState : (view t).state = some (.pxReadyTasksLists q))
    (hLeft : left = 0 ↔ ∀ u, u ≠ t → (view u).state ≠ some (.pxReadyTasksLists q))
    (hNew : v.state = some (.pxReadyTasksLists p)) :
    Selects cfg (moved cfg top left p q) (Function.update view t v) := by
  have hAway := h.leave (v := { v with state := none }) (n := left) hState nofun
    (hLeft.trans (Iff.trans (and_iff_right nofun).symm
      (Function.forall_update_iff view fun _ v => v.state ≠ some (TaskList.pxReadyTasksLists q)).symm))
  have hBack := hAway.record (t := t) (v := v) hPriority (by rw [Function.update_self]; exact nofun) hNew
  rw [Function.update_idem] at hBack
  exact hBack

/-- The ready task is in another ready list. -/
theorem Good.moved (h : Good cfg k) (hReady : (k.view t).ready)
    (hChanged : Changed k k' t
      { k.view t with
        state := some (.pxReadyTasksLists tcb.uxPriority)
        tcb := tcb } top)
    (hPriority : tcb.uxPriority < cfg.configMAX_PRIORITIES ∧ tcb.uxBasePriority < cfg.configMAX_PRIORITIES)
    (hSelects : Selects cfg top (Function.update k.view t
      { k.view t with
        state := some (.pxReadyTasksLists tcb.uxPriority)
        tcb := tcb })) : Good cfg k' := by
  have hEvent : (k.view t).event = none := by
    by_contra hWaits
    exact (h.blocked_apart hWaits).1 _ hReady
  have hPlain := h.sorted.plain (plain_ready (p := tcb.uxPriority))
  refine h.changed hChanged ⟨fun l hl => Or.inl (Option.some.inj hl).symm, (h.placed t).event,
    fun hWaits => absurd hEvent hWaits, hPriority, fun hList => absurd (Option.some.inj hList) hPlain.2⟩
    (fun _ => rfl) hSelects (fun hList => absurd (Option.some.inj hList) hPlain.1) (h.pending t) ?_
  refine iff_of_false nofun ?_
  rw [show (k.view t).state = _ from hReady]
  exact nofun

/-- A ready task moves to the list of its new priority. All conditions hold
when the record of ready priorities is right. -/
theorem moveReady_ready (h : Good cfg k) (hChanged : Changed k k₁ t { k.view t with tcb := tcb } k.uxTopReadyPriority)
    (hReady : (k.view t).ready)
    (hPriority : tcb.uxPriority < cfg.configMAX_PRIORITIES ∧ tcb.uxBasePriority < cfg.configMAX_PRIORITIES) (q : Nat) :
    ∃ left k', moveReady cfg k₁ t (k.tcb t).uxPriority q = some k' ∧
      Changed k k' t ((k.view t).withTCB tcb) (moved cfg k.uxTopReadyPriority left tcb.uxPriority q) ∧
      (left = 0 ↔ ∀ u, u ≠ t → (k.view u).state ≠ some (.pxReadyTasksLists (k.tcb t).uxPriority)) ∧
      (Good cfg k' ↔ Selects cfg (moved cfg k.uxTopReadyPriority left tcb.uxPriority q)
        (Function.update k.view t ((k.view t).withTCB tcb))) := by
  have hState : (k.view t).state = some (.pxReadyTasksLists (k.tcb t).uxPriority) := hReady
  have hHere : k₁.lists.home (.xStateListItem t) = some (.pxReadyTasksLists (k.tcb t).uxPriority) :=
    (congrArg View.state hChanged.here).trans hState
  obtain ⟨hCall, hLeft, hZero⟩ := changed_leave h hChanged hState
    (fun p => (h.placed t).event_ne nofun nofun) q
  rw [moveReady, if_pos hHere, hCall, Option.bind_some]
  dsimp only
  generalize Kernel.listCURRENT_LIST_LENGTH _ _ = left at hLeft hZero ⊢
  generalize (if left = 0 then _ else _ : Kernel) = k₂ at hLeft ⊢
  have hFree : (k₂.view t).state = none := by rw [hLeft.here]
  obtain ⟨k', hAdd, hReadied⟩ := changed_prvAddTaskToReadyList hLeft.sorted cfg hFree
  have hAll := hLeft.trans hReadied
  rw [hLeft.here, hLeft.top, hLeft.tcb, Function.update_self] at hAll
  have hView : (k.view t).withTCB tcb = { k.view t with
      state := some (TaskList.pxReadyTasksLists tcb.uxPriority)
      tcb := tcb } := by
    rw [View.withTCB, if_pos hReady]
  refine ⟨left, k', hAdd, hView ▸ hAll, hZero, fun hGood => ?_, fun hSelects => ?_⟩
  · have hSelects := hGood.selects
    rwa [hAll.top, hAll.view, ← hView] at hSelects
  · rw [hView] at hSelects
    exact h.moved hReady hAll hPriority hSelects

/-- A task that is not ready stays where it is. -/
theorem moveReady_unready (h : Good cfg k) (hChanged : Changed k k₁ t { k.view t with tcb := tcb } k.uxTopReadyPriority)
    (hReady : ¬ (k.view t).ready)
    (hPriority : tcb.uxPriority < cfg.configMAX_PRIORITIES ∧ tcb.uxBasePriority < cfg.configMAX_PRIORITIES) (q : Nat) :
    moveReady cfg k₁ t (k.tcb t).uxPriority q = some k₁ ∧
      Changed k k₁ t ((k.view t).withTCB tcb) k.uxTopReadyPriority ∧ Good cfg k₁ := by
  have hHere : k₁.lists.home (.xStateListItem t) = (k.view t).state := congrArg View.state hChanged.here
  refine ⟨?_, ?_, h.setTCB hChanged hPriority fun hNow => absurd hNow hReady⟩
  · rw [moveReady, if_neg]
    rw [hHere]
    exact hReady
  · rw [View.withTCB, if_neg hReady]
    exact hChanged

/-- A task moves, and the bit of its old priority is the one that is reset. -/
theorem moveReady_spec (h : Good cfg k) (hChanged : Changed k k₁ t { k.view t with tcb := tcb } k.uxTopReadyPriority)
    (hPriority : tcb.uxPriority < cfg.configMAX_PRIORITIES ∧ tcb.uxBasePriority < cfg.configMAX_PRIORITIES) :
    ∃ k' top, moveReady cfg k₁ t (k.tcb t).uxPriority (k.tcb t).uxPriority = some k' ∧
      Changed k k' t ((k.view t).withTCB tcb) top ∧ Good cfg k' := by
  by_cases hReady : (k.view t).ready
  · obtain ⟨left, k', hMove, hAll, hZero, hGood⟩ := moveReady_ready h hChanged hReady hPriority (k.tcb t).uxPriority
    refine ⟨k', _, hMove, hAll, hGood.mpr ?_⟩
    exact h.selects.move hPriority.1 hReady hZero (by rw [View.withTCB, if_pos hReady])
  · obtain ⟨hMove, hAll, hGood⟩ := moveReady_unready h hChanged hReady hPriority (k.tcb t).uxPriority
    exact ⟨k₁, _, hMove, hAll, hGood⟩

/-- The control block is set, then the value of the event item. -/
theorem changed_setPriority (h : Good cfg k) (tcb : TCB) (p : Nat) :
    Changed k (setEventValue cfg (k.setTCB t tcb) t p) t { k.view t with tcb := tcb } k.uxTopReadyPriority := by
  have hSet := changed_setTCB (t := t) h.sorted tcb
  have hValue := hSet.trans (changed_setEventValue hSet.sorted (by rw [hSet.here]; exact h.event_apart t) cfg p)
  rw [hSet.here, hSet.top] at hValue
  exact hValue

/-- A task that gets a lower priority, or one that is not above the current task,
calls for no context switch. -/
theorem calm_withTCB (h : Good cfg k) (hCalm : Calm k t (k.view t))
    (hOther : t ≠ k.pxCurrentTCB → tcb.uxPriority ≤ (k.tcb t).uxPriority ∨
      tcb.uxPriority ≤ (k.tcb k.pxCurrentTCB).uxPriority)
    (hSelf : t = k.pxCurrentTCB → (k.tcb t).uxPriority ≤ tcb.uxPriority) : Calm k t ((k.view t).withTCB tcb) := by
  have hReady : ((k.view t).withTCB tcb).ready ↔ (k.view t).ready := View.ready_withTCB h.unready
  unfold Calm at hCalm ⊢
  split
  case isTrue hSame =>
    rw [if_pos hSame] at hCalm
    rw [hReady]
    exact ⟨hSame ▸ hSelf hSame, hCalm.2⟩
  case isFalse hDiff =>
    rw [if_neg hDiff] at hCalm
    intro hNow
    rcases hOther hDiff with hLower | hBelow
    · exact Nat.le_trans hLower (hCalm (hReady.mp hNow))
    · exact hBelow

theorem vTaskPrioritySet_spec (h : Good cfg k) (hNew : p < cfg.configMAX_PRIORITIES) (t : Nat) :
    ∃ k', vTaskPrioritySet cfg k t p = some k' ∧ (k' = k ∨ ∃ tcb, Outcome cfg k k' t ((k.view t).withTCB tcb) ∧
      (Calm k t (k.view t) → Answered k k' t ((k.view t).withTCB tcb))) := by
  unfold vTaskPrioritySet
  dsimp only
  split
  case isTrue => exact ⟨k, rfl, Or.inl rfl⟩
  case isFalse hDiff =>
    have hOld := (h.placed t).priority
    generalize hTcb : TCB.mk (if (k.tcb t).uxBasePriority = (k.tcb t).uxPriority then p else (k.tcb t).uxPriority) p
      (k.tcb t).uxMutexesHeld (k.tcb t).ucDelayAborted = tcb
    have hPriority : tcb.uxPriority =
        if (k.tcb t).uxBasePriority = (k.tcb t).uxPriority then p else (k.tcb t).uxPriority := by rw [← hTcb]
    have hBound : tcb.uxPriority < cfg.configMAX_PRIORITIES ∧ tcb.uxBasePriority < cfg.configMAX_PRIORITIES := by
      rw [hPriority, ← hTcb]
      split
      case isTrue => exact ⟨hNew, hNew⟩
      case isFalse => exact ⟨hOld.1, hNew⟩
    obtain ⟨k₁, top, hMove, hChanged, hGood⟩ := moveReady_spec h (changed_setPriority h tcb p) hBound
    rw [hMove, Option.map_some, yield_eq]
    refine ⟨_, rfl, Or.inr ⟨tcb, hChanged.yield hGood _, fun hCalm => ?_⟩⟩
    generalize hYield : (if p > (k.tcb t).uxBasePriority then
      decide (t ≠ k.pxCurrentTCB ∧ p ≥ (k.tcb k.pxCurrentTCB).uxPriority) else decide (t = k.pxCurrentTCB)) = b
    by_cases hAsk : b = true
    · refine Or.inr (Or.inl ?_)
      show (_ || _) = true
      rw [decide_eq_true hAsk, Bool.or_true]
    · refine Or.inr (Or.inr (calm_withTCB h hCalm (fun hOther => ?_) fun hSelf => ?_))
      · rw [hPriority]
        split
        case isTrue hSame =>
          by_cases hHigher : p > (k.tcb t).uxBasePriority
          · rw [if_pos hHigher] at hYield
            have hBelow : ¬ p ≥ (k.tcb k.pxCurrentTCB).uxPriority := fun hMore =>
              hAsk (hYield ▸ decide_eq_true ⟨hOther, hMore⟩)
            exact Or.inr (Nat.le_of_not_le hBelow)
          · exact Or.inl (hSame ▸ Nat.le_of_not_lt hHigher)
        case isFalse => exact Or.inl (Nat.le_refl _)
      · rw [hPriority]
        split
        case isTrue hSame =>
          by_cases hHigher : p > (k.tcb t).uxBasePriority
          · exact hSame ▸ Nat.le_of_lt hHigher
          · rw [if_neg hHigher] at hYield
            exact absurd (hYield ▸ decide_eq_true hSelf) hAsk
        case isFalse => exact Nat.le_refl _

theorem xTaskPriorityInherit_spec (h : Good cfg k) (t : Nat) :
    ∃ b k', xTaskPriorityInherit cfg k t = some (b, k') ∧ (k' = k ∨ ∃ tcb,
      Outcome cfg k k' t ((k.view t).withTCB tcb) ∧ (Calm k t (k.view t) → Answered k k' t ((k.view t).withTCB tcb))) := by
  unfold xTaskPriorityInherit
  dsimp only
  split
  case isTrue hLower =>
    have hValue := changed_setEventValue h.sorted (h.event_apart t) cfg (k.tcb k.pxCurrentTCB).uxPriority
    have hSet := hValue.trans (changed_setTCB hValue.sorted
      { k.tcb t with uxPriority := (k.tcb k.pxCurrentTCB).uxPriority })
    rw [hValue.here, hValue.top] at hSet
    obtain ⟨k', top, hMove, hChanged, hGood⟩ := moveReady_spec h hSet
      ⟨(h.placed k.pxCurrentTCB).priority.1, (h.placed t).priority.2⟩
    refine ⟨true, k', by rw [hMove, Option.map_some], Or.inr ⟨_, hChanged.outcome hGood, fun hCalm => ?_⟩⟩
    refine Or.inr (Or.inr (calm_withTCB h hCalm (fun _ => Or.inr (Nat.le_refl _)) fun hSelf => ?_))
    exact hSelf ▸ Nat.le_refl _
  case isFalse => exact ⟨_, k, rfl, Or.inl rfl⟩

theorem View.withTCB_same (hSame : tcb.uxPriority = v.tcb.uxPriority) : v.withTCB tcb = { v with tcb := tcb } := by
  unfold View.withTCB
  split
  case isTrue hReady =>
    rw [hSame, ← hReady]
  case isFalse => rfl

theorem pvTaskIncrementMutexHeldCount_spec (h : Good cfg k) : ∃ tcb,
    tcb.uxPriority = (k.tcb k.pxCurrentTCB).uxPriority ∧
    Outcome cfg k (pvTaskIncrementMutexHeldCount k) k.pxCurrentTCB ((k.view k.pxCurrentTCB).withTCB tcb) := by
  refine ⟨{ k.tcb k.pxCurrentTCB with uxMutexesHeld := (k.tcb k.pxCurrentTCB).uxMutexesHeld + 1 }, rfl, ?_⟩
  have hSet := changed_setTCB (t := k.pxCurrentTCB) h.sorted
    { k.tcb k.pxCurrentTCB with uxMutexesHeld := (k.tcb k.pxCurrentTCB).uxMutexesHeld + 1 }
  have hGood := h.setTCB hSet (h.placed k.pxCurrentTCB).priority fun _ => rfl
  have hView : (k.view k.pxCurrentTCB).withTCB
      { k.tcb k.pxCurrentTCB with uxMutexesHeld := (k.tcb k.pxCurrentTCB).uxMutexesHeld + 1 } = _ :=
    View.withTCB_same rfl
  rw [hView]
  exact hSet.outcome hGood

/-- The current task gives a mutex back; its priority changes when it held no
other and had inherited one. -/
theorem xTaskPriorityDisinherit_spec (h : Good cfg k) (hRuns : k.ready k.pxCurrentTCB = true)
    (hHeld : (k.tcb k.pxCurrentTCB).uxMutexesHeld ≠ 0) :
    ∃ b k' tcb, xTaskPriorityDisinherit cfg k = some (b, k') ∧
      Outcome cfg k k' k.pxCurrentTCB ((k.view k.pxCurrentTCB).withTCB tcb) ∧ k'.toVars = k.toVars ∧
      (b = false → tcb.uxPriority = (k.tcb k.pxCurrentTCB).uxPriority) := by
  have hReady := ready_iff.mp hRuns
  have hPriority := (h.placed k.pxCurrentTCB).priority
  have hEvent := h.running_event hRuns
  unfold xTaskPriorityDisinherit
  dsimp only
  rw [if_neg hHeld]
  generalize hTask : k.pxCurrentTCB = t at *
  have hSet := changed_setTCB (t := t) h.sorted { k.tcb t with uxMutexesHeld := (k.tcb t).uxMutexesHeld - 1 }
  split
  case isTrue hInherited =>
    obtain ⟨hCall, hLeft, hZero⟩ := changed_leave h hSet hReady
      (fun p => by rw [hEvent]; exact nofun) (k.tcb t).uxPriority
    rw [hCall, Option.bind_some]
    dsimp only
    generalize Kernel.listCURRENT_LIST_LENGTH _ _ = left at hLeft hZero ⊢
    generalize (if left = 0 then _ else _ : Kernel) = k₁ at hLeft ⊢
    have hLower := hLeft.trans (changed_setTCB hLeft.sorted
      { k.tcb t with
        uxMutexesHeld := (k.tcb t).uxMutexesHeld - 1
        uxPriority := (k.tcb t).uxBasePriority })
    rw [hLeft.here, hLeft.top] at hLower
    have hValue := hLower.trans (changed_setValue_event (n := cfg.configMAX_PRIORITIES - (k.tcb t).uxBasePriority)
      hLower.sorted (by rw [hLower.here]; exact ⟨by rw [hEvent]; exact nofun, by rw [hEvent]; exact nofun⟩))
    rw [hLower.here, hLower.top] at hValue
    generalize Kernel.call _ (.setValue _ _) = k₂ at hValue ⊢
    have hFree : (k₂.view t).state = none := by rw [hValue.here]
    obtain ⟨k', hAdd, hReadied⟩ := changed_prvAddTaskToReadyList hValue.sorted cfg hFree
    have hAll := hValue.trans hReadied
    rw [hValue.here, hValue.top, hValue.tcb, Function.update_self] at hAll
    have hGood := h.moved hReady hAll ⟨hPriority.2, hPriority.2⟩ (h.selects.move hPriority.2 hReady hZero rfl)
    refine ⟨true, k',
      { k.tcb t with
        uxMutexesHeld := (k.tcb t).uxMutexesHeld - 1
        uxPriority := (k.tcb t).uxBasePriority }, by rw [hAdd, Option.map_some], ?_, hAll.vars, nofun⟩
    rw [View.withTCB, if_pos hReady]
    exact hAll.outcome hGood
  case isFalse =>
    have hGood := h.setTCB hSet hPriority fun _ => rfl
    refine ⟨false, _, { k.tcb t with uxMutexesHeld := (k.tcb t).uxMutexesHeld - 1 }, rfl, ?_, hSet.vars, fun _ => rfl⟩
    have hView : (k.view t).withTCB { k.tcb t with uxMutexesHeld := (k.tcb t).uxMutexesHeld - 1 } = _ :=
      View.withTCB_same rfl
    rw [hView]
    exact hSet.outcome hGood

/-- Only a ready list changes. -/
theorem order_prvAddTaskToReadyList (hAdd : prvAddTaskToReadyList cfg k t = some k')
    (hList : ∀ q, l ≠ .pxReadyTasksLists q) : (k'.lists.round l).order = (k.lists.round l).order := by
  rw [prvAddTaskToReadyList, taskRECORD_READY_PRIORITY_eq, Kernel.vListInsertEnd] at hAdd
  split at hAdd
  case isTrue =>
    obtain rfl := Option.some.inj hAdd
    simp only [Kernel.call, Lists.Abs.step, Function.update_of_ne (hList _)]
  case isFalse => cases hAdd

/-- The tasks that wait for an event stay in their order. -/
theorem order_disinherit {b : Bool} (h : Good cfg k) (hRuns : k.ready k.pxCurrentTCB = true)
    (hCall : xTaskPriorityDisinherit cfg k = some (b, k')) (e : Nat) :
    (k'.lists.round (.pxEventList e)).order = (k.lists.round (.pxEventList e)).order := by
  have hState : (k.view k.pxCurrentTCB).state = some _ := ready_iff.mp hRuns
  unfold xTaskPriorityDisinherit at hCall
  dsimp only at hCall
  split at hCall
  case isTrue => cases hCall
  case isFalse =>
    split at hCall
    case isTrue =>
      rw [uxListRemove_state (l := .pxReadyTasksLists (k.view k.pxCurrentTCB).tcb.uxPriority)
        (by rw [Kernel.view_setTCB, Function.update_self]; exact hState), Option.bind_some] at hCall
      obtain ⟨k₁, hAdd, hSame⟩ := Option.map_eq_some_iff.mp hCall
      obtain rfl := (Prod.mk.inj hSame).2
      rw [order_prvAddTaskToReadyList (l := .pxEventList e) hAdd nofun, portRESET_READY_PRIORITY_eq]
      have hOut : Item.xStateListItem k.pxCurrentTCB ∉ (k.lists.round (.pxEventList e)).order := by
        rw [h.sorted.sound.member]
        intro hThere
        cases hState.symm.trans hThere
      have hRemove : ((k.lists.step (.remove (.xStateListItem k.pxCurrentTCB))).round (.pxEventList e)).order =
          (k.lists.round (.pxEventList e)).order := by
        rw [Lists.Abs.round_remove h.sorted.sound, Round.filter_ne_self hOut]
      split <;> exact hRemove
    case isFalse =>
      obtain rfl := (Prod.mk.inj (Option.some.inj hCall)).2
      rfl

theorem Outcome.yieldIf (h : Outcome cfg k k' t v) (b : Bool) : Outcome cfg k (yieldIf b k') t v := by
  unfold Tasks.yieldIf
  split
  case isTrue =>
    obtain ⟨n, d, x, y, hVars⟩ := h.vars
    refine ⟨h.toGood.setPortYIELD true, h.view, n, d, x, true, ?_⟩
    show { k'.toVars with portYIELD := true } = _
    rw [hVars, Bool.or_true]
  case isFalse => exact h

/-- What it does to give a mutex back, for the current task and then for the one
that waits for the mutex. -/
inductive Given (cfg : Config) (k k' : Kernel) (e : Nat) : Prop where
  | alone (b : Bool) (k₁ : Kernel) (tcb : TCB)
      (first : Outcome cfg k k₁ k.pxCurrentTCB ((k.view k.pxCurrentTCB).withTCB tcb))
      (vars : k₁.toVars = k.toVars) (same : b = false → tcb.uxPriority = (k.tcb k.pxCurrentTCB).uxPriority)
      (last : k' = yieldIf b k₁)
  | waiter (b c : Bool) (k₁ : Kernel) (tcb : TCB) (t : Nat) (w : List Item)
      (first : Outcome cfg k k₁ k.pxCurrentTCB ((k.view k.pxCurrentTCB).withTCB tcb))
      (vars : k₁.toVars = k.toVars) (same : b = false → tcb.uxPriority = (k.tcb k.pxCurrentTCB).uxPriority)
      (asks : xTaskPriorityDisinherit cfg k = some (b, k₁))
      (waits : (k.lists.round (.pxEventList e)).order = .xEventListItem t :: w)
      (woken : c = true ↔ (k₁.tcb k₁.pxCurrentTCB).uxPriority < (k₁.tcb t).uxPriority)
      (last : Outcome cfg k₁ k' t ((k₁.view t).signalled k₁.toVars))
      (answered : Answered k₁ k' t ((k₁.view t).signalled k₁.toVars))
      (yield : c = true → k'.portYIELD = true)

theorem giveMutex_spec (h : Good cfg k) (hRuns : k.ready k.pxCurrentTCB = true)
    (hHeld : (k.tcb k.pxCurrentTCB).uxMutexesHeld ≠ 0) (e : Nat) :
    ∃ k', giveMutex cfg k e = some k' ∧ Given cfg k k' e := by
  obtain ⟨b, k₁, tcb, hFirst, hOutcome, hVars, hSame⟩ := xTaskPriorityDisinherit_spec h hRuns hHeld
  rw [giveMutex, hFirst, Option.bind_some]
  dsimp only
  by_cases hSome : k₁.listCURRENT_LIST_LENGTH (.pxEventList e) = 0
  · rw [if_neg (not_not.mpr hSome)]
    exact ⟨_, rfl, .alone b k₁ tcb hOutcome hVars hSame rfl⟩
  · obtain ⟨t, w, c, k', hOrder, hCall, hWoken, hLast, hAnswered⟩ := xTaskRemoveFromEventList_spec hOutcome.toGood hSome
    rw [if_pos hSome, hCall, Option.map_some]
    refine ⟨_, rfl, .waiter b c k₁ tcb t w hOutcome hVars hSame hFirst
      ((order_disinherit h hRuns hFirst e).symm.trans hOrder) hWoken (hLast.yieldIf c) ?_ ?_⟩
    · unfold yieldIf
      split
      case isTrue => exact Or.inr (Or.inl rfl)
      case isFalse => exact hAnswered
    · rintro rfl
      rfl

/-- The ready list of a task has no other task. -/
theorem alone_iff (h : Good cfg k) (hState : (k.view t).state = some (.pxReadyTasksLists p)) :
    k.listCURRENT_LIST_LENGTH (.pxReadyTasksLists p) = 1 ↔
      ∀ u, u ≠ t → (k.view u).state ≠ some (.pxReadyTasksLists p) := by
  have hSound := h.sorted.sound
  have hHere : .xStateListItem t ∈ (k.lists.round (.pxReadyTasksLists p)).order := (hSound.member _ _).mpr hState
  have hEvents : ∀ u, (k.view u).event ≠ some (.pxReadyTasksLists p) := fun u =>
    (h.placed u).event_ne (by simp) (by simp)
  rw [Kernel.listCURRENT_LIST_LENGTH]
  constructor
  · intro hOne u hOther hThere
    obtain ⟨i, hOrder⟩ := List.length_eq_one_iff.mp hOne
    have hMem := (hSound.member _ (.xStateListItem u)).mpr hThere
    rw [hOrder, List.mem_singleton] at hHere hMem
    exact hOther (Item.xStateListItem.inj (hMem.trans hHere.symm))
  · intro hAlone
    have hAll : ∀ i ∈ (k.lists.round (.pxReadyTasksLists p)).order, i = .xStateListItem t := by
      intro i hMem
      have hHome := (hSound.member _ i).mp hMem
      cases i with
      | xStateListItem u =>
          by_contra hOther
          exact hAlone u (fun hSame => hOther (congrArg Item.xStateListItem hSame)) hHome
      | xEventListItem u => exact absurd hHome (hEvents u)
    refine Nat.le_antisymm ?_ (List.length_pos_of_mem hHere)
    exact (List.subperm_of_subset (hSound.nodup _) fun i hi => List.mem_singleton.mpr (hAll i hi)).length_le

/-- After this call the bitmap has a bit for an empty ready list. -/
def stale (cfg : Config) (k : Kernel) (t uxHighestPriorityWaitingTask : Nat) : Bool :=
  cfg.configUSE_PORT_OPTIMISED_TASK_SELECTION ∧ k.ready t ∧ (k.tcb t).uxMutexesHeld = 1 ∧
    (k.tcb t).uxPriority ≠ uxPriorityToUse (k.tcb t) uxHighestPriorityWaitingTask ∧
    k.listCURRENT_LIST_LENGTH (.pxReadyTasksLists (k.tcb t).uxPriority) = 1

/-- The record is right when no bit had to be reset. -/
theorem moved_eq {left : Nat} (hKept : cfg.configUSE_PORT_OPTIMISED_TASK_SELECTION = false ∨ left ≠ 0) :
    moved cfg top left p q = moved cfg top left p n := by
  unfold moved unrecorded
  rcases hKept with hPlain | hMore
  · simp [hPlain]
  · rw [if_neg hMore, if_neg hMore]

/-- The bit of the old priority stays when another one is reset. -/
theorem Selects.keeps_bit {view : Nat → View} (h : Selects cfg top view)
    (hOptimised : cfg.configUSE_PORT_OPTIMISED_TASK_SELECTION = true)
    (hState : (view t).state = some (.pxReadyTasksLists q)) (hDiff : q ≠ p) :
    (moved cfg top 0 p p).testBit q = true := by
  unfold Selects moved recorded unrecorded at *
  rw [if_pos hOptimised] at h
  rw [if_pos rfl, if_pos hOptimised, if_pos hOptimised, testBit_record, testBit_unrecord h.1, (h.2 q).mpr ⟨t, hState⟩]
  simp [hDiff.symm]

/-- The call answers in any case, and the conditions hold after it unless it left
a bit for an empty ready list. -/
theorem vTaskPriorityDisinheritAfterTimeout_spec (h : Good cfg k) (hOther : t ≠ k.pxCurrentTCB)
    (hHeld : (k.tcb t).uxMutexesHeld ≠ 0) (hNew : p < cfg.configMAX_PRIORITIES) :
    ∃ k', vTaskPriorityDisinheritAfterTimeout cfg k t p = some k' ∧
      (k' = k ∨ ∃ tcb, k'.toVars = k.toVars ∧ k'.view = Function.update k.view t ((k.view t).withTCB tcb) ∧
        tcb.uxPriority = uxPriorityToUse (k.tcb t) p) ∧
      if stale cfg k t p then
        k'.uxTopReadyPriority.testBit (k.tcb t).uxPriority = true ∧
          k'.listCURRENT_LIST_LENGTH (.pxReadyTasksLists (k.tcb t).uxPriority) = 0
      else Good cfg k' := by
  have hBase := (h.placed t).priority.2
  have hUse : uxPriorityToUse (k.tcb t) p < cfg.configMAX_PRIORITIES := by
    unfold uxPriorityToUse
    split
    case isTrue => exact hNew
    case isFalse => exact hBase
  unfold vTaskPriorityDisinheritAfterTimeout
  dsimp only
  rw [if_neg hHeld]
  split
  case isFalse hKeeps =>
    refine ⟨k, rfl, Or.inl rfl, ?_⟩
    rw [if_neg]
    · exact h
    · intro hStale
      obtain ⟨_, _, hOne, hDiff, _⟩ := of_decide_eq_true hStale
      exact hKeeps ⟨hDiff, hOne⟩
  case isTrue hMoves =>
    have hSet := changed_setPriority (t := t) h { k.tcb t with uxPriority := uxPriorityToUse (k.tcb t) p }
      (uxPriorityToUse (k.tcb t) p)
    by_cases hReady : (k.view t).ready
    · obtain ⟨left, k', hMove, hChanged, hZero, hGood⟩ := moveReady_ready h hSet hReady ⟨hUse, hBase⟩
        (uxPriorityToUse (k.tcb t) p)
      refine ⟨k', hMove, Or.inr ⟨_, hChanged.vars, hChanged.view, rfl⟩, ?_⟩
      have hState : (k.view t).state = some (.pxReadyTasksLists (k.tcb t).uxPriority) := hReady
      have hThere : ((k.view t).withTCB { k.tcb t with uxPriority := uxPriorityToUse (k.tcb t) p }).state =
          some (.pxReadyTasksLists (uxPriorityToUse (k.tcb t) p)) := by
        rw [View.withTCB, if_pos hReady]
      have hAlone := alone_iff h hState
      split
      case isTrue hStale =>
        obtain ⟨hOptimised, _, _, _, hOne⟩ := of_decide_eq_true hStale
        have hOthers := hAlone.mp hOne
        refine ⟨?_, ?_⟩
        · rw [hChanged.top, hZero.mpr hOthers]
          exact h.selects.keeps_bit hOptimised hState hMoves.1
        · have hEvents : ∀ u, (k'.view u).event ≠ some (.pxReadyTasksLists (k.tcb t).uxPriority) := by
            rw [hChanged.view]
            exact (Function.forall_update_iff k.view fun _ v => v.event ≠ some (TaskList.pxReadyTasksLists _)).mpr
              ⟨(h.placed t).event_ne nofun nofun, fun u _ => (h.placed u).event_ne nofun nofun⟩
          rw [length_eq_zero_iff hChanged.sorted.sound hEvents, hChanged.view]
          refine (Function.forall_update_iff k.view fun _ v => v.state ≠ some (TaskList.pxReadyTasksLists _)).mpr
            ⟨?_, hOthers⟩
          rw [hThere]
          exact fun hSame => hMoves.1 (TaskList.pxReadyTasksLists.inj (Option.some.inj hSame)).symm
      case isFalse hKept =>
        refine hGood.mpr ?_
        rw [moved_eq (n := (k.tcb t).uxPriority)]
        · exact h.selects.move hUse hState hZero hThere
        · by_contra hBoth
          rw [not_or, not_not, Bool.not_eq_false] at hBoth
          exact hKept (decide_eq_true ⟨hBoth.1, ready_iff.mpr hReady, hMoves.2, hMoves.1,
            hAlone.mpr (hZero.mp hBoth.2)⟩)
    · obtain ⟨hMove, hChanged, hGood⟩ := moveReady_unready h hSet hReady ⟨hUse, hBase⟩ (uxPriorityToUse (k.tcb t) p)
      refine ⟨_, hMove, Or.inr ⟨_, hChanged.vars, hChanged.view, rfl⟩, ?_⟩
      rw [if_neg]
      · exact hGood
      · intro hStale
        obtain ⟨_, hNow, _⟩ := of_decide_eq_true hStale
        exact hReady (ready_iff.mp hNow)

end FreeRtos.Tasks
