import FreeRtosCpp11.Tasks.Switch

/-! What each call of the kernel can do. Every call that is allowed returns, and
keeps all conditions, except one that resets the wrong bit of the bitmap. -/
namespace FreeRtos.Tasks

open Links

/-- The call ends the wait of the task before its time. -/
def disturbs (k : Kernel) (t : Nat) : Act → Bool
  | .xTaskRemoveFromEventList e | .giveMutex e => k.listGET_HEAD_ENTRY (.pxEventList e) = some (.xEventListItem t)
  | .vTaskRemoveFromUnorderedEventList u _ | .vTaskSuspend u | .vTaskDelete u | .xTaskAbortDelay u => u = t
  | _ => false

/-- The call leaves a bit for an empty ready list. -/
def leavesBit (cfg : Config) (k : Kernel) : Act → Bool
  | .vTaskPriorityDisinheritAfterTimeout t p => stale cfg k t p
  | _ => false

/-- A call that blocks, with the event list, the time and whether it may wait
without end. -/
def blocks : Act → Option (Option TaskList × Nat × Bool)
  | .vTaskDelay n => some (none, n, false)
  | .vTaskPlaceOnEventList e n | .vTaskPlaceOnUnorderedEventList e _ n => some (some (.pxEventList e), n, true)
  | _ => none

/-- The ticks that a call adds to those counted and pended. -/
def arrived : Act → Nat
  | .xTaskIncrementTick => 1
  | .xTaskCatchUpTicks n => n
  | _ => 0

/-- What a call does, by the kind of call. -/
inductive Effect (cfg : Config) (k : Kernel) : Act → Kernel → Prop where
  | ticked {k₁ : Kernel} (sw : Bool) (hRun : k.uxSchedulerSuspended = 0) (hTicked : Ticked cfg k k₁ sw) :
      Effect cfg k .xTaskIncrementTick (yieldIf sw k₁)
  | pended (hRun : k.uxSchedulerSuspended ≠ 0) :
      Effect cfg k .xTaskIncrementTick { k with xPendedTicks := cfg.ticks k.xPendedTicks 1 }
  | caughtUp (n : Nat) : Effect cfg k (.xTaskCatchUpTicks n) { k with xPendedTicks := cfg.ticks k.xPendedTicks n }
  | asked : Effect cfg k .portYIELD { k with portYIELD := true }
  | switched {k' : Kernel} (hRun : k.uxSchedulerSuspended = 0)
      (hSwitched : Switched cfg { k with portYIELD := false } k') : Effect cfg k .vTaskSwitchContext k'
  | latched (hRun : k.uxSchedulerSuspended ≠ 0) :
      Effect cfg k .vTaskSwitchContext { k with portYIELD := false, xYieldPending := true }
  | suspended : Effect cfg k .vTaskSuspendAll { k with uxSchedulerSuspended := k.uxSchedulerSuspended + 1 }
  | resumed {k₁ : Kernel} (hLast : k.uxSchedulerSuspended = 1) (hResumed : Resumed cfg k k₁) :
      Effect cfg k .xTaskResumeAll (yieldIf (!k₁.ready k₁.pxCurrentTCB) k₁)
  | nested (hMore : 1 < k.uxSchedulerSuspended) :
      Effect cfg k .xTaskResumeAll
        (yieldIf (!k.ready k.pxCurrentTCB) { k with uxSchedulerSuspended := k.uxSchedulerSuspended - 1 })
  | blocked {act : Act} {k' : Kernel} {ev : Option TaskList} {n : Nat} {can : Bool} (hMay : mayBlock cfg k n = true)
      (hBlocks : blocks act = some (ev, n, can)) (hBlocked : Blocked cfg k k' ev n can) : Effect cfg k act k'
  | nothing {act : Act} (hTicks : arrived act = 0) : Effect cfg k act k
  | woken {act : Act} {k' : Kernel} {t : Nat} {v : View} (hTicks : arrived act = 0)
      (hTouched : disturbs k t act = true ∨ (k.view t).state = some .xSuspendedTaskList ∨ (k.view t).state = none)
      (hOutcome : Outcome cfg k k' t v) (hAnswered : Answered k k' t v) : Effect cfg k act k'
  | cleaned {k' : Kernel} {t : Nat} (hGone : (k.view t).state = some .xTasksWaitingTermination)
      (hOutcome : Outcome cfg k k' t { k.view t with state := none }) :
      Effect cfg k .prvCheckTasksWaitingTermination k'
  | changed {act : Act} {k' : Kernel} {t : Nat} (tcb : TCB) (hTicks : arrived act = 0)
      (hOutcome : Outcome cfg k k' t ((k.view t).withTCB tcb))
      (hAnswered : Calm k t (k.view t) → Answered k k' t ((k.view t).withTCB tcb)) : Effect cfg k act k'
  | lowered {k' : Kernel} {t p : Nat} (tcb : TCB) (hOther : t ≠ k.pxCurrentTCB)
      (hOutcome : Outcome cfg k k' t ((k.view t).withTCB tcb))
      (hPriority : tcb.uxPriority = uxPriorityToUse (k.tcb t) p) :
      Effect cfg k (.vTaskPriorityDisinheritAfterTimeout t p) k'
  | given {k' : Kernel} {e : Nat} (hGiven : Given cfg k k' e) : Effect cfg k (.giveMutex e) k'

variable {cfg : Config} {k k' : Kernel} {t n : Nat} {act : Act}

theorem Good.yieldIf (h : Good cfg k) (b : Bool) : Good cfg (yieldIf b k) := by
  unfold Tasks.yieldIf
  split
  case isTrue => exact h.setPortYIELD true
  case isFalse => exact h

theorem Good.setPendedTicks (h : Good cfg k) (n : Nat) : Good cfg { k with xPendedTicks := n } :=
  ⟨⟨h.toCore.congr rfl rfl rfl rfl rfl rfl, h.selects, h.due, h.next⟩, h.pending⟩

theorem Good.suspend (h : Good cfg k) (hKept : k.uxSchedulerSuspended ≠ 0 → n ≠ 0) :
    Good cfg { k with uxSchedulerSuspended := n } :=
  ⟨⟨h.toCore.congr rfl rfl rfl rfl rfl rfl, h.selects, h.due, h.next⟩, fun t hPending => hKept (h.pending t hPending)⟩

/-- Every effect keeps the conditions. -/
theorem Effect.good (hEffect : Effect cfg k act k') (h : Good cfg k) : Good cfg k' := by
  cases hEffect with
  | ticked sw hRun hTicked => exact hTicked.toGood.yieldIf sw
  | pended hRun => exact h.setPendedTicks _
  | caughtUp n => exact h.setPendedTicks _
  | asked => exact h.setPortYIELD true
  | switched hRun hSwitched => exact hSwitched.toGood
  | latched hRun => exact (h.setPortYIELD false).setYieldPending true
  | suspended => exact h.suspend fun _ => Nat.succ_ne_zero _
  | resumed hLast hResumed => exact hResumed.toGood.yieldIf _
  | nested hMore => exact (h.suspend fun _ => Nat.sub_ne_zero_of_lt hMore).yieldIf _
  | blocked hMay hBlocks hBlocked => exact hBlocked.toGood
  | nothing hTicks => exact h
  | woken hTicks hTouched hOutcome hAnswered => exact hOutcome.toGood
  | cleaned hGone hOutcome => exact hOutcome.toGood
  | changed tcb hTicks hOutcome hAnswered => exact hOutcome.toGood
  | lowered tcb hOther hOutcome hPriority => exact hOutcome.toGood
  | given hGiven =>
      cases hGiven with
      | alone b k₁ tcb first vars same last => exact last ▸ first.toGood.yieldIf b
      | waiter b c k₁ tcb t w first vars same asks waits woken last => exact last.toGood

/-- A call that is allowed returns, and does what its kind of call can do. -/
theorem perform_spec (h : Good cfg k) (hEnabled : enabled cfg k act = true) (hKeeps : leavesBit cfg k act = false) :
    ∃ k', perform cfg k act = some k' ∧ Effect cfg k act k' := by
  cases act with
  | xTaskIncrementTick =>
      by_cases hRun : k.uxSchedulerSuspended = 0
      · obtain ⟨sw, k₁, hTick, hTicked⟩ := xTaskIncrementTick_spec h hRun
        exact ⟨_, by rw [perform, hTick, Option.map_some], .ticked sw hRun hTicked⟩
      · refine ⟨_, ?_, .pended hRun⟩
        rw [perform, xTaskIncrementTick, if_neg hRun]
        rfl
  | portYIELD => exact ⟨_, rfl, .asked⟩
  | vTaskSwitchContext =>
      by_cases hRun : k.uxSchedulerSuspended = 0
      · obtain ⟨k', hSwitch, hSwitched⟩ := vTaskSwitchContext_spec (h.setPortYIELD false) hRun
        exact ⟨k', hSwitch, .switched hRun hSwitched⟩
      · exact ⟨_, if_pos hRun, .latched hRun⟩
  | vTaskSuspendAll => exact ⟨_, rfl, .suspended⟩
  | xTaskResumeAll =>
      have hSome : k.uxSchedulerSuspended ≠ 0 := of_decide_eq_true hEnabled
      by_cases hLast : k.uxSchedulerSuspended = 1
      · obtain ⟨yielded, k₁, hCall, hResumed⟩ := xTaskResumeAll_spec h hLast
        exact ⟨_, by rw [perform, hCall, Option.map_some], .resumed hLast hResumed⟩
      · have hMore : 1 < k.uxSchedulerSuspended := by omega
        refine ⟨_, ?_, .nested hMore⟩
        rw [perform, xTaskResumeAll, if_neg hSome]
        dsimp only
        rw [if_neg (Nat.sub_ne_zero_of_lt hMore)]
        rfl
  | vTaskDelay n =>
      obtain ⟨k', hCall, hBlocked⟩ := vTaskDelay_spec h hEnabled
      exact ⟨k', hCall, .blocked hEnabled rfl hBlocked⟩
  | vTaskPlaceOnEventList e n =>
      obtain ⟨k', hCall, hBlocked⟩ := vTaskPlaceOnEventList_spec h hEnabled e
      exact ⟨k', hCall, .blocked hEnabled rfl hBlocked⟩
  | vTaskPlaceOnUnorderedEventList e v n =>
      have hMay := (of_decide_eq_true hEnabled).1
      obtain ⟨k', hCall, hBlocked⟩ := vTaskPlaceOnUnorderedEventList_spec h hMay e v
      exact ⟨k', hCall, .blocked hMay rfl hBlocked⟩
  | xTaskRemoveFromEventList e =>
      obtain ⟨t, w, b, k', hOrder, hCall, _, hOutcome, hAnswered⟩ :=
        xTaskRemoveFromEventList_spec h (of_decide_eq_true hEnabled)
      refine ⟨k', by rw [perform, hCall, Option.map_some], .woken (t := t) rfl (Or.inl (decide_eq_true ?_)) hOutcome hAnswered⟩
      rw [Kernel.listGET_HEAD_ENTRY, hOrder]
      rfl
  | vTaskRemoveFromUnorderedEventList t v =>
      obtain ⟨_, _, _, hWaits, _⟩ := of_decide_eq_true hEnabled
      obtain ⟨k', hCall, hOutcome, hAnswered⟩ := vTaskRemoveFromUnorderedEventList_spec h hWaits v
      exact ⟨k', hCall, .woken rfl (Or.inl (decide_eq_true rfl)) hOutcome hAnswered⟩
  | vTaskSuspend t =>
      obtain ⟨_, hLives, hIdle, _⟩ := of_decide_eq_true hEnabled
      obtain ⟨hSome, hTerm⟩ := lives_iff.mp hLives
      obtain ⟨l, hState⟩ := Option.ne_none_iff_exists'.mp hSome
      obtain ⟨k', hCall, hOutcome, hAnswered⟩ := vTaskSuspend_spec h hState
        (fun hSame => hTerm (hState.trans (congrArg some hSame))) hIdle
      exact ⟨k', hCall, .woken rfl (Or.inl (decide_eq_true rfl)) hOutcome hAnswered⟩
  | vTaskResume t =>
      obtain ⟨k', hCall, rfl | ⟨hState, hOutcome, hAnswered⟩⟩ := vTaskResume_spec h t
      · exact ⟨_, hCall, .nothing rfl⟩
      · exact ⟨k', hCall, .woken rfl (Or.inr (Or.inl hState)) hOutcome hAnswered⟩
  | xTaskResumeFromISR t =>
      obtain ⟨b, k', hCall, rfl | ⟨hState, hOutcome, hAnswered⟩⟩ := xTaskResumeFromISR_spec h t
      · exact ⟨_, by rw [perform, hCall, Option.map_some], .nothing rfl⟩
      · exact ⟨k', by rw [perform, hCall, Option.map_some], .woken rfl (Or.inr (Or.inl hState)) hOutcome hAnswered⟩
  | xTaskAbortDelay t =>
      obtain ⟨b, k', hCall, rfl | ⟨_, hOutcome, hAnswered⟩⟩ := xTaskAbortDelay_spec h t
      · exact ⟨_, by rw [perform, hCall, Option.map_some], .nothing rfl⟩
      · exact ⟨k', by rw [perform, hCall, Option.map_some], .woken rfl (Or.inl (decide_eq_true rfl)) hOutcome hAnswered⟩
  | xTaskCatchUpTicks n => exact ⟨_, rfl, .caughtUp n⟩
  | vTaskPrioritySet t p =>
      obtain ⟨_, _, hNew⟩ := of_decide_eq_true hEnabled
      obtain ⟨k', hCall, rfl | ⟨tcb, hOutcome, hAnswered⟩⟩ := vTaskPrioritySet_spec h hNew t
      · exact ⟨_, hCall, .nothing rfl⟩
      · exact ⟨k', hCall, .changed tcb rfl hOutcome hAnswered⟩
  | xTaskPriorityInherit t =>
      obtain ⟨b, k', hCall, rfl | ⟨tcb, hOutcome, hAnswered⟩⟩ := xTaskPriorityInherit_spec h t
      · exact ⟨_, by rw [perform, hCall, Option.map_some], .nothing rfl⟩
      · exact ⟨k', by rw [perform, hCall, Option.map_some], .changed tcb rfl hOutcome hAnswered⟩
  | giveMutex e =>
      obtain ⟨hRuns, hHeld⟩ := of_decide_eq_true hEnabled
      obtain ⟨k', hCall, hGiven⟩ := giveMutex_spec h hRuns hHeld e
      exact ⟨k', hCall, .given hGiven⟩
  | vTaskPriorityDisinheritAfterTimeout t p =>
      obtain ⟨_, _, hOther, hHeld, hNew⟩ := of_decide_eq_true hEnabled
      obtain ⟨k', hCall, rfl | ⟨tcb, hVars, hView, hPriority⟩, hGood⟩ :=
        vTaskPriorityDisinheritAfterTimeout_spec h hOther hHeld hNew
      · exact ⟨_, hCall, .nothing rfl⟩
      · have hKept : stale cfg k t p = false := hKeeps
        rw [hKept, if_neg Bool.false_ne_true] at hGood
        exact ⟨k', hCall, .lowered tcb hOther ⟨hGood, hView, k.xNextTaskUnblockTime,
          k.uxDeletedTasksWaitingCleanUp, false, false, by rw [hVars, Bool.or_false, Bool.or_false]⟩ hPriority⟩
  | pvTaskIncrementMutexHeldCount =>
      obtain ⟨tcb, hSame, hOutcome⟩ := pvTaskIncrementMutexHeldCount_spec h
      refine ⟨_, rfl, .changed tcb rfl hOutcome fun hCalm => Or.inr (Or.inr (calm_withTCB h hCalm (fun hOther => ?_) ?_))⟩
      · exact absurd rfl hOther
      · exact fun _ => Nat.le_of_eq hSame.symm
  | xTaskCreate t p =>
      obtain ⟨hRuns, hState, hEvent⟩ := of_decide_eq_true hEnabled
      obtain ⟨k', hCall, hOutcome, hAnswered⟩ := xTaskCreate_spec h hState hEvent hRuns p
      exact ⟨k', hCall, .woken rfl (Or.inr (Or.inr hState)) hOutcome hAnswered⟩
  | vTaskDelete t =>
      obtain ⟨_, hLives, hIdle, _⟩ := of_decide_eq_true hEnabled
      obtain ⟨hSome, hTerm⟩ := lives_iff.mp hLives
      obtain ⟨l, hState⟩ := Option.ne_none_iff_exists'.mp hSome
      obtain ⟨k', hCall, hOutcome, hAnswered⟩ := vTaskDelete_spec h hState
        (fun hSame => hTerm (hState.trans (congrArg some hSame))) hIdle
      exact ⟨k', hCall, .woken rfl (Or.inl (decide_eq_true rfl)) hOutcome hAnswered⟩
  | prvCheckTasksWaitingTermination =>
      obtain ⟨_, _, hSome⟩ := of_decide_eq_true hEnabled
      obtain ⟨t, k', hCall, hGone, hOutcome⟩ := prvCheckTasksWaitingTermination_spec h hSome
      exact ⟨k', hCall, .cleaned hGone hOutcome⟩

end FreeRtos.Tasks
