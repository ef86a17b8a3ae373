import FreeRtosCpp11.Tasks.Sleep

/-! Preemption. Between any two calls the current task is the highest one that is
ready, or a context switch has been asked for; two calls that give a mutex back
may leave out the request. -/
namespace FreeRtos.Tasks

open Links

variable {cfg : Config} {k k' k₀ k₁ : Kernel} {t u p n e : Nat} {v : View} {act : Act} {tcb : TCB}
  {trace : Transition.Trace Kernel Act} {ev : Option TaskList} {can : Bool}

/-- No ready task is above the current one, which is ready itself unless it has
blocked and not resumed the scheduler yet. -/
def OnTop (k : Kernel) : Prop :=
  (∀ t, (k.view t).ready → (k.tcb t).uxPriority ≤ (k.tcb k.pxCurrentTCB).uxPriority) ∧
    ((k.view k.pxCurrentTCB).ready ∨ k.uxSchedulerSuspended ≠ 0)

/-- The port was asked for a context switch if one is needed. -/
def Asked (k : Kernel) : Prop := k.portYIELD = true ∨ OnTop k

/-- A task that should run instead of the current one is not forgotten. -/
def Preempts (k : Kernel) : Prop := k.portYIELD = true ∨ k.xYieldPending = true ∨ OnTop k

/-- A mutex goes to a task that is not above its holder, which loses a priority. -/
def passesBelow (cfg : Config) (k : Kernel) (e : Nat) : Bool :=
  (xTaskPriorityDisinherit cfg k).any fun (xYieldRequired, k) =>
    xYieldRequired && (k.listGET_HEAD_ENTRY (.pxEventList e)).any fun pxItem =>
      decide ((k.tcb pxItem.pvOwner).uxPriority ≤ (k.tcb k.pxCurrentTCB).uxPriority)

/-- The request for a context switch is left out: a mutex is given back in this
way, or a timeout raises its holder above the current task. -/
def leavesOut (cfg : Config) (k : Kernel) : Act → Bool
  | .giveMutex e => passesBelow cfg k e
  | .vTaskPriorityDisinheritAfterTimeout t p =>
      k.ready t ∧ (k.tcb k.pxCurrentTCB).uxPriority < uxPriorityToUse (k.tcb t) p
  | _ => false

/-- Nothing is wrong with a task that has not changed. -/
theorem OnTop.calm (h : OnTop k) (t : Nat) : Calm k t (k.view t) := by
  unfold Calm
  split
  case isTrue hSame =>
    subst hSame
    exact ⟨Nat.le_refl _, h.2⟩
  case isFalse => exact h.1 t

/-- One task has changed, and does not call for a context switch. -/
theorem OnTop.update (h : OnTop k) (hCalm : Calm k t v) (hView : k'.view = Function.update k.view t v)
    (hCurrent : k'.pxCurrentTCB = k.pxCurrentTCB) (hSuspended : k'.uxSchedulerSuspended = k.uxSchedulerSuspended) :
    OnTop k' := by
  have hTcb : ∀ u, k'.tcb u = (Function.update k.view t v u).tcb := fun u => congrArg View.tcb (congrFun hView u)
  unfold OnTop
  simp only [hTcb, hCurrent, hSuspended, hView]
  unfold Calm at hCalm
  split at hCalm
  case isTrue hSame =>
    subst hSame
    rw [Function.update_self]
    refine ⟨?_, hCalm.2⟩
    exact (Function.forall_update_iff k.view fun _ w => w.ready → w.tcb.uxPriority ≤ v.tcb.uxPriority).mpr
      ⟨fun _ => Nat.le_refl _, fun u _ hReady => Nat.le_trans (h.1 u hReady) hCalm.1⟩
  case isFalse hOther =>
    rw [Function.update_of_ne (Ne.symm hOther)]
    refine ⟨?_, h.2⟩
    exact (Function.forall_update_iff k.view fun _ w => w.ready →
      w.tcb.uxPriority ≤ (k.tcb k.pxCurrentTCB).uxPriority).mpr ⟨hCalm, fun u _ => h.1 u⟩

/-- Requests for a context switch stay, and the change of one task comes with one
if it calls for it. -/
theorem Preempts.outcome (h : Preempts k) (hOutcome : Outcome cfg k k' t v)
    (hAnswered : OnTop k → Answered k k' t v) : Preempts k' := by
  obtain ⟨n, d, x, y, hVars⟩ := hOutcome.vars
  rcases h with hYield | hPending | hTop
  · refine Or.inl ?_
    rw [hVars, hYield, Bool.true_or]
  · refine Or.inr (Or.inl ?_)
    rw [hVars, hPending, Bool.true_or]
  · rcases hAnswered hTop with hPending | hYield | hCalm
    · exact Or.inr (Or.inl hPending)
    · exact Or.inl hYield
    · exact Or.inr (Or.inr (hTop.update hCalm hOutcome.view (by rw [hVars]) (by rw [hVars])))

theorem Preempts.yieldIf (h : Preempts k) (b : Bool) : Preempts (yieldIf b k) := by
  unfold Tasks.yieldIf
  split
  case isTrue => exact Or.inl rfl
  case isFalse => exact h

/-- Tasks wake, and none of them is as high as the current one. -/
theorem OnTop.wake {woke : Nat → Prop} [DecidablePred woke] (h : OnTop k)
    (hView : ∀ t, k'.view t = if woke t then (k.view t).woken else k.view t)
    (hCurrent : k'.pxCurrentTCB = k.pxCurrentTCB)
    (hBelow : ∀ t, woke t → (k.view t).tcb.uxPriority ≤ (k.tcb k.pxCurrentTCB).uxPriority)
    (hReady : (k'.view k.pxCurrentTCB).ready ∨ k'.uxSchedulerSuspended ≠ 0) : OnTop k' := by
  have hTcb : ∀ t, k'.tcb t = k.tcb t := by
    intro t
    have hSame := congrArg View.tcb (hView t)
    split at hSame <;> exact hSame
  unfold OnTop
  rw [hCurrent]
  refine ⟨fun t hThere => ?_, hReady⟩
  rw [hTcb, hTcb]
  rw [hView] at hThere
  split at hThere
  case isTrue hWoke => exact hBelow t hWoke
  case isFalse => exact h.1 t hThere

theorem Asked.preempts (h : Asked k) : Preempts k := h.imp_right Or.inr

theorem Asked.yieldIf (h : Asked k) (b : Bool) : Asked (yieldIf b k) := by
  unfold Tasks.yieldIf
  split
  case isTrue => exact Or.inl rfl
  case isFalse => exact h

/-- A tick passes all requests on to the port. -/
theorem Ticked.asked {sw : Bool} (h : Ticked cfg k k' sw) (hRun : k.uxSchedulerSuspended = 0) (hBefore : Preempts k) :
    Asked (yieldIf sw k') := by
  cases sw with
  | true => exact Or.inl rfl
  | false =>
      refine Asked.yieldIf ?_ false
      have hNot := mt h.switch.mpr Bool.false_ne_true
      rw [not_or, not_or] at hNot
      rcases hBefore with hYield | hPending | hTop
      · exact Or.inl (h.others.yield.trans hYield)
      · exact absurd hPending hNot.2.2
      · refine Or.inr (hTop.wake h.view h.others.current (fun t hWoke => ?_) (Or.inl ?_))
        · by_contra hAbove
          exact hNot.1 ⟨t, hWoke, Nat.le_of_not_le hAbove⟩
        · have hReady := hTop.2.resolve_right (not_not.mpr hRun)
          rw [h.view]
          split
          case isTrue => rfl
          case isFalse => exact hReady

/-- So does the call that lets the scheduler run again. -/
theorem Resumed.asked (h : Resumed cfg k k') (hBefore : Preempts k) :
    Asked (yieldIf (!k'.ready k'.pxCurrentTCB) k') := by
  by_cases hReady : k'.ready k'.pxCurrentTCB = true
  · refine Asked.yieldIf ?_ _
    have hAsk : k.portYIELD = true ∨ k'.xYieldPending = true → k'.portYIELD = true := by
      rw [h.yield, Bool.or_eq_true]
      exact id
    rcases hBefore with hYield | hPending | hTop
    · exact Or.inl (hAsk (Or.inl hYield))
    · exact Or.inl (hAsk (Or.inr (h.yieldPending (Or.inl hPending))))
    · by_cases hMore : ∃ t, k.released cfg t = true ∧ (k.tcb k.pxCurrentTCB).uxPriority ≤ (k.view t).tcb.uxPriority
      · exact Or.inl (hAsk (Or.inr (h.yieldPending (Or.inr hMore))))
      · refine Or.inr (hTop.wake h.view h.current (fun t hWoke => ?_) (Or.inl ?_))
        · by_contra hAbove
          exact hMore ⟨t, hWoke, Nat.le_of_not_le hAbove⟩
        · rw [← h.current]
          exact ready_iff.mp hReady
  · rw [(Bool.not_eq_true _).mp hReady]
    exact Or.inl rfl

theorem Blocked.preempts (h : Blocked cfg k k' ev n can) (hRun : k.uxSchedulerSuspended ≠ 0) (hBefore : Preempts k) :
    Preempts k' := by
  obtain ⟨v, hView, _, hTcb, hNot, _⟩ := h.view
  obtain ⟨m, hVars⟩ := h.vars
  rcases hBefore with hYield | hPending | hTop
  · exact Or.inl (by rw [hVars, hYield])
  · exact Or.inr (Or.inl (by rw [hVars, hPending]))
  · refine Or.inr (Or.inr (hTop.update ?_ hView (by rw [hVars]) (by rw [hVars])))
    rw [Calm, if_pos rfl, hTcb]
    exact ⟨Nat.le_refl _, Or.inr hRun⟩

/-- A mutex is given back, and the request that its priority asks for is not left
out. -/
theorem Given.preempts (h : Given cfg k k' e) (hGood : Good cfg k) (hRuns : k.ready k.pxCurrentTCB = true)
    (hKeeps : leavesOut cfg k (.giveMutex e) = false) (hBefore : Preempts k) : Preempts k' := by
  have hFirst : ∀ {k₁ : Kernel} {tcb : TCB},
      Outcome cfg k k₁ k.pxCurrentTCB ((k.view k.pxCurrentTCB).withTCB tcb) →
        tcb.uxPriority = (k.tcb k.pxCurrentTCB).uxPriority → Preempts k₁ := by
    intro k₁ tcb hOutcome hSame
    refine hBefore.outcome hOutcome fun hTop => Or.inr (Or.inr ?_)
    exact calm_withTCB hGood (hTop.calm _) (fun hOther => absurd rfl hOther) fun _ => Nat.le_of_eq hSame.symm
  cases h with
  | alone b k₁ tcb first vars same last =>
      rw [last]
      cases b with
      | true => exact Or.inl rfl
      | false => exact (hFirst first (same rfl)).yieldIf false
  | waiter b c k₁ tcb t w first vars same asks waits woken last answered yield =>
      cases c with
      | true => exact Or.inl (yield rfl)
      | false =>
          have hAlone : b = false := by
            by_contra hAsks
            rw [Bool.not_eq_false] at hAsks
            subst hAsks
            have hLow := Nat.le_of_not_lt (mt woken.mpr Bool.false_ne_true)
            have hHead : k₁.listGET_HEAD_ENTRY (.pxEventList e) = some (.xEventListItem t) := by
              rw [Kernel.listGET_HEAD_ENTRY, order_disinherit hGood hRuns asks, waits]
              rfl
            have hOut : passesBelow cfg k e = true := by
              rw [passesBelow, asks, Option.any_some]
              dsimp only
              rw [hHead, Option.any_some, Bool.true_and]
              exact decide_eq_true hLow
            exact Bool.false_ne_true (hKeeps.symm.trans hOut)
          exact (hFirst first (same hAlone)).outcome last fun _ => answered

/-- No call that is allowed forgets the request for a context switch, except the
two that leave it out. -/
theorem Effect.preempts (hEffect : Effect cfg k act k') (h : Good cfg k) (hEnabled : enabled cfg k act = true)
    (hKeeps : leavesOut cfg k act = false) (hBefore : Preempts k) : Preempts k' := by
  cases hEffect with
  | ticked sw hRun hTicked => exact (hTicked.asked hRun hBefore).preempts
  | pended hRun => exact hBefore
  | caughtUp n => exact hBefore
  | asked => exact Or.inl rfl
  | switched hRun hSwitched =>
      have hTcb : k'.tcb = k.tcb := funext fun t => congrArg View.tcb (congrFun hSwitched.view t)
      refine Or.inr (Or.inr ⟨fun t hReady => ?_, Or.inl hSwitched.runs⟩)
      rw [hTcb]
      refine hSwitched.highest.2 _ ⟨t, ?_⟩
      rw [← hTcb]
      exact congrArg View.state (congrFun hSwitched.view t) ▸ hReady
  | latched hRun => exact Or.inr (Or.inl rfl)
  | suspended =>
      rcases hBefore with hYield | hPending | hTop
      · exact Or.inl hYield
      · exact Or.inr (Or.inl hPending)
      · exact Or.inr (Or.inr ⟨hTop.1, Or.inr (Nat.succ_ne_zero _)⟩)
  | resumed hLast hResumed => exact (hResumed.asked hBefore).preempts
  | nested hMore =>
      refine Preempts.yieldIf ?_ _
      rcases hBefore with hYield | hPending | hTop
      · exact Or.inl hYield
      · exact Or.inr (Or.inl hPending)
      · exact Or.inr (Or.inr ⟨hTop.1, Or.inr (Nat.sub_ne_zero_of_lt hMore)⟩)
  | blocked hMay hBlocks hBlocked =>
      obtain ⟨_, _, hOnce, _⟩ := of_decide_eq_true hMay
      exact hBlocked.preempts (by rw [hOnce]; exact Nat.one_ne_zero) hBefore
  | nothing hTicks => exact hBefore
  | woken hTicks hTouched hOutcome hAnswered => exact hBefore.outcome hOutcome fun _ => hAnswered
  | @cleaned k' t hGone hOutcome =>
      have hRuns := ready_iff.mp (of_decide_eq_true hEnabled).1
      refine hBefore.outcome hOutcome fun hTop => Or.inr (Or.inr ?_)
      rw [Calm, if_neg]
      · intro hReady
        cases hReady
      · rintro rfl
        cases hRuns.symm.trans hGone
  | changed tcb hTicks hOutcome hAnswered => exact hBefore.outcome hOutcome fun hTop => hAnswered (hTop.calm _)
  | @lowered k' t p tcb hOther hOutcome hPriority =>
      refine hBefore.outcome hOutcome fun hTop => Or.inr (Or.inr ?_)
      rw [Calm, if_neg hOther, View.ready_withTCB h.unready]
      intro hReady
      by_contra hAbove
      have hOut : leavesOut cfg k (.vTaskPriorityDisinheritAfterTimeout t p) = true :=
        decide_eq_true ⟨ready_iff.mpr hReady, hPriority ▸ Nat.lt_of_not_le hAbove⟩
      exact Bool.false_ne_true (hKeeps.symm.trans hOut)
  | given hGiven =>
      exact hGiven.preempts h (of_decide_eq_true hEnabled).1 hKeeps hBefore

/-- The steps of a run that leave no bit behind and no request out. -/
def keepsRequests (cfg : Config) (k : Kernel) (act : Act) : Bool := !leavesBit cfg k act && !leavesOut cfg k act

/-- The call lets the scheduler look at all requests. -/
def settles (k : Kernel) : Act → Bool
  | .xTaskIncrementTick => k.uxSchedulerSuspended = 0
  | .xTaskResumeAll => k.uxSchedulerSuspended = 1
  | _ => false

/-- After such a call the port was asked for the context switch. -/
theorem Preempts.settled (hBefore : Preempts k) (h : Good cfg k) (hSettles : settles k act = true)
    (hPerform : perform cfg k act = some k') : Asked k' := by
  cases act with
  | xTaskIncrementTick =>
      have hRun : k.uxSchedulerSuspended = 0 := of_decide_eq_true hSettles
      obtain ⟨sw, k₁, hTick, hTicked⟩ := xTaskIncrementTick_spec h hRun
      rw [perform, hTick, Option.map_some] at hPerform
      obtain rfl := Option.some.inj hPerform
      exact hTicked.asked hRun hBefore
  | xTaskResumeAll =>
      obtain ⟨yielded, k₁, hCall, hResumed⟩ := xTaskResumeAll_spec h (of_decide_eq_true hSettles)
      rw [perform, hCall, Option.map_some] at hPerform
      obtain rfl := Option.some.inj hPerform
      exact hResumed.asked hBefore
  | _ => cases hSettles

theorem preempts_of_guarded (hStart : (system cfg).start k₀) (run : (system cfg).Run k₀ trace k)
    (hGuard : Transition.Guarded (keepsRequests cfg) trace) : Good cfg k ∧ Preempts k := by
  obtain ⟨hGood, hReady, hTop⟩ := start_spec hStart
  refine run.invariant (P := fun k => Good cfg k ∧ Preempts k) hGuard
    ⟨hGood, Or.inr (Or.inr ⟨hTop, Or.inl hReady⟩)⟩ fun k act k' hBefore hKeeps hNext => ?_
  have hBoth := (Bool.and_eq_true _ _).mp hKeeps
  rw [Bool.not_eq_true', Bool.not_eq_true'] at hBoth
  obtain ⟨hEnabled, hEffect⟩ := step_spec hBefore.1 hNext hBoth.1
  exact ⟨hEffect.good hBefore.1, hEffect.preempts hBefore.1 hEnabled hBoth.2 hBefore.2⟩

/-- In every run a ready task that is above the current one has a context switch
asked for, and from the next tick or the end of a suspension on it is the port
that was asked, unless a request was left out before. -/
theorem preempts_of_run (hStart : (system cfg).start k₀) (run : (system cfg).Run k₀ trace k)
    (hGuard : Transition.Guarded (keepsRequests cfg) trace) :
    Preempts k ∧ ∀ act k', settles k act = true → perform cfg k act = some k' → Asked k' :=
  have hBoth := preempts_of_guarded hStart run hGuard
  ⟨hBoth.2, fun _ _ hSettles hPerform => hBoth.2.settled hBoth.1 hSettles hPerform⟩

theorem preempts_of_run_board :
    ∃ k₀ k, vTaskStartScheduler board 0xfffffffe [(1, 1), (2, 2), (0, 0)] = some k₀ ∧
      (system board).exec k₀ timeoutCalls = some k ∧ Preempts k ∧
        ∀ act k', settles k act = true → perform board k act = some k' → Asked k' := by
  obtain ⟨k₀, k, hBoot, hExec, hGuard⟩ := exec_any board 0xfffffffe [(1, 1), (2, 2), (0, 0)] timeoutCalls
    (fun k₀ _ => Transition.Guarded (keepsRequests board) ((system board).replay k₀ timeoutCalls)) (by decide)
  exact ⟨k₀, k, hBoot, hExec, preempts_of_run ⟨_, by decide, _, by decide, hBoot⟩
    (Transition.System.run_of_exec timeoutCalls hExec) (of_decide_eq_true hGuard)⟩

/-- The first task holds two mutexes and has inherited the priority of the third
one, whose time runs out. -/
def mutexCalls : List Act :=
  [.vTaskSuspendAll, .vTaskDelay 2, .xTaskResumeAll, .vTaskSwitchContext,
    .vTaskSuspendAll, .vTaskDelay 2, .xTaskResumeAll, .vTaskSwitchContext,
    .pvTaskIncrementMutexHeldCount, .pvTaskIncrementMutexHeldCount, .portYIELD, .vTaskSwitchContext,
    .vTaskSuspendAll, .vTaskPlaceOnEventList 0 9, .xTaskResumeAll, .vTaskSwitchContext,
    .xTaskIncrementTick, .xTaskIncrementTick, .vTaskSwitchContext,
    .xTaskPriorityInherit 1, .vTaskSuspendAll, .vTaskPlaceOnEventList 1 1, .xTaskResumeAll, .vTaskSwitchContext,
    .xTaskIncrementTick, .vTaskSwitchContext, .vTaskPriorityDisinheritAfterTimeout 1 0,
    .vTaskSuspendAll, .vTaskDelay 9, .xTaskResumeAll, .vTaskSwitchContext, .giveMutex 1]

/-- When it gives the last mutex to a task as low as itself, it goes on running
although the second task is above it. -/
example : ((vTaskStartScheduler board 0xfffffffe [(1, 1), (4, 1), (2, 2), (3, 3), (0, 0)]).any fun k₀ =>
    ((system board).exec k₀ mutexCalls).any fun k => passesBelow board k 0 && (perform board k (.giveMutex 0)).any fun k =>
      !k.portYIELD && !k.xYieldPending && k.ready 2 &&
        decide ((k.tcb k.pxCurrentTCB).uxPriority < (k.tcb 2).uxPriority)) = true := by
  decide

end FreeRtos.Tasks
