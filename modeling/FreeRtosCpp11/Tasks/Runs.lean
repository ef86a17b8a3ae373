import FreeRtosCpp11.Tasks.Effects

/-! Runs of the kernel, from the start of the scheduler with any tasks and through
calls in any order: every call that is allowed returns, and the tasks are always
in the lists that their states ask for. -/
namespace FreeRtos.Tasks

open Links

variable {cfg : Config} {k k' k₀ : Kernel} {t u p n : Nat} {v : View} {act : Act} {isFirst : Bool}
  {tasks : List (Nat × Nat)} {trace : Transition.Trace Kernel Act}

/-- The tasks created so far are ready, and the current one is the highest. -/
structure Fresh (cfg : Config) (k : Kernel) (isFirst : Bool) : Prop where
  sorted : Sorted k.lists k.toVars
  selects : Selects cfg k.uxTopReadyPriority k.view
  tasks : ∀ t, ((k.view t).state = none ∨ (k.view t).ready) ∧ (k.view t).event = none ∧
    (k.tcb t).uxPriority < cfg.configMAX_PRIORITIES ∧ (k.tcb t).uxBasePriority < cfg.configMAX_PRIORITIES
  vars : k.toVars = { (prvInitialiseTaskLists cfg).toVars with pxCurrentTCB := k.pxCurrentTCB }
  current : if isFirst then ∀ t, (k.view t).state = none
    else (k.view k.pxCurrentTCB).ready ∧
      ∀ t, (k.view t).ready → (k.tcb t).uxPriority ≤ (k.tcb k.pxCurrentTCB).uxPriority

theorem Fresh.start (cfg : Config) : Fresh cfg (prvInitialiseTaskLists cfg) true where
  sorted := by
    refine ⟨⟨fun l i => iff_of_false ?_ nofun, fun l => List.nodup_nil⟩, Or.inl ⟨rfl, rfl⟩, List.Pairwise.nil,
      List.Pairwise.nil⟩
    exact List.not_mem_nil
  selects := by
    unfold Selects
    split
    case isTrue =>
      refine ⟨Nat.two_pow_pos 32, fun p => iff_of_false ?_ nofun⟩
      show ¬ Nat.testBit 0 p = true
      simp
    case isFalse => exact nofun
  tasks t := ⟨Or.inl rfl, rfl, cfg.priorities.1, cfg.priorities.1⟩
  vars := rfl
  current := fun t => rfl

theorem free_of_prvAddTaskToReadyList (hAdd : prvAddTaskToReadyList cfg k t = some k') : (k.view t).state = none := by
  rw [prvAddTaskToReadyList, taskRECORD_READY_PRIORITY_eq, Kernel.vListInsertEnd] at hAdd
  split at hAdd
  case isTrue hFree => exact hFree
  case isFalse => cases hAdd

/-- One more task is ready, and it is the current one if no other is above it. -/
theorem Fresh.add (h : Fresh cfg k isFirst) (hAdd : prvAddNewTaskToReadyList cfg k isFirst t p = some k') :
    Fresh cfg k' false ∧ k'.view = Function.update k.view t ((k.view t).created cfg p) := by
  have hNew := changed_prvInitialiseNewTask h.sorted (h.tasks t).2.1 cfg p
  unfold prvAddNewTaskToReadyList at hAdd
  generalize prvInitialiseNewTask cfg k t p = k₁ at hNew hAdd
  obtain ⟨vars, lists, tcb, top⟩ := k₁
  obtain rfl : vars = k.toVars := hNew.vars
  dsimp only at hAdd
  generalize hCurrent : (if isFirst = true ∨ (tcb k.pxCurrentTCB).uxPriority ≤ (tcb t).uxPriority then t
    else k.pxCurrentTCB) = cur
  have hSame : (if isFirst = true ∨ (tcb k.pxCurrentTCB).uxPriority ≤ (tcb t).uxPriority then
      (⟨{ k.toVars with pxCurrentTCB := t }, lists, tcb, top⟩ : Kernel) else ⟨k.toVars, lists, tcb, top⟩) =
        ⟨{ k.toVars with pxCurrentTCB := cur }, lists, tcb, top⟩ := by
    rw [← hCurrent]
    split <;> rfl
  rw [hSame] at hAdd
  have hSorted : Sorted lists { k.toVars with pxCurrentTCB := cur } := hNew.sorted.congr rfl rfl
  have hView : (⟨{ k.toVars with pxCurrentTCB := cur }, lists, tcb, top⟩ : Kernel).view = _ := hNew.view
  have hHere : (⟨{ k.toVars with pxCurrentTCB := cur }, lists, tcb, top⟩ : Kernel).view t = _ := hNew.here
  have hOut : (k.view t).state = none := by
    have hFree := free_of_prvAddTaskToReadyList hAdd
    rwa [hHere] at hFree
  have hTcb : tcb = Function.update k.tcb t ⟨cfg.highest p, cfg.highest p, 0, false⟩ := hNew.tcb
  have hTop : top = k.uxTopReadyPriority := hNew.top
  obtain ⟨k₂, hCall, hChanged⟩ := changed_prvAddTaskToReadyList hSorted cfg (free_of_prvAddTaskToReadyList hAdd)
  obtain rfl := Option.some.inj (hCall.symm.trans hAdd)
  have hAll : k₂.view = Function.update k.view t ((k.view t).created cfg p) := by
    rw [hChanged.view, hView, Function.update_idem, Function.update_self]
    simp only [hTcb, Function.update_self]
    rfl
  have hPlace : ∀ u, (k₂.tcb u) = (k₂.view u).tcb := fun u => rfl
  refine ⟨⟨hChanged.sorted, ?_, ?_, ?_, ?_⟩, hAll⟩
  · rw [hAll, hChanged.top]
    simp only [hTcb, hTop, Function.update_self]
    exact h.selects.record (cfg.highest_lt p) (fun q => by rw [hOut]; exact nofun) rfl
  · simp only [hPlace, hAll]
    refine (Function.forall_update_iff k.view fun _ v => (v.state = none ∨ v.ready) ∧ v.event = none ∧
      v.tcb.uxPriority < cfg.configMAX_PRIORITIES ∧ v.tcb.uxBasePriority < cfg.configMAX_PRIORITIES).mpr
      ⟨⟨Or.inr rfl, (h.tasks t).2.1, cfg.highest_lt p, cfg.highest_lt p⟩, fun u _ => h.tasks u⟩
  · rw [hChanged.vars, h.vars]
  · have hCur : k₂.pxCurrentTCB = cur := by rw [hChanged.vars]
    rw [if_neg Bool.false_ne_true]
    simp only [hPlace, hAll, hCur]
    have hOthers : ∀ n, (∀ u, (k.view u).ready → (k.tcb u).uxPriority ≤ n) → cfg.highest p ≤ n →
        ∀ u, (Function.update k.view t ((k.view t).created cfg p) u).ready →
          (Function.update k.view t ((k.view t).created cfg p) u).tcb.uxPriority ≤ n := by
      intro n hOld hHere
      exact (Function.forall_update_iff k.view fun _ v => v.ready → v.tcb.uxPriority ≤ n).mpr
        ⟨fun _ => hHere, fun u _ => hOld u⟩
    have hFirst := h.current
    by_cases hTakes : isFirst = true ∨ (tcb k.pxCurrentTCB).uxPriority ≤ (tcb t).uxPriority
    · rw [if_pos hTakes] at hCurrent
      subst hCurrent
      rw [Function.update_self]
      refine ⟨rfl, hOthers _ (fun u hu => ?_) (Nat.le_refl _)⟩
      split at hFirst
      case isTrue =>
        rw [View.ready, hFirst u] at hu
        cases hu
      case isFalse hLater =>
        have hApart : k.pxCurrentTCB ≠ t := by
          rintro rfl
          cases hOut.symm.trans hFirst.1
        have hMore := hTakes.resolve_left hLater
        rw [hTcb, Function.update_self, Function.update_of_ne hApart] at hMore
        exact Nat.le_trans (hFirst.2 u hu) hMore
    · rw [if_neg hTakes] at hCurrent
      subst hCurrent
      rw [not_or, Nat.not_le] at hTakes
      rw [if_neg hTakes.1] at hFirst
      have hApart : k.pxCurrentTCB ≠ t := by
        rintro rfl
        cases hOut.symm.trans hFirst.1
      have hLess := hTakes.2
      rw [hTcb, Function.update_self, Function.update_of_ne hApart] at hLess
      rw [Function.update_of_ne hApart]
      exact ⟨hFirst.1, hOthers _ hFirst.2 (Nat.le_of_lt hLess)⟩

/-- All tasks that were created are ready. -/
theorem Fresh.create (h : Fresh cfg k isFirst) (hCreate : createTasks cfg isFirst tasks k = some k') :
    (tasks ≠ [] → Fresh cfg k' false) ∧ (∀ t, (k.view t).ready → (k'.view t).ready) ∧
      ∀ t p, (t, p) ∈ tasks → (k'.view t).ready := by
  induction tasks generalizing isFirst k with
  | nil =>
      rw [createTasks] at hCreate
      obtain rfl := Option.some.inj hCreate
      exact ⟨fun hSome => absurd rfl hSome, fun t hReady => hReady, fun t p hMem => absurd hMem List.not_mem_nil⟩
  | cons task tasks ih =>
      obtain ⟨t, p⟩ := task
      rw [createTasks] at hCreate
      obtain ⟨k₁, hAdd, hRest⟩ := Option.bind_eq_some_iff.mp hCreate
      obtain ⟨hFresh, hView⟩ := h.add hAdd
      obtain ⟨hLast, hKept, hThere⟩ := ih hFresh hRest
      have hHere : (k₁.view t).ready := by
        rw [hView, Function.update_self]
        rfl
      refine ⟨fun _ => ?_, fun u hReady => hKept u ?_, fun u q hMem => ?_⟩
      · cases tasks with
        | nil =>
            rw [createTasks] at hRest
            obtain rfl := Option.some.inj hRest
            exact hFresh
        | cons => exact hLast (List.cons_ne_nil _ _)
      · by_cases hTask : u = t
        · exact hTask ▸ hHere
        · rw [hView, Function.update_of_ne hTask]
          exact hReady
      · rcases List.mem_cons.mp hMem with hSame | hLater
        · obtain ⟨rfl, rfl⟩ := Prod.mk.inj hSame
          exact hKept _ hHere
        · exact hThere u q hLater

/-- The tasks are created, then the scheduler sets its clock. -/
theorem fresh_of_start (hStart : (system cfg).start k₀) :
    ∃ n k, n ≤ cfg.portMAX_DELAY ∧ Fresh cfg k false ∧ (k.view cfg.xIdleTaskHandle).ready ∧
      k₀ = { k with
        xNextTaskUnblockTime := cfg.portMAX_DELAY
        xTickCount := n } := by
  obtain ⟨n, hTick, tasks, hIdle, hBoot⟩ := hStart
  obtain ⟨k, hCreate, rfl⟩ := Option.map_eq_some_iff.mp hBoot
  obtain ⟨hFresh, _, hReady⟩ := (Fresh.start cfg).create hCreate
  exact ⟨n, k, hTick, hFresh (List.ne_nil_of_mem hIdle), hReady _ _ hIdle, rfl⟩

/-- No tick is pended at the start, and no context switch is asked for. -/
theorem start_vars (hStart : (system cfg).start k₀) :
    k₀.now cfg = k₀.xTickCount ∧ k₀.xPendedTicks = 0 ∧ k₀.xYieldPending = false ∧ k₀.portYIELD = false := by
  obtain ⟨n, k, _, hFresh, _, rfl⟩ := fresh_of_start hStart
  refine ⟨?_, ?_, ?_, ?_⟩
  · show k.xNumOfOverflows * _ + n = n
    rw [hFresh.vars]
    show 0 * _ + n = n
    omega
  · show k.xPendedTicks = 0
    rw [hFresh.vars]
    rfl
  · show k.xYieldPending = false
    rw [hFresh.vars]
    rfl
  · show k.portYIELD = false
    rw [hFresh.vars]
    rfl

/-- The conditions hold when the scheduler starts, and the current task is the
highest one. -/
theorem start_spec (hStart : (system cfg).start k₀) :
    Good cfg k₀ ∧ (k₀.view k₀.pxCurrentTCB).ready ∧
      ∀ t, (k₀.view t).ready → (k₀.tcb t).uxPriority ≤ (k₀.tcb k₀.pxCurrentTCB).uxPriority := by
  obtain ⟨n, k, hTick, h, hIdle, rfl⟩ := fresh_of_start hStart
  have hOut : ∀ t l, (k.view t).state = some l → l = .pxReadyTasksLists (k.tcb t).uxPriority := by
    intro t l hState
    rcases (h.tasks t).1 with hNone | hThere
    · cases hNone.symm.trans hState
    · exact Option.some.inj (hState.symm.trans hThere)
  have hCurrent := h.current
  rw [if_neg Bool.false_ne_true] at hCurrent
  have hLists : k.pxDelayedTaskList = .xDelayedTaskList1 ∧ k.pxOverflowDelayedTaskList = .xDelayedTaskList2 := by
    rw [h.vars]
    exact ⟨rfl, rfl⟩
  have hAway : ∀ t, (k.view t).state ≠ some k.pxDelayedTaskList ∧ (k.view t).state ≠ some k.pxOverflowDelayedTaskList := by
    intro t
    rw [hLists.1, hLists.2]
    constructor <;>
      · intro hState
        cases hOut t _ hState
  refine ⟨⟨⟨⟨h.sorted.congr rfl rfl, hTick, fun t => ⟨fun l hl => Or.inl (hOut t l hl), fun l hl => ?_, fun hWaits => ?_,
    (h.tasks t).2.2, fun hLater => absurd hLater (hAway t).2⟩, hIdle, ?_⟩, h.selects,
    fun t hState => absurd hState (hAway t).1, fun t hState => absurd hState (hAway t).1⟩, fun t hPending => ?_⟩,
    hCurrent⟩
  · cases hl.symm.trans (h.tasks t).2.1
  · exact absurd (h.tasks t).2.1 hWaits
  · show k.listCURRENT_LIST_LENGTH .xTasksWaitingTermination = k.uxDeletedTasksWaitingCleanUp
    have hZero : k.uxDeletedTasksWaitingCleanUp = 0 := by
      rw [h.vars]
      rfl
    have hEvents : ∀ t, (k.view t).event ≠ some .xTasksWaitingTermination := by
      intro t
      rw [(h.tasks t).2.1]
      exact nofun
    rw [hZero, length_eq_zero_iff h.sorted.sound hEvents]
    intro t hState
    cases hOut t _ hState
  · cases hPending.symm.trans (h.tasks t).2.1

/-- A step that may be taken, and what it does. -/
theorem step_spec (h : Good cfg k) (hNext : (system cfg).next k act = some k') (hKeeps : leavesBit cfg k act = false) :
    enabled cfg k act = true ∧ Effect cfg k act k' := by
  have hStep : (if enabled cfg k act then perform cfg k act else none) = some k' := hNext
  split at hStep
  case isTrue hEnabled =>
    obtain ⟨k₁, hPerform, hEffect⟩ := perform_spec h hEnabled hKeeps
    obtain rfl := Option.some.inj (hPerform.symm.trans hStep)
    exact ⟨hEnabled, hEffect⟩
  case isFalse => cases hStep

/-- The steps of a run that leave no bit for an empty ready list. -/
def keepsBits (cfg : Config) (k : Kernel) (act : Act) : Bool := !leavesBit cfg k act

/-- The conditions hold along a run, by one step after the other. -/
theorem good_of_run (h : Good cfg k) (run : (system cfg).Run k trace k')
    (hGuard : Transition.Guarded (keepsBits cfg) trace) : Good cfg k' := by
  induction run with
  | nil => exact h
  | @snoc k₁ k₂ trace act prior last ih =>
      have hPrior := ih fun step hMem => hGuard step (List.mem_append_left _ hMem)
      have hLast := hGuard (k₁, act) (by simp)
      exact (step_spec hPrior last ((Bool.not_eq_true' _).mp hLast)).2.good hPrior

/-- Every call that is allowed returns, also one that resets the wrong bit. -/
theorem perform_isSome (h : Good cfg k) (hEnabled : enabled cfg k act = true) : (perform cfg k act).isSome := by
  by_cases hKeeps : leavesBit cfg k act = false
  · obtain ⟨k', hPerform, _⟩ := perform_spec h hEnabled hKeeps
    rw [hPerform]
    rfl
  · cases act with
    | vTaskPriorityDisinheritAfterTimeout t p =>
        obtain ⟨_, _, hOther, hHeld, hNew⟩ := of_decide_eq_true hEnabled
        obtain ⟨k', hCall, _⟩ := vTaskPriorityDisinheritAfterTimeout_spec h hOther hHeld hNew
        show (vTaskPriorityDisinheritAfterTimeout cfg k t p).isSome
        rw [hCall]
        rfl
    | _ => exact absurd rfl hKeeps

/-- In every run the tasks are in the lists that their states ask for, and each
call that is allowed returns: the loops end, the assertions hold, and no list
call meets an item or a list that it must not. -/
theorem safe_of_run (hStart : (system cfg).start k₀) (run : (system cfg).Run k₀ trace k)
    (hGuard : Transition.Guarded (keepsBits cfg) trace) :
    Good cfg k ∧ ∀ act, enabled cfg k act = true → (perform cfg k act).isSome :=
  have hGood := good_of_run (start_spec hStart).1 run hGuard
  ⟨hGood, fun _ hEnabled => perform_isSome hGood hEnabled⟩

/-- A kernel with the bitmap, four priorities and ticks of 32 bits. -/
def board : Config := ⟨false, true, 4, 0, by decide, by decide⟩

/-- The second task waits for a mutex that the first one holds, gets a higher
priority meanwhile, and its time runs out. -/
def timeoutCalls : List Act :=
  [.vTaskSuspendAll, .vTaskDelay 1, .xTaskResumeAll, .vTaskSwitchContext, .pvTaskIncrementMutexHeldCount,
    .xTaskIncrementTick, .vTaskSwitchContext, .xTaskPriorityInherit 1, .vTaskSuspendAll, .vTaskPlaceOnEventList 0 1,
    .xTaskResumeAll, .vTaskSwitchContext, .vTaskPrioritySet 2 3, .xTaskIncrementTick, .vTaskSwitchContext]

/-- A run that is computed, with a property of its first and its last state. -/
theorem exec_any (cfg : Config) (n : Nat) (tasks : List (Nat × Nat)) (acts : List Act) (q : Kernel → Kernel → Bool)
    (hRun : ((vTaskStartScheduler cfg n tasks).any fun k₀ => ((system cfg).exec k₀ acts).any (q k₀)) = true) :
    ∃ k₀ k, vTaskStartScheduler cfg n tasks = some k₀ ∧ (system cfg).exec k₀ acts = some k ∧ q k₀ k = true := by
  obtain ⟨k₀, hStart, hRest⟩ := (Option.any_eq_true ..).mp hRun
  obtain ⟨k, hExec, hHolds⟩ := (Option.any_eq_true ..).mp hRest
  exact ⟨k₀, k, hStart, hExec, hHolds⟩

theorem safe_of_run_board :
    ∃ k₀ k, vTaskStartScheduler board 0xfffffffe [(1, 1), (2, 2), (0, 0)] = some k₀ ∧
      (system board).exec k₀ timeoutCalls = some k ∧ Good board k ∧
        ∀ act, enabled board k act = true → (perform board k act).isSome := by
  obtain ⟨k₀, k, hBoot, hExec, hGuard⟩ := exec_any board 0xfffffffe [(1, 1), (2, 2), (0, 0)] timeoutCalls
    (fun k₀ _ => Transition.Guarded (keepsBits board) ((system board).replay k₀ timeoutCalls)) (by decide)
  exact ⟨k₀, k, hBoot, hExec, safe_of_run ⟨_, by decide, _, by decide, hBoot⟩
    (Transition.System.run_of_exec timeoutCalls hExec) (of_decide_eq_true hGuard)⟩

/-- In a bitmap that is right, no bit stands for an empty ready list. -/
theorem Good.no_empty_bit (h : Good cfg k) (hOptimised : cfg.configUSE_PORT_OPTIMISED_TASK_SELECTION = true)
    (hBit : k.uxTopReadyPriority.testBit p = true) : k.listCURRENT_LIST_LENGTH (.pxReadyTasksLists p) ≠ 0 := by
  have hSelects := h.selects
  rw [Selects, if_pos hOptimised] at hSelects
  exact h.length_ready.mpr ((hSelects.2 p).mp hBit)

/-- The conditions survive the call after a timeout unless the bitmap is in use
and the holder of the mutex was alone in its ready list: then the bit of this
list, now empty, stays set. -/
theorem timeout_of_run (hStart : (system cfg).start k₀) (run : (system cfg).Run k₀ trace k)
    (hGuard : Transition.Guarded (keepsBits cfg) trace)
    (hEnabled : enabled cfg k (.vTaskPriorityDisinheritAfterTimeout t p) = true) :
    ∃ k', perform cfg k (.vTaskPriorityDisinheritAfterTimeout t p) = some k' ∧
      (Good cfg k' ↔ stale cfg k t p = false) ∧
      (stale cfg k t p = true → k'.uxTopReadyPriority.testBit (k.tcb t).uxPriority = true ∧
        k'.listCURRENT_LIST_LENGTH (.pxReadyTasksLists (k.tcb t).uxPriority) = 0) := by
  have h := good_of_run (start_spec hStart).1 run hGuard
  obtain ⟨_, _, hOther, hHeld, hNew⟩ := of_decide_eq_true hEnabled
  obtain ⟨k', hCall, _, hAfter⟩ := vTaskPriorityDisinheritAfterTimeout_spec h hOther hHeld hNew
  refine ⟨k', hCall, ?_⟩
  by_cases hStale : stale cfg k t p = true
  · rw [if_pos hStale] at hAfter
    refine ⟨iff_of_false (fun hGood => ?_) (by simp [hStale]), fun _ => hAfter⟩
    exact hGood.no_empty_bit (of_decide_eq_true hStale).1 hAfter.1 hAfter.2
  · rw [if_neg hStale] at hAfter
    exact ⟨iff_of_true hAfter ((Bool.not_eq_true _).mp hStale), fun hHolds => absurd hHolds hStale⟩

theorem timeout_of_run_board :
    ∃ k₀ k, vTaskStartScheduler board 0xfffffffe [(1, 1), (2, 2), (0, 0)] = some k₀ ∧
      (system board).exec k₀ timeoutCalls = some k ∧ stale board k 1 0 = true ∧
      ∃ k', perform board k (.vTaskPriorityDisinheritAfterTimeout 1 0) = some k' ∧
        (Good board k' ↔ stale board k 1 0 = false) ∧
        (stale board k 1 0 = true → k'.uxTopReadyPriority.testBit (k.tcb 1).uxPriority = true ∧
          k'.listCURRENT_LIST_LENGTH (.pxReadyTasksLists (k.tcb 1).uxPriority) = 0) := by
  obtain ⟨k₀, k, hBoot, hExec, hHolds⟩ := exec_any board 0xfffffffe [(1, 1), (2, 2), (0, 0)] timeoutCalls
    (fun k₀ k => Transition.Guarded (keepsBits board) ((system board).replay k₀ timeoutCalls) ∧
      stale board k 1 0 = true ∧ enabled board k (.vTaskPriorityDisinheritAfterTimeout 1 0) = true) (by decide)
  obtain ⟨hGuard, hStale, hEnabled⟩ := of_decide_eq_true hHolds
  exact ⟨k₀, k, hBoot, hExec, hStale, timeout_of_run ⟨_, by decide, _, by decide, hBoot⟩
    (Transition.System.run_of_exec timeoutCalls hExec) hGuard hEnabled⟩

/-- When the task that timed out blocks, the switch looks for a task in the list
of the bit that stayed. -/
example : ((vTaskStartScheduler board 0xfffffffe [(1, 1), (2, 2), (0, 0)]).any fun k₀ =>
    ((system board).exec k₀ (timeoutCalls ++ [.vTaskPriorityDisinheritAfterTimeout 1 0, .vTaskSuspendAll, .vTaskDelay 5,
      .xTaskResumeAll])).any fun k =>
        enabled board k .vTaskSwitchContext && (perform board k .vTaskSwitchContext).isNone) = true := by
  decide

end FreeRtos.Tasks
