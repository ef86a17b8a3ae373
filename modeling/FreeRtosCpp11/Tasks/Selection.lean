import FreeRtosCpp11.Tasks.Runs
import FreeRtosCpp11.Transition.Lockstep

/-! The choice of the task that runs. A context switch picks the task whose turn it
is at the highest priority that is ready, and a port with a bitmap runs the same
tasks as one that searches the lists. -/
namespace FreeRtos.Tasks

open Links Transition

variable {cfg : Config} {k k' k₀ k₁ k₂ : Kernel} {l : TaskList} {i : Item} {t p n m e : Nat} {act : Act}
  {trace : Trace Kernel Act}

/-- In every run, a context switch that is not held back runs a ready task of the
highest priority that is ready, the one whose turn it is. -/
theorem switched_of_run (hStart : (system cfg).start k₀) (run : (system cfg).Run k₀ trace k)
    (hGuard : Guarded (keepsBits cfg) trace) (hAsked : k.portYIELD = true) (hRun : k.uxSchedulerSuspended = 0) :
    ∃ k', (system cfg).next k .vTaskSwitchContext = some k' ∧ k'.view = k.view ∧ (k.view k'.pxCurrentTCB).ready ∧
      (∀ t, (k.view t).ready → (k.tcb t).uxPriority ≤ (k.tcb k'.pxCurrentTCB).uxPriority) ∧
      (k.lists.round (.pxReadyTasksLists (k.tcb k'.pxCurrentTCB).uxPriority)).waiting.head? =
        some (.xStateListItem k'.pxCurrentTCB) := by
  have h := good_of_run (start_spec hStart).1 run hGuard
  obtain ⟨k', hCall, hSwitched⟩ := vTaskSwitchContext_spec (h.setPortYIELD false) hRun
  refine ⟨k', (if_pos hAsked).trans hCall, hSwitched.view, ?_, fun t hReady => ?_, hSwitched.turn⟩
  · have hView : k'.view = k.view := hSwitched.view
    rw [← hView]
    exact hSwitched.runs
  · exact hSwitched.highest.2 _ ⟨t, hReady⟩

theorem switched_of_run_board :
    ∃ k₀ k, vTaskStartScheduler board 0xfffffffe [(1, 1), (2, 2), (0, 0)] = some k₀ ∧
      (system board).exec k₀ (timeoutCalls ++ [.portYIELD]) = some k ∧
      ∃ k', (system board).next k .vTaskSwitchContext = some k' ∧ k'.view = k.view ∧ (k.view k'.pxCurrentTCB).ready ∧
        (∀ t, (k.view t).ready → (k.tcb t).uxPriority ≤ (k.tcb k'.pxCurrentTCB).uxPriority) ∧
        (k.lists.round (.pxReadyTasksLists (k.tcb k'.pxCurrentTCB).uxPriority)).waiting.head? =
          some (.xStateListItem k'.pxCurrentTCB) := by
  obtain ⟨k₀, k, hBoot, hExec, hHolds⟩ := exec_any board 0xfffffffe [(1, 1), (2, 2), (0, 0)]
    (timeoutCalls ++ [.portYIELD])
    (fun k₀ k => Guarded (keepsBits board) ((system board).replay k₀ (timeoutCalls ++ [.portYIELD])) ∧
      k.portYIELD = true ∧ k.uxSchedulerSuspended = 0) (by decide)
  obtain ⟨hGuard, hAsked, hRun⟩ := of_decide_eq_true hHolds
  exact ⟨k₀, k, hBoot, hExec, switched_of_run ⟨_, by decide, _, by decide, hBoot⟩
    (System.run_of_exec (timeoutCalls ++ [.portYIELD]) hExec) hGuard hAsked hRun⟩

/-- The same configuration without the bitmap. -/
def Config.plain (cfg : Config) : Config where
  configUSE_16_BIT_TICKS := cfg.configUSE_16_BIT_TICKS
  configUSE_PORT_OPTIMISED_TASK_SELECTION := false
  configMAX_PRIORITIES := cfg.configMAX_PRIORITIES
  xIdleTaskHandle := cfg.xIdleTaskHandle
  priorities := cfg.priorities
  optimised := nofun

/-- All but the record of the ready priorities is the same. -/
def Same (k k' : Kernel) : Prop := ∃ n, k' = { k with uxTopReadyPriority := n }

def SameAnswer {α : Type} (x y : α × Kernel) : Prop := x.1 = y.1 ∧ Same x.2 y.2

theorem Same.record (h : Same k k') (n m : Nat) :
    Same { k with uxTopReadyPriority := n } { k' with uxTopReadyPriority := m } := by
  obtain ⟨_, rfl⟩ := h
  exact ⟨m, rfl⟩

theorem Same.ite {c d : Prop} [Decidable c] [Decidable d] (hSame : c ↔ d) (hThen : Same k k') (hElse : Same k₁ k₂) :
    Same (if c then k else k₁) (if d then k' else k₂) := by
  by_cases hHolds : c
  · rw [if_pos hHolds, if_pos (hSame.mp hHolds)]
    exact hThen
  · rw [if_neg hHolds, if_neg (mt hSame.mpr hHolds)]
    exact hElse

/-! Each call of the kernel but the context switch does the same. -/

theorem same_vListInsertEnd (h : Same k k') : Option.Rel Same (k.vListInsertEnd l i) (k'.vListInsertEnd l i) := by
  obtain ⟨n, rfl⟩ := h
  exact rel_ite Iff.rfl (.some ⟨n, rfl⟩) .none

theorem same_vListInsert (h : Same k k') : Option.Rel Same (k.vListInsert l i) (k'.vListInsert l i) := by
  obtain ⟨n, rfl⟩ := h
  exact rel_ite Iff.rfl (.some ⟨n, rfl⟩) .none

theorem same_uxListRemove (h : Same k k') : Option.Rel SameAnswer (k.uxListRemove i) (k'.uxListRemove i) := by
  obtain ⟨n, rfl⟩ := h
  unfold Kernel.uxListRemove
  cases k.lists.home i with
  | none => exact .none
  | some l => exact .some ⟨rfl, n, rfl⟩

theorem Same.taskRECORD (h : Same k k') (cfg : Config) (p : Nat) :
    Same (taskRECORD_READY_PRIORITY cfg k p) (taskRECORD_READY_PRIORITY cfg.plain k' p) := by
  rw [taskRECORD_READY_PRIORITY_eq, taskRECORD_READY_PRIORITY_eq]
  exact h.record _ _

theorem Same.portRESET (h : Same k k') (cfg : Config) (p : Nat) :
    Same (portRESET_READY_PRIORITY cfg k p) (portRESET_READY_PRIORITY cfg.plain k' p) := by
  rw [portRESET_READY_PRIORITY_eq, portRESET_READY_PRIORITY_eq]
  exact h.record _ _

theorem Same.taskRESET (h : Same k k') (cfg : Config) (p : Nat) :
    Same (taskRESET_READY_PRIORITY cfg k p) (taskRESET_READY_PRIORITY cfg.plain k' p) := by
  rw [taskRESET_READY_PRIORITY_eq, taskRESET_READY_PRIORITY_eq]
  refine Same.ite ?_ (h.portRESET cfg p) h
  obtain ⟨n, rfl⟩ := h
  exact Iff.rfl

theorem same_prvAddTaskToReadyList (h : Same k k') :
    Option.Rel Same (prvAddTaskToReadyList cfg k t) (prvAddTaskToReadyList cfg.plain k' t) := by
  have hRecord := h.taskRECORD cfg (k.tcb t).uxPriority
  obtain ⟨n, rfl⟩ := h
  exact same_vListInsertEnd hRecord

theorem Same.removeEventItem (h : Same k k') (t : Nat) : Same (removeEventItem k t) (removeEventItem k' t) := by
  obtain ⟨n, rfl⟩ := h
  exact Same.ite Iff.rfl ⟨n, rfl⟩ ⟨n, rfl⟩

theorem same_unblock (h : Same k k') : Option.Rel Same (unblock cfg k t) (unblock cfg.plain k' t) :=
  rel_bind (same_uxListRemove h) fun _ _ hRemoved => same_prvAddTaskToReadyList hRemoved.2

theorem Same.resetNext (h : Same k k') :
    Same (prvResetNextTaskUnblockTime cfg k) (prvResetNextTaskUnblockTime cfg.plain k') := by
  obtain ⟨n, rfl⟩ := h
  exact ⟨n, rfl⟩

theorem same_prvAddCurrentTaskToDelayedList {can : Bool} (h : Same k k') :
    Option.Rel Same (prvAddCurrentTaskToDelayedList cfg k n can)
      (prvAddCurrentTaskToDelayedList cfg.plain k' n can) := by
  obtain ⟨top, rfl⟩ := h
  refine rel_bind (same_uxListRemove ⟨top, rfl⟩) ?_
  rintro ⟨left, k₁⟩ ⟨left', k₂⟩ ⟨rfl, hRemoved⟩
  dsimp only
  have hLeft : Same (if left = 0 then portRESET_READY_PRIORITY cfg k₁ (k₁.tcb k.pxCurrentTCB).uxPriority else k₁)
      (if left = 0 then portRESET_READY_PRIORITY cfg.plain k₂ (k₂.tcb k.pxCurrentTCB).uxPriority else k₂) := by
    obtain ⟨top', rfl⟩ := hRemoved
    exact Same.ite Iff.rfl (Same.portRESET ⟨top', rfl⟩ cfg _) ⟨top', rfl⟩
  generalize (if left = 0 then portRESET_READY_PRIORITY cfg _ _ else _ : Kernel) = k₃ at hLeft ⊢
  generalize (if left = 0 then portRESET_READY_PRIORITY cfg.plain _ _ else _ : Kernel) = k₄ at hLeft ⊢
  obtain ⟨top', rfl⟩ := hLeft
  refine rel_ite Iff.rfl (same_vListInsertEnd ⟨top', rfl⟩) (rel_ite Iff.rfl (same_vListInsert ⟨top', rfl⟩) ?_)
  refine rel_map (same_vListInsert ⟨top', rfl⟩) ?_
  rintro k₅ _ ⟨top'', rfl⟩
  exact Same.ite Iff.rfl ⟨top'', rfl⟩ ⟨top'', rfl⟩

/-- The loop over the delayed tasks, by induction on what is left of it. -/
theorem same_unblockTasks {fuel : Nat} {sw : Bool} (h : Same k k') :
    Option.Rel SameAnswer (unblockTasks cfg fuel k sw) (unblockTasks cfg.plain fuel k' sw) := by
  induction fuel generalizing k k' sw with
  | zero => exact .none
  | succ fuel ih =>
      obtain ⟨n, rfl⟩ := h
      rw [unblockTasks, unblockTasks]
      dsimp only [Kernel.listGET_HEAD_ENTRY]
      cases (k.lists.round k.pxDelayedTaskList).order.head? with
      | none => exact .some ⟨rfl, n, rfl⟩
      | some i =>
          refine rel_ite Iff.rfl (.some ⟨rfl, n, rfl⟩) (rel_bind (same_uxListRemove ⟨n, rfl⟩) ?_)
          rintro ⟨left, k₁⟩ ⟨left', k₂⟩ ⟨rfl, hRemoved⟩
          refine rel_bind (same_prvAddTaskToReadyList (hRemoved.removeEventItem _)) ?_
          rintro k₃ _ ⟨n', rfl⟩
          exact ih ⟨n', rfl⟩

theorem same_xTaskIncrementTick (h : Same k k') :
    Option.Rel SameAnswer (xTaskIncrementTick cfg k) (xTaskIncrementTick cfg.plain k') := by
  obtain ⟨n, rfl⟩ := h
  refine rel_ite Iff.rfl ?_ (.some ⟨rfl, n, rfl⟩)
  refine rel_bind (R := Same) (rel_ite Iff.rfl (rel_ite Iff.rfl (.some ⟨n, rfl⟩) .none) (.some ⟨n, rfl⟩)) ?_
  rintro k₁ _ ⟨n', rfl⟩
  refine rel_map (R := SameAnswer)
    (rel_ite Iff.rfl (same_unblockTasks ⟨n', rfl⟩) (.some ⟨rfl, n', rfl⟩)) ?_
  rintro ⟨sw, k₂⟩ ⟨sw', _⟩ ⟨rfl, n'', rfl⟩
  exact ⟨rfl, n'', rfl⟩

theorem same_movePending {fuel : Nat} {moved : Bool} (h : Same k k') :
    Option.Rel SameAnswer (movePending cfg fuel k moved) (movePending cfg.plain fuel k' moved) := by
  induction fuel generalizing k k' moved with
  | zero => exact .none
  | succ fuel ih =>
      obtain ⟨n, rfl⟩ := h
      rw [movePending, movePending]
      dsimp only [Kernel.listGET_HEAD_ENTRY]
      cases (k.lists.round .xPendingReadyList).order.head? with
      | none => exact .some ⟨rfl, n, rfl⟩
      | some i =>
          refine rel_bind (same_uxListRemove ⟨n, rfl⟩) ?_
          rintro ⟨left, k₁⟩ ⟨left', k₂⟩ ⟨rfl, hRemoved⟩
          refine rel_bind (same_unblock hRemoved) ?_
          rintro k₃ _ ⟨n', rfl⟩
          exact ih (Same.ite Iff.rfl ⟨n', rfl⟩ ⟨n', rfl⟩)

theorem same_catchUp (h : Same k k') : Option.Rel Same (catchUp cfg n k) (catchUp cfg.plain n k') := by
  induction n generalizing k k' with
  | zero => exact .some h
  | succ n ih =>
      refine rel_bind (same_xTaskIncrementTick h) ?_
      rintro ⟨sw, k₁⟩ ⟨sw', _⟩ ⟨rfl, top, rfl⟩
      exact ih (Same.ite Iff.rfl ⟨top, rfl⟩ ⟨top, rfl⟩)

theorem same_xTaskResumeAll (h : Same k k') :
    Option.Rel SameAnswer (xTaskResumeAll cfg k) (xTaskResumeAll cfg.plain k') := by
  obtain ⟨n, rfl⟩ := h
  refine rel_ite Iff.rfl .none (rel_ite Iff.rfl ?_ (.some ⟨rfl, n, rfl⟩))
  refine rel_bind (same_movePending ⟨n, rfl⟩) ?_
  rintro ⟨moved, k₁⟩ ⟨moved', _⟩ ⟨rfl, n', rfl⟩
  refine rel_map (same_catchUp (Same.ite Iff.rfl (Same.resetNext ⟨n', rfl⟩) ⟨n', rfl⟩)) ?_
  rintro k₂ _ ⟨n'', rfl⟩
  by_cases hPending : k₂.xYieldPending = true
  · rw [if_pos hPending, if_pos hPending]
    exact ⟨rfl, n'', rfl⟩
  · rw [if_neg hPending, if_neg hPending]
    exact ⟨rfl, n'', rfl⟩

theorem same_vTaskPlaceOnEventList (h : Same k k') :
    Option.Rel Same (vTaskPlaceOnEventList cfg k e n) (vTaskPlaceOnEventList cfg.plain k' e n) := by
  obtain ⟨top, rfl⟩ := h
  exact rel_bind (same_vListInsert ⟨top, rfl⟩) fun _ _ hInserted => same_prvAddCurrentTaskToDelayedList hInserted

theorem same_vTaskPlaceOnUnorderedEventList {v : Nat} (h : Same k k') :
    Option.Rel Same (vTaskPlaceOnUnorderedEventList cfg k e v n)
      (vTaskPlaceOnUnorderedEventList cfg.plain k' e v n) := by
  obtain ⟨top, rfl⟩ := h
  exact rel_bind (same_vListInsertEnd ⟨top, rfl⟩) fun _ _ hInserted => same_prvAddCurrentTaskToDelayedList hInserted

theorem same_xTaskRemoveFromEventList (h : Same k k') :
    Option.Rel SameAnswer (xTaskRemoveFromEventList cfg k e) (xTaskRemoveFromEventList cfg.plain k' e) := by
  obtain ⟨n, rfl⟩ := h
  unfold xTaskRemoveFromEventList
  dsimp only [Kernel.listGET_HEAD_ENTRY]
  cases (k.lists.round (.pxEventList e)).order.head? with
  | none => exact .none
  | some i =>
      rw [Option.bind_some, Option.bind_some]
      refine rel_bind (same_uxListRemove ⟨n, rfl⟩) ?_
      rintro ⟨left, k₁⟩ ⟨left', _⟩ ⟨rfl, n', rfl⟩
      refine rel_map (rel_ite Iff.rfl (same_unblock ⟨n', rfl⟩) (same_vListInsertEnd ⟨n', rfl⟩)) ?_
      rintro k₂ _ ⟨n'', rfl⟩
      rw [raise_answer, raise_answer]
      exact ⟨rfl, n'', rfl⟩

theorem same_vTaskRemoveFromUnorderedEventList {v : Nat} (h : Same k k') :
    Option.Rel Same (vTaskRemoveFromUnorderedEventList cfg k t v)
      (vTaskRemoveFromUnorderedEventList cfg.plain k' t v) := by
  obtain ⟨n, rfl⟩ := h
  refine rel_bind (same_uxListRemove ⟨n, rfl⟩) fun _ _ hRemoved => rel_map (same_unblock hRemoved.2) ?_
  rintro k₂ _ ⟨n', rfl⟩
  exact Same.ite Iff.rfl ⟨n', rfl⟩ ⟨n', rfl⟩

theorem same_vTaskSuspend (h : Same k k') : Option.Rel Same (vTaskSuspend cfg k t) (vTaskSuspend cfg.plain k' t) := by
  refine rel_bind (same_uxListRemove h) ?_
  rintro ⟨left, k₁⟩ ⟨left', k₂⟩ ⟨rfl, hRemoved⟩
  have hTcb : k₂.tcb = k₁.tcb := by
    obtain ⟨n, rfl⟩ := hRemoved
    rfl
  dsimp only
  rw [hTcb]
  refine rel_map (same_vListInsertEnd ((Same.ite Iff.rfl (hRemoved.taskRESET cfg _) hRemoved).removeEventItem t)) ?_
  rintro k₃ _ ⟨n, rfl⟩
  exact Same.ite Iff.rfl ⟨n, rfl⟩ ⟨n, rfl⟩

theorem same_vTaskResume (h : Same k k') : Option.Rel Same (vTaskResume cfg k t) (vTaskResume cfg.plain k' t) := by
  obtain ⟨n, rfl⟩ := h
  refine rel_ite Iff.rfl (rel_map (same_unblock ⟨n, rfl⟩) ?_) (.some ⟨n, rfl⟩)
  rintro k₁ _ ⟨n', rfl⟩
  exact Same.ite Iff.rfl ⟨n', rfl⟩ ⟨n', rfl⟩

theorem same_xTaskResumeFromISR (h : Same k k') :
    Option.Rel SameAnswer (xTaskResumeFromISR cfg k t) (xTaskResumeFromISR cfg.plain k' t) := by
  obtain ⟨n, rfl⟩ := h
  refine rel_ite Iff.rfl (rel_ite Iff.rfl ?_ ?_) (.some ⟨rfl, n, rfl⟩)
  · exact rel_map (same_unblock (Same.ite Iff.rfl ⟨n, rfl⟩ ⟨n, rfl⟩)) fun _ _ hMoved => ⟨rfl, hMoved⟩
  · exact rel_map (same_vListInsertEnd ⟨n, rfl⟩) fun _ _ hMoved => ⟨rfl, hMoved⟩

theorem same_xTaskAbortDelay (h : Same k k') :
    Option.Rel SameAnswer (xTaskAbortDelay cfg k t) (xTaskAbortDelay cfg.plain k' t) := by
  obtain ⟨n, rfl⟩ := h
  refine rel_ite Iff.rfl (rel_bind (same_uxListRemove ⟨n, rfl⟩) ?_) (.some ⟨rfl, n, rfl⟩)
  rintro ⟨left, k₁⟩ ⟨left', _⟩ ⟨rfl, n', rfl⟩
  refine rel_map (same_prvAddTaskToReadyList (Same.ite Iff.rfl ⟨n', rfl⟩ ⟨n', rfl⟩)) ?_
  rintro k₂ _ ⟨n'', rfl⟩
  by_cases hHigher : (k₂.tcb t).uxPriority > (k₂.tcb k₂.pxCurrentTCB).uxPriority
  · rw [if_pos hHigher, if_pos hHigher]
    exact ⟨rfl, n'', rfl⟩
  · rw [if_neg hHigher, if_neg hHigher]
    exact ⟨rfl, n'', rfl⟩

theorem Same.setEventValue (h : Same k k') (t p : Nat) :
    Same (setEventValue cfg k t p) (setEventValue cfg.plain k' t p) := by
  obtain ⟨n, rfl⟩ := h
  exact Same.ite Iff.rfl ⟨n, rfl⟩ ⟨n, rfl⟩

theorem Same.setTCB (h : Same k k') (t : Nat) (tcb : TCB) : Same (k.setTCB t tcb) (k'.setTCB t tcb) := by
  obtain ⟨n, rfl⟩ := h
  exact ⟨n, rfl⟩

theorem Same.call (h : Same k k') (act : Lists.Act Item TaskList) : Same (k.call act) (k'.call act) := by
  obtain ⟨n, rfl⟩ := h
  exact ⟨n, rfl⟩

theorem same_moveReady {q : Nat} (h : Same k k') : Option.Rel Same (moveReady cfg k t p q) (moveReady cfg.plain k' t p q) := by
  obtain ⟨n, rfl⟩ := h
  refine rel_ite Iff.rfl (rel_bind (same_uxListRemove ⟨n, rfl⟩) ?_) (.some ⟨n, rfl⟩)
  rintro ⟨left, k₁⟩ ⟨left', k₂⟩ ⟨rfl, hRemoved⟩
  exact same_prvAddTaskToReadyList (Same.ite Iff.rfl (hRemoved.portRESET cfg _) hRemoved)

theorem same_vTaskPrioritySet (h : Same k k') :
    Option.Rel Same (vTaskPrioritySet cfg k t p) (vTaskPrioritySet cfg.plain k' t p) := by
  obtain ⟨n, rfl⟩ := h
  refine rel_ite Iff.rfl (.some ⟨n, rfl⟩) ?_
  refine rel_map (same_moveReady (Same.setEventValue (Same.setTCB ⟨n, rfl⟩ _ _) _ _)) ?_
  rintro k₁ _ ⟨n', rfl⟩
  exact Same.ite Iff.rfl ⟨n', rfl⟩ ⟨n', rfl⟩

theorem same_xTaskPriorityInherit (h : Same k k') :
    Option.Rel SameAnswer (xTaskPriorityInherit cfg k t) (xTaskPriorityInherit cfg.plain k' t) := by
  obtain ⟨n, rfl⟩ := h
  refine rel_ite Iff.rfl ?_ (.some ⟨rfl, n, rfl⟩)
  exact rel_map (same_moveReady (Same.setTCB (Same.setEventValue ⟨n, rfl⟩ _ _) _ _)) fun _ _ hMoved => ⟨rfl, hMoved⟩

theorem same_xTaskPriorityDisinherit (h : Same k k') :
    Option.Rel SameAnswer (xTaskPriorityDisinherit cfg k) (xTaskPriorityDisinherit cfg.plain k') := by
  obtain ⟨n, rfl⟩ := h
  refine rel_ite Iff.rfl .none (rel_ite Iff.rfl ?_ (.some ⟨rfl, n, rfl⟩))
  refine rel_bind (same_uxListRemove ⟨n, rfl⟩) ?_
  rintro ⟨left, k₁⟩ ⟨left', k₂⟩ ⟨rfl, hRemoved⟩
  have hLeft := Same.ite (Iff.refl (left = 0)) (hRemoved.portRESET cfg (k.tcb k.pxCurrentTCB).uxPriority) hRemoved
  refine rel_map (same_prvAddTaskToReadyList ((hLeft.setTCB _ _).call _)) fun _ _ hMoved => ⟨rfl, hMoved⟩

theorem same_vTaskPriorityDisinheritAfterTimeout (h : Same k k') :
    Option.Rel Same (vTaskPriorityDisinheritAfterTimeout cfg k t p)
      (vTaskPriorityDisinheritAfterTimeout cfg.plain k' t p) := by
  obtain ⟨n, rfl⟩ := h
  refine rel_ite Iff.rfl .none (rel_ite Iff.rfl (rel_ite Iff.rfl .none ?_) (.some ⟨n, rfl⟩))
  exact same_moveReady (Same.setEventValue (Same.setTCB ⟨n, rfl⟩ _ _) _ _)

theorem same_xTaskCreate (h : Same k k') : Option.Rel Same (xTaskCreate cfg k t p) (xTaskCreate cfg.plain k' t p) := by
  obtain ⟨n, rfl⟩ := h
  refine rel_map (same_prvAddTaskToReadyList ⟨n, rfl⟩) ?_
  rintro k₁ _ ⟨n', rfl⟩
  exact Same.ite Iff.rfl ⟨n', rfl⟩ ⟨n', rfl⟩

theorem same_vTaskDelete (h : Same k k') : Option.Rel Same (vTaskDelete cfg k t) (vTaskDelete cfg.plain k' t) := by
  refine rel_bind (same_uxListRemove h) ?_
  rintro ⟨left, k₁⟩ ⟨left', k₂⟩ ⟨rfl, hRemoved⟩
  have hTcb : k₂.tcb = k₁.tcb := by
    obtain ⟨n, rfl⟩ := hRemoved
    rfl
  dsimp only
  rw [hTcb]
  have hBoth := (Same.ite (Iff.refl (left = 0)) (hRemoved.taskRESET cfg (k₁.tcb t).uxPriority) hRemoved).removeEventItem t
  generalize removeEventItem (if left = 0 then taskRESET_READY_PRIORITY cfg _ _ else _) t = k₃ at hBoth ⊢
  generalize removeEventItem (if left = 0 then taskRESET_READY_PRIORITY cfg.plain _ _ else _) t = k₄ at hBoth ⊢
  obtain ⟨n, rfl⟩ := hBoth
  refine rel_ite Iff.rfl (rel_map (same_vListInsertEnd ⟨n, rfl⟩) ?_) (.some (Same.resetNext ⟨n, rfl⟩))
  rintro k₅ _ ⟨n', rfl⟩
  exact ⟨n', rfl⟩

theorem same_prvCheckTasksWaitingTermination (h : Same k k') :
    Option.Rel Same (prvCheckTasksWaitingTermination k) (prvCheckTasksWaitingTermination k') := by
  obtain ⟨n, rfl⟩ := h
  unfold prvCheckTasksWaitingTermination
  dsimp only [Kernel.listGET_HEAD_ENTRY]
  cases (k.lists.round .xTasksWaitingTermination).order.head? with
  | none => exact .none
  | some i =>
      rw [Option.bind_some, Option.bind_some]
      refine rel_map (same_uxListRemove ⟨n, rfl⟩) ?_
      rintro ⟨left, k₁⟩ ⟨left', _⟩ ⟨rfl, n', rfl⟩
      exact ⟨n', rfl⟩

theorem Same.yieldIf (h : Same k k') (b : Bool) : Same (yieldIf b k) (yieldIf b k') := by
  obtain ⟨n, rfl⟩ := h
  exact Same.ite Iff.rfl ⟨n, rfl⟩ ⟨n, rfl⟩

theorem same_giveMutex (h : Same k k') : Option.Rel Same (giveMutex cfg k e) (giveMutex cfg.plain k' e) := by
  refine rel_bind (same_xTaskPriorityDisinherit h) ?_
  rintro ⟨b, k₁⟩ ⟨b', _⟩ ⟨rfl, n, rfl⟩
  refine rel_ite Iff.rfl (rel_map (same_xTaskRemoveFromEventList ⟨n, rfl⟩) ?_) (.some (Same.yieldIf ⟨n, rfl⟩ b))
  rintro ⟨c, k₂⟩ ⟨c', k₃⟩ ⟨rfl, hWoken⟩
  exact hWoken.yieldIf c

/-- Searching either way finds the same task, when the record of either kind is right. -/
theorem same_vTaskSwitchContext (h : Same k k') (hGood : Good cfg k) (hPlain : Good cfg.plain k') :
    Option.Rel Same (vTaskSwitchContext cfg k) (vTaskSwitchContext cfg.plain k') := by
  obtain ⟨n, rfl⟩ := h
  refine rel_ite Iff.rfl (.some ⟨n, rfl⟩) ?_
  obtain ⟨p, t, top, hCall, _, hHighest, _, _, hTurn⟩ :=
    taskSELECT_HIGHEST_PRIORITY_TASK_spec (hGood.setYieldPending false)
  obtain ⟨p', t', top', hCall', _, hHighest', _, _, hTurn'⟩ :=
    taskSELECT_HIGHEST_PRIORITY_TASK_spec (hPlain.setYieldPending false)
  obtain rfl : p = p' := Nat.le_antisymm (hHighest'.2 p hHighest.1) (hHighest.2 p' hHighest'.1)
  obtain rfl : t = t' := Item.xStateListItem.inj (Option.some.inj (hTurn.symm.trans hTurn'))
  rw [hCall, hCall']
  exact .some ⟨top', rfl⟩

theorem same_perform (h : Same k k') (hGood : Good cfg k) (hPlain : Good cfg.plain k') :
    Option.Rel Same (perform cfg k act) (perform cfg.plain k' act) := by
  cases act with
  | xTaskIncrementTick =>
      refine rel_map (same_xTaskIncrementTick h) ?_
      rintro ⟨b, k₁⟩ ⟨b', k₂⟩ ⟨rfl, hTicked⟩
      exact hTicked.yieldIf b
  | portYIELD | vTaskSuspendAll | xTaskCatchUpTicks | pvTaskIncrementMutexHeldCount =>
      obtain ⟨n, rfl⟩ := h
      exact .some ⟨n, rfl⟩
  | vTaskSwitchContext =>
      refine same_vTaskSwitchContext ?_ (hGood.setPortYIELD false) (hPlain.setPortYIELD false)
      obtain ⟨n, rfl⟩ := h
      exact ⟨n, rfl⟩
  | xTaskResumeAll =>
      refine rel_map (same_xTaskResumeAll h) ?_
      rintro ⟨b, k₁⟩ ⟨b', _⟩ ⟨rfl, n, rfl⟩
      exact Same.yieldIf ⟨n, rfl⟩ _
  | vTaskDelay n => exact same_prvAddCurrentTaskToDelayedList h
  | vTaskPlaceOnEventList e n => exact same_vTaskPlaceOnEventList h
  | vTaskPlaceOnUnorderedEventList e v n => exact same_vTaskPlaceOnUnorderedEventList h
  | xTaskRemoveFromEventList e => exact rel_map (same_xTaskRemoveFromEventList h) fun _ _ hBoth => hBoth.2
  | vTaskRemoveFromUnorderedEventList t v => exact same_vTaskRemoveFromUnorderedEventList h
  | vTaskSuspend t => exact same_vTaskSuspend h
  | vTaskResume t => exact same_vTaskResume h
  | xTaskResumeFromISR t => exact rel_map (same_xTaskResumeFromISR h) fun _ _ hBoth => hBoth.2
  | xTaskAbortDelay t => exact rel_map (same_xTaskAbortDelay h) fun _ _ hBoth => hBoth.2
  | vTaskPrioritySet t p => exact same_vTaskPrioritySet h
  | xTaskPriorityInherit t => exact rel_map (same_xTaskPriorityInherit h) fun _ _ hBoth => hBoth.2
  | giveMutex e => exact same_giveMutex h
  | vTaskPriorityDisinheritAfterTimeout t p => exact same_vTaskPriorityDisinheritAfterTimeout h
  | xTaskCreate t p => exact same_xTaskCreate h
  | vTaskDelete t => exact same_vTaskDelete h
  | prvCheckTasksWaitingTermination => exact same_prvCheckTasksWaitingTermination h

/-- The rules of the kernel do not look at the record. -/
theorem Same.enabled (h : Same k k') : enabled cfg k act = enabled cfg.plain k' act := by
  obtain ⟨n, rfl⟩ := h
  cases act <;> rfl

theorem same_createTasks {isFirst : Bool} {tasks : List (Nat × Nat)} (h : Same k k') :
    Option.Rel Same (createTasks cfg isFirst tasks k) (createTasks cfg.plain isFirst tasks k') := by
  induction tasks generalizing isFirst k k' with
  | nil => exact .some h
  | cons task tasks ih =>
      refine rel_bind ?_ fun _ _ hAdded => ih hAdded
      obtain ⟨n, rfl⟩ := h
      exact same_prvAddTaskToReadyList (Same.ite Iff.rfl ⟨n, rfl⟩ ⟨n, rfl⟩)

/-- Both kernels keep their own conditions, and one step keeps them the same. -/
theorem same_next (hBoth : Same k k' ∧ Good cfg k ∧ Good cfg.plain k') (hKeeps : keepsBits cfg k act = true) :
    Option.Rel (fun k k' => Same k k' ∧ Good cfg k ∧ Good cfg.plain k') ((system cfg).next k act)
      ((system cfg.plain).next k' act) := by
  obtain ⟨h, hGood, hPlain⟩ := hBoth
  have hStep : Option.Rel Same ((system cfg).next k act) ((system cfg.plain).next k' act) :=
    rel_ite (by rw [h.enabled]) (same_perform h hGood hPlain) .none
  have hBits : leavesBit cfg.plain k' act = false := by
    cases act with
    | vTaskPriorityDisinheritAfterTimeout t p => simp [leavesBit, stale, Config.plain]
    | _ => rfl
  cases hNext : (system cfg).next k act with
  | none =>
      rw [hNext] at hStep
      cases hOther : (system cfg.plain).next k' act with
      | none => exact .none
      | some k₂ =>
          rw [hOther] at hStep
          cases hStep
  | some k₁ =>
      rw [hNext] at hStep
      cases hOther : (system cfg.plain).next k' act with
      | none =>
          rw [hOther] at hStep
          cases hStep
      | some k₂ =>
          rw [hOther] at hStep
          exact .some ⟨Option.rel_some_some.mp hStep,
            (step_spec hGood hNext ((Bool.not_eq_true' _).mp hKeeps)).2.good hGood,
            (step_spec hPlain hOther hBits).2.good hPlain⟩

/-- A kernel that finds the highest priority in a bitmap and one that searches the
lists start alike, and by the same calls the same task runs at every moment of
every run, unless a bit was left for an empty list. -/
theorem agree_of_run {tasks : List (Nat × Nat)} (hTick : n ≤ cfg.portMAX_DELAY) (hIdle : (cfg.xIdleTaskHandle, 0) ∈ tasks)
    (hBoot : vTaskStartScheduler cfg n tasks = some k₀) (run : (system cfg).Run k₀ trace k)
    (hGuard : Guarded (keepsBits cfg) trace) :
    ∃ k₀' other k', vTaskStartScheduler cfg.plain n tasks = some k₀' ∧ (system cfg.plain).Run k₀' other k' ∧
      other.map Prod.snd = trace.map Prod.snd ∧ Same k k' := by
  have hStarts : Option.Rel Same (vTaskStartScheduler cfg n tasks) (vTaskStartScheduler cfg.plain n tasks) := by
    refine rel_map (same_createTasks ⟨0, rfl⟩) ?_
    rintro k₁ _ ⟨n', rfl⟩
    exact ⟨n', rfl⟩
  rw [hBoot] at hStarts
  cases hOther : vTaskStartScheduler cfg.plain n tasks with
  | none =>
      rw [hOther] at hStarts
      cases hStarts
  | some k₀' =>
      rw [hOther] at hStarts
      have hFirst := Option.rel_some_some.mp hStarts
      have hGood := (start_spec ⟨n, hTick, tasks, hIdle, hBoot⟩).1
      have hPlainStart : (system cfg.plain).start k₀' := ⟨n, hTick, tasks, hIdle, hOther⟩
      have hPlain := (start_spec hPlainStart).1
      obtain ⟨other, k', hRun, hActs, hSame, _⟩ := run.lockstep hGuard ⟨hFirst, hGood, hPlain⟩
        fun _ _ _ hBoth hKeeps => same_next hBoth hKeeps
      exact ⟨k₀', other, k', rfl, hRun, hActs, hSame⟩

theorem agree_of_run_board :
    ∃ k₀ k, vTaskStartScheduler board 0xfffffffe [(1, 1), (2, 2), (0, 0)] = some k₀ ∧
      (system board).exec k₀ timeoutCalls = some k ∧
      ∃ k₀' other k', vTaskStartScheduler board.plain 0xfffffffe [(1, 1), (2, 2), (0, 0)] = some k₀' ∧
        (system board.plain).Run k₀' other k' ∧
        other.map Prod.snd = ((system board).replay k₀ timeoutCalls).map Prod.snd ∧ Same k k' := by
  obtain ⟨k₀, k, hBoot, hExec, hGuard⟩ := exec_any board 0xfffffffe [(1, 1), (2, 2), (0, 0)] timeoutCalls
    (fun k₀ _ => Guarded (keepsBits board) ((system board).replay k₀ timeoutCalls)) (by decide)
  exact ⟨k₀, k, hBoot, hExec, agree_of_run (by decide) (by decide) hBoot
    (System.run_of_exec timeoutCalls hExec) (of_decide_eq_true hGuard)⟩

end FreeRtos.Tasks
