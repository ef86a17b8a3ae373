import FreeRtosCpp11.Tasks.Priority

/-! The context switch: either search finds the highest priority that has a ready
task, and the task whose turn it is at this priority runs. -/
namespace FreeRtos.Tasks

open Links

variable {cfg : Config} {k k' k₁ : Kernel} {l : TaskList} {t u p q n e top : Nat} {v w : View} {vars : Vars}

/-- Some task is ready at the priority. -/
def someReady (k : Kernel) (p : Nat) : Prop := ∃ t, (k.view t).state = some (.pxReadyTasksLists p)

theorem Core.length_ready (h : Core cfg k) :
    k.listCURRENT_LIST_LENGTH (.pxReadyTasksLists p) ≠ 0 ↔ someReady k p := by
  have hEvents : ∀ t, (k.view t).event ≠ some (.pxReadyTasksLists p) := fun t => (h.placed t).event_ne nofun nofun
  rw [ne_eq, length_eq_zero_iff h.sorted.sound hEvents, someReady]
  simp only [ne_eq, not_forall, not_not]

/-- The priority is the highest of the ready tasks. -/
def Highest (k : Kernel) (p : Nat) : Prop := someReady k p ∧ ∀ q, someReady k q → q ≤ p

/-- The loop down finds the highest priority at which a task is ready, by
induction on the priority it starts from. -/
theorem highestFrom_spec (h : Core cfg k) (hSome : ∃ q ≤ n, someReady k q) :
    ∃ p, highestFrom k n = some p ∧ someReady k p ∧ ∀ q ≤ n, someReady k q → q ≤ p := by
  induction n with
  | zero =>
      obtain ⟨q, hq, hReady⟩ := hSome
      obtain rfl := Nat.le_zero.mp hq
      exact ⟨0, if_neg (h.length_ready.mpr hReady), hReady, fun q hq _ => hq⟩
  | succ n ih =>
      rw [highestFrom]
      by_cases hHere : someReady k (n + 1)
      · rw [if_neg (h.length_ready.mpr hHere)]
        exact ⟨n + 1, rfl, hHere, fun q hq _ => hq⟩
      · rw [if_pos (not_not.mp (mt h.length_ready.mp hHere))]
        have hBelow : ∀ q ≤ n + 1, someReady k q → q ≤ n := by
          intro q hq hReady
          rcases Nat.lt_or_eq_of_le hq with hLess | rfl
          · exact Nat.le_of_lt_succ hLess
          · exact absurd hReady hHere
        obtain ⟨q, hq, hReady⟩ := hSome
        obtain ⟨p, hFrom, hThere, hMost⟩ := ih ⟨q, hBelow q hq hReady, hReady⟩
        exact ⟨p, hFrom, hThere, fun q hq hReady => hMost q (hBelow q hq hReady) hReady⟩

/-- The bit found by counting zeros from above is the highest one. -/
theorem portGET_HIGHEST_PRIORITY_spec (hTop : top < 2 ^ 32) (hSome : top.testBit q = true) :
    ∃ p, portGET_HIGHEST_PRIORITY top = some p ∧ top.testBit p = true ∧ ∀ q, top.testBit q = true → q ≤ p := by
  have hNot : top ≠ 0 := by
    rintro rfl
    simp at hSome
  have hLog : top.log2 < 32 := (Nat.log2_lt hNot).mpr hTop
  refine ⟨top.log2, ?_, Nat.testBit_log2 hNot, fun q hq => ?_⟩
  · rw [portGET_HIGHEST_PRIORITY, if_neg hNot, builtin_clz]
    congr 1
    omega
  · exact (Nat.le_log2 hNot).mpr (Nat.ge_two_pow_of_testBit hq)

/-- What the call does when the scheduler runs. -/
structure Switched (cfg : Config) (k k' : Kernel) : Prop extends Good cfg k' where
  view : k'.view = k.view
  vars : k'.toVars = { k.toVars with xYieldPending := false, pxCurrentTCB := k'.pxCurrentTCB }
  runs : (k'.view k'.pxCurrentTCB).ready
  highest : Highest k (k.tcb k'.pxCurrentTCB).uxPriority
  turn : (k.lists.round (.pxReadyTasksLists (k.tcb k'.pxCurrentTCB).uxPriority)).waiting.head? =
    some (.xStateListItem k'.pxCurrentTCB)

/-- The next entry of a ready list that is not empty. -/
theorem nextEntry_spec (h : Good cfg k) (hHighest : Highest k p) :
    ∃ t, k.listGET_OWNER_OF_NEXT_ENTRY (.pxReadyTasksLists p) =
        some { k.call (.nextEntry (.pxReadyTasksLists p)) with pxCurrentTCB := t } ∧
      (k.view t).ready ∧ (k.tcb t).uxPriority = p ∧
      (k.lists.round (.pxReadyTasksLists p)).waiting.head? = some (.xStateListItem t) := by
  obtain ⟨u, hThere⟩ := hHighest.1
  have hMem := (h.sorted.sound.member _ (.xStateListItem u)).mpr hThere
  rw [Round.mem_order] at hMem
  cases hHead : (k.lists.round (.pxReadyTasksLists p)).waiting with
  | nil =>
      rw [hHead] at hMem
      cases hMem
  | cons i w =>
      have hFirst : i ∈ (k.lists.round (.pxReadyTasksLists p)).order := by
        rw [Round.mem_order, hHead]
        exact List.mem_cons_self
      have hHome := (h.sorted.sound.member _ i).mp hFirst
      cases i with
      | xEventListItem t => exact absurd hHome ((h.placed t).event_ne nofun nofun)
      | xStateListItem t =>
          have hState : (k.view t).state = some (.pxReadyTasksLists p) := hHome
          have hReady : (k.view t).ready := by
            by_contra hNot
            exact h.unready hNot p hState
          refine ⟨t, ?_, hReady, ?_, rfl⟩
          · rw [Kernel.listGET_OWNER_OF_NEXT_ENTRY, hHead]
            rfl
          · exact TaskList.pxReadyTasksLists.inj (Option.some.inj (hReady.symm.trans hState))

/-- The current task, and a record of ready priorities that is right, change. -/
theorem Good.choose (h : Good cfg k) (l : TaskList) (t : Nat) (hSelects : Selects cfg top k.view) :
    Good cfg { k.call (.nextEntry l) with pxCurrentTCB := t, uxTopReadyPriority := top } := by
  have hNext : Changed k (k.call (.nextEntry l)) t (k.view t) k.uxTopReadyPriority :=
    ⟨rfl, (Function.update_eq_self t k.view).symm, h.sorted.nextEntry, rfl⟩
  have hGood := h.unchanged hNext
  exact ⟨⟨hGood.toCore.congr rfl rfl rfl rfl rfl rfl, hSelects, hGood.due, hGood.next⟩, hGood.pending⟩

theorem taskSELECT_HIGHEST_PRIORITY_TASK_spec (h : Good cfg k) :
    ∃ p t top, taskSELECT_HIGHEST_PRIORITY_TASK cfg k =
        some { k.call (.nextEntry (.pxReadyTasksLists p)) with pxCurrentTCB := t, uxTopReadyPriority := top } ∧
      Selects cfg top k.view ∧ Highest k p ∧ (k.view t).ready ∧ (k.tcb t).uxPriority = p ∧
      (k.lists.round (.pxReadyTasksLists p)).waiting.head? = some (.xStateListItem t) := by
  have hIdle : someReady k (k.tcb cfg.xIdleTaskHandle).uxPriority := ⟨_, h.idle⟩
  have hSelects := h.selects
  unfold taskSELECT_HIGHEST_PRIORITY_TASK
  split
  case isTrue hOptimised =>
    rw [Selects, if_pos hOptimised] at hSelects
    obtain ⟨p, hFound, hBit, hMost⟩ := portGET_HIGHEST_PRIORITY_spec hSelects.1 ((hSelects.2 _).mpr hIdle)
    have hHighest : Highest k p := ⟨(hSelects.2 p).mp hBit, fun q hq => hMost q ((hSelects.2 q).mpr hq)⟩
    obtain ⟨t, hNext, hReady, hPriority, hTurn⟩ := nextEntry_spec h hHighest
    exact ⟨p, t, k.uxTopReadyPriority, by rw [hFound, Option.bind_some, hNext]; rfl, h.selects, hHighest, hReady,
      hPriority, hTurn⟩
  case isFalse hPlain =>
    rw [Selects, if_neg hPlain] at hSelects
    obtain ⟨p, hFound, hThere, hMost⟩ := highestFrom_spec h.toCore ⟨_, hSelects _ _ h.idle, hIdle⟩
    have hHighest : Highest k p := by
      refine ⟨hThere, fun q hq => ?_⟩
      obtain ⟨u, hu⟩ := hq
      exact hMost q (hSelects u q hu) ⟨u, hu⟩
    obtain ⟨t, hNext, hReady, hPriority, hTurn⟩ := nextEntry_spec h hHighest
    refine ⟨p, t, p, by rw [hFound, Option.bind_some, hNext]; rfl, ?_, hHighest, hReady, hPriority, hTurn⟩
    rw [Selects, if_neg hPlain]
    exact fun u q hu => hHighest.2 q ⟨u, hu⟩

theorem vTaskSwitchContext_spec (h : Good cfg k) (hRun : k.uxSchedulerSuspended = 0) :
    ∃ k', vTaskSwitchContext cfg k = some k' ∧ Switched cfg k k' := by
  have hFlag := h.setYieldPending false
  obtain ⟨p, t, top, hSelect, hSelects, hHighest, hReady, rfl, hTurn⟩ := taskSELECT_HIGHEST_PRIORITY_TASK_spec hFlag
  rw [vTaskSwitchContext, if_neg (not_not.mpr hRun)]
  exact ⟨_, hSelect, hFlag.choose _ t hSelects, rfl, rfl, hReady, hHighest, hTurn⟩

end FreeRtos.Tasks
