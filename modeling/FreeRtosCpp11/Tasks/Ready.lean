import FreeRtosCpp11.Tasks.Invariant
import Mathlib.Algebra.GroupWithZero.Nat

/-! The ready lists and the record of the highest priority, as a number that is
never too small or as a bitmap that is exact. -/
namespace FreeRtos.Tasks

open Links

variable {cfg : Config} {k k' : Kernel} {l : TaskList} {t u p n top : Nat} {v : View} {view : Nat → View}

/-- The record of the ready priorities leads the search to the highest one. -/
def Selects (cfg : Config) (top : Nat) (view : Nat → View) : Prop :=
  if cfg.configUSE_PORT_OPTIMISED_TASK_SELECTION then
    top < 2 ^ 32 ∧ ∀ p, top.testBit p = true ↔ ∃ t, (view t).state = some (.pxReadyTasksLists p)
  else ∀ t p, (view t).state = some (.pxReadyTasksLists p) → p ≤ top

def recorded (cfg : Config) (top p : Nat) : Nat :=
  if cfg.configUSE_PORT_OPTIMISED_TASK_SELECTION then top ||| (1 <<< p) else max top p

def unrecorded (cfg : Config) (top p : Nat) : Nat :=
  if cfg.configUSE_PORT_OPTIMISED_TASK_SELECTION then top &&& (0xffffffff ^^^ (1 <<< p)) else top

theorem taskRECORD_READY_PRIORITY_eq :
    taskRECORD_READY_PRIORITY cfg k p = { k with uxTopReadyPriority := recorded cfg k.uxTopReadyPriority p } := by
  unfold taskRECORD_READY_PRIORITY recorded
  split
  case isTrue => rfl
  case isFalse =>
    split
    case isTrue hMore => rw [Nat.max_eq_right (Nat.le_of_lt hMore)]
    case isFalse hLess => rw [Nat.max_eq_left (Nat.le_of_not_lt hLess)]

theorem portRESET_READY_PRIORITY_eq :
    portRESET_READY_PRIORITY cfg k p = { k with uxTopReadyPriority := unrecorded cfg k.uxTopReadyPriority p } := by
  unfold portRESET_READY_PRIORITY unrecorded
  split <;> rfl

/-- Without a bitmap there is nothing to reset. -/
theorem taskRESET_READY_PRIORITY_eq : taskRESET_READY_PRIORITY cfg k p =
    if k.listCURRENT_LIST_LENGTH (.pxReadyTasksLists p) = 0 then portRESET_READY_PRIORITY cfg k p else k := by
  unfold taskRESET_READY_PRIORITY portRESET_READY_PRIORITY
  by_cases hOpt : cfg.configUSE_PORT_OPTIMISED_TASK_SELECTION = true
  · rw [if_pos hOpt]
  · rw [if_neg hOpt, if_neg hOpt, ite_self]

theorem testBit_record (q : Nat) : (top ||| (1 <<< p)).testBit q = (top.testBit q || decide (p = q)) := by
  rw [Nat.testBit_or, Nat.one_shiftLeft, Nat.testBit_two_pow]

theorem testBit_unrecord {q : Nat} (hTop : top < 2 ^ 32) :
    (top &&& (0xffffffff ^^^ (1 <<< p))).testBit q = (top.testBit q && !decide (p = q)) := by
  rw [Nat.testBit_and, Nat.testBit_xor, Nat.one_shiftLeft, Nat.testBit_two_pow,
    show (0xffffffff : Nat) = 2 ^ 32 - 1 from rfl, Nat.testBit_two_pow_sub_one]
  by_cases hBit : q < 32
  · simp [hBit]
  · rw [Nat.testBit_lt_two_pow (Nat.lt_of_lt_of_le hTop (Nat.pow_le_pow_right (by decide) (Nat.le_of_not_lt hBit)))]
    rfl

/-- A task enters the ready list of its priority. -/
theorem Selects.record (h : Selects cfg top view) (hPriority : p < cfg.configMAX_PRIORITIES)
    (hOut : ∀ q, (view t).state ≠ some (.pxReadyTasksLists q)) (hState : v.state = some (.pxReadyTasksLists p)) :
    Selects cfg (recorded cfg top p) (Function.update view t v) := by
  unfold Selects recorded at *
  split
  case isTrue hOpt =>
    rw [if_pos hOpt] at h
    obtain ⟨hTop, hBits⟩ := h
    have hBound : p < 32 := Nat.lt_of_lt_of_le hPriority (cfg.optimised hOpt)
    refine ⟨Nat.or_lt_two_pow hTop ?_, fun q => ?_⟩
    · rw [Nat.one_shiftLeft]
      exact Nat.pow_lt_pow_right (by decide) hBound
    · rw [testBit_record, Bool.or_eq_true, hBits, decide_eq_true_eq]
      constructor
      · rintro (⟨u, hu⟩ | rfl)
        · refine ⟨u, ?_⟩
          rw [Function.update_of_ne]
          · exact hu
          · rintro rfl
            exact hOut q hu
        · exact ⟨t, by rw [Function.update_self, hState]⟩
      · rintro ⟨u, hu⟩
        by_cases hTask : u = t
        · subst hTask
          rw [Function.update_self, hState] at hu
          exact Or.inr (TaskList.pxReadyTasksLists.inj (Option.some.inj hu))
        · rw [Function.update_of_ne hTask] at hu
          exact Or.inl ⟨u, hu⟩
  case isFalse hPlain =>
    rw [if_neg hPlain] at h
    intro u q hu
    by_cases hTask : u = t
    · subst hTask
      rw [Function.update_self, hState] at hu
      rw [← TaskList.pxReadyTasksLists.inj (Option.some.inj hu)]
      exact Nat.le_max_right top p
    · rw [Function.update_of_ne hTask] at hu
      exact Nat.le_trans (h u q hu) (Nat.le_max_left top p)

/-- A task leaves a ready list; its bit is reset when it was the last one. -/
theorem Selects.leave (h : Selects cfg top view) (hState : (view t).state = some (.pxReadyTasksLists p))
    (hOut : ∀ q, v.state ≠ some (.pxReadyTasksLists q))
    (hLeft : n = 0 ↔ ∀ u, (Function.update view t v u).state ≠ some (.pxReadyTasksLists p)) :
    Selects cfg (if n = 0 then unrecorded cfg top p else top) (Function.update view t v) := by
  have hOthers : ∀ u q, (Function.update view t v u).state = some (.pxReadyTasksLists q) →
      (view u).state = some (.pxReadyTasksLists q) := by
    intro u q hu
    by_cases hTask : u = t
    · subst hTask
      rw [Function.update_self] at hu
      exact absurd hu (hOut q)
    · rwa [Function.update_of_ne hTask] at hu
  unfold Selects unrecorded at *
  split
  case isTrue hOpt =>
    rw [if_pos hOpt] at h
    obtain ⟨hTop, hBits⟩ := h
    have hStay : ∀ q, q ≠ p → (view t).state ≠ some (.pxReadyTasksLists q) := by
      intro q hq hSame
      rw [hState] at hSame
      exact hq (TaskList.pxReadyTasksLists.inj (Option.some.inj hSame)).symm
    have hKeep : ∀ q, q ≠ p → (top.testBit q = true ↔
        ∃ u, (Function.update view t v u).state = some (.pxReadyTasksLists q)) := by
      intro q hq
      rw [hBits]
      constructor
      · rintro ⟨u, hu⟩
        refine ⟨u, ?_⟩
        rw [Function.update_of_ne]
        · exact hu
        · rintro rfl
          exact hStay q hq hu
      · rintro ⟨u, hu⟩
        exact ⟨u, hOthers u q hu⟩
    split
    case isTrue hZero =>
      refine ⟨Nat.lt_of_le_of_lt Nat.and_le_left hTop, fun q => ?_⟩
      rw [testBit_unrecord hTop]
      by_cases hq : q = p
      · subst hq
        refine iff_of_false (by simp) ?_
        rintro ⟨u, hu⟩
        exact hLeft.mp hZero u hu
      · rw [← hKeep q hq]
        simp [Ne.symm hq]
    case isFalse hMore =>
      refine ⟨hTop, fun q => ?_⟩
      by_cases hq : q = p
      · subst hq
        refine iff_of_true ((hBits q).mpr ⟨t, hState⟩) ?_
        by_contra hNone
        exact hMore (hLeft.mpr fun u hu => hNone ⟨u, hu⟩)
      · exact hKeep q hq
  case isFalse hPlain =>
    rw [if_neg hPlain] at h
    intro u q hu
    rw [ite_self]
    exact h u q (hOthers u q hu)

/-- A task that is not ready and does not become ready. -/
theorem Selects.other (h : Selects cfg top view) (hOld : ∀ q, (view t).state ≠ some (.pxReadyTasksLists q))
    (hNew : ∀ q, v.state ≠ some (.pxReadyTasksLists q)) : Selects cfg top (Function.update view t v) := by
  have hSame : ∀ u q, (Function.update view t v u).state = some (.pxReadyTasksLists q) ↔
      (view u).state = some (.pxReadyTasksLists q) := by
    intro u q
    by_cases hTask : u = t
    · subst hTask
      rw [Function.update_self]
      exact iff_of_false (hNew q) (hOld q)
    · rw [Function.update_of_ne hTask]
  unfold Selects at *
  split
  case isTrue hOpt =>
    rw [if_pos hOpt] at h
    refine ⟨h.1, fun q => (h.2 q).trans (exists_congr fun u => (hSame u q).symm)⟩
  case isFalse hPlain =>
    rw [if_neg hPlain] at h
    exact fun u q hu => h u q ((hSame u q).mp hu)

/-- Only the states of the tasks matter. -/
theorem Selects.state (h : Selects cfg top view) (hSame : v.state = (view t).state) :
    Selects cfg top (Function.update view t v) := by
  have hStates : ∀ u, (Function.update view t v u).state = (view u).state :=
    (Function.forall_update_iff view fun u w => w.state = (view u).state).mpr ⟨hSame, fun _ _ => rfl⟩
  unfold Selects at *
  simp only [hStates]
  exact h

/-- The bit of an empty ready list may be reset again. -/
theorem Selects.reset (h : Selects cfg top view) (hNone : ∀ u, (view u).state ≠ some (.pxReadyTasksLists p)) :
    Selects cfg (unrecorded cfg top p) view := by
  unfold Selects unrecorded at *
  split
  case isTrue hOpt =>
    rw [if_pos hOpt] at h
    obtain ⟨hTop, hBits⟩ := h
    refine ⟨Nat.lt_of_le_of_lt Nat.and_le_left hTop, fun q => ?_⟩
    rw [testBit_unrecord hTop, ← hBits]
    by_cases hq : p = q
    · subst hq
      have hClear : top.testBit p ≠ true := by
        rw [ne_eq, hBits]
        rintro ⟨u, hu⟩
        exact hNone u hu
      simp [hClear]
    · simp [hq]
  case isFalse hPlain =>
    rw [if_neg hPlain] at h
    exact h

/-- Between two passes of a loop: no delayed task is due, and the next time to
wake is not too late. -/
structure Steady (cfg : Config) (k : Kernel) : Prop extends Core cfg k where
  selects : Selects cfg k.uxTopReadyPriority k.view
  due : ∀ t, Due cfg k.toVars (k.xTickCount + 1) (k.view t)
  next : ∀ t, (k.view t).state = some k.pxDelayedTaskList → k.xNextTaskUnblockTime ≤ (k.view t).time

/-- Between two calls: tasks that became ready wait only while the scheduler is
suspended. -/
structure Good (cfg : Config) (k : Kernel) : Prop extends Steady cfg k where
  pending : ∀ t, (k.view t).event = some .xPendingReadyList → k.uxSchedulerSuspended ≠ 0

/-- Whether a ready list is empty, by the states of the tasks. -/
theorem length_eq_zero_iff (hSound : k.lists.Sound) (hEvents : ∀ t, (k.view t).event ≠ some l) :
    k.listCURRENT_LIST_LENGTH l = 0 ↔ ∀ t, (k.view t).state ≠ some l := by
  rw [Kernel.listCURRENT_LIST_LENGTH, List.length_eq_zero_iff, hSound.eq_nil_iff]
  constructor
  · exact fun hAll t => hAll (.xStateListItem t)
  · intro hAll i
    cases i with
    | xStateListItem t => exact hAll t
    | xEventListItem t => exact hEvents t

end FreeRtos.Tasks
