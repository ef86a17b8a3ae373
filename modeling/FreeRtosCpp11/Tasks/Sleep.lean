import FreeRtosCpp11.Tasks.Runs
import Mathlib.Algebra.GroupWithZero.Nat

/-! Time. Every tick is counted or pended, and a task that blocks for some ticks is
ready exactly when they have passed, across the wrap of the count and across any
suspension of the scheduler. -/
namespace FreeRtos.Tasks

open Links

variable {cfg : Config} {k k' k₀ k₁ : Kernel} {t u p n wake : Nat} {v : View} {act : Act} {tcb : TCB}
  {trace after : Transition.Trace Kernel Act} {ev : Option TaskList} {can : Bool}

@[simp] theorem now_yieldIf (b : Bool) : (yieldIf b k).now cfg = k.now cfg := by
  unfold yieldIf
  split <;> rfl

@[simp] theorem pended_yieldIf (b : Bool) : (yieldIf b k).xPendedTicks = k.xPendedTicks := by
  unfold yieldIf
  split <;> rfl

@[simp] theorem view_yieldIf (b : Bool) : (yieldIf b k).view = k.view := by
  unfold yieldIf
  split <;> rfl

@[simp] theorem wakeAt_yieldIf (b : Bool) : (yieldIf b k).wakeAt cfg t = k.wakeAt cfg t := by
  unfold yieldIf
  split <;> rfl

theorem Outcome.now (h : Outcome cfg k k' t v) : k'.now cfg = k.now cfg := by
  obtain ⟨n, d, x, y, hVars⟩ := h.vars
  rw [Kernel.now, hVars]
  rfl

theorem Outcome.pended (h : Outcome cfg k k' t v) : k'.xPendedTicks = k.xPendedTicks := by
  obtain ⟨n, d, x, y, hVars⟩ := h.vars
  rw [hVars]

/-- When another task wakes does not change. -/
theorem Outcome.wakeAt (h : Outcome cfg k k' t v) (u : Nat) :
    k'.wakeAt cfg u = k.toVars.wakeAt cfg (Function.update k.view t v u) := by
  obtain ⟨n, d, x, y, hVars⟩ := h.vars
  rw [Kernel.wakeAt, h.view, hVars]
  rfl

theorem Blocked.now (h : Blocked cfg k k' ev n can) : k'.now cfg = k.now cfg := by
  obtain ⟨m, hVars⟩ := h.vars
  rw [Kernel.now, hVars]
  rfl

theorem Given.now {e : Nat} (h : Given cfg k k' e) : k'.now cfg = k.now cfg ∧ k'.xPendedTicks = k.xPendedTicks := by
  cases h with
  | alone b k₁ tcb first vars same last =>
      rw [last, now_yieldIf, pended_yieldIf]
      exact ⟨first.now, first.pended⟩
  | waiter b c k₁ tcb t w first vars same asks waits woken last =>
      exact ⟨last.now.trans first.now, last.pended.trans first.pended⟩

/-- The ticks that are pended, and those added to them, are a `TickType_t`. -/
def fits (cfg : Config) (k : Kernel) : Act → Bool
  | .xTaskIncrementTick => k.uxSchedulerSuspended = 0 ∨ k.xPendedTicks < cfg.portMAX_DELAY
  | .xTaskCatchUpTicks n => k.xPendedTicks + n ≤ cfg.portMAX_DELAY
  | _ => true

/-- No tick is lost or counted twice. -/
theorem Effect.ticks (hEffect : Effect cfg k act k') (hFits : fits cfg k act = true) :
    k'.now cfg + k'.xPendedTicks = k.now cfg + k.xPendedTicks + arrived act := by
  cases hEffect with
  | ticked sw hRun hTicked =>
      rw [now_yieldIf, pended_yieldIf, hTicked.now, hTicked.others.pended, arrived]
      omega
  | pended hRun =>
      have hLess := (of_decide_eq_true hFits).resolve_left hRun
      have hSum : cfg.ticks k.xPendedTicks 1 = k.xPendedTicks + 1 := Nat.mod_eq_of_lt (by omega)
      show k.now cfg + cfg.ticks k.xPendedTicks 1 = _
      rw [hSum, arrived]
      omega
  | caughtUp n =>
      have hLess : k.xPendedTicks + n ≤ cfg.portMAX_DELAY := of_decide_eq_true hFits
      have hSum : cfg.ticks k.xPendedTicks n = k.xPendedTicks + n := Nat.mod_eq_of_lt (by omega)
      show k.now cfg + cfg.ticks k.xPendedTicks n = _
      rw [hSum, arrived]
      omega
  | asked => rfl
  | switched hRun hSwitched =>
      rw [Kernel.now, hSwitched.vars]
      rfl
  | latched hRun => rfl
  | suspended => rfl
  | resumed hLast hResumed =>
      rw [now_yieldIf, pended_yieldIf, hResumed.now, hResumed.pended]
      rfl
  | nested hMore =>
      rw [now_yieldIf, pended_yieldIf]
      rfl
  | blocked hMay hBlocks hBlocked =>
      have hZero : arrived act = 0 := by cases act <;> first | rfl | cases hBlocks
      obtain ⟨m, hVars⟩ := hBlocked.vars
      rw [hBlocked.now, hVars, hZero]
      rfl
  | nothing hTicks => rw [hTicks, Nat.add_zero]
  | woken hTicks hTouched hOutcome => rw [hOutcome.now, hOutcome.pended, hTicks, Nat.add_zero]
  | cleaned hGone hOutcome =>
      rw [hOutcome.now, hOutcome.pended]
      rfl
  | changed tcb hTicks hOutcome => rw [hOutcome.now, hOutcome.pended, hTicks, Nat.add_zero]
  | lowered tcb hOther hOutcome =>
      rw [hOutcome.now, hOutcome.pended]
      rfl
  | given hGiven =>
      rw [hGiven.now.1, hGiven.now.2]
      rfl

/-- The task sleeps until the given time, and was not woken before. -/
structure Asleep (cfg : Config) (k : Kernel) (t wake : Nat) : Prop where
  wake : k.wakeAt cfg t = some wake
  event : (k.view t).event ≠ some .xPendingReadyList

theorem Vars.wakeAt_plain {l : TaskList} {a : Lists.Abs Item TaskList} {vars : Vars} (hSorted : Sorted a vars)
    (hState : v.state = some l) (hPlain : Plain l) : vars.wakeAt cfg v = none := by
  obtain ⟨hDelayed, hOverflow⟩ := hSorted.plain hPlain
  rw [Vars.wakeAt, if_neg, if_neg]
  · exact fun hSame => hOverflow (Option.some.inj (hState.symm.trans hSame))
  · exact fun hSame => hDelayed (Option.some.inj (hState.symm.trans hSame))

/-- A change of priority leaves a sleeping task where it is. -/
theorem Vars.wakeAt_withTCB {a : Lists.Abs Item TaskList} {vars : Vars} (hSorted : Sorted a vars) :
    vars.wakeAt cfg (v.withTCB tcb) = vars.wakeAt cfg v := by
  by_cases hReady : v.ready
  · rw [Vars.wakeAt_plain hSorted hReady plain_ready]
    refine Vars.wakeAt_plain hSorted ?_ (plain_ready (p := tcb.uxPriority))
    rw [View.withTCB, if_pos hReady]
  · unfold View.withTCB
    rw [if_neg hReady]
    rfl

theorem Asleep.ne_of_plain {l : TaskList} (hAsleep : Asleep cfg k t wake) (h : Good cfg k)
    (hState : (k.view u).state = some l) (hPlain : Plain l) : t ≠ u := by
  rintro rfl
  cases hAsleep.wake.symm.trans (Vars.wakeAt_plain h.sorted hState hPlain)

/-- Another task has changed. -/
theorem Asleep.other (hAsleep : Asleep cfg k t wake) (hOutcome : Outcome cfg k k' u v) (hOther : t ≠ u) :
    Asleep cfg k' t wake := by
  constructor
  · rw [hOutcome.wakeAt, Function.update_of_ne hOther]
    exact hAsleep.wake
  · rw [hOutcome.view, Function.update_of_ne hOther]
    exact hAsleep.event

/-- The priority of some task has changed, of the sleeping one perhaps. -/
theorem Asleep.withTCB (hAsleep : Asleep cfg k t wake) (h : Good cfg k)
    (hOutcome : Outcome cfg k k' u ((k.view u).withTCB tcb)) : Asleep cfg k' t wake := by
  by_cases hTask : t = u
  · subst hTask
    constructor
    · rw [hOutcome.wakeAt, Function.update_self, Vars.wakeAt_withTCB h.sorted]
      exact hAsleep.wake
    · rw [hOutcome.view, Function.update_self]
      exact hAsleep.event
  · exact hAsleep.other hOutcome hTask

theorem Asleep.yieldIf (hAsleep : Asleep cfg k t wake) (b : Bool) : Asleep cfg (yieldIf b k) t wake := by
  constructor
  · rw [wakeAt_yieldIf]
    exact hAsleep.wake
  · rw [view_yieldIf]
    exact hAsleep.event

/-- What the step of a kernel makes of a task that sleeps. -/
def Wakes (cfg : Config) (k' : Kernel) (t wake : Nat) : Prop :=
  if wake ≤ k'.now cfg then (k'.view t).ready else Asleep cfg k' t wake

theorem Wakes.later (h : Good cfg k) (hAsleep : Asleep cfg k t wake) (hNow : k'.now cfg = k.now cfg)
    (hThere : Asleep cfg k' t wake) : Wakes cfg k' t wake := by
  have hBounds := h.wakeAt_bounds hAsleep.wake
  rw [Wakes, if_neg (by omega)]
  exact hThere

/-- The task wakes with the tick that reaches its time, or with the ticks that are
made up for. -/
theorem wakes_at {b : Bool} (hAsleep : Asleep cfg k t wake) (hReached : b = true ↔ wake ≤ k'.now cfg)
    (hView : k'.view t = if b then (k.view t).woken else k.view t)
    (hWake : k'.wakeAt cfg t = if b then none else k.wakeAt cfg t) : Wakes cfg k' t wake := by
  unfold Wakes
  by_cases hNow : wake ≤ k'.now cfg
  · rw [if_pos (hReached.mpr hNow)] at hView
    rw [if_pos hNow, hView]
    rfl
  · rw [if_neg fun hBoth => hNow (hReached.mp hBoth)] at hView hWake
    rw [if_neg hNow]
    exact ⟨hWake.trans hAsleep.wake, hView ▸ hAsleep.event⟩

theorem Effect.wakes (hEffect : Effect cfg k act k') (h : Good cfg k) (hAsleep : Asleep cfg k t wake)
    (hCalm : disturbs k t act = false) : Wakes cfg k' t wake := by
  have hBounds := h.wakeAt_bounds hAsleep.wake
  cases hEffect with
  | ticked sw hRun hTicked =>
      refine wakes_at (b := decide (k.wakeAt cfg t = some (k.now cfg + 1))) hAsleep ?_ ?_ ?_
      · rw [now_yieldIf, hTicked.now, decide_eq_true_eq, hAsleep.wake, Option.some_inj]
        omega
      · rw [view_yieldIf, hTicked.view]
        simp only [decide_eq_true_eq]
      · rw [wakeAt_yieldIf, hTicked.wake]
        simp only [decide_eq_true_eq]
  | pended hRun => exact .later h hAsleep rfl ⟨hAsleep.wake, hAsleep.event⟩
  | caughtUp n => exact .later h hAsleep rfl ⟨hAsleep.wake, hAsleep.event⟩
  | asked => exact .later h hAsleep rfl ⟨hAsleep.wake, hAsleep.event⟩
  | switched hRun hSwitched =>
      have hVars := hSwitched.vars
      refine .later h hAsleep ?_ ⟨?_, ?_⟩
      · rw [Kernel.now, hVars]
        rfl
      · rw [Kernel.wakeAt, hSwitched.view, hVars]
        exact hAsleep.wake
      · rw [hSwitched.view]
        exact hAsleep.event
  | latched hRun => exact .later h hAsleep rfl ⟨hAsleep.wake, hAsleep.event⟩
  | suspended => exact .later h hAsleep rfl ⟨hAsleep.wake, hAsleep.event⟩
  | resumed hLast hResumed =>
      refine wakes_at (b := k.released cfg t) hAsleep ?_ ?_ ?_
      · rw [now_yieldIf, hResumed.now, Kernel.released, Kernel.wakesBy, hAsleep.wake, decide_eq_false hAsleep.event]
        simp
      · rw [view_yieldIf, hResumed.view]
      · rw [wakeAt_yieldIf, hResumed.wake]
  | nested hMore =>
      have hMiddle : Asleep cfg { k with uxSchedulerSuspended := k.uxSchedulerSuspended - 1 } t wake :=
        ⟨hAsleep.wake, hAsleep.event⟩
      exact .later h hAsleep (now_yieldIf _) (hMiddle.yieldIf _)
  | blocked hMay hBlocks hBlocked =>
      have hReady := ready_iff.mp (of_decide_eq_true hMay).1
      have hOther := hAsleep.ne_of_plain h hReady plain_ready
      obtain ⟨v, hView, _⟩ := hBlocked.view
      obtain ⟨m, hVars⟩ := hBlocked.vars
      refine .later h hAsleep hBlocked.now ⟨?_, ?_⟩
      · rw [Kernel.wakeAt, hView, hVars, Function.update_of_ne hOther]
        exact hAsleep.wake
      · rw [hView, Function.update_of_ne hOther]
        exact hAsleep.event
  | nothing hTicks => exact .later h hAsleep rfl hAsleep
  | woken hTicks hTouched hOutcome =>
      rename_i u v
      refine .later h hAsleep hOutcome.now (hAsleep.other hOutcome ?_)
      rintro rfl
      rcases hTouched with hDisturbs | hSuspended | hNone
      · cases hCalm.symm.trans hDisturbs
      · exact hAsleep.ne_of_plain h hSuspended plain_suspended rfl
      · have hWake := hAsleep.wake
        rw [Kernel.wakeAt, Vars.wakeAt, hNone] at hWake
        cases hWake
  | cleaned hGone hOutcome =>
      exact .later h hAsleep hOutcome.now (hAsleep.other hOutcome (hAsleep.ne_of_plain h hGone plain_terminated))
  | changed tcb hTicks hOutcome => exact .later h hAsleep hOutcome.now (hAsleep.withTCB h hOutcome)
  | lowered tcb hOther hOutcome => exact .later h hAsleep hOutcome.now (hAsleep.withTCB h hOutcome)
  | given hGiven =>
      refine .later h hAsleep hGiven.now.1 ?_
      cases hGiven with
      | alone b k₁ tcb first vars same last => exact last ▸ (hAsleep.withTCB h first).yieldIf b
      | waiter b c k₁ tcb u w first vars same asks waits woken last =>
          refine (hAsleep.withTCB h first).other last ?_
          rintro rfl
          refine Bool.false_ne_true (hCalm.symm.trans (decide_eq_true ?_))
          rw [Kernel.listGET_HEAD_ENTRY, waits]
          rfl

/-- The time never goes back. -/
theorem Effect.now_le (hEffect : Effect cfg k act k') : k.now cfg ≤ k'.now cfg := by
  cases hEffect with
  | ticked sw hRun hTicked =>
      rw [now_yieldIf, hTicked.now]
      exact Nat.le_succ _
  | pended | caughtUp | asked | latched | suspended | nothing => exact Nat.le_refl _
  | switched hRun hSwitched =>
      rw [Kernel.now, Kernel.now, hSwitched.vars]
      exact Nat.le_refl _
  | resumed hLast hResumed =>
      rw [now_yieldIf, hResumed.now]
      exact Nat.le_add_right _ _
  | nested hMore =>
      rw [now_yieldIf]
      exact Nat.le_refl _
  | blocked hMay hBlocks hBlocked => exact Nat.le_of_eq hBlocked.now.symm
  | woken hTicks hTouched hOutcome => exact Nat.le_of_eq hOutcome.now.symm
  | cleaned hGone hOutcome => exact Nat.le_of_eq hOutcome.now.symm
  | changed tcb hTicks hOutcome => exact Nat.le_of_eq hOutcome.now.symm
  | lowered tcb hOther hOutcome => exact Nat.le_of_eq hOutcome.now.symm
  | given hGiven => exact Nat.le_of_eq hGiven.now.1.symm

/-- The steps that leave the wait of a task alone, and the bitmap right. -/
def undisturbed (cfg : Config) (t : Nat) (k : Kernel) (act : Act) : Bool := keepsBits cfg k act && !disturbs k t act

theorem keepsBits_of_undisturbed (hGuard : Transition.Guarded (undisturbed cfg t) trace) :
    Transition.Guarded (keepsBits cfg) trace := fun step hMem =>
  (Bool.and_eq_true_iff.mp (hGuard step hMem)).1

/-- A task sleeps until the time has come, and the step that reaches it makes the
task ready. -/
theorem Asleep.run (h : Good cfg k) (hAsleep : Asleep cfg k t wake) (run : (system cfg).Run k trace k')
    (hGuard : Transition.Guarded (undisturbed cfg t) trace) :
    (k'.now cfg < wake → Asleep cfg k' t wake) ∧
      (system cfg).AtEachStep trace fun _ s _ s' =>
        s.now cfg < wake → wake ≤ s'.now cfg → (s'.view t).ready := by
  induction run with
  | nil => exact ⟨fun _ => hAsleep, Transition.System.atEachStep_nil _⟩
  | @snoc s s' trace act prior last ih =>
      have hPast : Transition.Guarded (undisturbed cfg t) trace := fun step hMem =>
        hGuard step (List.mem_append_left _ hMem)
      obtain ⟨hSleeps, hSteps⟩ := ih hPast
      have hGood := good_of_run h prior (keepsBits_of_undisturbed hPast)
      obtain ⟨hKeeps, hCalm⟩ := Bool.and_eq_true_iff.mp (hGuard (s, act) (by simp))
      obtain ⟨_, hEffect⟩ := step_spec hGood last ((Bool.not_eq_true' _).mp hKeeps)
      have hWakes : s.now cfg < wake → Wakes cfg s' t wake := fun hEarly =>
        hEffect.wakes hGood (hSleeps hEarly) ((Bool.not_eq_true' _).mp hCalm)
      refine ⟨fun hEarly => ?_, Transition.System.atEachStep_snoc.mpr ⟨hSteps, fun u hNext hEarly hReached => ?_⟩⟩
      · have hThere := hWakes (Nat.lt_of_le_of_lt hEffect.now_le hEarly)
        rw [Wakes, if_neg (Nat.not_le_of_lt hEarly)] at hThere
        exact hThere
      · obtain rfl := Option.some.inj (last.symm.trans hNext)
        have hThere := hWakes hEarly
        rw [Wakes, if_pos hReached] at hThere
        exact hThere

/-- A sleeping task is not ready. -/
theorem Asleep.not_ready (hAsleep : Asleep cfg k t wake) (h : Good cfg k) : k.ready t = false := by
  rw [← Bool.not_eq_true, ready_iff]
  exact fun hReady => hAsleep.ne_of_plain h hReady plain_ready rfl

/-- A step that blocks. -/
theorem blocked_of_next (h : Good cfg k) (hNext : (system cfg).next k act = some k')
    (hBlocks : blocks act = some (ev, n, can)) : Blocked cfg k k' ev n can := by
  have hStep : (if enabled cfg k act then perform cfg k act else none) = some k' := hNext
  split at hStep
  case isFalse => cases hStep
  case isTrue hEnabled =>
    cases act <;> cases hBlocks
    case vTaskDelay =>
      obtain ⟨k₁, hCall, hBlocked⟩ := vTaskDelay_spec h hEnabled
      exact Option.some.inj (hCall.symm.trans hStep) ▸ hBlocked
    case vTaskPlaceOnEventList e =>
      obtain ⟨k₁, hCall, hBlocked⟩ := vTaskPlaceOnEventList_spec h hEnabled e
      exact Option.some.inj (hCall.symm.trans hStep) ▸ hBlocked
    case vTaskPlaceOnUnorderedEventList e v =>
      obtain ⟨k₁, hCall, hBlocked⟩ := vTaskPlaceOnUnorderedEventList_spec h (of_decide_eq_true hEnabled).1 e v
      exact Option.some.inj (hCall.symm.trans hStep) ▸ hBlocked

/-- Who blocks for some ticks sleeps until they have passed. -/
theorem Blocked.asleep (hBlocked : Blocked cfg k k' ev n can) (hEvent : ev ≠ some .xPendingReadyList)
    (hLimited : ¬ (n = cfg.portMAX_DELAY ∧ can = true)) : Asleep cfg k' k.pxCurrentTCB (k.now cfg + n) := by
  obtain ⟨v, hView, rfl, _, _, hWake⟩ := hBlocked.view
  obtain ⟨m, hVars⟩ := hBlocked.vars
  rw [if_neg hLimited] at hWake
  constructor
  · rw [Kernel.wakeAt, hView, hVars, Function.update_self]
    exact hWake
  · rw [hView, Function.update_self]
    exact hEvent

theorem event_of_blocks (hBlocks : blocks act = some (ev, n, can)) : ev ≠ some .xPendingReadyList := by
  cases act <;> cases hBlocks <;> exact nofun

/-- A task that blocks for some ticks, from any state of any run, is not ready
before they have passed, and it is ready with the step in which they have: for any
wrap of the count and any suspension of the scheduler, as long as nobody ends its
wait. -/
theorem wakes_of_run (hStart : (system cfg).start k₀) (run : (system cfg).Run k₀ trace k)
    (hGuard : Transition.Guarded (keepsBits cfg) trace) (hBlocks : blocks act = some (ev, n, can))
    (hLimited : ¬ (n = cfg.portMAX_DELAY ∧ can = true)) (hNext : (system cfg).next k act = some k₁)
    (later : (system cfg).Run k₁ after k') (hCalm : Transition.Guarded (undisturbed cfg k.pxCurrentTCB) after) :
    (k'.now cfg < k.now cfg + n → k'.ready k.pxCurrentTCB = false) ∧
      (system cfg).AtEachStep after fun _ s _ s' =>
        s.now cfg < k.now cfg + n → k.now cfg + n ≤ s'.now cfg → s'.ready k.pxCurrentTCB = true := by
  have h := good_of_run (start_spec hStart).1 run hGuard
  have hBlocked := blocked_of_next h hNext hBlocks
  obtain ⟨hSleeps, hSteps⟩ := (hBlocked.asleep (event_of_blocks hBlocks) hLimited).run hBlocked.toGood later hCalm
  have hGood := good_of_run hBlocked.toGood later (keepsBits_of_undisturbed hCalm)
  refine ⟨fun hEarly => (hSleeps hEarly).not_ready hGood, ?_⟩
  intro past s b rest hTrace s' hTo hEarly hReached
  exact ready_iff.mpr (hSteps past s b rest hTrace s' hTo hEarly hReached)

/-- The other task runs while this one sleeps; two of its three ticks come while
the scheduler is suspended, after the count has started anew. -/
def sleepCalls : List Act :=
  [.xTaskResumeAll, .vTaskSwitchContext, .xTaskIncrementTick, .vTaskSuspendAll, .xTaskIncrementTick,
    .xTaskIncrementTick, .xTaskResumeAll]

theorem wakes_of_run_board :
    ∃ k₀ k k₁ k', vTaskStartScheduler board 0xfffffffe [(1, 1), (2, 2), (0, 0)] = some k₀ ∧
      (system board).exec k₀ [.vTaskSuspendAll] = some k ∧ (system board).next k (.vTaskDelay 3) = some k₁ ∧
      (system board).exec k₁ sleepCalls = some k' ∧
      (k'.now board < k.now board + 3 → k'.ready k.pxCurrentTCB = false) ∧
        (system board).AtEachStep ((system board).replay k₁ sleepCalls) fun _ s _ s' =>
          s.now board < k.now board + 3 → k.now board + 3 ≤ s'.now board → s'.ready k.pxCurrentTCB = true := by
  obtain ⟨k₀, k, hBoot, hExec, hHolds⟩ := exec_any board 0xfffffffe [(1, 1), (2, 2), (0, 0)] [.vTaskSuspendAll]
    (fun k₀ k => decide (Transition.Guarded (keepsBits board) ((system board).replay k₀ [.vTaskSuspendAll])) &&
      ((system board).next k (.vTaskDelay 3)).any fun k₁ => ((system board).exec k₁ sleepCalls).any fun _ =>
        Transition.Guarded (undisturbed board k.pxCurrentTCB) ((system board).replay k₁ sleepCalls)) (by decide)
  obtain ⟨hGuard, hRest⟩ := Bool.and_eq_true_iff.mp hHolds
  obtain ⟨k₁, hNext, hRest⟩ := (Option.any_eq_true ..).mp hRest
  obtain ⟨k', hLater, hCalm⟩ := (Option.any_eq_true ..).mp hRest
  exact ⟨k₀, k, k₁, k', hBoot, hExec, hNext, hLater, wakes_of_run ⟨_, by decide, _, by decide, hBoot⟩
    (Transition.System.run_of_exec _ hExec) (of_decide_eq_true hGuard) rfl (by decide) hNext
    (Transition.System.run_of_exec _ hLater) (of_decide_eq_true hCalm)⟩

/-- The ticks that came along a run. -/
def ticksOf (trace : Transition.Trace Kernel Act) : Nat := (trace.map fun step => arrived step.2).sum

/-- In every run the ticks that were counted, and those that are pended, are the
ticks that came: suspending the scheduler loses none. -/
theorem ticks_of_run (hStart : (system cfg).start k₀) (run : (system cfg).Run k₀ trace k)
    (hGuard : Transition.Guarded (keepsBits cfg) trace) (hFits : Transition.Guarded (fits cfg) trace) :
    k.now cfg + k.xPendedTicks = k₀.xTickCount + ticksOf trace := by
  induction run with
  | nil =>
      obtain ⟨hNow, hPended, _⟩ := start_vars hStart
      rw [hNow, hPended]
      rfl
  | @snoc s s' trace act prior last ih =>
      have hPast : Transition.Guarded (keepsBits cfg) trace := fun step hMem =>
        hGuard step (List.mem_append_left _ hMem)
      have hPastFits : Transition.Guarded (fits cfg) trace := fun step hMem =>
        hFits step (List.mem_append_left _ hMem)
      have hKeeps := hGuard (s, act) (by simp)
      obtain ⟨_, hEffect⟩ := step_spec (good_of_run (start_spec hStart).1 prior hPast) last
        ((Bool.not_eq_true' _).mp hKeeps)
      rw [hEffect.ticks (hFits (s, act) (by simp)), ih hPast hPastFits, ticksOf, ticksOf, List.map_append,
        List.sum_append]
      simp [Nat.add_assoc]

theorem ticks_of_run_board :
    ∃ k₀ k, vTaskStartScheduler board 0xfffffffe [(1, 1), (2, 2), (0, 0)] = some k₀ ∧
      (system board).exec k₀ (.vTaskSuspendAll :: .vTaskDelay 3 :: sleepCalls) = some k ∧
      k.now board + k.xPendedTicks = k₀.xTickCount +
        ticksOf ((system board).replay k₀ (.vTaskSuspendAll :: .vTaskDelay 3 :: sleepCalls)) := by
  obtain ⟨k₀, k, hBoot, hExec, hHolds⟩ := exec_any board 0xfffffffe [(1, 1), (2, 2), (0, 0)]
    (.vTaskSuspendAll :: .vTaskDelay 3 :: sleepCalls) (fun k₀ _ =>
      Transition.Guarded (keepsBits board) ((system board).replay k₀ (.vTaskSuspendAll :: .vTaskDelay 3 :: sleepCalls)) ∧
      Transition.Guarded (fits board) ((system board).replay k₀ (.vTaskSuspendAll :: .vTaskDelay 3 :: sleepCalls)))
    (by decide)
  obtain ⟨hGuard, hFits⟩ := of_decide_eq_true hHolds
  exact ⟨k₀, k, hBoot, hExec, ticks_of_run ⟨_, by decide, _, by decide, hBoot⟩
    (Transition.System.run_of_exec _ hExec) hGuard hFits⟩

end FreeRtos.Tasks
