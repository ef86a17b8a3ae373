import FreeRtosCpp11.Tasks.Sleep
import FreeRtosCpp11.Transition.Lockstep

/-! Deadlines. A wait that is checked again and again for its timeout ends at the
time it was given, and a task that delays itself until the next period never drifts. -/
namespace FreeRtos.Tasks

open Transition

variable {cfg : Config} {k k' k₀ k₁ : Kernel} {t n p inc : Nat} {act : Act} {trace : Trace Kernel Act}

/-! The calls. -/

structure TimeOut where
  xOverflowCount : Nat
  xTimeOnEntering : Nat
  deriving Repr

def vTaskInternalSetTimeOutState (k : Kernel) : TimeOut := ⟨k.xNumOfOverflows, k.xTickCount⟩

/-- `xTaskCheckForTimeOut`: its answer, the time of entering and the ticks to wait
after it, and the state. -/
def xTaskCheckForTimeOut (cfg : Config) (k : Kernel) (pxTimeOut : TimeOut) (pxTicksToWait : Nat) :
    Bool × TimeOut × Nat × Kernel :=
  let xConstTickCount := k.xTickCount
  let xElapsedTime := cfg.ticksBetween xConstTickCount pxTimeOut.xTimeOnEntering
  if (k.tcb k.pxCurrentTCB).ucDelayAborted then
    (true, pxTimeOut, pxTicksToWait,
      k.setTCB k.pxCurrentTCB { k.tcb k.pxCurrentTCB with ucDelayAborted := false })
  else if pxTicksToWait = cfg.portMAX_DELAY then (false, pxTimeOut, pxTicksToWait, k)
  else if k.xNumOfOverflows ≠ pxTimeOut.xOverflowCount ∧ xConstTickCount ≥ pxTimeOut.xTimeOnEntering then
    (true, pxTimeOut, 0, k)
  else if xElapsedTime < pxTicksToWait then
    (false, vTaskInternalSetTimeOutState k, pxTicksToWait - xElapsedTime, k)
  else (true, pxTimeOut, 0, k)

/-- `xTaskDelayUntil`, between its calls of `vTaskSuspendAll` and `xTaskResumeAll`:
whether it delays, the previous wake time after it, and the state. -/
def xTaskDelayUntil (cfg : Config) (k : Kernel) (pxPreviousWakeTime xTimeIncrement : Nat) :
    Option (Bool × Nat × Kernel) :=
  if xTimeIncrement = 0 then none
  else
    let xConstTickCount := k.xTickCount
    let xTimeToWake := cfg.ticks pxPreviousWakeTime xTimeIncrement
    let xShouldDelay :=
      if xConstTickCount < pxPreviousWakeTime then
        decide (xTimeToWake < pxPreviousWakeTime ∧ xTimeToWake > xConstTickCount)
      else decide (xTimeToWake < pxPreviousWakeTime ∨ xTimeToWake > xConstTickCount)
    if xShouldDelay then
      (prvAddCurrentTaskToDelayedList cfg k (cfg.ticksBetween xTimeToWake xConstTickCount) false).map fun k =>
        (true, xTimeToWake, k)
    else some (false, xTimeToWake, k)

/-! What one call does. -/

theorem Config.portMAX_DELAY_eq (cfg : Config) : cfg.portMAX_DELAY = 0xffff ∨ cfg.portMAX_DELAY = 0xffffffff := by
  unfold Config.portMAX_DELAY
  split
  case isTrue => exact Or.inl rfl
  case isFalse => exact Or.inr rfl

/-- The time at which a wait began. -/
def TimeOut.entered (cfg : Config) (out : TimeOut) : Nat :=
  out.xOverflowCount * (cfg.portMAX_DELAY + 1) + out.xTimeOnEntering

/-- A check within one wrap of the count finds the time that is left, or that none
is. -/
theorem xTaskCheckForTimeOut_spec {out : TimeOut} (hTick : k.xTickCount ≤ cfg.portMAX_DELAY)
    (hOut : out.xTimeOnEntering ≤ cfg.portMAX_DELAY) (hPast : out.entered cfg ≤ k.now cfg)
    (hOnce : k.xNumOfOverflows ≤ out.xOverflowCount + 1) (hKept : (k.tcb k.pxCurrentTCB).ucDelayAborted = false)
    (hLimited : n < cfg.portMAX_DELAY) :
    xTaskCheckForTimeOut cfg k out n =
      if k.now cfg < out.entered cfg + n then
        (false, vTaskInternalSetTimeOutState k, out.entered cfg + n - k.now cfg, k)
      else (true, out, 0, k) := by
  have hElapsed : (k.xNumOfOverflows ≠ out.xOverflowCount ∧ out.xTimeOnEntering ≤ k.xTickCount ∧
        out.entered cfg + n ≤ k.now cfg) ∨
      ¬ (k.xNumOfOverflows ≠ out.xOverflowCount ∧ k.xTickCount ≥ out.xTimeOnEntering) ∧
        out.entered cfg + cfg.ticksBetween k.xTickCount out.xTimeOnEntering = k.now cfg := by
    unfold TimeOut.entered Kernel.now Vars.now Config.ticksBetween at *
    have hMax := cfg.portMAX_DELAY_eq
    generalize cfg.portMAX_DELAY = m at *
    rcases hMax with rfl | rfl <;> omega
  unfold xTaskCheckForTimeOut
  dsimp only
  rw [if_neg (by simp [hKept]), if_neg (Nat.ne_of_lt hLimited)]
  rcases hElapsed with ⟨hOver, hMore, hLate⟩ | ⟨hNot, hSum⟩
  · rw [if_pos ⟨hOver, hMore⟩, if_neg (Nat.not_lt_of_le hLate)]
  · rw [if_neg hNot]
    by_cases hEarly : k.now cfg < out.entered cfg + n
    · rw [if_pos hEarly, if_pos (by omega), ← hSum, Nat.add_sub_add_left]
    · rw [if_neg hEarly, if_neg (by omega)]

/-- A task that is not a whole wrap of the count behind delays itself until the end
of the period after its previous wake time, or not at all when this has passed. -/
theorem xTaskDelayUntil_spec (hTick : k.xTickCount ≤ cfg.portMAX_DELAY) (hInc : 0 < inc ∧ inc ≤ cfg.portMAX_DELAY)
    (hPast : p ≤ k.now cfg) (hOnce : k.now cfg ≤ p + cfg.portMAX_DELAY) :
    xTaskDelayUntil cfg k (p % (cfg.portMAX_DELAY + 1)) inc =
      if k.now cfg < p + inc then
        (prvAddCurrentTaskToDelayedList cfg k (p + inc - k.now cfg) false).map fun k =>
          (true, (p + inc) % (cfg.portMAX_DELAY + 1), k)
      else some (false, (p + inc) % (cfg.portMAX_DELAY + 1), k) := by
  have hWake : cfg.ticks (p % (cfg.portMAX_DELAY + 1)) inc = (p + inc) % (cfg.portMAX_DELAY + 1) := by
    rw [Config.ticks, Nat.mod_add_mod]
  have hDelays : (if k.xTickCount < p % (cfg.portMAX_DELAY + 1) then
        decide ((p + inc) % (cfg.portMAX_DELAY + 1) < p % (cfg.portMAX_DELAY + 1) ∧
          (p + inc) % (cfg.portMAX_DELAY + 1) > k.xTickCount)
      else decide ((p + inc) % (cfg.portMAX_DELAY + 1) < p % (cfg.portMAX_DELAY + 1) ∨
        (p + inc) % (cfg.portMAX_DELAY + 1) > k.xTickCount)) = true ↔ k.now cfg < p + inc := by
    unfold Kernel.now Vars.now at *
    have hMax := cfg.portMAX_DELAY_eq
    generalize cfg.portMAX_DELAY = m at *
    rcases hMax with rfl | rfl <;> split <;> rw [decide_eq_true_iff] <;> omega
  have hTicks : k.now cfg < p + inc →
      cfg.ticksBetween ((p + inc) % (cfg.portMAX_DELAY + 1)) k.xTickCount = p + inc - k.now cfg := by
    unfold Kernel.now Vars.now Config.ticksBetween at *
    have hMax := cfg.portMAX_DELAY_eq
    generalize cfg.portMAX_DELAY = m at *
    rcases hMax with rfl | rfl <;> omega
  unfold xTaskDelayUntil
  rw [if_neg (Nat.ne_of_gt hInc.1)]
  dsimp only
  rw [hWake]
  by_cases hEarly : k.now cfg < p + inc
  · rw [if_pos hEarly, if_pos (hDelays.mpr hEarly), hTicks hEarly]
  · rw [if_neg hEarly, if_neg (mt hDelays.mp hEarly)]

/-! A wait that is checked for its timeout, while the kernel goes on. -/

structure Wait where
  pxTimeOut : TimeOut
  pxTicksToWait : Nat
  timedOut : Bool

/-- A check, until one of them finds that the time is up. -/
def check (cfg : Config) (k : Kernel) (w : Wait) : Option (Kernel × Wait) :=
  if w.timedOut then none
  else
    let (timedOut, pxTimeOut, pxTicksToWait, k) := xTaskCheckForTimeOut cfg k w.pxTimeOut w.pxTicksToWait
    some (k, ⟨pxTimeOut, pxTicksToWait, timedOut⟩)

/-- The wait is not aborted, and it is checked before the count of ticks has started
anew twice. -/
def prompt (cfg : Config) (s : Kernel × Wait) : Option Act → Bool
  | some act => keepsBits cfg s.1 act
  | none => !(s.1.tcb s.1.pxCurrentTCB).ucDelayAborted && s.1.xNumOfOverflows ≤ s.2.pxTimeOut.xOverflowCount + 1

/-- As long as the time is not up, the wait ends when it should. -/
structure Timed (cfg : Config) (deadline : Nat) (s : Kernel × Wait) : Prop where
  good : Good cfg s.1
  left : s.2.timedOut = false → s.2.pxTimeOut.xTimeOnEntering ≤ cfg.portMAX_DELAY ∧
    s.2.pxTimeOut.entered cfg ≤ s.1.now cfg ∧ s.2.pxTicksToWait < cfg.portMAX_DELAY ∧
    s.2.pxTimeOut.entered cfg + s.2.pxTicksToWait = deadline

/-- What a check finds. -/
theorem Timed.checked {deadline : Nat} {w : Wait} {s : Kernel × Wait} (h : Timed cfg deadline (k, w))
    (hPrompt : prompt cfg (k, w) none = true) (hCheck : check cfg k w = some s) :
    Timed cfg deadline s ∧ s.1 = k ∧ (s.2.timedOut = true ↔ deadline ≤ k.now cfg) ∧
      (s.2.timedOut = false → k.now cfg + s.2.pxTicksToWait = deadline) := by
  obtain ⟨hGood, hLeft⟩ := h
  obtain ⟨hAborted, hOnce⟩ := Bool.and_eq_true_iff.mp hPrompt
  unfold check at hCheck
  split at hCheck
  case isTrue => cases hCheck
  case isFalse hGoes =>
    obtain ⟨hOut, hPast, hLess, hSum⟩ := hLeft ((Bool.not_eq_true _).mp hGoes)
    rw [xTaskCheckForTimeOut_spec hGood.tick hOut hPast (of_decide_eq_true hOnce)
      ((Bool.not_eq_true' _).mp hAborted) hLess] at hCheck
    dsimp only at hSum hLess
    rw [hSum] at hCheck
    by_cases hEarly : k.now cfg < deadline
    · rw [if_pos hEarly] at hCheck
      obtain rfl := Option.some.inj hCheck
      have hEntered : (vTaskInternalSetTimeOutState k).entered cfg = k.now cfg := rfl
      refine ⟨⟨hGood, fun _ => ⟨hGood.tick, Nat.le_of_eq hEntered, ?_, ?_⟩⟩, rfl, ?_, fun _ => ?_⟩
      · show deadline - k.now cfg < _
        dsimp only at hPast
        omega
      · show (vTaskInternalSetTimeOutState k).entered cfg + (deadline - k.now cfg) = deadline
        omega
      · exact iff_of_false Bool.false_ne_true (Nat.not_le_of_lt hEarly)
      · show k.now cfg + (deadline - k.now cfg) = deadline
        omega
    · rw [if_neg hEarly] at hCheck
      obtain rfl := Option.some.inj hCheck
      exact ⟨⟨hGood, nofun⟩, rfl, iff_of_true rfl (Nat.le_of_not_lt hEarly), nofun⟩

/-- A step of the kernel while the wait goes on. -/
theorem Timed.step {deadline : Nat} {s s' : Kernel × Wait} (h : Timed cfg deadline s) {act : Option Act}
    (hPrompt : prompt cfg s act = true) (hNext : ((system cfg).extend (check cfg)).next s act = some s') :
    Timed cfg deadline s' := by
  cases act with
  | none => exact (h.checked hPrompt hNext).1
  | some act =>
      obtain ⟨hStep, hSame⟩ := System.extend_some hNext
      obtain ⟨_, hEffect⟩ := step_spec h.good hStep ((Bool.not_eq_true' _).mp hPrompt)
      refine ⟨hEffect.good h.good, fun hGoes => ?_⟩
      rw [hSame] at hGoes ⊢
      obtain ⟨hOut, hPast, hRest⟩ := h.left hGoes
      exact ⟨hOut, Nat.le_trans hPast hEffect.now_le, hRest⟩

/-- A wait for some ticks, begun in any state of any run and checked any number of
times: a check finds that the time is up exactly when so many ticks have passed since
the wait began, and the ticks it leaves to wait are those that are left. -/
theorem timesOut_of_run {after : Trace (Kernel × Wait) (Option Act)} {w : Wait} (hStart : (system cfg).start k₀)
    (run : (system cfg).Run k₀ trace k) (hGuard : Guarded (keepsBits cfg) trace) (hLimited : n < cfg.portMAX_DELAY)
    (later : ((system cfg).extend (check cfg)).Run (k, ⟨vTaskInternalSetTimeOutState k, n, false⟩) after (k', w))
    (hPrompt : Guarded (prompt cfg) after) :
    ((system cfg).extend (check cfg)).AtEachStep after fun _ s act s' => act = none →
      s'.1 = s.1 ∧ (s'.2.timedOut = true ↔ k.now cfg + n ≤ s.1.now cfg) ∧
        (s'.2.timedOut = false → s.1.now cfg + s'.2.pxTicksToWait = k.now cfg + n) := by
  have h := good_of_run (start_spec hStart).1 run hGuard
  refine later.atEachStep (P := fun _ s => Timed cfg (k.now cfg + n) s) hPrompt ?_ ?_ ?_
  · exact ⟨h, fun _ => ⟨h.tick, Nat.le_refl _, hLimited, rfl⟩⟩
  · exact fun _ s act s' hTimed hHere hNext => hTimed.step hHere hNext
  · rintro _ ⟨k₁, w₁⟩ act s' hTimed hHere hNext rfl
    exact (hTimed.checked hHere hNext).2

/-- A task that waits for four ticks checks its wait after two of them, and again
after the count has started anew. -/
def checkCalls : List (Option Act) :=
  [some .xTaskIncrementTick, some .xTaskIncrementTick, none, some .xTaskIncrementTick, some .xTaskIncrementTick, none]

theorem timesOut_of_run_board :
    ∃ k₀ s, vTaskStartScheduler board 0xfffffffd [(1, 1), (2, 2), (0, 0)] = some k₀ ∧
      ((system board).extend (check board)).exec (k₀, ⟨vTaskInternalSetTimeOutState k₀, 4, false⟩) checkCalls = some s ∧
      s.2.timedOut = true ∧
      ((system board).extend (check board)).AtEachStep
        (((system board).extend (check board)).replay (k₀, ⟨vTaskInternalSetTimeOutState k₀, 4, false⟩) checkCalls)
        fun _ s act s' => act = none →
          s'.1 = s.1 ∧ (s'.2.timedOut = true ↔ k₀.now board + 4 ≤ s.1.now board) ∧
            (s'.2.timedOut = false → s.1.now board + s'.2.pxTicksToWait = k₀.now board + 4) := by
  obtain ⟨k₀, _, hBoot, hExec, hHolds⟩ := exec_any board 0xfffffffd [(1, 1), (2, 2), (0, 0)] []
    (fun k₀ _ => (((system board).extend (check board)).exec
      (k₀, ⟨vTaskInternalSetTimeOutState k₀, 4, false⟩) checkCalls).any fun s => s.2.timedOut &&
        Guarded (prompt board) (((system board).extend (check board)).replay
          (k₀, ⟨vTaskInternalSetTimeOutState k₀, 4, false⟩) checkCalls)) (by decide)
  obtain ⟨s, hLater, hBoth⟩ := (Option.any_eq_true ..).mp hHolds
  obtain ⟨hOut, hPrompt⟩ := Bool.and_eq_true_iff.mp hBoth
  exact ⟨k₀, s, hBoot, hLater, hOut, timesOut_of_run ⟨_, by decide, _, by decide, hBoot⟩ (.nil k₀)
    (fun _ hMem => absurd hMem List.not_mem_nil) (by decide) (System.run_of_exec checkCalls hLater)
    (of_decide_eq_true hPrompt)⟩

/-! A task that delays itself again and again until its next period. -/

structure Period where
  pxPreviousWakeTime : Nat
  calls : Nat

/-- The task delays itself while it runs and has suspended the scheduler. -/
def delayUntil (cfg : Config) (t inc : Nat) (k : Kernel) (w : Period) : Option (Kernel × Period) :=
  if k.pxCurrentTCB = t ∧ k.ready t ∧ t ≠ cfg.xIdleTaskHandle ∧ k.uxSchedulerSuspended = 1 then
    (xTaskDelayUntil cfg k w.pxPreviousWakeTime inc).map fun (_, pxPreviousWakeTime, k) =>
      (k, ⟨pxPreviousWakeTime, w.calls + 1⟩)
  else none

/-- Nobody ends the delay of the task, and it is never a whole wrap of the count
behind its period. -/
def onTime (cfg : Config) (t inc begun : Nat) (s : Kernel × Period) : Option Act → Bool
  | some act => undisturbed cfg t s.1 act
  | none => s.1.now cfg ≤ begun + s.2.calls * inc + cfg.portMAX_DELAY

/-- The task sleeps until the end of the period that its calls have reached. -/
structure Periodic (cfg : Config) (t inc begun : Nat) (s : Kernel × Period) : Prop where
  good : Good cfg s.1
  previous : s.2.pxPreviousWakeTime = (begun + s.2.calls * inc) % (cfg.portMAX_DELAY + 1)
  sleeps : s.1.now cfg < begun + s.2.calls * inc → Asleep cfg s.1 t (begun + s.2.calls * inc)

/-- A call of the task: the last period is over, and the next one ends where it
should. -/
theorem Periodic.called {begun : Nat} {w : Period} {s : Kernel × Period} (h : Periodic cfg t inc begun (k, w))
    (hInc : 0 < inc ∧ inc ≤ cfg.portMAX_DELAY) (hTime : onTime cfg t inc begun (k, w) none = true)
    (hCall : delayUntil cfg t inc k w = some s) :
    Periodic cfg t inc begun s ∧ s.2.calls = w.calls + 1 ∧ begun + w.calls * inc ≤ k.now cfg ∧
      (begun + s.2.calls * inc ≤ k.now cfg → s.1 = k) := by
  obtain ⟨⟨rfl, hReady, hIdle, hOnce⟩, hDelay⟩ := Option.ite_none_right_eq_some.mp hCall
  have hOver : begun + w.calls * inc ≤ k.now cfg := by
    by_contra hEarly
    rw [(h.sleeps (Nat.lt_of_not_le hEarly)).not_ready h.good] at hReady
    cases hReady
  have hNext : begun + (w.calls + 1) * inc = begun + w.calls * inc + inc := by
    rw [Nat.succ_mul, Nat.add_assoc]
  have hPrevious : w.pxPreviousWakeTime = (begun + w.calls * inc) % (cfg.portMAX_DELAY + 1) := h.previous
  rw [hPrevious, xTaskDelayUntil_spec h.good.tick hInc hOver (of_decide_eq_true hTime)] at hDelay
  by_cases hEarly : k.now cfg < begun + w.calls * inc + inc
  · rw [if_pos hEarly] at hDelay
    have hMay : mayBlock cfg k (begun + w.calls * inc + inc - k.now cfg) = true :=
      decide_eq_true ⟨hReady, hIdle, hOnce, by omega, by omega⟩
    obtain ⟨k₁, hBlock, hBlocked⟩ := vTaskDelay_spec h.good hMay
    rw [hBlock, Option.map_some, Option.map_some] at hDelay
    obtain rfl := Option.some.inj hDelay
    refine ⟨⟨hBlocked.toGood, by rw [hNext], fun _ => ?_⟩, rfl, hOver, fun hLate => ?_⟩
    · have hAsleep := hBlocked.asleep nofun (fun hBoth => Bool.false_ne_true hBoth.2)
      rw [Nat.add_sub_cancel' (Nat.le_of_lt hEarly)] at hAsleep
      rw [hNext]
      exact hAsleep
    · rw [hNext] at hLate
      exact absurd hEarly (Nat.not_lt_of_le hLate)
  · rw [if_neg hEarly, Option.map_some] at hDelay
    obtain rfl := Option.some.inj hDelay
    refine ⟨⟨h.good, by rw [hNext], fun hSoon => ?_⟩, rfl, hOver, fun _ => rfl⟩
    rw [hNext] at hSoon
    exact absurd hSoon hEarly

/-- A step of the kernel: the task sleeps on, or its time has come. -/
theorem Periodic.step {begun : Nat} {s s' : Kernel × Period} (h : Periodic cfg t inc begun s)
    (hCalm : undisturbed cfg t s.1 act = true)
    (hNext : ((system cfg).extend (delayUntil cfg t inc)).next s (some act) = some s') :
    Periodic cfg t inc begun s' ∧ (s.1.now cfg < begun + s.2.calls * inc → begun + s.2.calls * inc ≤ s'.1.now cfg →
      s'.1.ready t = true) := by
  obtain ⟨hStep, hSame⟩ := System.extend_some hNext
  obtain ⟨hKeeps, hAlone⟩ := Bool.and_eq_true_iff.mp hCalm
  obtain ⟨_, hEffect⟩ := step_spec h.good hStep ((Bool.not_eq_true' _).mp hKeeps)
  have hWakes : s.1.now cfg < begun + s.2.calls * inc → Wakes cfg s'.1 t (begun + s.2.calls * inc) := fun hEarly =>
    hEffect.wakes h.good (h.sleeps hEarly) ((Bool.not_eq_true' _).mp hAlone)
  refine ⟨⟨hEffect.good h.good, hSame ▸ h.previous, fun hEarly => ?_⟩, fun hEarly hLate => ?_⟩
  · rw [hSame] at hEarly ⊢
    have hThere := hWakes (Nat.lt_of_le_of_lt hEffect.now_le hEarly)
    rw [Wakes, if_neg (Nat.not_le_of_lt hEarly)] at hThere
    exact hThere
  · have hThere := hWakes hEarly
    rw [Wakes, if_pos hLate] at hThere
    exact ready_iff.mpr hThere

/-- A task that delays itself period after period, begun in any state of any run: its
previous wake time is that of the period its calls have reached, so that the time of
its calls does not add up; before this time it is not ready, and it is ready with the
step that reaches it. It makes no call before the last period is over, and when the
next one is over too the call does not delay it. -/
theorem periods_of_run {after : Trace (Kernel × Period) (Option Act)} {w : Period} (hStart : (system cfg).start k₀)
    (run : (system cfg).Run k₀ trace k) (hGuard : Guarded (keepsBits cfg) trace)
    (hInc : 0 < inc ∧ inc ≤ cfg.portMAX_DELAY)
    (later : ((system cfg).extend (delayUntil cfg t inc)).Run (k, ⟨k.xTickCount, 0⟩) after (k', w))
    (hTime : Guarded (onTime cfg t inc (k.now cfg)) after) :
    w.pxPreviousWakeTime = (k.now cfg + w.calls * inc) % (cfg.portMAX_DELAY + 1) ∧
      (k'.now cfg < k.now cfg + w.calls * inc → k'.ready t = false) ∧
      ((system cfg).extend (delayUntil cfg t inc)).AtEachStep after fun _ s act s' =>
        (act ≠ none → s.1.now cfg < k.now cfg + s.2.calls * inc → k.now cfg + s.2.calls * inc ≤ s'.1.now cfg →
          s'.1.ready t = true) ∧
        (act = none → s'.2.calls = s.2.calls + 1 ∧ k.now cfg + s.2.calls * inc ≤ s.1.now cfg ∧
          (k.now cfg + s'.2.calls * inc ≤ s.1.now cfg → s'.1 = s.1)) := by
  have h := good_of_run (start_spec hStart).1 run hGuard
  have hFirst : Periodic cfg t inc (k.now cfg) (k, ⟨k.xTickCount, 0⟩) := by
    refine ⟨h, ?_, fun hEarly => absurd hEarly (by simp)⟩
    show k.xTickCount = (k.now cfg + 0 * inc) % (cfg.portMAX_DELAY + 1)
    have hTick := h.tick
    unfold Kernel.now Vars.now
    rw [Nat.zero_mul, Nat.add_zero, Nat.mul_add_mod_self_right, Nat.mod_eq_of_lt (Nat.lt_succ_of_le hTick)]
  have hStep : ∀ s act s', Periodic cfg t inc (k.now cfg) s → onTime cfg t inc (k.now cfg) s act = true →
      ((system cfg).extend (delayUntil cfg t inc)).next s act = some s' → Periodic cfg t inc (k.now cfg) s' := by
    intro s act s' hPeriodic hHere hNext
    cases act with
    | none => exact (hPeriodic.called hInc hHere hNext).1
    | some act => exact (hPeriodic.step hHere hNext).1
  have hLast := later.invariant hTime hFirst hStep
  refine ⟨hLast.previous, fun hEarly => (hLast.sleeps hEarly).not_ready hLast.good, ?_⟩
  refine later.atEachStep (P := fun _ s => Periodic cfg t inc (k.now cfg) s) hTime hFirst
    (fun _ s act s' hPeriodic hHere hNext => hStep s act s' hPeriodic hHere hNext) ?_
  intro _ s act s' hPeriodic hHere hNext
  cases act with
  | none => exact ⟨fun hSome => absurd rfl hSome, fun _ => (hPeriodic.called hInc hHere hNext).2⟩
  | some act => exact ⟨fun _ => (hPeriodic.step hHere hNext).2, nofun⟩

/-- A task of period three starts when the count is near its end: it sleeps until
the third tick, and makes its next call when two periods are over. -/
def periodCalls : List (Option Act) :=
  [some .vTaskSuspendAll, none, some .xTaskResumeAll, some .vTaskSwitchContext, some .xTaskIncrementTick,
    some .xTaskIncrementTick, some .xTaskIncrementTick, some .vTaskSwitchContext, some .xTaskIncrementTick,
    some .xTaskIncrementTick, some .xTaskIncrementTick, some .vTaskSuspendAll, none]

theorem periods_of_run_board :
    ∃ k₀ s, vTaskStartScheduler board 0xfffffffe [(1, 1), (2, 2), (0, 0)] = some k₀ ∧
      ((system board).extend (delayUntil board k₀.pxCurrentTCB 3)).exec (k₀, ⟨k₀.xTickCount, 0⟩) periodCalls = some s ∧
      s.2.calls = 2 ∧ s.2.pxPreviousWakeTime = (k₀.now board + s.2.calls * 3) % (board.portMAX_DELAY + 1) ∧
      (s.1.now board < k₀.now board + s.2.calls * 3 → s.1.ready k₀.pxCurrentTCB = false) ∧
      ((system board).extend (delayUntil board k₀.pxCurrentTCB 3)).AtEachStep
        (((system board).extend (delayUntil board k₀.pxCurrentTCB 3)).replay (k₀, ⟨k₀.xTickCount, 0⟩) periodCalls)
        fun _ s act s' =>
          (act ≠ none → s.1.now board < k₀.now board + s.2.calls * 3 →
            k₀.now board + s.2.calls * 3 ≤ s'.1.now board → s'.1.ready k₀.pxCurrentTCB = true) ∧
          (act = none → s'.2.calls = s.2.calls + 1 ∧ k₀.now board + s.2.calls * 3 ≤ s.1.now board ∧
            (k₀.now board + s'.2.calls * 3 ≤ s.1.now board → s'.1 = s.1)) := by
  obtain ⟨k₀, _, hBoot, hExec, hHolds⟩ := exec_any board 0xfffffffe [(1, 1), (2, 2), (0, 0)] []
    (fun k₀ _ => (((system board).extend (delayUntil board k₀.pxCurrentTCB 3)).exec (k₀, ⟨k₀.xTickCount, 0⟩)
      periodCalls).any fun s : Kernel × Period => decide (s.2.calls = 2) && Guarded (onTime board k₀.pxCurrentTCB 3 (k₀.now board))
        (((system board).extend (delayUntil board k₀.pxCurrentTCB 3)).replay (k₀, ⟨k₀.xTickCount, 0⟩) periodCalls))
    (by decide)
  obtain ⟨s, hLater, hBoth⟩ := (Option.any_eq_true ..).mp hHolds
  obtain ⟨hCalls, hTime⟩ := Bool.and_eq_true_iff.mp hBoth
  exact ⟨k₀, s, hBoot, hLater, of_decide_eq_true hCalls, periods_of_run ⟨_, by decide, _, by decide, hBoot⟩ (.nil k₀)
    (fun _ hMem => absurd hMem List.not_mem_nil) (by decide) (System.run_of_exec periodCalls hLater)
    (of_decide_eq_true hTime)⟩

end FreeRtos.Tasks
