import FreeRtosCpp11.Clock.WallClock
import Mathlib.Logic.Function.Basic

/-! Runs of the wall clock: tick interrupts without bound, and calls of
`SetSystemClockTime` by any number of tasks. A set reads the tick count and
stores the offset in two separate steps; a read is one critical section. -/
namespace FreeRtos.Clock

structure WallClock (Task : Type) where
  timeOffset : Timeval
  /-- Tick interrupts since boot. -/
  interrupts : Nat
  /-- The offset a task has computed and not yet stored. -/
  pending : Task → Option Timeval

inductive Act (Task : Type) where
  | tick
  | setRead (t : Task) (time : Int)
  | setStore (t : Task)

variable {Task : Type} [DecidableEq Task]

/-- The counter of the 32-bit `TickType_t`. -/
def WallClock.xTaskGetTickCount (c : WallClock Task) : Nat := c.interrupts % 2 ^ 32

def WallClock.gettimeofday (rate : Nat) (c : WallClock Task) : Timeval :=
  Clock.gettimeofday rate c.timeOffset c.xTaskGetTickCount

/-- `SetSystemClockTime` up to the computed offset. -/
def WallClock.setRead (rate : Nat) (c : WallClock Task) (t : Task) (time : Int) : WallClock Task :=
  { c with
    pending := Function.update c.pending t (some (setOffset rate time c.xTaskGetTickCount)) }

/-- `wall_clock::time({sec, usec})`. -/
def WallClock.setStore (c : WallClock Task) (t : Task) (offset : Timeval) : WallClock Task :=
  { c with timeOffset := offset, pending := Function.update c.pending t none }

def next (rate : Nat) (c : WallClock Task) : Act Task → Option (WallClock Task)
  | .tick => some { c with interrupts := c.interrupts + 1 }
  | .setRead t time => if c.pending t = none then some (c.setRead rate t time) else none
  | .setStore t => (c.pending t).map (c.setStore t)

/-- The clock at boot. -/
def boot : WallClock Task where
  timeOffset := ⟨0, 0⟩
  interrupts := 0
  pending := fun _ => none

def system (Task : Type) [DecidableEq Task] (rate : Nat) :
    Transition.System (WallClock Task) (Act Task) where
  start c := c = boot
  next := next rate

/-- The action stores no offset. -/
def noStore (_ : WallClock Task) : Act Task → Bool
  | .setStore _ => false
  | _ => true

/-- The action is no part of a call by this task. -/
def notBy (t : Task) (_ : WallClock Task) : Act Task → Bool
  | .tick => true
  | .setRead u _ => u ≠ t
  | .setStore u => u ≠ t

/-- Every offset stored or about to be stored came out of `SetSystemClockTime`. -/
structure Kept (c : WallClock Task) : Prop where
  offset : c.timeOffset.InRange
  pending : ∀ t offset, c.pending t = some offset → offset.InRange

variable {rate : Nat} {c c' : WallClock Task} {a : Act Task}
  {trace : Transition.Trace (WallClock Task) (Act Task)}

omit [DecidableEq Task] in
theorem kept_boot : Kept (boot : WallClock Task) where
  offset := Nat.zero_le _
  pending t offset h := by cases h

theorem cases_of_next (hNext : next rate c a = some c') :
    (a = .tick ∧ c' = { c with interrupts := c.interrupts + 1 }) ∨
    (∃ t time, a = .setRead t time ∧ c' = c.setRead rate t time) ∨
    (∃ t offset, a = .setStore t ∧ c.pending t = some offset ∧ c' = c.setStore t offset) := by
  cases a with
  | tick => exact .inl ⟨rfl, by simpa [next] using hNext.symm⟩
  | setRead t time =>
      simp only [next, Option.ite_none_right_eq_some, Option.some.injEq] at hNext
      exact .inr (.inl ⟨t, time, rfl, hNext.2.symm⟩)
  | setStore t =>
      simp only [next, Option.map_eq_some_iff] at hNext
      obtain ⟨offset, hStored, rfl⟩ := hNext
      exact .inr (.inr ⟨t, offset, rfl, hStored, rfl⟩)

/-- A property of the stored offset, and of those about to be stored, stays when
each new one has it. -/
theorem offsets_of_next {P : Timeval → Prop} (hStored : P c.timeOffset)
    (hPending : ∀ t offset, c.pending t = some offset → P offset)
    (hNew : ∀ t time, a = .setRead t time → P (setOffset rate time c.xTaskGetTickCount))
    (hNext : next rate c a = some c') :
    P c'.timeOffset ∧ ∀ t offset, c'.pending t = some offset → P offset := by
  obtain ⟨rfl, rfl⟩ | ⟨t, time, rfl, rfl⟩ | ⟨t, stored, rfl, hOld, rfl⟩ := cases_of_next hNext
  · exact ⟨hStored, hPending⟩
  · refine ⟨hStored, fun u offset hLater => ?_⟩
    rcases eq_or_ne u t with rfl | hOther
    · simp only [WallClock.setRead, Function.update_self, Option.some.injEq] at hLater
      exact hLater ▸ hNew u time rfl
    · exact hPending u offset (by simpa [WallClock.setRead, hOther] using hLater)
  · refine ⟨hPending t stored hOld, fun u offset hLater => ?_⟩
    rcases eq_or_ne u t with rfl | hOther
    · simp [WallClock.setStore] at hLater
    · exact hPending u offset (by simpa [WallClock.setStore, hOther] using hLater)

theorem Kept.step (h : Kept c) (hNext : next rate c a = some c') : Kept c' := by
  obtain ⟨hOffset, hPending⟩ := offsets_of_next h.offset h.pending
    (fun _ time _ => setOffset_inRange rate time _) hNext
  exact ⟨hOffset, hPending⟩

theorem kept_of_reaches (hRun : (system Task rate).Reaches trace c) : Kept c := by
  obtain ⟨s, rfl, run⟩ := hRun
  exact run.invariant (C := fun _ _ => true) (fun _ _ => rfl) kept_boot
    fun t a u h _ hNext => h.step hNext

/-- Interrupts are never taken back. -/
theorem interrupts_le (run : (system Task rate).Run c trace c') : c.interrupts ≤ c'.interrupts := by
  refine run.invariant (P := fun d => c.interrupts ≤ d.interrupts) (C := fun _ _ => true)
    (fun _ _ => rfl) (Nat.le_refl _) fun d a e h _ hNext => Nat.le_trans h ?_
  obtain ⟨rfl, rfl⟩ | ⟨t, time, rfl, rfl⟩ | ⟨t, stored, rfl, _, rfl⟩ := cases_of_next hNext
  · exact Nat.le_succ _
  · exact Nat.le_refl _
  · exact Nat.le_refl _

/-- Without a store the offset stays. -/
theorem timeOffset_of_noStore (run : (system Task rate).Run c trace c')
    (hGuard : Transition.Guarded noStore trace) : c'.timeOffset = c.timeOffset := by
  refine run.invariant (P := fun d => d.timeOffset = c.timeOffset) hGuard rfl
    fun d a e h hStore hNext => Eq.trans ?_ h
  obtain ⟨rfl, rfl⟩ | ⟨t, time, rfl, rfl⟩ | ⟨t, stored, rfl, _, rfl⟩ := cases_of_next hNext
  · rfl
  · rfl
  · cases hStore

/-- The offset a task has computed waits for that task. -/
theorem pending_of_notBy {t : Task} (run : (system Task rate).Run c trace c')
    (hGuard : Transition.Guarded (notBy t) trace) : c'.pending t = c.pending t := by
  refine run.invariant (P := fun d => d.pending t = c.pending t) hGuard rfl
    fun d a e h hBy hNext => Eq.trans ?_ h
  obtain ⟨rfl, rfl⟩ | ⟨u, time, rfl, rfl⟩ | ⟨u, stored, rfl, _, rfl⟩ := cases_of_next hNext
  · rfl
  all_goals
    have hOther : t ≠ u := fun hEq => by simp [notBy, hEq] at hBy
    simp [WallClock.setRead, WallClock.setStore, hOther]

/-- `configTICK_RATE_HZ` of every configuration. -/
def configTickRateHz : Nat := 1000

omit [DecidableEq Task] in
/-- What a read reports, in microseconds. -/
theorem Kept.micros (h : Kept c) :
    (c.gettimeofday configTickRateHz).micros =
      c.timeOffset.micros + c.xTaskGetTickCount * 1000 := by
  rw [WallClock.gettimeofday, micros_gettimeofday _ h.offset, configTickRateHz, pdTicksToMs_1000]

/-- The offset in force after a call of `SetSystemClockTime` whose store is the
last one: the one computed from the tick count that this call read. -/
theorem timeOffset_after_set {mid rest : Transition.Trace (WallClock Task) (Act Task)}
    {c c₁ c₂ c₃ c₄ : WallClock Task} {t : Task} {time : Int}
    (hRead : next rate c (.setRead t time) = some c₁) (hMid : (system Task rate).Run c₁ mid c₂)
    (hCall : Transition.Guarded (notBy t) mid) (hStore : next rate c₂ (.setStore t) = some c₃)
    (hRest : (system Task rate).Run c₃ rest c₄) (hLast : Transition.Guarded noStore rest) :
    c₄.timeOffset = setOffset rate time c.xTaskGetTickCount := by
  simp only [next, Option.ite_none_right_eq_some, Option.some.injEq] at hRead
  obtain ⟨_, rfl⟩ := hRead
  have hPending := pending_of_notBy hMid hCall
  simp only [WallClock.setRead, Function.update_self] at hPending
  simp only [next, hPending, Option.map_some, Option.some.injEq] at hStore
  rw [timeOffset_of_noStore hRest hLast, ← hStore, WallClock.setStore]

/-- A set at one tick count, and a read at another one with no other store
since, wherever the counter has wrapped before or in between. Earlier sets, and
sets that are stored before this one, do not matter. The narrowing to `long`
changes neither value. -/
theorem gettimeofday_after_set {past mid rest : Transition.Trace (WallClock Task) (Act Task)}
    {c c₁ c₂ c₃ c₄ : WallClock Task} {t : Task} {time : Int}
    (hPast : (system Task configTickRateHz).Reaches past c)
    (hLow : -2 ^ 63 ≤ time - c.xTaskGetTickCount * 1000000)
    (hHigh : time - c.xTaskGetTickCount * 1000000 < 2 ^ 63)
    (hRead : next configTickRateHz c (.setRead t time) = some c₁)
    (hMid : (system Task configTickRateHz).Run c₁ mid c₂) (hCall : Transition.Guarded (notBy t) mid)
    (hStore : next configTickRateHz c₂ (.setStore t) = some c₃)
    (hRest : (system Task configTickRateHz).Run c₃ rest c₄)
    (hLast : Transition.Guarded noStore rest) :
    (1000 * (c₄.gettimeofday configTickRateHz).micros -
        (time + ((c₄.xTaskGetTickCount : Int) - c.xTaskGetTickCount) * 1000000)).natAbs < 1000 ∧
      long (setUsec (delta configTickRateHz time c.xTaskGetTickCount)) =
        setUsec (time - c.xTaskGetTickCount * 1000000) ∧
      long (getUsec (pdTicksToMs configTickRateHz c₄.xTaskGetTickCount)) =
        getUsec c₄.xTaskGetTickCount := by
  have hBefore : (system Task configTickRateHz).Run c _ c₂ :=
    ((Transition.System.Run.nil c).snoc (a := Act.setRead t time) hRead).append hMid
  have hSet : (system Task configTickRateHz).Run c _ c₄ :=
    (hBefore.snoc (a := Act.setStore t) hStore).append hRest
  have hKept := kept_of_reaches (hPast.append hSet)
  have hDelta : delta configTickRateHz time c.xTaskGetTickCount =
      time - c.xTaskGetTickCount * 1000000 := by
    rw [delta, configTickRateHz, pdTicksToMs_1000, longLong_of_bounds hLow hHigh]
  refine ⟨?_, ?_, ?_⟩
  · have hOffset := timeOffset_after_set hRead hMid hCall hStore hRest hLast
    have hTrunc := tdiv_bounds (time - c.xTaskGetTickCount * 1000000) (k := 1000) (by decide)
    rw [hKept.micros, hOffset, micros_setOffset, hDelta]
    omega
  · rw [hDelta]
    exact long_of_natAbs_le (Nat.le_trans (natAbs_setUsec_le _) (by decide))
  · rw [configTickRateHz, pdTicksToMs_1000]
    have hBounds := getUsec_bounds (Int.natCast_nonneg c₄.xTaskGetTickCount)
    exact long_of_natAbs_le (by omega)

/-- Task 0 sets a time before the boot of the clock while task 1 sets another. -/
theorem gettimeofday_after_set_overlap :
    ∃ c c₄ : WallClock (Fin 2), c.xTaskGetTickCount = 2 ∧ c₄.xTaskGetTickCount = 4 ∧
      (1000 * (c₄.gettimeofday configTickRateHz).micros -
          (-1500 + ((c₄.xTaskGetTickCount : Int) - c.xTaskGetTickCount) * 1000000)).natAbs < 1000 ∧
        long (setUsec (delta configTickRateHz (-1500) c.xTaskGetTickCount)) =
          setUsec (-1500 - c.xTaskGetTickCount * 1000000) ∧
        long (getUsec (pdTicksToMs configTickRateHz c₄.xTaskGetTickCount)) =
          getUsec c₄.xTaskGetTickCount :=
  ⟨_, _, rfl, rfl, gettimeofday_after_set (t := (0 : Fin 2))
    ⟨boot, rfl, Transition.System.run_of_exec [.tick, .tick] rfl⟩ (by decide) (by decide) rfl
    (Transition.System.run_of_exec [.setRead 1 7, .tick, .setStore 1] rfl) (by decide) rfl
    (Transition.System.run_of_exec [.setRead 1 9, .tick] rfl) (by decide)⟩

/-- Two reads with no store between them are as far apart as the ticks that
elapsed exactly when the tick counter did not wrap in between. -/
theorem gettimeofday_between_iff {past rest : Transition.Trace (WallClock Task) (Act Task)}
    (hPast : (system Task configTickRateHz).Reaches past c)
    (hRest : (system Task configTickRateHz).Run c rest c')
    (hLast : Transition.Guarded noStore rest) :
    ((c.gettimeofday configTickRateHz).micros ≤ (c'.gettimeofday configTickRateHz).micros ∧
      (c'.gettimeofday configTickRateHz).micros - (c.gettimeofday configTickRateHz).micros =
        (c'.interrupts - c.interrupts) * 1000) ↔
      c'.interrupts / 2 ^ 32 = c.interrupts / 2 ^ 32 := by
  have hMono := interrupts_le hRest
  rw [(kept_of_reaches hPast).micros, (kept_of_reaches (hPast.append hRest)).micros,
    timeOffset_of_noStore hRest hLast, WallClock.xTaskGetTickCount, WallClock.xTaskGetTickCount]
  omega

/-- The clock runs for any number of ticks, and nothing but ticks. -/
theorem run_only_ticks (c : WallClock Task) (n : Nat) :
    ∃ trace, (system Task rate).Run c trace { c with interrupts := c.interrupts + n } ∧
      ∀ step ∈ trace, step.2 = .tick := by
  induction n with
  | zero => exact ⟨[], .nil c, by simp⟩
  | succ n ih =>
      obtain ⟨trace, run, hTicks⟩ := ih
      refine ⟨trace ++ [(_, .tick)], run.snoc rfl, fun step hMem => ?_⟩
      rcases List.mem_append.mp hMem with hOld | hNew
      · exact hTicks step hOld
      · rw [List.mem_singleton.mp hNew]

theorem run_ticks (c : WallClock Task) (n : Nat) :
    ∃ trace, (system Task rate).Run c trace { c with interrupts := c.interrupts + n } ∧
      Transition.Guarded noStore trace := by
  obtain ⟨trace, run, hTicks⟩ := @run_only_ticks Task _ rate c n
  exact ⟨trace, run, fun step hMem => by simp [noStore, hTicks step hMem]⟩

/-- One tick interrupt after the counter's last value the clock is back at
the offset. -/
theorem gettimeofday_wraps :
    ¬ ∀ past rest c c', (system Unit configTickRateHz).Reaches past c →
      (system Unit configTickRateHz).Run c rest c' → Transition.Guarded noStore rest →
      (c.gettimeofday configTickRateHz).micros ≤ (c'.gettimeofday configTickRateHz).micros ∧
        (c'.gettimeofday configTickRateHz).micros - (c.gettimeofday configTickRateHz).micros =
          (c'.interrupts - c.interrupts) * 1000 := by
  intro hClaim
  obtain ⟨past, run, _⟩ := @run_ticks Unit _ configTickRateHz boot (2 ^ 32 - 1)
  have hTick := hClaim past _ _ _ ⟨boot, rfl, run⟩ ((Transition.System.Run.nil _).snoc (a := .tick) rfl)
    (by simp [Transition.Guarded, noStore])
  exact absurd hTick.1 (by decide)

def setThenTicks : List (Act Unit) := [.tick, .setRead () 0, .tick, .setStore ()]

theorem gettimeofday_between_iff_ticks :
    ∃ c c' : WallClock Unit, c'.interrupts = c.interrupts + 2 ∧
      (((c.gettimeofday configTickRateHz).micros ≤ (c'.gettimeofday configTickRateHz).micros ∧
        (c'.gettimeofday configTickRateHz).micros - (c.gettimeofday configTickRateHz).micros =
          (c'.interrupts - c.interrupts) * 1000) ↔
        c'.interrupts / 2 ^ 32 = c.interrupts / 2 ^ 32) :=
  ⟨_, _, rfl, gettimeofday_between_iff
    ⟨boot, rfl, Transition.System.run_of_exec setThenTicks rfl⟩
    (Transition.System.run_of_exec [.tick, .tick] rfl) (by decide)⟩

end FreeRtos.Clock
