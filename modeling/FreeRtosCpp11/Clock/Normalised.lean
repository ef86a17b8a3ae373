import FreeRtosCpp11.Clock.Runs

/-! The microseconds that `_gettimeofday` reports. The addition carries only
upwards, so a reported time is normalised if the stored offset is; that depends
on the sign of the difference between the time set and the uptime. -/
namespace FreeRtos.Clock

variable {Task : Type} [DecidableEq Task]

/-- A `timeval` as its readers expect it. -/
def Timeval.Normalised (t : Timeval) : Prop := 0 ≤ t.tv_usec ∧ t.tv_usec < 1000000

instance (t : Timeval) : Decidable t.Normalised :=
  inferInstanceAs (Decidable (_ ∧ _))

/-- The nanoseconds by which the uptime exceeds a time that is set. -/
def lag (rate : Nat) (time : Int) (ticks : Nat) : Int := pdTicksToMs rate ticks * 1000000 - time

/-- The time set is not before the uptime, or before it by whole seconds up to
less than a microsecond; a `system_clock::duration` holds the difference. -/
def SetsWholeSeconds (rate : Nat) (time : Int) (ticks : Nat) : Prop :=
  (-2 ^ 63 < lag rate time ticks ∧ lag rate time ticks ≤ 2 ^ 63) ∧
    (lag rate time ticks ≤ 0 ∨ lag rate time ticks % 1000000000 < 1000)

instance (rate : Nat) (time : Int) (ticks : Nat) : Decidable (SetsWholeSeconds rate time ticks) :=
  inferInstanceAs (Decidable (_ ∧ _))

/-- Every time that is set is such a time. -/
def setsWholeSeconds (rate : Nat) (c : WallClock Task) : Act Task → Bool
  | .setRead _ time => SetsWholeSeconds rate time c.xTaskGetTickCount
  | _ => true

theorem setUsec_of_nonneg {d : Int} (h : 0 ≤ d) : setUsec d = d / 1000 % 1000000 := by
  rw [setUsec, Int.tdiv_eq_ediv_of_nonneg h, Int.tdiv_eq_ediv_of_nonneg h]
  omega

theorem setUsec_of_nonpos {d : Int} (h : d ≤ 0) : setUsec d = -(-d / 1000 % 1000000) := by
  have hNeg (k : Int) : d.tdiv k = -(-d / k) := by
    rw [← Int.tdiv_eq_ediv_of_nonneg (by omega), Int.neg_tdiv, Int.neg_neg]
  rw [setUsec, hNeg, hNeg]
  omega

/-- The sign of the stored microseconds is that of the difference. -/
theorem setUsec_nonneg_iff (d : Int) : 0 ≤ setUsec d ↔ 0 ≤ d ∨ -d % 1000000000 < 1000 := by
  rcases Int.le_total 0 d with hForward | hBack
  · rw [setUsec_of_nonneg hForward]
    omega
  · rw [setUsec_of_nonpos hBack]
    omega

theorem setUsec_lt (d : Int) : setUsec d < 1000000 := by
  rcases Int.le_total 0 d with hForward | hBack
  · rw [setUsec_of_nonneg hForward]
    omega
  · rw [setUsec_of_nonpos hBack]
    omega

/-- The microseconds that a set stores, where the duration type holds the difference. -/
theorem setOffset_usec {rate ticks : Nat} {time : Int}
    (hRange : -2 ^ 63 < lag rate time ticks ∧ lag rate time ticks ≤ 2 ^ 63) :
    (setOffset rate time ticks).tv_usec = setUsec (-lag rate time ticks) := by
  have hDelta : delta rate time ticks = -lag rate time ticks := by
    unfold lag at hRange ⊢
    rw [delta, longLong_of_bounds (by omega) (by omega)]
    omega
  have hBound := natAbs_setUsec_le (delta rate time ticks)
  rw [setOffset, long_of_natAbs_le (by omega), hDelta]

theorem setOffset_usec_nonneg_iff {rate ticks : Nat} {time : Int}
    (hRange : -2 ^ 63 < lag rate time ticks ∧ lag rate time ticks ≤ 2 ^ 63) :
    0 ≤ (setOffset rate time ticks).tv_usec ↔ SetsWholeSeconds rate time ticks := by
  rw [setOffset_usec hRange, setUsec_nonneg_iff, Int.neg_neg]
  unfold SetsWholeSeconds
  omega

theorem SetsWholeSeconds.normalised {rate ticks : Nat} {time : Int}
    (h : SetsWholeSeconds rate time ticks) : (setOffset rate time ticks).Normalised := by
  refine ⟨(setOffset_usec_nonneg_iff h.1).mpr h, ?_⟩
  rw [setOffset_usec h.1]
  exact setUsec_lt _

/-- The carry normalises the sum of normalised times. -/
theorem Timeval.Normalised.add {l r : Timeval} (hl : l.Normalised) (hr : r.Normalised) :
    (l.add r).Normalised := by
  unfold Normalised at hl hr
  rw [Timeval.add, long_of_natAbs_le (by omega)]
  split
  all_goals
    simp only at *
    simp only [Normalised]
    omega

theorem gettimeofday_normalised {offset : Timeval} (h : offset.Normalised) (rate ticks : Nat) :
    (Clock.gettimeofday rate offset ticks).Normalised := by
  have hUsec := getUsec_bounds (pdTicksToMs_nonneg rate ticks)
  apply h.add
  simp only [Timeval.Normalised]
  rw [long_of_natAbs_le (by omega)]
  exact hUsec

/-- Every offset stored or about to be stored is normalised. -/
structure KeptNormalised (c : WallClock Task) : Prop where
  offset : c.timeOffset.Normalised
  pending : ∀ t offset, c.pending t = some offset → offset.Normalised

variable {rate : Nat} {c c' : WallClock Task} {a : Act Task}
  {trace : Transition.Trace (WallClock Task) (Act Task)}

omit [DecidableEq Task] in
theorem keptNormalised_boot : KeptNormalised (boot : WallClock Task) where
  offset := ⟨Int.le_refl 0, Int.lt_toNat.mp (by decide)⟩
  pending t offset h := by cases h

theorem KeptNormalised.step (h : KeptNormalised c) (hGuard : setsWholeSeconds rate c a)
    (hNext : next rate c a = some c') : KeptNormalised c' := by
  have hNew : ∀ t time, a = .setRead t time → (setOffset rate time c.xTaskGetTickCount).Normalised := by
    rintro t time rfl
    have hSets : SetsWholeSeconds rate time c.xTaskGetTickCount := of_decide_eq_true hGuard
    exact hSets.normalised
  obtain ⟨hOffset, hPending⟩ := offsets_of_next h.offset h.pending hNew hNext
  exact ⟨hOffset, hPending⟩

/-- The clock reports normalised times as long as it is not set to a time
before the uptime, whole seconds apart from that. -/
theorem normalised_of_setsWholeSeconds (hRun : (system Task rate).Reaches trace c)
    (hSets : Transition.Guarded (setsWholeSeconds rate) trace) : (c.gettimeofday rate).Normalised := by
  obtain ⟨s, rfl, run⟩ := hRun
  have hKept := run.invariant hSets keptNormalised_boot fun t a u h hGuard hNext => h.step hGuard hNext
  exact gettimeofday_normalised hKept.offset rate _

/-- Ticks of a second each: task 0 sets the clock a second back. -/
theorem normalised_of_setsWholeSeconds_seconds :
    ∃ c : WallClock (Fin 2), c.interrupts = 3 ∧ c.timeOffset = ⟨-1, 0⟩ ∧
      (c.gettimeofday 1000000).Normalised :=
  ⟨_, rfl, by decide, normalised_of_setsWholeSeconds
    ⟨boot, rfl, Transition.System.run_of_exec
      [.tick, .setRead 1 2500000000, .tick, .setRead 0 1000000000, .setStore 1, .setStore 0, .tick] rfl⟩
    (by decide)⟩

/-- Any other time, once it is stored, is followed by a reading that is not
normalised: at the latest when the tick counter is zero again. -/
theorem exists_not_normalised {t : Task} {time : Int} (hFree : c.pending t = none)
    (hRange : -2 ^ 63 < lag rate time c.xTaskGetTickCount ∧ lag rate time c.xTaskGetTickCount ≤ 2 ^ 63)
    (hBack : ¬ SetsWholeSeconds rate time c.xTaskGetTickCount) :
    ∃ c₁ c₂ c₃ rest, next rate c (.setRead t time) = some c₁ ∧ next rate c₁ (.setStore t) = some c₂ ∧
      (system Task rate).Run c₂ rest c₃ ∧ Transition.Guarded noStore rest ∧
      ¬ (c₃.gettimeofday rate).Normalised := by
  let offset := setOffset rate time c.xTaskGetTickCount
  have hNegative : offset.tv_usec < 0 := by
    rw [← setOffset_usec_nonneg_iff hRange] at hBack
    exact Int.not_le.mp hBack
  have hBound : offset.tv_usec.natAbs ≤ 1000000 := setOffset_inRange rate time _
  obtain ⟨rest, run, hGuard⟩ := @run_ticks Task _ rate ((c.setRead rate t time).setStore t offset)
    (2 ^ 32 - c.interrupts % 2 ^ 32)
  refine ⟨c.setRead rate t time, (c.setRead rate t time).setStore t offset, _, rest,
    by simp [next, hFree], by simp [next, WallClock.setRead, offset], run, hGuard, ?_⟩
  have hTicks : (c.interrupts + (2 ^ 32 - c.interrupts % 2 ^ 32)) % 2 ^ 32 = 0 := by omega
  have hRead : Clock.gettimeofday rate offset 0 = offset.add ⟨0, 0⟩ := by
    rw [gettimeofday, pdTicksToMs]
    simp [getUsec, long]
  simp only [WallClock.gettimeofday, WallClock.xTaskGetTickCount, WallClock.setStore, WallClock.setRead]
  rw [hTicks, hRead, Timeval.add, long_of_natAbs_le (by simp only; omega)]
  split
  all_goals
    simp only at *
    simp only [Timeval.Normalised]
    omega

/-- The times that are set are not before the epoch. -/
def fromEpoch (_ : WallClock Task) : Act Task → Bool
  | .setRead _ time => 0 ≤ time
  | _ => true

/-- After a second of uptime the clock is set to half a second past the epoch. -/
theorem gettimeofday_negative :
    ¬ ∀ trace c, (system Unit configTickRateHz).Reaches trace c →
      Transition.Guarded fromEpoch trace → (c.gettimeofday configTickRateHz).Normalised := by
  intro hClaim
  obtain ⟨past, run, hTicks⟩ := @run_only_ticks Unit _ configTickRateHz boot 1000
  have hRead := run.snoc (a := .setRead () 500000000) rfl
  have hStore := hRead.snoc (a := .setStore ()) rfl
  have hEpoch : Transition.Guarded fromEpoch past := fun step hMem => by
    simp [fromEpoch, hTicks step hMem]
  have hReported := hClaim _ _ ⟨boot, rfl, hStore⟩ ((hEpoch.snoc rfl).snoc rfl)
  exact absurd hReported.1 (by decide)

end FreeRtos.Clock
