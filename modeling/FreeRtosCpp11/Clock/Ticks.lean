import FreeRtosCpp11.Clock.Runs

/-! Milliseconds to ticks and back. `pdMS_TO_TICKS` of `projdefs.h` is the same
for every port; `pdTICKS_TO_MS` comes from the configuration headers. Both are
taken at any tick rate. -/
namespace FreeRtos.Clock

/-- Conversion to the unsigned 32-bit `TickType_t`. -/
def tickType (x : Int) : Nat := (x % 2 ^ 32).toNat

/-- The macro of `projdefs.h`; the product is one of `TickType_t`. -/
def pdMsToTicks (rate : Nat) (ms : Int) : Nat :=
  tickType (tickType ms * tickType rate) / tickType 1000

theorem tickType_cast (x : Int) : (tickType x : Int) = x % 2 ^ 32 :=
  Int.toNat_of_nonneg (Int.emod_nonneg x (by decide))

theorem tickType_of_bounds {x : Int} (hLow : 0 ≤ x) (hHigh : x < 2 ^ 32) : (tickType x : Int) = x := by
  rw [tickType_cast, Int.emod_eq_of_lt hLow hHigh]

/-- Narrowing the operands does not change the narrowed product. -/
theorem pdMsToTicks_eq (rate : Nat) (ms : Int) :
    pdMsToTicks rate ms = tickType (ms * rate) / 1000 := by
  have hProduct : tickType (tickType ms * tickType rate) = tickType (ms * rate) := by
    have h : (tickType ms * tickType rate : Int) % 2 ^ 32 = ms * rate % 2 ^ 32 := by
      rw [tickType_cast, tickType_cast, ← Int.mul_emod]
    rw [tickType, h, tickType]
  rw [pdMsToTicks, hProduct]
  rfl

/-- A product that the tick type can represent. -/
theorem pdMsToTicks_of_lt {rate ms : Nat} (h : ms * rate < 2 ^ 32) :
    pdMsToTicks rate ms = ms * rate / 1000 := by
  have hProduct := tickType_of_bounds (x := (ms * rate : Nat)) (by omega) (by omega)
  have hNarrow : tickType ((ms * rate : Nat) : Int) = ms * rate := by omega
  rw [pdMsToTicks_eq, ← Int.natCast_mul, hNarrow]

theorem pdTicksToMs_eq (rate ticks : Nat) : pdTicksToMs rate ticks = (ticks * rate / 1000 : Nat) := by
  rw [pdTicksToMs, ← Int.natCast_mul, Int.tdiv_eq_ediv_of_nonneg (Int.natCast_nonneg _)]
  rfl

/-- Where the two conversions are close to inverse. The macros multiply by the
rate twice, so a duration is scaled by the square of `rate / 1000`. -/
def Inverts (rate ms : Nat) : Prop :=
  if 1000 < rate then ms * (rate - 1000) < 1000
  else ms * (1000 - rate) ≤ 1000 ∨ (ms - 1) * rate < 1000

instance (rate ms : Nat) : Decidable (Inverts rate ms) := by
  unfold Inverts
  infer_instance

/-- Above 1000 Hz a duration comes back longer as soon as the excess ticks of
one conversion reach a millisecond. -/
theorem roundTrip_fast {rate ms : Nat} (hFast : 1000 < rate) :
    (ms * rate / 1000 * rate / 1000 ≤ ms ∧
      (ms - ms * rate / 1000 * rate / 1000) * rate < 1000 + rate) ↔ ms * (rate - 1000) < 1000 := by
  obtain ⟨excess, rfl⟩ := Nat.exists_eq_add_of_lt hFast
  have hTicks : ms * (1000 + excess + 1) = 1000 * ms + ms * (excess + 1) := by
    rw [Nat.add_assoc, Nat.mul_add, Nat.mul_comm ms 1000]
  have hBack (ticks : Nat) : ticks ≤ ticks * (1000 + excess + 1) / 1000 := by
    rw [Nat.le_div_iff_mul_le (by decide)]
    exact Nat.mul_le_mul_left _ (by omega)
  have hExcess : 1000 + excess + 1 - 1000 = excess + 1 := by omega
  rw [hExcess]
  constructor
  · intro h
    have hLonger := hBack (ms * (1000 + excess + 1) / 1000)
    omega
  · intro h
    have hSame : ms * (1000 + excess + 1) / 1000 = ms := by omega
    rw [hSame, hSame, Nat.sub_self, Nat.zero_mul]
    omega

/-- At most 1000 Hz a duration never comes back longer. -/
theorem roundTrip_le {rate : Nat} (hSlow : rate ≤ 1000) (ms : Nat) :
    ms * rate / 1000 * rate / 1000 ≤ ms := by
  have hScale (n : Nat) : n * rate / 1000 ≤ n := by
    rw [Nat.div_le_iff_le_mul_add_pred (by decide)]
    have h := Nat.mul_le_mul_left n hSlow
    omega
  exact Nat.le_trans (hScale _) (hScale _)

/-- What the ticks of a duration lack to a tick each millisecond. -/
theorem ticks_add_lost {rate loss : Nat} (hLoss : 1000 = rate + loss) (ms : Nat) :
    ms * rate + ms * loss = 1000 * ms := by
  rw [← Nat.mul_add, ← hLoss, Nat.mul_comm]

/-- A duration that one conversion shortens by at most a millisecond. -/
theorem roundTrip_slow_of_near {rate ms : Nat} (hSlow : rate ≤ 1000) (hNear : ms * (1000 - rate) ≤ 1000) :
    (ms - ms * rate / 1000 * rate / 1000) * rate < 1000 + rate := by
  obtain ⟨loss, hLoss⟩ := Nat.exists_eq_add_of_le hSlow
  have hSub : 1000 - rate = loss := by omega
  rw [hSub] at hNear
  generalize hTicks : ms * rate / 1000 = ticks
  have hFew : ticks * loss + (ms - ticks) * loss = ms * loss := by
    have hLe : ticks ≤ ms := by
      have h := ticks_add_lost hLoss ms
      omega
    rw [← Nat.add_mul, Nat.add_sub_cancel' hLe]
  have hThere := ticks_add_lost hLoss ms
  have hBack := ticks_add_lost hLoss ticks
  have hDiff : ms - ticks * rate / 1000 ≤ 2 := by
    rcases Nat.eq_zero_or_pos (ms - ticks) with hNone | hSome
    · omega
    · have h := Nat.mul_le_mul_right loss hSome
      omega
  have hFull : rate = 1000 → ms - ticks * rate / 1000 = 0 := by
    rintro rfl
    omega
  generalize ms - ticks * rate / 1000 = short at hDiff hFull
  rcases Nat.eq_or_lt_of_le hSlow with hEq | hLt
  · rw [hFull hEq]
    omega
  · have h := Nat.mul_le_mul_right rate hDiff
    omega

/-- A duration at most a millisecond longer than a tick period. -/
theorem roundTrip_slow_of_short {rate ms : Nat} (hShort : (ms - 1) * rate < 1000) :
    (ms - ms * rate / 1000 * rate / 1000) * rate < 1000 + rate := by
  have hLess := Nat.mul_le_mul_right rate (Nat.sub_le ms (ms * rate / 1000 * rate / 1000))
  have hPeriod : ms * rate ≤ (ms - 1) * rate + rate := by
    rw [← Nat.succ_mul]
    exact Nat.mul_le_mul_right rate (by omega)
  omega

/-- Any other duration loses more, when a tick is at least two milliseconds. -/
theorem roundTrip_slow_far {rate ms : Nat} (hRate : 0 < rate) (hSlow : 2 * rate ≤ 1000)
    (hLong : 1000 ≤ (ms - 1) * rate) :
    1000 + rate ≤ (ms - ms * rate / 1000 * rate / 1000) * rate := by
  generalize hPeriod : (999 + rate) / rate = period
  have hCeil : 1000 ≤ period * rate ∧ period * rate < 1000 + rate := by
    have hDiv := Nat.div_add_mod' (999 + rate) rate
    have hMod := Nat.mod_lt (999 + rate) hRate
    rw [hPeriod] at hDiv
    omega
  have hPos : 0 < ms := by
    by_contra hZero
    simp [Nat.eq_zero_of_not_pos hZero] at hLong
  have hMore : period + 1 ≤ ms := by
    have hNext : (ms - 1 + 1) * rate = (ms - 1) * rate + rate := by
      rw [Nat.add_mul, Nat.one_mul]
    have h : period * rate < (ms - 1 + 1) * rate := by omega
    have hLt := Nat.lt_of_mul_lt_mul_right h
    omega
  obtain ⟨rest, rfl⟩ := Nat.exists_eq_add_of_le hMore
  have hRest : rest * rate ≤ rest * 500 := Nat.mul_le_mul_left _ (by omega)
  have hSplit : (period + 1 + rest) * rate = period * rate + rate + rest * rate := by
    rw [Nat.add_mul, Nat.succ_mul]
  have hTicks : (period + 1 + rest) * rate / 1000 ≤ rest + 1 := by omega
  have hBack := Nat.mul_le_mul hTicks (Nat.le_refl rate)
  rw [Nat.succ_mul] at hBack
  have hMs : (period + 1 + rest) * rate / 1000 * rate / 1000 ≤ rest := by omega
  have hShort : (period + 1) * rate ≤
      (period + 1 + rest - (period + 1 + rest) * rate / 1000 * rate / 1000) * rate :=
    Nat.mul_le_mul_right rate (by omega)
  rw [Nat.succ_mul] at hShort
  omega

/-- Any other duration loses three milliseconds, when a tick is shorter. -/
theorem roundTrip_fine_far {rate ms : Nat} (hFine : 1000 < 2 * rate) (hSlow : rate ≤ 1000)
    (hFar : 1000 < ms * (1000 - rate)) :
    1000 + rate ≤ (ms - ms * rate / 1000 * rate / 1000) * rate := by
  obtain ⟨loss, hLoss⟩ := Nat.exists_eq_add_of_le hSlow
  have hSub : 1000 - rate = loss := by omega
  rw [hSub] at hFar
  have hThere := ticks_add_lost hLoss ms
  have hBack := ticks_add_lost hLoss (ms * rate / 1000)
  have hTwo : 2 ≤ ms := by
    by_contra hOne
    have h := Nat.mul_le_mul_right loss (show ms ≤ 1 by omega)
    omega
  have hTicks : 1 ≤ ms * rate / 1000 := by
    have h := Nat.mul_le_mul_right rate hTwo
    omega
  have hPos : 0 < loss := by
    rcases Nat.eq_zero_or_pos loss with rfl | h
    · simp at hFar
    · exact h
  have hLost := Nat.mul_pos hTicks hPos
  have hThree := Nat.mul_le_mul_right rate (show 3 ≤ ms - ms * rate / 1000 * rate / 1000 by omega)
  omega

/-- Where the round trip keeps a duration up to one tick and one millisecond. -/
theorem roundTrip_iff {rate : Nat} (hRate : 0 < rate) (ms : Nat) :
    (ms * rate / 1000 * rate / 1000 ≤ ms ∧
      (ms - ms * rate / 1000 * rate / 1000) * rate < 1000 + rate) ↔ Inverts rate ms := by
  unfold Inverts
  split
  · exact roundTrip_fast ‹_›
  · have hSlow : rate ≤ 1000 := by omega
    constructor
    · rintro ⟨_, hShort⟩
      by_contra hFar
      rcases Nat.lt_or_ge 1000 (2 * rate) with hFine | hCoarse
      · have hLong : 1000 < ms * (1000 - rate) := by omega
        have hAtLeast := roundTrip_fine_far hFine hSlow hLong
        omega
      · have hLong : 1000 ≤ (ms - 1) * rate := by omega
        have hAtLeast := roundTrip_slow_far hRate hCoarse hLong
        omega
    · rintro (hNear | hShort)
      · exact ⟨roundTrip_le hSlow ms, roundTrip_slow_of_near hSlow hNear⟩
      · exact ⟨roundTrip_le hSlow ms, roundTrip_slow_of_short hShort⟩

/-- Ticks added to a counter advance the milliseconds by those ticks alone, or
by one more. -/
theorem advance_bounds (rate start ticks : Nat) :
    start * rate / 1000 + ticks * rate / 1000 ≤ (start + ticks) * rate / 1000 ∧
      (start + ticks) * rate / 1000 ≤ start * rate / 1000 + ticks * rate / 1000 + 1 := by
  rw [Nat.add_mul]
  omega

section RoundTrip

variable {Task : Type} [DecidableEq Task]

/-- What the two macros promise each other about a duration in milliseconds. -/
structure RoundTrip (Task : Type) [DecidableEq Task] (rate ms : Nat) : Prop where
  atMost : pdTicksToMs rate (pdMsToTicks rate ms) ≤ ms
  /-- Short by less than one tick period plus one millisecond. -/
  shortBy : (ms - pdTicksToMs rate (pdMsToTicks rate ms)) * rate < 1000 + rate
  /-- The wall clock, read before and after the ticks of the duration, moved by
  the duration up to the same error. -/
  elapsed : ∀ past rest c c', (system Task rate).Reaches past c → (system Task rate).Run c rest c' →
    Transition.Guarded noStore rest → c'.interrupts = c.interrupts + pdMsToTicks rate ms →
    c'.interrupts / 2 ^ 32 = c.interrupts / 2 ^ 32 →
    ((c'.gettimeofday rate).micros - (c.gettimeofday rate).micros - 1000 * ms).natAbs * rate <
      1000 * (1000 + rate)

/-- A clock that reads one millisecond more or less than the truncated ticks
stays within the error of the duration. -/
theorem elapsed_of_short {rate ms back moved : Nat} (hMost : back ≤ ms)
    (hShort : (ms - back) * rate < 1000 + rate) (hMoved : moved = back ∨ moved = back + 1) :
    ((moved : Int) * 1000 - 1000 * ms).natAbs * rate < 1000 * (1000 + rate) := by
  have hError : ((moved : Int) * 1000 - 1000 * ms).natAbs ≤ 1000 * max (ms - back) 1 := by omega
  have hBound := Nat.mul_le_mul_right rate hError
  rw [Nat.mul_assoc] at hBound
  rcases Nat.le_total (ms - back) 1 with hOne | hMany
  · rw [Nat.max_eq_right hOne] at hBound
    omega
  · rw [Nat.max_eq_left hMany] at hBound
    omega

/-- The conversions are inverse to the resolution of a tick and a millisecond
for the durations that `Inverts` names, and for no others. -/
theorem roundTrip_iff_inverts {rate ms : Nat} (hRate : 0 < rate) (hFit : ms * rate < 2 ^ 32) :
    RoundTrip Task rate ms ↔ Inverts rate ms := by
  rw [← roundTrip_iff hRate ms]
  have hTicks := pdMsToTicks_of_lt hFit
  have hBack : pdTicksToMs rate (pdMsToTicks rate ms) = (ms * rate / 1000 * rate / 1000 : Nat) := by
    rw [pdTicksToMs_eq, hTicks]
  generalize ms * rate / 1000 * rate / 1000 = back at hBack ⊢
  constructor
  · intro h
    have hMost := h.atMost
    have hShort := h.shortBy
    rw [hBack] at hMost hShort
    have hMost' : back ≤ ms := by exact_mod_cast hMost
    refine ⟨hMost', ?_⟩
    rw [← Int.natCast_sub hMost', ← Int.natCast_mul] at hShort
    omega
  · rintro ⟨hMost, hShort⟩
    refine ⟨by rw [hBack]; exact_mod_cast hMost, ?_, ?_⟩
    · rw [hBack, ← Int.natCast_sub hMost, ← Int.natCast_mul]
      omega
    · intro past rest c c' hPast hRest hLast hCount hEra
      have hOffset := timeOffset_of_noStore hRest hLast
      have hKept := (kept_of_reaches hPast).offset
      have hStart : c'.xTaskGetTickCount = c.xTaskGetTickCount + pdMsToTicks rate ms := by
        simp only [WallClock.xTaskGetTickCount]
        omega
      have hMoved := advance_bounds rate c.xTaskGetTickCount (pdMsToTicks rate ms)
      have hBackTicks : pdMsToTicks rate ms * rate / 1000 = back := by
        rw [pdTicksToMs_eq] at hBack
        exact_mod_cast hBack
      rw [hBackTicks] at hMoved
      have hRead : (c'.gettimeofday rate).micros - (c.gettimeofday rate).micros =
          (((c.xTaskGetTickCount + pdMsToTicks rate ms) * rate / 1000 -
            c.xTaskGetTickCount * rate / 1000 : Nat) : Int) * 1000 := by
        rw [WallClock.gettimeofday, WallClock.gettimeofday, hOffset, hStart,
          micros_gettimeofday rate hKept, micros_gettimeofday rate hKept, pdTicksToMs_eq, pdTicksToMs_eq]
        omega
      rw [hRead]
      exact elapsed_of_short hMost hShort (by omega)

/-- At 100 Hz a tick of 10 ms comes back as 1 ms. -/
theorem roundTrip_iff_inverts_100 : RoundTrip Unit 100 10 ↔ Inverts 100 10 :=
  roundTrip_iff_inverts (by decide) (by decide)

/-- At 100 Hz a second comes back as 10 ms. -/
theorem roundTrip_second :
    ¬ ∀ rate ms : Nat, 0 < rate → ms * rate < 2 ^ 32 → RoundTrip Unit rate ms := by
  intro hClaim
  have hShort := (hClaim 100 1000 (by decide) (by decide)).shortBy
  exact absurd hShort (by decide)

end RoundTrip

end FreeRtos.Clock
