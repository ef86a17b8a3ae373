import FreeRtosCpp11.Clock.BlockTime

/-! The subtraction of the current time from a deadline. The seconds of a
deadline are narrowed to a `long` when they are stored, while those of the
current time keep 64 bits; the nanoseconds of the difference may have the
opposite sign of its seconds. -/
namespace FreeRtos.Clock

/-- The value is one of `int32_t`. -/
def FitsInt32 (x : Int) : Prop := -2 ^ 31 ≤ x ∧ x < 2 ^ 31

/-- The value is one of `int64_t`. -/
def FitsInt64 (x : Int) : Prop := -2 ^ 63 ≤ x ∧ x < 2 ^ 63

/-- The time as a `__gthread_time_t` holds it: `sec` has the low 32 bits. -/
def GthreadTime.stored (t : GthreadTime) : GthreadTime := { t with sec := long t.sec }

/-- `(deadline - now).milliseconds()`. -/
def millisecondsUntil (deadline : GthreadTime) (now : Timeval) : Int :=
  (deadline.stored.sub now).milliseconds

/-- What the subtraction keeps of the exact time between now and a deadline. -/
structure Exact (deadline : GthreadTime) (now : Timeval) : Prop where
  close : (millisecondsUntil deadline now * 1000000 - remaining deadline now).natAbs < 1000000
  notEarlier : 0 ≤ remaining deadline now → 0 ≤ millisecondsUntil deadline now
  notLater : remaining deadline now ≤ 0 → millisecondsUntil deadline now ≤ 0
  monotone : ∀ later : GthreadTime, 0 ≤ later.nsec ∧ later.nsec < 1000000000 →
    FitsInt32 (later.sec - now.tv_sec) → remaining deadline now ≤ remaining later now →
    millisecondsUntil deadline now ≤ millisecondsUntil later now
  /-- The intermediate values in nanoseconds. -/
  nanoseconds : FitsInt32 (now.tv_usec * 1000) ∧ FitsInt32 (deadline.nsec - now.tv_usec * 1000)
  /-- The seconds overflow 64 bits only for times at the ends of their range. -/
  seconds : now.tv_sec.natAbs ≤ 2 ^ 63 - 2 ^ 31 → FitsInt64 (deadline.stored.sec - now.tv_sec)

variable {deadline later : GthreadTime} {now : Timeval}

theorem long_fitsInt32 (x : Int) : FitsInt32 (long x) :=
  ⟨Int.le_bmod (by decide), Int.bmod_lt (by decide)⟩

/-- Values of `int32_t` that agree in their low 32 bits are the same. -/
theorem long_of_emod_eq {x y : Int} (hSame : x % 2 ^ 32 = y % 2 ^ 32) (hFits : FitsInt32 y) :
    long x = y := by
  have hNarrow := long_emod x
  obtain ⟨hLow, hHigh⟩ := long_fitsInt32 x
  unfold FitsInt32 at hFits
  omega

/-- The milliseconds are those of the true difference, though the deadline
itself may have lost its high bits. -/
theorem millisecondsUntil_eq (hNsec : 0 ≤ deadline.nsec ∧ deadline.nsec < 1000000000)
    (hUsec : 0 ≤ now.tv_usec ∧ now.tv_usec < 1000000)
    (hFits : FitsInt32 (deadline.sec - now.tv_sec)) :
    millisecondsUntil deadline now = wholeMs deadline now := by
  have hSec : (deadline.stored.sub now).sec = deadline.sec - now.tv_sec := by
    apply long_of_emod_eq _ hFits
    have hStored : deadline.stored.sec % 2 ^ 32 = deadline.sec % 2 ^ 32 := long_emod deadline.sec
    rw [longLong_emod]
    omega
  have hNano : (deadline.stored.sub now).nsec = deadline.nsec - now.tv_usec * 1000 :=
    GthreadTime.sub_nsec hNsec hUsec
  rw [millisecondsUntil, GthreadTime.milliseconds, hSec, hNano, wholeMs]

/-- Division of either sign rounds toward zero. -/
theorem tdiv_cases (x k : Int) : (0 ≤ x → x.tdiv k = x / k) ∧ (x < 0 → x.tdiv k = -(-x / k)) := by
  refine ⟨Int.tdiv_eq_ediv_of_nonneg, fun hNegative => ?_⟩
  rw [← Int.neg_neg x, Int.neg_tdiv, Int.tdiv_eq_ediv_of_nonneg (by omega), Int.neg_neg]

/-- The whole milliseconds never have the wrong sign, also where the nanoseconds
and the seconds have opposite ones: seconds are whole milliseconds. -/
theorem wholeMs_sign (deadline : GthreadTime) (now : Timeval) :
    (0 ≤ remaining deadline now → 0 ≤ wholeMs deadline now) ∧
      (remaining deadline now ≤ 0 → wholeMs deadline now ≤ 0) := by
  obtain ⟨hPositive, hNegative⟩ := tdiv_cases (deadline.nsec - now.tv_usec * 1000) 1000000
  unfold remaining wholeMs
  omega

/-- Nor does a later deadline get fewer of them. When its second is a later one
too, the nanoseconds differ by less than that second. -/
theorem wholeMs_mono (hNsec : 0 ≤ deadline.nsec ∧ deadline.nsec < 1000000000)
    (hLater : 0 ≤ later.nsec ∧ later.nsec < 1000000000)
    (hOrder : remaining deadline now ≤ remaining later now) :
    wholeMs deadline now ≤ wholeMs later now := by
  unfold remaining at hOrder
  unfold wholeMs
  rcases Int.lt_trichotomy deadline.sec later.sec with hLess | hSame | hMore
  · obtain ⟨hPositive, hNegative⟩ := tdiv_cases (deadline.nsec - now.tv_usec * 1000) 1000000
    obtain ⟨hPositive', hNegative'⟩ := tdiv_cases (later.nsec - now.tv_usec * 1000) 1000000
    omega
  · have hNano := Int.tdiv_le_tdiv (a := deadline.nsec - now.tv_usec * 1000)
      (b := later.nsec - now.tv_usec * 1000) (c := 1000000) (by decide) (by omega)
    omega
  · omega

/-- The subtraction is exact in 32 bits for every deadline within 68 years of
the current time, whichever seconds the two have. -/
theorem exact_of_fits (hNsec : 0 ≤ deadline.nsec ∧ deadline.nsec < 1000000000)
    (hUsec : 0 ≤ now.tv_usec ∧ now.tv_usec < 1000000)
    (hFits : FitsInt32 (deadline.sec - now.tv_sec)) : Exact deadline now := by
  have hMs := millisecondsUntil_eq hNsec hUsec hFits
  obtain ⟨hNotEarlier, hNotLater⟩ := wholeMs_sign deadline now
  constructor
  · have hTrunc := wholeMs_bounds deadline now
    omega
  · exact fun hAhead => hMs ▸ hNotEarlier hAhead
  · exact fun hPassed => hMs ▸ hNotLater hPassed
  · intro later hLater hFits' hOrder
    rw [hMs, millisecondsUntil_eq hLater hUsec hFits']
    exact wholeMs_mono hNsec hLater hOrder
  · unfold FitsInt32
    omega
  · intro hRange
    obtain ⟨hLow, hHigh⟩ : FitsInt32 deadline.stored.sec := long_fitsInt32 deadline.sec
    unfold FitsInt64
    omega

/-- A deadline in 2038 whose seconds are stored as a negative number, one and a
half milliseconds away, with the borrow in the nanoseconds. -/
theorem exact_of_fits_2038 : Exact ⟨2147483648, 500000⟩ ⟨2147483647, 999000⟩ :=
  exact_of_fits (by decide) (by decide) (by unfold FitsInt32; decide)

end FreeRtos.Clock
