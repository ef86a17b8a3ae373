import FreeRtosCpp11.Clock.Ticks

/-! Block times that are passed to the kernel: the timed operations of
`gthr-default.h`, which subtract the current time from a deadline, and
`__sleep_for` of `thread.cpp`. `long` and `int32_t` have 32 bits, `time_t` and
`int64_t` have 64. -/
namespace FreeRtos.Clock

/-- `__gthread_time_t`. -/
structure GthreadTime where
  sec : Int
  nsec : Int
  deriving DecidableEq, Repr

def GthreadTime.milliseconds (t : GthreadTime) : Int := t.sec * 1000 + t.nsec.tdiv 1000000

/-- `operator-` of a `__gthread_time_t` and a `timeval`. -/
def GthreadTime.sub (lhs : GthreadTime) (rhs : Timeval) : GthreadTime where
  sec := long (longLong (lhs.sec - rhs.tv_sec))
  nsec := long (lhs.nsec - long (rhs.tv_usec * 1000))

/-- The kernel call in which a task blocks, with the ticks passed to it. -/
inductive KernelCall where
  | xSemaphoreTake (ticks : Nat)
  | xSemaphoreTakeRecursive (ticks : Nat)
  | ulTaskNotifyTake (ticks : Nat)
  | vTaskDelay (ticks : Nat)
  deriving DecidableEq, Repr

def KernelCall.ticks : KernelCall → Nat
  | .xSemaphoreTake ticks | .xSemaphoreTakeRecursive ticks => ticks
  | .ulTaskNotifyTake ticks | .vTaskDelay ticks => ticks

/-- `pdMS_TO_TICKS` of the time that remains until the deadline. -/
def blockTime (deadline : GthreadTime) (now : Timeval) : Nat :=
  pdMsToTicks configTickRateHz (deadline.sub now).milliseconds

/-- `__gthread_mutex_timedlock`, where the current time is `now`. -/
def mutexTimedlock (deadline : GthreadTime) (now : Timeval) : KernelCall :=
  .xSemaphoreTake (blockTime deadline now)

/-- `__gthread_recursive_mutex_timedlock`. -/
def recursiveMutexTimedlock (deadline : GthreadTime) (now : Timeval) : KernelCall :=
  .xSemaphoreTakeRecursive (blockTime deadline now)

/-- `__gthread_cond_timedwait`. -/
def condTimedwait (deadline : GthreadTime) (now : Timeval) : KernelCall :=
  .ulTaskNotifyTake (blockTime deadline now)

def timedOperations : List (GthreadTime → Timeval → KernelCall) :=
  [mutexTimedlock, recursiveMutexTimedlock, condTimedwait]

/-- `__sleep_for`: a request below a millisecond is rounded up, any other one
is truncated. -/
def sleepFor (sec nsec : Int) : KernelCall :=
  let ms := long (nsec.tdiv 1000000)
  let ms := if sec = 0 ∧ ms = 0 ∧ nsec > 0 then 1 else ms
  .vTaskDelay (pdMsToTicks configTickRateHz (longLong (longLong (sec * 1000) + ms)))

theorem long_emod (x : Int) : long x % 2 ^ 32 = x % 2 ^ 32 := Int.bmod_emod

theorem longLong_emod (x : Int) : longLong x % 2 ^ 32 = x % 2 ^ 32 := by
  have h : longLong x % 2 ^ 64 = x % 2 ^ 64 := Int.bmod_emod
  rw [← Int.emod_emod_of_dvd (longLong x) (show (2 ^ 32 : Int) ∣ 2 ^ 64 by decide), h,
    Int.emod_emod_of_dvd x (by decide)]

/-- At 1000 Hz only the milliseconds modulo the range of the tick type matter. -/
theorem pdMsToTicks_congr {x y : Int} (h : x % 2 ^ 32 = y % 2 ^ 32) :
    (pdMsToTicks configTickRateHz x : Int) = y * 1000 % 2 ^ 32 / 1000 := by
  have hProduct : x * 1000 % 2 ^ 32 = y * 1000 % 2 ^ 32 := by omega
  rw [pdMsToTicks_eq, Int.natCast_ediv, tickType_cast]
  exact congrArg (· / 1000) hProduct

/-- Ticks at 1000 Hz are the milliseconds, unless those exceed the tick type;
then a whole range of it is missing. -/
theorem wrapped_bounds {ms ticks : Int} (hTicks : ticks = ms * 1000 % 2 ^ 32 / 1000) (hMs : 0 ≤ ms) :
    ticks ≤ 4294967 ∧ (ms ≤ 4294967 → ticks = ms) ∧ (4294968 ≤ ms → ticks ≤ ms - 4294967) := by
  have hRange := Int.emod_lt_of_pos (ms * 1000) (b := 2 ^ 32) (by decide)
  refine ⟨by omega, fun hFit => ?_, fun hLong => ?_⟩
  · rw [Int.emod_eq_of_lt (by omega) (by omega)] at hTicks
    omega
  · have hRounds : 1 ≤ ms * 1000 / 2 ^ 32 := by omega
    have hRest := Int.mul_ediv_add_emod (ms * 1000) (2 ^ 32)
    omega

section TimedOperations

/-- The time from now until the deadline, in nanoseconds. -/
def remaining (deadline : GthreadTime) (now : Timeval) : Int :=
  deadline.sec * 1000000000 + deadline.nsec - (now.tv_sec * 1000000000 + now.tv_usec * 1000)

/-- The same time in whole milliseconds, where the seconds and the rest are
truncated apart. -/
def wholeMs (deadline : GthreadTime) (now : Timeval) : Int :=
  (deadline.sec - now.tv_sec) * 1000 + (deadline.nsec - now.tv_usec * 1000).tdiv 1000000

/-- The block time that a deadline asks for: nothing when it has passed, and
otherwise the remaining time to within a tick. -/
def BlocksUntil (deadline : GthreadTime) (now : Timeval) (ticks : Nat) : Prop :=
  (remaining deadline now ≤ 0 → ticks = 0) ∧
    (0 < remaining deadline now → remaining deadline now ≤ (2 ^ 32 - 1) * 1000000 →
      (ticks * 1000000 - remaining deadline now).natAbs < 1000000)

/-- Where the unsigned block time does not wrap to a wrong value. `2 ^ 32` is
the range of the tick type, in microseconds at 1000 Hz: a deadline that has
passed must lie in the millisecond of a multiple of it, and one to come must
be closer than that. -/
def InTickRange (deadline : GthreadTime) (now : Timeval) : Prop :=
  (remaining deadline now ≤ 0 → ∃ k : Nat,
    -wholeMs deadline now * 1000 ≤ k * 2 ^ 32 ∧ k * 2 ^ 32 < (1 - wholeMs deadline now) * 1000) ∧
  (0 < remaining deadline now → remaining deadline now ≤ (2 ^ 32 - 1) * 1000000 →
    wholeMs deadline now * 1000 < 2 ^ 32)

variable {deadline : GthreadTime} {now : Timeval}

/-- No nanosecond value of the subtraction is narrowed to another one. -/
theorem GthreadTime.sub_nsec (hNsec : 0 ≤ deadline.nsec ∧ deadline.nsec < 1000000000)
    (hUsec : 0 ≤ now.tv_usec ∧ now.tv_usec < 1000000) :
    (deadline.sub now).nsec = deadline.nsec - now.tv_usec * 1000 := by
  have hMicro : long (now.tv_usec * 1000) = now.tv_usec * 1000 :=
    Int.bmod_eq_of_le (by omega) (by omega)
  simp only [GthreadTime.sub, hMicro]
  exact Int.bmod_eq_of_le (by omega) (by omega)

/-- The subtraction narrows the seconds, which the tick type does not see. -/
theorem blockTime_eq (hNsec : 0 ≤ deadline.nsec ∧ deadline.nsec < 1000000000)
    (hUsec : 0 ≤ now.tv_usec ∧ now.tv_usec < 1000000) :
    (blockTime deadline now : Int) = wholeMs deadline now * 1000 % 2 ^ 32 / 1000 := by
  apply pdMsToTicks_congr
  have hSec : (deadline.sub now).sec % 2 ^ 32 = (deadline.sec - now.tv_sec) % 2 ^ 32 := by
    rw [GthreadTime.sub, long_emod, longLong_emod]
  rw [GthreadTime.milliseconds, GthreadTime.sub_nsec hNsec hUsec, wholeMs]
  omega

/-- Truncation moves the remaining time by less than a millisecond. -/
theorem wholeMs_bounds (deadline : GthreadTime) (now : Timeval) :
    -1000000 < remaining deadline now - 1000000 * wholeMs deadline now ∧
      remaining deadline now - 1000000 * wholeMs deadline now < 1000000 := by
  have h := tdiv_bounds (deadline.nsec - now.tv_usec * 1000) (k := 1000000) (by decide)
  unfold remaining wholeMs
  omega

theorem ticks_of_mem {op : GthreadTime → Timeval → KernelCall} (hOp : op ∈ timedOperations) :
    (op deadline now).ticks = blockTime deadline now := by
  simp only [timedOperations, List.mem_cons, List.not_mem_nil, or_false] at hOp
  rcases hOp with rfl | rfl | rfl <;> rfl

/-- A deadline that has passed blocks for no tick exactly in the milliseconds
where the unsigned value came round to zero. -/
theorem blockTime_passed {whole ticks : Int} (hTicks : ticks = whole * 1000 % 2 ^ 32 / 1000)
    (hPassed : whole ≤ 0) :
    ticks = 0 ↔ ∃ k : Nat, -whole * 1000 ≤ k * 2 ^ 32 ∧ k * 2 ^ 32 < (1 - whole) * 1000 := by
  constructor
  · intro hZero
    refine ⟨(-(whole * 1000 / 2 ^ 32)).toNat, ?_, ?_⟩ <;> omega
  · rintro ⟨k, hLow, hHigh⟩
    have hRound : whole * 1000 % 2 ^ 32 = whole * 1000 + k * 2 ^ 32 := by
      rw [← Int.add_mul_emod_self_right (whole * 1000) k (2 ^ 32)]
      exact Int.emod_eq_of_lt (by omega) (by omega)
    omega

/-- The timed operations meet their deadlines where the tick type can represent
the block time, and nowhere else. -/
theorem blocksUntil_iff {op : GthreadTime → Timeval → KernelCall} (hOp : op ∈ timedOperations)
    (hNsec : 0 ≤ deadline.nsec ∧ deadline.nsec < 1000000000)
    (hUsec : 0 ≤ now.tv_usec ∧ now.tv_usec < 1000000) :
    BlocksUntil deadline now (op deadline now).ticks ↔ InTickRange deadline now := by
  rw [ticks_of_mem hOp]
  have hTicks := blockTime_eq hNsec hUsec
  have hTrunc := wholeMs_bounds deadline now
  unfold BlocksUntil InTickRange
  generalize blockTime deadline now = ticks at hTicks
  generalize wholeMs deadline now = whole at hTicks hTrunc
  apply and_congr
  · refine imp_congr_right fun hPassed => ?_
    rw [← blockTime_passed hTicks (by omega)]
    omega
  · refine imp_congr_right fun hLater => imp_congr_right fun _ => ?_
    obtain ⟨_, hSame, hWrapped⟩ := wrapped_bounds hTicks (by omega)
    constructor
    · intro hClose
      by_contra hFar
      have hBelow := hWrapped (by omega)
      omega
    · intro hFit
      have hEq := hSame (by omega)
      omega

/-- One and a half milliseconds ahead, with the borrow in the nanoseconds. -/
theorem blocksUntil_iff_borrow :
    BlocksUntil ⟨10, 500000⟩ ⟨9, 999000⟩ (condTimedwait ⟨10, 500000⟩ ⟨9, 999000⟩).ticks ↔
      InTickRange ⟨10, 500000⟩ ⟨9, 999000⟩ :=
  blocksUntil_iff (by simp [timedOperations]) (by decide) (by decide)

/-- A lock whose deadline passed a second ago blocks for more than an hour. -/
theorem mutexTimedlock_passed :
    ¬ ∀ op ∈ timedOperations, ∀ (deadline : GthreadTime) (now : Timeval),
      0 ≤ deadline.nsec ∧ deadline.nsec < 1000000000 → 0 ≤ now.tv_usec ∧ now.tv_usec < 1000000 →
      BlocksUntil deadline now (op deadline now).ticks := by
  intro hClaim
  have hZero := (hClaim mutexTimedlock (by simp [timedOperations]) ⟨10, 0⟩ ⟨11, 0⟩ (by decide)
    (by decide)).1 (by decide)
  exact absurd hZero (by decide)

end TimedOperations

section Sleep

/-- The whole milliseconds of a request. -/
def sleepMs (sec nsec : Int) : Int :=
  sec * 1000 + if sec = 0 ∧ 0 < nsec ∧ nsec < 1000000 then 1 else nsec / 1000000

/-- The conversions to 64 bits do not reach the tick type. -/
theorem sleepFor_ticks (sec : Int) {nsec : Int} (hNsec : 0 ≤ nsec ∧ nsec < 1000000000) :
    ((sleepFor sec nsec).ticks : Int) = sleepMs sec nsec * 1000 % 2 ^ 32 / 1000 := by
  apply pdMsToTicks_congr
  have hMilli : long (nsec.tdiv 1000000) = nsec / 1000000 := by
    rw [Int.tdiv_eq_ediv_of_nonneg hNsec.1]
    exact Int.bmod_eq_of_le (by omega) (by omega)
  have hSec := longLong_emod (sec * 1000)
  simp only [hMilli, sleepMs]
  rw [longLong_emod]
  split <;> split <;> omega

/-- A request in nanoseconds. -/
def requested (sec nsec : Int) : Int := sec * 1000000000 + nsec

theorem sleepMs_nonneg {sec nsec : Int} (hSec : 0 ≤ sec) (hNsec : 0 ≤ nsec) : 0 ≤ sleepMs sec nsec := by
  unfold sleepMs
  split <;> omega

/-- Rounding up below one millisecond keeps the order of the requests. -/
theorem sleepMs_mono {sec nsec sec' nsec' : Int} (hSec : 0 ≤ sec)
    (hNsec : 0 ≤ nsec ∧ nsec < 1000000000) (hNsec' : 0 ≤ nsec' ∧ nsec' < 1000000000)
    (hLess : requested sec' nsec' ≤ requested sec nsec) : sleepMs sec' nsec' ≤ sleepMs sec nsec := by
  unfold requested at hLess
  unfold sleepMs
  split <;> split <;> omega

/-- What a sleep owes its caller: at least the requested time, and no less than
any request that is not longer. -/
structure NeverShort (sec nsec : Int) : Prop where
  enough : requested sec nsec ≤ (sleepFor sec nsec).ticks * 1000000
  monotone : ∀ sec' nsec', 0 ≤ sec' → 0 ≤ nsec' ∧ nsec' < 1000000000 →
    requested sec' nsec' ≤ requested sec nsec →
    (sleepFor sec' nsec').ticks ≤ (sleepFor sec nsec).ticks

/-- A sleep is long enough for whole milliseconds, and for requests below one,
as long as the ticks at 1000 Hz fit the tick type. -/
theorem neverShort_iff {sec nsec : Int} (hSec : 0 ≤ sec) (hNsec : 0 ≤ nsec ∧ nsec < 1000000000) :
    NeverShort sec nsec ↔
      (nsec % 1000000 = 0 ∨ sec = 0 ∧ nsec < 1000000) ∧ sec * 1000 + nsec / 1000000 ≤ 4294967 := by
  obtain ⟨hMax, hSame, hWrapped⟩ :=
    wrapped_bounds (sleepFor_ticks sec hNsec) (sleepMs_nonneg hSec hNsec.1)
  constructor
  · intro h
    have hEnough := h.enough
    unfold requested at hEnough
    unfold sleepMs at hSame hWrapped
    split at hSame <;> omega
  · rintro ⟨hWhole, hFit⟩
    have hEq := hSame (by unfold sleepMs; split <;> omega)
    refine ⟨?_, fun sec' nsec' hSec' hNsec' hLess => ?_⟩
    · unfold requested
      unfold sleepMs at hEq
      split at hEq <;> omega
    · obtain ⟨_, hSame', hWrapped'⟩ :=
        wrapped_bounds (sleepFor_ticks sec' hNsec') (sleepMs_nonneg hSec' hNsec'.1)
      have hMono := sleepMs_mono hSec hNsec hNsec' hLess
      omega

/-- The longest sleep that the tick type holds. -/
theorem neverShort_iff_minutes :
    NeverShort 4294 967000000 ↔
      ((967000000 : Int) % 1000000 = 0 ∨ (4294 : Int) = 0 ∧ (967000000 : Int) < 1000000) ∧
        (4294 : Int) * 1000 + 967000000 / 1000000 ≤ 4294967 :=
  neverShort_iff (by decide) (by decide)

/-- One millisecond more than the tick type holds is no sleep at all. -/
theorem sleepFor_wraps :
    ¬ ∀ sec nsec : Int, 0 ≤ sec → 0 ≤ nsec ∧ nsec < 1000000000 → NeverShort sec nsec := by
  intro hClaim
  have hEnough := (hClaim 4294 968000000 (by decide) (by decide)).enough
  exact absurd hEnough (by decide)

end Sleep

end FreeRtos.Clock
