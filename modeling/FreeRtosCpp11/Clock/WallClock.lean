import FreeRtosCpp11.Transition.Run
import Mathlib.Algebra.Group.Int.Defs
import Mathlib.Algebra.Group.Nat.Defs

/-! The wall clock of `freertos_time.cpp`: an offset in a `timeval`, set from a
time point and the tick count, and added to the tick count when the time is
read. Duration casts truncate; `long` has 32 bits. -/
namespace FreeRtos.Clock

structure Timeval where
  tv_sec : Int
  tv_usec : Int
  deriving DecidableEq, Repr

/-- Conversion to the 32-bit `long` of `tv_usec`. -/
def long (x : Int) : Int := x.bmod (2 ^ 32)

/-- Conversion to the 64-bit `long long` of `system_clock::duration`. -/
def longLong (x : Int) : Int := x.bmod (2 ^ 64)

/-- The macro of the configuration headers, for a `configTICK_RATE_HZ`. -/
def pdTicksToMs (rate ticks : Nat) : Int := ((ticks : Int) * rate).tdiv 1000

/-- `time - time_point(milliseconds(pdTICKS_TO_MS(ticks)))`, in nanoseconds. -/
def delta (rate : Nat) (time : Int) (ticks : Nat) : Int :=
  longLong (time - pdTicksToMs rate ticks * 1000000)

/-- The microseconds of `SetSystemClockTime` before they are narrowed. -/
def setUsec (d : Int) : Int := d.tdiv 1000 - d.tdiv 1000000000 * 1000000

/-- The offset that `SetSystemClockTime` stores. -/
def setOffset (rate : Nat) (time : Int) (ticks : Nat) : Timeval :=
  let d := delta rate time ticks
  { tv_sec := d.tdiv 1000000000, tv_usec := long (setUsec d) }

/-- `operator+` of two `timeval`. -/
def Timeval.add (l r : Timeval) : Timeval :=
  let t : Timeval := { tv_sec := l.tv_sec + r.tv_sec, tv_usec := long (l.tv_usec + r.tv_usec) }
  if t.tv_usec ≥ 1000000 then { tv_sec := t.tv_sec + 1, tv_usec := t.tv_usec - 1000000 } else t

/-- The microseconds of `_gettimeofday` before they are narrowed. -/
def getUsec (ms : Int) : Int := (ms - ms.tdiv 1000 * 1000) * 1000

/-- `_gettimeofday` from the offset and the tick count of one critical section. -/
def gettimeofday (rate : Nat) (offset : Timeval) (ticks : Nat) : Timeval :=
  let ms := pdTicksToMs rate ticks
  offset.add { tv_sec := ms.tdiv 1000, tv_usec := long (getUsec ms) }

/-- The value of a `timeval` in microseconds. -/
def Timeval.micros (t : Timeval) : Int := t.tv_sec * 1000000 + t.tv_usec

/-- A value that the narrowing to `long` keeps. -/
theorem long_of_natAbs_le {x : Int} (h : x.natAbs ≤ 2000000) : long x = x :=
  Int.bmod_eq_of_le (by omega) (by omega)

/-- A difference of 64-bit times that the duration type can represent. -/
theorem longLong_of_bounds {x : Int} (hLow : -2 ^ 63 ≤ x) (hHigh : x < 2 ^ 63) : longLong x = x :=
  Int.bmod_eq_of_le (by omega) (by omega)

/-- Truncation moves a value by less than the divisor. -/
theorem tdiv_bounds (d : Int) {k : Int} (hk : 0 < k) : -k < d - k * d.tdiv k ∧ d - k * d.tdiv k < k := by
  rw [← Int.tmod_def]
  exact ⟨Int.lt_tmod_of_pos d hk, Int.tmod_lt_of_pos d hk⟩

/-- The microseconds of a set stay within one second, whatever the sign of the
offset. -/
theorem natAbs_setUsec_le (d : Int) : (setUsec d).natAbs ≤ 1000000 := by
  have hSec := tdiv_bounds d (k := 1000000000) (by decide)
  have hMicro := tdiv_bounds d (k := 1000) (by decide)
  unfold setUsec
  omega

/-- The microseconds of a read are less than one second. -/
theorem getUsec_bounds {ms : Int} (h : 0 ≤ ms) : 0 ≤ getUsec ms ∧ getUsec ms < 1000000 := by
  have hNonneg := Int.tmod_nonneg 1000 h
  have hLt := Int.tmod_lt_of_pos ms (b := 1000) (by decide)
  rw [Int.tmod_def] at hNonneg hLt
  unfold getUsec
  omega

theorem pdTicksToMs_nonneg (rate ticks : Nat) : 0 ≤ pdTicksToMs rate ticks :=
  Int.tdiv_nonneg (Int.mul_nonneg (Int.natCast_nonneg _) (Int.natCast_nonneg _)) (by decide)

/-- At 1000 Hz a tick is a millisecond. -/
theorem pdTicksToMs_1000 (ticks : Nat) : pdTicksToMs 1000 ticks = ticks :=
  Int.mul_tdiv_cancel _ (by decide)

/-- An offset whose microseconds are in the range that a set stores. -/
def Timeval.InRange (t : Timeval) : Prop := t.tv_usec.natAbs ≤ 1000000

theorem setOffset_inRange (rate : Nat) (time : Int) (ticks : Nat) :
    (setOffset rate time ticks).InRange := by
  have hBound := natAbs_setUsec_le (delta rate time ticks)
  rw [Timeval.InRange, setOffset, long_of_natAbs_le (by omega)]
  exact hBound

/-- The two fields that a set stores recombine to the truncated microseconds. -/
theorem micros_setOffset (rate : Nat) (time : Int) (ticks : Nat) :
    (setOffset rate time ticks).micros = (delta rate time ticks).tdiv 1000 := by
  have hBound := natAbs_setUsec_le (delta rate time ticks)
  have hLong : long (setUsec (delta rate time ticks)) = setUsec (delta rate time ticks) :=
    long_of_natAbs_le (by omega)
  simp only [setOffset, Timeval.micros]
  rw [hLong, setUsec]
  omega

/-- The one-sided carry of `operator+` keeps the value, for any sign of the offset. -/
theorem micros_add {l r : Timeval} (hl : l.InRange) (hr : r.InRange) :
    (l.add r).micros = l.micros + r.micros := by
  unfold Timeval.InRange at hl hr
  rw [Timeval.add, long_of_natAbs_le (by omega)]
  split <;> simp only [Timeval.micros] <;> omega

/-- A read reports the stored offset plus the ticks in milliseconds. -/
theorem micros_gettimeofday (rate : Nat) {offset : Timeval} (h : offset.InRange) (ticks : Nat) :
    (gettimeofday rate offset ticks).micros = offset.micros + pdTicksToMs rate ticks * 1000 := by
  have hUsec := getUsec_bounds (pdTicksToMs_nonneg rate ticks)
  simp only [gettimeofday]
  rw [long_of_natAbs_le (by omega), micros_add h (by simp only [Timeval.InRange]; omega)]
  simp only [Timeval.micros, getUsec]
  omega

end FreeRtos.Clock
