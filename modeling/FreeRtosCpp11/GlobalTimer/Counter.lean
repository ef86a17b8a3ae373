import Mathlib.Algebra.Group.Nat.Defs

/-! The 64-bit global timer of the Cortex-A9 test library. Its counter is read
through two 32-bit registers while it keeps running, so that each register read
meets a counter of its own. -/
namespace FreeRtos.GlobalTimer

/-- The register with the high word of the counter. -/
def counterHi (c : BitVec 64) : BitVec 32 := c.extractLsb' 32 32

/-- The register with the low word. -/
def counterLo (c : BitVec 64) : BitVec 32 := c.extractLsb' 0 32

/-- One pass of the loop, where `read k` is the counter at the register read
number `k` of the call. A pass reads three times. -/
def pass (read : Nat → BitVec 64) (p : Nat) : Option (BitVec 64) :=
  let h := (counterHi (read (3 * p))).setWidth 64
  let l := counterLo (read (3 * p + 1))
  let hh := counterHi (read (3 * p + 2))
  if h = hh.setWidth 64 then some (h <<< 32 ||| l.setWidth 64) else none

/-- The loop with `i` passes left, from pass `p` on. A return from inside of it
tells the pass and the value. -/
def loop (read : Nat → BitVec 64) : Nat → Nat → Option (Nat × BitVec 64)
  | 0, _ => none
  | i + 1, p =>
      match pass read p with
      | some v => some (p, v)
      | none => loop read i (p + 1)

/-- `GlobTimer_Counter`. -/
def globTimerCounter (read : Nat → BitVec 64) : BitVec 64 :=
  match loop read 3 0 with
  | some (_, v) => v
  | none => 0

theorem counterHi_toNat (c : BitVec 64) : (counterHi c).toNat = c.toNat / 2 ^ 32 := by
  have hRange := c.isLt
  rw [counterHi, BitVec.extractLsb'_toNat, Nat.shiftRight_eq_div_pow]
  omega

theorem counterLo_toNat (c : BitVec 64) : (counterLo c).toNat = c.toNat % 2 ^ 32 := by
  rw [counterLo, BitVec.extractLsb'_toNat, Nat.shiftRight_zero]

theorem counterHi_eq_iff {a b : BitVec 64} :
    counterHi a = counterHi b ↔ a.toNat / 2 ^ 32 = b.toNat / 2 ^ 32 := by
  rw [← counterHi_toNat, ← counterHi_toNat, BitVec.toNat_inj]

theorem counterHi_le {a b : BitVec 64} (h : a ≤ b) : (counterHi a).toNat ≤ (counterHi b).toNat := by
  rw [counterHi_toNat, counterHi_toNat]
  exact Nat.div_le_div_right h

/-- A register keeps its value when it is widened. -/
theorem widen_toNat (word : BitVec 32) : (word.setWidth 64).toNat = word.toNat :=
  BitVec.toNat_setWidth_of_le (by decide)

theorem widen_inj {a b : BitVec 32} : a.setWidth 64 = b.setWidth 64 ↔ a = b := by
  rw [← BitVec.toNat_inj, widen_toNat, widen_toNat, BitVec.toNat_inj]

/-- The two words of one counter make up that counter. -/
theorem join_words (c : BitVec 64) :
    (counterHi c).setWidth 64 <<< 32 ||| (counterLo c).setWidth 64 = c := by
  have hRange := c.isLt
  have hLow : c.toNat % 2 ^ 32 < 2 ^ 32 := Nat.mod_lt _ (by decide)
  have hShifted : (c.toNat / 2 ^ 32) <<< 32 < 2 ^ 64 := by
    rw [Nat.shiftLeft_eq]
    omega
  apply BitVec.eq_of_toNat_eq
  rw [BitVec.toNat_or, BitVec.toNat_shiftLeft, widen_toNat, widen_toNat, counterHi_toNat,
    counterLo_toNat, Nat.mod_eq_of_lt hShifted, ← Nat.shiftLeft_add_eq_or_of_lt hLow,
    Nat.shiftLeft_eq]
  omega

variable {read : Nat → BitVec 64} {i p : Nat}

/-- A pass fails exactly when the high word is another one at its end. -/
theorem pass_none :
    pass read p = none ↔ counterHi (read (3 * p)) ≠ counterHi (read (3 * p + 2)) := by
  simp [pass, widen_inj]

/-- A pass that returns has taken both words from the counter of its second
read, provided that the high word did not change and come back in between. -/
theorem pass_some {v : BitVec 64} (hPass : pass read p = some v)
    (hBetween : counterHi (read (3 * p)) = counterHi (read (3 * p + 2)) →
      counterHi (read (3 * p)) = counterHi (read (3 * p + 1))) : v = read (3 * p + 1) := by
  simp only [pass, widen_inj] at hPass
  split at hPass
  · rename_i hSame
    rw [hBetween hSame, join_words] at hPass
    exact (Option.some.inj hPass).symm
  · cases hPass

/-- A return from inside of the loop is that of one of its passes. -/
theorem loop_some {q : Nat} {v : BitVec 64} (hLoop : loop read i p = some (q, v)) :
    p ≤ q ∧ q < p + i ∧ pass read q = some v := by
  induction i generalizing p with
  | zero => cases hLoop
  | succ i ih =>
      simp only [loop] at hLoop
      split at hLoop
      · rename_i w hPass
        cases hLoop
        exact ⟨Nat.le_refl _, by omega, hPass⟩
      · obtain ⟨hFrom, hTo, hPass⟩ := ih hLoop
        exact ⟨by omega, by omega, hPass⟩

/-- The loop runs out only when each pass has failed. -/
theorem loop_none (hLoop : loop read i p = none) {q : Nat} (hFrom : p ≤ q) (hTo : q < p + i) :
    pass read q = none := by
  induction i generalizing p with
  | zero => omega
  | succ i ih =>
      simp only [loop] at hLoop
      split at hLoop
      · cases hLoop
      · rename_i hPass
        rcases Nat.eq_or_lt_of_le hFrom with rfl | hLater
        · exact hPass
        · exact ih hLoop hLater (by omega)

/-- The counter does not go back between the register reads of a call. -/
def NonDecreasing (read : Nat → BitVec 64) : Prop := ∀ k < 8, read k ≤ read (k + 1)

theorem NonDecreasing.le (hCounter : NonDecreasing read) {j k : Nat} (hOrder : j ≤ k) (hk : k ≤ 8) :
    read j ≤ read k := by
  induction hOrder with
  | refl => exact Nat.le_refl _
  | step _ ih => exact Nat.le_trans (ih (by omega)) (hCounter _ (by omega))

/-- What a caller gets: a counter of the pass that returned, or zero after the
high word has changed in every pass. -/
structure Untorn (read : Nat → BitVec 64) : Prop where
  between : ∀ p v, loop read 3 0 = some (p, v) →
    globTimerCounter read = v ∧ read (3 * p) ≤ v ∧ v ≤ read (3 * p + 2)
  changed : loop read 3 0 = none → globTimerCounter read = 0 ∧
    ∀ p < 3, counterHi (read (3 * p)) ≠ counterHi (read (3 * p + 2))

/-- No carry into the high word tears the result apart, wherever it falls. The
high word of a counter that does not go back has one value all the way between
two reads that agree, however fast the counter is. -/
theorem untorn_of_nonDecreasing (hCounter : NonDecreasing read) : Untorn read := by
  constructor
  · intro p v hLoop
    obtain ⟨_, hp, hPass⟩ := loop_some hLoop
    have hFirst : read (3 * p) ≤ read (3 * p + 1) := hCounter.le (by omega) (by omega)
    have hLast : read (3 * p + 1) ≤ read (3 * p + 2) := hCounter.le (by omega) (by omega)
    have hValue : v = read (3 * p + 1) := by
      apply pass_some hPass
      intro hSame
      have hRise := counterHi_le hFirst
      have hFall := counterHi_le hLast
      rw [← hSame] at hFall
      exact BitVec.eq_of_toNat_eq (Nat.le_antisymm hRise hFall)
    rw [globTimerCounter, hLoop, hValue]
    exact ⟨rfl, hFirst, hLast⟩
  · intro hLoop
    rw [globTimerCounter, hLoop]
    exact ⟨rfl, fun p hp => pass_none.1 (loop_none hLoop (Nat.zero_le p) (by omega))⟩

/-- The carry falls between the first two reads, and the second pass returns. -/
theorem untorn_of_nonDecreasing_carry :
    Untorn (fun k => 0xffffffff#64 + BitVec.ofNat 64 k) ∧
      globTimerCounter (fun k => 0xffffffff#64 + BitVec.ofNat 64 k) = 0x100000003#64 :=
  ⟨untorn_of_nonDecreasing (by unfold NonDecreasing; decide), by decide⟩

/-- The counter itself may wrap at 64 bits. Then the high word can come back to
its value within a pass, unless the pass is shorter than one turn of the low
word. -/
theorem counter_of_wrapping {count : Nat → Nat} {v : BitVec 64}
    (hCount : ∀ k < 8, count k ≤ count (k + 1))
    (hAdvance : ∀ p < 3, count (3 * p + 2) < count (3 * p) + 2 ^ 32)
    (hLoop : loop (fun k => BitVec.ofNat 64 (count k)) 3 0 = some (p, v)) :
    v = BitVec.ofNat 64 (count (3 * p + 1)) := by
  obtain ⟨_, hp, hPass⟩ := loop_some hLoop
  apply pass_some hPass
  have hFirst := hCount (3 * p) (by omega)
  have hLast : count (3 * p + 1) ≤ count (3 * p + 2) := hCount (3 * p + 1) (by omega)
  have hTurn := hAdvance p (by omega)
  rw [counterHi_eq_iff, counterHi_eq_iff]
  simp only [BitVec.toNat_ofNat]
  omega

/-- The high word changes at most once while the counter advances by less than
one turn of the low word, so one of two passes returns. -/
theorem loop_of_advance (hCounter : NonDecreasing read)
    (hAdvance : (read 5).toNat < (read 0).toNat + 2 ^ 32) :
    ∃ p v, p < 2 ∧ loop read 3 0 = some (p, v) := by
  cases hZero : pass read 0 with
  | some v => exact ⟨0, v, by decide, by simp only [loop, hZero]⟩
  | none =>
      cases hOne : pass read 1 with
      | some v => exact ⟨1, v, by decide, by simp only [loop, hZero, hOne]⟩
      | none =>
          have hChanged : counterHi (read 0) ≠ counterHi (read 2) := (pass_none (p := 0)).1 hZero
          have hAgain : counterHi (read 3) ≠ counterHi (read 5) := (pass_none (p := 1)).1 hOne
          rw [Ne, counterHi_eq_iff] at hChanged hAgain
          have hFirst := hCounter.le (j := 0) (k := 2) (by decide) (by decide)
          have hPause := hCounter.le (j := 2) (k := 3) (by decide) (by decide)
          have hSecond := hCounter.le (j := 3) (k := 5) (by decide) (by decide)
          rw [BitVec.le_def] at hFirst hPause hSecond
          omega

end FreeRtos.GlobalTimer
