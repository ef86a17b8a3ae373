import FreeRtosCpp11.Heap4.Layout

/-! The size of the block for a request, and the bit in its size that marks a
block of the application. -/
namespace FreeRtos.Heap4

open Alloc (sizeofPtr sizeRange)

variable {L : Port} {n x len : Nat}

/-- The least multiple of the alignment that is not below `x`. -/
def Port.roundUp (L : Port) (x : Nat) : Nat :=
  L.portBYTE_ALIGNMENT * ((x + L.portBYTE_ALIGNMENT - 1) / L.portBYTE_ALIGNMENT)

/-- The block for a request of `n` bytes: a link and the bytes, aligned. -/
def Port.blockSize (L : Port) (n : Nat) : Nat := L.roundUp (n + L.xHeapStructSize)

theorem roundUp_eq (L : Port) (x : Nat) :
    L.roundUp x =
      if x % L.portBYTE_ALIGNMENT ≠ 0 then x + (L.portBYTE_ALIGNMENT - x % L.portBYTE_ALIGNMENT) else x := by
  have hPos := L.alignment_pos
  have hMod := Nat.mod_lt x hPos
  have hSplit := Nat.div_add_mod x L.portBYTE_ALIGNMENT
  have hDiv : (x + L.portBYTE_ALIGNMENT - 1) / L.portBYTE_ALIGNMENT =
      (x % L.portBYTE_ALIGNMENT + L.portBYTE_ALIGNMENT - 1) / L.portBYTE_ALIGNMENT + x / L.portBYTE_ALIGNMENT := by
    rw [← Nat.add_mul_div_left _ _ hPos]
    congr 1
    omega
  rw [Port.roundUp, hDiv, Nat.mul_add]
  split
  case isTrue hOff =>
    have hOne : (x % L.portBYTE_ALIGNMENT + L.portBYTE_ALIGNMENT - 1) / L.portBYTE_ALIGNMENT = 1 :=
      Nat.div_eq_of_lt_le (by omega) (by omega)
    rw [hOne]
    omega
  case isFalse hOn =>
    have hZero : (x % L.portBYTE_ALIGNMENT + L.portBYTE_ALIGNMENT - 1) / L.portBYTE_ALIGNMENT = 0 :=
      Nat.div_eq_of_lt (by omega)
    rw [hZero]
    omega

theorem le_roundUp (L : Port) (x : Nat) : x ≤ L.roundUp x := by
  rw [roundUp_eq]
  split <;> omega

/-- Rounding up never leaves the range of a size, except to its end. -/
theorem roundUp_le_range (hx : x < sizeRange L.ptr) : L.roundUp x ≤ sizeRange L.ptr := by
  obtain ⟨q, hRange⟩ := L.alignment_dvd_range
  have hPos := L.alignment_pos
  rw [Port.roundUp, hRange]
  apply Nat.mul_le_mul_left
  rw [Nat.le_iff_lt_add_one, Nat.div_lt_iff_lt_mul hPos, Nat.add_mul, Nat.one_mul, Nat.mul_comm q, ← hRange]
  omega

theorem blockSize_spec (L : Port) (n : Nat) :
    L.portBYTE_ALIGNMENT ∣ L.blockSize n ∧ n + L.xHeapStructSize ≤ L.blockSize n :=
  ⟨Nat.dvd_mul_right _ _, le_roundUp L _⟩

/-- The size that `pvPortMalloc` computes is the size of the block, or 0 for
no bytes and for a block beyond the sizes. -/
theorem wantedSize_eq (hn : n < sizeRange L.ptr) :
    wantedSize L n = if 0 < n ∧ L.blockSize n < sizeRange L.ptr then L.blockSize n else 0 := by
  have hStruct := L.endMarker_lt
  have hStructPos := L.structSize_pos
  have hLower := (blockSize_spec L n).2
  have hMod := Nat.mod_lt (n + L.xHeapStructSize) L.alignment_pos
  have hUpper := roundUp_le_range (L := L) (x := n + L.xHeapStructSize)
  have hRound := roundUp_eq L (n + L.xHeapStructSize)
  unfold Port.blockSize at hLower ⊢
  unfold wantedSize
  simp only [L.and_alignmentMask]
  by_cases hFits : n + L.xHeapStructSize < sizeRange L.ptr
  · rw [Nat.mod_eq_of_lt hFits]
    by_cases hPos : 0 < n
    · rw [if_pos ⟨hPos, by omega⟩]
      split at hRound
      case isTrue hOff =>
        rw [if_pos hOff, ← hRound]
        rcases Nat.lt_or_eq_of_le (hUpper hFits) with hIn | hOut
        · rw [Nat.mod_eq_of_lt hIn, if_pos (by omega), if_pos ⟨hPos, hIn⟩]
        · rw [hOut, Nat.mod_self, if_neg (by omega), if_neg (by omega)]
      case isFalse hOn => rw [if_neg hOn, hRound, if_pos ⟨hPos, hFits⟩]
    · rw [if_neg (by omega), if_neg (by omega)]
  · have hWrap : (n + L.xHeapStructSize) % sizeRange L.ptr ≤ n := by
      rw [Nat.mod_eq_sub_mod (by omega), Nat.mod_eq_of_lt (by omega)]
      omega
    rw [if_neg (by omega), if_neg (by omega)]

/-- Setting the top bit of a size that does not use it. -/
theorem or_topBit (hLen : len < L.topBit) : len ||| L.topBit = len + L.topBit := by
  have hOr := Nat.two_pow_add_eq_or_of_lt hLen 1
  rw [Nat.mul_one] at hOr
  rw [Nat.or_comm, Nat.add_comm]
  exact hOr.symm

theorem and_topBit_eq_zero_iff (hx : x < sizeRange L.ptr) : x &&& L.topBit = 0 ↔ x < L.topBit := by
  have hRange := L.topBit_spec
  constructor
  · intro hZero
    rcases Nat.lt_or_ge x L.topBit with hLow | hHigh
    · exact hLow
    · have hBit : x.testBit (sizeofPtr L.ptr * 8 - 1) = true :=
        Nat.testBit_of_two_pow_le_and_two_pow_add_one_gt hHigh (by
          unfold Port.topBit at hRange
          rw [Nat.pow_succ]
          omega)
      have hClear := congrArg (Nat.testBit · (sizeofPtr L.ptr * 8 - 1)) hZero
      rw [Port.topBit] at hClear
      simp [hBit] at hClear
  · intro hLow
    apply Nat.eq_of_testBit_eq
    intro i
    rw [Nat.testBit_and, Port.topBit, Nat.testBit_two_pow, Nat.zero_testBit]
    by_cases hi : sizeofPtr L.ptr * 8 - 1 = i
    · rw [← hi, Nat.testBit_lt_two_pow hLow, Bool.false_and]
    · simp [hi]

/-- A block of the application is told by the bit, which leaves its size. -/
theorem marked_spec (hLen : len < L.topBit) :
    (len ||| L.topBit) &&& L.topBit ≠ 0 ∧ (len ||| L.topBit) &&& (sizeRange L.ptr - 1 - L.topBit) = len := by
  have hRange := L.topBit_spec
  have hOr := or_topBit hLen
  constructor
  · rw [Ne, and_topBit_eq_zero_iff (by omega)]
    omega
  · have hMask : sizeRange L.ptr - 1 - L.topBit = L.topBit - 1 := by omega
    rw [hMask, hOr, Port.topBit, Nat.and_two_pow_sub_one_eq_mod, Nat.add_mod_right]
    exact Nat.mod_eq_of_lt hLen

end FreeRtos.Heap4
