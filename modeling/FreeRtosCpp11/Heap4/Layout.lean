import FreeRtosCpp11.Heap4.Machine
import FreeRtosCpp11.Memory.Words

/-! Where the blocks of the heap lie: between the aligned start of the array and
the end marker, both multiples of the alignment. -/
namespace FreeRtos.Heap4

open Memory
open Alloc (sizeofPtr sizeRange)

variable {ptr align x : Nat}

theorem maskOff_eq (hAlign : align ≤ 8 * sizeofPtr ptr) (hx : x < sizeRange ptr) :
    maskOff ptr align x = 2 ^ align * (x / 2 ^ align) :=
  and_mask hx hAlign

/-- Rounding down to the alignment. -/
theorem maskOff_spec (hAlign : align ≤ 8 * sizeofPtr ptr) (hx : x < sizeRange ptr) :
    2 ^ align ∣ maskOff ptr align x ∧ maskOff ptr align x ≤ x ∧ x < maskOff ptr align x + 2 ^ align := by
  rw [maskOff_eq hAlign hx]
  refine ⟨Nat.dvd_mul_right _ _, Nat.mul_div_le x _, ?_⟩
  have hUpper := Nat.lt_mul_div_succ x (Nat.two_pow_pos align)
  rwa [Nat.mul_add, Nat.mul_one] at hUpper

/-- Two pointers are far from the range of a size. -/
theorem two_sizeofPtr_lt (ptr : Nat) : 2 * (2 * sizeofPtr ptr) ≤ sizeRange ptr := by
  unfold sizeRange sizeofPtr
  have hStep : 2 * (2 * 2 ^ ptr) = 2 ^ (ptr + 2) := by rw [Nat.pow_add]; omega
  rw [hStep]
  apply Nat.pow_le_pow_right (by decide)
  have hSmall := Nat.lt_two_pow_self (n := ptr)
  omega

namespace Port

variable (L : Port)

theorem alignment_pos : 0 < L.portBYTE_ALIGNMENT := Nat.two_pow_pos L.align

theorem alignment_lt : L.portBYTE_ALIGNMENT < sizeRange L.ptr := by
  have hRoom := L.room
  have hStop := L.stop
  unfold portBYTE_ALIGNMENT
  omega

theorem align_le : L.align ≤ 8 * sizeofPtr L.ptr :=
  Nat.le_of_lt ((Nat.pow_lt_pow_iff_right (by decide)).mp L.alignment_lt)

theorem and_alignmentMask (x : Nat) : x &&& L.portBYTE_ALIGNMENT_MASK = x % L.portBYTE_ALIGNMENT :=
  Nat.and_two_pow_sub_one_eq_mod x L.align

theorem alignment_dvd_range : L.portBYTE_ALIGNMENT ∣ sizeRange L.ptr := Nat.pow_dvd_pow 2 L.align_le

theorem sizeofPtr_dvd_alignment : sizeofPtr L.ptr ∣ L.portBYTE_ALIGNMENT := Nat.pow_dvd_pow 2 L.pointers

/-- `xHeapStructSize` holds a link and is aligned. -/
theorem structSize_spec : L.portBYTE_ALIGNMENT ∣ L.xHeapStructSize ∧ 2 * sizeofPtr L.ptr ≤ L.xHeapStructSize := by
  have hWords := two_sizeofPtr_lt L.ptr
  have hPos := L.alignment_pos
  have hRoom := L.room
  have hHalf := L.half
  unfold portBYTE_ALIGNMENT at hPos
  have hSpec := maskOff_spec (x := 2 * sizeofPtr L.ptr + (2 ^ L.align - 1)) L.align_le (by omega)
  exact ⟨hSpec.1, by unfold xHeapStructSize heapStructSize; omega⟩

theorem structSize_pos : 0 < L.xHeapStructSize := by
  have hWord := Alloc.sizeofPtr_pos L.ptr
  have hStruct := L.structSize_spec.2
  omega

/-- The aligned heap is the upper part of the array. -/
theorem alignedHeap_spec :
    L.portBYTE_ALIGNMENT ∣ L.pucAlignedHeap ∧ L.ucHeap ≤ L.pucAlignedHeap ∧
      L.pucAlignedHeap < L.ucHeap + L.portBYTE_ALIGNMENT ∧
      L.pucAlignedHeap + L.alignedHeap.2 = L.ucHeap + L.configTOTAL_HEAP_SIZE := by
  have hPos := L.alignment_pos
  have hRoom := L.room
  have hStop := L.stop
  unfold pucAlignedHeap alignedHeap
  rw [and_alignmentMask]
  split
  case isTrue hOff =>
    have hSpec := maskOff_spec (x := L.ucHeap + (L.portBYTE_ALIGNMENT - 1)) L.align_le
      (by unfold portBYTE_ALIGNMENT; omega)
    unfold portBYTE_ALIGNMENT at *
    exact ⟨hSpec.1, by simp only; omega, by simp only; omega, by simp only; omega⟩
  case isFalse hOff =>
    exact ⟨Nat.dvd_of_mod_eq_zero (not_not.mp hOff), Nat.le_refl _, Nat.lt_add_of_pos_right hPos, rfl⟩

/-- The end marker lies inside the array, behind room for a block. -/
theorem endMarker_spec :
    L.portBYTE_ALIGNMENT ∣ L.endMarker ∧ L.pucAlignedHeap + L.xHeapStructSize ≤ L.endMarker ∧
      L.endMarker + L.xHeapStructSize ≤ L.ucHeap + L.configTOTAL_HEAP_SIZE := by
  obtain ⟨_, _, hNear, hTop⟩ := L.alignedHeap_spec
  have hRoom := L.room
  have hStop := L.stop
  have hSpec := maskOff_spec (x := L.pucAlignedHeap + L.alignedHeap.2 - L.xHeapStructSize) L.align_le
    (by omega)
  unfold endMarker
  unfold portBYTE_ALIGNMENT xHeapStructSize at *
  exact ⟨hSpec.1, by omega, by omega⟩

theorem pucAlignedHeap_pos : 0 < L.pucAlignedHeap := by
  have hNotNull := L.notNull
  have hSpec := L.alignedHeap_spec.2.1
  omega

theorem endMarker_lt : L.endMarker + L.xHeapStructSize < sizeRange L.ptr := by
  have hStop := L.stop
  have hSpec := L.endMarker_spec.2.2
  omega

/-- `xStart` is no place in the heap. -/
theorem xStart_apart : L.xStart < L.pucAlignedHeap ∨ L.endMarker < L.xStart := by
  have hSpec := L.alignedHeap_spec.2.1
  have hEnd := L.endMarker_spec.2.2
  have hStruct := L.structSize_pos
  rcases L.apart with hLow | hHigh
  · exact .inl (by omega)
  · exact .inr (by omega)

/-- The size of the first block. -/
def initialSize : Nat := L.endMarker - L.pucAlignedHeap

theorem initialSize_spec : L.portBYTE_ALIGNMENT ∣ L.initialSize ∧ L.xHeapStructSize ≤ L.initialSize ∧
    2 * L.initialSize < sizeRange L.ptr ∧ L.initialSize < L.bound := by
  obtain ⟨hEnd, hRoom, hTop⟩ := L.endMarker_spec
  obtain ⟨hStart, hLow, _, _⟩ := L.alignedHeap_spec
  have hHalf := L.half
  have hStruct := L.structSize_pos
  unfold initialSize bound
  exact ⟨Nat.dvd_sub hEnd hStart, by omega, by omega, by omega⟩

/-- The top bit of a `size_t`. -/
def topBit : Nat := 2 ^ (sizeofPtr L.ptr * 8 - 1)

theorem topBit_spec : 2 * L.topBit = sizeRange L.ptr := by
  have hWord := Alloc.sizeofPtr_pos L.ptr
  have hExp : 8 * sizeofPtr L.ptr = (sizeofPtr L.ptr * 8 - 1) + 1 := by omega
  rw [topBit, sizeRange, hExp, Nat.pow_succ, Nat.mul_comm]

end Port

end FreeRtos.Heap4
