import FreeRtosCpp11.Heap4.Calls

/-! What a call does to the tiles: an allocation takes the first free tile that
is large enough, a free gives a tile back. -/
namespace FreeRtos.Heap4

open Links Memory
open Alloc (sizeofPtr sizeRange)

/-- What an allocation of `n` bytes from the free tile `b` does. -/
structure Allocated (L : Port) (h : Heap) (pre : List Tile) (b : Tile) (post : List Tile) (n : Nat) (h' : Heap)
    (tiles' : List Tile) : Prop where
  acquire : Acquire pre b post (L.blockSize n) tiles'
  inv : Inv L h' tiles'
  block : ∃ len, ⟨b.addr, len, false⟩ ∈ tiles' ∧ L.blockSize n ≤ len
  minimum : h'.xMinimumEverFreeBytesRemaining =
    min h.xMinimumEverFreeBytesRemaining h'.xFreeBytesRemaining
  allocations : h'.xNumberOfSuccessfulAllocations = (h.xNumberOfSuccessfulAllocations + 1) % sizeRange L.ptr
  frees : h'.xNumberOfSuccessfulFrees = h.xNumberOfSuccessfulFrees

/-- What a free of the tile `b` does. -/
structure Freed (L : Port) (h : Heap) (pre : List Tile) (b : Tile) (post : List Tile) (h' : Heap)
    (tiles' : List Tile) : Prop where
  release : Release pre b post tiles'
  inv : Inv L h' tiles'
  minimum : h'.xMinimumEverFreeBytesRemaining = h.xMinimumEverFreeBytesRemaining
  allocations : h'.xNumberOfSuccessfulAllocations = h.xNumberOfSuccessfulAllocations
  frees : h'.xNumberOfSuccessfulFrees = (h.xNumberOfSuccessfulFrees + 1) % sizeRange L.ptr

variable {L : Port} {h h' : Heap} {a n p len want : Nat} {t b : Tile} {pre post tiles tiles' : List Tile}

theorem pxEnd_handOut : (handOut L h a).pxEnd = h.pxEnd := by
  unfold handOut
  simp only
  split <;> rfl

theorem mem_handOut :
    (handOut L h a).mem = Function.update h.mem a ⟨0, h.size a ||| h.xBlockAllocatedBit⟩ := by
  unfold handOut
  simp only
  split <;> simp [Heap.setNext, Heap.setSize, Heap.size]

theorem counters_handOut :
    (handOut L h a).xFreeBytesRemaining = h.xFreeBytesRemaining - h.size a ∧
    (handOut L h a).xMinimumEverFreeBytesRemaining =
      min h.xMinimumEverFreeBytesRemaining (h.xFreeBytesRemaining - h.size a) ∧
    (handOut L h a).xNumberOfSuccessfulAllocations = (h.xNumberOfSuccessfulAllocations + 1) % sizeRange L.ptr ∧
    (handOut L h a).xNumberOfSuccessfulFrees = h.xNumberOfSuccessfulFrees ∧
    (handOut L h a).xBlockAllocatedBit = h.xBlockAllocatedBit := by
  unfold handOut
  simp only
  split
  case isTrue hLess => exact ⟨rfl, (Nat.min_eq_right (Nat.le_of_lt hLess)).symm, rfl, rfl, rfl⟩
  case isFalse hLess => exact ⟨rfl, (Nat.min_eq_left (Nat.not_lt.mp hLess)).symm, rfl, rfl, rfl⟩

/-- The split block goes to the application. -/
theorem Split.handOut (hInv : Inv L h (pre ++ b :: post)) (hb : b.free = true)
    (hSplit : Split L h pre b post (L.blockSize n) h' tiles' len) :
    Allocated L h pre b post n (handOut L h' b.addr) tiles' := by
  obtain ⟨hFree, hMin, hAlloc, hFrees, hBit⟩ := counters_handOut (L := L) (h := h') (a := b.addr)
  have hSame := hSplit.same
  have hMark : h'.xBlockAllocatedBit = L.topBit := hSame.bit.trans hInv.bit
  have hBytes : (Heap4.handOut L h' b.addr).xFreeBytesRemaining = freeBytes tiles' := by
    rw [hFree, hSplit.size, hSame.free, hInv.bytes, hSplit.bytes, Nat.add_sub_cancel]
  have hMem : ∀ x, x ≠ b.addr → (Heap4.handOut L h' b.addr).mem x = h'.mem x := by
    intro x hx
    rw [mem_handOut, Function.update_of_ne hx]
  have hHere : (Heap4.handOut L h' b.addr).mem b.addr = ⟨0, len ||| L.topBit⟩ := by
    rw [mem_handOut, Function.update_self, hSplit.size, hMark]
  have hLinked : Linked L (Heap4.handOut L h' b.addr) tiles' :=
    hSplit.linked.of_used hSplit.mem rfl pxEnd_handOut hMem
  refine ⟨hSplit.acquire, ⟨hLinked, ?_, hSplit.sizes, ?_, hBit.trans hMark, hBytes⟩, ⟨len, hSplit.mem, hSplit.fits⟩,
    ?_, ?_, ?_⟩
  · exact hSplit.acquire.coalesced hInv.coalesced hb
  · intro t ht hUsed
    rcases hSplit.acquire.mem_used ht hUsed with hOld | hAddr
    · have hOther := (hInv.used_other hb hOld hUsed).1
      have hIn : t ∈ pre ++ b :: post := mem_around b hOld
      rw [Heap.size, Heap.next, hMem t.addr hOther, hSplit.frame t hOld hUsed]
      exact hInv.used t hIn hUsed
    · have hTile : t = ⟨b.addr, len, false⟩ := hSplit.linked.tiling.eq_of_addr ht hSplit.mem hAddr
      rw [Heap.size, Heap.next, hAddr, hHere, hTile]
      exact ⟨rfl, rfl⟩
  · rw [hMin, hSame.minimum, ← hFree]
  · rw [hAlloc, hSame.allocations]
  · rw [hFrees, hSame.frees]

theorem ready_eq (hEnd : h.pxEnd ≠ 0) : ready L h = h := if_neg hEnd

theorem Inv.pxEnd_ne_zero (hInv : Inv L h tiles) : h.pxEnd ≠ 0 := by
  have hEnd := L.endMarker_spec.2.1
  have hLow := L.pucAlignedHeap_pos
  rw [hInv.linked.pxEnd]
  omega

/-- An allocation that some free tile is large enough for takes the first one. -/
theorem Inv.pvPortMalloc_some (hInv : Inv L h (pre ++ b :: post)) (hb : b.free = true) (hPos : 0 < n)
    (hFit : L.blockSize n ≤ b.len) (hSmall : ∀ t ∈ pre, t.free = true → t.len < L.blockSize n) :
    ∃ h' tiles', pvPortMalloc L h n = some (b.addr + L.xHeapStructSize, h') ∧
      Allocated L h pre b post n h' tiles' := by
  have hLen := hInv.len_lt (t := b) (by simp)
  have hRange := L.topBit_spec
  obtain ⟨hDvd, hRoom⟩ := blockSize_spec L n
  have hn : n < sizeRange L.ptr := by omega
  have hWanted : wantedSize L n = L.blockSize n := by
    rw [wantedSize_eq hn, if_pos ⟨hPos, by omega⟩]
  have hNoBit : n &&& h.xBlockAllocatedBit = 0 := by
    rw [hInv.bit, and_topBit_eq_zero_iff hn]
    omega
  have hEnough : L.blockSize n ≤ h.xFreeBytesRemaining := by
    rw [hInv.bytes]
    exact Nat.le_trans hFit (len_le_freeBytes (by simp) hb)
  have hNotEnd : b.addr ≠ h.pxEnd := by
    have hBounds := hInv.linked.block_bounds
    rw [hInv.linked.pxEnd]
    omega
  obtain ⟨hLoop, hNext⟩ := hInv.firstFit_some hb hFit hSmall
  obtain ⟨h₁, tiles', len, hCall, hSplit⟩ := hInv.splitBlock_spec hb hFit hDvd (by omega)
  refine ⟨handOut L h₁ b.addr, tiles', ?_, hSplit.handOut hInv hb⟩
  simp only [pvPortMalloc, ready_eq hInv.pxEnd_ne_zero, hNoBit, if_true, hWanted]
  rw [if_pos ⟨by omega, hEnough⟩, hLoop, Option.bind_some, hNext, if_pos hNotEnd, hCall]
  rfl

/-- Otherwise the answer is null and nothing changes. -/
theorem Inv.pvPortMalloc_null (hInv : Inv L h tiles) (hn : n < sizeRange L.ptr)
    (hNone : n = 0 ∨ ∀ t ∈ tiles, t.free = true → t.len < L.blockSize n) :
    pvPortMalloc L h n = some (0, h) := by
  simp only [pvPortMalloc, ready_eq hInv.pxEnd_ne_zero]
  split
  case isFalse => rfl
  case isTrue =>
    split
    case isFalse => rfl
    case isTrue hEnough =>
      rw [wantedSize_eq hn] at hEnough ⊢
      by_cases hFits : 0 < n ∧ L.blockSize n < sizeRange L.ptr
      · rw [if_pos hFits]
        have hSmall := hNone.resolve_left (Nat.ne_of_gt hFits.1)
        obtain ⟨hLoop, hNext⟩ := hInv.firstFit_none hSmall
        rw [hLoop, Option.bind_some, if_neg (not_not.mpr hNext)]
      · rw [if_neg hFits] at hEnough
        exact absurd hEnough.1 (Nat.lt_irrefl 0)

/-- Before the first allocation the heap is set up. -/
theorem pvPortMalloc_init (hEnd : h.pxEnd = 0) : pvPortMalloc L h n = pvPortMalloc L (prvHeapInit L h) n := by
  rw [pvPortMalloc, pvPortMalloc, ready_eq (inv_prvHeapInit L h).pxEnd_ne_zero, ready, if_pos hEnd]

theorem Inv.freed {pre post : List Tile} (hInv : Inv L h (pre ++ b :: post)) (hb : b.free = false) :
    ∃ h' tiles', vPortFree L h (b.addr + L.xHeapStructSize) = some h' ∧ Freed L h pre b post h' tiles' := by
  have hStruct := L.structSize_pos
  have hIn : b ∈ pre ++ b :: post := by simp
  obtain ⟨hMark, hNext⟩ := hInv.used b hIn hb
  obtain ⟨hSet, hClear⟩ := marked_spec (hInv.len_lt hIn)
  have hLink : b.addr + L.xHeapStructSize - L.xHeapStructSize = b.addr := Nat.add_sub_cancel _ _
  have hBit := hInv.bit
  simp only [vPortFree, hLink, hMark, hBit, hNext, hClear, if_true]
  rw [if_pos (by omega), if_pos hSet]
  -- the block with its bit cleared, counted as free
  have hCleared : Linked L { h.setSize b.addr b.len with
      xFreeBytesRemaining := h.xFreeBytesRemaining + (h.setSize b.addr b.len).size b.addr } (pre ++ b :: post) :=
    hInv.linked.of_used hIn hb rfl fun a hNe => Heap.mem_setSize_of_ne hNe
  have hSize : Heap.size { h.setSize b.addr b.len with
      xFreeBytesRemaining := h.xFreeBytesRemaining + (h.setSize b.addr b.len).size b.addr } b.addr = b.len := by
    have hHere : (h.setSize b.addr b.len).size b.addr = b.len := by
      rw [Heap.size_setSize, Function.update_self]
    exact hHere
  obtain ⟨h', tiles', hCall, hInserted⟩ := hCleared.prvInsertBlockIntoFreeList hb hSize
  have hSame := hInserted.same
  refine ⟨_, tiles', congrArg (Option.map _) hCall, hInserted.release, ?_, hSame.minimum, hSame.allocations,
    congrArg (fun x => (x + 1) % sizeRange L.ptr) hSame.frees⟩
  refine ⟨hInserted.linked.of_agree rfl fun _ _ => rfl, hInserted.release.coalesced hInv.coalesced, ?_, ?_,
    hSame.bit.trans hBit, ?_⟩
  · intro t ht
    have hAdd : ∀ x y, L.portBYTE_ALIGNMENT ∣ x ∧ L.xHeapStructSize ≤ x → L.portBYTE_ALIGNMENT ∣ y ∧
        L.xHeapStructSize ≤ y → L.portBYTE_ALIGNMENT ∣ x + y ∧ L.xHeapStructSize ≤ x + y :=
      fun x y hx hy => ⟨Nat.dvd_add hx.1 hy.1, Nat.le_trans hx.2 (Nat.le_add_right x y)⟩
    exact hInserted.release.forall_len hAdd hInv.sizes t ht
  · intro t ht hUsed
    have hOld := (hInserted.release.mem_used hUsed).mp ht
    have hAll : t ∈ pre ++ b :: post := mem_around b hOld
    obtain ⟨hStart, _, hFree⟩ := hInv.linked.used_apart hAll hUsed
    have hNe : t.addr ≠ b.addr := by
      obtain ⟨hPre, hLen, hPost⟩ := tiling_split.mp hInv.linked.tiling
      rcases List.mem_append.mp hOld with hMem | hMem
      · have hBelow := hPre.bounds hMem
        omega
      · have hAbove := hPost.bounds hMem
        omega
    rw [freeAddrs_append, freeAddrs_cons, hb, if_neg Bool.false_ne_true, ← freeAddrs_append] at hFree
    have hFrame : h'.mem t.addr = h.mem t.addr :=
      (hInserted.frame t.addr hStart hNe hFree).trans (Heap.mem_setSize_of_ne hNe)
    have hLinks := hInv.used t hAll hUsed
    rwa [Heap.size, Heap.next, ← hFrame] at hLinks
  · rw [hInserted.release.freeBytes_eq hb, ← hInv.bytes]
    refine hSame.free.trans ?_
    rw [Heap.size_setSize, Function.update_self]

end FreeRtos.Heap4
