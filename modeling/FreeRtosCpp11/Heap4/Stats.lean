import FreeRtosCpp11.Heap4.Guarantees

/-! `vPortGetHeapStats` walks the free list with a loop that reads a block
before it looks for the end. -/
namespace FreeRtos.Heap4

open Links Memory

variable {L : Port} {s : St} {a : Nat} {h : Heap} {tiles : List Tile} {trace : Transition.Trace St Act}

/-- The loop over a block and the free ones behind it. -/
theorem statsLoop_eq {l : List Nat} {fuel xBlocks xMaxSize xMinSize : Nat} (hChain : Chain h.next h.pxEnd a l)
    (hNull : ∀ x ∈ a :: l, x ≠ 0) (hEnd : h.pxEnd ∉ l) (hFuel : l.length < fuel) :
    statsLoop h fuel a (xBlocks, xMaxSize, xMinSize) =
      .done (xBlocks + (a :: l).length, ((a :: l).map h.size).foldl max xMaxSize,
        ((a :: l).map h.size).foldl min xMinSize) := by
  have hMax : ∀ x y : Nat, (if x > y then x else y) = max y x := by
    intro x y
    split <;> omega
  have hMin : ∀ x y : Nat, (if x < y then x else y) = min y x := by
    intro x y
    split <;> omega
  induction l generalizing a fuel xBlocks xMaxSize xMinSize with
  | nil =>
      obtain ⟨fuel, rfl⟩ := Nat.exists_eq_add_of_lt hFuel
      have hNext : h.next a = h.pxEnd := hChain
      have hHere : a ≠ 0 := hNull a List.mem_cons_self
      simp [statsLoop, hHere, hNext, hMax, hMin]
  | cons b l ih =>
      obtain ⟨fuel, rfl⟩ := Nat.exists_eq_add_of_lt hFuel
      rw [List.mem_cons, not_or] at hEnd
      have hHere : a ≠ 0 := hNull a List.mem_cons_self
      rw [statsLoop, if_neg hHere, hChain.1]
      simp only [hMax, hMin]
      rw [if_pos (Ne.symm hEnd.1), ih hChain.2 (fun x hx => hNull x (List.mem_cons_of_mem a hx)) hEnd.2
        (by simp; omega)]
      simp only [List.length_cons, List.map_cons, List.foldl_cons]
      congr 2
      omega

/-- The statistics of the free blocks. -/
def Heap.stats (L : Port) (portMAX_DELAY : Nat) (h : Heap) : HeapStats where
  xAvailableHeapSpaceInBytes := h.xFreeBytesRemaining
  xSizeOfLargestFreeBlockInBytes := ((h.freeBlocks L).map Prod.snd).foldl max 0
  xSizeOfSmallestFreeBlockInBytes := ((h.freeBlocks L).map Prod.snd).foldl min portMAX_DELAY
  xNumberOfFreeBlocks := (h.freeBlocks L).length
  xMinimumEverFreeBytesRemaining := h.xMinimumEverFreeBytesRemaining
  xNumberOfSuccessfulAllocations := h.xNumberOfSuccessfulAllocations
  xNumberOfSuccessfulFrees := h.xNumberOfSuccessfulFrees

theorem Inv.vPortGetHeapStats (hInv : Inv L h tiles) (portMAX_DELAY : Nat) :
    vPortGetHeapStats L portMAX_DELAY h =
      if h.freeBlocks L = [] then .null else .done (h.stats L portMAX_DELAY) := by
  have hLow := L.pucAlignedHeap_pos
  have hEndLow := L.endMarker_spec.2.1
  have hChain := hInv.linked.chain
  have hWalk := hInv.collect_eq
  have hLength := hInv.length_lt (List.append_nil _).symm
  have hPlaces : ∀ x ∈ freeAddrs tiles, x ≠ 0 ∧ x ≠ h.pxEnd := by
    intro x hx
    obtain ⟨t, ht, _, rfl⟩ := mem_freeAddrs.mp hx
    have hBounds := hInv.linked.tiling.bounds ht
    rw [hInv.linked.pxEnd]
    omega
  have hSizes : (h.freeBlocks L).map Prod.snd = (freeAddrs tiles).map h.size := by
    rw [Heap.freeBlocks, hWalk, List.map_map]
    rfl
  have hCount : (h.freeBlocks L).length = (freeAddrs tiles).length := by
    rw [Heap.freeBlocks, hWalk, List.length_map]
  unfold Heap4.vPortGetHeapStats Heap.stats
  rw [hSizes, hCount]
  cases hFree : freeAddrs tiles with
  | nil =>
      -- the end marker is read as a block, and the null link behind it as the next one
      rw [hFree] at hChain hCount
      have hNext : h.next L.xStart = L.endMarker := hChain
      rw [if_pos (List.eq_nil_of_length_eq_zero hCount), hNext, if_pos (by omega)]
      have hBound : ∃ k, L.bound = k + 2 := by
        have hFit := L.initialSize_spec
        have hStruct := L.structSize_pos
        exact ⟨L.bound - 2, by omega⟩
      obtain ⟨k, hk⟩ := hBound
      have hEnd : ¬ (L.endMarker = 0) := by omega
      have hStop : (0 : Nat) ≠ h.pxEnd := by
        rw [hInv.linked.pxEnd]
        omega
      rw [hk, statsLoop, if_neg hEnd]
      simp only [hInv.linked.stop.2]
      rw [if_pos hStop, statsLoop, if_pos rfl]
      rfl
  | cons a l =>
      rw [hFree] at hChain hCount hPlaces hLength
      have hSome : h.freeBlocks L ≠ [] := by
        intro hNil
        rw [hNil] at hCount
        cases hCount
      rw [if_neg hSome, hChain.1, if_pos (hPlaces a List.mem_cons_self).1,
        statsLoop_eq (hInv.linked.pxEnd ▸ hChain.2) (fun x hx => (hPlaces x hx).1)
          (fun hMem => (hPlaces _ (List.mem_cons_of_mem a hMem)).2 rfl) (Nat.lt_of_succ_lt hLength)]
      simp [Walk.map]

/-- The statistics are those of the free blocks, unless the heap is set up and
has none: then the loop runs past the end marker to a null link. -/
theorem heapStats_of_reaches (hReaches : (system L).Reaches trace s) (portMAX_DELAY : Nat) :
    vPortGetHeapStats L portMAX_DELAY s.heap =
      if s.heap.pxEnd ≠ 0 ∧ s.heap.freeBlocks L = [] then .null else .done (s.heap.stats L portMAX_DELAY) := by
  rcases holds_of_reaches hReaches with ⟨⟨mem, hHeap⟩, _⟩ | ⟨tiles, hHolds⟩
  · have hNext : (Heap.zeroed L mem).next L.xStart = 0 := by
      simp [Heap.next, Heap.zeroed]
    have hEnd : (Heap.zeroed L mem).pxEnd = 0 := rfl
    have hNone : (Heap.zeroed L mem).freeBlocks L = [] := by
      rw [Heap.freeBlocks, Port.bound, collect, hEnd, if_pos hNext, List.map_nil]
    rw [hHeap, if_neg (fun hBoth => hBoth.1 rfl), vPortGetHeapStats, if_neg (not_not.mpr hNext), Heap.stats, hNone]
    rfl
  · rw [hHolds.inv.vPortGetHeapStats]
    have hReady := hHolds.inv.pxEnd_ne_zero
    by_cases hNone : s.heap.freeBlocks L = []
    · rw [if_pos hNone, if_pos ⟨hReady, hNone⟩]
    · rw [if_neg hNone, if_neg (fun hBoth => hNone hBoth.2)]

/-- One block of the whole heap leaves no free block to begin with. -/
theorem heapStats_exhausted : ∃ s, (system lm3s811).exec lm3s811Start [.pvPortMalloc 5968] = some s ∧
    vPortGetHeapStats lm3s811 0xffffffff s.heap = .null := by
  refine ⟨_, rfl, ?_⟩
  rw [heapStats_of_reaches ⟨_, lm3s811_start, Transition.System.run_of_exec [.pvPortMalloc 5968] rfl⟩]
  exact if_pos (by decide)

end FreeRtos.Heap4
