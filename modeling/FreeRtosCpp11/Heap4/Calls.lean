import FreeRtosCpp11.Heap4.Insert
import FreeRtosCpp11.Heap4.Sizes

/-! `pvPortMalloc` and `vPortFree` on a heap whose blocks tile it. -/
namespace FreeRtos.Heap4

open Links Memory
open Alloc (sizeofPtr sizeRange)

/-- The blocks tile the heap, no two free ones touch, and the static variables
and the links of the blocks say so. -/
structure Inv (L : Port) (h : Heap) (tiles : List Tile) : Prop where
  linked : Linked L h tiles
  coalesced : Coalesced tiles
  sizes : ∀ t ∈ tiles, L.portBYTE_ALIGNMENT ∣ t.len ∧ L.xHeapStructSize ≤ t.len
  used : ∀ t ∈ tiles, t.free = false → h.size t.addr = t.len ||| L.topBit ∧ h.next t.addr = 0
  bit : h.xBlockAllocatedBit = L.topBit
  bytes : h.xFreeBytesRemaining = freeBytes tiles

variable {L : Port} {h : Heap} {a n want : Nat} {t b : Tile} {pre post tiles : List Tile}

theorem Inv.len_lt (hInv : Inv L h tiles) (ht : t ∈ tiles) : t.len < L.topBit := by
  have hBounds := hInv.linked.tiling.bounds ht
  have hSize := L.initialSize_spec.2.2.1
  have hBit := L.topBit_spec
  unfold Port.initialSize at hSize
  omega

/-- The place of a block in use is no node of the free list. -/
theorem Linked.used_apart (hLinked : Linked L h tiles) (ht : t ∈ tiles) (hUsed : t.free = false) :
    t.addr ≠ L.xStart ∧ t.addr ≠ L.endMarker ∧ t.addr ∉ freeAddrs tiles := by
  have hBounds := hLinked.tiling.bounds ht
  have hApart := L.xStart_apart
  refine ⟨by omega, by omega, fun hMem => ?_⟩
  obtain ⟨u, hu, hFree, hAddr⟩ := mem_freeAddrs.mp hMem
  rw [hLinked.tiling.eq_of_addr hu ht hAddr, hUsed] at hFree
  cases hFree

/-- The first call of `pvPortMalloc` makes the heap one free block. -/
theorem inv_prvHeapInit (L : Port) (h : Heap) :
    Inv L (prvHeapInit L h) [⟨L.pucAlignedHeap, L.initialSize, true⟩] := by
  have hApart := L.xStart_apart
  have hStruct := L.structSize_pos
  have hEnd := L.endMarker_spec.2.1
  obtain ⟨hDvd, hRoom, _⟩ := L.initialSize_spec
  have hSum : L.pucAlignedHeap + L.initialSize = L.endMarker := by
    unfold Port.initialSize
    omega
  have hStartFirst : L.xStart ≠ L.pucAlignedHeap := by omega
  have hStartEnd : L.xStart ≠ L.endMarker := by omega
  have hFirstEnd : L.pucAlignedHeap ≠ L.endMarker := by omega
  have hMem : (prvHeapInit L h).mem L.xStart = ⟨L.pucAlignedHeap, 0⟩ ∧
      (prvHeapInit L h).mem L.endMarker = ⟨0, 0⟩ ∧
      (prvHeapInit L h).mem L.pucAlignedHeap = ⟨L.endMarker, L.initialSize⟩ := by
    simp [prvHeapInit, Heap.setNext, Heap.setSize, hStartFirst, hStartEnd, hFirstEnd, hFirstEnd.symm,
      Port.initialSize]
  obtain ⟨hMemStart, hMemEnd, hMemFirst⟩ := hMem
  have hBytes : (prvHeapInit L h).xFreeBytesRemaining = L.initialSize := by
    simp [prvHeapInit, Heap.size, Heap.setNext, Heap.setSize, Port.initialSize]
  have hPos : 0 < L.initialSize := by omega
  refine ⟨⟨rfl, ⟨rfl, hPos, hSum⟩, ?_, ?_, ?_, ?_⟩, ?_, ?_, ?_, ?_, ?_⟩
  · exact ⟨congrArg BlockLink.pxNextFreeBlock hMemStart, congrArg BlockLink.pxNextFreeBlock hMemFirst⟩
  · exact congrArg BlockLink.xBlockSize hMemStart
  · exact ⟨congrArg BlockLink.xBlockSize hMemEnd, congrArg BlockLink.pxNextFreeBlock hMemEnd⟩
  · intro t ht _
    rw [List.mem_singleton.mp ht]
    exact congrArg BlockLink.xBlockSize hMemFirst
  · exact List.isChain_singleton _
  · intro t ht
    rw [List.mem_singleton.mp ht]
    exact ⟨hDvd, hRoom⟩
  · intro t ht hUsed
    rw [List.mem_singleton.mp ht] at hUsed
    cases hUsed
  · exact Nat.one_shiftLeft _
  · rw [hBytes]
    rfl

section FirstFit

variable (hInv : Inv L h tiles)

include hInv

/-- The nodes before the last one that the loop looks at are free blocks that
are too small. -/
theorem Inv.firstFit_skips {l m : List Nat} (hSplit : freeAddrs tiles = l ++ m)
    (hSmall : ∀ t ∈ tiles, t.addr ∈ l → t.free = true → t.len < want) :
    ∀ x ∈ (L.xStart :: l).dropLast,
      (!(decide (h.size (h.next x) < want) && decide (h.next (h.next x) ≠ 0))) = false := by
  intro x hx
  have hChain := hInv.linked.chain
  have hFirst := hSplit ▸ hChain
  have hNext := (chain_append.mp hFirst).1.next_mem hx
  have hFree : h.next x ∈ freeAddrs tiles := hSplit ▸ List.mem_append_left m hNext
  obtain ⟨t, ht, htFree, hAddr⟩ := mem_freeAddrs.mp hFree
  have hSize := hInv.linked.size t ht htFree
  have hLen := hSmall t ht (hAddr ▸ hNext) htFree
  have hPos : h.next (h.next x) ≠ 0 := by
    rcases hChain.next_mem_or (List.mem_cons_of_mem _ hFree) with hMem | hStop
    · obtain ⟨u, hu, _, huAddr⟩ := mem_freeAddrs.mp hMem
      have hBounds := hInv.linked.tiling.bounds hu
      have hLow := L.pucAlignedHeap_pos
      omega
    · have hEnd := L.endMarker_spec.2.1
      have hLow := L.pucAlignedHeap_pos
      omega
  rw [← hAddr] at hPos ⊢
  simp [hSize, hLen, hPos]

theorem Inv.length_lt {l m : List Nat} (hSplit : freeAddrs tiles = l ++ m) : l.length < L.bound := by
  have hCount := hInv.linked.tiling.length_le
  have hFit := L.initialSize_spec.2.2.2
  have hShort : (freeAddrs tiles).length ≤ tiles.length := by
    rw [freeAddrs, List.length_map]
    exact List.length_filter_le _ _
  rw [hSplit, List.length_append] at hShort
  unfold Port.initialSize at hFit
  omega

/-- Without a block of adequate size the loop ends at the end marker. -/
theorem Inv.firstFit_none (hSmall : ∀ t ∈ tiles, t.free = true → t.len < want) :
    firstFit L h want = some ((freeAddrs tiles).getLastD L.xStart) ∧
      h.next ((freeAddrs tiles).getLastD L.xStart) = h.pxEnd := by
  have hLast : h.next ((freeAddrs tiles).getLastD L.xStart) = L.endMarker := hInv.linked.chain.next_last
  have hSplit : freeAddrs tiles = freeAddrs tiles ++ [] := (List.append_nil _).symm
  refine ⟨?_, hLast.trans hInv.linked.pxEnd.symm⟩
  apply hInv.linked.chain.scan_eq
  · exact hInv.firstFit_skips hSplit fun t ht _ => hSmall t ht
  · rw [hLast]
    simp [hInv.linked.stop]
  · exact hInv.length_lt hSplit

end FirstFit

/-- The loop ends at the first block of adequate size. -/
theorem Inv.firstFit_some (hInv : Inv L h (pre ++ b :: post)) (hb : b.free = true) (hFit : want ≤ b.len)
    (hSmall : ∀ t ∈ pre, t.free = true → t.len < want) :
    firstFit L h want = some ((freeAddrs pre).getLastD L.xStart) ∧
      h.next ((freeAddrs pre).getLastD L.xStart) = b.addr := by
  have hSplit : freeAddrs (pre ++ b :: post) = freeAddrs pre ++ b.addr :: freeAddrs post := by
    rw [freeAddrs_append, freeAddrs_cons, if_pos hb]
  have hChain := hInv.linked.chain
  rw [hSplit, chain_append] at hChain
  have hNext : h.next ((freeAddrs pre).getLastD L.xStart) = b.addr := hChain.1.next_last
  refine ⟨?_, hNext⟩
  apply hChain.1.scan_eq
  · refine hInv.firstFit_skips hSplit fun t ht hMem hFree => ?_
    obtain ⟨u, hu, _, hAddr⟩ := mem_freeAddrs.mp hMem
    rw [← hInv.linked.tiling.eq_of_addr (List.mem_append_left _ hu) ht hAddr] at hFree ⊢
    exact hSmall u hu hFree
  · have hSize := hInv.linked.size b (by simp) hb
    rw [hNext]
    simp [hSize, Nat.not_lt.mpr hFit]
  · exact hInv.length_lt hSplit

/-- A write to the link of a block in use keeps the free list. -/
theorem Linked.of_used {h' : Heap} (hLinked : Linked L h tiles) (hb : b ∈ tiles) (hUsed : b.free = false)
    (hEnd : h'.pxEnd = h.pxEnd) (hMem : ∀ a, a ≠ b.addr → h'.mem a = h.mem a) : Linked L h' tiles := by
  obtain ⟨hStart, hStop, hFree⟩ := hLinked.used_apart hb hUsed
  refine hLinked.of_agree hEnd fun a ha => hMem a ?_
  rintro rfl
  rcases ha with hIs | hIs | hIs
  · exact hStart hIs
  · exact hStop hIs
  · exact hFree hIs

/-- Part of the block is split off, or the block stays whole. -/
structure Split (L : Port) (h : Heap) (pre : List Tile) (b : Tile) (post : List Tile) (want : Nat) (h' : Heap)
    (tiles' : List Tile) (len : Nat) : Prop where
  acquire : Acquire pre b post want tiles'
  linked : Linked L h' tiles'
  mem : ⟨b.addr, len, false⟩ ∈ tiles'
  fits : want ≤ len
  size : h'.size b.addr = len
  bytes : freeBytes (pre ++ b :: post) = freeBytes tiles' + len
  same : Heap.SameCounters h h'
  sizes : ∀ t ∈ tiles', L.portBYTE_ALIGNMENT ∣ t.len ∧ L.xHeapStructSize ≤ t.len
  frame : ∀ t ∈ pre ++ post, t.free = false → h'.mem t.addr = h.mem t.addr

section Take

variable (hInv : Inv L h (pre ++ b :: post)) (hb : b.free = true)

include hInv hb

/-- The block is taken out of the free list. -/
theorem Inv.unlinked :
    Linked L (h.setNext ((freeAddrs pre).getLastD L.xStart) (h.next b.addr)) (pre ++ ⟨b.addr, b.len, false⟩ :: post) := by
  have hTiles := tiling_split.mp hInv.linked.tiling
  have hBounds := hInv.linked.block_bounds
  have hEndNe : L.endMarker ≠ (freeAddrs pre).getLastD L.xStart := hInv.linked.iterator_ne (by omega)
  have hChain := hInv.linked.chain
  have hNodup := hInv.linked.nodup
  rw [freeAddrs_append, freeAddrs_cons, if_pos hb] at hChain hNodup
  refine hInv.linked.of_links (Heap.SameCounters.refl h).setNext
    (tiling_split.mpr ⟨hTiles.1, hTiles.2.1, hTiles.2.2⟩) ?_ ?_ ?_ ?_
  · rw [Heap.next_setNext, freeAddrs_append, freeAddrs_cons, if_neg Bool.false_ne_true]
    exact hChain.unlink hNodup
  · intro t ht hFree
    rw [Heap.size_setNext]
    rcases List.mem_append.mp ht with hIn | hIn
    · exact hInv.linked.size t (List.mem_append_left _ hIn) hFree
    · rcases List.mem_cons.mp hIn with rfl | hIn
      · cases hFree
      · exact hInv.linked.size t (by simp [hIn]) hFree
  · rw [Heap.size_setNext]
  · rw [Heap.size_setNext, Heap.next_setNext, Function.update_of_ne hEndNe]
    exact ⟨rfl, rfl⟩

/-- The links of the other blocks in use are not those of the block. -/
theorem Inv.used_other (ht : t ∈ pre ++ post) (hUsed : t.free = false) :
    t.addr ≠ b.addr ∧ t.addr ≠ (freeAddrs pre).getLastD L.xStart ∧
      ¬ (b.addr < t.addr ∧ t.addr < b.addr + b.len) := by
  have hIn : t ∈ pre ++ b :: post := mem_around b ht
  obtain ⟨hStart, _, hFree⟩ := hInv.linked.used_apart hIn hUsed
  refine ⟨fun hSame => ?_, fun hSame => ?_, fun hInside => ?_⟩
  · rw [hInv.linked.tiling.eq_of_addr hIn (by simp) hSame, hb] at hUsed
    cases hUsed
  · rcases List.mem_cons.mp (getLastD_mem L.xStart (freeAddrs pre)) with hRoot | hMem
    · exact hStart (hSame.trans hRoot)
    · rw [freeAddrs_append] at hFree
      exact hFree (List.mem_append_left _ (hSame ▸ hMem))
  · obtain ⟨hPre, _, hPost⟩ := tiling_split.mp hInv.linked.tiling
    rcases List.mem_append.mp ht with hMem | hMem
    · have hBelow := hPre.bounds hMem
      omega
    · have hAbove := hPost.bounds hMem
      omega

/-- The block as it is answered when its rest is too small to be split off. -/
theorem Inv.split_whole (hFit : want ≤ b.len) :
    Split L h pre b post want (h.setNext ((freeAddrs pre).getLastD L.xStart) (h.next b.addr))
      (pre ++ ⟨b.addr, b.len, false⟩ :: post) b.len where
  acquire := .whole
  linked := hInv.unlinked hb
  mem := by simp
  fits := hFit
  size := by
    rw [Heap.size_setNext]
    exact hInv.linked.size b (by simp) hb
  bytes := by
    simp [freeBytes_append, freeBytes_cons, hb]
    omega
  same := (Heap.SameCounters.refl h).setNext
  sizes := by
    intro t ht
    rcases List.mem_append.mp ht with hIn | hIn
    · exact hInv.sizes t (by simp [hIn])
    · rcases List.mem_cons.mp hIn with rfl | hIn
      · exact hInv.sizes b (by simp)
      · exact hInv.sizes t (by simp [hIn])
  frame t ht hUsed := Heap.mem_setNext_of_ne (hInv.used_other hb ht hUsed).2.1

/-- The rest of the block before it is inserted. -/
theorem Inv.split_linked (hPos : 0 < want) (hRest : want < b.len) :
    Linked L (((h.setNext ((freeAddrs pre).getLastD L.xStart) (h.next b.addr)).setSize (b.addr + want)
        (b.len - want)).setSize b.addr want)
      (pre ++ ⟨b.addr, want, false⟩ :: ⟨b.addr + want, b.len - want, false⟩ :: post) := by
  have hUnlinked := hInv.unlinked hb
  obtain ⟨hPre, hLen, hPost⟩ := tiling_split.mp hUnlinked.tiling
  have hLinked : Linked L (h.setNext ((freeAddrs pre).getLastD L.xStart) (h.next b.addr))
      (pre ++ ⟨b.addr, want, false⟩ :: ⟨b.addr + want, b.len - want, false⟩ :: post) := by
    refine hUnlinked.of_links (Heap.SameCounters.refl _) (tiling_split.mpr ⟨hPre, hPos, rfl, ?_, ?_⟩) ?_ ?_ rfl
      ⟨rfl, rfl⟩
    · exact Nat.sub_pos_of_lt hRest
    · rwa [show b.addr + want + (b.len - want) = b.addr + b.len by omega]
    · have hChain := hUnlinked.chain
      rw [freeAddrs_append, freeAddrs_cons, if_neg Bool.false_ne_true] at hChain ⊢
      rwa [freeAddrs_cons, if_neg Bool.false_ne_true]
    · intro t ht hFree
      rcases List.mem_append.mp ht with hIn | hIn
      · exact hUnlinked.size t (by simp [hIn]) hFree
      · rcases List.mem_cons.mp hIn with rfl | hIn
        · cases hFree
        rcases List.mem_cons.mp hIn with rfl | hIn
        · cases hFree
        · exact hUnlinked.size t (by simp [hIn]) hFree
  have hNew := hLinked.of_used (b := ⟨b.addr + want, b.len - want, false⟩) (by simp) rfl Heap.pxEnd_setSize
    fun a hNe => Heap.mem_setSize_of_ne (v := b.len - want) hNe
  exact hNew.of_used (b := ⟨b.addr, want, false⟩) (by simp) rfl Heap.pxEnd_setSize
    fun a hNe => Heap.mem_setSize_of_ne hNe

theorem Inv.splitBlock_spec (hFit : want ≤ b.len) (hDvd : L.portBYTE_ALIGNMENT ∣ want)
    (hRoom : L.xHeapStructSize ≤ want) :
    ∃ h' tiles' len, splitBlock L (h.setNext ((freeAddrs pre).getLastD L.xStart) (h.next b.addr)) b.addr want =
        some h' ∧ Split L h pre b post want h' tiles' len := by
  have hSize : (h.setNext ((freeAddrs pre).getLastD L.xStart) (h.next b.addr)).size b.addr = b.len := by
    rw [Heap.size_setNext]
    exact hInv.linked.size b (by simp) hb
  have hStruct := L.structSize_pos
  unfold splitBlock
  rw [hSize]
  split
  case isFalse => exact ⟨_, _, _, rfl, hInv.split_whole hb hFit⟩
  case isTrue hLarge =>
    have hMin : L.heapMINIMUM_BLOCK_SIZE = 2 * L.xHeapStructSize := by
      rw [Port.heapMINIMUM_BLOCK_SIZE, Nat.shiftLeft_eq, Nat.mul_comm]
    have hPos : 0 < want := by omega
    have hLinked := hInv.split_linked hb hPos (by omega)
    have hUsed := hLinked.used_apart (t := ⟨b.addr, want, false⟩) (by simp) rfl
    rw [show pre ++ ⟨b.addr, want, false⟩ :: ⟨b.addr + want, b.len - want, false⟩ :: post =
      (pre ++ [⟨b.addr, want, false⟩]) ++ ⟨b.addr + want, b.len - want, false⟩ :: post by simp] at hLinked hUsed
    have hNewSize : (((h.setNext ((freeAddrs pre).getLastD L.xStart) (h.next b.addr)).setSize (b.addr + want)
        (b.len - want)).setSize b.addr want).size (b.addr + want) = b.len - want := by
      rw [Heap.size_setSize, Function.update_of_ne (by omega), Heap.size_setSize, Function.update_self]
    obtain ⟨h', tiles', hCall, hInserted⟩ := hLinked.prvInsertBlockIntoFreeList rfl hNewSize
    have hTiles := hInserted.release.eq_alone (by simp) (hInv.coalesced.neighbours hb).2
    have hList : tiles' = pre ++ ⟨b.addr, want, false⟩ :: ⟨b.addr + want, b.len - want, true⟩ :: post := by
      rw [hTiles]
      simp
    subst hList
    have hFree : freeAddrs (pre ++ [⟨b.addr, want, false⟩] ++ post) = freeAddrs (pre ++ post) := by
      simp [freeAddrs]
    rw [freeAddrs_append, freeAddrs_cons, if_neg Bool.false_ne_true, ← freeAddrs_append, hFree] at hUsed
    refine ⟨h', _, want, hCall, .part hPos (by omega), hInserted.linked, by simp, Nat.le_refl _, ?_, ?_, ?_, ?_, ?_⟩
    · have hMem := hInserted.frame b.addr hUsed.1 (show b.addr ≠ b.addr + want by omega) (hFree ▸ hUsed.2.2)
      rw [Heap.size, hMem, ← Heap.size, Heap.size_setSize, Function.update_self]
    · simp [freeBytes_append, freeBytes_cons, hb]
      omega
    · have hSame := hInserted.same
      exact ⟨hSame.pxEnd, hSame.free, hSame.minimum, hSame.allocations, hSame.frees, hSame.bit⟩
    · have hbSizes := hInv.sizes b (by simp)
      intro t ht
      rcases List.mem_append.mp ht with hIn | hIn
      · exact hInv.sizes t (by simp [hIn])
      rcases List.mem_cons.mp hIn with rfl | hIn
      · exact ⟨hDvd, hRoom⟩
      rcases List.mem_cons.mp hIn with rfl | hIn
      · exact ⟨Nat.dvd_sub hbSizes.1 hDvd, by simp only; omega⟩
      · exact hInv.sizes t (by simp [hIn])
    · intro t ht htUsed
      obtain ⟨hBlock, hIter, hInside⟩ := hInv.used_other hb ht htUsed
      have hIn : t ∈ pre ++ b :: post := mem_around b ht
      obtain ⟨hStart, _, hList⟩ := hInv.linked.used_apart hIn htUsed
      have hNew : t.addr ≠ b.addr + want := by omega
      rw [hInserted.frame t.addr hStart hNew ?_, Heap.mem_setSize_of_ne hBlock, Heap.mem_setSize_of_ne hNew,
        Heap.mem_setNext_of_ne hIter]
      rw [hFree]
      intro hMem
      rw [freeAddrs_append, freeAddrs_cons, if_pos hb] at hList
      rw [freeAddrs_append] at hMem
      apply hList
      rcases List.mem_append.mp hMem with hPre | hPost
      · exact List.mem_append_left _ hPre
      · exact List.mem_append_right _ (List.mem_cons_of_mem _ hPost)

end Take

end FreeRtos.Heap4
