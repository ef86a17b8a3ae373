import FreeRtosCpp11.Heap4.Layout
import FreeRtosCpp11.Memory.Tiles

/-! `prvInsertBlockIntoFreeList` links a block to its place by address and joins
it with the free blocks that touch it. -/
namespace FreeRtos.Heap4

open Links Memory

/-- Where the free tiles start. -/
def freeAddrs (tiles : List Tile) : List Nat := (tiles.filter (·.free)).map Tile.addr

/-- The free list runs through the free tiles in order. -/
structure Linked (L : Port) (h : Heap) (tiles : List Tile) : Prop where
  pxEnd : h.pxEnd = L.endMarker
  tiling : Tiling L.pucAlignedHeap L.endMarker tiles
  chain : Chain h.next L.endMarker L.xStart (freeAddrs tiles)
  start : h.size L.xStart = 0
  stop : h.size L.endMarker = 0 ∧ h.next L.endMarker = 0
  size : ∀ t ∈ tiles, t.free = true → h.size t.addr = t.len

variable {L : Port} {h : Heap} {a v it : Nat} {t x y b : Tile} {l m pre post tiles : List Tile}

namespace Heap

@[simp] theorem next_setNext : (h.setNext a v).next = Function.update h.next a v := by
  funext x
  by_cases hx : x = a <;> simp [Heap.next, setNext, hx]

@[simp] theorem size_setNext : (h.setNext a v).size = h.size := by
  funext x
  by_cases hx : x = a <;> simp [Heap.size, setNext, hx]

@[simp] theorem next_setSize : (h.setSize a v).next = h.next := by
  funext x
  by_cases hx : x = a <;> simp [Heap.next, setSize, hx]

@[simp] theorem size_setSize : (h.setSize a v).size = Function.update h.size a v := by
  funext x
  by_cases hx : x = a <;> simp [Heap.size, setSize, hx]

@[simp] theorem pxEnd_setNext : (h.setNext a v).pxEnd = h.pxEnd := rfl

@[simp] theorem pxEnd_setSize : (h.setSize a v).pxEnd = h.pxEnd := rfl

/-- Nothing but the links changes. -/
structure SameCounters (h h' : Heap) : Prop where
  pxEnd : h'.pxEnd = h.pxEnd
  free : h'.xFreeBytesRemaining = h.xFreeBytesRemaining
  minimum : h'.xMinimumEverFreeBytesRemaining = h.xMinimumEverFreeBytesRemaining
  allocations : h'.xNumberOfSuccessfulAllocations = h.xNumberOfSuccessfulAllocations
  frees : h'.xNumberOfSuccessfulFrees = h.xNumberOfSuccessfulFrees
  bit : h'.xBlockAllocatedBit = h.xBlockAllocatedBit

theorem SameCounters.refl (h : Heap) : SameCounters h h := ⟨rfl, rfl, rfl, rfl, rfl, rfl⟩

theorem SameCounters.setNext {g : Heap} (hSame : SameCounters g h) : SameCounters g (h.setNext a v) :=
  ⟨hSame.pxEnd, hSame.free, hSame.minimum, hSame.allocations, hSame.frees, hSame.bit⟩

theorem SameCounters.setSize {g : Heap} (hSame : SameCounters g h) : SameCounters g (h.setSize a v) :=
  ⟨hSame.pxEnd, hSame.free, hSame.minimum, hSame.allocations, hSame.frees, hSame.bit⟩

end Heap

@[simp] theorem freeAddrs_append : freeAddrs (l ++ m) = freeAddrs l ++ freeAddrs m := by
  simp [freeAddrs]

theorem freeAddrs_cons (t : Tile) (l : List Tile) :
    freeAddrs (t :: l) = if t.free then t.addr :: freeAddrs l else freeAddrs l := by
  cases hFree : t.free <;> simp [freeAddrs, hFree]

theorem mem_freeAddrs : a ∈ freeAddrs tiles ↔ ∃ t ∈ tiles, t.free = true ∧ t.addr = a := by
  simp [freeAddrs, and_assoc]

/-- The four ways the links end up. -/
theorem linkBlock_alone {b : Nat} (hBefore : it + h.size it ≠ b)
    (hAfter : b + h.size b = h.next it → h.next it = h.pxEnd) (hNe : it ≠ b) :
    linkBlock h it b = (h.setNext b (h.next it)).setNext it b := by
  unfold linkBlock
  rw [if_neg hBefore]
  by_cases hTouch : b + h.size b = h.next it
  · simp [hTouch, hAfter hTouch, hNe]
  · simp [hTouch, hNe]

theorem linkBlock_before {b : Nat} (hBefore : it + h.size it = b)
    (hAfter : it + (h.size it + h.size b) = h.next it → h.next it = h.pxEnd) :
    linkBlock h it b = (h.setSize it (h.size it + h.size b)).setNext it (h.next it) := by
  unfold linkBlock
  rw [if_pos hBefore]
  by_cases hTouch : it + (h.size it + h.size b) = h.next it
  · simp [hTouch, hAfter hTouch]
  · simp [hTouch]

theorem linkBlock_after {b : Nat} (hBefore : it + h.size it ≠ b) (hTouch : b + h.size b = h.next it)
    (hAfter : h.next it ≠ h.pxEnd) (hNe : it ≠ b) :
    linkBlock h it b =
      ((h.setSize b (h.size b + h.size (h.next it))).setNext b (h.next (h.next it))).setNext it b := by
  unfold linkBlock
  rw [if_neg hBefore]
  simp [hTouch, hAfter, hNe]

theorem linkBlock_both {b : Nat} (hBefore : it + h.size it = b)
    (hTouch : it + (h.size it + h.size b) = h.next it) (hAfter : h.next it ≠ h.pxEnd)
    (hSelf : h.next it ≠ it) :
    linkBlock h it b =
      ((h.setSize it (h.size it + h.size b)).setSize it
        (h.size it + h.size b + h.size (h.next it))).setNext it (h.next (h.next it)) := by
  unfold linkBlock
  rw [if_pos hBefore]
  simp [hTouch, hAfter, hSelf]

/-- Where a block lies between the free ones. -/
theorem Linked.freeAddrs_lt (hLinked : Linked L h (pre ++ b :: post)) (ha : a ∈ freeAddrs pre) :
    L.pucAlignedHeap ≤ a ∧ a < b.addr := by
  obtain ⟨t, ht, _, rfl⟩ := mem_freeAddrs.mp ha
  have hBounds := (tiling_split.mp hLinked.tiling).1.bounds ht
  omega

theorem Linked.lt_freeAddrs (hLinked : Linked L h (pre ++ b :: post)) (ha : a ∈ freeAddrs post) :
    b.addr + b.len ≤ a ∧ a < L.endMarker := by
  obtain ⟨t, ht, _, rfl⟩ := mem_freeAddrs.mp ha
  have hBounds := (tiling_split.mp hLinked.tiling).2.2.bounds ht
  omega

theorem Linked.block_bounds (hLinked : Linked L h (pre ++ b :: post)) :
    L.pucAlignedHeap ≤ b.addr ∧ 0 < b.len ∧ b.addr + b.len ≤ L.endMarker :=
  hLinked.tiling.bounds (List.mem_append_right pre List.mem_cons_self)

/-- The nodes of the free list are different places. -/
theorem Linked.nodup (hLinked : Linked L h tiles) : (L.xStart :: freeAddrs tiles).Nodup := by
  rw [List.nodup_cons]
  constructor
  · intro hStart
    obtain ⟨t, ht, _, hAddr⟩ := mem_freeAddrs.mp hStart
    have hBounds := hLinked.tiling.bounds ht
    have hApart := L.xStart_apart
    omega
  · refine List.Pairwise.map Tile.addr (fun t u hBefore => ?_) (hLinked.tiling.pairwise_lt.filter _)
    exact Nat.ne_of_lt hBefore

/-- The next free block touches a block only when it is the next tile. -/
theorem Linked.headD_apart (hLinked : Linked L h (pre ++ b :: post))
    (hPost : ∀ y ∈ post.head?, y.free = false)
    (hTouch : b.addr + b.len = (freeAddrs post).headD L.endMarker) :
    (freeAddrs post).headD L.endMarker = L.endMarker := by
  cases post with
  | nil => rfl
  | cons y post =>
      have hy : y.free = false := hPost y rfl
      rw [freeAddrs_cons, hy, if_neg Bool.false_ne_true] at hTouch ⊢
      obtain ⟨hNext, hLen, hRest⟩ := (tiling_split.mp hLinked.tiling).2.2
      cases hFree : freeAddrs post with
      | nil => rfl
      | cons c m =>
          obtain ⟨t, ht, _, rfl⟩ := mem_freeAddrs.mp (hFree ▸ List.mem_cons_self : c ∈ freeAddrs post)
          have hBounds := hRest.bounds ht
          rw [hFree, List.headD_cons] at hTouch
          omega

/-- The free block before touches a block only when it is the tile before. -/
theorem Linked.getLastD_apart (hLinked : Linked L h (pre ++ b :: post))
    (hPre : ∀ x ∈ pre.getLast?, x.free = false) :
    (freeAddrs pre).getLastD L.xStart + h.size ((freeAddrs pre).getLastD L.xStart) ≠ b.addr := by
  intro hTouch
  rcases List.mem_cons.mp (getLastD_mem L.xStart (freeAddrs pre)) with hStart | hMem
  · have hBounds := hLinked.block_bounds
    have hApart := L.xStart_apart
    rw [hStart, hLinked.start] at hTouch
    omega
  · obtain ⟨t, ht, hFree, hAddr⟩ := mem_freeAddrs.mp hMem
    have hSize := hLinked.size t (List.mem_append_left _ ht) hFree
    rw [← hAddr, hSize] at hTouch
    have hLast := (tiling_split.mp hLinked.tiling).1.getLast?_of_stop ht hTouch
    rw [hPre t hLast] at hFree
    cases hFree

/-- The loop stops behind the last free block below. -/
theorem Linked.scan_eq (hLinked : Linked L h (pre ++ b :: post)) (hb : b.free = false) :
    scan h.next (fun pxIterator => !decide (h.next pxIterator < b.addr)) L.bound L.xStart =
      some ((freeAddrs pre).getLastD L.xStart) := by
  have hChain := hLinked.chain
  rw [freeAddrs_append, freeAddrs_cons, hb, if_neg Bool.false_ne_true, chain_append] at hChain
  have hBounds := hLinked.block_bounds
  apply hChain.1.scan_eq
  · intro x hx
    have hBelow := (hLinked.freeAddrs_lt (hChain.1.next_mem hx)).2
    simp [hBelow]
  · have hAbove : b.addr ≤ (freeAddrs post).headD L.endMarker := by
      cases hFree : freeAddrs post with
      | nil => exact Nat.le_trans (Nat.le_add_right _ _) hBounds.2.2
      | cons c m =>
          have hLater := (hLinked.lt_freeAddrs (hFree ▸ List.mem_cons_self : c ∈ freeAddrs post)).1
          exact Nat.le_trans (Nat.le_add_right _ _) hLater
    rw [hChain.1.next_last]
    simpa using hAbove
  · have hCount := hLinked.tiling.length_le
    have hFit := L.initialSize_spec.2.2.2
    have hShort : (freeAddrs pre).length ≤ pre.length := by
      rw [freeAddrs, List.length_map]
      exact List.length_filter_le _ _
    rw [List.length_append] at hCount
    unfold Port.initialSize at hFit
    omega

/-- The block before which a block is inserted is no block between them. -/
theorem Linked.iterator_ne (hLinked : Linked L h (pre ++ b :: post)) (hx : b.addr ≤ a ∧ a ≤ L.endMarker) :
    a ≠ (freeAddrs pre).getLastD L.xStart := by
  intro hSame
  rcases List.mem_cons.mp (getLastD_mem L.xStart (freeAddrs pre)) with hStart | hMem
  · have hBounds := hLinked.block_bounds
    have hApart := L.xStart_apart
    omega
  · have hBelow := hLinked.freeAddrs_lt hMem
    omega

/-- What a heap with other links has to keep. -/
theorem Linked.of_links {h' : Heap} {tiles' : List Tile} (hLinked : Linked L h tiles)
    (hSame : Heap.SameCounters h h') (hTiling : Tiling L.pucAlignedHeap L.endMarker tiles')
    (hChain : Chain h'.next L.endMarker L.xStart (freeAddrs tiles'))
    (hSize : ∀ t ∈ tiles', t.free = true → h'.size t.addr = t.len)
    (hStart : h'.size L.xStart = h.size L.xStart)
    (hStop : h'.size L.endMarker = h.size L.endMarker ∧ h'.next L.endMarker = h.next L.endMarker) :
    Linked L h' tiles' where
  pxEnd := hSame.pxEnd.trans hLinked.pxEnd
  tiling := hTiling
  chain := hChain
  start := hStart.trans hLinked.start
  stop := ⟨hStop.1.trans hLinked.stop.1, hStop.2.trans hLinked.stop.2⟩
  size := hSize

/-- The free list depends on the links of its nodes alone. -/
theorem Linked.of_agree {h' : Heap} (hLinked : Linked L h tiles) (hEnd : h'.pxEnd = h.pxEnd)
    (hMem : ∀ a, a = L.xStart ∨ a = L.endMarker ∨ a ∈ freeAddrs tiles → h'.mem a = h.mem a) :
    Linked L h' tiles where
  pxEnd := hEnd.trans hLinked.pxEnd
  tiling := hLinked.tiling
  chain := by
    refine hLinked.chain.congr fun a ha => ?_
    rw [Heap.next, Heap.next, hMem a ((List.mem_cons.mp ha).imp_right .inr)]
  start := by
    have hStart := hLinked.start
    rwa [Heap.size, ← hMem L.xStart (.inl rfl)] at hStart
  stop := by
    have hStop := hLinked.stop
    rwa [Heap.size, Heap.next, ← hMem L.endMarker (.inr (.inl rfl))] at hStop
  size := by
    intro t ht hFree
    have hSize := hLinked.size t ht hFree
    rwa [Heap.size, ← hMem t.addr (.inr (.inr (mem_freeAddrs.mpr ⟨t, ht, hFree, rfl⟩)))] at hSize

/-- What the insertion of a block `b` between `pre` and `post` does. -/
structure Inserted (L : Port) (h : Heap) (pre : List Tile) (b : Tile) (post : List Tile) (h' : Heap)
    (tiles' : List Tile) : Prop where
  release : Release pre b post tiles'
  linked : Linked L h' tiles'
  same : Heap.SameCounters h h'
  /-- Only free blocks and the block itself are written. -/
  frame : ∀ a, a ≠ L.xStart → a ≠ b.addr → a ∉ freeAddrs (pre ++ post) → h'.mem a = h.mem a

/-- Writes at the two places keep all other links. -/
theorem frame_of_writes {h' : Heap} {b : Tile}
    (hWrites : ∀ a, a ≠ (freeAddrs pre).getLastD L.xStart → a ≠ b.addr → h'.mem a = h.mem a) :
    ∀ a, a ≠ L.xStart → a ≠ b.addr → a ∉ freeAddrs (pre ++ post) → h'.mem a = h.mem a := by
  intro a hStart hBlock hFree
  refine hWrites a ?_ hBlock
  intro hSame
  rcases List.mem_cons.mp (getLastD_mem L.xStart (freeAddrs pre)) with hRoot | hMem
  · exact hStart (hSame.trans hRoot)
  · rw [freeAddrs_append] at hFree
    exact hFree (List.mem_append_left _ (hSame ▸ hMem))

theorem Heap.mem_setNext_of_ne (hNe : a ≠ it) : (h.setNext it v).mem a = h.mem a :=
  Function.update_of_ne hNe _ _

theorem Heap.mem_setSize_of_ne (hNe : a ≠ it) : (h.setSize it v).mem a = h.mem a :=
  Function.update_of_ne hNe _ _

section Cases

variable (hLinked : Linked L h (pre ++ b :: post)) (hb : b.free = false) (hSize : h.size b.addr = b.len)

include hLinked hb

theorem Linked.chain_around : Chain h.next L.endMarker L.xStart (freeAddrs pre ++ freeAddrs post) := by
  have hChain := hLinked.chain
  rwa [freeAddrs_append, freeAddrs_cons, hb, if_neg Bool.false_ne_true] at hChain

theorem Linked.nodup_around : (L.xStart :: (freeAddrs pre ++ freeAddrs post)).Nodup ∧
    b.addr ∉ L.xStart :: (freeAddrs pre ++ freeAddrs post) := by
  have hNodup := hLinked.nodup
  rw [freeAddrs_append, freeAddrs_cons, hb, if_neg Bool.false_ne_true] at hNodup
  refine ⟨hNodup, ?_⟩
  have hBounds := hLinked.block_bounds
  have hApart := L.xStart_apart
  intro hMem
  rcases List.mem_cons.mp hMem with hStart | hMem
  · omega
  rcases List.mem_append.mp hMem with hPre | hPost
  · exact Nat.lt_irrefl _ (hLinked.freeAddrs_lt hPre).2
  · have hLater := (hLinked.lt_freeAddrs hPost).1
    omega

theorem Linked.next_iterator :
    h.next ((freeAddrs pre).getLastD L.xStart) = (freeAddrs post).headD L.endMarker :=
  (chain_append.mp (hLinked.chain_around hb)).1.next_last

include hSize

/-- No free block touches the block. -/
theorem linked_alone (hPre : ∀ x ∈ pre.getLast?, x.free = false)
    (hPost : ∀ y ∈ post.head?, y.free = false) :
    Inserted L h pre b post (linkBlock h ((freeAddrs pre).getLastD L.xStart) b.addr)
      (pre ++ ⟨b.addr, b.len, true⟩ :: post) := by
  have hNext := hLinked.next_iterator hb
  have hBounds := hLinked.block_bounds
  have hBlockNe : b.addr ≠ (freeAddrs pre).getLastD L.xStart := hLinked.iterator_ne (by omega)
  have hEndNe : L.endMarker ≠ (freeAddrs pre).getLastD L.xStart := hLinked.iterator_ne (by omega)
  have hRelease : Release pre b post (pre ++ ⟨b.addr, b.len, true⟩ :: post) := .alone hPre hPost
  rw [linkBlock_alone (hLinked.getLastD_apart hPre) ?_ hBlockNe.symm]
  · have hSame : Heap.SameCounters h ((h.setNext b.addr (h.next ((freeAddrs pre).getLastD L.xStart))).setNext
        ((freeAddrs pre).getLastD L.xStart) b.addr) := (Heap.SameCounters.refl h).setNext.setNext
    refine ⟨hRelease, hLinked.of_links hSame (hRelease.tiling hLinked.tiling) ?_ ?_ ?_ ?_, hSame, ?_⟩
    · rw [freeAddrs_append, freeAddrs_cons, if_pos rfl, Heap.next_setNext, Heap.next_setNext, hNext]
      exact (hLinked.chain_around hb).insert (hLinked.nodup_around hb).1 (hLinked.nodup_around hb).2
    · intro t ht hFree
      rw [Heap.size_setNext, Heap.size_setNext]
      rcases List.mem_append.mp ht with hIn | hIn
      · exact hLinked.size t (List.mem_append_left _ hIn) hFree
      · rcases List.mem_cons.mp hIn with rfl | hIn
        · exact hSize
        · exact hLinked.size t (List.mem_append_right _ (List.mem_cons_of_mem b hIn)) hFree
    · rw [Heap.size_setNext, Heap.size_setNext]
    · rw [Heap.size_setNext, Heap.size_setNext, Heap.next_setNext, Heap.next_setNext,
        Function.update_of_ne hEndNe, Function.update_of_ne (by omega)]
      exact ⟨rfl, rfl⟩
    · refine frame_of_writes fun a hIter hBlock => ?_
      rw [Heap.mem_setNext_of_ne hIter, Heap.mem_setNext_of_ne hBlock]
  · rw [hNext, hSize, hLinked.pxEnd]
    exact hLinked.headD_apart hPost

/-- The next block is free and touches the block. -/
theorem linked_after {y : Tile} {rest : List Tile} (hRest : post = y :: rest)
    (hPre : ∀ x ∈ pre.getLast?, x.free = false) (hy : y.free = true) :
    Inserted L h pre b post (linkBlock h ((freeAddrs pre).getLastD L.xStart) b.addr)
      (pre ++ ⟨b.addr, b.len + y.len, true⟩ :: rest) := by
  subst hRest
  have hPost := (tiling_split.mp hLinked.tiling).2.2
  have hTiles := tiling_split.mp hLinked.tiling
  have hNext := hLinked.next_iterator hb
  rw [freeAddrs_cons, if_pos hy, List.headD_cons] at hNext
  have hBounds := hLinked.block_bounds
  have hAddr : y.addr = b.addr + b.len := hPost.1
  have hyBounds := hPost.bounds List.mem_cons_self
  have hySize : h.size y.addr = y.len := hLinked.size y (by simp) hy
  have hBlockNe : b.addr ≠ (freeAddrs pre).getLastD L.xStart := hLinked.iterator_ne (by omega)
  have hEndNe : L.endMarker ≠ (freeAddrs pre).getLastD L.xStart := hLinked.iterator_ne (by omega)
  have hRelease : Release pre b (y :: rest) (pre ++ ⟨b.addr, b.len + y.len, true⟩ :: rest) := .after hPre hy
  rw [linkBlock_after (hLinked.getLastD_apart hPre) (by rw [hSize, hNext, hAddr])
    (by rw [hNext, hLinked.pxEnd]; omega) hBlockNe.symm, hNext, hSize, hySize]
  have hSame : Heap.SameCounters h (((h.setSize b.addr (b.len + y.len)).setNext b.addr (h.next y.addr)).setNext
      ((freeAddrs pre).getLastD L.xStart) b.addr) := (Heap.SameCounters.refl h).setSize.setNext.setNext
  refine ⟨hRelease, hLinked.of_links hSame (hRelease.tiling hLinked.tiling) ?_ ?_ ?_ ?_, hSame, ?_⟩
  · obtain ⟨hNodup, hNew⟩ := hLinked.nodup_around hb
    have hChain := hLinked.chain_around hb
    rw [freeAddrs_cons, if_pos hy] at hNodup hNew hChain
    have hLater : h.next y.addr = (freeAddrs rest).headD L.endMarker := by
      cases hFree : freeAddrs rest with
      | nil =>
          rw [hFree] at hChain
          exact (chain_append.mp hChain).2.2
      | cons c m =>
          rw [hFree] at hChain
          exact (chain_append.mp hChain).2.2.1
    have hSub : List.Sublist (L.xStart :: (freeAddrs pre ++ freeAddrs rest))
        (L.xStart :: (freeAddrs pre ++ y.addr :: freeAddrs rest)) :=
      (List.Sublist.append_left (List.sublist_cons_self _ _) _).cons_cons _
    have hInsert := (hChain.unlink hNodup).insert (hNodup.sublist hSub) fun hMem => hNew (hSub.subset hMem)
    rw [Function.update_comm hBlockNe.symm, Function.update_idem] at hInsert
    rw [freeAddrs_append, freeAddrs_cons, if_pos rfl, Heap.next_setNext, Heap.next_setNext, Heap.next_setSize,
      hLater]
    exact hInsert
  · intro t ht hFree
    rw [Heap.size_setNext, Heap.size_setNext, Heap.size_setSize]
    rcases List.mem_append.mp ht with hIn | hIn
    · have hBelow := hTiles.1.bounds hIn
      rw [Function.update_of_ne (by omega)]
      exact hLinked.size t (List.mem_append_left _ hIn) hFree
    · rcases List.mem_cons.mp hIn with rfl | hIn
      · exact Function.update_self _ _ _
      · have hAbove := hPost.2.2.bounds hIn
        rw [Function.update_of_ne (by omega)]
        exact hLinked.size t (by simp [hIn]) hFree
  · have hApart := L.xStart_apart
    rw [Heap.size_setNext, Heap.size_setNext, Heap.size_setSize, Function.update_of_ne (by omega)]
  · rw [Heap.size_setNext, Heap.size_setNext, Heap.size_setSize, Heap.next_setNext, Heap.next_setNext,
      Heap.next_setSize, Function.update_of_ne hEndNe, Function.update_of_ne (by omega),
      Function.update_of_ne (by omega)]
    exact ⟨rfl, rfl⟩
  · refine frame_of_writes fun a hIter hBlock => ?_
    rw [Heap.mem_setNext_of_ne hIter, Heap.mem_setNext_of_ne hBlock, Heap.mem_setSize_of_ne hBlock]

/-- The block before is free and touches the block. -/
theorem linked_before {x : Tile} {front : List Tile} (hFront : pre = front ++ [x]) (hx : x.free = true)
    (hPost : ∀ y ∈ post.head?, y.free = false) :
    Inserted L h pre b post (linkBlock h ((freeAddrs pre).getLastD L.xStart) b.addr)
      (front ++ ⟨x.addr, x.len + b.len, true⟩ :: post) := by
  subst hFront
  have hTiles := tiling_split.mp hLinked.tiling
  obtain ⟨hBelow, hxLen, hxStop⟩ := tiling_split.mp hTiles.1
  have hIter : (freeAddrs (front ++ [x])).getLastD L.xStart = x.addr := by
    simp [hx, freeAddrs]
  have hNext := hLinked.next_iterator hb
  have hBounds := hLinked.block_bounds
  have hFirst := hBelow.le
  have hxSize : h.size x.addr = x.len := hLinked.size x (by simp) hx
  rw [Tiling] at hxStop
  have hRelease : Release (front ++ [x]) b post (front ++ ⟨x.addr, x.len + b.len, true⟩ :: post) :=
    .before hx hPost
  rw [hIter] at hNext ⊢
  rw [linkBlock_before (by rw [hxSize, hxStop]) ?_, hxSize, hSize]
  · have hSame : Heap.SameCounters h ((h.setSize x.addr (x.len + b.len)).setNext x.addr (h.next x.addr)) :=
      (Heap.SameCounters.refl h).setSize.setNext
    refine ⟨hRelease, hLinked.of_links hSame (hRelease.tiling hLinked.tiling) ?_ ?_ ?_ ?_, hSame, ?_⟩
    · rw [Heap.next_setNext, Heap.next_setSize, Function.update_eq_self, freeAddrs_append, freeAddrs_cons, if_pos rfl]
      have hChain := hLinked.chain_around hb
      rw [freeAddrs_append, freeAddrs_cons, if_pos hx, List.append_assoc] at hChain
      exact hChain
    · intro t ht hFree
      rw [Heap.size_setNext, Heap.size_setSize]
      rcases List.mem_append.mp ht with hIn | hIn
      · have hLower := hBelow.bounds hIn
        rw [Function.update_of_ne (by omega)]
        exact hLinked.size t (by simp [hIn]) hFree
      · rcases List.mem_cons.mp hIn with rfl | hIn
        · exact Function.update_self _ _ _
        · have hAbove := hTiles.2.2.bounds hIn
          rw [Function.update_of_ne (by omega)]
          exact hLinked.size t (by simp [hIn]) hFree
    · have hApart := L.xStart_apart
      rw [Heap.size_setNext, Heap.size_setSize, Function.update_of_ne (by omega)]
    · rw [Heap.size_setNext, Heap.size_setSize, Heap.next_setNext, Heap.next_setSize, Function.update_eq_self,
        Function.update_of_ne (by omega)]
      exact ⟨rfl, rfl⟩
    · refine frame_of_writes fun a hIterNe _ => ?_
      rw [hIter] at hIterNe
      rw [Heap.mem_setNext_of_ne hIterNe, Heap.mem_setSize_of_ne hIterNe]
  · rw [hxSize, hSize, hNext, hLinked.pxEnd, ← Nat.add_assoc, hxStop]
    exact hLinked.headD_apart hPost

/-- Both neighbours are free and touch the block. -/
theorem linked_both {x y : Tile} {front rest : List Tile} (hFront : pre = front ++ [x]) (hRest : post = y :: rest)
    (hx : x.free = true) (hy : y.free = true) :
    Inserted L h pre b post (linkBlock h ((freeAddrs pre).getLastD L.xStart) b.addr)
      (front ++ ⟨x.addr, x.len + b.len + y.len, true⟩ :: rest) := by
  subst hFront
  subst hRest
  have hTiles := tiling_split.mp hLinked.tiling
  obtain ⟨hBelow, hxLen, hxStop⟩ := tiling_split.mp hTiles.1
  have hIter : (freeAddrs (front ++ [x])).getLastD L.xStart = x.addr := by
    simp [hx, freeAddrs]
  have hNext := hLinked.next_iterator hb
  rw [freeAddrs_cons, if_pos hy, List.headD_cons, hIter] at hNext
  have hBounds := hLinked.block_bounds
  have hFirst := hBelow.le
  have hxSize : h.size x.addr = x.len := hLinked.size x (by simp) hx
  have hySize : h.size y.addr = y.len := hLinked.size y (by simp) hy
  have hAddr : y.addr = b.addr + b.len := hTiles.2.2.1
  have hyBounds := hTiles.2.2.bounds List.mem_cons_self
  rw [Tiling] at hxStop
  have hRelease : Release (front ++ [x]) b (y :: rest)
      (front ++ ⟨x.addr, x.len + b.len + y.len, true⟩ :: rest) := .both hx hy
  rw [hIter]
  rw [linkBlock_both (by rw [hxSize, hxStop]) (by rw [hxSize, hSize, hNext]; omega)
    (by rw [hNext, hLinked.pxEnd]; omega) (by rw [hNext]; omega), hNext, hxSize, hSize, hySize]
  have hSame : Heap.SameCounters h (((h.setSize x.addr (x.len + b.len)).setSize x.addr
      (x.len + b.len + y.len)).setNext x.addr (h.next y.addr)) :=
    (Heap.SameCounters.refl h).setSize.setSize.setNext
  refine ⟨hRelease, hLinked.of_links hSame (hRelease.tiling hLinked.tiling) ?_ ?_ ?_ ?_, hSame, ?_⟩
  · have hChain := hLinked.chain_around hb
    have hNodup := (hLinked.nodup_around hb).1
    rw [freeAddrs_cons, if_pos hy] at hChain hNodup
    have hUnlink := hChain.unlink hNodup
    rw [hIter, freeAddrs_append, freeAddrs_cons, if_pos hx, List.append_assoc] at hUnlink
    rw [Heap.next_setNext, Heap.next_setSize, Heap.next_setSize, freeAddrs_append, freeAddrs_cons, if_pos rfl]
    exact hUnlink
  · intro t ht hFree
    rw [Heap.size_setNext, Heap.size_setSize, Heap.size_setSize, Function.update_idem]
    rcases List.mem_append.mp ht with hIn | hIn
    · have hLower := hBelow.bounds hIn
      rw [Function.update_of_ne (by omega)]
      exact hLinked.size t (by simp [hIn]) hFree
    · rcases List.mem_cons.mp hIn with rfl | hIn
      · exact Function.update_self _ _ _
      · have hAbove := hTiles.2.2.2.2.bounds hIn
        rw [Function.update_of_ne (by omega)]
        exact hLinked.size t (by simp [hIn]) hFree
  · have hApart := L.xStart_apart
    rw [Heap.size_setNext, Heap.size_setSize, Heap.size_setSize, Function.update_of_ne (by omega),
      Function.update_of_ne (by omega)]
  · rw [Heap.size_setNext, Heap.size_setSize, Heap.size_setSize, Heap.next_setNext, Heap.next_setSize,
      Heap.next_setSize, Function.update_of_ne (by omega), Function.update_of_ne (by omega),
      Function.update_of_ne (by omega)]
    exact ⟨rfl, rfl⟩
  · refine frame_of_writes fun a hIterNe _ => ?_
    rw [hIter] at hIterNe
    rw [Heap.mem_setNext_of_ne hIterNe, Heap.mem_setSize_of_ne hIterNe, Heap.mem_setSize_of_ne hIterNe]

/-- A block that is in no list is inserted where it belongs. -/
theorem Linked.prvInsertBlockIntoFreeList :
    ∃ h' tiles', prvInsertBlockIntoFreeList L h b.addr = some h' ∧ Inserted L h pre b post h' tiles' := by
  rw [Heap4.prvInsertBlockIntoFreeList, hLinked.scan_eq hb]
  obtain ⟨tiles', hRelease⟩ := Release.exists_release pre b post
  refine ⟨_, tiles', rfl, ?_⟩
  cases hRelease with
  | alone hPre hPost => exact linked_alone hLinked hb hSize hPre hPost
  | before hx hPost => exact linked_before hLinked hb hSize rfl hx hPost
  | after hPre hy => exact linked_after hLinked hb hSize rfl hPre hy
  | both hx hy => exact linked_both hLinked hb hSize rfl rfl hx hy

end Cases

end FreeRtos.Heap4
