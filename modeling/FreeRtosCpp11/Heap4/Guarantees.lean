import FreeRtosCpp11.Heap4.Runs
import Mathlib.Data.List.Sort

/-! What the callers of the heap rely on, in every state of every run. -/
namespace FreeRtos.Heap4

open Links Memory
open Alloc (sizeofPtr sizeRange)

/-- The free list as a walk along the links finds it. -/
def Heap.freeBlocks (L : Port) (h : Heap) : List (Nat × Nat) :=
  (collect h.next h.pxEnd L.bound L.xStart).map fun a => (a, h.size a)

/-- The size of the block behind a pointer of the application, without the mark. -/
def Heap.blockLen (L : Port) (h : Heap) (pv : Nat) : Nat :=
  h.size (pv - L.xHeapStructSize) &&& (sizeRange L.ptr - 1 - h.xBlockAllocatedBit)

/-- The free bytes seen so far since the heap was set up. -/
def freeHistory (trace : Transition.Trace St Act) (s : St) : List Nat :=
  ((trace.map Prod.fst ++ [s]).filter (·.heap.pxEnd ≠ 0)).map (·.heap.xFreeBytesRemaining)

variable {L : Port} {s s' : St} {a n p pv : Nat} {act : Act} {b : Alloc.Block} {t u : Tile}
  {h : Heap} {tiles tiles' : List Tile} {trace trace' : Transition.Trace St Act}

theorem ready_ready (L : Port) (h : Heap) : ready L (ready L h) = ready L h := by
  by_cases hEnd : h.pxEnd = 0
  · have hInit : ready L h = prvHeapInit L h := if_pos hEnd
    rw [hInit, ready_eq (inv_prvHeapInit L h).pxEnd_ne_zero]
  · rw [ready_eq hEnd, ready_eq hEnd]

theorem pvPortMalloc_ready (L : Port) (h : Heap) (n : Nat) :
    pvPortMalloc L (ready L h) n = pvPortMalloc L h n := by
  rw [pvPortMalloc, pvPortMalloc, ready_ready]

/-- Once set up, the blocks of a reachable heap tile it. -/
theorem holds_ready (hReaches : (system L).Reaches trace s) :
    ∃ tiles, Holds L { s with heap := ready L s.heap } tiles := by
  rcases holds_of_reaches hReaches with hFresh | ⟨tiles, hHolds⟩
  · rw [ready, if_pos hFresh.pxEnd]
    exact ⟨_, hFresh.holds⟩
  · rw [ready_eq hHolds.inv.pxEnd_ne_zero]
    exact ⟨tiles, hHolds⟩

/-- In every state after the first allocation the blocks tile the heap, no two
free ones touch, the free list links exactly these, and the blocks in use are
those of the application. -/
theorem blocks_of_reaches (hReaches : (system L).Reaches trace s) (hReady : s.heap.pxEnd ≠ 0) :
    ∃ tiles, Holds L s tiles := by
  rcases holds_of_reaches hReaches with hFresh | hHolds
  · exact absurd hFresh.pxEnd hReady
  · exact hHolds

/-- A port with 6000 bytes of heap. -/
def lm3s811 : Port where
  ptr := 2
  align := 3
  ucHeap := 0x20000104
  configTOTAL_HEAP_SIZE := 6000
  xStart := 0x20000010
  pointers := by decide
  notNull := by decide
  stop := by decide
  half := by decide
  room := by decide
  apart := by decide

def lm3s811Start : St := ⟨Heap.zeroed lm3s811 fun _ => ⟨0, 0⟩, []⟩

theorem lm3s811_start : (system lm3s811).start lm3s811Start := ⟨⟨_, rfl⟩, rfl⟩

/-- Three blocks, of which the first is given back. -/
def holed : List Act :=
  [.pvPortMalloc 100, .pvPortMalloc 24, .pvPortMalloc 200, .vPortFree 0x20000110, .vPortFree 0]

theorem blocks_holed : ∃ s, (system lm3s811).exec lm3s811Start holed = some s ∧ ∃ tiles, Holds lm3s811 s tiles :=
  ⟨_, rfl, blocks_of_reaches ⟨_, lm3s811_start, Transition.System.run_of_exec holed rfl⟩ (by decide)⟩

section Walk

variable (hInv : Inv L h tiles)

include hInv

theorem Inv.collect_eq : collect h.next h.pxEnd L.bound L.xStart = freeAddrs tiles := by
  rw [hInv.linked.pxEnd]
  refine hInv.linked.chain.collect_eq ?_ (hInv.length_lt (List.append_nil _).symm)
  intro hMem
  obtain ⟨t, ht, _, hAddr⟩ := mem_freeAddrs.mp hMem
  have hBounds := hInv.linked.tiling.bounds ht
  omega

/-- The walk finds the free tiles. -/
theorem Inv.freeBlocks_eq : h.freeBlocks L = (tiles.filter (·.free)).map fun t => (t.addr, t.len) := by
  rw [Heap.freeBlocks, hInv.collect_eq, freeAddrs, List.map_map]
  refine List.map_congr_left fun t ht => ?_
  rw [List.mem_filter] at ht
  simp [hInv.linked.size t ht.1 ht.2]

theorem Inv.blockLen_eq (ht : t ∈ tiles) (hUsed : t.free = false) :
    h.blockLen L (t.addr + L.xHeapStructSize) = t.len := by
  rw [Heap.blockLen, Nat.add_sub_cancel, (hInv.used t ht hUsed).1, hInv.bit]
  exact (marked_spec (hInv.len_lt ht)).2

end Walk

/-- Two tiles lie apart. -/
theorem Inv.apart (hInv : Inv L h tiles) (ht : t ∈ tiles) (hu : u ∈ tiles) (hNe : t.free ≠ u.free) :
    t.addr + t.len ≤ u.addr ∨ u.addr + u.len ≤ t.addr := by
  have hTiling := hInv.linked.tiling
  have hDiffer : t.addr ≠ u.addr := fun hSame => hNe (hTiling.eq_of_addr ht hu hSame ▸ rfl)
  have hFirst := hTiling.inside ht hu
  have hSecond := hTiling.inside hu ht
  omega

/-- An answer of the heap is what its callers are promised. -/
theorem Moved.answers {mem : Bytes} (hHolds : Holds L s tiles)
    (hMoved : Moved L s tiles (.pvPortMalloc n) s' tiles') :
    ∃ p, pvPortMalloc L s.heap n = some (p, s'.heap) ∧ p % L.portBYTE_ALIGNMENT = 0 ∧
      Alloc.Answers L.ptr ⟨mem, s.live⟩ n (answer p) := by
  cases hMoved with
  | null hn hNone hCall =>
      refine ⟨0, hCall, Nat.zero_mod _, fun p hp => ?_⟩
      cases hp
  | @allocated _ pre post t h' _ hTiles ht hPos hFit hSmall hCall hDone =>
      have hIn : t ∈ tiles := by simp [hTiles]
      have hBounds := hHolds.inv.linked.tiling.bounds hIn
      have hStruct := L.structSize_pos
      have hSize := (blockSize_spec L n).2
      have hEnd := L.endMarker_lt
      have hAligned : L.portBYTE_ALIGNMENT ∣ t.addr + L.xHeapStructSize := by
        refine Nat.dvd_add ?_ L.structSize_spec.1
        exact hHolds.inv.linked.tiling.dvd_addr L.alignedHeap_spec.1 (fun u hu => (hHolds.inv.sizes u hu).1) hIn
      refine ⟨_, hCall, Nat.mod_eq_zero_of_dvd hAligned, ?_⟩
      rw [answer_eq (by omega)]
      intro p hp
      obtain rfl := Option.some.inj hp
      refine ⟨by omega, ?_, by omega, ?_⟩
      · exact Nat.mod_eq_zero_of_dvd (Nat.dvd_trans L.sizeofPtr_dvd_alignment hAligned)
      · intro b hb
        obtain ⟨u, hu, hUsed, hAddr, hStop⟩ := hHolds.exists_tile hb
        have hApart := hHolds.inv.apart hIn hu (by rw [ht, hUsed]; exact Bool.noConfusion)
        omega

/-- A free takes the block: its link has the mark and is in no list, and the
bytes of the block, with the link, are free afterwards. -/
structure TakenBack (L : Port) (h : Heap) (b : Alloc.Block) (h' : Heap) : Prop where
  marked : h.size (b.addr - L.xHeapStructSize) &&& h.xBlockAllocatedBit ≠ 0
  unlinked : h.next (b.addr - L.xHeapStructSize) = 0
  whole : L.xHeapStructSize + b.len ≤ h.blockLen L b.addr
  free : ∃ x ∈ h'.freeBlocks L, x.1 ≤ b.addr - L.xHeapStructSize ∧
    b.addr - L.xHeapStructSize + h.blockLen L b.addr ≤ x.1 + x.2
  bytes : h'.xFreeBytesRemaining = h.xFreeBytesRemaining + h.blockLen L b.addr
  frees : h'.xNumberOfSuccessfulFrees = (h.xNumberOfSuccessfulFrees + 1) % sizeRange L.ptr

theorem Holds.takenBack (hHolds : Holds L s tiles) (hb : b ∈ s.live) :
    ∃ h', Heap4.vPortFree L s.heap b.addr = some h' ∧ TakenBack L s.heap b h' := by
  obtain ⟨pre, t, post, h', tiles', rfl, hUsed, hAddr, hCall, hDone, hAfter⟩ := hHolds.freed hb
  have hInv := hHolds.inv
  have ht : t ∈ pre ++ t :: post := by simp
  obtain ⟨hMark, hNext⟩ := hInv.used t ht hUsed
  have hLink : b.addr - L.xHeapStructSize = t.addr := by omega
  have hLen : s.heap.blockLen L b.addr = t.len := hAddr ▸ hInv.blockLen_eq ht hUsed
  obtain ⟨u, hu, huUsed, huAddr, huLen⟩ := hHolds.held b hb
  obtain rfl : u = t := hInv.linked.tiling.eq_of_addr hu ht (by omega)
  refine ⟨h', hCall, ?_, hLink ▸ hNext, ?_, ?_, ?_, hDone.frees⟩
  · rw [hLink, hMark, hInv.bit]
    exact (marked_spec (hInv.len_lt ht)).1
  · have hSize := (blockSize_spec L b.len).2
    omega
  · obtain ⟨x, hx, hFree, hLow, hHigh⟩ := hDone.release.covers hInv.linked.tiling
    rw [hDone.inv.freeBlocks_eq, hLink, hLen]
    exact ⟨(x.addr, x.len), List.mem_map.mpr ⟨x, List.mem_filter.mpr ⟨hx, hFree⟩, rfl⟩, hLow, hHigh⟩
  · rw [hDone.inv.bytes, hDone.release.freeBytes_eq hUsed, hInv.bytes, hLen]

/-- A request for memory always returns, and its answer is an aligned block of
the length asked for, apart from all blocks in use. A block in use is always
taken back. -/
theorem answers_of_reaches (hReaches : (system L).Reaches trace s) (mem : Bytes) :
    (∀ n, n < sizeRange L.ptr → ∃ p h', pvPortMalloc L s.heap n = some (p, h') ∧ p % L.portBYTE_ALIGNMENT = 0 ∧
      Alloc.Answers L.ptr ⟨mem, s.live⟩ n (answer p)) ∧
    ∀ b ∈ s.live, ∃ h', vPortFree L s.heap b.addr = some h' ∧ TakenBack L s.heap b h' := by
  constructor
  · intro n hn
    obtain ⟨tiles, hHolds⟩ := holds_ready hReaches
    obtain ⟨s', tiles', _, hMoved, _⟩ := hHolds.pvPortMalloc hn
    obtain ⟨p, hCall, hAnswer⟩ := hMoved.answers hHolds
    exact ⟨p, s'.heap, pvPortMalloc_ready L s.heap n ▸ hCall, hAnswer⟩
  · intro b hb
    rcases holds_of_reaches hReaches with hFresh | ⟨tiles, hHolds⟩
    · simp [hFresh.2] at hb
    · exact hHolds.takenBack hb

theorem answers_holed : ∃ s, (system lm3s811).exec lm3s811Start holed = some s ∧
    (∃ p h', pvPortMalloc lm3s811 s.heap 96 = some (p, h') ∧ p % 8 = 0 ∧
      Alloc.Answers 2 ⟨fun _ => 0, s.live⟩ 96 (answer p)) ∧
    ∃ h', vPortFree lm3s811 s.heap 0x20000180 = some h' ∧ TakenBack lm3s811 s.heap ⟨0x20000180, 24⟩ h' := by
  have hReaches : (system lm3s811).Reaches _ _ :=
    ⟨_, lm3s811_start, Transition.System.run_of_exec holed rfl⟩
  have hAnswers := answers_of_reaches hReaches fun _ => 0
  exact ⟨_, rfl, hAnswers.1 96 (by decide), hAnswers.2 ⟨0x20000180, 24⟩ (by decide)⟩

/-- The answer is the lowest free block that is large enough, and null only if
there is none: the test against the free bytes rejects no other request. -/
theorem firstFit_of_reaches (hReaches : (system L).Reaches trace s) (hn : n < sizeRange L.ptr) (hPos : 0 < n) :
    ((ready L s.heap).freeBlocks L).Pairwise (fun x y => x.1 + x.2 < y.1) ∧
    ∃ h', pvPortMalloc L s.heap n =
      some ((((ready L s.heap).freeBlocks L).find? fun x => decide (L.blockSize n ≤ x.2)).elim 0
        (fun x => x.1 + L.xHeapStructSize), h') := by
  obtain ⟨tiles, hHolds⟩ := holds_ready hReaches
  have hBlocks := hHolds.inv.freeBlocks_eq
  rw [← pvPortMalloc_ready, hBlocks]
  constructor
  · exact hHolds.inv.linked.tiling.free_apart hHolds.inv.coalesced
  · rcases exists_first L n tiles with hNone | ⟨pre, t, post, rfl, ht, hFit, hSmall⟩
    · have hFind : ((tiles.filter (·.free)).map fun t => (t.addr, t.len)).find?
          (fun x => decide (L.blockSize n ≤ x.2)) = none := by
        simp only [List.find?_eq_none, List.mem_map, List.mem_filter]
        rintro x ⟨t, ⟨hMem, hFree⟩, rfl⟩
        simpa using hNone t hMem hFree
      rw [hFind]
      exact ⟨_, hHolds.inv.pvPortMalloc_null hn (.inr hNone)⟩
    · have hFind : (((pre ++ t :: post).filter (·.free)).map fun t => (t.addr, t.len)).find?
          (fun x => decide (L.blockSize n ≤ x.2)) = some (t.addr, t.len) := by
        rw [List.filter_append, List.filter_cons_of_pos ht, List.map_append, List.map_cons, List.find?_append]
        have hPre : ((pre.filter (·.free)).map fun t => (t.addr, t.len)).find?
            (fun x => decide (L.blockSize n ≤ x.2)) = none := by
          simp only [List.find?_eq_none, List.mem_map, List.mem_filter]
          rintro x ⟨u, ⟨hMem, hFree⟩, rfl⟩
          simpa using hSmall u hMem hFree
        rw [hPre, Option.none_or, List.find?_cons_of_pos (by simpa using hFit)]
      obtain ⟨h', tiles', hCall, _⟩ := hHolds.inv.pvPortMalloc_some ht hPos hFit hSmall
      rw [hFind]
      exact ⟨h', hCall⟩

/-- A tile is in use when the application has the pointer behind its link. -/
theorem Holds.mem_used_iff (hHolds : Holds L s tiles) :
    t ∈ tiles.filter (!·.free) ↔ t.free = false ∧ (t.addr + L.xHeapStructSize, t.len) ∈
      s.live.map (fun b => (b.addr, s.heap.blockLen L b.addr)) := by
  simp only [List.mem_filter, List.mem_map, Prod.mk.injEq, Bool.not_eq_true']
  constructor
  · rintro ⟨ht, hUsed⟩
    obtain ⟨b, hb, hAddr⟩ := hHolds.kept t ht hUsed
    exact ⟨hUsed, b, hb, hAddr, hAddr ▸ hHolds.inv.blockLen_eq ht hUsed⟩
  · rintro ⟨hUsed, b, hb, hAddr, hLen⟩
    obtain ⟨u, hu, huUsed, huAddr, _⟩ := hHolds.held b hb
    rw [huAddr, hHolds.inv.blockLen_eq hu huUsed] at hLen
    obtain ⟨addr, len, free⟩ := t
    obtain ⟨addr', len', free'⟩ := u
    simp only at *
    obtain rfl : addr = addr' := by omega
    subst hLen hUsed huUsed
    exact ⟨hu, rfl⟩

theorem firstFit_holed : ∃ s h', (system lm3s811).exec lm3s811Start holed = some s ∧
    pvPortMalloc lm3s811 s.heap 96 = some (0x20000110, h') := by
  obtain ⟨h', hCall⟩ := (firstFit_of_reaches ⟨_, lm3s811_start, Transition.System.run_of_exec holed rfl⟩
    (n := 96) (by decide) (by decide)).2
  exact ⟨_, h', rfl, hCall⟩

section Accounts

/-- The blocks of the application are the tiles in use, one for one. -/
theorem Holds.live_perm (hHolds : Holds L s tiles) :
    (s.live.map (·.addr)).Perm ((tiles.filter (!·.free)).map fun t => t.addr + L.xHeapStructSize) := by
  have hTiles : ((tiles.filter (!·.free)).map fun t => t.addr + L.xHeapStructSize).Nodup := by
    refine List.Pairwise.map _ (fun t u hBefore => ?_) (hHolds.inv.linked.tiling.pairwise_lt.filter _)
    omega
  refine (List.perm_ext_iff_of_nodup (List.Pairwise.map _ (fun _ _ hNe => hNe) hHolds.apart) hTiles).mpr fun a => ?_
  simp only [List.mem_map, List.mem_filter]
  constructor
  · rintro ⟨b, hb, rfl⟩
    obtain ⟨t, ht, hUsed, hAddr, _⟩ := hHolds.held b hb
    exact ⟨t, ⟨ht, by simp [hUsed]⟩, hAddr.symm⟩
  · rintro ⟨t, ⟨ht, hUsed⟩, rfl⟩
    obtain ⟨b, hb, hAddr⟩ := hHolds.kept t ht (by simpa using hUsed)
    exact ⟨b, hb, hAddr⟩

theorem Inv.usedBytes_eq (hInv : Inv L h tiles) :
    ((tiles.filter (!·.free)).map fun t => h.blockLen L (t.addr + L.xHeapStructSize)).sum = usedBytes tiles := by
  rw [usedBytes]
  refine congrArg List.sum (List.map_congr_left fun t ht => ?_)
  rw [List.mem_filter] at ht
  exact hInv.blockLen_eq ht.1 (by simpa using ht.2)

/-- The successful calls balance the blocks in use. -/
def Balanced (L : Port) (s : St) : Prop :=
  (s.heap.xNumberOfSuccessfulFrees + s.live.length) % sizeRange L.ptr = s.heap.xNumberOfSuccessfulAllocations

theorem Moved.balanced (hMoved : Moved L s tiles act s' tiles') (hBefore : Balanced L s) : Balanced L s' := by
  unfold Balanced at hBefore ⊢
  cases hMoved with
  | null => exact hBefore
  | allocated _ _ _ _ _ _ hDone =>
      rw [hDone.allocations, hDone.frees, List.length_cons, ← Nat.add_assoc, Nat.add_mod, hBefore]
      exact (Nat.add_mod_mod _ _ _)
  | freeNull => exact hBefore
  | @freed b _ _ _ _ _ hb _ _ _ _ hDone =>
      have hLength : (s.live.eraseP (·.addr = b.addr)).length + 1 = s.live.length := by
        have hPos := List.length_pos_of_mem hb
        rw [List.length_eraseP_of_mem hb (by simp)]
        omega
      rw [hDone.allocations, hDone.frees, Nat.mod_add_mod, ← hBefore, ← hLength, Nat.add_assoc, Nat.add_comm 1]
  | wrote => exact hBefore

/-- The least free bytes after a step. -/
theorem Moved.minimum (hMoved : Moved L s tiles act s' tiles')
    (hBefore : s.heap.xMinimumEverFreeBytesRemaining ≤ s.heap.xFreeBytesRemaining) (hInv : Inv L s.heap tiles) :
    s'.heap.xMinimumEverFreeBytesRemaining =
      min s.heap.xMinimumEverFreeBytesRemaining s'.heap.xFreeBytesRemaining := by
  cases hMoved with
  | null => exact (Nat.min_eq_left hBefore).symm
  | allocated _ _ _ _ _ _ hDone => exact hDone.minimum
  | freeNull => exact (Nat.min_eq_left hBefore).symm
  | @freed _ _ _ _ h' _ _ hTiles ht _ _ hDone =>
      have hMore : s.heap.xFreeBytesRemaining ≤ h'.xFreeBytesRemaining := by
        rw [hInv.bytes, hDone.inv.bytes, hDone.release.freeBytes_eq ht, hTiles]
        exact Nat.le_add_right _ _
      rw [hDone.minimum]
      exact (Nat.min_eq_left (Nat.le_trans hBefore hMore)).symm
  | wrote => exact (Nat.min_eq_left hBefore).symm

theorem freeHistory_snoc (trace : Transition.Trace St Act) (t u : St) (act : Act) :
    freeHistory (trace ++ [(t, act)]) u =
      freeHistory trace t ++ if u.heap.pxEnd ≠ 0 then [u.heap.xFreeBytesRemaining] else [] := by
  rw [freeHistory, freeHistory, List.map_append, List.filter_append, List.map_append]
  refine congrArg₂ (· ++ ·) rfl ?_
  by_cases hEnd : u.heap.pxEnd = 0 <;> simp [hEnd]

theorem min?_snoc {l : List Nat} {m : Nat} (hMin : l.min? = some m) (x : Nat) : (l ++ [x]).min? = some (min m x) := by
  rw [List.min?_eq_some_iff] at hMin ⊢
  refine ⟨?_, fun y hy => ?_⟩
  · rcases Nat.le_total m x with hLe | hLe
    · rw [Nat.min_eq_left hLe]
      exact List.mem_append_left _ hMin.1
    · rw [Nat.min_eq_right hLe]
      exact List.mem_append_right _ (List.mem_singleton_self x)
  · rcases List.mem_append.mp hy with hOld | hNew
    · exact Nat.le_trans (Nat.min_le_left m x) (hMin.2 y hOld)
    · rw [List.mem_singleton.mp hNew]
      exact Nat.min_le_right m x

/-- The counters along a run: no free bytes were seen yet, or the least of them
is recorded. -/
def Recorded (L : Port) (trace : Transition.Trace St Act) (s : St) : Prop :=
  (Fresh L s ∧ freeHistory trace s = []) ∨
    ∃ tiles, Holds L s tiles ∧ (freeHistory trace s).min? = some s.heap.xMinimumEverFreeBytesRemaining

theorem Holds.free_le (hHolds : Holds L s tiles) : s.heap.xFreeBytesRemaining ≤ L.initialSize := by
  have hBytes := hHolds.inv.linked.tiling.bytes
  rw [hHolds.inv.bytes]
  unfold Port.initialSize
  omega

theorem Recorded.next (hBefore : Recorded L trace s) (hNext : next L s act = some s') :
    Recorded L (trace ++ [(s, act)]) s' := by
  unfold Recorded
  rw [freeHistory_snoc]
  rcases hBefore with ⟨hFresh, hNone⟩ | ⟨tiles, hHolds, hMin⟩
  · rw [hNone]
    rcases hFresh.next hNext with rfl | hReady
    · exact .inl ⟨hFresh, by simp [hFresh.pxEnd]⟩
    · obtain ⟨tiles', hMoved, hAfter⟩ := hFresh.holds.next hReady
      have hInit : (prvHeapInit L s.heap).xMinimumEverFreeBytesRemaining = L.initialSize ∧
          (prvHeapInit L s.heap).xFreeBytesRemaining = L.initialSize := by
        simp [prvHeapInit, Heap.size, Heap.setNext, Heap.setSize, Port.initialSize]
      have hLeast := hMoved.minimum (by simp only; omega) hFresh.holds.inv
      rw [hInit.1, Nat.min_eq_right hAfter.free_le] at hLeast
      refine .inr ⟨tiles', hAfter, ?_⟩
      rw [if_pos hAfter.inv.pxEnd_ne_zero, hLeast]
      rfl
  · obtain ⟨tiles', hMoved, hAfter⟩ := hHolds.next hNext
    have hHere : s.heap.xFreeBytesRemaining ∈ freeHistory trace s := by
      simp only [freeHistory, List.mem_map, List.mem_filter]
      exact ⟨s, ⟨by simp, by simpa using hHolds.inv.pxEnd_ne_zero⟩, rfl⟩
    have hLe := (List.min?_eq_some_iff.mp hMin).2 _ hHere
    refine .inr ⟨tiles', hAfter, ?_⟩
    rw [if_pos hAfter.inv.pxEnd_ne_zero, hMoved.minimum hLe hHolds.inv]
    exact min?_snoc hMin _

theorem recorded_of_reaches (hReaches : (system L).Reaches trace s) : Recorded L trace s := by
  obtain ⟨s₀, hStart, run⟩ := hReaches
  induction run with
  | nil =>
      have hFresh : Fresh L s₀ := hStart
      exact .inl ⟨hFresh, by simp [freeHistory, hFresh.pxEnd]⟩
  | snoc prior last ih => exact ih.next last

theorem balanced_of_reaches (hReaches : (system L).Reaches trace s) : Balanced L s := by
  obtain ⟨s₀, hStart, run⟩ := hReaches
  induction run with
  | nil =>
      obtain ⟨⟨mem, hHeap⟩, hLive⟩ := hStart
      rw [Balanced, hHeap, hLive]
      exact Nat.zero_mod _
  | @snoc s s' past act prior last ih =>
      rcases holds_of_reaches ⟨s₀, hStart, prior⟩ with hFresh | ⟨tiles, hHolds⟩
      · rcases hFresh.next last with rfl | hReady
        · exact ih
        · obtain ⟨tiles', hMoved, _⟩ := hFresh.holds.next hReady
          exact hMoved.balanced ih
      · obtain ⟨tiles', hMoved, _⟩ := hHolds.next last
        exact hMoved.balanced ih

/-- The free bytes and the blocks in use, with their links, always add up to
the whole heap, and the calls counted balance the blocks in use. -/
theorem accounts_of_reaches (hReaches : (system L).Reaches trace s) :
    (s.heap.xNumberOfSuccessfulFrees + s.live.length) % sizeRange L.ptr = s.heap.xNumberOfSuccessfulAllocations ∧
    (s.heap.pxEnd ≠ 0 → s.heap.xFreeBytesRemaining + (s.live.map fun b => s.heap.blockLen L b.addr).sum =
      L.initialSize) := by
  refine ⟨balanced_of_reaches hReaches, fun hReady => ?_⟩
  obtain ⟨tiles, hHolds⟩ := blocks_of_reaches hReaches hReady
  have hPerm := hHolds.live_perm.map (s.heap.blockLen L)
  rw [List.map_map, List.map_map] at hPerm
  have hSum := hPerm.sum_nat
  have hBytes := hHolds.inv.linked.tiling.bytes
  have hUsed := hHolds.inv.usedBytes_eq
  have hLow := hHolds.inv.linked.tiling.le
  simp only [Function.comp_def] at hSum
  rw [hSum, hUsed, hHolds.inv.bytes]
  unfold Port.initialSize
  omega

theorem accounts_holed : ∃ s, (system lm3s811).exec lm3s811Start holed = some s ∧
    (s.heap.xNumberOfSuccessfulFrees + s.live.length) % 2 ^ 32 = s.heap.xNumberOfSuccessfulAllocations ∧
    s.heap.xFreeBytesRemaining + (s.live.map fun b => s.heap.blockLen lm3s811 b.addr).sum =
      lm3s811.initialSize := by
  have hReaches : (system lm3s811).Reaches _ _ :=
    ⟨_, lm3s811_start, Transition.System.run_of_exec holed rfl⟩
  have hAccounts := accounts_of_reaches hReaches
  exact ⟨_, rfl, hAccounts.1, hAccounts.2 (by decide)⟩

/-- The least ever free bytes are the minimum over all states of the run since
the heap was set up. -/
theorem lowWater_of_reaches (hReaches : (system L).Reaches trace s) (hReady : s.heap.pxEnd ≠ 0) :
    (freeHistory trace s).min? = some s.heap.xMinimumEverFreeBytesRemaining := by
  rcases recorded_of_reaches hReaches with ⟨hFresh, _⟩ | ⟨_, _, hMin⟩
  · exact absurd hFresh.pxEnd hReady
  · exact hMin

theorem lowWater_holed : ∃ s, (system lm3s811).exec lm3s811Start holed = some s ∧
    (freeHistory ((system lm3s811).replay lm3s811Start holed) s).min? =
      some s.heap.xMinimumEverFreeBytesRemaining :=
  ⟨_, rfl, lowWater_of_reaches ⟨_, lm3s811_start, Transition.System.run_of_exec holed rfl⟩ (by decide)⟩

end Accounts

/-- The free list depends on the blocks in use alone, not on the order of the
calls that led to them. -/
theorem freeBlocks_of_live (hReaches : (system L).Reaches trace s) (hReaches' : (system L).Reaches trace' s')
    (hReady : s.heap.pxEnd ≠ 0) (hReady' : s'.heap.pxEnd ≠ 0)
    (hLive : ∀ x, x ∈ s.live.map (fun b => (b.addr, s.heap.blockLen L b.addr)) ↔
      x ∈ s'.live.map (fun b => (b.addr, s'.heap.blockLen L b.addr))) :
    s.heap.freeBlocks L = s'.heap.freeBlocks L ∧ s.heap.xFreeBytesRemaining = s'.heap.xFreeBytesRemaining := by
  obtain ⟨tiles, hHolds⟩ := blocks_of_reaches hReaches hReady
  obtain ⟨tiles', hHolds'⟩ := blocks_of_reaches hReaches' hReady'
  have hUsed : tiles.filter (!·.free) = tiles'.filter (!·.free) := by
    refine (hHolds.inv.linked.tiling.pairwise_lt.filter _).eq_of_mem_iff
      (hHolds'.inv.linked.tiling.pairwise_lt.filter _) fun t => ?_
    rw [hHolds.mem_used_iff, hHolds'.mem_used_iff]
    exact and_congr_right fun _ => hLive _
  have hTiles := hHolds.inv.linked.tiling.eq_of_used hHolds'.inv.linked.tiling hHolds.inv.coalesced
    hHolds'.inv.coalesced hUsed
  rw [hHolds.inv.freeBlocks_eq, hHolds'.inv.freeBlocks_eq, hHolds.inv.bytes, hHolds'.inv.bytes, hTiles]
  exact ⟨rfl, rfl⟩

/-- All blocks but the first given back in another order than they were answered. -/
def emptied : List Act :=
  [.pvPortMalloc 100, .pvPortMalloc 24, .pvPortMalloc 200, .pvPortMalloc 8, .vPortFree 0x20000180,
    .vPortFree 0x20000270, .vPortFree 0x200001a0]

theorem freeBlocks_emptied : ∃ s, (system lm3s811).exec lm3s811Start emptied = some s ∧
    ∃ s', (system lm3s811).exec lm3s811Start [.pvPortMalloc 100] = some s' ∧
      s.heap.freeBlocks lm3s811 = s'.heap.freeBlocks lm3s811 ∧
      s.heap.xFreeBytesRemaining = s'.heap.xFreeBytesRemaining := by
  obtain ⟨s, hExec⟩ : ∃ s, (system lm3s811).exec lm3s811Start emptied = some s := ⟨_, rfl⟩
  obtain ⟨s', hExec'⟩ : ∃ s', (system lm3s811).exec lm3s811Start [.pvPortMalloc 100] = some s' := ⟨_, rfl⟩
  have hLive : ((system lm3s811).exec lm3s811Start emptied).map (fun s =>
      (s.heap.pxEnd, s.live.map fun b => (b.addr, s.heap.blockLen lm3s811 b.addr))) =
        some (lm3s811.endMarker, [(0x20000110, 112)]) := by decide
  have hLive' : ((system lm3s811).exec lm3s811Start [.pvPortMalloc 100]).map (fun s =>
      (s.heap.pxEnd, s.live.map fun b => (b.addr, s.heap.blockLen lm3s811 b.addr))) =
        some (lm3s811.endMarker, [(0x20000110, 112)]) := by decide
  rw [hExec, Option.map_some, Option.some.injEq, Prod.mk.injEq] at hLive
  rw [hExec', Option.map_some, Option.some.injEq, Prod.mk.injEq] at hLive'
  refine ⟨s, hExec, s', hExec', freeBlocks_of_live
    ⟨_, lm3s811_start, Transition.System.run_of_exec emptied hExec⟩
    ⟨_, lm3s811_start, Transition.System.run_of_exec [.pvPortMalloc 100] hExec'⟩ ?_ ?_ fun x => ?_⟩
  · rw [hLive.1]
    decide
  · rw [hLive'.1]
    decide
  · rw [hLive.2, hLive'.2]

end FreeRtos.Heap4
