import FreeRtosCpp11.Heap4.Refine
import Mathlib.Data.List.Pairwise

/-! Runs of allocations, frees and writes of the application into its blocks. -/
namespace FreeRtos.Heap4

open Links Memory
open Alloc (sizeofPtr sizeRange)

/-- The tiles of a reachable heap, and the blocks of the application in them. -/
structure Holds (L : Port) (s : St) (tiles : List Tile) : Prop where
  inv : Inv L s.heap tiles
  held : ∀ b ∈ s.live, ∃ t ∈ tiles, t.free = false ∧ b.addr = t.addr + L.xHeapStructSize ∧
    L.blockSize b.len ≤ t.len
  kept : ∀ t ∈ tiles, t.free = false → ∃ b ∈ s.live, b.addr = t.addr + L.xHeapStructSize
  apart : s.live.Pairwise fun b c => b.addr ≠ c.addr

/-- No allocation was made so far. -/
def Fresh (L : Port) (s : St) : Prop := (∃ mem, s.heap = Heap.zeroed L mem) ∧ s.live = []

variable {L : Port} {s s' : St} {a n p pv : Nat} {act : Act} {b : Alloc.Block} {t : Tile} {link : BlockLink}
  {h : Heap} {tiles pre post : List Tile} {trace : Transition.Trace St Act}

theorem Fresh.pxEnd (hFresh : Fresh L s) : s.heap.pxEnd = 0 := by
  obtain ⟨⟨mem, hHeap⟩, _⟩ := hFresh
  rw [hHeap]
  rfl

/-- The heap that the first allocation sets up. -/
theorem Fresh.holds (hFresh : Fresh L s) :
    Holds L { s with heap := prvHeapInit L s.heap } [⟨L.pucAlignedHeap, L.initialSize, true⟩] := by
  refine ⟨inv_prvHeapInit L s.heap, ?_, ?_, ?_⟩
  · intro b hb
    simp [hFresh.2] at hb
  · intro t ht hUsed
    rw [List.mem_singleton.mp ht] at hUsed
    cases hUsed
  · simp [hFresh.2]

/-- Memory may change off the links of the blocks. -/
theorem Inv.of_agree {h' : Heap} (hInv : Inv L h tiles) (hEnd : h'.pxEnd = h.pxEnd)
    (hFree : h'.xFreeBytesRemaining = h.xFreeBytesRemaining) (hBit : h'.xBlockAllocatedBit = h.xBlockAllocatedBit)
    (hMem : ∀ a, a = L.xStart ∨ a = L.endMarker ∨ (∃ t ∈ tiles, t.addr = a) → h'.mem a = h.mem a) :
    Inv L h' tiles where
  linked := hInv.linked.of_agree hEnd fun a ha => hMem a <| ha.imp_right fun ha => ha.imp_right fun hIn => by
    obtain ⟨t, ht, _, hAddr⟩ := mem_freeAddrs.mp hIn
    exact ⟨t, ht, hAddr⟩
  coalesced := hInv.coalesced
  sizes := hInv.sizes
  used := by
    intro t ht hUsed
    have hLinks := hInv.used t ht hUsed
    rwa [Heap.size, Heap.next, ← hMem t.addr (.inr (.inr ⟨t, ht, rfl⟩))] at hLinks
  bit := hBit.trans hInv.bit
  bytes := hFree.trans hInv.bytes

/-- The block of the application lies inside its tile, behind the link. -/
theorem Holds.exists_tile (hHolds : Holds L s tiles) (hb : b ∈ s.live) :
    ∃ t ∈ tiles, t.free = false ∧ b.addr = t.addr + L.xHeapStructSize ∧ b.addr + b.len ≤ t.addr + t.len := by
  obtain ⟨t, ht, hUsed, hAddr, hFit⟩ := hHolds.held b hb
  have hSize := (blockSize_spec L b.len).2
  exact ⟨t, ht, hUsed, hAddr, by omega⟩

/-- A write into a block is off the links. -/
theorem Holds.write (hHolds : Holds L s tiles) (hb : b ∈ s.live) (hLow : b.addr < a + 2 * sizeofPtr L.ptr)
    (hHigh : a < b.addr + b.len) :
    Holds L { s with heap := { s.heap with mem := Function.update s.heap.mem a link } } tiles := by
  obtain ⟨t, ht, _, hAddr, hEnd⟩ := hHolds.exists_tile hb
  have hBounds := hHolds.inv.linked.tiling.bounds ht
  have hStruct := L.structSize_spec.2
  have hApart := L.xStart_apart
  refine ⟨hHolds.inv.of_agree rfl rfl rfl fun c hc => Function.update_of_ne ?_ _ _, hHolds.held, hHolds.kept,
    hHolds.apart⟩
  rcases hc with hIs | hIs | ⟨u, hu, hIs⟩
  · omega
  · omega
  · rintro rfl
    have hOrder := hHolds.inv.linked.tiling.inside ht hu
    omega

/-- The first free tile that is large enough, if there is one. -/
theorem exists_first (L : Port) (n : Nat) (tiles : List Tile) :
    (∀ t ∈ tiles, t.free = true → t.len < L.blockSize n) ∨
      ∃ pre b post, tiles = pre ++ b :: post ∧ b.free = true ∧ L.blockSize n ≤ b.len ∧
        ∀ t ∈ pre, t.free = true → t.len < L.blockSize n := by
  induction tiles with
  | nil => exact .inl (by simp)
  | cons u tiles ih =>
      by_cases hFit : u.free = true ∧ L.blockSize n ≤ u.len
      · exact .inr ⟨[], u, tiles, rfl, hFit.1, hFit.2, by simp⟩
      · have hSmall : u.free = true → u.len < L.blockSize n := fun hFree =>
          Nat.not_le.mp fun hLe => hFit ⟨hFree, hLe⟩
        rcases ih with hNone | ⟨pre, b, post, rfl, hb, hLen, hPre⟩
        · exact .inl (List.forall_mem_cons.mpr ⟨hSmall, hNone⟩)
        · exact .inr ⟨u :: pre, b, post, rfl, hb, hLen, List.forall_mem_cons.mpr ⟨hSmall, hPre⟩⟩

/-- An allocation answers the first free tile that is large enough. -/
theorem Holds.allocated (hHolds : Holds L s (pre ++ ⟨a, p, true⟩ :: post)) (hPos : 0 < n) (hFit : L.blockSize n ≤ p)
    (hSmall : ∀ t ∈ pre, t.free = true → t.len < L.blockSize n) :
    ∃ h' tiles', pvPortMalloc L s.heap n = some (a + L.xHeapStructSize, h') ∧
      Allocated L s.heap pre ⟨a, p, true⟩ post n h' tiles' ∧
      Holds L ⟨h', ⟨a + L.xHeapStructSize, n⟩ :: s.live⟩ tiles' := by
  obtain ⟨h', tiles', hCall, hDone⟩ := hHolds.inv.pvPortMalloc_some rfl hPos hFit hSmall
  refine ⟨h', tiles', hCall, hDone, hDone.inv, ?_, ?_, ?_⟩
  · intro b hb
    rcases List.mem_cons.mp hb with rfl | hOld
    · obtain ⟨len, hMem, hLen⟩ := hDone.block
      exact ⟨_, hMem, rfl, rfl, hLen⟩
    · obtain ⟨t, ht, hUsed, hAddr, hLen⟩ := hHolds.held b hOld
      have hAround : t ∈ pre ++ post := by
        rcases List.mem_append.mp ht with hPre | hRest
        · exact List.mem_append_left post hPre
        · rcases List.mem_cons.mp hRest with rfl | hPost
          · cases hUsed
          · exact List.mem_append_right pre hPost
      exact ⟨t, hDone.acquire.mem_of_mem hAround, hUsed, hAddr, hLen⟩
  · intro t ht hUsed
    rcases hDone.acquire.mem_used ht hUsed with hOld | hHere
    · obtain ⟨b, hb, hAddr⟩ := hHolds.kept t (mem_around _ hOld) hUsed
      exact ⟨b, List.mem_cons_of_mem _ hb, hAddr⟩
    · exact ⟨_, List.mem_cons_self, by rw [hHere]⟩
  · refine List.pairwise_cons.mpr ⟨fun b hb hSame => ?_, hHolds.apart⟩
    obtain ⟨t, ht, hUsed, hAddr, _⟩ := hHolds.held b hb
    have hTile : t = ⟨a, p, true⟩ := hHolds.inv.linked.tiling.eq_of_addr ht (by simp) (by simp only at hSame ⊢; omega)
    rw [hTile] at hUsed
    cases hUsed

/-- One block at most starts at an address. -/
theorem ne_of_mem_eraseP {l : List Alloc.Block} {c : Alloc.Block}
    (hApart : l.Pairwise fun b c => b.addr ≠ c.addr) (hc : c ∈ l.eraseP (·.addr = a)) : c.addr ≠ a := by
  induction l with
  | nil => cases hc
  | cons b l ih =>
      rw [List.pairwise_cons] at hApart
      rw [List.eraseP_cons] at hc
      by_cases hHere : b.addr = a
      · rw [decide_eq_true hHere, cond_true] at hc
        exact fun hSame => hApart.1 c hc (hHere.trans hSame.symm)
      · rw [decide_eq_false hHere, cond_false] at hc
        rcases List.mem_cons.mp hc with rfl | hLater
        · exact hHere
        · exact ih hApart.2 hLater

/-- A free gives the tile of the block back. -/
theorem Holds.freed (hHolds : Holds L s tiles) (hb : b ∈ s.live) :
    ∃ pre t post h' tiles', tiles = pre ++ t :: post ∧ t.free = false ∧ b.addr = t.addr + L.xHeapStructSize ∧
      vPortFree L s.heap b.addr = some h' ∧ Freed L s.heap pre t post h' tiles' ∧
      Holds L ⟨h', s.live.eraseP (·.addr = b.addr)⟩ tiles' := by
  obtain ⟨t, ht, hUsed, hAddr, _⟩ := hHolds.held b hb
  obtain ⟨pre, post, rfl⟩ := List.append_of_mem ht
  obtain ⟨h', tiles', hCall, hDone⟩ := hHolds.inv.freed hUsed
  have hSub : (s.live.eraseP (·.addr = b.addr)).Sublist s.live := List.eraseP_sublist
  have hGone : ∀ c ∈ s.live.eraseP (·.addr = b.addr), c ∈ s.live ∧ c.addr ≠ b.addr := by
    intro c hc
    exact ⟨hSub.subset hc, ne_of_mem_eraseP hHolds.apart hc⟩
  have hOther : ∀ u ∈ pre ++ t :: post, u.free = false → u.addr ≠ t.addr → u ∈ pre ++ post := by
    intro u hu _ hNe
    rcases List.mem_append.mp hu with hPre | hRest
    · exact List.mem_append_left post hPre
    · rcases List.mem_cons.mp hRest with rfl | hPost
      · exact absurd rfl hNe
      · exact List.mem_append_right pre hPost
  refine ⟨pre, t, post, h', tiles', rfl, hUsed, hAddr, hAddr ▸ hCall, hDone, hDone.inv, ?_, ?_, ?_⟩
  · intro c hc
    obtain ⟨hOld, hNe⟩ := hGone c hc
    obtain ⟨u, hu, huUsed, huAddr, huLen⟩ := hHolds.held c hOld
    exact ⟨u, (hDone.release.mem_used huUsed).mpr (hOther u hu huUsed (by omega)), huUsed, huAddr, huLen⟩
  · intro u hu huUsed
    have hAround := (hDone.release.mem_used huUsed).mp hu
    obtain ⟨c, hc, hcAddr⟩ := hHolds.kept u (mem_around t hAround) huUsed
    refine ⟨c, (List.mem_eraseP_of_neg ?_).mpr hc, hcAddr⟩
    have hNe : u.addr ≠ t.addr := by
      intro hSame
      have hPairs := hHolds.inv.linked.tiling.pairwise_lt
      rw [List.pairwise_append, List.pairwise_cons] at hPairs
      rcases List.mem_append.mp hAround with hPre | hPost
      · exact Nat.ne_of_lt (hPairs.2.2 u hPre t List.mem_cons_self) hSame
      · exact Nat.ne_of_lt (hPairs.2.1.1 u hPost) hSame.symm
    simp
    omega
  · exact hHolds.apart.sublist hSub

theorem vPortFree_null (L : Port) (h : Heap) : vPortFree L h 0 = some h := rfl

theorem answer_eq (hp : p ≠ 0) : answer p = some p := if_neg hp

/-- What a step does to a heap that was set up. -/
inductive Moved (L : Port) (s : St) (tiles : List Tile) : Act → St → List Tile → Prop where
  | null {n : Nat} (hn : n < sizeRange L.ptr)
      (hNone : n = 0 ∨ ∀ t ∈ tiles, t.free = true → t.len < L.blockSize n)
      (hCall : pvPortMalloc L s.heap n = some (0, s.heap)) :
      Moved L s tiles (.pvPortMalloc n) s tiles
  | allocated {n : Nat} {pre post : List Tile} {t : Tile} {h' : Heap} {tiles' : List Tile}
      (hTiles : tiles = pre ++ t :: post) (ht : t.free = true) (hPos : 0 < n) (hFit : L.blockSize n ≤ t.len)
      (hSmall : ∀ u ∈ pre, u.free = true → u.len < L.blockSize n)
      (hCall : pvPortMalloc L s.heap n = some (t.addr + L.xHeapStructSize, h'))
      (hDone : Allocated L s.heap pre t post n h' tiles') :
      Moved L s tiles (.pvPortMalloc n) ⟨h', ⟨t.addr + L.xHeapStructSize, n⟩ :: s.live⟩ tiles'
  | freeNull : Moved L s tiles (.vPortFree 0) s tiles
  | freed {b : Alloc.Block} {pre post : List Tile} {t : Tile} {h' : Heap} {tiles' : List Tile} (hb : b ∈ s.live)
      (hTiles : tiles = pre ++ t :: post) (ht : t.free = false) (hAddr : b.addr = t.addr + L.xHeapStructSize)
      (hCall : vPortFree L s.heap b.addr = some h') (hDone : Freed L s.heap pre t post h' tiles') :
      Moved L s tiles (.vPortFree b.addr) ⟨h', s.live.eraseP (·.addr = b.addr)⟩ tiles'
  | wrote {b : Alloc.Block} {a : Nat} {link : BlockLink} (hb : b ∈ s.live) :
      Moved L s tiles (.write b a link)
        { s with heap := { s.heap with mem := Function.update s.heap.mem a link } } tiles

/-- An allocation of a size always returns. -/
theorem Holds.pvPortMalloc (hHolds : Holds L s tiles) (hn : n < sizeRange L.ptr) :
    ∃ s' tiles', next L s (.pvPortMalloc n) = some s' ∧ Moved L s tiles (.pvPortMalloc n) s' tiles' ∧
      Holds L s' tiles' := by
  have hStruct := L.structSize_pos
  simp only [next, if_pos hn]
  rcases Nat.eq_zero_or_pos n with rfl | hPos
  · have hCall := hHolds.inv.pvPortMalloc_null hn (.inl rfl)
    exact ⟨s, tiles, by rw [hCall]; rfl, .null hn (.inl rfl) hCall, hHolds⟩
  rcases exists_first L n tiles with hNone | ⟨pre, ⟨a, len, free⟩, post, rfl, rfl, hFit, hSmall⟩
  · have hCall := hHolds.inv.pvPortMalloc_null hn (.inr hNone)
    exact ⟨s, tiles, by rw [hCall]; rfl, .null hn (.inr hNone) hCall, hHolds⟩
  · obtain ⟨h', tiles', hCall, hDone, hAfter⟩ := hHolds.allocated hPos hFit hSmall
    refine ⟨_, tiles', ?_, .allocated rfl rfl hPos hFit hSmall hCall hDone, hAfter⟩
    rw [hCall, Option.map_some, answer_eq (by omega)]
    rfl

theorem Holds.addr_ne_zero (hHolds : Holds L s tiles) (hb : b ∈ s.live) : b.addr ≠ 0 := by
  have hStruct := L.structSize_pos
  obtain ⟨t, _, _, hAddr, _⟩ := hHolds.held b hb
  omega

/-- A free of a block in use always returns. -/
theorem Holds.vPortFree (hHolds : Holds L s tiles) (hb : b ∈ s.live) :
    ∃ s' tiles', next L s (.vPortFree b.addr) = some s' ∧ Moved L s tiles (.vPortFree b.addr) s' tiles' ∧
      Holds L s' tiles' := by
  obtain ⟨pre, t, post, h', tiles', hTiles, ht, hAddr, hCall, hDone, hAfter⟩ := hHolds.freed hb
  refine ⟨_, tiles', ?_, .freed hb hTiles ht hAddr hCall hDone, hAfter⟩
  rw [next, if_pos (.inr ⟨b, hb, rfl⟩), hCall]
  rfl

/-- Each step is one of these, and the blocks tile the heap after it. -/
theorem Holds.next (hHolds : Holds L s tiles) (hNext : next L s act = some s') :
    ∃ tiles', Moved L s tiles act s' tiles' ∧ Holds L s' tiles' := by
  cases act with
  | pvPortMalloc n =>
      have hn : n < sizeRange L.ptr := by
        by_cases hn : n < sizeRange L.ptr
        · exact hn
        · simp [Heap4.next, hn] at hNext
      obtain ⟨u, tiles', hStep, hMoved, hAfter⟩ := hHolds.pvPortMalloc hn
      obtain rfl := Option.some.inj (hStep.symm.trans hNext)
      exact ⟨tiles', hMoved, hAfter⟩
  | vPortFree pv =>
      by_cases hNull : pv = 0
      · subst hNull
        have hErase : s.live.eraseP (·.addr = 0) = s.live := by
          apply List.eraseP_of_forall_not
          intro b hb
          simpa using hHolds.addr_ne_zero hb
        rw [Heap4.next, if_pos (.inl rfl), vPortFree_null, Option.map_some, hErase] at hNext
        obtain rfl := Option.some.inj hNext
        exact ⟨tiles, .freeNull, hHolds⟩
      · by_cases hLive : ∃ b ∈ s.live, b.addr = pv
        · obtain ⟨b, hb, rfl⟩ := hLive
          obtain ⟨u, tiles', hStep, hMoved, hAfter⟩ := hHolds.vPortFree hb
          obtain rfl := Option.some.inj (hStep.symm.trans hNext)
          exact ⟨tiles', hMoved, hAfter⟩
        · rw [Heap4.next, if_neg (not_or.mpr ⟨hNull, hLive⟩)] at hNext
          cases hNext
  | write b a link =>
      by_cases hIn : b ∈ s.live ∧ b.addr < a + 2 * sizeofPtr L.ptr ∧ a < b.addr + b.len
      · rw [Heap4.next, if_pos hIn] at hNext
        obtain rfl := Option.some.inj hNext
        exact ⟨tiles, .wrote hIn.1, hHolds.write hIn.1 hIn.2.1 hIn.2.2⟩
      · rw [Heap4.next, if_neg hIn] at hNext
        cases hNext

/-- Before the first allocation nothing happens; the first one sets the heap up. -/
theorem Fresh.next (hFresh : Fresh L s) (hNext : next L s act = some s') :
    s' = s ∨ Heap4.next L { s with heap := prvHeapInit L s.heap } act = some s' := by
  cases act with
  | pvPortMalloc n =>
      refine .inr ?_
      rw [← hNext, Heap4.next, Heap4.next, pvPortMalloc_init hFresh.pxEnd]
  | vPortFree pv =>
      refine .inl ?_
      by_cases hNull : pv = 0
      · subst hNull
        have hErase : s.live.eraseP (·.addr = 0) = s.live := by
          rw [hFresh.2]
          rfl
        rw [Heap4.next, if_pos (.inl rfl), vPortFree_null, Option.map_some, hErase] at hNext
        exact (Option.some.inj hNext).symm
      · rw [Heap4.next, if_neg (by simp [hFresh.2, hNull])] at hNext
        cases hNext
  | write b a link =>
      rw [Heap4.next, if_neg (by simp [hFresh.2])] at hNext
      cases hNext

/-- Every state of a run is fresh, or its blocks tile the heap. -/
theorem holds_of_reaches (hReaches : (system L).Reaches trace s) : Fresh L s ∨ ∃ tiles, Holds L s tiles := by
  obtain ⟨s₀, hStart, run⟩ := hReaches
  induction run with
  | nil => exact .inl hStart
  | snoc prior last ih =>
      rcases ih with hFresh | ⟨tiles, hHolds⟩
      · rcases hFresh.next last with rfl | hReady
        · exact .inl hFresh
        · obtain ⟨tiles', _, hAfter⟩ := hFresh.holds.next hReady
          exact .inr ⟨tiles', hAfter⟩
      · obtain ⟨tiles', _, hAfter⟩ := hHolds.next last
        exact .inr ⟨tiles', hAfter⟩

end FreeRtos.Heap4
