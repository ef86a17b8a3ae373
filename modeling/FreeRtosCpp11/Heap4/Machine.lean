import FreeRtosCpp11.Alloc.Wrap
import FreeRtosCpp11.Links.Chain
import FreeRtosCpp11.Transition.Run

/-! The heap of `heap_4.c`. The memory is seen through the `BlockLink_t` at each
address. The links of two blocks never overlap, and what the application writes
into a block changes every link that it overlaps. A loop that follows links
gives up after as many links as the heap has bytes. -/
namespace FreeRtos.Heap4

open Links
open Alloc (sizeofPtr sizeRange)

/-- `BlockLink_t`. -/
structure BlockLink where
  pxNextFreeBlock : Nat
  xBlockSize : Nat
  deriving DecidableEq, Repr

/-- `x & ~portBYTE_ALIGNMENT_MASK` for an alignment of `2 ^ align` bytes. -/
def maskOff (ptr align x : Nat) : Nat := x &&& (sizeRange ptr - 2 ^ align)

/-- `xHeapStructSize`: the two words of `BlockLink_t`, aligned. -/
def heapStructSize (ptr align : Nat) : Nat := maskOff ptr align (2 * sizeofPtr ptr + (2 ^ align - 1))

/-- The port and the place of the heap. -/
structure Port where
  /-- A pointer has `2 ^ ptr` bytes. -/
  ptr : Nat
  /-- `portBYTE_ALIGNMENT` is `2 ^ align`. -/
  align : Nat
  ucHeap : Nat
  configTOTAL_HEAP_SIZE : Nat
  /-- The address of `xStart`. -/
  xStart : Nat
  pointers : ptr ≤ align
  notNull : 0 < ucHeap
  /-- The end of the array is an address. -/
  stop : ucHeap + configTOTAL_HEAP_SIZE < sizeRange ptr
  /-- No size in the heap uses the top bit. -/
  half : 2 * configTOTAL_HEAP_SIZE ≤ sizeRange ptr
  room : 2 * (heapStructSize ptr align + 2 ^ align) ≤ configTOTAL_HEAP_SIZE
  apart : xStart < ucHeap ∨ ucHeap + configTOTAL_HEAP_SIZE ≤ xStart

namespace Port

variable (L : Port)

def xHeapStructSize : Nat := heapStructSize L.ptr L.align

def portBYTE_ALIGNMENT : Nat := 2 ^ L.align

def portBYTE_ALIGNMENT_MASK : Nat := 2 ^ L.align - 1

def heapMINIMUM_BLOCK_SIZE : Nat := L.xHeapStructSize <<< 1

/-- The links a loop follows at most. -/
def bound : Nat := L.configTOTAL_HEAP_SIZE + 1

/-- `pucAlignedHeap` and `xTotalHeapSize` of `prvHeapInit`. -/
def alignedHeap : Nat × Nat :=
  if L.ucHeap &&& L.portBYTE_ALIGNMENT_MASK ≠ 0 then
    let uxAddress := maskOff L.ptr L.align (L.ucHeap + (L.portBYTE_ALIGNMENT - 1))
    (uxAddress, L.configTOTAL_HEAP_SIZE - (uxAddress - L.ucHeap))
  else (L.ucHeap, L.configTOTAL_HEAP_SIZE)

def pucAlignedHeap : Nat := L.alignedHeap.1

/-- The address of the end marker. -/
def endMarker : Nat := maskOff L.ptr L.align (L.pucAlignedHeap + L.alignedHeap.2 - L.xHeapStructSize)

end Port

/-- The static variables, with the links in memory. -/
structure Heap where
  mem : Nat → BlockLink
  pxEnd : Nat
  xFreeBytesRemaining : Nat
  xMinimumEverFreeBytesRemaining : Nat
  xNumberOfSuccessfulAllocations : Nat
  xNumberOfSuccessfulFrees : Nat
  xBlockAllocatedBit : Nat

namespace Heap

def next (h : Heap) (a : Nat) : Nat := (h.mem a).pxNextFreeBlock

def size (h : Heap) (a : Nat) : Nat := (h.mem a).xBlockSize

def setNext (h : Heap) (a v : Nat) : Heap :=
  { h with mem := Function.update h.mem a { h.mem a with pxNextFreeBlock := v } }

def setSize (h : Heap) (a v : Nat) : Heap :=
  { h with mem := Function.update h.mem a { h.mem a with xBlockSize := v } }

/-- The variables as the program starts. -/
def zeroed (L : Port) (mem : Nat → BlockLink) : Heap where
  mem := Function.update mem L.xStart ⟨0, 0⟩
  pxEnd := 0
  xFreeBytesRemaining := 0
  xMinimumEverFreeBytesRemaining := 0
  xNumberOfSuccessfulAllocations := 0
  xNumberOfSuccessfulFrees := 0
  xBlockAllocatedBit := 0

end Heap

def prvHeapInit (L : Port) (h : Heap) : Heap :=
  let h := (h.setNext L.xStart L.pucAlignedHeap).setSize L.xStart 0
  let h := { h with pxEnd := L.endMarker }
  let h := (h.setSize h.pxEnd 0).setNext h.pxEnd 0
  let pxFirstFreeBlock := L.pucAlignedHeap
  let h := (h.setSize pxFirstFreeBlock (L.endMarker - pxFirstFreeBlock)).setNext pxFirstFreeBlock h.pxEnd
  { h with
    xMinimumEverFreeBytesRemaining := h.size pxFirstFreeBlock
    xFreeBytesRemaining := h.size pxFirstFreeBlock
    xBlockAllocatedBit := 1 <<< (sizeofPtr L.ptr * 8 - 1) }

/-- The links of `prvInsertBlockIntoFreeList` once the loop stopped. -/
def linkBlock (h : Heap) (pxIterator pxBlockToInsert : Nat) : Heap :=
  let (h, pxBlockToInsert) :=
    if pxIterator + h.size pxIterator = pxBlockToInsert then
      (h.setSize pxIterator (h.size pxIterator + h.size pxBlockToInsert), pxIterator)
    else (h, pxBlockToInsert)
  let h :=
    if pxBlockToInsert + h.size pxBlockToInsert = h.next pxIterator then
      if h.next pxIterator ≠ h.pxEnd then
        let h := h.setSize pxBlockToInsert (h.size pxBlockToInsert + h.size (h.next pxIterator))
        h.setNext pxBlockToInsert (h.next (h.next pxIterator))
      else h.setNext pxBlockToInsert h.pxEnd
    else h.setNext pxBlockToInsert (h.next pxIterator)
  if pxIterator ≠ pxBlockToInsert then h.setNext pxIterator pxBlockToInsert else h

def prvInsertBlockIntoFreeList (L : Port) (h : Heap) (pxBlockToInsert : Nat) : Option Heap :=
  (scan h.next (fun pxIterator => !decide (h.next pxIterator < pxBlockToInsert)) L.bound L.xStart).map
    fun pxIterator => linkBlock h pxIterator pxBlockToInsert

/-- The size of the block for a request, 0 when it does not fit a `size_t`. -/
def wantedSize (L : Port) (xWantedSize : Nat) : Nat :=
  if xWantedSize > 0 ∧ (xWantedSize + L.xHeapStructSize) % sizeRange L.ptr > xWantedSize then
    let xWantedSize := (xWantedSize + L.xHeapStructSize) % sizeRange L.ptr
    if xWantedSize &&& L.portBYTE_ALIGNMENT_MASK ≠ 0 then
      let aligned := (xWantedSize + (L.portBYTE_ALIGNMENT - (xWantedSize &&& L.portBYTE_ALIGNMENT_MASK))) %
        sizeRange L.ptr
      if aligned > xWantedSize then aligned else 0
    else xWantedSize
  else 0

/-- Part of `pvPortMalloc`: the rest of a block that is larger than required
becomes a free block. -/
def splitBlock (L : Port) (h : Heap) (pxBlock xWantedSize : Nat) : Option Heap :=
  if h.size pxBlock - xWantedSize > L.heapMINIMUM_BLOCK_SIZE then
    let pxNewBlockLink := pxBlock + xWantedSize
    let h := h.setSize pxNewBlockLink (h.size pxBlock - xWantedSize)
    let h := h.setSize pxBlock xWantedSize
    prvInsertBlockIntoFreeList L h pxNewBlockLink
  else some h

/-- Part of `pvPortMalloc`: the block is owned by the application. -/
def handOut (L : Port) (h : Heap) (pxBlock : Nat) : Heap :=
  let h := { h with xFreeBytesRemaining := h.xFreeBytesRemaining - h.size pxBlock }
  let h :=
    if h.xFreeBytesRemaining < h.xMinimumEverFreeBytesRemaining then
      { h with xMinimumEverFreeBytesRemaining := h.xFreeBytesRemaining }
    else h
  let h := (h.setSize pxBlock (h.size pxBlock ||| h.xBlockAllocatedBit)).setNext pxBlock 0
  { h with xNumberOfSuccessfulAllocations := (h.xNumberOfSuccessfulAllocations + 1) % sizeRange L.ptr }

/-- Part of `pvPortMalloc`: the loop for a block of adequate size. -/
def firstFit (L : Port) (h : Heap) (xWantedSize : Nat) : Option Nat :=
  scan h.next (fun pxPreviousBlock =>
      let pxBlock := h.next pxPreviousBlock
      !(decide (h.size pxBlock < xWantedSize) && decide (h.next pxBlock ≠ 0))) L.bound L.xStart

/-- Part of `pvPortMalloc`: the first call sets up the heap. -/
def ready (L : Port) (h : Heap) : Heap := if h.pxEnd = 0 then prvHeapInit L h else h

/-- `pvPortMalloc`: its result, 0 for null, and the heap after it. -/
def pvPortMalloc (L : Port) (h : Heap) (xWantedSize : Nat) : Option (Nat × Heap) :=
  let h := ready L h
  if xWantedSize &&& h.xBlockAllocatedBit = 0 then
    let xWantedSize := wantedSize L xWantedSize
    if xWantedSize > 0 ∧ xWantedSize ≤ h.xFreeBytesRemaining then
      (firstFit L h xWantedSize).bind fun pxPreviousBlock =>
        let pxBlock := h.next pxPreviousBlock
        if pxBlock ≠ h.pxEnd then
          let pvReturn := h.next pxPreviousBlock + L.xHeapStructSize
          let h := h.setNext pxPreviousBlock (h.next pxBlock)
          (splitBlock L h pxBlock xWantedSize).map fun h => (pvReturn, handOut L h pxBlock)
        else some (0, h)
    else some (0, h)
  else some (0, h)

def vPortFree (L : Port) (h : Heap) (pv : Nat) : Option Heap :=
  if pv ≠ 0 then
    let pxLink := pv - L.xHeapStructSize
    if h.size pxLink &&& h.xBlockAllocatedBit ≠ 0 then
      if h.next pxLink = 0 then
        let h := h.setSize pxLink (h.size pxLink &&& (sizeRange L.ptr - 1 - h.xBlockAllocatedBit))
        let h := { h with xFreeBytesRemaining := h.xFreeBytesRemaining + h.size pxLink }
        (prvInsertBlockIntoFreeList L h pxLink).map fun h =>
          { h with xNumberOfSuccessfulFrees := (h.xNumberOfSuccessfulFrees + 1) % sizeRange L.ptr }
      else some h
    else some h
  else some h

/-- `HeapStats_t`. -/
structure HeapStats where
  xAvailableHeapSpaceInBytes : Nat
  xSizeOfLargestFreeBlockInBytes : Nat
  xSizeOfSmallestFreeBlockInBytes : Nat
  xNumberOfFreeBlocks : Nat
  xMinimumEverFreeBytesRemaining : Nat
  xNumberOfSuccessfulAllocations : Nat
  xNumberOfSuccessfulFrees : Nat
  deriving DecidableEq, Repr

/-- How a loop over the links comes out. -/
inductive Walk (Result : Type) where
  | done (result : Result)
  /-- It reads the block at a null link. -/
  | null
  /-- It has followed as many links as the heap has bytes. -/
  | unfinished
  deriving DecidableEq, Repr

def Walk.map {A B : Type} (f : A → B) : Walk A → Walk B
  | .done result => .done (f result)
  | .null => .null
  | .unfinished => .unfinished

/-- The loop of `vPortGetHeapStats`: the number of blocks, the largest and the
smallest size. It reads the block before it looks for the end. -/
def statsLoop (h : Heap) : Nat → Nat → Nat × Nat × Nat → Walk (Nat × Nat × Nat)
  | 0, _, _ => .unfinished
  | fuel + 1, pxBlock, (xBlocks, xMaxSize, xMinSize) =>
      if pxBlock = 0 then .null
      else
        let xMaxSize := if h.size pxBlock > xMaxSize then h.size pxBlock else xMaxSize
        let xMinSize := if h.size pxBlock < xMinSize then h.size pxBlock else xMinSize
        if h.next pxBlock ≠ h.pxEnd then statsLoop h fuel (h.next pxBlock) (xBlocks + 1, xMaxSize, xMinSize)
        else .done (xBlocks + 1, xMaxSize, xMinSize)

/-- `vPortGetHeapStats`, with `portMAX_DELAY` as the largest size. -/
def vPortGetHeapStats (L : Port) (portMAX_DELAY : Nat) (h : Heap) : Walk HeapStats :=
  let loop :=
    if h.next L.xStart ≠ 0 then statsLoop h L.bound (h.next L.xStart) (0, 0, portMAX_DELAY)
    else .done (0, 0, portMAX_DELAY)
  loop.map fun (xBlocks, xMaxSize, xMinSize) =>
    { xAvailableHeapSpaceInBytes := h.xFreeBytesRemaining
      xSizeOfLargestFreeBlockInBytes := xMaxSize
      xSizeOfSmallestFreeBlockInBytes := xMinSize
      xNumberOfFreeBlocks := xBlocks
      xMinimumEverFreeBytesRemaining := h.xMinimumEverFreeBytesRemaining
      xNumberOfSuccessfulAllocations := h.xNumberOfSuccessfulAllocations
      xNumberOfSuccessfulFrees := h.xNumberOfSuccessfulFrees }

/-- The answer of `pvPortMalloc`. -/
def answer (pvReturn : Nat) : Option Nat := if pvReturn = 0 then none else some pvReturn

/-- The heap, and what the application got and did not give back. -/
structure St where
  heap : Heap
  live : List Alloc.Block

inductive Act where
  | pvPortMalloc (xWantedSize : Nat)
  | vPortFree (pv : Nat)
  /-- A write of the application into one of its blocks changes the link seen
  at an address from which the two words of a link reach into the block. -/
  | write (b : Alloc.Block) (a : Nat) (link : BlockLink)
  deriving DecidableEq

def next (L : Port) (s : St) : Act → Option St
  | .pvPortMalloc xWantedSize =>
      if xWantedSize < sizeRange L.ptr then
        (pvPortMalloc L s.heap xWantedSize).map fun (pvReturn, heap) =>
          { heap := heap
            live := (answer pvReturn).elim s.live fun p => ⟨p, xWantedSize⟩ :: s.live }
      else none
  | .vPortFree pv =>
      if pv = 0 ∨ ∃ b ∈ s.live, b.addr = pv then
        (vPortFree L s.heap pv).map fun heap =>
          { heap := heap, live := s.live.eraseP (·.addr = pv) }
      else none
  | .write b a link =>
      if b ∈ s.live ∧ b.addr < a + 2 * sizeofPtr L.ptr ∧ a < b.addr + b.len then
        some { s with heap := { s.heap with mem := Function.update s.heap.mem a link } }
      else none

def system (L : Port) : Transition.System St Act where
  start s := (∃ mem, s.heap = Heap.zeroed L mem) ∧ s.live = []
  next := next L

end FreeRtos.Heap4
