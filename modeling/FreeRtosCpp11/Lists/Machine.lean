import FreeRtosCpp11.Links.Ring
import FreeRtosCpp11.Transition.Run

/-! The lists of `list.c`, by their links. Items and lists are known by names of
any kind; a link leads to an item or to the end marker of a list. -/
namespace FreeRtos.Lists

open Links

/-- What a `ListItem_t *` points to. -/
inductive Node (ι κ : Type) where
  | item (pxItem : ι)
  | xListEnd (pxList : κ)
  deriving DecidableEq, Repr

/-- The fields of every `ListItem_t`, end markers included, and of every
`List_t`. -/
structure Mem (ι κ : Type) where
  xItemValue : Node ι κ → Nat
  pxNext : Node ι κ → Node ι κ
  pxPrevious : Node ι κ → Node ι κ
  pvOwner : Node ι κ → Nat
  pxContainer : Node ι κ → Option κ
  uxNumberOfItems : κ → Nat
  pxIndex : κ → Node ι κ

variable {ι κ : Type} [DecidableEq ι] [DecidableEq κ]

namespace Mem

def setNext (m : Mem ι κ) (a b : Node ι κ) : Mem ι κ := { m with pxNext := Function.update m.pxNext a b }

def setPrevious (m : Mem ι κ) (a b : Node ι κ) : Mem ι κ :=
  { m with pxPrevious := Function.update m.pxPrevious a b }

def setValue (m : Mem ι κ) (a : Node ι κ) (v : Nat) : Mem ι κ :=
  { m with xItemValue := Function.update m.xItemValue a v }

def setOwner (m : Mem ι κ) (a : Node ι κ) (pvOwner : Nat) : Mem ι κ :=
  { m with pvOwner := Function.update m.pvOwner a pvOwner }

def setContainer (m : Mem ι κ) (a : Node ι κ) (pxList : Option κ) : Mem ι κ :=
  { m with pxContainer := Function.update m.pxContainer a pxList }

def setIndex (m : Mem ι κ) (l : κ) (a : Node ι κ) : Mem ι κ :=
  { m with pxIndex := Function.update m.pxIndex l a }

def setCount (m : Mem ι κ) (l : κ) (n : Nat) : Mem ι κ :=
  { m with uxNumberOfItems := Function.update m.uxNumberOfItems l n }

end Mem

def vListInitialise (portMAX_DELAY : Nat) (m : Mem ι κ) (pxList : κ) : Mem ι κ :=
  let m := m.setIndex pxList (.xListEnd pxList)
  let m := m.setValue (.xListEnd pxList) portMAX_DELAY
  let m := m.setNext (.xListEnd pxList) (.xListEnd pxList)
  let m := m.setPrevious (.xListEnd pxList) (.xListEnd pxList)
  m.setCount pxList 0

def vListInitialiseItem (m : Mem ι κ) (pxItem : ι) : Mem ι κ := m.setContainer (.item pxItem) none

def vListInsertEnd (m : Mem ι κ) (pxList : κ) (pxNewListItem : ι) : Mem ι κ :=
  let pxIndex := m.pxIndex pxList
  let new : Node ι κ := .item pxNewListItem
  let m := m.setNext new pxIndex
  let m := m.setPrevious new (m.pxPrevious pxIndex)
  let m := m.setNext (m.pxPrevious pxIndex) new
  let m := m.setPrevious pxIndex new
  let m := m.setContainer new (some pxList)
  m.setCount pxList (m.uxNumberOfItems pxList + 1)

/-- The place found by `vListInsert`: the loop passes no more nodes than the
list has. -/
def insertionPoint (portMAX_DELAY : Nat) (m : Mem ι κ) (pxList : κ) (pxNewListItem : ι) :
    Option (Node ι κ) :=
  let xValueOfInsertion := m.xItemValue (.item pxNewListItem)
  if xValueOfInsertion = portMAX_DELAY then some (m.pxPrevious (.xListEnd pxList))
  else
    scan m.pxNext (fun pxIterator => !decide (m.xItemValue (m.pxNext pxIterator) ≤ xValueOfInsertion))
      (m.uxNumberOfItems pxList + 1) (.xListEnd pxList)

/-- The links of `vListInsert` behind the place found. -/
def insertBehind (m : Mem ι κ) (pxList : κ) (pxNewListItem : ι) (pxIterator : Node ι κ) : Mem ι κ :=
  let new : Node ι κ := .item pxNewListItem
  let m := m.setNext new (m.pxNext pxIterator)
  let m := m.setPrevious (m.pxNext new) new
  let m := m.setPrevious new pxIterator
  let m := m.setNext pxIterator new
  let m := m.setContainer new (some pxList)
  m.setCount pxList (m.uxNumberOfItems pxList + 1)

def vListInsert (portMAX_DELAY : Nat) (m : Mem ι κ) (pxList : κ) (pxNewListItem : ι) : Option (Mem ι κ) :=
  (insertionPoint portMAX_DELAY m pxList pxNewListItem).map (insertBehind m pxList pxNewListItem)

/-- The links of `uxListRemove` for an item of the list. -/
def unlinkItem (m : Mem ι κ) (pxList : κ) (pxItemToRemove : ι) : Mem ι κ :=
  let item : Node ι κ := .item pxItemToRemove
  let m := m.setPrevious (m.pxNext item) (m.pxPrevious item)
  let m := m.setNext (m.pxPrevious item) (m.pxNext item)
  let m := if m.pxIndex pxList = item then m.setIndex pxList (m.pxPrevious item) else m
  let m := m.setContainer item none
  m.setCount pxList (m.uxNumberOfItems pxList - 1)

/-- `uxListRemove`: the number of items left, and the memory after it; none for
an item in no list. -/
def uxListRemove (m : Mem ι κ) (pxItemToRemove : ι) : Option (Nat × Mem ι κ) :=
  (m.pxContainer (.item pxItemToRemove)).map fun pxList =>
    let m := unlinkItem m pxList pxItemToRemove
    (m.uxNumberOfItems pxList, m)

/-- `listGET_OWNER_OF_NEXT_ENTRY`: the owner and the memory after it. -/
def listGET_OWNER_OF_NEXT_ENTRY (m : Mem ι κ) (pxList : κ) : Nat × Mem ι κ :=
  let m := m.setIndex pxList (m.pxNext (m.pxIndex pxList))
  let m := if m.pxIndex pxList = .xListEnd pxList then m.setIndex pxList (m.pxNext (m.pxIndex pxList)) else m
  (m.pvOwner (m.pxIndex pxList), m)

/-- `listLIST_IS_EMPTY`. -/
def listLIST_IS_EMPTY (m : Mem ι κ) (pxList : κ) : Bool := m.uxNumberOfItems pxList = 0

/-- `listGET_OWNER_OF_HEAD_ENTRY`. -/
def listGET_OWNER_OF_HEAD_ENTRY (m : Mem ι κ) (pxList : κ) : Nat := m.pvOwner (m.pxNext (.xListEnd pxList))

/-- `listGET_ITEM_VALUE_OF_HEAD_ENTRY`. -/
def listGET_ITEM_VALUE_OF_HEAD_ENTRY (m : Mem ι κ) (pxList : κ) : Nat := m.xItemValue (m.pxNext (.xListEnd pxList))

/-- The memory, with the lists and the items that were initialised. -/
structure St (ι κ : Type) where
  mem : Mem ι κ
  lists : List κ
  items : List ι

inductive Act (ι κ : Type) where
  | initialise (l : κ)
  | initialiseItem (i : ι)
  | setOwner (i : ι) (pvOwner : Nat)
  | setValue (i : ι) (v : Nat)
  | insertEnd (l : κ) (i : ι)
  | insert (l : κ) (i : ι)
  | remove (i : ι)
  | nextEntry (l : κ)
  deriving DecidableEq, Repr

/-- The calls that the kernel makes: an item is in one list at most, and only
an empty list is set up again. -/
def next (portMAX_DELAY : Nat) (s : St ι κ) : Act ι κ → Option (St ι κ)
  | .initialise l =>
      if l ∉ s.lists ∨ listLIST_IS_EMPTY s.mem l then
        some { s with mem := vListInitialise portMAX_DELAY s.mem l, lists := l :: s.lists }
      else none
  | .initialiseItem i =>
      if i ∉ s.items ∨ s.mem.pxContainer (.item i) = none then
        some { s with mem := vListInitialiseItem s.mem i, items := i :: s.items }
      else none
  | .setOwner i pvOwner => some { s with mem := s.mem.setOwner (.item i) pvOwner }
  | .setValue i v => if v ≤ portMAX_DELAY then some { s with mem := s.mem.setValue (.item i) v } else none
  | .insertEnd l i =>
      if l ∈ s.lists ∧ i ∈ s.items ∧ s.mem.pxContainer (.item i) = none then
        some { s with mem := vListInsertEnd s.mem l i }
      else none
  | .insert l i =>
      if l ∈ s.lists ∧ i ∈ s.items ∧ s.mem.pxContainer (.item i) = none then
        (vListInsert portMAX_DELAY s.mem l i).map fun mem => { s with mem := mem }
      else none
  | .remove i =>
      if i ∈ s.items then (uxListRemove s.mem i).map fun (_, mem) => { s with mem := mem } else none
  | .nextEntry l =>
      if l ∈ s.lists ∧ listLIST_IS_EMPTY s.mem l = false then
        some { s with mem := (listGET_OWNER_OF_NEXT_ENTRY s.mem l).2 }
      else none

/-- Nothing is initialised at the start; a value is a `TickType_t` all the same. -/
def system (portMAX_DELAY : Nat) : Transition.System (St ι κ) (Act ι κ) where
  start s := s.lists = [] ∧ s.items = [] ∧ ∀ a, s.mem.xItemValue a ≤ portMAX_DELAY
  next := next portMAX_DELAY

end FreeRtos.Lists
