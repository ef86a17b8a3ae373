import FreeRtosCpp11.Lists.Machine
import FreeRtosCpp11.Links.Round

/-! The links of a list describe a round of items with a cursor, and every call
does to the links what it means for the rounds. -/
namespace FreeRtos.Lists

open Links

/-- What the lists mean: the items of each list with a cursor, and for each item
its value, its owner and its list. -/
structure Abs (ι κ : Type) where
  value : ι → Nat
  owner : ι → Nat
  home : ι → Option κ
  round : κ → Round ι

variable {ι κ : Type} [DecidableEq ι] [DecidableEq κ]

def Abs.ofMem (m : Mem ι κ) : Abs ι κ where
  value i := m.xItemValue (.item i)
  owner i := m.pvOwner (.item i)
  home _ := none
  round _ := ⟨[], []⟩

/-- What a call means. -/
def Abs.step (a : Abs ι κ) : Act ι κ → Abs ι κ
  | .initialise _ | .initialiseItem _ => a
  | .setOwner i pvOwner => { a with owner := Function.update a.owner i pvOwner }
  | .setValue i v => { a with value := Function.update a.value i v }
  | .insertEnd l i =>
      { a with
        home := Function.update a.home i (some l)
        round := Function.update a.round l ((a.round l).insertEnd i) }
  | .insert l i =>
      { a with
        home := Function.update a.home i (some l)
        round := Function.update a.round l ((a.round l).insertBy (fun j => a.value j ≤ a.value i) i) }
  | .remove i => match a.home i with
    | none => a
    | some l =>
        { a with
          home := Function.update a.home i none
          round := Function.update a.round l ((a.round l).remove i) }
  | .nextEntry l => { a with round := Function.update a.round l (a.round l).advance }

/-- The links, the cursor and the count of a list. -/
structure Represents (portMAX_DELAY : Nat) (m : Mem ι κ) (l : κ) (c : Round ι) : Prop where
  ring : Ring m.pxNext m.pxPrevious (.xListEnd l) (c.order.map Node.item)
  index : m.pxIndex l = (c.cursor.map Node.item).getD (.xListEnd l)
  count : m.uxNumberOfItems l = c.order.length
  stop : m.xItemValue (.xListEnd l) = portMAX_DELAY

/-- The state means the rounds. -/
structure Means (portMAX_DELAY : Nat) (s : St ι κ) (a : Abs ι κ) : Prop where
  lists : ∀ l ∈ s.lists, Represents portMAX_DELAY s.mem l (a.round l)
  container : ∀ i ∈ s.items, s.mem.pxContainer (.item i) = a.home i
  member : ∀ l i, i ∈ (a.round l).order ↔ a.home i = some l
  known : ∀ l i, a.home i = some l → l ∈ s.lists ∧ i ∈ s.items
  value : ∀ i, s.mem.xItemValue (.item i) = a.value i ∧ a.value i ≤ portMAX_DELAY
  owner : ∀ i, s.mem.pvOwner (.item i) = a.owner i

variable {portMAX_DELAY v : Nat} {m m' : Mem ι κ} {s s' : St ι κ} {a : Abs ι κ} {act : Act ι κ} {c c' : Round ι}
  {l k : κ} {i j : ι} {p q : Node ι κ} {A B : List ι}

/-- A new item between two nodes. -/
def linkIn (m : Mem ι κ) (l : κ) (i : ι) (p q : Node ι κ) : Mem ι κ :=
  { m with
    pxNext := Function.update (Function.update m.pxNext (.item i) q) p (.item i)
    pxPrevious := Function.update (Function.update m.pxPrevious (.item i) p) q (.item i)
    pxContainer := Function.update m.pxContainer (.item i) (some l)
    uxNumberOfItems := Function.update m.uxNumberOfItems l (m.uxNumberOfItems l + 1) }

theorem vListInsertEnd_eq (hIndex : m.pxIndex l ≠ .item i) :
    vListInsertEnd m l i = linkIn m l i (m.pxPrevious (m.pxIndex l)) (m.pxIndex l) := by
  simp [vListInsertEnd, linkIn, Mem.setNext, Mem.setPrevious, Mem.setContainer, Mem.setCount, hIndex]

theorem insertBehind_eq (hNext : m.pxNext p ≠ .item i) : insertBehind m l i p = linkIn m l i p (m.pxNext p) := by
  simp only [insertBehind, linkIn, Mem.setNext, Mem.setPrevious, Mem.setContainer, Mem.setCount,
    Function.update_self]
  rw [Function.update_comm hNext]

/-- The nodes of a list. -/
def nodes (c : Round ι) (l : κ) : List (Node ι κ) := .xListEnd l :: c.order.map Node.item

omit [DecidableEq ι] [DecidableEq κ] in
/-- A list depends on its own nodes, cursor and count. -/
theorem Represents.congr (h : Represents portMAX_DELAY m l c) (hNext : ∀ x ∈ nodes c l, m'.pxNext x = m.pxNext x)
    (hPrev : ∀ x ∈ nodes c l, m'.pxPrevious x = m.pxPrevious x) (hIndex : m'.pxIndex l = m.pxIndex l)
    (hCount : m'.uxNumberOfItems l = m.uxNumberOfItems l)
    (hStop : m'.xItemValue (.xListEnd l) = m.xItemValue (.xListEnd l)) : Represents portMAX_DELAY m' l c where
  ring := h.ring.congr hNext hPrev
  index := hIndex.trans h.index
  count := hCount.trans h.count
  stop := hStop.trans h.stop

/-- The list with a new item between two parts of it. -/
theorem Represents.linkIn (h : Represents portMAX_DELAY m l c) (hSplit : c.order = A ++ B) (hNew : i ∉ c.order)
    (hOrder : c'.order = A ++ i :: B) (hCursor : c'.cursor = c.cursor)
    (hp : p = (A.map Node.item).getLastD (.xListEnd l)) (hq : q = (B.map Node.item).headD (.xListEnd l)) :
    Represents portMAX_DELAY (linkIn m l i p q) l c' where
  ring := by
    have hRing := h.ring
    rw [hSplit, List.map_append] at hRing
    rw [hOrder, List.map_append, List.map_cons, hp, hq]
    apply hRing.insert
    rw [← List.map_append, ← hSplit]
    simpa using hNew
  index := by
    rw [hCursor]
    exact h.index
  count := by
    have hCount := h.count
    rw [hSplit, List.length_append] at hCount
    simp [Lists.linkIn, hOrder, hCount, Nat.add_assoc]
  stop := h.stop

omit [DecidableEq ι] [DecidableEq κ] in
/-- The nodes between which the item goes are nodes of the list. -/
theorem mem_nodes_of_split (hSplit : c.order = A ++ B) :
    (A.map Node.item).getLastD (.xListEnd l) ∈ nodes c l ∧ (B.map Node.item).headD (.xListEnd l) ∈ nodes c l := by
  rw [nodes, hSplit, List.map_append]
  constructor
  · have hMem := getLastD_mem (Node.xListEnd l) (A.map Node.item)
    exact List.mem_append_left (B.map Node.item) hMem
  · cases B with
    | nil => exact List.mem_cons_self
    | cons b B => simp

section Frame

variable (hMeans : Means portMAX_DELAY s a)

include hMeans

omit [DecidableEq ι] [DecidableEq κ] in
/-- Two lists share no node. -/
theorem Means.nodes_apart (hNe : k ≠ l) {x : Node ι κ} (hx : x ∈ nodes (a.round l) l) : x ∉ nodes (a.round k) k := by
  intro hOther
  rw [nodes, List.mem_cons, List.mem_map] at hx hOther
  rcases hx with rfl | ⟨i, hi, rfl⟩
  · rcases hOther with hSame | ⟨j, _, hSame⟩
    · exact hNe (Node.xListEnd.inj hSame).symm
    · cases hSame
  · rcases hOther with hSame | ⟨j, hj, hSame⟩
    · cases hSame
    · obtain rfl := Node.item.inj hSame
      have hFirst := (hMeans.member l j).mp hi
      rw [(hMeans.member k j).mp hj] at hFirst
      exact hNe (Option.some.inj hFirst)

omit [DecidableEq ι] [DecidableEq κ] in
theorem Means.not_mem_of_home (hHome : a.home i = none) (k : κ) : Node.item i ∉ nodes (a.round k) k := by
  rw [nodes, List.mem_cons, List.mem_map, not_or]
  refine ⟨by simp, ?_⟩
  rintro ⟨j, hj, hSame⟩
  rw [Node.item.inj hSame, hMeans.member, hHome] at hj
  cases hj

/-- A new item in one list. -/
theorem Means.linkIn (hl : l ∈ s.lists) (hi : i ∈ s.items) (hHome : a.home i = none)
    (hSplit : (a.round l).order = A ++ B) (hOrder : c'.order = A ++ i :: B) (hCursor : c'.cursor = (a.round l).cursor)
    (hp : p = (A.map Node.item).getLastD (.xListEnd l)) (hq : q = (B.map Node.item).headD (.xListEnd l)) :
    Means portMAX_DELAY { s with mem := linkIn s.mem l i p q }
      { a with home := Function.update a.home i (some l), round := Function.update a.round l c' } where
  lists k hk := by
    dsimp only
    by_cases hSame : k = l
    · subst hSame
      rw [Function.update_self]
      refine (hMeans.lists k hk).linkIn hSplit ?_ hOrder hCursor hp hq
      rw [hMeans.member, hHome]
      simp
    · rw [Function.update_of_ne hSame]
      obtain ⟨hpMem, hqMem⟩ := mem_nodes_of_split (l := l) hSplit
      rw [← hp] at hpMem
      rw [← hq] at hqMem
      have hApart : ∀ x ∈ nodes (a.round k) k, x ≠ p ∧ x ≠ q ∧ x ≠ .item i := by
        intro x hx
        refine ⟨?_, ?_, ?_⟩
        · rintro rfl
          exact hMeans.nodes_apart hSame hpMem hx
        · rintro rfl
          exact hMeans.nodes_apart hSame hqMem hx
        · rintro rfl
          exact hMeans.not_mem_of_home hHome k hx
      refine (hMeans.lists k hk).congr (fun x hx => ?_) (fun x hx => ?_) rfl ?_ rfl
      · obtain ⟨hxp, _, hxi⟩ := hApart x hx
        simp [Lists.linkIn, hxp, hxi]
      · obtain ⟨_, hxq, hxi⟩ := hApart x hx
        simp [Lists.linkIn, hxq, hxi]
      · exact Function.update_of_ne hSame _ _
  container j hj := by
    by_cases hSame : j = i
    · subst hSame
      simp [Lists.linkIn]
    · simp [Lists.linkIn, hSame, hMeans.container j hj]
  member k j := by
    dsimp only
    by_cases hItem : j = i
    · subst hItem
      by_cases hList : k = l
      · subst hList
        simp [hOrder]
      · have hOut : j ∉ (a.round k).order := by
          rw [hMeans.member, hHome]
          simp
        simp [hList, hOut, Ne.symm hList]
    · rw [Function.update_of_ne hItem, ← hMeans.member]
      by_cases hList : k = l
      · subst hList
        simp [hOrder, hSplit, hItem]
      · rw [Function.update_of_ne hList]
  known k j hKnown := by
    dsimp only at hKnown
    by_cases hItem : j = i
    · subst hItem
      rw [Function.update_self] at hKnown
      exact Option.some.inj hKnown ▸ ⟨hl, hi⟩
    · rw [Function.update_of_ne hItem] at hKnown
      exact hMeans.known k j hKnown
  value := hMeans.value
  owner := hMeans.owner

end Frame

omit [DecidableEq ι] [DecidableEq κ] in
/-- The cursor is the last node before the rest of the list. -/
theorem cursor_node (c : Round ι) (l : κ) :
    (c.cursor.map Node.item).getD (.xListEnd l) = (c.served.reverse.map Node.item).getLastD (.xListEnd l) := by
  obtain ⟨served, ahead⟩ := c
  cases served <;> simp [Round.cursor]

theorem Means.insertEnd (hMeans : Means portMAX_DELAY s a) (hl : l ∈ s.lists) (hi : i ∈ s.items)
    (hFree : s.mem.pxContainer (.item i) = none) :
    Means portMAX_DELAY { s with mem := vListInsertEnd s.mem l i } (a.step (.insertEnd l i)) := by
  have hHome : a.home i = none := (hMeans.container i hi).symm.trans hFree
  have hRep := hMeans.lists l hl
  obtain ⟨A, B, hSplit, hOrder, hHead⟩ := Round.order_insertEnd (a.round l) i
  have hIndex : s.mem.pxIndex l = (B.map Node.item).headD (.xListEnd l) := by
    rw [hRep.index, ← hHead]
    cases B <;> rfl
  have hRing := hRep.ring
  rw [hSplit, List.map_append] at hRing
  have hNe : s.mem.pxIndex l ≠ .item i := by
    intro hSame
    have hMem := (mem_nodes_of_split (l := l) hSplit).2
    rw [← hIndex, hSame] at hMem
    exact hMeans.not_mem_of_home hHome l hMem
  rw [vListInsertEnd_eq hNe]
  refine hMeans.linkIn hl hi hHome hSplit hOrder Round.cursor_insertEnd ?_ hIndex
  rw [hIndex]
  exact hRing.prev_eq

omit [DecidableEq ι] [DecidableEq κ] in
/-- The loop stops behind the items that are not larger. -/
theorem Means.insertionPoint (hMeans : Means portMAX_DELAY s a) (hl : l ∈ s.lists)
    (hSplit : (a.round l).order = A ++ B) (hBelow : ∀ j ∈ A, a.value j ≤ a.value i)
    (hAbove : ∀ j ∈ B.head?, ¬ a.value j ≤ a.value i) :
    insertionPoint portMAX_DELAY s.mem l i = some ((A.map Node.item).getLastD (.xListEnd l)) := by
  have hRep := hMeans.lists l hl
  have hRing := hRep.ring
  rw [hSplit, List.map_append] at hRing
  have hValue := hMeans.value i
  unfold Lists.insertionPoint
  rw [hValue.1]
  dsimp only
  split
  case isTrue hMax =>
    have hRest : B = [] := by
      cases B with
      | nil => rfl
      | cons j B => exact absurd (hMax ▸ (hMeans.value j).2) (hAbove j rfl)
    subst hRest
    exact congrArg some hRing.prev_eq
  case isFalse hLess =>
    have hChain := (chain_append.mp hRing.forward).1
    apply hChain.scan_eq
    · intro x hx
      obtain ⟨j, hj, hNode⟩ := List.mem_map.mp (hChain.next_mem hx)
      have hLow := hBelow j hj
      rw [← hNode, (hMeans.value j).1]
      simpa using hLow
    · rw [hChain.next_last]
      cases B with
      | nil =>
          rw [List.map_nil, List.headD_nil, hRep.stop]
          have hLt : a.value i < portMAX_DELAY := by omega
          simpa using hLt
      | cons j B =>
          have hHigh := hAbove j rfl
          rw [List.map_cons, List.headD_cons, (hMeans.value j).1]
          simpa using hHigh
    · have hCount := hRep.count
      rw [hSplit, List.length_append] at hCount
      rw [List.length_map, hCount]
      omega

theorem Means.insert (hMeans : Means portMAX_DELAY s a) (hl : l ∈ s.lists) (hi : i ∈ s.items)
    (hFree : s.mem.pxContainer (.item i) = none) :
    ∃ mem, vListInsert portMAX_DELAY s.mem l i = some mem ∧
      Means portMAX_DELAY { s with mem := mem } (a.step (.insert l i)) := by
  have hHome : a.home i = none := (hMeans.container i hi).symm.trans hFree
  have hRing := (hMeans.lists l hl).ring
  have hSplit : (a.round l).order = (a.round l).order.takeWhile (fun j => a.value j ≤ a.value i) ++
      (a.round l).order.dropWhile (fun j => a.value j ≤ a.value i) := List.takeWhile_append_dropWhile.symm
  have hPoint := hMeans.insertionPoint (i := i) hl hSplit
    (fun j hj => by simpa using List.all_eq_true.mp List.all_takeWhile j hj)
    (fun j hj => by
      have hHead := List.head?_dropWhile_not (fun j => decide (a.value j ≤ a.value i)) (a.round l).order
      rw [Option.mem_def.mp hj] at hHead
      simpa using hHead)
  refine ⟨_, congrArg (Option.map _) hPoint, ?_⟩
  rw [hSplit, List.map_append] at hRing
  have hNode := (mem_nodes_of_split (l := l) hSplit).2
  rw [insertBehind_eq]
  · exact hMeans.linkIn hl hi hHome hSplit Round.order_insertBy Round.cursor_insertBy rfl hRing.next_eq
  · rw [hRing.next_eq]
    intro hSame
    exact hMeans.not_mem_of_home hHome l (hSame ▸ hNode)

/-- The links of a list without one of its items. -/
theorem unlinkItem_eq (hNext : m.pxNext (.item i) ≠ .item i) :
    unlinkItem m l i =
      { m with
        pxNext := Function.update m.pxNext (m.pxPrevious (.item i)) (m.pxNext (.item i))
        pxPrevious := Function.update m.pxPrevious (m.pxNext (.item i)) (m.pxPrevious (.item i))
        pxIndex := if m.pxIndex l = .item i then Function.update m.pxIndex l (m.pxPrevious (.item i)) else m.pxIndex
        pxContainer := Function.update m.pxContainer (.item i) none
        uxNumberOfItems := Function.update m.uxNumberOfItems l (m.uxNumberOfItems l - 1) } := by
  by_cases hIndex : m.pxIndex l = .item i
  · simp [unlinkItem, Mem.setNext, Mem.setPrevious, Mem.setIndex, Mem.setContainer, Mem.setCount, hIndex,
      hNext.symm]
  · simp [unlinkItem, Mem.setNext, Mem.setPrevious, Mem.setContainer, Mem.setCount, hIndex, hNext.symm]

theorem Represents.unlinkItem (h : Represents portMAX_DELAY m l c) (hi : i ∈ c.order) :
    Represents portMAX_DELAY (unlinkItem m l i) l (c.remove i) ∧
      m.pxNext (.item i) ∈ nodes c l ∧ m.pxPrevious (.item i) ∈ nodes c l ∧ m.pxNext (.item i) ≠ .item i ∧
        (unlinkItem m l i).uxNumberOfItems l = (c.remove i).order.length := by
  obtain ⟨A, B, hSplit⟩ := List.append_of_mem hi
  have hNodup : c.order.Nodup := by
    have hAll := (List.nodup_cons.mp h.ring.nodup).2
    exact hAll.of_map Node.item
  have hRing := h.ring
  rw [hSplit, List.map_append, List.map_cons] at hRing
  have hNext := hRing.next_elem
  have hPrev := hRing.prev_elem
  have hRest : (c.remove i).order = A ++ B := by
    rw [Round.order_remove, hSplit]
    exact Round.filter_ne_middle (hSplit ▸ hNodup)
  have hNextMem : m.pxNext (.item i) ∈ nodes c l := by
    rw [hNext, nodes, hSplit]
    cases B with
    | nil => exact List.mem_cons_self
    | cons b B => simp
  have hPrevMem : m.pxPrevious (.item i) ∈ nodes c l := by
    rw [hPrev, nodes, hSplit, List.map_append]
    exact List.mem_append_left _ (getLastD_mem (Node.xListEnd l) (A.map Node.item))
  have hNe : m.pxNext (.item i) ≠ .item i := by
    rw [hNext]
    intro hSame
    have hApart : i ∉ B := by
      rw [hSplit, List.nodup_middle, List.nodup_cons, List.mem_append, not_or] at hNodup
      exact hNodup.1.2
    cases B with
    | nil => cases hSame
    | cons b B =>
        rw [List.map_cons, List.headD_cons] at hSame
        exact hApart (Node.item.inj hSame ▸ List.mem_cons_self)
  have hCount : (Lists.unlinkItem m l i).uxNumberOfItems l = (c.remove i).order.length := by
    rw [unlinkItem_eq hNe, hRest, List.length_append]
    have hOld := h.count
    rw [hSplit, List.length_append, List.length_cons] at hOld
    simp [hOld]
  refine ⟨⟨?_, ?_, hCount, ?_⟩, hNextMem, hPrevMem, hNe, hCount⟩
  · rw [hRest, List.map_append, unlinkItem_eq hNe]
    exact hRing.remove
  · rw [unlinkItem_eq hNe]
    by_cases hCursor : c.cursor = some i
    · obtain ⟨served, hOrder, hStep⟩ := Round.remove_cursor hNodup hCursor
      have hHere : m.pxIndex l = .item i := by
        rw [h.index, hCursor]
        rfl
      have hBefore : A = served.reverse := by
        have hSame := hSplit.symm.trans hOrder
        rw [hSplit, List.nodup_middle, List.nodup_cons, List.mem_append, not_or] at hNodup
        exact ((List.append_cons_inj_of_notMem hNodup.1.1 hNodup.1.2).mp hSame).1
      dsimp only
      rw [if_pos hHere, Function.update_self, hStep, hPrev, hBefore]
      exact (cursor_node ⟨served, []⟩ l).symm
    · have hElse : m.pxIndex l ≠ .item i := by
        rw [h.index]
        cases hAt : c.cursor with
        | none => simp
        | some j =>
            rintro hSame
            exact hCursor (hAt.trans (congrArg some (Node.item.inj hSame)))
      dsimp only
      rw [if_neg hElse, Round.cursor_remove_of_ne hCursor]
      exact h.index
  · rw [unlinkItem_eq hNe]
    exact h.stop

theorem Means.remove (hMeans : Means portMAX_DELAY s a) (hi : i ∈ s.items) (hHome : a.home i = some l) :
    uxListRemove s.mem i = some (((a.round l).remove i).order.length, unlinkItem s.mem l i) ∧
      Means portMAX_DELAY { s with mem := unlinkItem s.mem l i } (a.step (.remove i)) := by
  obtain ⟨hl, _⟩ := hMeans.known l i hHome
  have hMem : i ∈ (a.round l).order := (hMeans.member l i).mpr hHome
  obtain ⟨hRep, hNextMem, hPrevMem, hNe, hCount⟩ := (hMeans.lists l hl).unlinkItem hMem
  have hStep : a.step (.remove i) =
      { a with home := Function.update a.home i none, round := Function.update a.round l ((a.round l).remove i) } := by
    simp only [Abs.step, hHome]
  rw [uxListRemove, hMeans.container i hi, hHome, Option.map_some, hStep]
  refine ⟨congrArg some (Prod.ext hCount rfl), ?_, ?_, ?_, ?_, ?_, ?_⟩
  · intro k hk
    dsimp only
    by_cases hSame : k = l
    · subst hSame
      rw [Function.update_self]
      exact hRep
    · rw [Function.update_of_ne hSame, unlinkItem_eq hNe]
      refine (hMeans.lists k hk).congr (fun x hx => ?_) (fun x hx => ?_) ?_ ?_ rfl
      · refine Function.update_of_ne ?_ _ _
        rintro rfl
        exact hMeans.nodes_apart hSame hPrevMem hx
      · refine Function.update_of_ne ?_ _ _
        rintro rfl
        exact hMeans.nodes_apart hSame hNextMem hx
      · dsimp only
        split
        case isTrue => exact Function.update_of_ne hSame _ _
        case isFalse => rfl
      · exact Function.update_of_ne hSame _ _
  · intro j hj
    rw [unlinkItem_eq hNe]
    dsimp only
    by_cases hSame : j = i
    · subst hSame
      rw [Function.update_self, Function.update_self]
    · rw [Function.update_of_ne hSame, Function.update_of_ne (by simpa using hSame)]
      exact hMeans.container j hj
  · intro k j
    dsimp only
    by_cases hItem : j = i
    · subst hItem
      rw [Function.update_self]
      refine iff_of_false ?_ (by simp)
      by_cases hList : k = l
      · subst hList
        rw [Function.update_self, Round.order_remove]
        simp
      · rw [Function.update_of_ne hList, hMeans.member, hHome]
        exact fun hSame => hList (Option.some.inj hSame).symm
    · rw [Function.update_of_ne hItem, ← hMeans.member]
      by_cases hList : k = l
      · subst hList
        rw [Function.update_self, Round.order_remove]
        simp [hItem]
      · rw [Function.update_of_ne hList]
  · intro k j hKnown
    dsimp only at hKnown
    by_cases hItem : j = i
    · subst hItem
      rw [Function.update_self] at hKnown
      cases hKnown
    · rw [Function.update_of_ne hItem] at hKnown
      exact hMeans.known k j hKnown
  · rw [unlinkItem_eq hNe]
    exact hMeans.value
  · rw [unlinkItem_eq hNe]
    exact hMeans.owner

/-- The next entry is the first one that waits. -/
theorem Represents.nextEntry (h : Represents portMAX_DELAY m l c) {w : List ι} (hFirst : c.waiting = i :: w) :
    listGET_OWNER_OF_NEXT_ENTRY m l = (m.pvOwner (.item i), m.setIndex l (.item i)) := by
  have hIndex := h.index.trans (cursor_node c l)
  have hRing := h.ring
  rw [Round.order, List.map_append] at hRing
  have hNext := hRing.next_eq
  rw [← hIndex] at hNext
  obtain ⟨served, ahead⟩ := c
  cases ahead with
  | cons j ahead =>
      obtain ⟨rfl, _⟩ := List.cons.inj hFirst
      simp only [List.map_cons, List.headD_cons] at hNext
      simp [listGET_OWNER_OF_NEXT_ENTRY, Mem.setIndex, hNext]
  | nil =>
      have hServed : served.reverse = i :: w := by simpa [Round.waiting] using hFirst
      simp only [List.map_nil, List.headD_nil] at hNext
      have hStart : m.pxNext (.xListEnd l) = .item i := by
        have hForward := hRing.forward
        simp only [hServed, List.map_cons, List.map_nil, List.append_nil] at hForward
        exact hForward.1
      simp [listGET_OWNER_OF_NEXT_ENTRY, Mem.setIndex, hNext, hStart]

theorem Means.nextEntry (hMeans : Means portMAX_DELAY s a) (hl : l ∈ s.lists) {w : List ι}
    (hFirst : (a.round l).waiting = i :: w) :
    Means portMAX_DELAY { s with mem := (listGET_OWNER_OF_NEXT_ENTRY s.mem l).2 } (a.step (.nextEntry l)) := by
  have hRep := hMeans.lists l hl
  rw [hRep.nextEntry hFirst]
  refine ⟨?_, hMeans.container, ?_, hMeans.known, hMeans.value, hMeans.owner⟩
  · intro k hk
    by_cases hSame : k = l
    · subst hSame
      simp only [Abs.step, Function.update_self]
      refine ⟨?_, ?_, ?_, hRep.stop⟩
      · rw [Round.order_advance]
        exact hRep.ring
      · rw [Round.cursor_advance hFirst]
        exact Function.update_self _ _ _
      · rw [Round.order_advance]
        exact hRep.count
    · simp only [Abs.step, Function.update_of_ne hSame]
      exact (hMeans.lists k hk).congr (fun _ _ => rfl) (fun _ _ => rfl) (Function.update_of_ne hSame _ _) rfl rfl
  · intro k j
    by_cases hSame : k = l
    · subst hSame
      simp only [Abs.step, Function.update_self, Round.order_advance]
      exact hMeans.member k j
    · simp only [Abs.step, Function.update_of_ne hSame]
      exact hMeans.member k j

omit [DecidableEq ι] [DecidableEq κ] in
theorem Means.start (h : s.lists = [] ∧ s.items = [] ∧ ∀ a, s.mem.xItemValue a ≤ portMAX_DELAY) :
    Means portMAX_DELAY s (Abs.ofMem s.mem) := by
  obtain ⟨hLists, hItems, hValues⟩ := h
  refine ⟨?_, ?_, ?_, ?_, fun i => ⟨rfl, hValues _⟩, fun _ => rfl⟩
  · simp [hLists]
  · simp [hItems]
  · simp [Abs.ofMem, Round.order]
  · simp [Abs.ofMem]

omit [DecidableEq ι] in
/-- A list without items, set up or not, has the empty round. -/
theorem Means.round_eq_empty (hMeans : Means portMAX_DELAY s a)
    (hEmpty : l ∉ s.lists ∨ listLIST_IS_EMPTY s.mem l = true) : a.round l = ⟨[], []⟩ := by
  have hOrder : (a.round l).order = [] := by
    by_cases hl : l ∈ s.lists
    · have hCount := (hMeans.lists l hl).count
      have hZero := hEmpty.resolve_left (not_not.mpr hl)
      simp only [listLIST_IS_EMPTY, decide_eq_true_eq] at hZero
      exact List.eq_nil_of_length_eq_zero (hCount.symm.trans hZero)
    · refine List.eq_nil_iff_forall_not_mem.mpr fun i hi => ?_
      exact hl (hMeans.known l i ((hMeans.member l i).mp hi)).1
  exact Round.eq_empty hOrder

theorem Means.initialise (hMeans : Means portMAX_DELAY s a)
    (hEmpty : l ∉ s.lists ∨ listLIST_IS_EMPTY s.mem l = true) :
    Means portMAX_DELAY { s with mem := vListInitialise portMAX_DELAY s.mem l, lists := l :: s.lists } a := by
  have hRound := hMeans.round_eq_empty hEmpty
  refine ⟨fun k hk => ?_, hMeans.container, hMeans.member, fun k j hKnown => ?_, fun i => ?_, hMeans.owner⟩
  · by_cases hSame : k = l
    · subst hSame
      rw [hRound]
      refine ⟨Ring.empty ?_ ?_, ?_, ?_, ?_⟩ <;>
        simp [vListInitialise, Mem.setNext, Mem.setPrevious, Mem.setIndex, Mem.setCount, Mem.setValue, Round.cursor,
          Round.order]
    · have hOld := hMeans.lists k ((List.mem_cons.mp hk).resolve_left hSame)
      have hApart : ∀ x ∈ nodes (a.round k) k, x ≠ .xListEnd l := by
        rintro x hx rfl
        exact hMeans.nodes_apart hSame List.mem_cons_self hx
      refine hOld.congr (fun x hx => ?_) (fun x hx => ?_) ?_ ?_ ?_
      · exact Function.update_of_ne (hApart x hx) _ _
      · exact Function.update_of_ne (hApart x hx) _ _
      · exact Function.update_of_ne hSame _ _
      · exact Function.update_of_ne hSame _ _
      · exact Function.update_of_ne (by simpa using hSame) _ _
  · obtain ⟨hl, hi⟩ := hMeans.known k j hKnown
    exact ⟨List.mem_cons_of_mem l hl, hi⟩
  · have hValue : (vListInitialise portMAX_DELAY s.mem l).xItemValue (.item i) = s.mem.xItemValue (.item i) :=
      Function.update_of_ne (by simp : Node.item i ≠ .xListEnd l) portMAX_DELAY s.mem.xItemValue
    rw [hValue]
    exact hMeans.value i

theorem Means.initialiseItem (hMeans : Means portMAX_DELAY s a)
    (hOut : i ∉ s.items ∨ s.mem.pxContainer (.item i) = none) :
    Means portMAX_DELAY { s with mem := vListInitialiseItem s.mem i, items := i :: s.items } a := by
  have hHome : a.home i = none := by
    by_cases hi : i ∈ s.items
    · rw [← hMeans.container i hi]
      exact hOut.resolve_left (not_not.mpr hi)
    · cases hHome : a.home i with
      | none => rfl
      | some l => exact absurd (hMeans.known l i hHome).2 hi
  refine ⟨?_, fun j hj => ?_, hMeans.member, fun k j hKnown => ?_, hMeans.value, hMeans.owner⟩
  · intro k hk
    exact (hMeans.lists k hk).congr (fun _ _ => rfl) (fun _ _ => rfl) rfl rfl rfl
  · by_cases hSame : j = i
    · subst hSame
      rw [hHome]
      exact Function.update_self _ _ _
    · rw [← hMeans.container j ((List.mem_cons.mp hj).resolve_left hSame)]
      exact Function.update_of_ne (by simpa using hSame) _ _
  · obtain ⟨hl, hi⟩ := hMeans.known k j hKnown
    exact ⟨hl, List.mem_cons_of_mem i hi⟩

theorem Means.setOwner (hMeans : Means portMAX_DELAY s a) (i : ι) (pvOwner : Nat) :
    Means portMAX_DELAY { s with mem := s.mem.setOwner (.item i) pvOwner } (a.step (.setOwner i pvOwner)) := by
  refine ⟨?_, hMeans.container, hMeans.member, hMeans.known, hMeans.value, fun j => ?_⟩
  · intro k hk
    exact (hMeans.lists k hk).congr (fun _ _ => rfl) (fun _ _ => rfl) rfl rfl rfl
  · by_cases hSame : j = i
    · subst hSame
      simp [Mem.setOwner, Abs.step]
    · simp [Mem.setOwner, Abs.step, hSame, hMeans.owner j]

theorem Means.setValue (hMeans : Means portMAX_DELAY s a) (hv : v ≤ portMAX_DELAY) (i : ι) :
    Means portMAX_DELAY { s with mem := s.mem.setValue (.item i) v } (a.step (.setValue i v)) := by
  refine ⟨?_, hMeans.container, hMeans.member, hMeans.known, fun j => ?_, hMeans.owner⟩
  · intro k hk
    exact (hMeans.lists k hk).congr (fun _ _ => rfl) (fun _ _ => rfl) rfl rfl
      (Function.update_of_ne (by simp : Node.xListEnd k ≠ .item i) v s.mem.xItemValue)
  · by_cases hSame : j = i
    · subst hSame
      simp [Mem.setValue, Abs.step, hv]
    · simp [Mem.setValue, Abs.step, hSame, hMeans.value j]

/-- A step of the links is what the call means for the rounds. -/
theorem Means.next (hMeans : Means portMAX_DELAY s a) (hNext : next portMAX_DELAY s act = some s') :
    Means portMAX_DELAY s' (a.step act) := by
  cases act with
  | initialise l =>
      obtain ⟨hGuard, hSome⟩ := Option.ite_none_right_eq_some.mp hNext
      obtain rfl := Option.some.inj hSome
      exact hMeans.initialise hGuard
  | initialiseItem i =>
      obtain ⟨hGuard, hSome⟩ := Option.ite_none_right_eq_some.mp hNext
      obtain rfl := Option.some.inj hSome
      exact hMeans.initialiseItem hGuard
  | setOwner i pvOwner =>
      obtain rfl := Option.some.inj hNext
      exact hMeans.setOwner i pvOwner
  | setValue i v =>
      obtain ⟨hGuard, hSome⟩ := Option.ite_none_right_eq_some.mp hNext
      obtain rfl := Option.some.inj hSome
      exact hMeans.setValue hGuard i
  | insertEnd l i =>
      obtain ⟨⟨hl, hi, hFree⟩, hSome⟩ := Option.ite_none_right_eq_some.mp hNext
      obtain rfl := Option.some.inj hSome
      exact hMeans.insertEnd hl hi hFree
  | insert l i =>
      obtain ⟨⟨hl, hi, hFree⟩, hCall⟩ := Option.ite_none_right_eq_some.mp hNext
      obtain ⟨mem, hSome, hAfter⟩ := hMeans.insert hl hi hFree
      rw [hSome] at hCall
      obtain rfl := Option.some.inj hCall
      exact hAfter
  | remove i =>
      obtain ⟨hi, hCall⟩ := Option.ite_none_right_eq_some.mp hNext
      cases hHome : a.home i with
      | none => simp [uxListRemove, hMeans.container i hi, hHome] at hCall
      | some l =>
          obtain ⟨hSome, hAfter⟩ := hMeans.remove hi hHome
          rw [hSome] at hCall
          obtain rfl := Option.some.inj hCall
          exact hAfter
  | nextEntry l =>
      obtain ⟨⟨hl, hItems⟩, hSome⟩ := Option.ite_none_right_eq_some.mp hNext
      obtain rfl := Option.some.inj hSome
      cases hFirst : (a.round l).waiting with
      | nil =>
          have hCount := (hMeans.lists l hl).count
          have hOrder : (a.round l).order = [] := by
            refine List.eq_nil_iff_forall_not_mem.mpr fun i hi => ?_
            rw [Round.mem_order, hFirst] at hi
            cases hi
          simp [listLIST_IS_EMPTY, hCount, hOrder] at hItems
      | cons i w => exact hMeans.nextEntry hl hFirst

/-- What the calls of a run mean, one after the other. -/
def Abs.after (a : Abs ι κ) (trace : Transition.Trace (St ι κ) (Act ι κ)) : Abs ι κ :=
  trace.foldl (fun a step => a.step step.2) a

theorem Abs.after_snoc (a : Abs ι κ) (trace : Transition.Trace (St ι κ) (Act ι κ)) (t : St ι κ) (act : Act ι κ) :
    a.after (trace ++ [(t, act)]) = (a.after trace).step act := by
  rw [Abs.after, List.foldl_append]
  rfl

/-- The links along every run are those of the rounds that the calls mean. -/
theorem means_of_run {trace : Transition.Trace (St ι κ) (Act ι κ)} (hMeans : Means portMAX_DELAY s a)
    (run : (system portMAX_DELAY).Run s trace s') : Means portMAX_DELAY s' (a.after trace) := by
  induction run with
  | nil => exact hMeans
  | snoc prior last ih =>
      rw [Abs.after_snoc]
      exact ih.next last

end FreeRtos.Lists
