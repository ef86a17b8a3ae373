import FreeRtosCpp11.Lists.Refine

/-! What the kernel relies on: each call does to a list what it is for, sorted
lists stay sorted, in the order of insertion among equals, and no item waits for
more turns than there are items in front of it. -/
namespace FreeRtos.Lists

open Links

variable {ι κ : Type} [DecidableEq ι] [DecidableEq κ] {portMAX_DELAY : Nat} {s s' s₀ t u : St ι κ} {m : Mem ι κ}
  {a : Abs ι κ} {act : Act ι κ} {c : Round ι} {l k : κ} {i j : ι} {w : List ι}
  {trace past : Transition.Trace (St ι κ) (Act ι κ)}

/-- In every run the links of each list are those of the round that the calls
so far mean. -/
theorem refines_rounds (hStart : (system portMAX_DELAY).start s₀) (run : (system portMAX_DELAY).Run s₀ trace s) :
    Means portMAX_DELAY s ((Abs.ofMem s₀.mem).after trace) :=
  means_of_run (Means.start hStart) run

/-- A memory in which nothing is set up. -/
def blank : St Nat Nat where
  mem :=
    { xItemValue := fun _ => 0
      pxNext := fun _ => .xListEnd 0
      pxPrevious := fun _ => .xListEnd 0
      pvOwner := fun _ => 0
      pxContainer := fun _ => none
      uxNumberOfItems := fun _ => 0
      pxIndex := fun _ => .xListEnd 0 }
  lists := []
  items := []

/-- Three items in a sorted list, two of them of one value. -/
def sortedCalls : List (Act Nat Nat) :=
  [.initialise 0, .initialiseItem 1, .initialiseItem 2, .initialiseItem 3, .setValue 1 5, .setValue 2 3,
    .setValue 3 5, .insert 0 1, .insert 0 2, .insert 0 3]

theorem refines_rounds_sorted :
    ∃ s, (system 9).exec blank sortedCalls = some s ∧
      Means 9 s ((Abs.ofMem blank.mem).after ((system 9).replay blank sortedCalls)) :=
  ⟨_, rfl, refines_rounds ⟨rfl, rfl, fun _ => Nat.zero_le 9⟩ (Transition.System.run_of_exec sortedCalls rfl)⟩

theorem means_of_reaches (hReaches : (system portMAX_DELAY).Reaches trace s) : ∃ a, Means portMAX_DELAY s a := by
  obtain ⟨s₀, hStart, run⟩ := hReaches
  exact ⟨_, means_of_run (Means.start hStart) run⟩

omit [DecidableEq ι] [DecidableEq κ] in
theorem Represents.headEntry (h : Represents portMAX_DELAY m l c) (hFirst : c.order = i :: w) :
    m.pxNext (.xListEnd l) = .item i := by
  have hForward := h.ring.forward
  rw [hFirst] at hForward
  exact hForward.1

omit [DecidableEq ι] [DecidableEq κ] in
theorem Represents.isEmpty (h : Represents portMAX_DELAY m l c) : listLIST_IS_EMPTY m l = true ↔ c.order = [] := by
  rw [listLIST_IS_EMPTY, h.count, decide_eq_true_eq, List.length_eq_zero_iff]

/-- What the calls answer for a list of the kernel. -/
structure Answers (portMAX_DELAY : Nat) (s : St ι κ) (a : Abs ι κ) (l : κ) : Prop where
  isEmpty : listLIST_IS_EMPTY s.mem l = true ↔ (a.round l).order = []
  head : ∀ i w, (a.round l).order = i :: w →
    listGET_OWNER_OF_HEAD_ENTRY s.mem l = a.owner i ∧ listGET_ITEM_VALUE_OF_HEAD_ENTRY s.mem l = a.value i
  next : ∀ i w, (a.round l).waiting = i :: w → (listGET_OWNER_OF_NEXT_ENTRY s.mem l).1 = a.owner i
  insert : ∀ i ∈ s.items, a.home i = none → (vListInsert portMAX_DELAY s.mem l i).isSome
  remove : ∀ i, a.home i = some l →
    (uxListRemove s.mem i).map Prod.fst = some ((a.round l).remove i).order.length

theorem Means.answers (hMeans : Means portMAX_DELAY s a) (hl : l ∈ s.lists) : Answers portMAX_DELAY s a l where
  isEmpty := (hMeans.lists l hl).isEmpty
  head i w hFirst := by
    have hNext := (hMeans.lists l hl).headEntry hFirst
    rw [listGET_OWNER_OF_HEAD_ENTRY, listGET_ITEM_VALUE_OF_HEAD_ENTRY, hNext]
    exact ⟨hMeans.owner i, (hMeans.value i).1⟩
  next i w hFirst := by
    rw [(hMeans.lists l hl).nextEntry hFirst]
    exact hMeans.owner i
  insert i hi hHome := by
    obtain ⟨mem, hSome, _⟩ := hMeans.insert hl hi ((hMeans.container i hi).trans hHome)
    rw [hSome]
    rfl
  remove i hHome := by
    rw [(hMeans.remove (hMeans.known l i hHome).2 hHome).1]
    rfl

/-- The calls return in every reachable state, with the answers that they have
for the rounds: the loop of an insertion ends, a removal counts the items left,
the next entry is the one whose turn it is. -/
theorem answers_of_run (hStart : (system portMAX_DELAY).start s₀) (run : (system portMAX_DELAY).Run s₀ trace s) :
    ∀ l ∈ s.lists, Answers portMAX_DELAY s ((Abs.ofMem s₀.mem).after trace) l :=
  fun _ hl => (refines_rounds hStart run).answers hl

theorem answers_of_run_sorted :
    ∃ s, (system 9).exec blank sortedCalls = some s ∧
      ∀ l ∈ s.lists, Answers 9 s ((Abs.ofMem blank.mem).after ((system 9).replay blank sortedCalls)) l :=
  ⟨_, rfl, answers_of_run ⟨rfl, rfl, fun _ => Nat.zero_le 9⟩ (Transition.System.run_of_exec sortedCalls rfl)⟩

/-- The number of the step that inserted an item last. -/
def insertedAt (trace : Transition.Trace (St ι κ) (Act ι κ)) (i : ι) : Nat :=
  trace.length - trace.reverse.findIdx fun step => match step.2 with
    | .insert _ j => i = j
    | _ => false

omit [DecidableEq κ] in
theorem insertedAt_le (trace : Transition.Trace (St ι κ) (Act ι κ)) (i : ι) : insertedAt trace i ≤ trace.length :=
  Nat.sub_le _ _

omit [DecidableEq κ] in
theorem insertedAt_snoc (trace : Transition.Trace (St ι κ) (Act ι κ)) (t : St ι κ) (act : Act ι κ) (i : ι) :
    insertedAt (trace ++ [(t, act)]) i =
      match act with
      | .insert _ j => if i = j then trace.length + 1 else insertedAt trace i
      | _ => insertedAt trace i := by
  unfold insertedAt
  rw [List.reverse_append, List.reverse_singleton, List.singleton_append, List.findIdx_cons, List.length_append]
  cases act with
  | insert l j =>
      by_cases hSame : i = j
      · simp [hSame]
      · simp [hSame]
  | _ => simp

/-- A smaller value comes first, and of two equal ones the one inserted first. -/
def Before (a : Abs ι κ) (trace : Transition.Trace (St ι κ) (Act ι κ)) (i j : ι) : Prop :=
  a.value i < a.value j ∨ a.value i = a.value j ∧ insertedAt trace i < insertedAt trace j

/-- The list is used as a sorted one: nothing is put at its cursor, and the
value of an item does not change while the item is in it. -/
def usedSorted (l : κ) (t : St ι κ) : Act ι κ → Bool
  | .insertEnd k _ => k ≠ l
  | .setValue i _ => i ∉ t.items ∨ t.mem.pxContainer (.item i) ≠ some l
  | _ => true

/-- A call that puts nothing in the list keeps its order, or takes an item out of it. -/
theorem Abs.order_step_sublist (hKeeps : ∀ i, act ≠ .insertEnd l i ∧ act ≠ .insert l i) :
    ((a.step act).round l).order.Sublist (a.round l).order := by
  cases act with
  | initialise | initialiseItem | setOwner | setValue => exact List.Sublist.refl _
  | insertEnd k i =>
      have hNe : l ≠ k := by
        rintro rfl
        exact (hKeeps i).1 rfl
      simp only [Abs.step, Function.update_of_ne hNe]
      exact List.Sublist.refl _
  | insert k i =>
      have hNe : l ≠ k := by
        rintro rfl
        exact (hKeeps i).2 rfl
      simp only [Abs.step, Function.update_of_ne hNe]
      exact List.Sublist.refl _
  | remove i =>
      cases hHome : a.home i with
      | none =>
          simp only [Abs.step, hHome]
          exact List.Sublist.refl _
      | some k =>
          simp only [Abs.step, hHome]
          by_cases hSame : l = k
          · subst hSame
            rw [Function.update_self, Round.order_remove]
            exact List.filter_sublist
          · rw [Function.update_of_ne hSame]
  | nextEntry k =>
      simp only [Abs.step]
      by_cases hSame : l = k
      · subst hSame
        rw [Function.update_self, Round.order_advance]
      · rw [Function.update_of_ne hSame]

/-- What a step leaves of the order of two items of the list. -/
theorem Before.step (hMeans : Means portMAX_DELAY t a) (hGuard : usedSorted l t act = true)
    (hNew : ∀ k i, act = .insert k i → a.home i = none) (hi : i ∈ (a.round l).order) (hj : j ∈ (a.round l).order)
    (h : Before a trace i j) : Before (a.step act) (trace ++ [(t, act)]) i j := by
  rw [hMeans.member] at hi hj
  unfold Before
  rw [insertedAt_snoc, insertedAt_snoc]
  cases act with
  | initialise | initialiseItem | setOwner | insertEnd | nextEntry => exact h
  | remove x =>
      cases hHome : a.home x with
      | none =>
          simp only [Abs.step, hHome]
          exact h
      | some k =>
          simp only [Abs.step, hHome]
          exact h
  | setValue x v =>
      have hOut : a.home x ≠ some l := by
        intro hHome
        have hContainer := hMeans.container x (hMeans.known l x hHome).2
        simp [usedSorted, (hMeans.known l x hHome).2, hContainer, hHome] at hGuard
      have hApart : i ≠ x ∧ j ≠ x := ⟨fun hSame => hOut (hSame ▸ hi), fun hSame => hOut (hSame ▸ hj)⟩
      simp only [Abs.step, Function.update_of_ne hApart.1, Function.update_of_ne hApart.2]
      exact h
  | insert k x =>
      have hHome := hNew k x rfl
      have hApart : i ≠ x ∧ j ≠ x := by
        constructor <;> rintro rfl <;> simp_all
      dsimp only
      rw [if_neg hApart.1, if_neg hApart.2]
      exact h

/-- A sorted list stays sorted. -/
theorem sorted_step (hMeans : Means portMAX_DELAY t a) (hSorted : (a.round l).order.Pairwise (Before a trace))
    (hGuard : usedSorted l t act = true) (hNext : next portMAX_DELAY t act = some u) :
    ((a.step act).round l).order.Pairwise (Before (a.step act) (trace ++ [(t, act)])) := by
  have hFree : ∀ k i, act = .insert k i → i ∈ t.items ∧ t.mem.pxContainer (.item i) = none := by
    rintro k i rfl
    exact (Option.ite_none_right_eq_some.mp hNext).1.2
  have hNew : ∀ k i, act = .insert k i → a.home i = none := fun k i hAct =>
    (hMeans.container i (hFree k i hAct).1).symm.trans (hFree k i hAct).2
  have hOld : (a.round l).order.Pairwise (Before (a.step act) (trace ++ [(t, act)])) :=
    hSorted.imp_of_mem fun hi hj h => h.step hMeans hGuard hNew hi hj
  by_cases hHere : ∃ i, act = .insert l i
  · obtain ⟨i, rfl⟩ := hHere
    have hStamp : ∀ j ∈ (a.round l).order,
        insertedAt (trace ++ [(t, .insert l i)]) j < insertedAt (trace ++ [(t, .insert l i)]) i := by
      intro j hj
      have hApart : j ≠ i := by
        rintro rfl
        rw [hMeans.member, hNew l j rfl] at hj
        cases hj
      rw [insertedAt_snoc, insertedAt_snoc]
      dsimp only
      rw [if_neg hApart, if_pos rfl]
      exact Nat.lt_succ_of_le (insertedAt_le trace j)
    simp only [Abs.step, Function.update_self, Round.order_insertBy] at hOld ⊢
    refine Round.place_pairwise hOld (fun j hj hLow => ?_) (fun j hj hHigh => ?_) fun h₁ h₂ => ?_
    · rcases Nat.lt_or_eq_of_le (of_decide_eq_true hLow) with hLess | hSame
      · exact Or.inl hLess
      · exact Or.inr ⟨hSame, hStamp j hj⟩
    · exact Or.inl (Nat.lt_of_not_le (of_decide_eq_false hHigh))
    · unfold Before at h₁ h₂ ⊢
      omega
  · refine hOld.sublist (Abs.order_step_sublist fun i => ⟨?_, fun hAct => hHere ⟨i, hAct⟩⟩)
    rintro rfl
    simp [usedSorted] at hGuard

/-- A list that is used as a sorted one holds its items by their values at every
moment, and items of one value in the order in which they came. -/
theorem sorted_of_run (hStart : (system portMAX_DELAY).start s₀) (run : (system portMAX_DELAY).Run s₀ trace s)
    (hUse : Transition.Guarded (usedSorted l) trace) :
    (((Abs.ofMem s₀.mem).after trace).round l).order.Pairwise (Before ((Abs.ofMem s₀.mem).after trace) trace) := by
  have hAll := run.history (C := usedSorted l)
    (P := fun trace t => Means portMAX_DELAY t ((Abs.ofMem s₀.mem).after trace) ∧
      (((Abs.ofMem s₀.mem).after trace).round l).order.Pairwise (Before ((Abs.ofMem s₀.mem).after trace) trace))
    hUse ⟨Means.start hStart, List.Pairwise.nil⟩ ?_
  · exact hAll.2
  · rintro past t act u ⟨hMeans, hSorted⟩ hGuard hNext
    rw [Abs.after_snoc]
    exact ⟨hMeans.next hNext, sorted_step hMeans hSorted hGuard hNext⟩

theorem sorted_of_run_sorted :
    (((Abs.ofMem blank.mem).after ((system 9).replay blank sortedCalls)).round 0).order = [2, 1, 3] ∧
      (((Abs.ofMem blank.mem).after ((system 9).replay blank sortedCalls)).round 0).order.Pairwise
        (Before ((Abs.ofMem blank.mem).after ((system 9).replay blank sortedCalls))
          ((system 9).replay blank sortedCalls)) :=
  ⟨by decide, sorted_of_run (s := ((system 9).exec blank sortedCalls).getD blank)
    ⟨rfl, rfl, fun _ => Nat.zero_le 9⟩ (Transition.System.run_of_exec sortedCalls rfl) (by decide)⟩

/-- The turns that a list gave. -/
def turns (l : κ) (trace : Transition.Trace (St ι κ) (Act ι κ)) : Nat :=
  trace.countP fun step => step.2 = .nextEntry l

/-- The items put at the cursor while it is on the item. -/
def delays (l : κ) (i : ι) (trace : Transition.Trace (St ι κ) (Act ι κ)) : Nat :=
  trace.countP fun step => match step.2 with
    | .insertEnd k _ => k = l ∧ step.1.mem.pxIndex l = .item i
    | _ => false

/-- The item stays in the list and has no turn, and nothing is sorted in. -/
def waits (l : κ) (i : ι) (t : St ι κ) : Act ι κ → Bool
  | .remove j => j ≠ i
  | .insert k _ => k ≠ l
  | .nextEntry k => k ≠ l ∨ (listGET_OWNER_OF_NEXT_ENTRY t.mem l).2.pxIndex l ≠ .item i
  | _ => true

theorem turns_snoc (l : κ) (trace : Transition.Trace (St ι κ) (Act ι κ)) (t : St ι κ) (act : Act ι κ) :
    turns l (trace ++ [(t, act)]) = turns l trace + if act = .nextEntry l then 1 else 0 := by
  simp [turns, List.countP_append, List.countP_singleton]

theorem delays_snoc (l : κ) (i : ι) (trace : Transition.Trace (St ι κ) (Act ι κ)) (t : St ι κ) (act : Act ι κ) :
    delays l i (trace ++ [(t, act)]) = delays l i trace +
      match act with
      | .insertEnd k _ => if k = l ∧ t.mem.pxIndex l = .item i then 1 else 0
      | _ => 0 := by
  cases act <;> simp [delays, List.countP_append, List.countP_singleton]

omit [DecidableEq ι] [DecidableEq κ] in
theorem Represents.cursor_iff (h : Represents portMAX_DELAY m l c) : m.pxIndex l = .item i ↔ c.cursor = some i := by
  rw [h.index]
  cases c.cursor <;> simp

/-- The item stays where it is. -/
theorem home_step (hHome : a.home i = some l) (hGuard : waits l i t act = true)
    (hNew : ∀ k j, act = .insertEnd k j ∨ act = .insert k j → a.home j = none) : (a.step act).home i = some l := by
  cases act with
  | initialise | initialiseItem | setOwner | setValue | nextEntry => exact hHome
  | insertEnd k j =>
      have hApart : i ≠ j := by
        rintro rfl
        simp [hNew k i (Or.inl rfl)] at hHome
      simp only [Abs.step, Function.update_of_ne hApart, hHome]
  | insert k j =>
      have hApart : i ≠ j := by
        rintro rfl
        simp [hNew k i (Or.inr rfl)] at hHome
      simp only [Abs.step, Function.update_of_ne hApart, hHome]
  | remove j =>
      have hApart : i ≠ j := by
        rintro rfl
        simp [waits] at hGuard
      cases hOther : a.home j with
      | none => simpa only [Abs.step, hOther] using hHome
      | some k => simp only [Abs.step, hOther, Function.update_of_ne hApart, hHome]

/-- A turn of another item brings the turn of this one nearer, and only an item
put at a cursor on this one takes it away again. -/
theorem rank_step (hMeans : Means portMAX_DELAY t a) (hHome : a.home i = some l) (hGuard : waits l i t act = true)
    (hNext : next portMAX_DELAY t act = some u) :
    turns l (trace ++ [(t, act)]) + ((a.step act).round l).rank i + delays l i trace ≤
      turns l trace + (a.round l).rank i + delays l i (trace ++ [(t, act)]) := by
  obtain ⟨hl, hi⟩ := hMeans.known l i hHome
  have hMem : i ∈ (a.round l).order := (hMeans.member l i).mpr hHome
  have hRep := hMeans.lists l hl
  rw [turns_snoc, delays_snoc]
  cases act with
  | initialise | initialiseItem | setOwner | setValue => simp [Abs.step]
  | insertEnd k j =>
      simp only [Abs.step, reduceCtorEq, if_false]
      by_cases hSame : k = l
      · subst hSame
        rw [Function.update_self]
        by_cases hCursor : t.mem.pxIndex k = .item i
        · rw [if_pos ⟨rfl, hCursor⟩]
          have hRank : ((a.round k).insertEnd j).rank i ≤ (a.round k).rank i + 1 := Round.rank_insertEnd_le
          omega
        · rw [if_neg (fun h => hCursor h.2), Round.rank_insertEnd hMem (mt hRep.cursor_iff.mpr hCursor)]
          omega
      · rw [Function.update_of_ne (Ne.symm hSame)]
        omega
  | insert k j =>
      have hSame : k ≠ l := by simpa [waits] using hGuard
      simp only [Abs.step, reduceCtorEq, if_false, Function.update_of_ne (Ne.symm hSame)]
      omega
  | remove j =>
      have hApart : j ≠ i := by simpa [waits] using hGuard
      cases hOther : a.home j with
      | none => simp [Abs.step, hOther]
      | some k =>
          simp only [Abs.step, hOther, reduceCtorEq, if_false]
          by_cases hSame : l = k
          · subst hSame
            have hRank : ((a.round l).remove j).rank i ≤ (a.round l).rank i := Round.rank_remove_le hApart
            rw [Function.update_self]
            omega
          · rw [Function.update_of_ne hSame]
            omega
  | nextEntry k =>
      simp only [Abs.step, Act.nextEntry.injEq]
      by_cases hSame : k = l
      · subst hSame
        have hServed : (a.round k).advance.cursor ≠ some i := by
          cases hFirst : (a.round k).waiting with
          | nil =>
              rw [Round.mem_order, hFirst] at hMem
              cases hMem
          | cons j w =>
              rw [Round.cursor_advance hFirst]
              rintro hTurn
              obtain rfl := Option.some.inj hTurn
              simp [waits, hRep.nextEntry hFirst, Mem.setIndex] at hGuard
        have hRank := Round.rank_advance hMem hServed
        rw [Function.update_self, if_pos rfl]
        omega
      · rw [Function.update_of_ne (Ne.symm hSame), if_neg hSame]
        omega

/-- While an item of a list waits, the list gives fewer turns than it had items
when the wait began, but for one more for each item put at the cursor while the
cursor is on the item that waits. -/
theorem turns_while_waiting (hReaches : (system portMAX_DELAY).Reaches past s) (hl : l ∈ s.lists) (hi : i ∈ s.items)
    (hHome : s.mem.pxContainer (.item i) = some l) (run : (system portMAX_DELAY).Run s trace s')
    (hWaits : Transition.Guarded (waits l i) trace) :
    turns l trace < s.mem.uxNumberOfItems l + delays l i trace := by
  obtain ⟨a, hMeans⟩ := means_of_reaches hReaches
  have hFirst : a.home i = some l := (hMeans.container i hi).symm.trans hHome
  have hRank := Round.rank_lt ((hMeans.member l i).mpr hFirst)
  rw [← (hMeans.lists l hl).count] at hRank
  have hAll := run.history (C := waits l i)
    (P := fun trace t => ∃ b, Means portMAX_DELAY t b ∧ b.home i = some l ∧
      turns l trace + (b.round l).rank i ≤ (a.round l).rank i + delays l i trace)
    hWaits ⟨a, hMeans, hFirst, by simp [turns, delays]⟩ ?_
  · obtain ⟨b, _, _, hBound⟩ := hAll
    omega
  · rintro trace t act u ⟨b, hNow, hHere, hBound⟩ hGuard hNext
    have hRankStep : turns l (trace ++ [(t, act)]) + ((b.step act).round l).rank i + delays l i trace ≤
        turns l trace + (b.round l).rank i + delays l i (trace ++ [(t, act)]) := rank_step hNow hHere hGuard hNext
    refine ⟨b.step act, hNow.next hNext, home_step hHere hGuard ?_, by omega⟩
    rintro k j (rfl | rfl)
    · obtain ⟨⟨_, hj, hFree⟩, _⟩ := Option.ite_none_right_eq_some.mp hNext
      exact (hNow.container j hj).symm.trans hFree
    · obtain ⟨⟨_, hj, hFree⟩, _⟩ := Option.ite_none_right_eq_some.mp hNext
      exact (hNow.container j hj).symm.trans hFree

/-- Three items at the cursor of a list. -/
def readyCalls : List (Act Nat Nat) :=
  [.initialise 0, .initialiseItem 1, .initialiseItem 2, .initialiseItem 3, .insertEnd 0 1, .insertEnd 0 2,
    .insertEnd 0 3]

theorem turns_while_waiting_third :
    ∃ s, (system 9).exec blank readyCalls = some s ∧
      turns 0 ((system 9).replay s [.nextEntry 0, .nextEntry 0]) <
        3 + delays 0 3 ((system 9).replay s [.nextEntry 0, .nextEntry 0]) := by
  have hReaches : (system 9).Reaches ((system 9).replay blank readyCalls)
      (((system 9).exec blank readyCalls).getD blank) :=
    ⟨blank, ⟨rfl, rfl, fun _ => Nat.zero_le 9⟩, Transition.System.run_of_exec readyCalls rfl⟩
  exact ⟨_, rfl, turns_while_waiting hReaches (by decide) (by decide) (by decide)
    (Transition.System.run_of_exec [Act.nextEntry 0, Act.nextEntry 0] rfl) (by decide)⟩

end FreeRtos.Lists
