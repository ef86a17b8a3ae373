import FreeRtosCpp11.Tasks.Runs
import FreeRtosCpp11.Lists.Service

/-! The lists of the scheduler in memory. What the kernel does with its lists can be
done by the calls of `list.c`, and the links that they leave are those of the lists
that the kernel has. -/
namespace FreeRtos.Tasks

open Links

variable {cfg : Config} {k k' k₀ : Kernel} {l : TaskList} {i : Item} {t p n e : Nat}
  {s s' s₀ : Lists.St Item TaskList} {a : Lists.Abs Item TaskList} {act : Lists.Act Item TaskList}

/-- A list or an item is set up once, and an item is owned by its task. -/
def setsUpOnce (s : Lists.St Item TaskList) : Lists.Act Item TaskList → Bool
  | .initialise l => l ∉ s.lists
  | .initialiseItem i => i ∉ s.items
  | .setOwner i pvOwner => pvOwner = i.pvOwner
  | _ => true

/-- The lists that `prvInitialiseTaskLists` sets up. -/
def taskLists (cfg : Config) : List TaskList :=
  (List.range cfg.configMAX_PRIORITIES).map .pxReadyTasksLists ++
    [.xDelayedTaskList1, .xDelayedTaskList2, .xPendingReadyList, .xTasksWaitingTermination, .xSuspendedTaskList]

/-- The links in memory are those of the lists, and the items in them are owned by
their tasks. -/
structure Holds (cfg : Config) (s : Lists.St Item TaskList) (a : Lists.Abs Item TaskList) : Prop where
  means : Lists.Means cfg.portMAX_DELAY s { a with owner := fun i => s.mem.pvOwner (.item i) }
  owner : ∀ i, a.home i ≠ none → s.mem.pvOwner (.item i) = i.pvOwner
  known : ∀ l ∈ taskLists cfg, l ∈ s.lists

/-- Calls of `list.c` lead from one memory to the other. -/
def Ran (cfg : Config) (s₀ s : Lists.St Item TaskList) : Prop :=
  ∃ trace, (Lists.system cfg.portMAX_DELAY).Run s₀ trace s ∧ Transition.Guarded setsUpOnce trace

/-- They lead to a memory that has the lists. -/
def Realised (cfg : Config) (s₀ : Lists.St Item TaskList) (a : Lists.Abs Item TaskList) : Prop :=
  ∃ s, Ran cfg s₀ s ∧ Holds cfg s a

theorem Ran.snoc (h : Ran cfg s₀ s) (hNext : Lists.next cfg.portMAX_DELAY s act = some s')
    (hOnce : setsUpOnce s act = true) : Ran cfg s₀ s' := by
  obtain ⟨trace, hRun, hGuard⟩ := h
  exact ⟨_, hRun.snoc hNext, hGuard.snoc hOnce⟩

theorem Ran.refl (cfg : Config) (s : Lists.St Item TaskList) : Ran cfg s s :=
  ⟨[], .nil s, fun _ hMem => absurd hMem List.not_mem_nil⟩

theorem Holds.realised (h : Holds cfg s a) : Realised cfg s a := ⟨s, Ran.refl cfg s, h⟩

/-- A list that is set up stays so. -/
theorem lists_of_next (hNext : Lists.next n s act = some s') (hKnown : l ∈ s.lists) : l ∈ s'.lists := by
  cases act with
  | initialise j =>
      obtain ⟨_, hSome⟩ := Option.ite_none_right_eq_some.mp hNext
      obtain rfl := Option.some.inj hSome
      exact List.mem_cons_of_mem j hKnown
  | setOwner i v =>
      obtain rfl := Option.some.inj hNext
      exact hKnown
  | insert j i =>
      obtain ⟨_, hSome⟩ := Option.ite_none_right_eq_some.mp hNext
      obtain ⟨_, _, rfl⟩ := Option.map_eq_some_iff.mp hSome
      exact hKnown
  | remove i =>
      obtain ⟨_, hSome⟩ := Option.ite_none_right_eq_some.mp hNext
      obtain ⟨_, _, rfl⟩ := Option.map_eq_some_iff.mp hSome
      exact hKnown
  | initialiseItem | setValue | insertEnd | nextEntry =>
      obtain ⟨_, hSome⟩ := Option.ite_none_right_eq_some.mp hNext
      obtain rfl := Option.some.inj hSome
      exact hKnown

/-- The owners do not matter for what a call does otherwise. -/
theorem step_owner (a : Lists.Abs Item TaskList) (owner : Item → Nat) (act : Lists.Act Item TaskList) :
    ({ a with owner := owner } : Lists.Abs Item TaskList).step act =
      { a.step act with owner := (({ a with owner := owner } : Lists.Abs Item TaskList).step act).owner } := by
  cases act with
  | remove i => cases hHome : a.home i <;> simp [Lists.Abs.step, hHome]
  | _ => rfl

/-- A call in memory does what it means for the lists. -/
theorem Holds.step (h : Holds cfg s a) (hNext : Lists.next cfg.portMAX_DELAY s act = some s')
    (hOnce : setsUpOnce s act = true)
    (hNew : ∀ l i, act = .insertEnd l i ∨ act = .insert l i → s.mem.pvOwner (.item i) = i.pvOwner) :
    Holds cfg s' (a.step act) := by
  have hMeans := h.means.next hNext
  have hOwner := funext hMeans.owner
  rw [step_owner, ← hOwner] at hMeans
  refine ⟨hMeans, fun i hHome => ?_, fun l hl => lists_of_next hNext (h.known l hl)⟩
  rw [congrFun hOwner i]
  cases act with
  | initialise | initialiseItem | setValue | nextEntry => exact h.owner i hHome
  | setOwner j v =>
      by_cases hSame : i = j
      · subst hSame
        exact (Function.update_self ..).trans (of_decide_eq_true hOnce)
      · exact (Function.update_of_ne hSame _ _).trans (h.owner i hHome)
  | insertEnd l j =>
      by_cases hSame : i = j
      · subst hSame
        exact hNew l i (Or.inl rfl)
      · exact h.owner i (by rwa [Lists.Abs.home_insertEnd, Function.update_of_ne hSame] at hHome)
  | insert l j =>
      by_cases hSame : i = j
      · subst hSame
        exact hNew l i (Or.inr rfl)
      · exact h.owner i (by rwa [Lists.Abs.home_insert, Function.update_of_ne hSame] at hHome)
  | remove j =>
      have hBefore : a.home i ≠ none := by
        rw [Lists.Abs.home_remove] at hHome
        by_cases hSame : i = j
        · subst hSame
          exact absurd (Function.update_self ..) hHome
        · rwa [Function.update_of_ne hSame] at hHome
      refine Eq.trans ?_ (h.owner i hBefore)
      cases hOther : a.home j <;> simp [Lists.Abs.step, hOther]

/-- Before its first use a list is set up. -/
theorem Holds.setUpList (h : Holds cfg s a) (hRan : Ran cfg s₀ s) (l : TaskList) :
    ∃ s', Ran cfg s₀ s' ∧ Holds cfg s' a ∧ l ∈ s'.lists ∧ (∀ i ∈ s.items, i ∈ s'.items) ∧
      s'.mem.pvOwner = s.mem.pvOwner := by
  by_cases hl : l ∈ s.lists
  · exact ⟨s, hRan, h, hl, fun i hi => hi, rfl⟩
  · have hNext : Lists.next cfg.portMAX_DELAY s (.initialise l) = some _ := if_pos (Or.inl hl)
    exact ⟨_, hRan.snoc hNext (decide_eq_true hl), h.step hNext (decide_eq_true hl) (by simp), List.mem_cons_self,
      fun i hi => hi, rfl⟩

/-- So is an item, and then its owner is set. -/
theorem Holds.setUpItem (h : Holds cfg s a) (hRan : Ran cfg s₀ s) (i : Item) :
    ∃ s', Ran cfg s₀ s' ∧ Holds cfg s' a ∧ i ∈ s'.items ∧ s'.mem.pvOwner (.item i) = i.pvOwner := by
  have hKnown : ∃ s', Ran cfg s₀ s' ∧ Holds cfg s' a ∧ i ∈ s'.items := by
    by_cases hi : i ∈ s.items
    · exact ⟨s, hRan, h, hi⟩
    · have hNext : Lists.next cfg.portMAX_DELAY s (.initialiseItem i) = some _ := if_pos (Or.inl hi)
      exact ⟨_, hRan.snoc hNext (decide_eq_true hi), h.step hNext (decide_eq_true hi) (by simp), List.mem_cons_self⟩
  obtain ⟨s₁, hRan₁, h₁, hi⟩ := hKnown
  by_cases hOwner : s₁.mem.pvOwner (.item i) = i.pvOwner
  · exact ⟨s₁, hRan₁, h₁, hi, hOwner⟩
  · have hNext : Lists.next cfg.portMAX_DELAY s₁ (.setOwner i i.pvOwner) = some _ := rfl
    have hHolds := h₁.step hNext (decide_eq_true rfl) (by simp)
    refine ⟨_, hRan₁.snoc hNext (decide_eq_true rfl), ⟨hHolds.means, hHolds.owner, hHolds.known⟩, hi, ?_⟩
    exact Function.update_self ..

/-- Both are ready for an item that enters a list. -/
theorem Realised.setUp (h : Realised cfg s₀ a) (hFree : a.home i = none) (l : TaskList) :
    ∃ s, Ran cfg s₀ s ∧ Holds cfg s a ∧ (l ∈ s.lists ∧ i ∈ s.items ∧ s.mem.pxContainer (.item i) = none) ∧
      s.mem.pvOwner (.item i) = i.pvOwner := by
  obtain ⟨s, hRan, hHolds⟩ := h
  obtain ⟨s₁, hRan₁, hHolds₁, hi, hOwner⟩ := hHolds.setUpItem hRan i
  obtain ⟨s₂, hRan₂, hHolds₂, hl, hItems, hSame⟩ := hHolds₁.setUpList hRan₁ l
  exact ⟨s₂, hRan₂, hHolds₂, ⟨hl, hItems i hi, (hHolds₂.means.container i (hItems i hi)).trans hFree⟩,
    (congrFun hSame _).trans hOwner⟩

theorem Realised.insertEnd (h : Realised cfg s₀ a) (hFree : a.home i = none) :
    Realised cfg s₀ (a.step (.insertEnd l i)) := by
  obtain ⟨s, hRan, hHolds, hReady, hOwner⟩ := h.setUp hFree l
  have hNext : Lists.next cfg.portMAX_DELAY s (.insertEnd l i) = some _ := if_pos hReady
  refine ⟨_, hRan.snoc hNext rfl, hHolds.step hNext rfl ?_⟩
  rintro k j (hSame | hSame) <;> cases hSame
  exact hOwner

theorem Realised.insert (h : Realised cfg s₀ a) (hFree : a.home i = none) :
    Realised cfg s₀ (a.step (.insert l i)) := by
  obtain ⟨s, hRan, hHolds, hReady, hOwner⟩ := h.setUp hFree l
  obtain ⟨mem, hCall, _⟩ := hHolds.means.insert hReady.1 hReady.2.1 hReady.2.2
  have hNext : Lists.next cfg.portMAX_DELAY s (.insert l i) = some { s with mem := mem } := by
    rw [Lists.next, if_pos hReady, hCall, Option.map_some]
  refine ⟨_, hRan.snoc hNext rfl, hHolds.step hNext rfl ?_⟩
  rintro k j (hSame | hSame) <;> cases hSame
  exact hOwner

theorem Realised.remove (h : Realised cfg s₀ a) (hHome : a.home i ≠ none) : Realised cfg s₀ (a.step (.remove i)) := by
  obtain ⟨s, hRan, hHolds⟩ := h
  obtain ⟨l, hThere⟩ := Option.ne_none_iff_exists'.mp hHome
  have hKnown := (hHolds.means.known l i hThere).2
  have hNext : Lists.next cfg.portMAX_DELAY s (.remove i) = some { s with mem := Lists.unlinkItem s.mem l i } := by
    rw [Lists.next, if_pos hKnown, (hHolds.means.remove hKnown hThere).1, Option.map_some]
  exact ⟨_, hRan.snoc hNext rfl, hHolds.step hNext rfl (by simp)⟩

theorem Realised.setValue (h : Realised cfg s₀ a) (hMax : n ≤ cfg.portMAX_DELAY) :
    Realised cfg s₀ (a.step (.setValue i n)) := by
  obtain ⟨s, hRan, hHolds⟩ := h
  have hNext : Lists.next cfg.portMAX_DELAY s (.setValue i n) = some _ := if_pos hMax
  exact ⟨_, hRan.snoc hNext rfl, hHolds.step hNext rfl (by simp)⟩

theorem Realised.nextEntry (h : Realised cfg s₀ a) (hSome : (a.round l).waiting ≠ []) :
    Realised cfg s₀ (a.step (.nextEntry l)) := by
  obtain ⟨s, hRan, hHolds⟩ := h
  obtain ⟨i, w, hFirst⟩ := List.exists_cons_of_ne_nil hSome
  have hMem : i ∈ (a.round l).order := by
    rw [Round.mem_order, hFirst]
    exact List.mem_cons_self
  have hl := (hHolds.means.known l i ((hHolds.means.member l i).mp hMem)).1
  have hItems : Lists.listLIST_IS_EMPTY s.mem l = false := by
    rw [← Bool.not_eq_true, (hHolds.means.lists l hl).isEmpty]
    exact List.ne_nil_of_mem hMem
  have hNext : Lists.next cfg.portMAX_DELAY s (.nextEntry l) = some _ := if_pos ⟨hl, hItems⟩
  exact ⟨_, hRan.snoc hNext rfl, hHolds.step hNext rfl (by simp)⟩

/-! The calls of the kernel, each from the calls that it makes. -/

theorem realised_vListInsertEnd (h : Realised cfg s₀ k.lists) (hCall : k.vListInsertEnd l i = some k') :
    Realised cfg s₀ k'.lists := by
  obtain ⟨hFree, hSome⟩ := Option.ite_none_right_eq_some.mp hCall
  obtain rfl := Option.some.inj hSome
  exact h.insertEnd hFree

theorem realised_vListInsert (h : Realised cfg s₀ k.lists) (hCall : k.vListInsert l i = some k') :
    Realised cfg s₀ k'.lists := by
  obtain ⟨hFree, hSome⟩ := Option.ite_none_right_eq_some.mp hCall
  obtain rfl := Option.some.inj hSome
  exact h.insert hFree

theorem realised_uxListRemove (h : Realised cfg s₀ k.lists) (hCall : k.uxListRemove i = some (n, k')) :
    Realised cfg s₀ k'.lists := by
  obtain ⟨l, hHome, hSame⟩ := Option.map_eq_some_iff.mp hCall
  obtain rfl := (Prod.mk.inj hSame).2
  exact h.remove (by simp [hHome])

theorem realised_nextEntry (h : Realised cfg s₀ k.lists) (hCall : k.listGET_OWNER_OF_NEXT_ENTRY l = some k') :
    Realised cfg s₀ k'.lists := by
  obtain ⟨i, hHead, rfl⟩ := Option.map_eq_some_iff.mp hCall
  refine h.nextEntry fun hNil => ?_
  rw [hNil] at hHead
  cases hHead

@[simp] theorem lists_portRESET_READY_PRIORITY : (portRESET_READY_PRIORITY cfg k p).lists = k.lists := by
  rw [portRESET_READY_PRIORITY_eq]

@[simp] theorem lists_taskRECORD_READY_PRIORITY : (taskRECORD_READY_PRIORITY cfg k p).lists = k.lists := by
  rw [taskRECORD_READY_PRIORITY_eq]

@[simp] theorem lists_taskRESET_READY_PRIORITY : (taskRESET_READY_PRIORITY cfg k p).lists = k.lists := by
  rw [taskRESET_READY_PRIORITY_eq]
  split
  case isTrue => exact lists_portRESET_READY_PRIORITY
  case isFalse => rfl

theorem realised_prvAddTaskToReadyList (h : Realised cfg s₀ k.lists) (hCall : prvAddTaskToReadyList cfg k t = some k') :
    Realised cfg s₀ k'.lists :=
  realised_vListInsertEnd (by rwa [lists_taskRECORD_READY_PRIORITY]) hCall

theorem realised_removeEventItem (h : Realised cfg s₀ k.lists) : Realised cfg s₀ (removeEventItem k t).lists := by
  unfold removeEventItem
  split
  case isTrue hHome => exact h.remove hHome
  case isFalse => exact h

theorem realised_unblock (h : Realised cfg s₀ k.lists) (hCall : unblock cfg k t = some k') :
    Realised cfg s₀ k'.lists := by
  obtain ⟨⟨n, k₁⟩, hRemove, hAdd⟩ := Option.bind_eq_some_iff.mp hCall
  exact realised_prvAddTaskToReadyList (realised_uxListRemove h hRemove) hAdd

theorem Config.ticks_le (cfg : Config) (x y : Nat) : cfg.ticks x y ≤ cfg.portMAX_DELAY :=
  Nat.le_of_lt_succ (Nat.mod_lt _ (Nat.succ_pos _))

/-- The value of an event item for a priority is a `TickType_t`. -/
theorem Config.event_le (cfg : Config) (p : Nat) : cfg.configMAX_PRIORITIES - p ≤ cfg.portMAX_DELAY := by
  have hMax := cfg.priorities.2
  unfold Config.portMAX_DELAY
  split <;> omega

/-- So is a value that is marked as in use. -/
theorem Config.inUse_le (hValue : n ≤ cfg.portMAX_DELAY) :
    n ||| cfg.taskEVENT_LIST_ITEM_VALUE_IN_USE ≤ cfg.portMAX_DELAY := by
  unfold Config.portMAX_DELAY at hValue ⊢
  unfold Config.taskEVENT_LIST_ITEM_VALUE_IN_USE
  by_cases hShort : cfg.configUSE_16_BIT_TICKS = true
  · rw [if_pos hShort] at hValue
    rw [if_pos hShort, if_pos hShort]
    have hMark : 0x8000 < 2 ^ 16 := by decide
    exact Nat.le_of_lt_succ (Nat.or_lt_two_pow (Nat.lt_succ_of_le hValue) hMark)
  · rw [if_neg hShort] at hValue
    rw [if_neg hShort, if_neg hShort]
    have hMark : 0x80000000 < 2 ^ 32 := by decide
    exact Nat.le_of_lt_succ (Nat.or_lt_two_pow (Nat.lt_succ_of_le hValue) hMark)

theorem realised_reset {left : Nat} (h : Realised cfg s₀ k.lists) :
    Realised cfg s₀ (if left = 0 then portRESET_READY_PRIORITY cfg k p else k).lists := by
  split
  case isTrue => rwa [lists_portRESET_READY_PRIORITY]
  case isFalse => exact h

theorem realised_taskReset (m : Nat) (h : Realised cfg s₀ k.lists) :
    Realised cfg s₀ (if m = 0 then taskRESET_READY_PRIORITY cfg k p else k).lists := by
  split
  case isTrue => rwa [lists_taskRESET_READY_PRIORITY]
  case isFalse => exact h

theorem realised_prvAddCurrentTaskToDelayedList {can : Bool} (h : Realised cfg s₀ k.lists)
    (hCall : prvAddCurrentTaskToDelayedList cfg k n can = some k') : Realised cfg s₀ k'.lists := by
  unfold prvAddCurrentTaskToDelayedList at hCall
  obtain ⟨⟨left, k₁⟩, hRemove, hRest⟩ := Option.bind_eq_some_iff.mp hCall
  have hRemoved : Realised cfg s₀ k₁.lists := realised_uxListRemove (by exact h) hRemove
  have hLeft : Realised cfg s₀
      (if left = 0 then portRESET_READY_PRIORITY cfg k₁ (k₁.tcb k.pxCurrentTCB).uxPriority else k₁).lists :=
    realised_reset hRemoved
  dsimp only at hRest
  generalize (if left = 0 then _ else _ : Kernel) = k₂ at hRest hLeft
  split at hRest
  case isTrue => exact realised_vListInsertEnd hLeft hRest
  case isFalse =>
    have hTime := hLeft.setValue (i := .xStateListItem k.pxCurrentTCB) (cfg.ticks_le k₂.xTickCount n)
    split at hRest
    case isTrue => exact realised_vListInsert hTime hRest
    case isFalse =>
      obtain ⟨k₃, hInsert, rfl⟩ := Option.map_eq_some_iff.mp hRest
      have hLast := realised_vListInsert hTime hInsert
      split
      case isTrue => exact hLast
      case isFalse => exact hLast

/-- The loop over the delayed tasks, by induction on what is left of it. -/
theorem realised_unblockTasks {fuel : Nat} {sw sw' : Bool} (h : Realised cfg s₀ k.lists)
    (hCall : unblockTasks cfg fuel k sw = some (sw', k')) : Realised cfg s₀ k'.lists := by
  induction fuel generalizing k sw with
  | zero => cases hCall
  | succ fuel ih =>
      rw [unblockTasks] at hCall
      split at hCall
      case h_1 =>
        obtain rfl := (Prod.mk.inj (Option.some.inj hCall)).2
        exact h
      case h_2 =>
        dsimp only at hCall
        split at hCall
        case isTrue =>
          obtain rfl := (Prod.mk.inj (Option.some.inj hCall)).2
          exact h
        case isFalse =>
          obtain ⟨⟨left, k₁⟩, hRemove, hRest⟩ := Option.bind_eq_some_iff.mp hCall
          obtain ⟨k₂, hAdd, hLoop⟩ := Option.bind_eq_some_iff.mp hRest
          exact ih (realised_prvAddTaskToReadyList
            (realised_removeEventItem (realised_uxListRemove h hRemove)) hAdd) hLoop

theorem realised_xTaskIncrementTick {sw : Bool} (h : Realised cfg s₀ k.lists)
    (hCall : xTaskIncrementTick cfg k = some (sw, k')) : Realised cfg s₀ k'.lists := by
  unfold xTaskIncrementTick at hCall
  split at hCall
  case isTrue =>
    obtain ⟨k₁, hSwitch, hRest⟩ := Option.bind_eq_some_iff.mp hCall
    obtain ⟨⟨b, k₂⟩, hLoop, hSame⟩ := Option.map_eq_some_iff.mp hRest
    obtain rfl := (Prod.mk.inj hSame).2
    have hFirst : Realised cfg s₀ k₁.lists := by
      split at hSwitch
      case isTrue =>
        obtain ⟨_, hSome⟩ := Option.ite_none_right_eq_some.mp hSwitch
        obtain rfl := Option.some.inj hSome
        exact h
      case isFalse =>
        obtain rfl := Option.some.inj hSwitch
        exact h
    split at hLoop
    case isTrue => exact realised_unblockTasks hFirst hLoop
    case isFalse =>
      obtain rfl := (Prod.mk.inj (Option.some.inj hLoop)).2
      exact hFirst
  case isFalse =>
    obtain rfl := (Prod.mk.inj (Option.some.inj hCall)).2
    exact h

theorem realised_movePending {fuel : Nat} {moved moved' : Bool} (h : Realised cfg s₀ k.lists)
    (hCall : movePending cfg fuel k moved = some (moved', k')) : Realised cfg s₀ k'.lists := by
  induction fuel generalizing k moved with
  | zero => cases hCall
  | succ fuel ih =>
      rw [movePending] at hCall
      split at hCall
      case h_1 =>
        obtain rfl := (Prod.mk.inj (Option.some.inj hCall)).2
        exact h
      case h_2 =>
        obtain ⟨⟨left, k₁⟩, hRemove, hRest⟩ := Option.bind_eq_some_iff.mp hCall
        obtain ⟨k₂, hAdd, hLoop⟩ := Option.bind_eq_some_iff.mp hRest
        refine ih ?_ hLoop
        have hAdded := realised_unblock (realised_uxListRemove h hRemove) hAdd
        split
        case isTrue => exact hAdded
        case isFalse => exact hAdded

theorem realised_catchUp (h : Realised cfg s₀ k.lists) (hCall : catchUp cfg n k = some k') :
    Realised cfg s₀ k'.lists := by
  induction n generalizing k with
  | zero =>
      obtain rfl := Option.some.inj hCall
      exact h
  | succ n ih =>
      rw [catchUp] at hCall
      obtain ⟨⟨b, k₁⟩, hTick, hRest⟩ := Option.bind_eq_some_iff.mp hCall
      refine ih ?_ hRest
      have hTicked := realised_xTaskIncrementTick h hTick
      split
      case isTrue => exact hTicked
      case isFalse => exact hTicked

theorem realised_xTaskResumeAll {b : Bool} (h : Realised cfg s₀ k.lists) (hCall : xTaskResumeAll cfg k = some (b, k')) :
    Realised cfg s₀ k'.lists := by
  unfold xTaskResumeAll at hCall
  split at hCall
  case isTrue => cases hCall
  case isFalse =>
    dsimp only at hCall
    split at hCall
    case isTrue =>
      obtain ⟨⟨moved, k₁⟩, hMove, hRest⟩ := Option.bind_eq_some_iff.mp hCall
      obtain ⟨k₂, hCatch, hSame⟩ := Option.map_eq_some_iff.mp hRest
      have hMoved : Realised cfg s₀ k₁.lists := realised_movePending (by exact h) hMove
      have hCaught : Realised cfg s₀ k₂.lists := by
        refine realised_catchUp ?_ hCatch
        split
        case isTrue => exact hMoved
        case isFalse => exact hMoved
      split at hSame
      case isTrue =>
        obtain rfl := (Prod.mk.inj hSame).2
        exact hCaught
      case isFalse =>
        obtain rfl := (Prod.mk.inj hSame).2
        exact hCaught
    case isFalse =>
      obtain rfl := (Prod.mk.inj (Option.some.inj hCall)).2
      exact h

theorem realised_vTaskPlaceOnEventList (h : Realised cfg s₀ k.lists)
    (hCall : vTaskPlaceOnEventList cfg k e n = some k') : Realised cfg s₀ k'.lists := by
  obtain ⟨k₁, hInsert, hRest⟩ := Option.bind_eq_some_iff.mp hCall
  exact realised_prvAddCurrentTaskToDelayedList (realised_vListInsert h hInsert) hRest

theorem realised_vTaskPlaceOnUnorderedEventList {v : Nat} (h : Realised cfg s₀ k.lists) (hValue : v ≤ cfg.portMAX_DELAY)
    (hCall : vTaskPlaceOnUnorderedEventList cfg k e v n = some k') : Realised cfg s₀ k'.lists := by
  obtain ⟨k₁, hInsert, hRest⟩ := Option.bind_eq_some_iff.mp hCall
  have hMarked := h.setValue (i := .xEventListItem k.pxCurrentTCB) (Config.inUse_le hValue)
  exact realised_prvAddCurrentTaskToDelayedList (realised_vListInsertEnd hMarked hInsert) hRest

theorem realised_xTaskRemoveFromEventList {b : Bool} (h : Realised cfg s₀ k.lists)
    (hCall : xTaskRemoveFromEventList cfg k e = some (b, k')) : Realised cfg s₀ k'.lists := by
  obtain ⟨i, _, hCall⟩ := Option.bind_eq_some_iff.mp hCall
  obtain ⟨⟨left, k₁⟩, hRemove, hRest⟩ := Option.bind_eq_some_iff.mp hCall
  obtain ⟨k₂, hMove, hSame⟩ := Option.map_eq_some_iff.mp hRest
  have hRemoved := realised_uxListRemove h hRemove
  have hMoved : Realised cfg s₀ k₂.lists := by
    split at hMove
    case isTrue => exact realised_unblock hRemoved hMove
    case isFalse => exact realised_vListInsertEnd hRemoved hMove
  rw [raise_answer] at hSame
  obtain rfl := (Prod.mk.inj hSame).2
  exact hMoved

theorem realised_vTaskRemoveFromUnorderedEventList {v : Nat} (h : Realised cfg s₀ k.lists)
    (hValue : v ≤ cfg.portMAX_DELAY) (hCall : vTaskRemoveFromUnorderedEventList cfg k t v = some k') :
    Realised cfg s₀ k'.lists := by
  obtain ⟨⟨left, k₁⟩, hRemove, hRest⟩ := Option.bind_eq_some_iff.mp hCall
  obtain ⟨k₂, hMove, rfl⟩ := Option.map_eq_some_iff.mp hRest
  have hMarked := h.setValue (i := .xEventListItem t) (Config.inUse_le hValue)
  have hMoved := realised_unblock (realised_uxListRemove hMarked hRemove) hMove
  rw [raise_eq]
  exact hMoved

theorem realised_vTaskSuspend (h : Realised cfg s₀ k.lists) (hCall : vTaskSuspend cfg k t = some k') :
    Realised cfg s₀ k'.lists := by
  obtain ⟨⟨left, k₁⟩, hRemove, hRest⟩ := Option.bind_eq_some_iff.mp hCall
  obtain ⟨k₂, hInsert, rfl⟩ := Option.map_eq_some_iff.mp hRest
  have hLast := realised_vListInsertEnd
    (realised_removeEventItem (realised_taskReset left (realised_uxListRemove h hRemove))) hInsert
  rw [yield_eq]
  exact hLast

theorem realised_vTaskResume (h : Realised cfg s₀ k.lists) (hCall : vTaskResume cfg k t = some k') :
    Realised cfg s₀ k'.lists := by
  unfold vTaskResume at hCall
  split at hCall
  case isTrue =>
    obtain ⟨k₁, hMove, rfl⟩ := Option.map_eq_some_iff.mp hCall
    have hMoved := realised_unblock h hMove
    rw [yield_eq]
    exact hMoved
  case isFalse =>
    obtain rfl := Option.some.inj hCall
    exact h

theorem realised_xTaskResumeFromISR {b : Bool} (h : Realised cfg s₀ k.lists)
    (hCall : xTaskResumeFromISR cfg k t = some (b, k')) : Realised cfg s₀ k'.lists := by
  unfold xTaskResumeFromISR at hCall
  split at hCall
  case isTrue =>
    split at hCall
    case isTrue =>
      obtain ⟨k₁, hMove, hSame⟩ := Option.map_eq_some_iff.mp hCall
      obtain rfl := (Prod.mk.inj hSame).2
      rw [raise_eq] at hMove
      exact realised_unblock (by exact h) hMove
    case isFalse =>
      obtain ⟨k₁, hInsert, hSame⟩ := Option.map_eq_some_iff.mp hCall
      obtain rfl := (Prod.mk.inj hSame).2
      exact realised_vListInsertEnd h hInsert
  case isFalse =>
    obtain rfl := (Prod.mk.inj (Option.some.inj hCall)).2
    exact h

theorem realised_xTaskAbortDelay {b : Bool} (h : Realised cfg s₀ k.lists)
    (hCall : xTaskAbortDelay cfg k t = some (b, k')) : Realised cfg s₀ k'.lists := by
  unfold xTaskAbortDelay at hCall
  split at hCall
  case isTrue =>
    obtain ⟨⟨left, k₁⟩, hRemove, hRest⟩ := Option.bind_eq_some_iff.mp hCall
    obtain ⟨k₂, hAdd, hSame⟩ := Option.map_eq_some_iff.mp hRest
    have hRemoved := realised_uxListRemove h hRemove
    have hAdded : Realised cfg s₀ k₂.lists := by
      refine realised_prvAddTaskToReadyList ?_ hAdd
      split
      case isTrue hWaits => exact hRemoved.remove hWaits
      case isFalse => exact hRemoved
    split at hSame
    case isTrue =>
      obtain rfl := (Prod.mk.inj hSame).2
      exact hAdded
    case isFalse =>
      obtain rfl := (Prod.mk.inj hSame).2
      exact hAdded
  case isFalse =>
    obtain rfl := (Prod.mk.inj (Option.some.inj hCall)).2
    exact h

theorem realised_setEventValue (h : Realised cfg s₀ k.lists) : Realised cfg s₀ (setEventValue cfg k t p).lists := by
  unfold setEventValue
  split
  case isTrue => exact h.setValue (cfg.event_le p)
  case isFalse => exact h

theorem realised_moveReady {q : Nat} (h : Realised cfg s₀ k.lists) (hCall : moveReady cfg k t p q = some k') :
    Realised cfg s₀ k'.lists := by
  unfold moveReady at hCall
  split at hCall
  case isTrue =>
    obtain ⟨⟨left, k₁⟩, hRemove, hAdd⟩ := Option.bind_eq_some_iff.mp hCall
    exact realised_prvAddTaskToReadyList (realised_reset (realised_uxListRemove h hRemove)) hAdd
  case isFalse =>
    obtain rfl := Option.some.inj hCall
    exact h

theorem realised_vTaskPrioritySet (h : Realised cfg s₀ k.lists) (hCall : vTaskPrioritySet cfg k t p = some k') :
    Realised cfg s₀ k'.lists := by
  unfold vTaskPrioritySet at hCall
  dsimp only at hCall
  split at hCall
  case isTrue =>
    obtain rfl := Option.some.inj hCall
    exact h
  case isFalse =>
    obtain ⟨k₁, hMove, rfl⟩ := Option.map_eq_some_iff.mp hCall
    have hMoved : Realised cfg s₀ k₁.lists := realised_moveReady (realised_setEventValue (by exact h)) hMove
    rw [yield_eq]
    exact hMoved

theorem realised_xTaskPriorityInherit {b : Bool} (h : Realised cfg s₀ k.lists)
    (hCall : xTaskPriorityInherit cfg k t = some (b, k')) : Realised cfg s₀ k'.lists := by
  unfold xTaskPriorityInherit at hCall
  dsimp only at hCall
  split at hCall
  case isTrue =>
    obtain ⟨k₁, hMove, hSame⟩ := Option.map_eq_some_iff.mp hCall
    obtain rfl := (Prod.mk.inj hSame).2
    exact realised_moveReady (by exact realised_setEventValue h) hMove
  case isFalse =>
    obtain rfl := (Prod.mk.inj (Option.some.inj hCall)).2
    exact h

theorem realised_xTaskPriorityDisinherit {b : Bool} (h : Realised cfg s₀ k.lists)
    (hCall : xTaskPriorityDisinherit cfg k = some (b, k')) : Realised cfg s₀ k'.lists := by
  unfold xTaskPriorityDisinherit at hCall
  dsimp only at hCall
  split at hCall
  case isTrue => cases hCall
  case isFalse =>
    split at hCall
    case isTrue =>
      obtain ⟨⟨left, k₁⟩, hRemove, hRest⟩ := Option.bind_eq_some_iff.mp hCall
      obtain ⟨k₂, hAdd, hSame⟩ := Option.map_eq_some_iff.mp hRest
      obtain rfl := (Prod.mk.inj hSame).2
      have hRemoved : Realised cfg s₀ k₁.lists := realised_uxListRemove (by exact h) hRemove
      exact realised_prvAddTaskToReadyList (by exact (realised_reset hRemoved).setValue (cfg.event_le _)) hAdd
    case isFalse =>
      obtain rfl := (Prod.mk.inj (Option.some.inj hCall)).2
      exact h

theorem realised_vTaskPriorityDisinheritAfterTimeout (h : Realised cfg s₀ k.lists)
    (hCall : vTaskPriorityDisinheritAfterTimeout cfg k t p = some k') : Realised cfg s₀ k'.lists := by
  unfold vTaskPriorityDisinheritAfterTimeout at hCall
  dsimp only at hCall
  split at hCall
  case isTrue => cases hCall
  case isFalse =>
    split at hCall
    case isTrue =>
      split at hCall
      case isTrue => cases hCall
      case isFalse => exact realised_moveReady (realised_setEventValue (by exact h)) hCall
    case isFalse =>
      obtain rfl := Option.some.inj hCall
      exact h

theorem realised_prvInitialiseNewTask (h : Realised cfg s₀ k.lists) :
    Realised cfg s₀ (prvInitialiseNewTask cfg k t p).lists :=
  h.setValue (cfg.event_le _)

theorem realised_xTaskCreate (h : Realised cfg s₀ k.lists) (hCall : xTaskCreate cfg k t p = some k') :
    Realised cfg s₀ k'.lists := by
  obtain ⟨k₁, hAdd, rfl⟩ := Option.map_eq_some_iff.mp hCall
  have hAdded := realised_prvAddTaskToReadyList (realised_prvInitialiseNewTask h) hAdd
  rw [yield_eq]
  exact hAdded

theorem realised_vTaskDelete (h : Realised cfg s₀ k.lists) (hCall : vTaskDelete cfg k t = some k') :
    Realised cfg s₀ k'.lists := by
  obtain ⟨⟨left, k₁⟩, hRemove, hRest⟩ := Option.bind_eq_some_iff.mp hCall
  have hRemoved := realised_removeEventItem (t := t)
    (realised_taskReset (p := (k₁.tcb t).uxPriority) left (realised_uxListRemove h hRemove))
  dsimp only at hRest
  generalize removeEventItem (if left = 0 then _ else _) t = k₂ at hRest hRemoved
  split at hRest
  case isTrue =>
    obtain ⟨k₃, hInsert, rfl⟩ := Option.map_eq_some_iff.mp hRest
    have hLast := realised_vListInsertEnd hRemoved hInsert
    exact hLast
  case isFalse =>
    obtain rfl := Option.some.inj hRest
    exact hRemoved

theorem realised_prvCheckTasksWaitingTermination (h : Realised cfg s₀ k.lists)
    (hCall : prvCheckTasksWaitingTermination k = some k') : Realised cfg s₀ k'.lists := by
  obtain ⟨i, _, hRest⟩ := Option.bind_eq_some_iff.mp hCall
  obtain ⟨⟨left, k₁⟩, hRemove, rfl⟩ := Option.map_eq_some_iff.mp hRest
  have hRemoved := realised_uxListRemove h hRemove
  exact hRemoved

theorem realised_vTaskSwitchContext (h : Realised cfg s₀ k.lists) (hCall : vTaskSwitchContext cfg k = some k') :
    Realised cfg s₀ k'.lists := by
  unfold vTaskSwitchContext at hCall
  split at hCall
  case isTrue =>
    obtain rfl := Option.some.inj hCall
    exact h
  case isFalse =>
    unfold taskSELECT_HIGHEST_PRIORITY_TASK at hCall
    split at hCall
    case isTrue =>
      obtain ⟨q, _, hNext⟩ := Option.bind_eq_some_iff.mp hCall
      exact realised_nextEntry (by exact h) hNext
    case isFalse =>
      obtain ⟨q, _, hRest⟩ := Option.bind_eq_some_iff.mp hCall
      obtain ⟨k₁, hNext, rfl⟩ := Option.map_eq_some_iff.mp hRest
      have hTurn : Realised cfg s₀ k₁.lists := realised_nextEntry (by exact h) hNext
      exact hTurn

theorem lists_yieldIf (b : Bool) : (yieldIf b k).lists = k.lists := by
  unfold yieldIf
  split <;> rfl

theorem realised_giveMutex (h : Realised cfg s₀ k.lists) (hCall : giveMutex cfg k e = some k') :
    Realised cfg s₀ k'.lists := by
  obtain ⟨⟨b, k₁⟩, hFirst, hRest⟩ := Option.bind_eq_some_iff.mp hCall
  have hLower := realised_xTaskPriorityDisinherit h hFirst
  dsimp only at hRest
  split at hRest
  case isTrue =>
    obtain ⟨⟨c, k₂⟩, hWake, rfl⟩ := Option.map_eq_some_iff.mp hRest
    rw [lists_yieldIf]
    exact realised_xTaskRemoveFromEventList hLower hWake
  case isFalse =>
    obtain rfl := Option.some.inj hRest
    rw [lists_yieldIf]
    exact hLower

/-- A call of the kernel leads to lists that calls of `list.c` lead to. -/
theorem realised_perform {act : Act} (h : Realised cfg s₀ k.lists) (hEnabled : enabled cfg k act = true)
    (hCall : perform cfg k act = some k') : Realised cfg s₀ k'.lists := by
  cases act with
  | xTaskIncrementTick =>
      obtain ⟨⟨b, k₁⟩, hTick, rfl⟩ := Option.map_eq_some_iff.mp hCall
      rw [lists_yieldIf]
      exact realised_xTaskIncrementTick h hTick
  | portYIELD | vTaskSuspendAll | xTaskCatchUpTicks | pvTaskIncrementMutexHeldCount =>
      obtain rfl := Option.some.inj hCall
      exact h
  | vTaskSwitchContext => exact realised_vTaskSwitchContext (by exact h) hCall
  | xTaskResumeAll =>
      obtain ⟨⟨b, k₁⟩, hResume, rfl⟩ := Option.map_eq_some_iff.mp hCall
      rw [lists_yieldIf]
      exact realised_xTaskResumeAll h hResume
  | vTaskDelay n => exact realised_prvAddCurrentTaskToDelayedList h hCall
  | vTaskPlaceOnEventList e n => exact realised_vTaskPlaceOnEventList h hCall
  | vTaskPlaceOnUnorderedEventList e v n =>
      exact realised_vTaskPlaceOnUnorderedEventList h (of_decide_eq_true hEnabled).2 hCall
  | xTaskRemoveFromEventList e =>
      obtain ⟨⟨b, k₁⟩, hRemove, rfl⟩ := Option.map_eq_some_iff.mp hCall
      exact realised_xTaskRemoveFromEventList h hRemove
  | vTaskRemoveFromUnorderedEventList t v =>
      exact realised_vTaskRemoveFromUnorderedEventList h (of_decide_eq_true hEnabled).2.2.1 hCall
  | vTaskSuspend t => exact realised_vTaskSuspend h hCall
  | vTaskResume t => exact realised_vTaskResume h hCall
  | xTaskResumeFromISR t =>
      obtain ⟨⟨b, k₁⟩, hResume, rfl⟩ := Option.map_eq_some_iff.mp hCall
      exact realised_xTaskResumeFromISR h hResume
  | xTaskAbortDelay t =>
      obtain ⟨⟨b, k₁⟩, hAbort, rfl⟩ := Option.map_eq_some_iff.mp hCall
      exact realised_xTaskAbortDelay h hAbort
  | vTaskPrioritySet t p => exact realised_vTaskPrioritySet h hCall
  | xTaskPriorityInherit t =>
      obtain ⟨⟨b, k₁⟩, hInherit, rfl⟩ := Option.map_eq_some_iff.mp hCall
      exact realised_xTaskPriorityInherit h hInherit
  | giveMutex e => exact realised_giveMutex h hCall
  | vTaskPriorityDisinheritAfterTimeout t p => exact realised_vTaskPriorityDisinheritAfterTimeout h hCall
  | xTaskCreate t p => exact realised_xTaskCreate h hCall
  | vTaskDelete t => exact realised_vTaskDelete h hCall
  | prvCheckTasksWaitingTermination => exact realised_prvCheckTasksWaitingTermination h hCall

theorem realised_createTasks {isFirst : Bool} {tasks : List (Nat × Nat)} (h : Realised cfg s₀ k.lists)
    (hCall : createTasks cfg isFirst tasks k = some k') : Realised cfg s₀ k'.lists := by
  induction tasks generalizing isFirst k with
  | nil =>
      obtain rfl := Option.some.inj hCall
      exact h
  | cons task tasks ih =>
      obtain ⟨k₁, hAdd, hRest⟩ := Option.bind_eq_some_iff.mp hCall
      refine ih (realised_prvAddTaskToReadyList ?_ hAdd) hRest
      split
      case isTrue => exact realised_prvInitialiseNewTask h
      case isFalse => exact realised_prvInitialiseNewTask h

/-- Lists that are not set up yet are set up one after the other. -/
theorem exists_setUp {ls : List TaskList} (hNodup : ls.Nodup) (hRan : Ran cfg s₀ s)
    (hMeans : Lists.Means cfg.portMAX_DELAY s a) (hNew : ∀ l ∈ ls, l ∉ s.lists) :
    ∃ s', Ran cfg s₀ s' ∧ Lists.Means cfg.portMAX_DELAY s' a ∧ (∀ l ∈ ls, l ∈ s'.lists) ∧ ∀ l ∈ s.lists, l ∈ s'.lists := by
  induction ls generalizing s with
  | nil => exact ⟨s, hRan, hMeans, fun l hl => absurd hl List.not_mem_nil, fun l hl => hl⟩
  | cons j ls ih =>
      obtain ⟨hOther, hRest⟩ := List.nodup_cons.mp hNodup
      have hFirst := hNew j List.mem_cons_self
      have hNext : Lists.next cfg.portMAX_DELAY s (.initialise j) = some _ := if_pos (Or.inl hFirst)
      obtain ⟨s', hRan', hMeans', hAll, hOld⟩ := ih hRest (hRan.snoc hNext (decide_eq_true hFirst)) (hMeans.next hNext)
        fun l hl => List.not_mem_cons_of_ne_of_not_mem (fun hSame => hOther (hSame ▸ hl))
          (hNew l (List.mem_cons_of_mem j hl))
      refine ⟨s', hRan', hMeans', fun l hl => ?_, fun l hl => hOld l (List.mem_cons_of_mem j hl)⟩
      rcases List.mem_cons.mp hl with rfl | hLater
      · exact hOld l List.mem_cons_self
      · exact hAll l hLater

theorem nodup_taskLists (cfg : Config) : (taskLists cfg).Nodup := by
  refine List.Nodup.append ?_ (by decide) ?_
  · exact List.nodup_range.map fun p q hSame => TaskList.pxReadyTasksLists.inj hSame
  · intro l hReady hOther
    obtain ⟨p, _, rfl⟩ := List.mem_map.mp hReady
    simp at hOther

/-- The lists are set up, with nothing in them. -/
theorem realised_prvInitialiseTaskLists (hBlank : (Lists.system cfg.portMAX_DELAY).start s₀)
    (hZero : ∀ i, s₀.mem.xItemValue (.item i) = 0) : Realised cfg s₀ (prvInitialiseTaskLists cfg).lists := by
  have hNone : ∀ l ∈ taskLists cfg, l ∉ s₀.lists := by
    intro l _
    rw [hBlank.1]
    exact List.not_mem_nil
  obtain ⟨s, hRan, hMeans, hAll, _⟩ := exists_setUp (nodup_taskLists cfg)
    (Ran.refl cfg s₀) (Lists.Means.start hBlank) hNone
  have hOwner := funext hMeans.owner
  have hSame : (Lists.Abs.ofMem s₀.mem : Lists.Abs Item TaskList) =
      { (prvInitialiseTaskLists cfg).lists with owner := fun i => s.mem.pvOwner (.item i) } := by
    rw [hOwner]
    simp only [Lists.Abs.ofMem, prvInitialiseTaskLists, hZero]
  refine ⟨s, hRan, hSame ▸ hMeans, fun i hHome => absurd rfl hHome, hAll⟩

theorem realised_of_run {trace : Transition.Trace Kernel Act} (hStart : (system cfg).start k₀)
    (run : (system cfg).Run k₀ trace k) (hBlank : (Lists.system cfg.portMAX_DELAY).start s₀)
    (hZero : ∀ i, s₀.mem.xItemValue (.item i) = 0) : Realised cfg s₀ k.lists := by
  induction run with
  | nil =>
      obtain ⟨n, _, tasks, _, hBoot⟩ := hStart
      obtain ⟨k₁, hCreate, rfl⟩ := Option.map_eq_some_iff.mp hBoot
      have hCreated := realised_createTasks (realised_prvInitialiseTaskLists hBlank hZero) hCreate
      exact hCreated
  | @snoc k₁ k₂ trace act prior last ih =>
      obtain ⟨hEnabled, hCall⟩ := Option.ite_none_right_eq_some.mp last
      exact realised_perform ih hEnabled hCall

/-- What the kernel reads of a list and its items. -/
structure Reads (s : Lists.St Item TaskList) (k : Kernel) (l : TaskList) : Prop where
  length : s.mem.uxNumberOfItems l = k.listCURRENT_LIST_LENGTH l
  head : ∀ i, k.listGET_HEAD_ENTRY l = some i →
    Lists.listGET_OWNER_OF_HEAD_ENTRY s.mem l = i.pvOwner ∧
      Lists.listGET_ITEM_VALUE_OF_HEAD_ENTRY s.mem l = k.lists.value i
  next : ∀ k', k.listGET_OWNER_OF_NEXT_ENTRY l = some k' →
    (Lists.listGET_OWNER_OF_NEXT_ENTRY s.mem l).1 = k'.pxCurrentTCB
  remove : ∀ i, k.lists.home i = some l →
    s.mem.pxContainer (.item i) = some l ∧ (Lists.uxListRemove s.mem i).map Prod.fst = (k.uxListRemove i).map Prod.fst

theorem Holds.reads (h : Holds cfg s k.lists) (hl : l ∈ s.lists) : Reads s k l := by
  have hAnswers := h.means.answers hl
  have hOwner : ∀ i ∈ (k.lists.round l).order, s.mem.pvOwner (.item i) = i.pvOwner := by
    intro i hMem
    have hHome : k.lists.home i = some l := (h.means.member l i).mp hMem
    exact h.owner i (by simp [hHome])
  refine ⟨(h.means.lists l hl).count, fun i hHead => ?_, fun k' hNext => ?_, fun i hHome => ⟨?_, ?_⟩⟩
  · obtain ⟨w, hOrder⟩ := List.head?_eq_some_iff.mp hHead
    have hFirst := hAnswers.head i w hOrder
    exact ⟨hFirst.1.trans (hOwner i (hOrder ▸ List.mem_cons_self)), hFirst.2⟩
  · obtain ⟨i, hTurn, rfl⟩ := Option.map_eq_some_iff.mp hNext
    obtain ⟨w, hWaiting⟩ := List.head?_eq_some_iff.mp hTurn
    refine (hAnswers.next i w hWaiting).trans (hOwner i ?_)
    rw [Round.mem_order, hWaiting]
    exact List.mem_cons_self
  · exact (h.means.container i (h.means.known l i hHome).2).trans hHome
  · refine (hAnswers.remove i hHome).trans ?_
    simp only [Kernel.uxListRemove, hHome, Option.map_some, Kernel.listCURRENT_LIST_LENGTH, Kernel.call, Lists.Abs.step,
      Function.update_self]

/-- The memory has the lists of the kernel: those that `prvInitialiseTaskLists` sets
up, every list and item in use, and in each what the kernel reads. -/
structure HasLists (cfg : Config) (s : Lists.St Item TaskList) (k : Kernel) : Prop where
  initialised : ∀ l ∈ taskLists cfg, l ∈ s.lists
  used : ∀ i l, k.lists.home i = some l → l ∈ s.lists ∧ i ∈ s.items
  container : ∀ i ∈ s.items, s.mem.pxContainer (.item i) = k.lists.home i
  reads : ∀ l ∈ s.lists, Reads s k l

theorem Holds.hasLists (h : Holds cfg s k.lists) : HasLists cfg s k :=
  ⟨h.known, fun i l => h.means.known l i, h.means.container, fun _ hl => h.reads hl⟩

/-- In every run the lists of the scheduler can be those of a memory that calls of
`list.c` have made from any blank one, setting up each list and item once. Reading
them there gives what the kernel reads, and more calls follow the next step of the
kernel. -/
theorem memory_of_run {trace : Transition.Trace Kernel Act} (hStart : (system cfg).start k₀)
    (run : (system cfg).Run k₀ trace k) (hBlank : (Lists.system cfg.portMAX_DELAY).start s₀)
    (hZero : ∀ i, s₀.mem.xItemValue (.item i) = 0) :
    ∃ s, Ran cfg s₀ s ∧ HasLists cfg s k ∧
      ∀ act k', (system cfg).next k act = some k' → ∃ s', Ran cfg s s' ∧ HasLists cfg s' k' := by
  obtain ⟨s, hRan, hHolds⟩ := realised_of_run hStart run hBlank hZero
  refine ⟨s, hRan, hHolds.hasLists, fun act k' hNext => ?_⟩
  obtain ⟨hEnabled, hCall⟩ := Option.ite_none_right_eq_some.mp hNext
  obtain ⟨s', hMore, hAfter⟩ := realised_perform (hHolds.realised) hEnabled hCall
  exact ⟨s', hMore, hAfter.hasLists⟩

/-- A memory in which nothing is set up. -/
def blankMemory : Lists.St Item TaskList where
  mem :=
    { xItemValue := fun _ => 0
      pxNext := fun _ => .xListEnd .xPendingReadyList
      pxPrevious := fun _ => .xListEnd .xPendingReadyList
      pvOwner := fun _ => 0
      pxContainer := fun _ => none
      uxNumberOfItems := fun _ => 0
      pxIndex := fun _ => .xListEnd .xPendingReadyList }
  lists := []
  items := []

theorem memory_of_run_board :
    ∃ k₀ k, vTaskStartScheduler board 0xfffffffe [(1, 1), (2, 2), (0, 0)] = some k₀ ∧
      (system board).exec k₀ timeoutCalls = some k ∧
      ∃ s, Ran board blankMemory s ∧ HasLists board s k ∧
        ∀ act k', (system board).next k act = some k' → ∃ s', Ran board s s' ∧ HasLists board s' k' := by
  obtain ⟨k₀, k, hBoot, hExec, _⟩ := exec_any board 0xfffffffe [(1, 1), (2, 2), (0, 0)] timeoutCalls
    (fun _ _ => true) (by decide)
  exact ⟨k₀, k, hBoot, hExec, memory_of_run ⟨_, by decide, _, by decide, hBoot⟩
    (Transition.System.run_of_exec timeoutCalls hExec) ⟨rfl, rfl, fun _ => Nat.zero_le _⟩ fun _ => rfl⟩

end FreeRtos.Tasks
