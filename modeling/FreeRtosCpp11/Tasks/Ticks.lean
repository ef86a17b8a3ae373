import FreeRtosCpp11.Tasks.Moves
import Mathlib.Data.List.Perm.Subperm

/-! The tick wakes the tasks whose time has come, and no others, whether the
count of ticks starts anew or not. -/
namespace FreeRtos.Tasks

open Links

variable {cfg : Config} {k k' k₁ : Kernel} {l : TaskList} {t u p n fuel : Nat} {v w : View} {vars : Vars} {sw : Bool}

/-- The task is ready, and waits for nothing. -/
def View.woken (v : View) : View :=
  { v with state := some (.pxReadyTasksLists v.tcb.uxPriority), event := none }

/-- The task is delayed and its time has come. -/
def View.expired (vars : Vars) (v : View) : Bool :=
  v.state = some vars.pxDelayedTaskList ∧ v.time ≤ vars.xTickCount

/-- What the tick makes of a task. -/
def View.tick (vars : Vars) (v : View) : View := if v.expired vars then v.woken else v

theorem sound_length_lt {a b : Lists.Abs Item TaskList} {i : Item} (hFirst : a.Sound) (hSecond : b.Sound)
    (hFewer : ∀ j, b.home j = some l → a.home j = some l) (hOld : a.home i = some l) (hNew : b.home i ≠ some l) :
    (b.round l).order.length < (a.round l).order.length := by
  have hOut : i ∉ (b.round l).order := fun hMem => hNew ((hSecond.member l i).mp hMem)
  have hNodup : (i :: (b.round l).order).Nodup := List.nodup_cons.mpr ⟨hOut, hSecond.nodup l⟩
  refine (List.subperm_of_subset hNodup fun j hj => ?_).length_le
  rw [hFirst.member]
  rcases List.mem_cons.mp hj with rfl | hMem
  · exact hOld
  · exact hFewer j ((hSecond.member l j).mp hMem)

/-- The items of a list for state items. -/
theorem Core.head_state {i : Item} (h : Core cfg k) (hHead : k.listGET_HEAD_ENTRY l = some i)
    (hList : l ≠ .xPendingReadyList) (hEvent : ∀ e, l ≠ .pxEventList e) :
    ∃ t w, i = .xStateListItem t ∧ (k.view t).state = some l ∧ (k.lists.round l).order = .xStateListItem t :: w := by
  obtain ⟨w, hOrder⟩ := List.head?_eq_some_iff.mp hHead
  have hHome := (h.sorted.sound.member l i).mp (hOrder ▸ List.mem_cons_self)
  cases i with
  | xStateListItem t => exact ⟨t, w, rfl, hHome, hOrder⟩
  | xEventListItem t => exact absurd hHome ((h.placed t).event_ne hList hEvent)

theorem Core.delayed_list (h : Core cfg k) :
    k.pxDelayedTaskList ≠ .xPendingReadyList ∧ (∀ e, k.pxDelayedTaskList ≠ .pxEventList e) ∧
      ∀ q, k.pxDelayedTaskList ≠ .pxReadyTasksLists q := by
  rcases h.sorted.lists with ⟨hd, _⟩ | ⟨hd, _⟩ <;> simp [hd]

/-- A delayed task whose time has come becomes ready and leaves its event list. -/
theorem changed_wake (h : Core cfg k) (t : Nat) :
    ∃ k', (prvAddTaskToReadyList cfg (removeEventItem (k.call (.remove (.xStateListItem t))) t) t) = some k' ∧
      Changed k k' t (k.view t).woken (recorded cfg k.uxTopReadyPriority (k.tcb t).uxPriority) := by
  have hRemove := changed_remove_state h.sorted t
  have hEvent := hRemove.trans (changed_removeEventItem hRemove.sorted t)
  have hFree : ((removeEventItem (k.call (.remove (.xStateListItem t))) t).view t).state = none := by
    rw [hEvent.here, hRemove.here]
  obtain ⟨k', hAdd, hChanged⟩ := changed_prvAddTaskToReadyList hEvent.sorted cfg hFree
  have hTcb : (removeEventItem (k.call (.remove (.xStateListItem t))) t).tcb t = k.tcb t := by
    rw [hEvent.tcb, hRemove.here, Function.update_self]
    rfl
  have hAll := hEvent.trans hChanged
  rw [hEvent.here, hRemove.here, hTcb, hEvent.top] at hAll
  exact ⟨k', hAdd, hAll⟩

/-- The delayed tasks are due at the tick or later. -/
structure Waking (cfg : Config) (k : Kernel) : Prop extends Core cfg k where
  selects : Selects cfg k.uxTopReadyPriority k.view
  due : ∀ t, Due cfg k.toVars k.xTickCount (k.view t)

theorem Waking.wake (h : Waking cfg k) (hState : (k.view t).state = some k.pxDelayedTaskList)
    (hChanged : Changed k k' t (k.view t).woken (recorded cfg k.uxTopReadyPriority (k.tcb t).uxPriority)) :
    Waking cfg k' := by
  have hOut : ∀ q, (k.view t).state ≠ some (.pxReadyTasksLists q) := by
    intro q hSame
    rw [hState] at hSame
    exact h.delayed_list.2.2 q (Option.some.inj hSame)
  have hTerm : (k.view t).state ≠ some .xTasksWaitingTermination := by
    rw [hState]
    exact fun hSame => (h.sorted.plain plain_terminated).1 (Option.some.inj hSame).symm
  refine ⟨h.toCore.readied hChanged hTerm rfl rfl (h.placed t).priority, ?_, ?_⟩
  · rw [hChanged.top, hChanged.view]
    exact h.selects.record (h.placed t).priority.1 hOut rfl
  · rw [hChanged.view, hChanged.vars]
    refine (Function.forall_update_iff k.view fun _ v => Due cfg k.toVars k.xTickCount v).mpr ⟨?_, fun u _ => h.due u⟩
    intro hSame
    exact absurd (Option.some.inj hSame).symm (h.delayed_list.2.2 _)

/-- What the loop of the tick does: it wakes exactly the tasks whose time has
come, and notes the time of the next one. -/
structure Woke (cfg : Config) (k k' : Kernel) (sw sw' : Bool) : Prop extends Steady cfg k' where
  vars : ∃ n, k'.toVars = { k.toVars with xNextTaskUnblockTime := n }
  view : ∀ t, k'.view t = (k.view t).tick k.toVars
  switch : sw' = true ↔ sw = true ∨ ∃ t, (k.view t).expired k.toVars ∧
    (k.tcb k.pxCurrentTCB).uxPriority ≤ (k.view t).tcb.uxPriority

/-- The loop ends at a task that is not due yet, or at the end of the list. -/
theorem Waking.stop (h : Waking cfg k) (hLater : ∀ t, (k.view t).state = some k.pxDelayedTaskList →
      k.xTickCount < (k.view t).time ∧ n ≤ (k.view t).time) :
    Woke cfg k { k with xNextTaskUnblockTime := n } sw sw where
  toCore := h.toCore.congr rfl rfl rfl rfl rfl rfl
  selects := h.selects
  due t hState := ⟨(hLater t hState).1, (h.due t hState).2⟩
  next t hState := (hLater t hState).2
  vars := ⟨n, rfl⟩
  view t := by
    rw [View.tick, if_neg]
    · rfl
    · intro hExpired
      obtain ⟨hState, hTime⟩ := of_decide_eq_true hExpired
      exact absurd hTime (Nat.not_le_of_lt (hLater t hState).1)
  switch := by
    refine (or_iff_left ?_).symm
    rintro ⟨t, hExpired, _⟩
    obtain ⟨hState, hTime⟩ := of_decide_eq_true hExpired
    exact absurd hTime (Nat.not_le_of_lt (hLater t hState).1)

/-- The loop of the tick. The induction is on the bound of its passes, which is
more than the tasks left in the list. -/
theorem unblockTasks_spec (h : Waking cfg k) (hFuel : k.listCURRENT_LIST_LENGTH k.pxDelayedTaskList < fuel)
    (sw : Bool) : ∃ sw' k', unblockTasks cfg fuel k sw = some (sw', k') ∧ Woke cfg k k' sw sw' := by
  induction fuel generalizing k sw with
  | zero => exact absurd hFuel (Nat.not_lt_zero _)
  | succ fuel ih =>
      rw [unblockTasks]
      cases hHead : k.listGET_HEAD_ENTRY k.pxDelayedTaskList with
      | none =>
          refine ⟨sw, _, rfl, h.stop fun t hState => ?_⟩
          have hMem := (h.sorted.sound.member k.pxDelayedTaskList (.xStateListItem t)).mpr hState
          rw [List.head?_eq_none_iff.mp hHead] at hMem
          cases hMem
      | some i =>
          obtain ⟨t, w, rfl, hState, hOrder⟩ := h.head_state hHead h.delayed_list.1 h.delayed_list.2.1
          dsimp only [Item.pvOwner]
          split
          case isTrue hLater =>
            refine ⟨sw, _, rfl, h.stop fun u hOther => ?_⟩
            have hLe : (k.view t).time ≤ (k.view u).time := h.sorted.delayed.head h.sorted.sound hOrder hOther
            exact ⟨Nat.lt_of_lt_of_le hLater hLe, hLe⟩
          case isFalse hNow =>
            obtain ⟨k₁, hAdd, hChanged⟩ := changed_wake h.toCore t
            have hExpired : (k.view t).expired k.toVars = true :=
              decide_eq_true ⟨hState, Nat.le_of_not_lt hNow⟩
            have hWaking := h.wake hState hChanged
            have hDelayed := congrArg Vars.pxDelayedTaskList hChanged.vars
            have hTcb : k₁.tcb = k.tcb := by
              rw [hChanged.tcb]
              exact Function.update_eq_self t k.tcb
            have hShorter : k₁.listCURRENT_LIST_LENGTH k₁.pxDelayedTaskList < fuel := by
              rw [hDelayed]
              refine Nat.lt_of_lt_of_le ?_ (Nat.le_of_lt_succ hFuel)
              refine sound_length_lt (i := .xStateListItem t) h.sorted.sound hWaking.sorted.sound (fun j hj => ?_)
                hState ?_
              · cases j with
                | xStateListItem u =>
                    have hView : (k₁.view u).state = some k.pxDelayedTaskList := hj
                    by_cases hTask : u = t
                    · exact hTask ▸ hState
                    · rwa [hChanged.view, Function.update_of_ne hTask] at hView
                | xEventListItem u =>
                    exact absurd hj ((hWaking.placed u).event_ne h.delayed_list.1 h.delayed_list.2.1)
              · have hView : (k₁.view t).state ≠ some k.pxDelayedTaskList := by
                  rw [hChanged.here]
                  exact fun hSame => h.delayed_list.2.2 _ (Option.some.inj hSame).symm
                exact hView
            obtain ⟨sw', k', hLoop, hWoke⟩ := ih hWaking hShorter
              (sw || decide ((k₁.tcb t).uxPriority ≥ (k₁.tcb k₁.pxCurrentTCB).uxPriority))
            refine ⟨sw', k', ?_, hWoke.toSteady, ?_, fun u => ?_, ?_⟩
            · rw [uxListRemove_state hState, Option.bind_some, hAdd, Option.bind_some]
              exact hLoop
            · rw [← hChanged.vars]
              exact hWoke.vars
            · rw [hWoke.view, hChanged.vars, hChanged.view]
              by_cases hTask : u = t
              · subst hTask
                rw [Function.update_self, View.tick, View.tick, if_pos hExpired, if_neg]
                intro hAgain
                exact h.delayed_list.2.2 _ (Option.some.inj (of_decide_eq_true hAgain).1).symm
              · rw [Function.update_of_ne hTask]
            · rw [hWoke.switch, hTcb, hChanged.vars, Bool.or_eq_true, decide_eq_true_eq, or_assoc]
              refine or_congr_right ?_
              constructor
              · rintro (hFirst | ⟨u, hOther, hMore⟩)
                · exact ⟨t, hExpired, hFirst⟩
                · refine ⟨u, ?_⟩
                  by_cases hTask : u = t
                  · subst hTask
                    rw [hChanged.here] at hOther
                    exact absurd (Option.some.inj (of_decide_eq_true hOther).1).symm (h.delayed_list.2.2 _)
                  · rw [hChanged.view, Function.update_of_ne hTask] at hOther hMore
                    exact ⟨hOther, hMore⟩
              · rintro ⟨u, hOther, hMore⟩
                by_cases hTask : u = t
                · subst hTask
                  exact Or.inl hMore
                · refine Or.inr ⟨u, ?_⟩
                  rw [hChanged.view, Function.update_of_ne hTask]
                  exact ⟨hOther, hMore⟩

/-- The time, with the ticks before the count started anew. -/
def Vars.now (cfg : Config) (vars : Vars) : Nat := vars.xNumOfOverflows * (cfg.portMAX_DELAY + 1) + vars.xTickCount

/-- When a delayed task wakes. -/
def Vars.wakeAt (cfg : Config) (vars : Vars) (v : View) : Option Nat :=
  if v.state = some vars.pxDelayedTaskList then some (vars.xNumOfOverflows * (cfg.portMAX_DELAY + 1) + v.time)
  else if v.state = some vars.pxOverflowDelayedTaskList then
    some ((vars.xNumOfOverflows + 1) * (cfg.portMAX_DELAY + 1) + v.time)
  else none

def Kernel.now (cfg : Config) (k : Kernel) : Nat := k.toVars.now cfg

def Kernel.wakeAt (cfg : Config) (k : Kernel) (t : Nat) : Option Nat := k.toVars.wakeAt cfg (k.view t)

/-- The variables that the clock does not touch. -/
structure SameTask (vars vars' : Vars) : Prop where
  current : vars'.pxCurrentTCB = vars.pxCurrentTCB
  pended : vars'.xPendedTicks = vars.xPendedTicks
  suspended : vars'.uxSchedulerSuspended = vars.uxSchedulerSuspended
  deleted : vars'.uxDeletedTasksWaitingCleanUp = vars.uxDeletedTasksWaitingCleanUp
  yieldPending : vars'.xYieldPending = vars.xYieldPending
  yield : vars'.portYIELD = vars.portYIELD

/-- The count of ticks has moved on, and the delayed tasks still sleep. -/
structure Advanced (cfg : Config) (k k' : Kernel) : Prop extends Waking cfg k' where
  next : ∀ t, (k'.view t).state = some k'.pxDelayedTaskList → k'.xNextTaskUnblockTime ≤ (k'.view t).time
  now : k'.now cfg = k.now cfg + 1
  others : SameTask k.toVars k'.toVars
  view : k'.view = k.view
  expired : ∀ t, (k'.view t).expired k'.toVars = true ↔ k.wakeAt cfg t = some (k.now cfg + 1)
  wake : ∀ t, k'.wakeAt cfg t = k.wakeAt cfg t

section Tick

variable (h : Good cfg k)

include h

/-- The tasks that are due at the next tick. -/
theorem Good.expired_iff {vars : Vars} (hEnd : k.xTickCount ≠ cfg.portMAX_DELAY) (hDelayed : vars.pxDelayedTaskList = k.pxDelayedTaskList)
    (hTick : vars.xTickCount = k.xTickCount + 1) (t : Nat) :
    (k.view t).expired vars = true ↔ k.wakeAt cfg t = some (k.now cfg + 1) := by
  rw [View.expired, decide_eq_true_eq, hDelayed, hTick, Kernel.wakeAt, Vars.wakeAt, Kernel.now, Vars.now]
  have hTickLe := h.tick
  by_cases hState : (k.view t).state = some k.pxDelayedTaskList
  · have hTime := (h.due t hState).1
    rw [if_pos hState, Option.some_inj]
    constructor
    · rintro ⟨_, hLe⟩
      omega
    · intro hSame
      exact ⟨hState, by omega⟩
  · rw [if_neg hState]
    refine iff_of_false (fun hBoth => hState hBoth.1) ?_
    split
    case isTrue hLater =>
      have hTime := (h.placed t).later hLater
      rw [Option.some_inj, Nat.add_mul, Nat.one_mul]
      omega
    case isFalse => exact nofun

theorem Good.advance (hTick : k.xTickCount ≠ cfg.portMAX_DELAY) :
    Advanced cfg k { k with xTickCount := k.xTickCount + 1 } := by
  have hLe := h.tick
  refine ⟨⟨⟨?_, ?_, fun t => ?_, h.idle, h.deleted⟩, h.selects, h.due⟩, h.next, rfl, ⟨rfl, rfl, rfl, rfl, rfl, rfl⟩,
    rfl, fun t => ?_, fun t => rfl⟩
  · exact h.sorted.congr rfl rfl
  · show k.xTickCount + 1 ≤ cfg.portMAX_DELAY
    omega
  · obtain ⟨hState, hEvent, hBlocked, hPriority, hLater⟩ := h.placed t
    exact ⟨hState, hEvent, hBlocked, hPriority, fun hList => Nat.lt_succ_of_lt (hLater hList)⟩
  · exact h.expired_iff hTick (by rfl) (by rfl) t

/-- The delayed list is empty when the count of ticks starts anew. -/
theorem Good.empty (hTick : k.xTickCount = cfg.portMAX_DELAY) (t : Nat) :
    (k.view t).state ≠ some k.pxDelayedTaskList := by
  intro hState
  have hTime := h.due t hState
  omega

/-- The second list becomes the first one. -/
theorem Good.switchLists (hTick : k.xTickCount = cfg.portMAX_DELAY) :
    ∃ k', taskSWITCH_DELAYED_LISTS cfg { k with xTickCount := 0 } = some k' ∧ Advanced cfg k k' ∧
      k'.xTickCount = 0 := by
  have hEmpty := h.empty hTick
  have hLength : k.listCURRENT_LIST_LENGTH k.pxDelayedTaskList = 0 := by
    rw [length_eq_zero_iff h.sorted.sound fun t => (h.placed t).event_ne h.delayed_list.1 h.delayed_list.2.1]
    exact hEmpty
  refine ⟨_, if_pos hLength, ?_, rfl⟩
  have hSorted : Sorted k.lists
      { k.toVars with
        xTickCount := 0
        pxDelayedTaskList := k.pxOverflowDelayedTaskList
        pxOverflowDelayedTaskList := k.pxDelayedTaskList } :=
    ⟨h.sorted.sound, (h.sorted.lists.imp And.symm And.symm).symm, h.sorted.overflow, h.sorted.delayed⟩
  have hTime : ∀ t, (k.view t).state = some k.pxOverflowDelayedTaskList → (k.view t).time < cfg.portMAX_DELAY :=
    fun t hState => hTick ▸ (h.placed t).later hState
  have hNow : (k.xNumOfOverflows + 1) * (cfg.portMAX_DELAY + 1) = k.now cfg + 1 := by
    rw [Kernel.now, Vars.now, hTick, Nat.add_mul, Nat.one_mul, Nat.add_assoc]
  refine ⟨⟨⟨hSorted.congr rfl rfl, Nat.zero_le _, fun t => ?_, h.idle, h.deleted⟩, h.selects, fun t hState => ?_⟩,
    fun t hState => ?_, ?_, ⟨rfl, rfl, rfl, rfl, rfl, rfl⟩, rfl, fun t => ?_, fun t => ?_⟩
  · obtain ⟨hState, hEvent, hBlocked, hPriority, _⟩ := h.placed t
    refine ⟨fun l hl => ?_, hEvent, fun hNot => ?_, hPriority, fun hList => absurd hList (hEmpty t)⟩
    · rcases hState l hl with hReady | hDelayed | hLater | hRest
      · exact Or.inl hReady
      · exact Or.inr (Or.inr (Or.inl hDelayed))
      · exact Or.inr (Or.inl hLater)
      · exact Or.inr (Or.inr (Or.inr hRest))
    · rcases hBlocked hNot with hDelayed | hLater | hRest
      · exact Or.inr (Or.inl hDelayed)
      · exact Or.inl hLater
      · exact Or.inr (Or.inr hRest)
  · exact ⟨Nat.zero_le _, Nat.le_of_lt (hTime t hState)⟩
  · show (prvResetNextTaskUnblockTime cfg _).xNextTaskUnblockTime ≤ _
    unfold prvResetNextTaskUnblockTime
    dsimp only
    split
    case h_1 hHead =>
      have hMem := (h.sorted.sound.member k.pxOverflowDelayedTaskList (.xStateListItem t)).mpr hState
      rw [List.head?_eq_none_iff.mp hHead] at hMem
      cases hMem
    case h_2 i hHead =>
      obtain ⟨w, hOrder⟩ := List.head?_eq_some_iff.mp hHead
      exact h.sorted.overflow.head h.sorted.sound hOrder hState
  · show (k.xNumOfOverflows + 1) * (cfg.portMAX_DELAY + 1) + 0 = k.now cfg + 1
    rw [hNow, Nat.add_zero]
  · show View.expired _ (k.view t) = true ↔ _
    rw [View.expired, decide_eq_true_eq, Kernel.wakeAt, Vars.wakeAt, if_neg (hEmpty t)]
    show (k.view t).state = some k.pxOverflowDelayedTaskList ∧ (k.view t).time ≤ 0 ↔ _
    by_cases hState : (k.view t).state = some k.pxOverflowDelayedTaskList
    · rw [if_pos hState, Option.some_inj, hNow]
      exact ⟨fun hBoth => by omega, fun hSame => ⟨hState, by omega⟩⟩
    · rw [if_neg hState]
      exact iff_of_false (fun hBoth => hState hBoth.1) nofun
  · show (if (k.view t).state = some k.pxOverflowDelayedTaskList then _
      else if (k.view t).state = some k.pxDelayedTaskList then _ else _) = _
    rw [Kernel.wakeAt, Vars.wakeAt, if_neg (hEmpty t), if_neg (hEmpty t)]
    rfl

end Tick

/-- What a tick does while the scheduler runs: the time goes on by one, and the
tasks that wake at the new time become ready. -/
structure Ticked (cfg : Config) (k k' : Kernel) (sw : Bool) : Prop extends Good cfg k' where
  now : k'.now cfg = k.now cfg + 1
  others : SameTask k.toVars k'.toVars
  view : ∀ t, k'.view t = if k.wakeAt cfg t = some (k.now cfg + 1) then (k.view t).woken else k.view t
  wake : ∀ t, k'.wakeAt cfg t = if k.wakeAt cfg t = some (k.now cfg + 1) then none else k.wakeAt cfg t
  switch : sw = true ↔
    (∃ t, k.wakeAt cfg t = some (k.now cfg + 1) ∧ (k.tcb k.pxCurrentTCB).uxPriority ≤ (k.view t).tcb.uxPriority) ∨
      1 < k'.listCURRENT_LIST_LENGTH (.pxReadyTasksLists (k.tcb k.pxCurrentTCB).uxPriority) ∨ k.xYieldPending = true

theorem Vars.wakeAt_woken (hSorted : Sorted k.lists vars) (v : View) : vars.wakeAt cfg v.woken = none := by
  obtain ⟨hDelayed, hOverflow⟩ := hSorted.plain (plain_ready (p := v.tcb.uxPriority))
  rw [Vars.wakeAt, if_neg, if_neg]
  · exact fun hSame => hOverflow (Option.some.inj hSame)
  · exact fun hSame => hDelayed (Option.some.inj hSame)

/-- The tick, from the count of ticks and the loop over the delayed tasks. -/
theorem Good.ticked (h : Good cfg k) (hRun : k.uxSchedulerSuspended = 0) (hAdvanced : Advanced cfg k k₁)
    (hWoke : Woke cfg k₁ k' false sw) :
    Ticked cfg k k' (sw || decide (k'.listCURRENT_LIST_LENGTH
      (.pxReadyTasksLists (k'.tcb k'.pxCurrentTCB).uxPriority) > 1) || k'.xYieldPending) := by
  obtain ⟨n, hVars⟩ := hWoke.vars
  have hOthers := hAdvanced.others
  have hCurrent : k'.pxCurrentTCB = k.pxCurrentTCB := (congrArg Vars.pxCurrentTCB hVars).trans hOthers.current
  have hYield : k'.xYieldPending = k.xYieldPending := (congrArg Vars.xYieldPending hVars).trans hOthers.yieldPending
  have hView : ∀ t, k'.view t = if k.wakeAt cfg t = some (k.now cfg + 1) then (k.view t).woken else k.view t := by
    intro t
    have hExpired := hAdvanced.expired t
    rw [hAdvanced.view] at hExpired
    rw [hWoke.view, View.tick, hAdvanced.view]
    simp only [hExpired]
  have hTcb : ∀ t, k'.tcb t = k.tcb t := by
    intro t
    have hSame := congrArg View.tcb (hView t)
    split at hSame <;> exact hSame
  have hSorted : Sorted k'.lists k₁.toVars := hWoke.sorted.congr (by rw [hVars]) (by rw [hVars])
  refine ⟨⟨hWoke.toSteady, fun t hPending => ?_⟩, ?_, ?_, hView, fun t => ?_, ?_⟩
  · rw [hView] at hPending
    split at hPending
    case isTrue => cases hPending
    case isFalse => exact absurd hRun (h.pending t hPending)
  · rw [Kernel.now, hVars]
    exact hAdvanced.now
  · rw [hVars]
    exact ⟨hOthers.current, hOthers.pended, hOthers.suspended, hOthers.deleted, hOthers.yieldPending, hOthers.yield⟩
  · have hSame : k'.wakeAt cfg t = k₁.toVars.wakeAt cfg (k'.view t) := by
      rw [Kernel.wakeAt, hVars]
      rfl
    rw [hSame, hView]
    split
    case isTrue => exact Vars.wakeAt_woken hSorted _
    case isFalse =>
      rw [← hAdvanced.wake t, Kernel.wakeAt, hAdvanced.view]
  · rw [Bool.or_eq_true, Bool.or_eq_true, decide_eq_true_eq, or_assoc, hYield, hCurrent, hTcb, hWoke.switch]
    refine or_congr_left ?_
    have hFirst : k₁.tcb k₁.pxCurrentTCB = k.tcb k.pxCurrentTCB := by
      rw [hOthers.current]
      exact congrArg View.tcb (congrFun hAdvanced.view _)
    rw [hFirst, or_iff_right Bool.false_ne_true]
    refine exists_congr fun t => ?_
    rw [hAdvanced.expired, hAdvanced.view]

theorem Waking.loop (h : Waking cfg k)
    (hNext : ∀ t, (k.view t).state = some k.pxDelayedTaskList → k.xNextTaskUnblockTime ≤ (k.view t).time) :
    ∃ sw k', (if k.xTickCount ≥ k.xNextTaskUnblockTime then
        unblockTasks cfg (k.listCURRENT_LIST_LENGTH k.pxDelayedTaskList + 1) k false
      else some (false, k)) = some (sw, k') ∧ Woke cfg k k' false sw := by
  split
  case isTrue => exact unblockTasks_spec h (Nat.lt_succ_self _) false
  case isFalse hEarly =>
    refine ⟨false, k, rfl, h.stop fun t hState => ⟨?_, hNext t hState⟩⟩
    have hLe := hNext t hState
    omega

theorem xTaskIncrementTick_spec (h : Good cfg k) (hRun : k.uxSchedulerSuspended = 0) :
    ∃ sw k', xTaskIncrementTick cfg k = some (sw, k') ∧ Ticked cfg k k' sw := by
  have hStart : ∃ k₁, (if cfg.ticks k.xTickCount 1 = 0 then
        taskSWITCH_DELAYED_LISTS cfg { k with xTickCount := cfg.ticks k.xTickCount 1 }
      else some { k with xTickCount := cfg.ticks k.xTickCount 1 }) = some k₁ ∧ Advanced cfg k k₁ ∧
        k₁.xTickCount = cfg.ticks k.xTickCount 1 := by
    by_cases hEnd : k.xTickCount = cfg.portMAX_DELAY
    · obtain ⟨k₁, hSwitch, hAdvanced, hTick⟩ := h.switchLists hEnd
      have hZero : cfg.ticks k.xTickCount 1 = 0 := by
        rw [Config.ticks, hEnd, Nat.mod_self]
      rw [hZero, if_pos rfl]
      exact ⟨k₁, hSwitch, hAdvanced, hTick⟩
    · have hLe := h.tick
      have hSucc : cfg.ticks k.xTickCount 1 = k.xTickCount + 1 := Nat.mod_eq_of_lt (by omega)
      rw [hSucc, if_neg (Nat.succ_ne_zero _)]
      exact ⟨_, rfl, h.advance hEnd, rfl⟩
  obtain ⟨k₁, hFirst, hAdvanced, hTick⟩ := hStart
  obtain ⟨sw, k', hLoop, hWoke⟩ := hAdvanced.toWaking.loop hAdvanced.next
  refine ⟨_, k', ?_, h.ticked hRun hAdvanced hWoke⟩
  rw [xTaskIncrementTick, if_pos hRun]
  dsimp only
  rw [hFirst, Option.bind_some, ← hTick, hLoop]
  rfl

end FreeRtos.Tasks
