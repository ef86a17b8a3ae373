import FreeRtosCpp11.Tasks.Ticks

/-! Resuming the scheduler makes up for what happened while it was suspended:
the tasks whose events came become ready, and the pended ticks are counted. -/
namespace FreeRtos.Tasks

open Links

variable {cfg : Config} {k k' k₁ : Kernel} {l : TaskList} {t u p n fuel top : Nat} {v w : View} {vars : Vars}

/-- What the loop over the pending ready tasks does. -/
structure Moved (cfg : Config) (k k' : Kernel) : Prop extends Steady cfg k' where
  pending : ∀ t, (k'.view t).event ≠ some .xPendingReadyList
  vars : ∃ y, k'.toVars = { k.toVars with xYieldPending := y }
  view : ∀ t, k'.view t = if (k.view t).event = some .xPendingReadyList then (k.view t).woken else k.view t
  yield : k'.xYieldPending = true ↔ k.xYieldPending = true ∨
    ∃ t, (k.view t).event = some .xPendingReadyList ∧
      (k.tcb k.pxCurrentTCB).uxPriority ≤ (k.view t).tcb.uxPriority

theorem Core.head_event {i : Item} (h : Core cfg k) (hHead : k.listGET_HEAD_ENTRY l = some i)
    (hList : l = .xPendingReadyList ∨ ∃ e, l = .pxEventList e) :
    ∃ t w, i = .xEventListItem t ∧ (k.view t).event = some l ∧ (k.lists.round l).order = .xEventListItem t :: w := by
  obtain ⟨w, hOrder⟩ := List.head?_eq_some_iff.mp hHead
  have hHome := (h.sorted.sound.member l i).mp (hOrder ▸ List.mem_cons_self)
  cases i with
  | xEventListItem t => exact ⟨t, w, rfl, hHome, hOrder⟩
  | xStateListItem t =>
      have hPlain : Plain l := by
        rcases hList with rfl | ⟨e, rfl⟩
        · exact plain_pending
        · exact plain_event
      obtain ⟨hDelayed, hOverflow⟩ := h.sorted.plain hPlain
      rcases (h.placed t).state l hHome with rfl | hSame | hSame | rfl | rfl
      · simp at hList
      · exact absurd hSame hDelayed
      · exact absurd hSame hOverflow
      · simp at hList
      · simp at hList

/-- Another variable changes. -/
theorem Steady.setYieldPending (h : Steady cfg k) (y : Bool) : Steady cfg { k with xYieldPending := y } :=
  ⟨h.toCore.congr rfl rfl rfl rfl rfl rfl, h.selects, h.due, h.next⟩

theorem raise_eq (c : Prop) [Decidable c] (k : Kernel) :
    (if c then { k with xYieldPending := true } else k) =
      { k with xYieldPending := k.xYieldPending || decide c } := by
  split
  case isTrue hHolds => rw [decide_eq_true hHolds, Bool.or_true]
  case isFalse hFails => rw [decide_eq_false hFails, Bool.or_false]

/-- A task whose event item leaves its list becomes ready. -/
theorem changed_release (h : Steady cfg k) (hEvent : (k.view t).event ≠ none) :
    ∃ k', unblock cfg (k.call (.remove (.xEventListItem t))) t = some k' ∧
      Changed k k' t (k.view t).woken (recorded cfg k.uxTopReadyPriority (k.tcb t).uxPriority) ∧ Steady cfg k' := by
  obtain ⟨hOut, hTerm, l, hState⟩ := h.blocked_apart hEvent
  have hRemove := changed_remove_event h.sorted t
  obtain ⟨k', hUnblock, hChanged⟩ := changed_unblock (t := t) (l := l) cfg hRemove.sorted
    (by rw [hRemove.here]; exact hState)
  have hAll := hRemove.trans hChanged
  rw [hRemove.here, hRemove.top] at hAll
  exact ⟨k', hUnblock, hAll, h.readied hAll hOut hTerm rfl rfl (h.placed t).priority⟩

/-- The loop over the pending ready tasks, by induction on the bound of its
passes. -/
theorem movePending_spec (h : Steady cfg k) (hFuel : k.listCURRENT_LIST_LENGTH .xPendingReadyList < fuel)
    (moved : Bool) : ∃ moved' k', movePending cfg fuel k moved = some (moved', k') ∧ Moved cfg k k' := by
  induction fuel generalizing k moved with
  | zero => exact absurd hFuel (Nat.not_lt_zero _)
  | succ fuel ih =>
      rw [movePending]
      cases hHead : k.listGET_HEAD_ENTRY .xPendingReadyList with
      | none =>
          have hNone : ∀ t, (k.view t).event ≠ some .xPendingReadyList := by
            intro t hEvent
            have hMem := (h.sorted.sound.member .xPendingReadyList (.xEventListItem t)).mpr hEvent
            rw [List.head?_eq_none_iff.mp hHead] at hMem
            cases hMem
          refine ⟨moved, k, rfl, h, hNone, ⟨_, rfl⟩, fun t => (if_neg (hNone t)).symm, (or_iff_left ?_).symm⟩
          rintro ⟨t, hEvent, _⟩
          exact hNone t hEvent
      | some i =>
          obtain ⟨t, w, rfl, hEvent, hOrder⟩ := h.head_event hHead (Or.inl rfl)
          obtain ⟨k₁, hUnblock, hChanged, hSteady⟩ := changed_release h (by rw [hEvent]; exact nofun)
          have hTcb : k₁.tcb = k.tcb := by
            rw [hChanged.tcb]
            exact Function.update_eq_self t k.tcb
          have hCurrent := congrArg Vars.pxCurrentTCB hChanged.vars
          have hYield := congrArg Vars.xYieldPending hChanged.vars
          have hShorter : k₁.listCURRENT_LIST_LENGTH .xPendingReadyList < fuel := by
            refine Nat.lt_of_lt_of_le ?_ (Nat.le_of_lt_succ hFuel)
            refine sound_length_lt (i := .xEventListItem t) h.sorted.sound hSteady.sorted.sound (fun j hj => ?_)
              hEvent ?_
            · cases j with
              | xStateListItem u =>
                  have hView : (k₁.view u).state = some .xPendingReadyList := hj
                  by_cases hTask : u = t
                  · rw [hTask, hChanged.here] at hView
                    cases hView
                  · rwa [hChanged.view, Function.update_of_ne hTask] at hView
              | xEventListItem u =>
                  have hView : (k₁.view u).event = some .xPendingReadyList := hj
                  by_cases hTask : u = t
                  · rw [hTask, hChanged.here] at hView
                    cases hView
                  · rwa [hChanged.view, Function.update_of_ne hTask] at hView
            · have hView : (k₁.view t).event ≠ some .xPendingReadyList := by
                rw [hChanged.here]
                exact nofun
              exact hView
          obtain ⟨moved', k', hLoop, hMoved⟩ := ih (hSteady.setYieldPending
            (k₁.xYieldPending || decide ((k₁.tcb t).uxPriority ≥ (k₁.tcb k₁.pxCurrentTCB).uxPriority))) hShorter true
          refine ⟨moved', k', ?_, hMoved.toSteady, hMoved.pending, ?_, fun u => ?_, ?_⟩
          · dsimp only [Item.pvOwner]
            rw [uxListRemove_event hEvent, Option.bind_some, hUnblock, Option.bind_some, raise_eq]
            exact hLoop
          · obtain ⟨y, hVars⟩ := hMoved.vars
            refine ⟨y, hVars.trans ?_⟩
            show { k₁.toVars with xYieldPending := y } = _
            rw [hChanged.vars]
          · rw [hMoved.view]
            show (if (k₁.view u).event = some .xPendingReadyList then (k₁.view u).woken else k₁.view u) = _
            rw [hChanged.view]
            by_cases hTask : u = t
            · subst hTask
              rw [Function.update_self, if_pos hEvent, if_neg]
              exact nofun
            · rw [Function.update_of_ne hTask]
          · rw [hMoved.yield]
            show (k₁.xYieldPending || decide ((k₁.tcb k₁.pxCurrentTCB).uxPriority ≤ (k₁.tcb t).uxPriority)) = true ∨
              (∃ u, (k₁.view u).event = some .xPendingReadyList ∧
                (k₁.tcb k₁.pxCurrentTCB).uxPriority ≤ (k₁.view u).tcb.uxPriority) ↔ _
            rw [Bool.or_eq_true, decide_eq_true_eq, or_assoc, hTcb, hCurrent, hYield]
            refine or_congr_right ?_
            constructor
            · rintro (hFirst | ⟨u, hOther, hMore⟩)
              · exact ⟨t, hEvent, hFirst⟩
              · have hTask : u ≠ t := by
                  rintro rfl
                  rw [hChanged.here] at hOther
                  cases hOther
                rw [hChanged.view, Function.update_of_ne hTask] at hOther hMore
                exact ⟨u, hOther, hMore⟩
            · rintro ⟨u, hOther, hMore⟩
              by_cases hTask : u = t
              · subst hTask
                exact Or.inl hMore
              · refine Or.inr ⟨u, ?_⟩
                rw [hChanged.view, Function.update_of_ne hTask]
                exact ⟨hOther, hMore⟩

theorem Good.setYieldPending (h : Good cfg k) (y : Bool) : Good cfg { k with xYieldPending := y } :=
  ⟨h.toSteady.setYieldPending y, h.pending⟩

/-- A delayed task wakes later than now, and within the range of the ticks. -/
theorem Steady.wakeAt_bounds (h : Steady cfg k) (hWake : k.wakeAt cfg t = some n) :
    k.now cfg < n ∧ n ≤ k.now cfg + cfg.portMAX_DELAY := by
  rw [Kernel.wakeAt, Vars.wakeAt] at hWake
  rw [Kernel.now, Vars.now]
  have hTick := h.tick
  split at hWake
  case isTrue hState =>
    have hTime := h.due t hState
    obtain rfl := Option.some.inj hWake
    omega
  case isFalse =>
    split at hWake
    case isTrue hState =>
      have hTime := (h.placed t).later hState
      rw [Nat.add_mul, Nat.one_mul] at hWake
      obtain rfl := Option.some.inj hWake
      omega
    case isFalse => cases hWake

/-- The task wakes at the time or before it. -/
def Kernel.wakesBy (cfg : Config) (k : Kernel) (n t : Nat) : Bool := (k.wakeAt cfg t).any fun w => w ≤ n

/-- What a number of ticks do, one after the other. -/
structure CaughtUp (cfg : Config) (k k' : Kernel) (n : Nat) : Prop extends Good cfg k' where
  now : k'.now cfg = k.now cfg + n
  others : ∃ y, SameTask { k.toVars with xYieldPending := y } k'.toVars
  view : ∀ t, k'.view t = if k.wakesBy cfg (k.now cfg + n) t then (k.view t).woken else k.view t
  wake : ∀ t, k'.wakeAt cfg t = if k.wakesBy cfg (k.now cfg + n) t then none else k.wakeAt cfg t
  yield : (k.xYieldPending = true ∨ ∃ t, k.wakesBy cfg (k.now cfg + n) t = true ∧
    (k.tcb k.pxCurrentTCB).uxPriority ≤ (k.view t).tcb.uxPriority) → k'.xYieldPending = true

theorem catchUp_spec (h : Good cfg k) (hRun : k.uxSchedulerSuspended = 0) (n : Nat) :
    ∃ k', catchUp cfg n k = some k' ∧ CaughtUp cfg k k' n := by
  induction n generalizing k with
  | zero =>
      have hNone : ∀ t, k.wakesBy cfg (k.now cfg + 0) t = false := by
        intro t
        rw [Kernel.wakesBy]
        cases hWake : k.wakeAt cfg t with
        | none => rfl
        | some w => exact decide_eq_false (Nat.not_le_of_lt (h.wakeAt_bounds hWake).1)
      refine ⟨k, rfl, h, rfl, ⟨_, rfl, rfl, rfl, rfl, rfl, rfl⟩, fun t => ?_, fun t => ?_, ?_⟩
      · rw [hNone]
        rfl
      · rw [hNone]
        rfl
      · rintro (hYield | ⟨t, hWake, _⟩)
        · exact hYield
        · rw [hNone] at hWake
          cases hWake
  | succ n ih =>
      obtain ⟨sw, k₁, hTick, hTicked⟩ := xTaskIncrementTick_spec h hRun
      obtain ⟨k', hLoop, hCaught⟩ := ih (hTicked.toGood.setYieldPending (k₁.xYieldPending || decide (sw = true)))
        (hTicked.others.suspended.trans hRun)
      have hTcb : ∀ t, (k₁.view t).tcb = (k.view t).tcb := by
        intro t
        rw [hTicked.view]
        split <;> rfl
      have hWakes : ∀ t, ({ k₁ with xYieldPending := k₁.xYieldPending || decide (sw = true) } : Kernel).wakesBy cfg
            (k₁.now cfg + n) t =
          (k.wakesBy cfg (k.now cfg + (n + 1)) t && !decide (k.wakeAt cfg t = some (k.now cfg + 1))) := by
        intro t
        show (k₁.wakeAt cfg t).any _ = _
        rw [hTicked.wake, hTicked.now, Nat.add_right_comm, ← Nat.add_assoc]
        split
        case isTrue hNow => simp [hNow]
        case isFalse hLater => simp [hLater, Kernel.wakesBy]
      have hSoon : ∀ t, k.wakeAt cfg t = some (k.now cfg + 1) → k.wakesBy cfg (k.now cfg + (n + 1)) t = true := by
        intro t hNow
        rw [Kernel.wakesBy, hNow]
        exact decide_eq_true (by omega)
      refine ⟨k', ?_, hCaught.toGood, ?_, ?_, fun t => ?_, fun t => ?_, ?_⟩
      · rw [catchUp, hTick, Option.bind_some]
        dsimp only
        rw [raise_eq]
        exact hLoop
      · rw [hCaught.now]
        show k₁.now cfg + n = _
        rw [hTicked.now]
        omega
      · obtain ⟨y, hOthers⟩ := hCaught.others
        have hFirst := hTicked.others
        exact ⟨y, hOthers.current.trans hFirst.current, hOthers.pended.trans hFirst.pended,
          hOthers.suspended.trans hFirst.suspended, hOthers.deleted.trans hFirst.deleted, hOthers.yieldPending,
          hOthers.yield.trans hFirst.yield⟩
      · rw [hCaught.view]
        show (if Kernel.wakesBy cfg _ (k₁.now cfg + n) t = true then (k₁.view t).woken else k₁.view t) = _
        rw [hWakes, hTicked.view]
        by_cases hNow : k.wakeAt cfg t = some (k.now cfg + 1)
        · rw [if_pos hNow, if_pos (hSoon t hNow)]
          simp [hNow]
        · rw [if_neg hNow]
          simp [hNow]
      · rw [hCaught.wake]
        show (if Kernel.wakesBy cfg _ (k₁.now cfg + n) t = true then none else k₁.wakeAt cfg t) = _
        rw [hWakes, hTicked.wake]
        by_cases hNow : k.wakeAt cfg t = some (k.now cfg + 1)
        · rw [if_pos hNow, if_pos (hSoon t hNow)]
          simp [hNow]
        · rw [if_neg hNow]
          simp [hNow]
      · intro hCause
        apply hCaught.yield
        have hFlag : sw = true → (k₁.xYieldPending || decide (sw = true)) = true := by
          intro hSwitch
          rw [decide_eq_true hSwitch, Bool.or_true]
        rcases hCause with hYield | ⟨t, hWake, hMore⟩
        · exact Or.inl (hFlag (hTicked.switch.mpr (Or.inr (Or.inr hYield))))
        · by_cases hNow : k.wakeAt cfg t = some (k.now cfg + 1)
          · exact Or.inl (hFlag (hTicked.switch.mpr (Or.inl ⟨t, hNow, hMore⟩)))
          · refine Or.inr ⟨t, ?_, ?_⟩
            · show Kernel.wakesBy cfg _ (k₁.now cfg + n) t = true
              rw [hWakes, hWake]
              simp [hNow]
            · have hCurrent : k₁.tcb k₁.pxCurrentTCB = k.tcb k.pxCurrentTCB := by
                rw [hTicked.others.current]
                exact hTcb k.pxCurrentTCB
              show (k₁.tcb k₁.pxCurrentTCB).uxPriority ≤ (k₁.view t).tcb.uxPriority
              rw [hCurrent, hTcb]
              exact hMore

/-- The next time to wake, from the list itself. -/
theorem Steady.resetNext (h : Steady cfg k) : Steady cfg (prvResetNextTaskUnblockTime cfg k) := by
  refine ⟨h.toCore.congr rfl rfl rfl rfl rfl rfl, h.selects, h.due, fun t hState => ?_⟩
  have hMem := (h.sorted.sound.member k.pxDelayedTaskList (.xStateListItem t)).mpr hState
  unfold prvResetNextTaskUnblockTime
  dsimp only
  split
  case h_1 hHead =>
    rw [List.head?_eq_none_iff.mp hHead] at hMem
    cases hMem
  case h_2 i hHead =>
    obtain ⟨w, hOrder⟩ := List.head?_eq_some_iff.mp hHead
    exact h.sorted.delayed.head h.sorted.sound hOrder hState

/-- The task waited for the scheduler, or its time has come meanwhile. -/
def Kernel.released (cfg : Config) (k : Kernel) (t : Nat) : Bool :=
  (k.view t).event = some .xPendingReadyList || k.wakesBy cfg (k.now cfg + k.xPendedTicks) t

/-- What it does to resume the scheduler: the time goes on by the pended ticks,
and the released tasks are ready. -/
structure Resumed (cfg : Config) (k k' : Kernel) : Prop extends Good cfg k' where
  now : k'.now cfg = k.now cfg + k.xPendedTicks
  pended : k'.xPendedTicks = 0
  suspended : k'.uxSchedulerSuspended = 0
  current : k'.pxCurrentTCB = k.pxCurrentTCB
  view : ∀ t, k'.view t = if k.released cfg t then (k.view t).woken else k.view t
  wake : ∀ t, k'.wakeAt cfg t = if k.released cfg t then none else k.wakeAt cfg t
  yieldPending : (k.xYieldPending = true ∨ ∃ t, k.released cfg t = true ∧
    (k.tcb k.pxCurrentTCB).uxPriority ≤ (k.view t).tcb.uxPriority) → k'.xYieldPending = true
  yield : k'.portYIELD = (k.portYIELD || k'.xYieldPending)

/-- The moved tasks, then the ticks. -/
theorem Moved.resumed (h : Good cfg k) (hMoved : Moved cfg { k with uxSchedulerSuspended := 0 } k₁)
    (hVars : ∃ n, k'.toVars = { k₁.toVars with xNextTaskUnblockTime := n }) (hView : k'.view = k₁.view)
    {k₂ : Kernel} (hCaught : CaughtUp cfg k' k₂ k.xPendedTicks) (y : Bool)
    (hYield : y = (k.portYIELD || k₂.xYieldPending)) :
    Resumed cfg k { k₂ with xPendedTicks := 0, portYIELD := y } := by
  obtain ⟨n, hVars⟩ := hVars
  obtain ⟨p, hMovedVars⟩ := hMoved.vars
  obtain ⟨q, hOthers⟩ := hCaught.others
  have hAll : k'.toVars =
      { k.toVars with uxSchedulerSuspended := 0, xYieldPending := p, xNextTaskUnblockTime := n } := by
    rw [hVars, hMovedVars]
  have hNow : k'.now cfg = k.now cfg := by
    rw [Kernel.now, hAll]
    rfl
  have hFirst : ∀ t, k'.view t =
      if (k.view t).event = some .xPendingReadyList then (k.view t).woken else k.view t := by
    intro t
    rw [hView, hMoved.view]
    rfl
  have hWake : ∀ t, k'.wakeAt cfg t =
      if (k.view t).event = some .xPendingReadyList then none else k.wakeAt cfg t := by
    intro t
    rw [Kernel.wakeAt, hAll, hFirst]
    split
    case isTrue => exact Vars.wakeAt_woken (h.sorted.congr rfl rfl) _
    case isFalse => rfl
  have hReleased : ∀ t, k.released cfg t =
      (decide ((k.view t).event = some .xPendingReadyList) || k'.wakesBy cfg (k'.now cfg + k.xPendedTicks) t) := by
    intro t
    rw [Kernel.released, Kernel.wakesBy, Kernel.wakesBy, hNow, hWake]
    by_cases hEvent : (k.view t).event = some .xPendingReadyList <;> simp [hEvent]
  have hTcb : ∀ t, (k'.view t).tcb = (k.view t).tcb := by
    intro t
    rw [hFirst]
    split <;> rfl
  refine ⟨⟨⟨hCaught.toCore.congr rfl rfl rfl rfl rfl rfl, hCaught.selects, hCaught.due, hCaught.next⟩,
    hCaught.pending⟩, ?_, rfl, ?_, ?_, fun t => ?_, fun t => ?_, ?_, hYield⟩
  · show k₂.now cfg = _
    rw [hCaught.now, hNow]
  · rw [hOthers.suspended, hAll]
  · rw [hOthers.current, hAll]
  · show k₂.view t = _
    rw [hCaught.view, hReleased, hFirst]
    by_cases hEvent : (k.view t).event = some .xPendingReadyList
    · simp [hEvent, View.woken]
    · simp [hEvent]
  · show k₂.wakeAt cfg t = _
    rw [hCaught.wake, hReleased, hWake]
    by_cases hEvent : (k.view t).event = some .xPendingReadyList
    · simp [hEvent]
    · simp [hEvent]
  · intro hCause
    apply hCaught.yield
    have hCurrent : k'.tcb k'.pxCurrentTCB = k.tcb k.pxCurrentTCB := by
      rw [hAll]
      exact hTcb k.pxCurrentTCB
    have hPending : k'.xYieldPending = k₁.xYieldPending := by rw [hVars]
    rw [hPending, hMoved.yield]
    rcases hCause with hYield | ⟨t, hRelease, hMore⟩
    · exact Or.inl (Or.inl hYield)
    · rw [hReleased, Bool.or_eq_true, decide_eq_true_eq] at hRelease
      rcases hRelease with hEvent | hTime
      · exact Or.inl (Or.inr ⟨t, hEvent, hMore⟩)
      · refine Or.inr ⟨t, hTime, ?_⟩
        rw [hCurrent, hTcb]
        exact hMore

theorem xTaskResumeAll_spec (h : Good cfg k) (hLast : k.uxSchedulerSuspended = 1) :
    ∃ yielded k', xTaskResumeAll cfg k = some (yielded, k') ∧ Resumed cfg k k' := by
  have hStart : Steady cfg { k with uxSchedulerSuspended := 0 } :=
    ⟨h.toCore.congr rfl rfl rfl rfl rfl rfl, h.selects, h.due, h.next⟩
  obtain ⟨moved, k₁, hMove, hMoved⟩ := movePending_spec hStart (Nat.lt_succ_self _) false
  have hGood : Good cfg (if moved then prvResetNextTaskUnblockTime cfg k₁ else k₁) := by
    split
    case isTrue => exact ⟨hMoved.toSteady.resetNext, fun t hEvent => absurd hEvent (hMoved.pending t)⟩
    case isFalse => exact ⟨hMoved.toSteady, fun t hEvent => absurd hEvent (hMoved.pending t)⟩
  have hVars : ∃ n, (if moved then prvResetNextTaskUnblockTime cfg k₁ else k₁).toVars =
      { k₁.toVars with xNextTaskUnblockTime := n } := by
    split
    case isTrue => exact ⟨_, rfl⟩
    case isFalse => exact ⟨_, rfl⟩
  have hView : (if moved then prvResetNextTaskUnblockTime cfg k₁ else k₁).view = k₁.view := by
    split <;> rfl
  obtain ⟨y, hMovedVars⟩ := hMoved.vars
  have hPended : k₁.xPendedTicks = k.xPendedTicks := by rw [hMovedVars]
  have hRun : (if moved then prvResetNextTaskUnblockTime cfg k₁ else k₁).uxSchedulerSuspended = 0 := by
    obtain ⟨n, hSame⟩ := hVars
    rw [hSame]
    dsimp only
    rw [hMovedVars]
  obtain ⟨k₂, hCatch, hCaught⟩ := catchUp_spec hGood hRun k.xPendedTicks
  have hYield : k₂.portYIELD = k.portYIELD := by
    obtain ⟨n, hSame⟩ := hVars
    obtain ⟨q, hOthers⟩ := hCaught.others
    rw [hOthers.yield, hSame]
    dsimp only
    rw [hMovedVars]
  have hCall : xTaskResumeAll cfg k =
      some (if k₂.xYieldPending then (true, { k₂ with xPendedTicks := 0, portYIELD := true })
        else (false, { k₂ with xPendedTicks := 0 })) := by
    rw [xTaskResumeAll, if_neg (by omega)]
    dsimp only
    rw [hLast, if_pos rfl, hMove, Option.bind_some]
    dsimp only
    rw [hPended, hCatch]
    rfl
  by_cases hPending : k₂.xYieldPending = true
  · rw [if_pos hPending] at hCall
    refine ⟨true, _, hCall, hMoved.resumed h hVars hView hCaught true ?_⟩
    rw [hPending, Bool.or_true]
  · rw [if_neg hPending] at hCall
    refine ⟨false, _, hCall, hMoved.resumed h hVars hView hCaught k₂.portYIELD ?_⟩
    rw [hYield, (Bool.not_eq_true _).mp hPending, Bool.or_false]

end FreeRtos.Tasks
