import FreeRtosCpp11.CondVar.Calls

/-! Runs without timed waits. The accounts are exact and every wait is served
by the notifier that popped its entry. -/
namespace FreeRtos.CondVar

set_option linter.unusedSectionVars false

variable {Task Cond Mutex : Type} [DecidableEq Task] [DecidableEq Cond] [DecidableEq Mutex]

/-- The action enters no timed wait and deletes no task that waits or holds the
lock of a list. -/
def untimed (s : St Task Cond Mutex) : Act Task Cond Mutex → Bool
  | .timedwait .. => false
  | a => spares s a

/-- No task is in a timed call or behind one that ran out. -/
structure Patient (s : St Task Cond Mutex) : Prop where
  unread : ∀ t w, (s.pc t).unread = some w → w.timed = false
  late : ∀ t, (s.pc t).late = none
  removed : ∀ t w, s.pc t ≠ .removeUnlock w

section Patience

variable {s s' : St Task Cond Mutex} {a : Act Task Cond Mutex}

/-- A task gives up only when the take of a timed wait answers 0. -/
theorem Step.late (hStep : Step s a s') {t : Task} (hLate : (s'.pc t).late ≠ none) :
    (s.pc t).late ≠ none ∨ ∃ w, s.pc t = .takeRead w ∧ w.timed = true := by
  cases hStep with
  | create | exit | lock | unlock => exact .inl hLate
  | takeRead u w hPc =>
      rcases eq_or_ne t u with rfl | hOther
      · cases hTimed : w.timed with
        | false => simp [hTimed, Pc.late] at hLate
        | true => exact .inr ⟨w, hPc, hTimed⟩
      · exact .inl (by simpa [hOther] using hLate)
  | mutexLockTimeout u w hPc | removeLock u w hPc =>
      left
      rcases eq_or_ne t u with rfl | hOther
      · simp [hPc, Pc.late]
      · simpa [hOther] using hLate
  | give u all c front hPc =>
      left
      rcases eq_or_ne t u with rfl | hOther
      · cases all <;> simp [Pc.late] at hLate
      · simpa [hOther] using hLate
  | delete u | wait u | timedwait u | signal u | broadcast u | waitLock u | push u | waitUnlock u
  | mutexUnlock u | takeBlock u | takeSkip u | wake u | expire u | mutexLock u | remove u
  | removeUnlock u | notifyLock u | popEmpty u | popFront u | notifyUnlock u =>
      left
      rcases eq_or_ne t u with rfl | hOther
      · simp [Pc.late] at hLate
      · simpa [hOther] using hLate

theorem Step.removed (hStep : Step s a s') {t : Task} {w : Wait Cond Mutex}
    (hRemoved : s'.pc t = .removeUnlock w) : s.pc t = .removeUnlock w ∨ s.pc t = .remove w := by
  cases hStep with
  | create | exit | lock | unlock => exact .inl hRemoved
  | remove u v hPc =>
      rcases eq_or_ne t u with rfl | hOther
      · obtain rfl : v = w := by simpa using hRemoved
        exact .inr hPc
      · exact .inl (by simpa [hOther] using hRemoved)
  | give u all c front hPc =>
      left
      rcases eq_or_ne t u with rfl | hOther
      · cases all <;> simp at hRemoved
      · simpa [hOther] using hRemoved
  | delete u | wait u | timedwait u | signal u | broadcast u | waitLock u | push u | waitUnlock u
  | mutexUnlock u | takeBlock u | takeSkip u | wake u | expire u | takeRead u | mutexLock u
  | mutexLockTimeout u | removeLock u | removeUnlock u | notifyLock u | popEmpty u | popFront u
  | notifyUnlock u =>
      left
      rcases eq_or_ne t u with rfl | hOther
      · simp at hRemoved
      · simpa [hOther] using hRemoved

theorem Patient.step (h : Patient s) (hUntimed : CondVar.untimed s a) (hStep : Step s a s') :
    Patient s' where
  unread t w hUnread := by
    rcases hStep.unread hUnread with hBefore | ⟨hTimed, _⟩ | ⟨_, c, m, ticks, rfl⟩
    · exact h.unread t w hBefore
    · exact hTimed
    · cases hUntimed
  late t := by
    by_contra hLate
    rcases hStep.late hLate with hBefore | ⟨w, hPc, hTimed⟩
    · exact hBefore (h.late t)
    · cases hTimed.symm.trans (h.unread t w (by simp [hPc, Pc.unread]))
  removed t w hRemoved := by
    rcases hStep.removed hRemoved with hBefore | hRemove
    · exact h.removed t w hBefore
    · have hLate := h.late t
      simp [hRemove, Pc.late] at hLate

end Patience

theorem Patient.start {s : St Task Cond Mutex} (h : Start s) : Patient s := by
  constructor <;> simp [h.pc, Pc.unread, Pc.late]

theorem Patient.not_remove {s : St Task Cond Mutex} (h : Patient s) (t : Task)
    (w : Wait Cond Mutex) : s.pc t ≠ .remove w := by
  intro hPc
  have hLate := h.late t
  simp [hPc, Pc.late] at hLate

theorem Patient.removeFinds {s : St Task Cond Mutex} {a : Act Task Cond Mutex} (h : Patient s)
    (hUntimed : untimed s a) : removeFinds s a = true := by
  cases a with
  | step t =>
      have hLate := h.late t
      cases hPc : s.pc t <;> simp_all [CondVar.removeFinds, Pc.late]
  | timedwait => rfl
  | _ => exact hUntimed

section Waits

variable [Fintype Task] [Fintype Cond] {s s' : St Task Cond Mutex} {a : Act Task Cond Mutex}
  {during : History Task Cond Mutex} {t : Task} {c : Cond} {m : Mutex}

/-- A wait between its push and the end of its take: what was popped and
notified of its token, and what was not yet. -/
def Waiting (t : Task) (c : Cond) (during : History Task Cond Mutex) (s : St Task Cond Mutex) : Prop :=
  ∃ v later, Pushes t c during v later ∧ takes t c later + (s.que c).count t = 1 ∧
    raises t later = (s.note t).ulNotifiedValue

/-- How far an untimed wait has come, by the statement it is at. -/
def WaitAt (t : Task) (c : Cond) (m : Mutex) (during : History Task Cond Mutex)
    (s : St Task Cond Mutex) : Prop :=
  match s.pc t with
  | .waitLock w | .push w => w = ⟨false, c, m, portMaxDelay⟩
  | .waitUnlock w | .mutexUnlock w | .take w | .blocked w | .takeRead w =>
      w = ⟨false, c, m, portMaxDelay⟩ ∧ Waiting t c during s
  | .mutexLock w false => w = ⟨false, c, m, portMaxDelay⟩ ∧ ∃ v later, Waits t c during v later
  | .idle => s.mtx m = some t ∧ ∃ v later, Waits t c during v later
  | _ => False

theorem Pushes.snoc {v : St Task Cond Mutex} {later : History Task Cond Mutex}
    (h : Pushes t c during v later) (step : St Task Cond Mutex × Act Task Cond Mutex) :
    Pushes t c (during ++ [step]) v (later ++ [step]) where
  cut := by
    obtain ⟨first, rfl⟩ := h.cut
    exact ⟨first, by simp⟩
  push := h.push

theorem Waiting.step (hWaiting : Waiting t c during s) (hStep : Step s a s')
    (hNext : next s a = some s') (hLive : s.live t = true) (hSpared : a ≠ .delete t)
    (hPush : ∀ w, a = .step t → s.pc t ≠ .push w) (hRead : ∀ w, a = .step t → s.pc t ≠ .takeRead w)
    (hRemove : ∀ v w, s.pc v ≠ .remove w) : Waiting t c (during ++ [(s, a)]) s' := by
  obtain ⟨v, later, hPushes, hTakes, hRaises⟩ := hWaiting
  have hCount := hStep.count_que hNext t c hPush hRemove
  have hNote := hStep.count_note hNext hLive hSpared hRead
  refine ⟨v, later ++ [(s, a)], hPushes.snoc (s, a), ?_, ?_⟩
  · rw [takes_snoc]
    omega
  · rw [raises_snoc, hRaises, hNote]

/-- After its take a waiter has no entry and no notification. -/
theorem Waits.snoc {v : St Task Cond Mutex} {later : History Task Cond Mutex}
    (hWaits : Waits t c during v later) (hNext : next s a = some s') (h : Accounted s)
    (h' : Accounted s') (hBefore : (s.pc t).listed = none) (hAfter : (s'.pc t).listed = none) :
    Waits t c (during ++ [(s, a)]) v (later ++ [(s, a)]) where
  toPushes := hWaits.toPushes.snoc (s, a)
  popped := by
    have hNone : taken c (s, a) ≠ some t := by
      intro hTaken
      cases hBefore.symm.trans (h.entry c t (mem_of_taken hTaken))
    rw [takes_snoc, if_neg hNone, hWaits.popped]
  notified := by
    have hTokens := h'.tokens t
    rw [hAfter, CondVar.tokens] at hTokens
    have hQuiet : notifies t (s, a) = false := by
      simp only [Option.isSome_none, Bool.false_eq_true, if_false] at hTokens
      simp only [notifies, hNext, Option.any_some, beq_eq_false_iff_ne]
      omega
    rw [raises_snoc, hWaits.notified, hQuiet]
    rfl

/-- Steps of others leave an untimed wait where it is. -/
theorem WaitAt.step_of_ne (hAt : WaitAt t c m during s) (h : Accounted s) (h' : Accounted s')
    (hPatient : Patient s) (hNext : next s a = some s') (hActor : a ≠ .step t)
    (hExpire : a ≠ .expire t) (hSpared : a ≠ .delete t) (hInside : s.pc t ≠ .idle) :
    WaitAt t c m (during ++ [(s, a)]) s' := by
  have hStep := step_of_next hNext
  have hSame := hStep.pc_of_ne hActor hExpire hSpared hInside
  have hMiddle : Waiting t c during s → Waiting t c (during ++ [(s, a)]) s' := fun hWaiting =>
    hWaiting.step hStep hNext (h.live_of_inside hInside) hSpared (fun _ hAct => absurd hAct hActor)
      (fun _ hAct => absurd hAct hActor) hPatient.not_remove
  unfold WaitAt at hAt ⊢
  rw [hSame]
  cases hPc : s.pc t <;> simp only [hPc] at hAt ⊢
  case waitLock w => exact hAt
  case push w => exact hAt
  case waitUnlock w => exact ⟨hAt.1, hMiddle hAt.2⟩
  case mutexUnlock w => exact ⟨hAt.1, hMiddle hAt.2⟩
  case take w => exact ⟨hAt.1, hMiddle hAt.2⟩
  case blocked w => exact ⟨hAt.1, hMiddle hAt.2⟩
  case takeRead w => exact ⟨hAt.1, hMiddle hAt.2⟩
  case mutexLock w fTimeout =>
    cases fTimeout with
    | false =>
        obtain ⟨rfl, v, later, hWaits⟩ := hAt
        refine ⟨rfl, v, _, hWaits.snoc hNext h h' ?_ ?_⟩
        · simp [hPc, Pc.listed, Pc.waiting, Pc.late]
        · simp [hSame, hPc, Pc.listed, Pc.waiting, Pc.late]
    | true => exact hAt
  case idle => exact absurd hPc hInside

/-- The moves of a waiter take its wait forward. -/
theorem WaitAt.step_self (hAt : WaitAt t c m during s) (h : Accounted s) (h' : Accounted s')
    (hPatient : Patient s) (hNext : next s a = some s') (hActor : a = .step t ∨ a = .expire t)
    (hInside : s.pc t ≠ .idle) : WaitAt t c m (during ++ [(s, a)]) s' := by
  have hStep := step_of_next hNext
  have hLive := h.live_of_inside hInside
  have hSpared : a ≠ .delete t := by rcases hActor with rfl | rfl <;> simp
  have hMiddle : (∀ w, s.pc t ≠ .push w) → (∀ w, s.pc t ≠ .takeRead w) → Waiting t c during s →
      Waiting t c (during ++ [(s, a)]) s' := fun hPush hRead hWaiting =>
    hWaiting.step hStep hNext hLive hSpared (fun w _ => hPush w) (fun w _ => hRead w)
      hPatient.not_remove
  unfold WaitAt at hAt
  cases hStep with
  | waitLock u w hPc =>
      obtain rfl : u = t := by simpa using hActor
      rw [hPc] at hAt
      simpa [WaitAt] using hAt
  | push u w hPc =>
      obtain rfl : u = t := by simpa using hActor
      rw [hPc] at hAt
      subst hAt
      have hTokens := h.tokens u
      simp only [hPc, Pc.listed, Pc.waiting, Pc.late, CondVar.tokens] at hTokens
      have hNone : u ∉ s.que c := by
        intro hMem
        simpa [hPc, Pc.listed, Pc.waiting, Pc.late] using h.entry c u hMem
      simp only [WaitAt, St.setPc_pc, Function.update_self, true_and]
      refine ⟨s, [], ⟨⟨during, rfl⟩, _, hNext, by simp⟩, ?_, ?_⟩
      · simp [takes, List.count_eq_zero.mpr hNone]
      · simp_all [raises]
  | waitUnlock u w hPc | mutexUnlock u w hPc | takeBlock u w hPc | takeSkip u w hPc
  | wake u w hPc | expire u w hPc =>
      obtain rfl : u = t := by simpa using hActor
      rw [hPc] at hAt
      have hAfter := hMiddle (by simp [hPc]) (by simp [hPc]) hAt.2
      simpa only [WaitAt, St.setPc_pc, Function.update_self] using ⟨hAt.1, hAfter⟩
  | takeRead u w hPc =>
      obtain rfl : u = t := by simpa using hActor
      rw [hPc] at hAt
      obtain ⟨rfl, v, later, hPushes, hTakes, hRaises⟩ := hAt
      have hValue := h.read u _ hPc rfl
      have hTotal := h.tokens_le u
      have hQueued := count_le_queued s c u
      have hTaken : taken c (s, .step u) = none := taken_of_same hNext rfl
      have hQuiet : notifies u (s, .step u) = false := by simp [notifies, hNext]
      simp only [WaitAt, St.setPc_pc, Function.update_self, Bool.false_and, true_and]
      refine ⟨v, _, hPushes.snoc _, ?_, ?_⟩
      · rw [takes_snoc, hTaken]
        simp only [reduceCtorEq, if_false]
        omega
      · rw [raises_snoc, hQuiet, hRaises]
        simp only [Bool.false_eq_true, if_false]
        omega
  | mutexLock u w hPc =>
      obtain rfl : u = t := by simpa using hActor
      rw [hPc] at hAt
      obtain ⟨rfl, v, later, hWaits⟩ := hAt
      have hAfter := hWaits.snoc hNext h h' (by simp [hPc, Pc.listed, Pc.waiting, Pc.late])
        (by simp [Pc.listed, Pc.waiting, Pc.late])
      simpa [WaitAt] using ⟨v, _, hAfter⟩
  | _ => simp_all

end Waits

section Exactness

variable [Fintype Task] [Fintype Cond] {s s' : St Task Cond Mutex} {a : Act Task Cond Mutex}
  {trace : History Task Cond Mutex}

/-- The untimed protocol, seen from a reachable state and the history that led
to it. -/
structure Exact (trace : History Task Cond Mutex) (s : St Task Cond Mutex) : Prop where
  /-- One token between the push and the return of `ulTaskNotifyTake`. -/
  tokens : ∀ t, tokens s t = if (s.pc t).waiting.isSome then 1 else 0
  /-- The take of a wait goes through exactly when a notifier popped the entry
  of this wait and notified the task. -/
  passes : ∀ t w, s.pc t = .take w ∨ s.pc t = .blocked w →
    ((∃ s', next s (.step t) = some s' ∧ s'.pc t = .takeRead w) ↔
      served t trace = 1 ∧ ∀ u all c, s.pc u ≠ .give all c t)
  /-- A wait behind its take was popped by one notifier. -/
  past : ∀ t w fTimeout, s.pc t = .takeRead w ∨ s.pc t = .mutexLock w fTimeout →
    served t trace = 1
  /-- A popped handle is in a wait on the same condition variable. -/
  handed : ∀ u all c t, s.pc u = .give all c t → (s.pc t).waiting = some c
  /-- A task that holds a queue lock is never stuck there. -/
  enabled : ∀ u, (s.pc u).locks ≠ none → (next s (.step u)).isSome
  /-- Handles leave a list in the order in which they were pushed. -/
  order : ∀ c, pushes c trace = pops c trace ++ s.que c
  /-- A broadcast that came back popped all the handles queued when it took the
  lock and notified each of them, a signal the first of them. -/
  serves : ∀ all u c v during, Answered u trace s (v, notify all u c) during →
    ∃ w held, Serves all u c during w held
  /-- A wait that came back was popped once and notified once after its push,
  and its caller has the mutex. -/
  wait : ∀ t c m v during, Answered t trace s (v, .wait t c m) during →
    s.mtx m = some t ∧ ∃ w later, Waits t c during w later
  /-- A notifier that takes the lock finds each waiter queued or notified. -/
  finds : ∀ u all c t, s.pc u = .notifyLock all c → s.sem c = none →
    (s.pc t).waiting = some c → t ∈ s.que c ∨ (s.note t).ulNotifiedValue = 1

/-- What a waiter at its take does next depends on its notification alone. -/
theorem Accounted.passes_iff (h : Accounted s) {t : Task} {w : Wait Cond Mutex}
    (hPc : s.pc t = .take w ∨ s.pc t = .blocked w) (hUntimed : w.timed = false) :
    (∃ s', next s (.step t) = some s' ∧ s'.pc t = .takeRead w) ↔
      (s.note t).ulNotifiedValue ≠ 0 := by
  rcases hPc with hPc | hPc
  · have hTicks : 0 < w.ticks := by
      rw [h.untimed t w (by simp [hPc, Pc.unread]) hUntimed]
      decide
    by_cases hZero : (s.note t).ulNotifiedValue = 0 <;>
      simp [next, advance, hPc, hZero, hTicks]
  · rw [Ne, ← h.alert t w hPc]
    by_cases hState : (s.note t).ucNotifyState = .waiting <;>
      simp [next, advance, hPc, hState]

theorem isSome_of_locks (u : Task) (h : (s.pc u).locks ≠ none) : (next s (.step u)).isSome := by
  cases hPc : s.pc u <;> simp only [hPc, Pc.locks, ne_eq, not_true_eq_false] at h
  case pop all c => cases hQue : s.que c <;> simp [next, advance, hPc, hQue]
  all_goals simp [next, advance, hPc]

/-- A wait behind its take was served. -/
theorem Audited.served_of_past (h : Audited trace s) (hPatient : Patient s) {t : Task}
    {w : Wait Cond Mutex} {fTimeout : Bool}
    (hPc : s.pc t = .takeRead w ∨ s.pc t = .mutexLock w fTimeout) : CondVar.served t trace = 1 := by
  have hServed := h.served t
  rcases hPc with hPc | hPc
  · have hListed : (s.pc t).listed = some w.cond := by simp [hPc, Pc.listed, Pc.waiting]
    have hTimed := hPatient.unread t w (by simp [hPc, Pc.unread])
    exact ((h.value_ne_zero_iff hListed).mp (h.read t w hPc hTimed)).1
  · have hLate := hPatient.late t
    cases fTimeout with
    | false => simpa [hPc, ServedAt] using hServed
    | true => simp [hPc, Pc.late] at hLate

theorem Accounted.waiting_of_give (h : Accounted s) (hPatient : Patient s) {u t : Task} {all : Bool}
    {c : Cond} (hPc : s.pc u = .give all c t) : (s.pc t).waiting = some c := by
  have hLate := hPatient.late t
  simpa [Pc.listed, hLate] using h.hand u all c t hPc

/-- Every step of a run without timed waits is taken with the accounts in order. -/
theorem accounted_of_untimed {s₀ : St Task Cond Mutex} (hStart : Start s₀)
    (run : (system Task Cond Mutex).Run s₀ trace s) (hUntimed : Transition.Guarded untimed trace) :
    (Accounted s ∧ Patient s) ∧
      (system Task Cond Mutex).AtEachStep trace fun _ t a u =>
        (Accounted t ∧ Patient t) ∧ Accounted u ∧ untimed t a := by
  have hStep : ∀ (t : St Task Cond Mutex) a u, Accounted t ∧ Patient t → untimed t a →
      next t a = some u → Accounted u ∧ Patient u := by
    rintro t a u ⟨h, hPatient⟩ hGuard hNext
    have hStep := step_of_next hNext
    exact ⟨h.step (hPatient.removeFinds hGuard) hStep, hPatient.step hGuard hStep⟩
  have hFirst : Accounted s₀ ∧ Patient s₀ := ⟨.start hStart, .start hStart⟩
  refine ⟨run.invariant hUntimed hFirst hStep, ?_⟩
  exact run.atEachStep (P := fun _ t => Accounted t ∧ Patient t) hUntimed hFirst (fun _ => hStep)
    fun _ t a u h hGuard hNext => ⟨h, (hStep t a u h hGuard hNext).1, hGuard⟩

theorem waits_of_answered {s₀ v : St Task Cond Mutex} {during : History Task Cond Mutex} {t : Task}
    {c : Cond} {m : Mutex} (run : (system Task Cond Mutex).Run s₀ trace s)
    (hEach : (system Task Cond Mutex).AtEachStep trace fun _ t a u =>
      (Accounted t ∧ Patient t) ∧ Accounted u ∧ untimed t a)
    (h : Answered t trace s (v, .wait t c m) during) :
    s.mtx m = some t ∧ ∃ w later, Waits t c during w later := by
  have hAt : WaitAt t c m during s := by
    refine h.history run hEach (P := WaitAt t c m) ?_ ?_
    · intro past w _ hNext
      have hStep : Step v (.wait t c m) w := step_of_next hNext
      cases hStep
      simp [WaitAt]
    · rintro past done w a x hMem hInside ⟨⟨hAccounted, hPatient⟩, hAfter, _⟩ hNext hAt
      have hBusy : w.pc t ≠ .idle := by simpa using hInside
      by_cases hActor : a = .step t ∨ a = .expire t
      · exact hAt.step_self hAccounted hAfter hPatient hNext hActor hBusy
      · rw [not_or] at hActor
        exact hAt.step_of_ne hAccounted hAfter hPatient hNext hActor.1 hActor.2
          (h.spared (w, a) hMem) hBusy
  have hIdle : s.pc t = .idle := by simpa using h.back
  simpa [WaitAt, hIdle] using hAt

/-- In every run without timed waits, from any start and under any scheduling,
the protocol is exact. -/
theorem exact_of_untimed (hRun : (system Task Cond Mutex).Reaches trace s)
    (hUntimed : Transition.Guarded untimed trace) : Exact trace s := by
  obtain ⟨s₀, hStart, run⟩ := hRun
  obtain ⟨⟨_, hPatient⟩, hEach⟩ := accounted_of_untimed hStart run hUntimed
  have hFinds : Transition.Guarded removeFinds trace :=
    run.atEachStep_guard.mp fun past t a later hTrace u hNext =>
      have hHere := hEach past t a later hTrace u hNext
      hHere.1.2.removeFinds hHere.2.2
  have hAudit := audited_of_reaches ⟨s₀, hStart, run⟩ hFinds
  have hOrder : ∀ c, pushes c trace = pops c trace ++ s.que c := by
    refine run.history_of_atEachStep (P := fun trace s => ∀ c, pushes c trace = pops c trace ++ s.que c)
      hEach (fun c => by simp [pushes, pops, hStart.que]) ?_
    rintro trace t a u h ⟨⟨_, hBefore⟩, _⟩ hNext c
    exact order_step hBefore.not_remove (step_of_next hNext) c (h c)
  refine ⟨fun t => ?_, fun t w hPc => ?_, fun t w fTimeout hPc => ?_, ?_, fun u => isSome_of_locks u,
    hOrder, ?_, ?_, fun u all c t hPc hFree hWaiting => ?_⟩
  · have hLate := hPatient.late t
    simpa [Pc.listed, hLate] using hAudit.tokens t
  · have hListed : (s.pc t).listed = some w.cond := by
      rcases hPc with hPc | hPc <;> simp [hPc, Pc.listed, Pc.waiting]
    have hUnread : (s.pc t).unread = some w := by
      rcases hPc with hPc | hPc <;> simp [hPc, Pc.unread]
    rw [hAudit.passes_iff hPc (hPatient.unread t w hUnread), hAudit.value_ne_zero_iff hListed]
  · exact hAudit.served_of_past hPatient hPc
  · exact fun u all c t => hAudit.waiting_of_give hPatient
  · intro all u c v during hAnswered
    refine serves_of_answered run (fun past t a later hTrace w hNext => ?_) hAnswered
    obtain ⟨⟨h, hBefore⟩, _⟩ := hEach past t a later hTrace w hNext
    exact ⟨h, fun v all d t _ => h.waiting_of_give hBefore⟩
  · exact fun t c m v during hAnswered => waits_of_answered run hEach hAnswered
  · exact hAudit.found hFree hWaiting

end Exactness

/-- One task waits and another one signals. -/
def handover (t u : Task) (c : Cond) (m : Mutex) : List (Act Task Cond Mutex) :=
  [.lock t m, .wait t c m, .step t, .step t, .step t, .step t, .step t,
    .signal u c, .step u, .step u, .step u, .step u, .step t, .step t, .step t]

theorem exact_of_untimed_handover :
    ∃ s, (system (Fin 2) (Fin 1) (Fin 1)).exec (boot fun _ => true) (handover 0 1 0 0) = some s ∧
      Exact ((system (Fin 2) (Fin 1) (Fin 1)).replay (boot fun _ => true) (handover 0 1 0 0)) s :=
  ⟨_, rfl, exact_of_untimed ⟨_, boot_start _, Transition.System.run_of_exec (handover 0 1 0 0) rfl⟩
    (by decide)⟩

end FreeRtos.CondVar
