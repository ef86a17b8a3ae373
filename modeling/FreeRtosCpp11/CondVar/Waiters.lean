import FreeRtosCpp11.CondVar.Tokens

/-! Where tasks stand with respect to the lists, the locks and their tokens. -/
namespace FreeRtos.CondVar

set_option linter.unusedSectionVars false

variable {Task Cond Mutex : Type} [DecidableEq Task] [DecidableEq Cond] [DecidableEq Mutex]

namespace Pc

/-- The condition variable of a task between its push and the return of its
`ulTaskNotifyTake`. -/
def waiting : Pc Task Cond Mutex → Option Cond
  | .waitUnlock w | .mutexUnlock w | .take w | .blocked w | .takeRead w => some w.cond
  | _ => none

/-- The condition variable of a task whose `ulTaskNotifyTake` answered 0 and
which has not yet removed its entry. -/
def late : Pc Task Cond Mutex → Option Cond
  | .mutexLock w true | .removeLock w | .remove w => some w.cond
  | _ => none

/-- The condition variable whose list may hold the task. -/
def listed (p : Pc Task Cond Mutex) : Option Cond := p.waiting.or p.late

/-- The condition variable whose semaphore the task has taken. -/
def locks : Pc Task Cond Mutex → Option Cond
  | .push w | .waitUnlock w | .remove w | .removeUnlock w => some w.cond
  | .pop _ c | .give _ c _ | .notifyUnlock _ c => some c
  | _ => none

/-- The mutex that the caller of a wait holds at this statement. -/
def holds : Pc Task Cond Mutex → Option Mutex
  | .waitLock w | .push w | .waitUnlock w | .mutexUnlock w => some w.mutex
  | .removeLock w | .remove w | .removeUnlock w => some w.mutex
  | _ => none

/-- The call of a task that has not read its notification count yet. -/
def unread : Pc Task Cond Mutex → Option (Wait Cond Mutex)
  | .waitLock w | .push w | .waitUnlock w | .mutexUnlock w | .take w | .blocked w
  | .takeRead w => some w
  | _ => none

end Pc

/-- A deletion finds the task outside every queue lock, and with no entry and no
popped handle that would outlive it. -/
def spares (s : St Task Cond Mutex) : Act Task Cond Mutex → Bool
  | .delete t =>
      (s.pc t).locks.isNone && ((s.pc t).listed.isNone || (s.note t).ulNotifiedValue != 0)
  | _ => true

theorem spares_delete {s : St Task Cond Mutex} {t : Task} (h : spares s (.delete t)) :
    (s.pc t).locks = none ∧ ((s.pc t).listed = none ∨ (s.note t).ulNotifiedValue ≠ 0) := by
  simpa [spares] using h

/-- The semaphores that tasks are between `lock` and `unlock` of. -/
def claims (s : St Task Cond Mutex) (t : Task) : Option Cond := (s.pc t).locks

/-- No deleted task is inside the functions, the semaphores are taken by the
tasks between their `lock` and `unlock`, and a waiting caller holds its mutex
outside `ulTaskNotifyTake`. -/
structure Locked (s : St Task Cond Mutex) : Prop where
  dead : ∀ t, s.live t = false → s.pc t = .idle
  sem : Transition.Owned s.sem (claims s)
  mtx : ∀ m t, (s.pc t).holds = some m → s.mtx m = some t

/-- What a wait that has not returned from `ulTaskNotifyTake` knows of its own
notification. -/
structure Counted (s : St Task Cond Mutex) : Prop where
  untimed : ∀ t w, (s.pc t).unread = some w → w.timed = false → w.ticks = portMaxDelay
  alert : ∀ t w, s.pc t = .blocked w →
    ((s.note t).ucNotifyState = .waiting ↔ (s.note t).ulNotifiedValue = 0)
  read : ∀ t w, s.pc t = .takeRead w → w.timed = false → (s.note t).ulNotifiedValue ≠ 0

theorem claims_setPc (s : St Task Cond Mutex) (t : Task) (p : Pc Task Cond Mutex) :
    claims (s.setPc t p) = Function.update (claims s) t p.locks := by
  funext u
  rcases eq_or_ne u t with rfl | hOther
  · simp [claims]
  · simp [claims, hOther]

/-- A move between statements of one critical section, or of none. -/
theorem claims_setPc_of_eq {s : St Task Cond Mutex} {t : Task} {p : Pc Task Cond Mutex}
    (h : p.locks = (s.pc t).locks) : claims (s.setPc t p) = claims s := by
  rw [claims_setPc, h]
  exact Function.update_eq_self t (claims s)

section Steps

variable {s s' : St Task Cond Mutex} {a : Act Task Cond Mutex} (hStep : Step s a s')
include hStep

theorem Step.dead (h : ∀ t, s.live t = false → s.pc t = .idle) :
    ∀ t, s'.live t = false → s'.pc t = .idle := by
  intro t hDead
  cases hStep with
  | create u hLive =>
      rcases eq_or_ne t u with rfl | hOther
      · exact h t hLive
      · exact h t (by simpa [hOther] using hDead)
  | exit u hLive hPc =>
      rcases eq_or_ne t u with rfl | hOther
      · exact hPc
      · exact h t (by simpa [hOther] using hDead)
  | delete u hLive =>
      rcases eq_or_ne t u with rfl | hOther
      · simp
      · simpa [hOther] using h t (by simpa [hOther] using hDead)
  | lock | unlock => exact h t hDead
  | wait u c m hLive | timedwait u c m ticks hLive | signal u c hLive | broadcast u c hLive =>
      have hOther : t ≠ u := by
        rintro rfl
        cases hDead.symm.trans hLive
      simpa [hOther] using h t hDead
  | push u w hPc | waitLock u w hPc | waitUnlock u w hPc | mutexUnlock u w hPc
  | takeBlock u w hPc | takeSkip u w hPc | wake u w hPc | expire u w hPc | takeRead u w hPc
  | mutexLock u w hPc | mutexLockTimeout u w hPc | removeLock u w hPc | remove u w hPc
  | removeUnlock u w hPc | notifyLock u all c hPc | popEmpty u all c hPc
  | popFront u all c front rest hPc | give u all c front hPc | notifyUnlock u all c hPc =>
      have hOther : t ≠ u := by
        rintro rfl
        cases (h t hDead).symm.trans hPc
      simpa [hOther] using h t hDead

theorem Step.sem (hSpares : spares s a) (h : Transition.Owned s.sem (claims s)) :
    Transition.Owned s'.sem (claims s') := by
  cases hStep with
  | create | exit | lock | unlock => exact h
  | delete t hLive =>
      have hLocks : (Pc.idle : Pc Task Cond Mutex).locks = (s.pc t).locks :=
        (spares_delete hSpares).1.symm
      change Transition.Owned s.sem (claims (s.setPc t .idle))
      rw [claims_setPc_of_eq hLocks]
      exact h
  | wait t c m hLive hPc | timedwait t c m ticks hLive hPc | signal t c hLive hPc
  | broadcast t c hLive hPc | wake t w hPc | expire t w hPc | mutexUnlock t w hPc
  | mutexLock t w hPc | mutexLockTimeout t w hPc | popEmpty t all c hPc | push t w hPc
  | remove t w hPc | popFront t all c front rest hPc | takeBlock t w hPc | takeSkip t w hPc
  | takeRead t w hPc =>
      rw [claims_setPc_of_eq (by simp [Pc.locks, hPc])]
      exact h
  | give t all c front hPc =>
      rw [claims_setPc_of_eq (by cases all <;> simp [Pc.locks, hPc])]
      exact h
  | waitLock t w hPc hFree | removeLock t w hPc hFree | notifyLock t all c hPc hFree =>
      rw [claims_setPc]
      exact h.acquire hFree (by simp [claims, hPc, Pc.locks])
  | waitUnlock t w hPc | removeUnlock t w hPc | notifyUnlock t all c hPc =>
      rw [claims_setPc]
      exact h.release (by simp [claims, hPc, Pc.locks])

theorem Step.mtx (h : ∀ m t, (s.pc t).holds = some m → s.mtx m = some t) :
    ∀ m t, (s'.pc t).holds = some m → s'.mtx m = some t := by
  intro m t hHolds
  cases hStep with
  | create | exit => exact h m t hHolds
  | delete u hLive =>
      rcases eq_or_ne t u with rfl | hOther
      · simp [Pc.holds] at hHolds
      · exact h m t (by simpa [hOther] using hHolds)
  | lock u n hPc hFree =>
      have hOther : m ≠ n := by
        rintro rfl
        cases (h m t hHolds).symm.trans hFree
      simpa [hOther] using h m t hHolds
  | unlock u n hPc hHeld =>
      have hOther : m ≠ n := by
        rintro rfl
        cases (h m t hHolds).symm.trans hHeld
        simp [hPc, Pc.holds] at hHolds
      simpa [hOther] using h m t hHolds
  | wait u c n hLive hPc hHeld | timedwait u c n ticks hLive hPc hHeld =>
      rcases eq_or_ne t u with rfl | hOther
      · have hSame : n = m := by simpa [Pc.holds] using hHolds
        exact hSame ▸ hHeld
      · exact h m t (by simpa [hOther] using hHolds)
  | mutexUnlock u w hPc hHeld =>
      rcases eq_or_ne t u with rfl | hOther
      · simp [Pc.holds] at hHolds
      · have hOwner := h m t (by simpa [hOther] using hHolds)
        have hMutex : m ≠ w.mutex := by
          rintro rfl
          exact hOther (Option.some.inj (hOwner.symm.trans hHeld))
        simpa [hMutex] using hOwner
  | mutexLock u w hPc hFree | mutexLockTimeout u w hPc hFree =>
      rcases eq_or_ne t u with rfl | hOther
      · simp_all [Pc.holds]
      · have hOwner := h m t (by simpa [hOther] using hHolds)
        have hMutex : m ≠ w.mutex := by
          rintro rfl
          cases hOwner.symm.trans hFree
        simpa [hMutex] using hOwner
  | waitLock u w hPc | push u w hPc | waitUnlock u w hPc | removeLock u w hPc | remove u w hPc =>
      apply h m t
      rcases eq_or_ne t u with rfl | hOther
      · simpa [hPc, Pc.holds] using hHolds
      · simpa [hOther] using hHolds
  | signal u | broadcast u | takeBlock u | takeSkip u | wake u | expire u | takeRead u
  | removeUnlock u | notifyLock u | popEmpty u | popFront u | notifyUnlock u =>
      apply h m t
      rcases eq_or_ne t u with rfl | hOther
      · simp [Pc.holds] at hHolds
      · simpa [hOther] using hHolds
  | give u all c front hPc =>
      apply h m t
      rcases eq_or_ne t u with rfl | hOther
      · cases all <;> simp [Pc.holds] at hHolds
      · simpa [hOther] using hHolds

/-- A call whose notification count was not read yet was so before the step,
or was entered by it. -/
theorem Step.unread {t : Task} {w : Wait Cond Mutex} (hUnread : (s'.pc t).unread = some w) :
    (s.pc t).unread = some w ∨ w.timed = false ∧ w.ticks = portMaxDelay ∨
      w.timed = true ∧ ∃ c m ticks, a = .timedwait t c m ticks := by
  cases hStep with
  | create | exit | lock | unlock => exact .inl hUnread
  | wait u c m hLive hPc =>
      rcases eq_or_ne t u with rfl | hOther
      · simp only [St.setPc_pc, Function.update_self, Pc.unread, Option.some.injEq] at hUnread
        exact .inr (.inl (hUnread ▸ ⟨rfl, rfl⟩))
      · exact .inl (by simpa [hOther] using hUnread)
  | timedwait u c m ticks hLive hPc =>
      rcases eq_or_ne t u with rfl | hOther
      · simp only [St.setPc_pc, Function.update_self, Pc.unread, Option.some.injEq] at hUnread
        exact .inr (.inr (hUnread ▸ ⟨rfl, c, m, ticks, rfl⟩))
      · exact .inl (by simpa [hOther] using hUnread)
  | waitLock u w hPc | push u w hPc | waitUnlock u w hPc | mutexUnlock u w hPc
  | takeBlock u w hPc | takeSkip u w hPc | wake u w hPc | expire u w hPc =>
      left
      rcases eq_or_ne t u with rfl | hOther
      · simpa [hPc, Pc.unread] using hUnread
      · simpa [hOther] using hUnread
  | delete u | signal u | broadcast u | takeRead u | mutexLock u | mutexLockTimeout u
  | removeLock u | remove u | removeUnlock u | notifyLock u | popEmpty u | popFront u
  | notifyUnlock u =>
      left
      rcases eq_or_ne t u with rfl | hOther
      · simp [Pc.unread] at hUnread
      · simpa [hOther] using hUnread
  | give u all c front hPc =>
      left
      rcases eq_or_ne t u with rfl | hOther
      · cases all <;> simp [Pc.unread] at hUnread
      · simpa [hOther] using hUnread

theorem Step.untimed
    (h : ∀ t w, (s.pc t).unread = some w → w.timed = false → w.ticks = portMaxDelay) :
    ∀ t w, (s'.pc t).unread = some w → w.timed = false → w.ticks = portMaxDelay := by
  intro t w hUnread hUntimed
  rcases hStep.unread hUnread with hBefore | ⟨_, hTicks⟩ | ⟨hTimed, _⟩
  · exact h t w hBefore hUntimed
  · exact hTicks
  · cases hUntimed.symm.trans hTimed

theorem Step.locked (hSpares : spares s a) (h : Locked s) : Locked s' where
  dead := hStep.dead h.dead
  sem := hStep.sem hSpares h.sem
  mtx := hStep.mtx h.mtx

/-- A task blocks with count zero, and only a notification changes that. -/
theorem Step.alert (hDead : ∀ t, s.live t = false → s.pc t = .idle)
    (h : ∀ t w, s.pc t = .blocked w →
      ((s.note t).ucNotifyState = .waiting ↔ (s.note t).ulNotifiedValue = 0)) :
    ∀ t w, s'.pc t = .blocked w →
      ((s'.note t).ucNotifyState = .waiting ↔ (s'.note t).ulNotifiedValue = 0) := by
  intro t v hBlocked
  cases hStep with
  | create u hLive =>
      have hOther : t ≠ u := by
        rintro rfl
        cases (hDead t hLive).symm.trans hBlocked
      simpa [hOther] using h t v hBlocked
  | delete u hLive =>
      rcases eq_or_ne t u with rfl | hOther
      · simp at hBlocked
      · simpa [hOther] using h t v (by simpa [hOther] using hBlocked)
  | exit | lock | unlock => exact h t v hBlocked
  | takeBlock u w hPc hZero =>
      rcases eq_or_ne t u with rfl | hOther
      · simp [Notification.announce, hZero]
      · simpa [hOther] using h t v (by simpa [hOther] using hBlocked)
  | takeSkip u w hPc | takeRead u w hPc =>
      rcases eq_or_ne t u with rfl | hOther
      · simp at hBlocked
      · simpa [hOther] using h t v (by simpa [hOther] using hBlocked)
  | give u all c front hPc =>
      rcases eq_or_ne t u with rfl | hOther
      · cases all <;> simp at hBlocked
      rcases eq_or_ne t front with rfl | hFront
      · simp [Notification.give]
      · simpa [hFront] using h t v (by simpa [hOther] using hBlocked)
  | wait u | timedwait u | signal u | broadcast u | waitLock u | push u | waitUnlock u
  | mutexUnlock u | wake u | expire u | mutexLock u | mutexLockTimeout u | removeLock u
  | remove u | removeUnlock u | notifyLock u | popEmpty u | popFront u | notifyUnlock u =>
      apply h t v
      rcases eq_or_ne t u with rfl | hOther
      · simp at hBlocked
      · simpa [hOther] using hBlocked

/-- An untimed take goes on only with a notification: it does not skip the
Blocked state with count zero, and its block time never runs out. -/
theorem Step.read (hDead : ∀ t, s.live t = false → s.pc t = .idle) (h : Counted s) :
    ∀ t w, s'.pc t = .takeRead w → w.timed = false → (s'.note t).ulNotifiedValue ≠ 0 := by
  intro t v hRead hUntimed
  cases hStep with
  | create u hLive =>
      have hOther : t ≠ u := by
        rintro rfl
        cases (hDead t hLive).symm.trans hRead
      simpa [hOther] using h.read t v hRead hUntimed
  | delete u hLive =>
      rcases eq_or_ne t u with rfl | hOther
      · simp at hRead
      · simpa [hOther] using h.read t v (by simpa [hOther] using hRead) hUntimed
  | exit | lock | unlock => exact h.read t v hRead hUntimed
  | takeSkip u w hPc hNow =>
      rcases eq_or_ne t u with rfl | hOther
      · obtain rfl : w = v := by simpa using hRead
        have hTicks := h.untimed t w (by simp [hPc, Pc.unread]) hUntimed
        rcases hNow with hValue | hNoTicks
        · simpa using hValue
        · exact absurd (hTicks.symm.trans hNoTicks) (by decide)
      · simpa [hOther] using h.read t v (by simpa [hOther] using hRead) hUntimed
  | wake u w hPc hState =>
      rcases eq_or_ne t u with rfl | hOther
      · exact mt (h.alert t w hPc).mpr hState
      · exact h.read t v (by simpa [hOther] using hRead) hUntimed
  | expire u w hPc hTicks =>
      rcases eq_or_ne t u with rfl | hOther
      · obtain rfl : w = v := by simpa using hRead
        exact absurd (h.untimed t w (by simp [hPc, Pc.unread]) hUntimed) hTicks
      · exact h.read t v (by simpa [hOther] using hRead) hUntimed
  | takeBlock u w hPc | takeRead u w hPc =>
      rcases eq_or_ne t u with rfl | hOther
      · simp at hRead
      · simpa [hOther] using h.read t v (by simpa [hOther] using hRead) hUntimed
  | give u all c front hPc =>
      rcases eq_or_ne t u with rfl | hOther
      · cases all <;> simp at hRead
      rcases eq_or_ne t front with rfl | hFront
      · simp
      · simpa [hFront] using h.read t v (by simpa [hOther] using hRead) hUntimed
  | wait u | timedwait u | signal u | broadcast u | waitLock u | push u | waitUnlock u
  | mutexUnlock u | mutexLock u | mutexLockTimeout u | removeLock u | remove u | removeUnlock u
  | notifyLock u | popEmpty u | popFront u | notifyUnlock u =>
      refine h.read t v ?_ hUntimed
      rcases eq_or_ne t u with rfl | hOther
      · simp at hRead
      · simpa [hOther] using hRead

theorem Step.counted (hDead : ∀ t, s.live t = false → s.pc t = .idle) (h : Counted s) :
    Counted s' where
  untimed := hStep.untimed h.untimed
  alert := hStep.alert hDead h.alert
  read := hStep.read hDead h

/-- An entry was in the list before, or its task has just pushed it. -/
theorem Step.mem_que {c : Cond} {t : Task} (hMem : t ∈ s'.que c) :
    (t ∈ s.que c ∧ ∀ w, a = .step t → s.pc t = .remove w → w.cond ≠ c) ∨
      (∃ w, s.pc t = .push w ∧ s'.pc t = .waitUnlock w ∧ w.cond = c) := by
  cases hStep with
  | push u w hPc =>
      rcases eq_or_ne c w.cond with rfl | hOther
      · simp only [St.setPc_que, St.setQue_que, Function.update_self, List.mem_append,
          List.mem_singleton] at hMem
        rcases hMem with hOld | rfl
        · refine .inl ⟨hOld, fun v hAct hRemove => ?_⟩
          cases hAct
          cases hPc.symm.trans hRemove
        · exact .inr ⟨w, hPc, by simp, rfl⟩
      · refine .inl ⟨by simpa [hOther] using hMem, fun v hAct hRemove => ?_⟩
        cases hAct
        cases hPc.symm.trans hRemove
  | popFront u all d front rest hPc hQue =>
      refine .inl ⟨?_, fun v hAct hRemove => ?_⟩
      · rcases eq_or_ne c d with rfl | hOther
        · simp only [St.setPc_que, St.setQue_que, Function.update_self] at hMem
          exact hQue ▸ List.mem_cons_of_mem front hMem
        · simpa [hOther] using hMem
      · cases hAct
        cases hPc.symm.trans hRemove
  | remove u w hPc =>
      rcases eq_or_ne c w.cond with rfl | hOther
      · simp only [St.setPc_que, St.setQue_que, Function.update_self, List.mem_filter,
          decide_eq_true_eq] at hMem
        exact .inl ⟨hMem.1, fun v hAct _ => absurd (Act.step.inj hAct).symm hMem.2⟩
      · refine .inl ⟨by simpa [hOther] using hMem, fun v hAct hRemove => ?_⟩
        cases hAct
        cases hPc.symm.trans hRemove
        exact hOther.symm
  | create | exit | delete | lock | unlock | wait | timedwait | signal | broadcast | expire =>
      exact .inl ⟨hMem, fun w hAct => by cases hAct⟩
  | waitLock u w hPc | waitUnlock u w hPc | mutexUnlock u w hPc | takeBlock u w hPc
  | takeSkip u w hPc | wake u w hPc | takeRead u w hPc | mutexLock u w hPc
  | mutexLockTimeout u w hPc | removeLock u w hPc | removeUnlock u w hPc | notifyLock u all c hPc
  | popEmpty u all c hPc | give u all c front hPc | notifyUnlock u all c hPc =>
      refine .inl ⟨hMem, fun v hAct hRemove => ?_⟩
      cases hAct
      cases hPc.symm.trans hRemove

/-- A popped handle was popped before, or is the front of the list now. -/
theorem Step.pc_give {u t : Task} {all : Bool} {c : Cond} (hGive : s'.pc u = .give all c t) :
    s.pc u = .give all c t ∨ (s.pc u = .pop all c ∧ t ∈ s.que c) := by
  cases hStep with
  | create | exit | lock | unlock => exact .inl hGive
  | popFront v all' d front rest hPc hQue =>
      rcases eq_or_ne u v with rfl | hOther
      · simp only [St.setPc_pc, Function.update_self, Pc.give.injEq] at hGive
        obtain ⟨rfl, rfl, rfl⟩ := hGive
        exact .inr ⟨hPc, by simp [hQue]⟩
      · exact .inl (by simpa [hOther] using hGive)
  | give v all' d front hPc =>
      rcases eq_or_ne u v with rfl | hOther
      · cases all' <;> simp at hGive
      · exact .inl (by simpa [hOther] using hGive)
  | delete v | wait v | timedwait v | signal v | broadcast v | waitLock v | push v | waitUnlock v
  | mutexUnlock v | takeBlock v | takeSkip v | wake v | expire v | takeRead v | mutexLock v
  | mutexLockTimeout v | removeLock v | remove v | removeUnlock v | notifyLock v | popEmpty v
  | notifyUnlock v =>
      left
      rcases eq_or_ne u v with rfl | hOther
      · simp at hGive
      · simpa [hOther] using hGive

/-- A task leaves the waiting part of a call with a notification, or by the
removal of its entry. -/
theorem Step.listed (hSpares : spares s a) (h : Counted s) {t : Task} {c : Cond} (hListed : (s.pc t).listed = some c)
    (hValue : (s.note t).ulNotifiedValue = 0)
    (hRemove : ∀ w, a = .step t → s.pc t = .remove w → w.cond ≠ c) :
    (s'.pc t).listed = some c := by
  cases hStep with
  | create | exit | lock | unlock => exact hListed
  | delete u hLive =>
      rcases eq_or_ne t u with rfl | hOther
      · rcases (spares_delete hSpares).2 with hNone | hNotified
        · cases hListed.symm.trans hNone
        · exact absurd hValue hNotified
      · simpa [hOther] using hListed
  | takeRead u w hPc =>
      rcases eq_or_ne t u with rfl | hOther
      · have hTimed : w.timed = true := by
          by_contra hUntimed
          exact h.read t w hPc (by simpa using hUntimed) hValue
        simpa [hPc, hValue, hTimed, Pc.listed, Pc.waiting, Pc.late] using hListed
      · simpa [hOther] using hListed
  | remove u w hPc =>
      rcases eq_or_ne t u with rfl | hOther
      · have hCond : w.cond = c := by simpa [hPc, Pc.listed, Pc.waiting, Pc.late] using hListed
        exact absurd hCond (hRemove w rfl hPc)
      · simpa [hOther] using hListed
  | waitUnlock u w hPc | mutexUnlock u w hPc | takeBlock u w hPc | takeSkip u w hPc | wake u w hPc
  | expire u w hPc | mutexLockTimeout u w hPc | removeLock u w hPc =>
      rcases eq_or_ne t u with rfl | hOther
      · simpa [hPc, Pc.listed, Pc.waiting, Pc.late] using hListed
      · simpa [hOther] using hListed
  | wait u c m hLive hPc | timedwait u c m ticks hLive hPc | signal u c hLive hPc
  | broadcast u c hLive hPc | waitLock u w hPc | push u w hPc | mutexLock u w hPc
  | removeUnlock u w hPc | notifyLock u all c hPc | popEmpty u all c hPc
  | popFront u all c front rest hPc | give u all c front hPc | notifyUnlock u all c hPc =>
      rcases eq_or_ne t u with rfl | hOther
      · simp [hPc, Pc.listed, Pc.waiting, Pc.late] at hListed
      · simpa [hOther] using hListed

end Steps

/-- A timed wait that gave up still finds its entry when it comes to remove it,
and deletions leave nothing behind. -/
def removeFinds (s : St Task Cond Mutex) : Act Task Cond Mutex → Bool
  | .step t => match s.pc t with
      | .remove w => decide (t ∈ s.que w.cond)
      | _ => true
  | a => spares s a

theorem spares_of_removeFinds {s : St Task Cond Mutex} {a : Act Task Cond Mutex}
    (h : removeFinds s a) : spares s a := by
  cases a with
  | step => rfl
  | _ => exact h

/-- Entries and popped handles belong to tasks inside a wait on that condition variable. -/
structure Placed (s : St Task Cond Mutex) : Prop where
  entry : ∀ c t, t ∈ s.que c → (s.pc t).listed = some c
  hand : ∀ u all c t, s.pc u = .give all c t → (s.pc t).listed = some c

section Accounts

variable [Fintype Task] [Fintype Cond]

/-- A task has its one token from the push to the end of the wait, and nobody
else has any. -/
structure Accounted (s : St Task Cond Mutex) : Prop extends
    Locked s, Counted s, Placed s where
  tokens : ∀ t, tokens s t = if (s.pc t).listed.isSome then 1 else 0

theorem count_le_queued (s : St Task Cond Mutex) (c : Cond) (t : Task) :
    (s.que c).count t ≤ queued s t :=
  Finset.single_le_sum (f := fun c => (s.que c).count t) (fun _ _ => Nat.zero_le _) (Finset.mem_univ c)

theorem inHand_pos {s : St Task Cond Mutex} {u t : Task} (h : (s.pc u).gives = some t) :
    0 < inHand s t := by
  have hLe := Finset.single_le_sum (f := fun v => if (s.pc v).gives = some t then 1 else 0)
    (fun _ _ => Nat.zero_le _) (Finset.mem_univ u)
  simp only [h, if_true] at hLe
  exact hLe

namespace Accounted

variable {s s' : St Task Cond Mutex} {a : Act Task Cond Mutex}

theorem tokens_le (h : Accounted s) (t : Task) :
    queued s t + inHand s t + (s.note t).ulNotifiedValue ≤ 1 := by
  have hTokens := h.tokens t
  rw [CondVar.tokens] at hTokens
  split at hTokens <;> omega

/-- A queued task is neither in hand nor notified. -/
theorem of_mem_que (h : Accounted s) {c : Cond} {t : Task} (hMem : t ∈ s.que c) :
    (s.note t).ulNotifiedValue = 0 ∧ ∀ u all d, s.pc u ≠ .give all d t := by
  have hCount := List.count_pos_iff.mpr hMem
  have hQueued := count_le_queued s c t
  have hTotal := h.tokens_le t
  refine ⟨by omega, fun u all d hGive => ?_⟩
  have hHand := inHand_pos (s := s) (u := u) (t := t) (by rw [hGive]; rfl)
  omega

/-- A popped handle has no other notification pending. -/
theorem of_give (h : Accounted s) {u t : Task} {all : Bool} {c : Cond}
    (hGive : s.pc u = .give all c t) : (s.note t).ulNotifiedValue = 0 := by
  have hHand := inHand_pos (s := s) (u := u) (t := t) (by rw [hGive]; rfl)
  have hTotal := h.tokens_le t
  omega

/-- A task that removes itself is in the list once, and its count is zero. -/
theorem count_of_remove (h : Accounted s) {t : Task} {w : Wait Cond Mutex} (hPc : s.pc t = .remove w)
    (hFinds : removeFinds s (.step t)) :
    (s.que w.cond).count t = 1 ∧ queued s t = 1 ∧ (s.note t).ulNotifiedValue = 0 := by
  have hMem : t ∈ s.que w.cond := by simpa [removeFinds, hPc] using hFinds
  have hCount := List.count_pos_iff.mpr hMem
  have hQueued := count_le_queued s w.cond t
  have hTotal := h.tokens_le t
  omega

/-- Only a timed wait takes its notification at count zero. -/
theorem timed_of_zero (h : Accounted s) {t : Task} {w : Wait Cond Mutex} (hPc : s.pc t = .takeRead w)
    (hZero : (s.note t).ulNotifiedValue = 0) : w.timed = true := by
  by_contra hUntimed
  exact h.read t w hPc (by simpa using hUntimed) hZero

/-- A task inside a call is live. -/
theorem live_of_inside (h : Accounted s) {t : Task} (hInside : s.pc t ≠ .idle) :
    s.live t = true := by
  by_contra hLive
  exact hInside (h.dead t (by simpa using hLive))

theorem live_of_listed (h : Accounted s) {t : Task} {c : Cond}
    (hListed : (s.pc t).listed = some c) : s.live t = true := by
  refine h.live_of_inside fun hIdle => ?_
  simp [hIdle, Pc.listed, Pc.waiting, Pc.late] at hListed

/-- The handle of a waiter is in the hands of the holder of its queue lock only. -/
theorem sem_of_give (h : Accounted s) {u t : Task} {all : Bool} {c d : Cond}
    (hListed : (s.pc t).listed = some c) (hGive : s.pc u = .give all d t) : s.sem c = some u := by
  have hSame := h.hand u all d t hGive
  rw [hListed, Option.some.injEq] at hSame
  subst hSame
  exact (h.sem c u).mpr (by simp [claims, hGive, Pc.locks])

/-- Whoever is in a wait, and neither in hand nor notified, is in the list. -/
theorem mem_que (h : Accounted s) {t : Task} {c : Cond} (hListed : (s.pc t).listed = some c)
    (hValue : (s.note t).ulNotifiedValue = 0) (hHand : ∀ u all d, s.pc u ≠ .give all d t) :
    t ∈ s.que c := by
  have hTokens := h.tokens t
  have hZero : inHand s t = 0 := by
    refine Finset.sum_eq_zero fun u _ => if_neg fun hGives => ?_
    cases hPc : s.pc u <;> simp [hPc, Pc.gives] at hGives
    exact hHand u _ _ (hGives ▸ hPc)
  rw [CondVar.tokens, hZero, hValue, hListed] at hTokens
  have hQueued : queued s t ≠ 0 := by
    simp only [Option.isSome_some, if_true] at hTokens
    omega
  obtain ⟨d, _, hCount⟩ := Finset.exists_ne_zero_of_sum_ne_zero hQueued
  have hMem : t ∈ s.que d := List.count_pos_iff.mp (by omega)
  have hSame := h.entry d t hMem
  rw [hListed, Option.some.injEq] at hSame
  exact hSame ▸ hMem

/-- Whoever is about to take a free lock finds the waiters of the list queued or
notified. -/
theorem found (h : Accounted s) {t : Task} {c : Cond} (hFree : s.sem c = none)
    (hWaiting : (s.pc t).waiting = some c) : t ∈ s.que c ∨ (s.note t).ulNotifiedValue = 1 := by
  have hTotal := h.tokens_le t
  by_cases hZero : (s.note t).ulNotifiedValue = 0
  · have hListed : (s.pc t).listed = some c := by simp [Pc.listed, hWaiting]
    refine .inl (h.mem_que hListed hZero fun v all d hGive => ?_)
    -- the handle would be in the hands of a task that holds the free lock
    cases hFree.symm.trans (h.sem_of_give hListed hGive)
  · exact .inr (by omega)

theorem step_placed (h : Accounted s) (hFinds : removeFinds s a) (hStep : Step s a s') :
    Placed s' where
  entry c t hMem := by
    have hSpares := spares_of_removeFinds hFinds
    rcases hStep.mem_que hMem with ⟨hOld, hRemove⟩ | ⟨w, _, hPc, rfl⟩
    · exact hStep.listed hSpares h.toCounted (h.entry c t hOld) (h.of_mem_que hOld).1 hRemove
    · simp [hPc, Pc.listed, Pc.waiting]
  hand u all c t hGive := by
    have hSpares := spares_of_removeFinds hFinds
    rcases hStep.pc_give hGive with hOld | ⟨hPop, hMem⟩
    · apply hStep.listed hSpares h.toCounted (h.hand u all c t hOld) (h.of_give hOld)
      -- the entry it would remove is not in anybody's hands
      rintro w rfl hPc rfl
      have hMem : t ∈ s.que w.cond := by simpa [removeFinds, hPc] using hFinds
      exact (h.of_mem_que hMem).2 u all _ hOld
    · have hListed := h.entry c t hMem
      apply hStep.listed hSpares h.toCounted hListed (h.of_mem_que hMem).1
      rintro w rfl hPc rfl
      -- the remover holds the lock, so nobody else is at its pop
      have hRemover : claims s t = some w.cond := by simp [claims, hPc, Pc.locks]
      have hPopper : claims s u = some w.cond := by simp [claims, hPop, Pc.locks]
      obtain rfl := h.sem.unique hRemover hPopper
      cases hPc.symm.trans hPop

/-- A task comes into or leaves the waiting part of a call exactly as its token
is made or spent. -/
theorem step_listed (h : Accounted s) (hFinds : removeFinds s a) (hStep : Step s a s') (t : Task) :
    (if (s'.pc t).listed.isSome then 1 else 0) + withdrawal s a t =
      (if (s.pc t).listed.isSome then 1 else 0) + deposit s a t := by
  cases hStep with
  | create u hLive =>
      have hTokens := h.tokens u
      simp only [h.dead u hLive, CondVar.tokens, Pc.listed, Pc.waiting, Pc.late] at hTokens
      have hZero : (s.note u).ulNotifiedValue = 0 := by simp_all
      rcases eq_or_ne u t with rfl | hOther
      · simp [withdrawal, deposit, hZero]
      · simp [withdrawal, deposit, hOther]
  | delete u hLive =>
      obtain ⟨hLocks, hSpared⟩ := spares_delete (spares_of_removeFinds hFinds)
      have hGives : (s.pc u).gives = none := by
        cases hPc : s.pc u <;> simp_all [Pc.locks, Pc.gives]
      rcases eq_or_ne t u with rfl | hOther
      · have hTokens := h.tokens t
        rw [CondVar.tokens] at hTokens
        simp only [withdrawal, deposit, hGives]
        rcases hSpared with hNone | hNotified
        · simp_all [Pc.listed, Pc.waiting, Pc.late]
        · split at hTokens
          · simp_all [Pc.listed, Pc.waiting, Pc.late]
            omega
          · omega
      · simp [withdrawal, deposit, hGives, hOther, hOther.symm]
  | exit | lock | unlock => rfl
  | wait u c m hLive hPc | timedwait u c m ticks hLive hPc | signal u c hLive hPc
  | broadcast u c hLive hPc | wake u w hPc | expire u w hPc | popEmpty u all c hPc
  | waitLock u w hPc | waitUnlock u w hPc | mutexUnlock u w hPc | mutexLock u w hPc
  | mutexLockTimeout u w hPc | removeLock u w hPc | removeUnlock u w hPc | takeBlock u w hPc
  | takeSkip u w hPc | notifyLock u all c hPc | notifyUnlock u all c hPc
  | popFront u all c front rest hPc | push u w hPc =>
      rcases eq_or_ne t u with rfl | hOther
      · simp [withdrawal, deposit, hPc, Pc.listed, Pc.waiting, Pc.late]
      · simp [withdrawal, deposit, hPc, hOther, hOther.symm]
  | give u all c front hPc =>
      rcases eq_or_ne t u with rfl | hOther
      · cases all <;> simp [withdrawal, deposit, hPc, Pc.listed, Pc.waiting, Pc.late]
      · simp [withdrawal, deposit, hPc, hOther]
  | takeRead u w hPc =>
      rcases eq_or_ne t u with rfl | hOther
      · have hTotal := h.tokens_le t
        simp only [withdrawal, deposit, hPc, St.setPc_pc, Function.update_self]
        by_cases hZero : (s.note t).ulNotifiedValue = 0
        · simp [hZero, h.timed_of_zero hPc hZero, Pc.listed, Pc.waiting, Pc.late]
        · have hOne : (s.note t).ulNotifiedValue = 1 := by omega
          simp [hOne, Pc.listed, Pc.waiting, Pc.late]
      · simp [withdrawal, deposit, hPc, hOther, hOther.symm]
  | remove u w hPc =>
      rcases eq_or_ne t u with rfl | hOther
      · obtain ⟨hOne, _⟩ := h.count_of_remove hPc hFinds
        simp [withdrawal, deposit, hPc, hOne, Pc.listed, Pc.waiting, Pc.late]
      · simp [withdrawal, deposit, hPc, hOther, hOther.symm]

theorem step (h : Accounted s) (hFinds : removeFinds s a) (hStep : Step s a s') :
    Accounted s' where
  toLocked := hStep.locked (spares_of_removeFinds hFinds) h.toLocked
  toCounted := hStep.counted h.dead h.toCounted
  toPlaced := h.step_placed hFinds hStep
  tokens t := by
    have hBalance := hStep.tokens t
    have hListed := h.step_listed hFinds hStep t
    have hTokens := h.tokens t
    omega

end Accounted

theorem Accounted.start {s : St Task Cond Mutex} (h : Start s) : Accounted s := by
  obtain ⟨hPc, hNote, hQue, hSem, hMtx⟩ := h
  refine ⟨⟨?_, ?_, ?_⟩, ⟨?_, ?_, ?_⟩, ⟨?_, ?_⟩, ?_⟩
  · exact fun t _ => hPc t
  · exact fun c t => by simp [hSem, claims, hPc, Pc.locks]
  all_goals simp [hPc, hNote, hQue, Pc.holds, Pc.unread, CondVar.tokens, queued, inHand, Pc.gives,
    Pc.listed, Pc.waiting, Pc.late]

end Accounts

end FreeRtos.CondVar
