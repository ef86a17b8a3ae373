import FreeRtosCpp11.CondVar.Machine

/-! What one step of the condition variable system can do. Every invariant is
proved by cases on `Step`; the executable step function is unfolded only here. -/
namespace FreeRtos.CondVar

variable {Task Cond Mutex : Type} [DecidableEq Task] [DecidableEq Cond] [DecidableEq Mutex]

/-- The transitions of `next`, one constructor for each thing a task can do. -/
inductive Step (s : St Task Cond Mutex) : Act Task Cond Mutex → St Task Cond Mutex → Prop where
  | create (t : Task) (hLive : s.live t = false) :
      Step s (.create t) { s with live := Function.update s.live t true
                                  note := Function.update s.note t {} }
  | exit (t : Task) (hLive : s.live t = true) (hPc : s.pc t = .idle) :
      Step s (.exit t) { s with live := Function.update s.live t false }
  | delete (t : Task) (hLive : s.live t = true) :
      Step s (.delete t)
        { (s.setNote t {}).setPc t .idle with live := Function.update s.live t false }
  | lock (t : Task) (m : Mutex) (hPc : s.pc t = .idle) (hFree : s.mtx m = none) :
      Step s (.lock t m) (s.setMtx m (some t))
  | unlock (t : Task) (m : Mutex) (hPc : s.pc t = .idle) (hHeld : s.mtx m = some t) :
      Step s (.unlock t m) (s.setMtx m none)
  | wait (t : Task) (c : Cond) (m : Mutex) (hLive : s.live t = true) (hPc : s.pc t = .idle)
      (hHeld : s.mtx m = some t) :
      Step s (.wait t c m) (s.setPc t (.waitLock ⟨false, c, m, portMaxDelay⟩))
  | timedwait (t : Task) (c : Cond) (m : Mutex) (ticks : Nat) (hLive : s.live t = true)
      (hPc : s.pc t = .idle) (hHeld : s.mtx m = some t) :
      Step s (.timedwait t c m ticks) (s.setPc t (.waitLock ⟨true, c, m, ticks⟩))
  | signal (t : Task) (c : Cond) (hLive : s.live t = true) (hPc : s.pc t = .idle) :
      Step s (.signal t c) (s.setPc t (.notifyLock false c))
  | broadcast (t : Task) (c : Cond) (hLive : s.live t = true) (hPc : s.pc t = .idle) :
      Step s (.broadcast t c) (s.setPc t (.notifyLock true c))
  | waitLock (t : Task) (w : Wait Cond Mutex) (hPc : s.pc t = .waitLock w)
      (hFree : s.sem w.cond = none) :
      Step s (.step t) ((s.setSem w.cond (some t)).setPc t (.push w))
  | push (t : Task) (w : Wait Cond Mutex) (hPc : s.pc t = .push w) :
      Step s (.step t) ((s.setQue w.cond (s.que w.cond ++ [t])).setPc t (.waitUnlock w))
  | waitUnlock (t : Task) (w : Wait Cond Mutex) (hPc : s.pc t = .waitUnlock w) :
      Step s (.step t) ((s.setSem w.cond none).setPc t (.mutexUnlock w))
  | mutexUnlock (t : Task) (w : Wait Cond Mutex) (hPc : s.pc t = .mutexUnlock w)
      (hHeld : s.mtx w.mutex = some t) :
      Step s (.step t) ((s.setMtx w.mutex none).setPc t (.take w))
  | takeBlock (t : Task) (w : Wait Cond Mutex) (hPc : s.pc t = .take w)
      (hZero : (s.note t).ulNotifiedValue = 0) (hTicks : 0 < w.ticks) :
      Step s (.step t) ((s.setNote t (s.note t).announce).setPc t (.blocked w))
  | takeSkip (t : Task) (w : Wait Cond Mutex) (hPc : s.pc t = .take w)
      (hNow : (s.note t).ulNotifiedValue ≠ 0 ∨ w.ticks = 0) :
      Step s (.step t) ((s.setNote t (s.note t).announce).setPc t (.takeRead w))
  | wake (t : Task) (w : Wait Cond Mutex) (hPc : s.pc t = .blocked w)
      (hState : (s.note t).ucNotifyState ≠ .waiting) :
      Step s (.step t) (s.setPc t (.takeRead w))
  | expire (t : Task) (w : Wait Cond Mutex) (hPc : s.pc t = .blocked w)
      (hTicks : w.ticks ≠ portMaxDelay) :
      Step s (.expire t) (s.setPc t (.takeRead w))
  | takeRead (t : Task) (w : Wait Cond Mutex) (hPc : s.pc t = .takeRead w) :
      Step s (.step t) ((s.setNote t (s.note t).clear).setPc t
        (.mutexLock w (w.timed && (s.note t).ulNotifiedValue == 0)))
  | mutexLock (t : Task) (w : Wait Cond Mutex) (hPc : s.pc t = .mutexLock w false)
      (hFree : s.mtx w.mutex = none) :
      Step s (.step t) ((s.setMtx w.mutex (some t)).setPc t .idle)
  | mutexLockTimeout (t : Task) (w : Wait Cond Mutex) (hPc : s.pc t = .mutexLock w true)
      (hFree : s.mtx w.mutex = none) :
      Step s (.step t) ((s.setMtx w.mutex (some t)).setPc t (.removeLock w))
  | removeLock (t : Task) (w : Wait Cond Mutex) (hPc : s.pc t = .removeLock w)
      (hFree : s.sem w.cond = none) :
      Step s (.step t) ((s.setSem w.cond (some t)).setPc t (.remove w))
  | remove (t : Task) (w : Wait Cond Mutex) (hPc : s.pc t = .remove w) :
      Step s (.step t)
        ((s.setQue w.cond ((s.que w.cond).filter (· ≠ t))).setPc t (.removeUnlock w))
  | removeUnlock (t : Task) (w : Wait Cond Mutex) (hPc : s.pc t = .removeUnlock w) :
      Step s (.step t) ((s.setSem w.cond none).setPc t .idle)
  | notifyLock (t : Task) (all : Bool) (c : Cond) (hPc : s.pc t = .notifyLock all c)
      (hFree : s.sem c = none) :
      Step s (.step t) ((s.setSem c (some t)).setPc t (.pop all c))
  | popEmpty (t : Task) (all : Bool) (c : Cond) (hPc : s.pc t = .pop all c)
      (hQue : s.que c = []) :
      Step s (.step t) (s.setPc t (.notifyUnlock all c))
  | popFront (t : Task) (all : Bool) (c : Cond) (front : Task) (rest : List Task)
      (hPc : s.pc t = .pop all c) (hQue : s.que c = front :: rest) :
      Step s (.step t) ((s.setQue c rest).setPc t (.give all c front))
  | give (t : Task) (all : Bool) (c : Cond) (front : Task) (hPc : s.pc t = .give all c front) :
      Step s (.step t) ((s.setNote front (s.note front).give).setPc t
        (if all then .pop all c else .notifyUnlock all c))
  | notifyUnlock (t : Task) (all : Bool) (c : Cond) (hPc : s.pc t = .notifyUnlock all c) :
      Step s (.step t) ((s.setSem c none).setPc t .idle)

theorem ready_iff (s : St Task Cond Mutex) (t : Task) :
    ready s t = true ↔ s.live t = true ∧ s.pc t = .idle := by
  simp [ready]

theorem step_of_advance {s s' : St Task Cond Mutex} {t : Task} (h : advance s t = some s') :
    Step s (.step t) s' := by
  cases hPc : s.pc t with
  | idle => simp [advance, hPc] at h
  | waitLock w =>
      simp only [advance, hPc, Option.ite_none_right_eq_some, Option.some.injEq] at h
      obtain ⟨hFree, rfl⟩ := h
      exact .waitLock t w hPc hFree
  | push w =>
      simp only [advance, hPc, Option.some.injEq] at h
      exact h ▸ .push t w hPc
  | waitUnlock w =>
      simp only [advance, hPc, Option.some.injEq] at h
      exact h ▸ .waitUnlock t w hPc
  | mutexUnlock w =>
      simp only [advance, hPc, Option.ite_none_right_eq_some, Option.some.injEq] at h
      obtain ⟨hHeld, rfl⟩ := h
      exact .mutexUnlock t w hPc hHeld
  | take w =>
      simp only [advance, hPc, Option.some.injEq] at h
      by_cases hBlock : (s.note t).ulNotifiedValue = 0 ∧ 0 < w.ticks
      · rw [if_pos hBlock] at h
        exact h ▸ .takeBlock t w hPc hBlock.1 hBlock.2
      · rw [if_neg hBlock] at h
        exact h ▸ .takeSkip t w hPc (by omega)
  | blocked w =>
      simp only [advance, hPc, Option.ite_none_left_eq_some, Option.some.injEq] at h
      obtain ⟨hState, rfl⟩ := h
      exact .wake t w hPc hState
  | takeRead w =>
      simp only [advance, hPc, Option.some.injEq] at h
      exact h ▸ .takeRead t w hPc
  | mutexLock w fTimeout =>
      simp only [advance, hPc, Option.ite_none_right_eq_some, Option.some.injEq] at h
      obtain ⟨hFree, rfl⟩ := h
      cases fTimeout with
      | false => exact .mutexLock t w hPc hFree
      | true => exact .mutexLockTimeout t w hPc hFree
  | removeLock w =>
      simp only [advance, hPc, Option.ite_none_right_eq_some, Option.some.injEq] at h
      obtain ⟨hFree, rfl⟩ := h
      exact .removeLock t w hPc hFree
  | remove w =>
      simp only [advance, hPc, Option.some.injEq] at h
      exact h ▸ .remove t w hPc
  | removeUnlock w =>
      simp only [advance, hPc, Option.some.injEq] at h
      exact h ▸ .removeUnlock t w hPc
  | notifyLock all c =>
      simp only [advance, hPc, Option.ite_none_right_eq_some, Option.some.injEq] at h
      obtain ⟨hFree, rfl⟩ := h
      exact .notifyLock t all c hPc hFree
  | pop all c =>
      cases hQue : s.que c with
      | nil =>
          simp only [advance, hPc, hQue, Option.some.injEq] at h
          exact h ▸ .popEmpty t all c hPc hQue
      | cons front rest =>
          simp only [advance, hPc, hQue, Option.some.injEq] at h
          exact h ▸ .popFront t all c front rest hPc hQue
  | give all c front =>
      simp only [advance, hPc, Option.some.injEq] at h
      exact h ▸ .give t all c front hPc
  | notifyUnlock all c =>
      simp only [advance, hPc, Option.some.injEq] at h
      exact h ▸ .notifyUnlock t all c hPc

/-- The inversion of the step function. -/
theorem step_of_next {s s' : St Task Cond Mutex} {a : Act Task Cond Mutex}
    (h : next s a = some s') : Step s a s' := by
  cases a with
  | create t =>
      simp only [next, Option.ite_none_left_eq_some, Option.some.injEq] at h
      obtain ⟨hLive, rfl⟩ := h
      exact .create t (by simpa using hLive)
  | exit t =>
      simp only [next, Option.ite_none_right_eq_some, Option.some.injEq, ready_iff] at h
      obtain ⟨⟨hLive, hPc⟩, rfl⟩ := h
      exact .exit t hLive hPc
  | delete t =>
      simp only [next, Option.ite_none_right_eq_some, Option.some.injEq] at h
      obtain ⟨hLive, rfl⟩ := h
      exact .delete t hLive
  | lock t m =>
      simp only [next, Option.ite_none_right_eq_some, Option.some.injEq, ready_iff] at h
      obtain ⟨⟨⟨_, hPc⟩, hFree⟩, rfl⟩ := h
      exact .lock t m hPc hFree
  | unlock t m =>
      simp only [next, Option.ite_none_right_eq_some, Option.some.injEq, ready_iff] at h
      obtain ⟨⟨⟨_, hPc⟩, hHeld⟩, rfl⟩ := h
      exact .unlock t m hPc hHeld
  | wait t c m =>
      simp only [next, Option.ite_none_right_eq_some, Option.some.injEq, ready_iff] at h
      obtain ⟨⟨⟨hLive, hPc⟩, hHeld⟩, rfl⟩ := h
      exact .wait t c m hLive hPc hHeld
  | timedwait t c m ticks =>
      simp only [next, Option.ite_none_right_eq_some, Option.some.injEq, ready_iff] at h
      obtain ⟨⟨⟨hLive, hPc⟩, hHeld⟩, rfl⟩ := h
      exact .timedwait t c m ticks hLive hPc hHeld
  | signal t c =>
      simp only [next, Option.ite_none_right_eq_some, Option.some.injEq, ready_iff] at h
      obtain ⟨⟨hLive, hPc⟩, rfl⟩ := h
      exact .signal t c hLive hPc
  | broadcast t c =>
      simp only [next, Option.ite_none_right_eq_some, Option.some.injEq, ready_iff] at h
      obtain ⟨⟨hLive, hPc⟩, rfl⟩ := h
      exact .broadcast t c hLive hPc
  | step t => exact step_of_advance h
  | expire t =>
      simp only [next] at h
      split at h
      · rename_i w hPc
        simp only [Option.ite_none_left_eq_some, Option.some.injEq] at h
        obtain ⟨hTicks, rfl⟩ := h
        exact .expire t w hPc hTicks
      · cases h

end FreeRtos.CondVar
