import FreeRtosCpp11.CondVar.Step
import FreeRtosCpp11.Transition.Records

/-! Token accounting for the condition variables. The entry that a wait pushes
is one token. It is in a list, in the hands of the notifier that popped it, or
in the notification count of the waiter, until the wait consumes it. No step
makes or loses a token except the ones named by `deposit` and `withdrawal`. -/
namespace FreeRtos.CondVar

set_option linter.unusedSectionVars false

variable {Task Cond Mutex : Type}

/-- The handle that was popped and not yet notified. -/
def Pc.gives : Pc Task Cond Mutex → Option Task
  | .give _ _ t => some t
  | _ => none

variable [DecidableEq Task] [Fintype Task] [Fintype Cond]

/-- Entries of a task over all condition variables. -/
def queued (s : St Task Cond Mutex) (t : Task) : Nat := ∑ c, (s.que c).count t

/-- Notifiers that popped the task and have not notified it yet. -/
def inHand (s : St Task Cond Mutex) (t : Task) : Nat :=
  ∑ u, if (s.pc u).gives = some t then 1 else 0

/-- Queue entries, popped handles and pending notifications of a task. -/
def tokens (s : St Task Cond Mutex) (t : Task) : Nat :=
  queued s t + inHand s t + (s.note t).ulNotifiedValue

/-- Tokens an action brings in: one for each push. -/
def deposit (s : St Task Cond Mutex) (a : Act Task Cond Mutex) (t : Task) : Nat :=
  match a with
  | .step u => match s.pc u with
      | .push _ => if u = t then 1 else 0
      | _ => 0
  | _ => 0

/-- Tokens an action takes out: the count that `ulTaskNotifyTake` clears, the
entries that the timeout branch removes, whatever a new TCB overwrites, and the
count and the popped handle that go with a deleted task. -/
def withdrawal (s : St Task Cond Mutex) (a : Act Task Cond Mutex) (t : Task) : Nat :=
  match a with
  | .create u => if u = t then (s.note t).ulNotifiedValue else 0
  | .delete u => (if u = t then (s.note t).ulNotifiedValue else 0) +
      if (s.pc u).gives = some t then 1 else 0
  | .step u => match s.pc u with
      | .takeRead _ => if u = t then (s.note t).ulNotifiedValue else 0
      | .remove w => if u = t then (s.que w.cond).count t else 0
      | _ => 0
  | _ => 0

section Setters

variable [DecidableEq Cond] [DecidableEq Mutex] (s : St Task Cond Mutex) (t u : Task)

/-- A task that moves between statements gives up the handle it had popped and
takes the one of its new statement. -/
theorem tokens_setPc (p : Pc Task Cond Mutex) :
    tokens (s.setPc u p) t + (if (s.pc u).gives = some t then 1 else 0) =
      tokens s t + if p.gives = some t then 1 else 0 := by
  have hHand : inHand (s.setPc u p) t + (if (s.pc u).gives = some t then 1 else 0) =
      inHand s t + if p.gives = some t then 1 else 0 :=
    Transition.sum_update_add s.pc (fun p => if p.gives = some t then 1 else 0) u p
  have hQue : queued (s.setPc u p) t = queued s t := rfl
  simp only [tokens, St.setPc_note]
  omega

/-- No token moves when neither statement holds a popped handle. -/
theorem tokens_setPc_of_gives_none {p : Pc Task Cond Mutex} (hOld : (s.pc u).gives = none)
    (hNew : p.gives = none) : tokens (s.setPc u p) t = tokens s t := by
  simpa [hOld, hNew] using tokens_setPc s t u p

/-- Replacing one list moves the entries by the difference of the two lists. -/
theorem queued_setQue (c : Cond) (q : List Task) :
    queued (s.setQue c q) t + (s.que c).count t = queued s t + q.count t :=
  Transition.sum_update_add s.que (List.count t) c q

theorem tokens_setQue (c : Cond) (q : List Task) :
    tokens (s.setQue c q) t + (s.que c).count t = tokens s t + q.count t := by
  have hQue := queued_setQue s t c q
  have hHand : inHand (s.setQue c q) t = inHand s t := rfl
  simp only [tokens, St.setQue_note]
  omega

/-- Replacing a notification moves the tokens of its task only. -/
theorem tokens_setNote (n : Notification) :
    tokens (s.setNote u n) t + (if u = t then (s.note u).ulNotifiedValue else 0) =
      tokens s t + if u = t then n.ulNotifiedValue else 0 := by
  have hQue : queued (s.setNote u n) t = queued s t := rfl
  have hHand : inHand (s.setNote u n) t = inHand s t := rfl
  rcases eq_or_ne u t with rfl | hOther
  · simp only [tokens, hQue, hHand, St.setNote_note, Function.update_self, if_true]
    omega
  · simp [tokens, hQue, hHand, hOther, hOther.symm]

@[simp] theorem tokens_setSem (c : Cond) (holder : Option Task) :
    tokens (s.setSem c holder) t = tokens s t := rfl

@[simp] theorem tokens_setMtx (m : Mutex) (holder : Option Task) :
    tokens (s.setMtx m holder) t = tokens s t := rfl

end Setters

@[simp] theorem Notification.announce_value (n : Notification) :
    n.announce.ulNotifiedValue = n.ulNotifiedValue := by
  unfold announce
  split <;> rfl

@[simp] theorem Notification.clear_value (n : Notification) : n.clear.ulNotifiedValue = 0 := by
  unfold clear
  split
  · rfl
  · rename_i hZero
    exact not_not.mp hZero

@[simp] theorem Notification.give_value (n : Notification) :
    n.give.ulNotifiedValue = n.ulNotifiedValue + 1 := rfl

/-- `cv_task_list::remove` takes out every entry of one task and no other. -/
theorem count_filter_ne (q : List Task) (t u : Task) :
    (q.filter (· ≠ u)).count t = if u = t then 0 else q.count t := by
  rcases eq_or_ne u t with rfl | hOther
  · simp [List.count_eq_zero]
  · rw [List.count_filter (by simpa using hOther.symm), if_neg hOther]

variable [DecidableEq Cond] [DecidableEq Mutex]

/-- The balance of one step. -/
theorem Step.tokens {s s' : St Task Cond Mutex} {a : Act Task Cond Mutex} (hStep : Step s a s')
    (t : Task) : tokens s' t + withdrawal s a t = tokens s t + deposit s a t := by
  cases hStep with
  | create u hLive =>
      have hNote := tokens_setNote s t u {}
      simp only [withdrawal, deposit]
      change CondVar.tokens (s.setNote u {}) t + _ = _
      rcases eq_or_ne u t with rfl | hOther
      · simpa using hNote
      · simpa [hOther] using hNote
  | exit | lock | unlock => rfl
  | delete u hLive =>
      have hNote := tokens_setNote s t u {}
      have hHand := tokens_setPc (s.setNote u {}) t u .idle
      have hIdle : (Pc.idle : Pc Task Cond Mutex).gives = none := rfl
      simp only [St.setNote_pc, hIdle, reduceCtorEq, if_false] at hHand
      change CondVar.tokens ((s.setNote u {}).setPc u .idle) t + _ = _
      simp only [withdrawal, deposit]
      rcases eq_or_ne u t with rfl | hOther
      · simp only [if_true] at hNote ⊢
        omega
      · simp only [hOther, if_false] at hNote ⊢
        omega
  | wait u c m hLive hPc | timedwait u c m ticks hLive hPc | signal u c hLive hPc
  | broadcast u c hLive hPc | wake u w hPc | expire u w hPc | popEmpty u all c hPc =>
      rw [tokens_setPc_of_gives_none s t u (by simp [Pc.gives, hPc]) rfl]
      simp [withdrawal, deposit, hPc]
  | waitLock u w hPc | waitUnlock u w hPc | mutexUnlock u w hPc | mutexLock u w hPc
  | mutexLockTimeout u w hPc | removeLock u w hPc | removeUnlock u w hPc
  | notifyLock u all c hPc | notifyUnlock u all c hPc =>
      rw [tokens_setPc_of_gives_none _ t u (by simp [Pc.gives, hPc]) rfl]
      simp [withdrawal, deposit, hPc]
  | takeBlock u w hPc | takeSkip u w hPc =>
      have hNote := tokens_setNote s t u (s.note u).announce
      rw [tokens_setPc_of_gives_none _ t u (by simp [Pc.gives, hPc]) rfl]
      simp only [Notification.announce_value] at hNote
      simp only [withdrawal, deposit, hPc]
      omega
  | takeRead u w hPc =>
      have hNote := tokens_setNote s t u (s.note u).clear
      rw [Notification.clear_value, ite_self] at hNote
      rw [tokens_setPc_of_gives_none _ t u (by simp [Pc.gives, hPc]) rfl]
      rcases eq_or_ne u t with rfl | hOther
      · simpa [withdrawal, deposit, hPc] using hNote
      · simpa [withdrawal, deposit, hPc, hOther] using hNote
  | push u w hPc =>
      have hQue := tokens_setQue s t w.cond (s.que w.cond ++ [u])
      rw [List.count_append, List.count_singleton] at hQue
      rw [tokens_setPc_of_gives_none _ t u (by simp [Pc.gives, hPc]) rfl]
      simp only [withdrawal, deposit, hPc]
      simp only [beq_iff_eq] at hQue
      omega
  | remove u w hPc =>
      have hQue := tokens_setQue s t w.cond ((s.que w.cond).filter (· ≠ u))
      rw [tokens_setPc_of_gives_none _ t u (by simp [Pc.gives, hPc]) rfl]
      rw [count_filter_ne] at hQue
      simp only [withdrawal, deposit, hPc]
      rcases eq_or_ne u t with rfl | hOther
      · simp only [if_true] at hQue ⊢
        omega
      · simp only [hOther, if_false] at hQue ⊢
        omega
  | popFront u all c front rest hPc hQue =>
      have hList := tokens_setQue s t c rest
      have hHand := tokens_setPc (s.setQue c rest) t u (.give all c front)
      rw [hQue, List.count_cons] at hList
      simp only [St.setQue_pc, hPc, Pc.gives, reduceCtorEq, if_false, Option.some.injEq] at hHand
      simp only [withdrawal, deposit, hPc]
      simp only [beq_iff_eq] at hList
      omega
  | give u all c front hPc =>
      have hNote := tokens_setNote s t front (s.note front).give
      have hHand := tokens_setPc (s.setNote front (s.note front).give) t u
        (if all then .pop all c else .notifyUnlock all c)
      have hNew : Pc.gives (if all then .pop all c else .notifyUnlock all c : Pc Task Cond Mutex) =
          none := by cases all <;> rfl
      rw [hNew] at hHand
      simp only [St.setNote_pc, hPc, Pc.gives, reduceCtorEq, if_false, Option.some.injEq] at hHand
      rw [Notification.give_value] at hNote
      simp only [withdrawal, deposit, hPc]
      rcases eq_or_ne front t with rfl | hOther
      · simp only [if_true] at hNote hHand
        omega
      · simp only [hOther, if_false] at hNote hHand
        omega

end FreeRtos.CondVar
