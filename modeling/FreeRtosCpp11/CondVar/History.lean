import FreeRtosCpp11.CondVar.Waiters

/-! What the history of a run says about its waits: how often a wait was
served, and in which order handles went through a list. -/
namespace FreeRtos.CondVar

set_option linter.unusedSectionVars false

variable {Task Cond Mutex : Type} [DecidableEq Task] [DecidableEq Cond] [DecidableEq Mutex]

/-- The operations that put a handle on a list and take its front off. -/
inductive Event (Task Cond : Type) where
  | push (t : Task) (c : Cond)
  | pop (u : Task) (c : Cond) (t : Task)
  deriving DecidableEq

/-- The event of an action that is enabled. -/
def label (s : St Task Cond Mutex) : Act Task Cond Mutex → Option (Event Task Cond)
  | .step u => match s.pc u with
      | .push w => some (.push u w.cond)
      | .pop _ c => (s.que c).head?.map (.pop u c)
      | _ => none
  | _ => none

abbrev History (Task Cond Mutex : Type) :=
  Transition.Trace (St Task Cond Mutex) (Act Task Cond Mutex)

def serve (t : Task) (n : Nat) (step : St Task Cond Mutex × Act Task Cond Mutex) : Nat :=
  match label step.1 step.2 with
  | some (.push u _) => if u = t then 0 else n
  | some (.pop _ _ u) => if u = t then n + 1 else n
  | _ => n

/-- How often the task was popped since its last push. -/
def served (t : Task) (trace : History Task Cond Mutex) : Nat :=
  trace.foldl (serve t) 0

/-- The handles pushed on one list, in order. -/
def pushes (c : Cond) (trace : History Task Cond Mutex) : List Task :=
  trace.filterMap fun step => match label step.1 step.2 with
    | some (.push t d) => if d = c then some t else none
    | _ => none

/-- The handles popped from one list, in order. -/
def pops (c : Cond) (trace : History Task Cond Mutex) : List Task :=
  trace.filterMap fun step => match label step.1 step.2 with
    | some (.pop _ d t) => if d = c then some t else none
    | _ => none

/-- A served count that fits the statement a task is at, given the number of
its queue entries. -/
def ServedAt (n entries : Nat) : Pc Task Cond Mutex → Prop
  | .removeUnlock _ => n = 0
  | .mutexLock _ false => n = 1
  | p => p.listed.isSome → n + entries = 1

theorem servedAt_of_listed {n entries : Nat} {p : Pc Task Cond Mutex} {c : Cond}
    (h : p.listed = some c) : ServedAt n entries p ↔ n + entries = 1 := by
  unfold ServedAt
  split
  · cases h
  · cases h
  · simp [h]

/-- Only pushes and pops count. -/
theorem serve_of_quiet {s : St Task Cond Mutex} {a : Act Task Cond Mutex} {t : Task} {n : Nat}
    (h : label s a = none) : serve t n (s, a) = n := by
  simp [serve, h]

section Served

variable [Fintype Task] [Fintype Cond] {s s' : St Task Cond Mutex} {a : Act Task Cond Mutex}
  {trace : History Task Cond Mutex}

theorem served_step (h : Accounted s) (hFinds : removeFinds s a) (hStep : Step s a s')
    (hServed : ∀ t, ServedAt (served t trace) (queued s t) (s.pc t)) (t : Task) :
    ServedAt (served t (trace ++ [(s, a)])) (queued s' t) (s'.pc t) := by
  have hHere := hServed t
  have hFold : served t (trace ++ [(s, a)]) = serve t (served t trace) (s, a) := by
    simp [served]
  rw [hFold]
  cases hStep with
  | create | exit | lock | unlock => exact hHere
  | delete u hLive =>
      change ServedAt _ (queued s t) _
      rw [serve_of_quiet rfl]
      rcases eq_or_ne t u with rfl | hOther
      · rw [St.setPc_pc, Function.update_self]
        rintro ⟨⟩
      · simpa [hOther] using hHere
  | wait u c m hLive hPc | timedwait u c m ticks hLive hPc | signal u c hLive hPc
  | broadcast u c hLive hPc | waitLock u w hPc | mutexLock u w hPc | removeUnlock u w hPc
  | notifyLock u all c hPc | notifyUnlock u all c hPc =>
      change ServedAt _ (queued s t) _
      rw [serve_of_quiet (by simp [label, hPc])]
      rcases eq_or_ne t u with rfl | hOther
      · rw [St.setPc_pc, Function.update_self]
        rintro ⟨⟩
      · simpa [hOther] using hHere
  | waitUnlock u w hPc | mutexUnlock u w hPc | takeBlock u w hPc | takeSkip u w hPc
  | wake u w hPc | expire u w hPc | mutexLockTimeout u w hPc | removeLock u w hPc =>
      change ServedAt _ (queued s t) _
      rw [serve_of_quiet (by simp [label, hPc])]
      rcases eq_or_ne t u with rfl | hOther
      · rw [hPc, servedAt_of_listed (c := w.cond) rfl] at hHere
        rwa [St.setPc_pc, Function.update_self, servedAt_of_listed (c := w.cond) rfl]
      · simpa [hOther] using hHere
  | push u w hPc =>
      have hQue := queued_setQue s t w.cond (s.que w.cond ++ [u])
      rw [List.count_append, List.count_singleton] at hQue
      change ServedAt _ (queued (s.setQue w.cond (s.que w.cond ++ [u])) t) _
      rcases eq_or_ne t u with rfl | hOther
      · have hTokens := h.tokens t
        simp [hPc, Pc.listed, Pc.waiting, Pc.late, CondVar.tokens] at hTokens
        simp [serve, label, hPc, ServedAt, Pc.listed, Pc.waiting]
        simp at hQue
        omega
      · have hSame : queued (s.setQue w.cond (s.que w.cond ++ [u])) t = queued s t := by
          simp [hOther.symm] at hQue
          omega
        simpa [serve, label, hPc, hOther, hOther.symm, hSame] using hHere
  | popEmpty u all c hPc hQue =>
      change ServedAt _ (queued s t) _
      rcases eq_or_ne t u with rfl | hOther
      · simp [serve, label, hPc, hQue, ServedAt, Pc.listed, Pc.waiting, Pc.late]
      · simpa [serve, label, hPc, hOther, hQue] using hHere
  | popFront u all c front rest hPc hQue =>
      have hList := queued_setQue s t c rest
      rw [hQue, List.count_cons] at hList
      change ServedAt _ (queued (s.setQue c rest) t) _
      have hListed : (s.pc front).listed = some c := h.entry c front (by simp [hQue])
      have hActor : front ≠ u := by
        rintro rfl
        simp [hPc, Pc.listed, Pc.waiting, Pc.late] at hListed
      rcases eq_or_ne t front with rfl | hFront
      · rw [servedAt_of_listed hListed] at hHere
        rw [servedAt_of_listed (by simpa [hActor] using hListed)]
        simp only [serve, label, hPc, hQue, List.head?_cons, Option.map_some, if_true]
        simp only [beq_self_eq_true, if_true] at hList
        omega
      · have hSame : queued (s.setQue c rest) t = queued s t := by
          simp only [beq_iff_eq, hFront.symm, if_false] at hList
          omega
        rcases eq_or_ne t u with rfl | hOther
        · simp [ServedAt, Pc.listed, Pc.waiting, Pc.late]
        · simpa [serve, label, hPc, hQue, hFront.symm, hOther, hSame] using hHere
  | takeRead u w hPc =>
      change ServedAt _ (queued s t) _
      rcases eq_or_ne t u with rfl | hOther
      · have hTokens := h.tokens_le t
        rw [hPc, servedAt_of_listed (c := w.cond) rfl] at hHere
        simp only [serve, label, hPc, St.setPc_pc, Function.update_self]
        by_cases hZero : (s.note t).ulNotifiedValue = 0
        · have hTimed := h.timed_of_zero hPc hZero
          simpa [hZero, hTimed, servedAt_of_listed (p := .mutexLock w true) rfl] using hHere
        · simp only [beq_eq_false_iff_ne.mpr hZero, Bool.and_false, ServedAt]
          omega
      · simpa [serve, label, hPc, hOther] using hHere
  | remove u w hPc =>
      have hQue := queued_setQue s t w.cond ((s.que w.cond).filter (· ≠ u))
      rw [count_filter_ne] at hQue
      change ServedAt _ (queued (s.setQue w.cond _) t) _
      rcases eq_or_ne t u with rfl | hOther
      · obtain ⟨hCount, hQueued, _⟩ := h.count_of_remove hPc hFinds
        rw [hPc, servedAt_of_listed (c := w.cond) rfl] at hHere
        simp only [serve, label, hPc, St.setPc_pc, Function.update_self, ServedAt]
        omega
      · rw [if_neg hOther.symm, Nat.add_right_cancel_iff] at hQue
        simp only [serve, label, hPc, St.setPc_pc, Function.update_of_ne hOther, hQue]
        exact hHere
  | give u all c front hPc =>
      change ServedAt _ (queued s t) _
      rcases eq_or_ne t u with rfl | hOther
      · cases all <;> simp [serve, label, hPc, ServedAt, Pc.listed, Pc.waiting, Pc.late]
      · simpa [serve, label, hPc, hOther] using hHere

end Served

section Order

variable {s s' : St Task Cond Mutex} {a : Act Task Cond Mutex} {trace : History Task Cond Mutex}

theorem order_of_push (trace : History Task Cond Mutex) {t : Task} {d : Cond}
    (hEvent : label s a = some (.push t d)) (c : Cond) :
    pushes c (trace ++ [(s, a)]) = pushes c trace ++ (if d = c then [t] else []) ∧
      pops c (trace ++ [(s, a)]) = pops c trace := by
  by_cases hSame : d = c <;> simp [pushes, pops, hEvent, hSame]

theorem order_of_pop (trace : History Task Cond Mutex) {u t : Task} {d : Cond}
    (hEvent : label s a = some (.pop u d t)) (c : Cond) :
    pushes c (trace ++ [(s, a)]) = pushes c trace ∧
      pops c (trace ++ [(s, a)]) = pops c trace ++ (if d = c then [t] else []) := by
  by_cases hSame : d = c <;> simp [pushes, pops, hEvent, hSame]

/-- A step that neither pushes nor pops. -/
theorem order_of_quiet (trace : History Task Cond Mutex) (hEvent : label s a = none) (c : Cond) :
    pushes c (trace ++ [(s, a)]) = pushes c trace ∧ pops c (trace ++ [(s, a)]) = pops c trace := by
  simp [pushes, pops, hEvent]

/-- A list is what was pushed on it and not popped, as long as nobody removes
an entry from the middle. -/
theorem order_step (hRemove : ∀ t w, s.pc t ≠ .remove w) (hStep : Step s a s') (c : Cond)
    (hOrder : pushes c trace = pops c trace ++ s.que c) :
    pushes c (trace ++ [(s, a)]) = pops c (trace ++ [(s, a)]) ++ s'.que c := by
  have hQuiet : label s a = none → s'.que c = s.que c →
      pushes c (trace ++ [(s, a)]) = pops c (trace ++ [(s, a)]) ++ s'.que c := by
    intro hEvent hQue
    obtain ⟨hPushes, hPops⟩ := order_of_quiet trace hEvent c
    rw [hPushes, hPops, hQue, hOrder]
  cases hStep with
  | create | exit | delete | lock | unlock => exact hQuiet rfl rfl
  | push u w hPc =>
      have hEvent : label s (.step u) = some (.push u w.cond) := by simp [label, hPc]
      obtain ⟨hPushes, hPops⟩ := order_of_push trace hEvent c
      rw [hPushes, hPops, hOrder]
      rcases eq_or_ne c w.cond with rfl | hOther
      · simp
      · simp [hOther, hOther.symm]
  | popFront u all d front rest hPc hQue =>
      have hEvent : label s (.step u) = some (.pop u d front) := by simp [label, hPc, hQue]
      obtain ⟨hPushes, hPops⟩ := order_of_pop trace hEvent c
      rw [hPushes, hPops, hOrder]
      rcases eq_or_ne c d with rfl | hOther
      · simp [hQue]
      · simp [hOther, hOther.symm]
  | popEmpty u all d hPc hQue => exact hQuiet (by simp [label, hPc, hQue]) rfl
  | remove u w hPc => exact absurd hPc (hRemove u w)
  | wait u c m hLive hPc | timedwait u c m ticks hLive hPc | signal u c hLive hPc
  | broadcast u c hLive hPc | wake u w hPc | expire u w hPc
  | waitLock u w hPc | waitUnlock u w hPc | mutexUnlock u w hPc | mutexLock u w hPc
  | mutexLockTimeout u w hPc | removeLock u w hPc | removeUnlock u w hPc | takeBlock u w hPc
  | takeSkip u w hPc | notifyLock u all c hPc | notifyUnlock u all c hPc | takeRead u w hPc
  | give u all c front hPc => exact hQuiet (by simp [label, hPc]) rfl

end Order

section Audit

variable [Fintype Task] [Fintype Cond] {s s' : St Task Cond Mutex} {a : Act Task Cond Mutex}
  {trace : History Task Cond Mutex}

/-- The state and the history agree about every wait and every notifier. -/
structure Audited (trace : History Task Cond Mutex) (s : St Task Cond Mutex) : Prop extends
    Accounted s where
  served : ∀ t, ServedAt (served t trace) (queued s t) (s.pc t)

theorem Audited.start (h : Start s) : Audited [] s where
  toAccounted := .start h
  served t := by simp [ServedAt, h.pc, Pc.listed, Pc.waiting, Pc.late]

theorem Audited.step (h : Audited trace s) (hFinds : removeFinds s a) (hStep : Step s a s') :
    Audited (trace ++ [(s, a)]) s' where
  toAccounted := h.toAccounted.step hFinds hStep
  served := served_step h.toAccounted hFinds hStep h.served

/-- In a run where every timed wait finds its entry, history and state agree. -/
theorem audited_of_reaches (hRun : (system Task Cond Mutex).Reaches trace s)
    (hFinds : Transition.Guarded removeFinds trace) : Audited trace s := by
  obtain ⟨s₀, hStart, run⟩ := hRun
  exact run.history hFinds (.start hStart)
    fun trace t a u h hGuard hNext => h.step hGuard (step_of_next hNext)

/-- The notification of a waiter is pending exactly when one notifier popped
its entry and is done with it. -/
theorem Audited.value_ne_zero_iff (h : Audited trace s) {t : Task} {c : Cond}
    (hListed : (s.pc t).listed = some c) :
    (s.note t).ulNotifiedValue ≠ 0 ↔
      CondVar.served t trace = 1 ∧ ∀ u all d, s.pc u ≠ .give all d t := by
  have hServed := (servedAt_of_listed hListed).mp (h.served t)
  have hTotal := h.tokens_le t
  constructor
  · intro hValue
    refine ⟨by omega, fun u all d hGive => hValue (h.of_give hGive)⟩
  · rintro ⟨hOne, hHand⟩ hValue
    have hCount := List.count_pos_iff.mpr (h.mem_que hListed hValue hHand)
    have hQueued := count_le_queued s c t
    omega

end Audit

end FreeRtos.CondVar
