import FreeRtosCpp11.CondVar.Untimed

/-! Runs with timed waits. A wait that timed out re-acquires the mutex before
it removes its entry; what holds depends on what notifiers do in that window. -/
namespace FreeRtos.CondVar

set_option linter.unusedSectionVars false

variable {Task Cond Mutex : Type} [DecidableEq Task] [DecidableEq Cond] [DecidableEq Mutex]

/-- The caller, the arguments and the result of a wait that returns with this step. -/
def returns (s : St Task Cond Mutex) : Act Task Cond Mutex → Option (Task × Wait Cond Mutex × Nat)
  | .step t => match s.pc t with
      | .mutexLock w false => some (t, w, 0)
      | .removeUnlock w => some (t, w, 138)
      | _ => none
  | _ => none

/-- What a wait leaves behind when it returns with the given result. -/
structure NoResidue (past : History Task Cond Mutex) (s' : St Task Cond Mutex) (t : Task)
    (w : Wait Cond Mutex) (result : Nat) : Prop where
  mutex : s'.mtx w.mutex = some t
  entry : ∀ c, t ∉ s'.que c
  count : (s'.note t).ulNotifiedValue = 0
  /-- A timeout consumed no signal: nobody popped the entry of this wait. -/
  consumed : result = 138 → served t past = 0

/-- The caller and the arguments of a call of wait or timedwait. -/
def waits : Act Task Cond Mutex → Option (Task × Wait Cond Mutex)
  | .wait t c m => some (t, ⟨false, c, m, portMaxDelay⟩)
  | .timedwait t c m ticks => some (t, ⟨true, c, m, ticks⟩)
  | _ => none

/-- What returns leave behind, seen at one step and the history before it. -/
structure LeavesNothing (past : History Task Cond Mutex) (s : St Task Cond Mutex)
    (a : Act Task Cond Mutex) (s' : St Task Cond Mutex) : Prop where
  residue : ∀ t w result, returns s a = some (t, w, result) → NoResidue past s' t w result
  /-- A call that comes back with this step comes back by returning. -/
  back : ∀ t w call during, waits call.2 = some (t, w) →
    Answered t (past ++ [(s, a)]) s' call during → ∃ result, returns s a = some (t, w, result)

section Calls

variable {s s' : St Task Cond Mutex} {a : Act Task Cond Mutex}

/-- The arguments of the wait that the task is in. -/
def Pc.call : Pc Task Cond Mutex → Option (Wait Cond Mutex)
  | .waitLock w | .push w | .waitUnlock w | .mutexUnlock w | .take w | .blocked w | .takeRead w
  | .mutexLock w _ | .removeLock w | .remove w | .removeUnlock w => some w
  | _ => none

/-- A wait goes on with the arguments of its call, or it returns. -/
theorem Step.call_cases (hStep : Step s a s') {t : Task} {w : Wait Cond Mutex}
    (hCall : (s.pc t).call = some w) (hSpared : a ≠ .delete t) :
    (s'.pc t).call = some w ∨ s'.pc t = .idle ∧ ∃ result, returns s a = some (t, w, result) := by
  have hInside : s.pc t ≠ .idle := fun hIdle => by simp [hIdle, Pc.call] at hCall
  by_cases hActor : a = .step t ∨ a = .expire t
  · cases hStep with
    | mutexLock u v hPc | removeUnlock u v hPc =>
        obtain rfl : u = t := by simpa using hActor
        rw [hPc] at hCall
        obtain rfl := Option.some.inj hCall
        exact .inr ⟨by simp, _, by rw [returns, hPc]⟩
    | waitLock u v hPc | push u v hPc | waitUnlock u v hPc | mutexUnlock u v hPc | takeBlock u v hPc
    | takeSkip u v hPc | wake u v hPc | expire u v hPc | takeRead u v hPc | mutexLockTimeout u v hPc
    | removeLock u v hPc | remove u v hPc =>
        obtain rfl : u = t := by simpa using hActor
        rw [hPc] at hCall
        exact .inl (by simpa [Pc.call] using hCall)
    | _ => simp_all [Pc.call]
  · rw [not_or] at hActor
    rw [hStep.pc_of_ne hActor.1 hActor.2 hSpared hInside]
    exact .inl hCall

theorem returns_of_answered {s₀ : St Task Cond Mutex} {past during : History Task Cond Mutex} {t : Task}
    {w : Wait Cond Mutex} {call : St Task Cond Mutex × Act Task Cond Mutex}
    (run : (system Task Cond Mutex).Run s₀ (past ++ [(s, a)]) s') (hWaits : waits call.2 = some (t, w))
    (h : Answered t (past ++ [(s, a)]) s' call during) : ∃ result, returns s a = some (t, w, result) := by
  have hAt : (s'.pc t).call = some w ∨ s'.pc t = .idle ∧
      ∃ step result, during.getLast? = some step ∧ returns step.1 step.2 = some (t, w, result) := by
    refine h.history run (Q := fun _ _ _ _ => True) (fun _ _ _ _ _ _ _ => trivial)
      (P := fun done u => (u.pc t).call = some w ∨ u.pc t = .idle ∧
        ∃ step result, done.getLast? = some step ∧ returns step.1 step.2 = some (t, w, result)) ?_ ?_
    · rintro _ u - hNext
      have hStep := step_of_next hNext
      left
      generalize call.2 = act at hWaits hStep
      cases hStep <;> simp only [waits, reduceCtorEq, Option.some.injEq, Prod.mk.injEq] at hWaits
      case wait | timedwait =>
        obtain ⟨rfl, rfl⟩ := hWaits
        simp [Pc.call]
    · rintro _ done u b v hMem hInside - hNext (hCall | ⟨hIdle, -⟩)
      · obtain hStays | ⟨hIdle, result, hReturns⟩ :=
          (step_of_next hNext).call_cases hCall (h.spared (u, b) hMem)
        · exact .inl hStays
        · exact .inr ⟨hIdle, (u, b), result, by simp, hReturns⟩
      · simp [hIdle] at hInside
  have hIdle : s'.pc t = .idle := by simpa using h.back
  obtain hCall | ⟨-, step, result, hLast, hReturns⟩ := hAt
  · simp [hIdle, Pc.call] at hCall
  · obtain ⟨before, hTrace⟩ := h.made
    have hSame : (past ++ [(s, a)]).getLast? = some step := by
      rw [hTrace, List.getLast?_append, List.getLast?_cons, hLast]
      rfl
    obtain rfl : (s, a) = step := by simpa using hSame
    exact ⟨result, hReturns⟩

end Calls

section Returns

variable [Fintype Task] [Fintype Cond] {s s' : St Task Cond Mutex} {a : Act Task Cond Mutex}
  {trace : History Task Cond Mutex}

theorem Accounted.clean_of_idle (h : Accounted s) {t : Task} (hPc : s.pc t = .idle) :
    (∀ c, t ∉ s.que c) ∧ (s.note t).ulNotifiedValue = 0 := by
  have hTokens := h.tokens t
  simp only [hPc, Pc.listed, Pc.waiting, Pc.late, CondVar.tokens] at hTokens
  refine ⟨fun c hMem => ?_, by simp_all⟩
  have hEntry := h.entry c t hMem
  simp [hPc, Pc.listed, Pc.waiting, Pc.late] at hEntry

theorem noResidue_step (h : Audited trace s) (hFinds : removeFinds s a)
    (hNext : next s a = some s') {t : Task} {w : Wait Cond Mutex} {result : Nat}
    (hReturns : returns s a = some (t, w, result)) : NoResidue trace s' t w result := by
  have hStep := step_of_next hNext
  have hAfter := h.toAccounted.step hFinds hStep
  cases hStep with
  | mutexLock u v hPc hFree =>
      simp only [returns, hPc, Option.some.injEq, Prod.mk.injEq] at hReturns
      obtain ⟨rfl, rfl, rfl⟩ := hReturns
      obtain ⟨hEntry, hCount⟩ := hAfter.clean_of_idle (t := u) (by simp)
      exact ⟨by simp, hEntry, hCount, by simp⟩
  | removeUnlock u v hPc =>
      simp only [returns, hPc, Option.some.injEq, Prod.mk.injEq] at hReturns
      obtain ⟨rfl, rfl, rfl⟩ := hReturns
      obtain ⟨hEntry, hCount⟩ := hAfter.clean_of_idle (t := u) (by simp)
      have hServed := h.served u
      refine ⟨?_, hEntry, hCount, fun _ => by simpa [hPc, ServedAt] using hServed⟩
      exact h.mtx v.mutex u (by simp [hPc, Pc.holds])
  | _ => simp_all [returns]

/-- Waits leave no residue in a run where every timed wait that gave up still
finds its entry when it removes it. -/
theorem noResidue_of_removeFinds (hRun : (system Task Cond Mutex).Reaches trace s)
    (hFinds : Transition.Guarded removeFinds trace) :
    (system Task Cond Mutex).AtEachStep trace LeavesNothing := by
  obtain ⟨s₀, hStart, run⟩ := hRun
  have hResidue : (system Task Cond Mutex).AtEachStep trace fun past v a v' =>
      ∀ t w result, returns v a = some (t, w, result) → NoResidue past v' t w result :=
    run.atEachStep hFinds (Audited.start hStart)
      (fun trace t a u h hGuard hNext => h.step hGuard (step_of_next hNext))
      fun trace t a u h hGuard hNext v w result hReturns => noResidue_step h hGuard hNext hReturns
  rintro past v a later rfl v' hNext
  obtain ⟨hPast, -⟩ := run.split
  exact ⟨hResidue past v a later rfl v' hNext, fun t w call during hWaits hAnswered =>
    returns_of_answered (hPast.snoc hNext) hWaits hAnswered⟩

end Returns

/-- Task 0 runs out of time and waits for the mutex; task 1 signals in that
window; task 0 removes nothing and is about to return the timeout result. -/
def lateSignal : List (Act (Fin 2) (Fin 2) (Fin 1)) :=
  [.lock 0 0, .timedwait 0 0 0 1, .step 0, .step 0, .step 0, .step 0, .step 0,
    .expire 0, .step 0, .signal 1 0, .step 1, .step 1, .step 1, .step 1,
    .step 0, .step 0, .step 0]

/-- The timed wait returns its timeout result with a notification pending. -/
theorem lateSignal_residue :
    ¬ ∀ trace s, (system (Fin 2) (Fin 2) (Fin 1)).Reaches trace s →
      (system (Fin 2) (Fin 2) (Fin 1)).AtEachStep trace LeavesNothing := by
  intro hClaim
  have hRun : (system (Fin 2) (Fin 2) (Fin 1)).Reaches _ _ :=
    ⟨_, boot_start fun _ => true,
      (Transition.System.run_of_exec lateSignal rfl).snoc (a := .step 0) rfl⟩
  have hReturn := (hClaim _ _ hRun _ _ _ [] rfl _ rfl).residue 0 ⟨true, 0, 0, 1⟩ 138 rfl
  exact absurd hReturn.count (by decide)

/-- Task 0 runs out of time and removes its entry before task 1 signals; then
it waits without a limit and task 1 wakes it. -/
def promptTimeout : List (Act (Fin 2) (Fin 1) (Fin 1)) :=
  [.lock 0 0, .timedwait 0 0 0 1, .step 0, .step 0, .step 0, .step 0, .step 0,
    .expire 0, .step 0, .step 0, .step 0, .step 0, .step 0,
    .signal 1 0, .step 1, .step 1, .step 1, .unlock 0 0] ++ handover 0 1 0 0

theorem noResidue_promptTimeout :
    ∃ s, (system (Fin 2) (Fin 1) (Fin 1)).exec (boot fun _ => true) promptTimeout = some s ∧
      (system (Fin 2) (Fin 1) (Fin 1)).AtEachStep
        ((system (Fin 2) (Fin 1) (Fin 1)).replay (boot fun _ => true) promptTimeout) LeavesNothing :=
  ⟨_, rfl, noResidue_of_removeFinds
    ⟨_, boot_start _, Transition.System.run_of_exec promptTimeout rfl⟩ (by decide)⟩

/-- No notifier notifies a task whose `ulTaskNotifyTake` already answered 0, and
deletions leave nothing behind. -/
def giveInTime (s : St Task Cond Mutex) : Act Task Cond Mutex → Bool
  | .step u => match s.pc u with
      | .give _ _ t => (s.pc t).late.isNone
      | _ => true
  | a => spares s a

/-- The condition variable of a task between the push and the return of its call. -/
def Pc.inside : Pc Task Cond Mutex → Option Cond
  | .waitUnlock w | .mutexUnlock w | .take w | .blocked w | .takeRead w | .mutexLock w _
  | .removeLock w | .remove w | .removeUnlock w => some w.cond
  | _ => none

theorem Pc.inside_of_listed {p : Pc Task Cond Mutex} {c : Cond} (h : p.listed = some c) :
    p.inside = some c := by
  cases p with
  | mutexLock w fTimeout => cases fTimeout <;> simp_all [listed, waiting, late, inside]
  | _ => simp_all [listed, waiting, late, inside]

/-- What notifiers do with the handles of waiting tasks, seen at one step and
the history before it. -/
structure SpentOnWaiter (past : History Task Cond Mutex) (s : St Task Cond Mutex)
    (a : Act Task Cond Mutex) (s' : St Task Cond Mutex) : Prop where
  /-- A handle that leaves the front of a list is that of a live task inside a
  wait on the same condition variable. -/
  popped : ∀ u c t, a = .step u → s.que c = t :: s'.que c →
    s.live t = true ∧ (s.pc t).inside = some c
  /-- A notification goes to a live task in a wait whose take has not returned
  yet, from the holder of that queue lock, and it is the only one pending. -/
  given : ∀ u t, a = .step u → notifies t (s, a) →
    s.live t = true ∧ (∃ c, (s.pc t).waiting = some c ∧ s.sem c = some u) ∧
      (s'.note t).ulNotifiedValue = 1
  /-- A signal or broadcast that comes back with this step popped and notified
  what it is to pop and notify. -/
  serves : ∀ all u c v during, Answered u (past ++ [(s, a)]) s' (v, notify all u c) during →
    ∃ w held, Serves all u c during w held
  /-- A signal that comes back with this step woke a task, if any was waiting
  when it took the queue lock. -/
  wakes : ∀ u c v during, Answered u (past ++ [(s, a)]) s' (v, .signal u c) during →
    ∃ w held, Locks u c during w held ∧
      ∀ t, (w.pc t).waiting = some c → (w.note t).ulNotifiedValue = 0 →
        ∃ front, popsBy u c during = [front] ∧ ∃ step ∈ during, step.2 = .step u ∧
          notifies front step ∧ step.1.live front = true ∧ (step.1.pc front).waiting = some c

section Spent

variable [Fintype Task] [Fintype Cond] {s s' : St Task Cond Mutex} {a : Act Task Cond Mutex}
  {trace : History Task Cond Mutex}

/-- A task that gave up has no notification pending. -/
def Prompt (s : St Task Cond Mutex) : Prop :=
  ∀ t, (s.pc t).late ≠ none → (s.note t).ulNotifiedValue = 0

theorem Prompt.step (h : Prompt s) (hTime : giveInTime s a) (hStep : Step s a s') :
    Prompt s' := by
  intro t hLate
  cases hStep with
  | create u hLive =>
      rcases eq_or_ne t u with rfl | hOther
      · simp
      · simpa [hOther] using h t hLate
  | delete u hLive =>
      rcases eq_or_ne t u with rfl | hOther
      · simp
      · simpa [hOther] using h t (by simpa [hOther] using hLate)
  | exit | lock | unlock => exact h t hLate
  | takeRead u w hPc =>
      rcases eq_or_ne t u with rfl | hOther
      · simp
      · simpa [hOther] using h t (by simpa [hOther] using hLate)
  | takeBlock u w hPc | takeSkip u w hPc =>
      rcases eq_or_ne t u with rfl | hOther
      · simp [Pc.late] at hLate
      · simpa [hOther] using h t (by simpa [hOther] using hLate)
  | give u all c front hPc =>
      rcases eq_or_ne t u with rfl | hOther
      · cases all <;> simp [Pc.late] at hLate
      have hBefore : (s.pc t).late ≠ none := by simpa [hOther] using hLate
      rcases eq_or_ne t front with rfl | hFront
      · exact absurd (by simpa [giveInTime, hPc] using hTime) hBefore
      · simpa [hFront] using h t hBefore
  | mutexLockTimeout u w hPc | removeLock u w hPc =>
      rcases eq_or_ne t u with rfl | hOther
      · exact h t (by simp [hPc, Pc.late])
      · exact h t (by simpa [hOther] using hLate)
  | wait u | timedwait u | signal u | broadcast u | waitLock u | push u | waitUnlock u
  | mutexUnlock u | wake u | expire u | mutexLock u | remove u | removeUnlock u | notifyLock u
  | popEmpty u | popFront u | notifyUnlock u =>
      rcases eq_or_ne t u with rfl | hOther
      · simp [Pc.late] at hLate
      · exact h t (by simpa [hOther] using hLate)

/-- A task that gave up and has no notification pending is still in the list
when it removes its entry: it holds the lock that a notifier would need. -/
theorem Accounted.removeFinds_of_prompt (h : Accounted s) (hPrompt : Prompt s)
    (hTime : giveInTime s a) : removeFinds s a = true := by
  cases a with
  | step t =>
      cases hPc : s.pc t with
      | remove w =>
          have hValue := hPrompt t (by simp [hPc, Pc.late])
          have hListed : (s.pc t).listed = some w.cond := by simp [hPc, Pc.listed, Pc.waiting, Pc.late]
          have hMem := h.mem_que hListed hValue fun u all d hGive => by
            have hHolder := (h.sem w.cond t).mpr (by simp [claims, hPc, Pc.locks])
            rw [h.sem_of_give hListed hGive, Option.some.injEq] at hHolder
            subst hHolder
            cases hPc.symm.trans hGive
          simpa [removeFinds, hPc] using hMem
      | _ => simp [removeFinds, hPc]
  | _ => exact hTime

theorem Accounted.attentive (h : Accounted s) (hTime : giveInTime s a) : Attentive s a where
  toAccounted := h
  gives v all d t hAct hPc := by
    have hLate : (s.pc t).late = none := by simpa [giveInTime, hAct, hPc] using hTime
    simpa [Pc.listed, hLate] using h.hand v all d t hPc

/-- Only `xTaskNotifyGive` raises a count. -/
theorem Step.give_of_notifies {u t : Task} (hStep : Step s (.step u) s')
    (hNext : next s (.step u) = some s') (hNotifies : notifies t (s, .step u)) :
    ∃ all c, s.pc u = .give all c t := by
  rw [notifies_of_next hNext] at hNotifies
  cases hStep with
  | give u all c front hPc =>
      rcases eq_or_ne t front with rfl | hOther
      · exact ⟨all, c, hPc⟩
      · simp [hOther] at hNotifies
  | takeBlock u w | takeSkip u w | takeRead u w =>
      rcases eq_or_ne t u with rfl | hOther
      · simp at hNotifies
      · simp [hOther] at hNotifies
  | _ => simp at hNotifies

/-- No signal is lost in a run where every notification reaches its task before
that task gives up. -/
theorem spentOnWaiter_of_giveInTime (hRun : (system Task Cond Mutex).Reaches trace s)
    (hTime : Transition.Guarded giveInTime trace) :
    (system Task Cond Mutex).AtEachStep trace fun past v a v' => SpentOnWaiter past v a v' := by
  obtain ⟨s₀, hStart, run⟩ := hRun
  have hEach : (system Task Cond Mutex).AtEachStep trace fun _ v a _ => Attentive v a := by
    refine run.atEachStep (P := fun _ v => Accounted v ∧ Prompt v) hTime
      ⟨.start hStart, fun t => by simp [hStart.note]⟩ ?_ ?_
    · rintro _ t a u ⟨h, hPrompt⟩ hGuard hNext
      have hStep := step_of_next hNext
      exact ⟨h.step (h.removeFinds_of_prompt hPrompt hGuard) hStep, hPrompt.step hGuard hStep⟩
    · rintro _ t a u ⟨h, _⟩ hGuard _
      exact h.attentive hGuard
  rintro past v a later rfl v' hNext
  have h : Attentive v a := hEach past v a later rfl v' hNext
  have hStep : Step v a v' := step_of_next hNext
  obtain ⟨hPast, _⟩ := run.split
  have hServes : ∀ all u c w during, Answered u (past ++ [(v, a)]) v' (w, notify all u c) during →
      ∃ x held, Serves all u c during x held := fun all u c w during hAnswered =>
    serves_of_answered (hPast.snoc hNext) (hEach.of_append (List.append_cons ..).symm) hAnswered
  refine ⟨fun u c t hAct hQue => ?_, fun u t hAct hNotifies => ?_, hServes, fun u c w during hAnswered => ?_⟩
  · have hListed := h.entry c t (by simp [hQue])
    exact ⟨h.live_of_listed hListed, Pc.inside_of_listed hListed⟩
  · subst hAct
    obtain ⟨all, c, hPc⟩ := hStep.give_of_notifies hNext hNotifies
    have hWaiting := h.gives u all c t rfl hPc
    have hListed : (v.pc t).listed = some c := by simp [Pc.listed, hWaiting]
    refine ⟨h.live_of_listed hListed, ⟨c, hWaiting, h.sem_of_give hListed hPc⟩, ?_⟩
    have hNow : next v (.step u) = some v' := hNext
    rw [(notifies_of_next hNow).mp hNotifies, h.of_give hPc]
  · obtain ⟨x, held, hServed⟩ := hServes false u c w during hAnswered
    exact ⟨x, held, hServed.toLocks, fun t => hServed.wakes⟩

end Spent

/-- After the late signal task 0 waits on the other condition variable, comes
back at once because of the notification left over, and ends; its entry stays.
Task 1 signals that condition variable. The pop itself is left out. -/
def staleEntry : List (Act (Fin 2) (Fin 2) (Fin 1)) :=
  lateSignal ++ [.step 0, .wait 0 1 0, .step 0, .step 0, .step 0, .step 0, .step 0, .step 0,
    .step 0, .unlock 0 0, .exit 0, .signal 1 1, .step 1]

/-- A signal pops the handle of a task that left its wait and was deleted. -/
theorem staleEntry_popped :
    ¬ ∀ trace s, (system (Fin 2) (Fin 2) (Fin 1)).Reaches trace s →
      (system (Fin 2) (Fin 2) (Fin 1)).AtEachStep trace fun past v a v' =>
        SpentOnWaiter past v a v' := by
  intro hClaim
  have hRun : (system (Fin 2) (Fin 2) (Fin 1)).Reaches _ _ :=
    ⟨_, boot_start fun _ => true,
      (Transition.System.run_of_exec staleEntry rfl).snoc (a := .step 1) rfl⟩
  have hPop := hClaim _ _ hRun _ _ _ [] rfl _ rfl
  exact absurd (hPop.popped 1 1 0 rfl rfl).1 (by decide)

theorem spentOnWaiter_promptTimeout :
    ∃ s, (system (Fin 2) (Fin 1) (Fin 1)).exec (boot fun _ => true) promptTimeout = some s ∧
      (system (Fin 2) (Fin 1) (Fin 1)).AtEachStep
        ((system (Fin 2) (Fin 1) (Fin 1)).replay (boot fun _ => true) promptTimeout)
        fun past v a v' => SpentOnWaiter past v a v' :=
  ⟨_, rfl, spentOnWaiter_of_giveInTime
    ⟨_, boot_start _, Transition.System.run_of_exec promptTimeout rfl⟩ (by decide)⟩

end FreeRtos.CondVar
