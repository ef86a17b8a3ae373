import FreeRtosCpp11.KeyStore.Machine

/-! What the key is for: each thread has a variable of its own, and at its exit
the destructor gets the last value. The map simulates these variables as long
as no thread is created under a handle that still has an entry and none is
deleted when the destructor is about to run for it. -/
namespace FreeRtos.KeyStore

open Transition

/-- One variable for each thread; null until the thread sets it. -/
structure Variables (Thread Value : Type) where
  value : Thread → Option Value
  /-- The value that exit processing removed. -/
  taken : Thread → Option Value

variable {Thread Handle Value : Type} [DecidableEq Thread] [DecidableEq Handle]

def Variables.step (v : Variables Thread Value) : Act Thread Value → Variables Thread Value
  | .setspecific t ptr => { v with value := Function.update v.value t ptr }
  | .callDestructor t =>
      { value := Function.update v.value t none, taken := Function.update v.taken t (v.value t) }
  | _ => v

/-- The variables after a history. -/
def vars (past : History Thread Handle Value) : Variables Thread Value :=
  past.foldl (fun v step => v.step step.2) ⟨fun _ => none, fun _ => none⟩

/-- The value with which the destructor begins to run for the thread between two states. -/
def invoked (s s' : St Thread Handle Value) (t : Thread) : Option Value :=
  if (s.phase t).argument.isNone then (s'.phase t).argument else none

/-- The value with which a step invokes the registered destructor for the thread. -/
def invokes [DecidableEq Value] (handle : Thread → Handle) (desFoo : Bool) (t : Thread)
    (step : St Thread Handle Value × Act Thread Value) : Option Value :=
  (next handle desFoo step.1 step.2).bind fun s' => invoked step.1 s' t

/-- The values with which the destructor was invoked for the thread. -/
def invocations [DecidableEq Value] (handle : Thread → Handle) (desFoo : Bool)
    (past : History Thread Handle Value) (t : Thread) : List Value :=
  past.filterMap (invokes handle desFoo t)

/-- The thread is past `if (_desFoo && val) _desFoo(val)`, or will not come there any more. -/
def Phase.pastDesFoo : Phase Value → Bool
  | .destructing _ | .exited | .reclaimed => true
  | _ => false

/-- What exit processing owes by now: one call with the last value, where there
is a destructor and the value is not null. A thread deleted before its exit has
nothing taken from it. -/
def due (desFoo : Bool) (past : History Thread Handle Value) (s : St Thread Handle Value) (t : Thread) :
    List Value :=
  if (s.phase t).pastDesFoo && desFoo then ((vars past).taken t).toList else []

/-- The step respects the variables. -/
structure Refines [DecidableEq Value] (handle : Thread → Handle) (desFoo : Bool)
    (past : History Thread Handle Value)
    (s : St Thread Handle Value) (a : Act Thread Value) (s' : St Thread Handle Value) : Prop where
  getspecific : ∀ t, a = .getspecific t → s.getspecific (handle t) = (vars past).value t
  /-- What any thread would get next. -/
  value : ∀ t, (s'.phase t).live → s'.getspecific (handle t) = (vars (past ++ [(s, a)])).value t
  others : ∀ t, t ≠ a.thread → (s.phase t).live → s'.getspecific (handle t) = s.getspecific (handle t)
  destructor : ∀ t, invocations handle desFoo (past ++ [(s, a)]) t = due desFoo (past ++ [(s, a)]) s' t

/-- A thread is created under a handle that has no entry. -/
def startsEmpty (handle : Thread → Handle) (s : St Thread Handle Value) : Act Thread Value → Bool
  | .create t => (s.specValue (handle t)).isNone
  | _ => true

/-- No thread is deleted between the section that took its value and the call of
the destructor. -/
def exitsWhole (desFoo : Bool) (s : St Thread Handle Value) : Act Thread Value → Bool
  | .delete t => match s.phase t with
      | .erased val => !(desFoo && val.isSome)
      | _ => true
  | _ => true

def undisturbed (handle : Thread → Handle) (desFoo : Bool) (s : St Thread Handle Value)
    (a : Act Thread Value) : Bool :=
  startsEmpty handle s a && exitsWhole desFoo s a

variable {handle : Thread → Handle} {desFoo : Bool} {s s' : St Thread Handle Value} {a : Act Thread Value}
  {past : History Thread Handle Value}

omit [DecidableEq Handle] in
theorem vars_snoc (past : History Thread Handle Value) (s : St Thread Handle Value)
    (a : Act Thread Value)  : vars (past ++ [(s, a)]) = (vars past).step a := by
  simp [vars]

theorem invocations_snoc [DecidableEq Value] (past : History Thread Handle Value)
    (hNext : next handle desFoo s a = some s') (t : Thread) :
    invocations handle desFoo (past ++ [(s, a)]) t =
      invocations handle desFoo past t ++ (invoked s s' t).toList := by
  have hInvokes : invokes handle desFoo t (s, a) = invoked s s' t := by rw [invokes, hNext]; rfl
  simp only [invocations, List.filterMap_append, List.filterMap_cons, List.filterMap_nil, hInvokes]
  cases invoked s s' t <;> rfl

omit [DecidableEq Thread] in
theorem getspecific_setspecific (s : St Thread Handle Value) (task other : Handle) (ptr : Option Value) :
    (s.setspecific task ptr).getspecific other = if other = task then ptr else s.getspecific other := by
  rcases eq_or_ne other task with rfl | hNe
  · cases ptr <;> simp [St.setspecific, St.getspecific]
  · simp [St.setspecific, St.getspecific, hNe]

/-- The heap gives no handle twice at a time. -/
def Occupied (handle : Thread → Handle) (s : St Thread Handle Value) : Prop :=
  ∀ h t, s.occupant h = some t ↔ handle t = h ∧ (s.phase t).live = true

/-- The map holds the variables of the live threads. -/
structure Mirrors (handle : Thread → Handle) (past : History Thread Handle Value)
    (s : St Thread Handle Value) : Prop where
  occupied : Occupied handle s
  stored : ∀ h, s.specValue h ≠ some none
  unborn : ∀ t, s.phase t = .unborn → (vars past).value t = none
  untaken : ∀ t, s.phase t = .unborn ∨ s.phase t = .running → (vars past).taken t = none
  value : ∀ t, (s.phase t).live = true → s.getspecific (handle t) = (vars past).value t
  erased : ∀ t val, s.phase t = .erased val → val = (vars past).taken t

/-- The destructor has run for nobody but whom it was due. -/
structure Simulates [DecidableEq Value] (handle : Thread → Handle) (desFoo : Bool)
    (past : History Thread Handle Value) (s : St Thread Handle Value) : Prop
    extends Mirrors handle past s where
  destructor : ∀ t, invocations handle desFoo past t = due desFoo past s t

omit [DecidableEq Thread] [DecidableEq Handle] in
theorem Occupied.injective (h : Occupied handle s) {t u : Thread} (hLeft : (s.phase t).live = true)
    (hRight : (s.phase u).live = true) (hEq : handle t = handle u) : t = u := by
  have hAt := (h (handle t) t).mpr ⟨rfl, hLeft⟩
  rw [(h (handle t) u).mpr ⟨hEq.symm, hRight⟩] at hAt
  exact (Option.some.inj hAt).symm

omit [DecidableEq Handle] in
theorem Occupied.setPhase (h : Occupied handle s) {t : Thread} {phase : Phase Value}
    (hBefore : (s.phase t).live = true) (hAfter : phase.live = true) :
    Occupied handle (s.setPhase t phase) := by
  intro x u
  rcases eq_or_ne u t with rfl | hNe
  · simpa [St.setPhase, hAfter, hBefore] using h x u
  · simpa [St.setPhase, hNe] using h x u

/-- A handle goes to a thread, or is given back, while no other live thread has it. -/
theorem Occupied.replace (h : Occupied handle s) {t : Thread} {phase : Phase Value} {o : Option Thread}
    (hOwn : o = if phase.live then some t else none)
    (hAlone : ∀ u, u ≠ t → handle u = handle t → (s.phase u).live = false) :
    Occupied handle
      { s.setPhase t phase with occupant := Function.update s.occupant (handle t) o } := by
  intro x u
  have hOld := h x u
  rcases eq_or_ne x (handle t) with rfl | hOther
  · rcases eq_or_ne u t with rfl | hNe
    · simp [St.setPhase, hOwn]
    · have hNobody : o ≠ some u := by
        rw [hOwn]
        split <;> simp [hNe.symm]
      simpa [St.setPhase, hNe, hNobody] using hAlone u hNe
  · rcases eq_or_ne u t with rfl | hNe
    · simp only [hOther.symm, false_and, iff_false] at hOld
      simp [St.setPhase, hOther, hOther.symm, hOld]
    · simpa [St.setPhase, hNe, hOther] using hOld

theorem Occupied.create (h : Occupied handle s) {t : Thread} (hFree : s.occupant (handle t) = none) :
    Occupied handle
      { s.setPhase t .running with occupant := Function.update s.occupant (handle t) (some t) } := by
  refine h.replace rfl fun u _ hSame => Bool.eq_false_iff.mpr fun hLive => ?_
  have hAt := (h (handle t) u).mpr ⟨hSame, hLive⟩
  rw [hFree] at hAt
  cases hAt

theorem Occupied.free (h : Occupied handle s) {t : Thread} (hLive : (s.phase t).live = true) :
    Occupied handle (s.free t (handle t)) :=
  h.replace rfl fun _ hNe hSame =>
    Bool.eq_false_iff.mpr fun hOther => hNe (h.injective hOther hLive hSame)

theorem Occupied.step (h : Occupied handle s) (hStep : Step handle desFoo s a s') : Occupied handle s' := by
  cases hStep with
  | create t _ hFree => exact h.create hFree
  | getspecific => exact h
  | setspecific => exact h
  | absent t hRunning => exact h.setPhase (by simp [hRunning, Phase.live]) rfl
  | erase t val hRunning => exact h.setPhase (by simp [hRunning, Phase.live]) rfl
  | invoke t v hErased => exact h.setPhase (by simp [hErased, Phase.live]) rfl
  | skip t val hErased => exact h.setPhase (by simp [hErased, Phase.live]) rfl
  | desFooReturns t v hDestructing => exact h.setPhase (by simp [hDestructing, Phase.live]) rfl
  | reclaim t hExited => exact h.free (by simp [hExited, Phase.live])
  | delete t hLive => exact h.free hLive

/-- User code runs in live threads only. -/
theorem live_of_inUserCode {phase : Phase Value} (hUser : phase.inUserCode = true) : phase.live = true := by
  cases phase <;> simp_all [Phase.inUserCode, Phase.live]

omit [DecidableEq Handle] in
theorem live_of_setPhase {t u : Thread} {phase : Phase Value} (hBefore : (s.phase t).live = true)
    (hAfter : ((s.setPhase t phase).phase u).live = true) : (s.phase u).live = true := by
  rcases eq_or_ne u t with rfl | hNe
  · exact hBefore
  · simpa [St.setPhase, hNe] using hAfter

theorem Mirrors.value_step (h : Mirrors handle past s) (hStep : Step handle desFoo s a s')
    (hStarts : startsEmpty handle s a = true) (u : Thread) (hLive : (s'.phase u).live = true) :
    s'.getspecific (handle u) = (vars (past ++ [(s, a)])).value u := by
  rw [vars_snoc]
  cases hStep with
  | create t hUnborn hFree =>
      rcases eq_or_ne u t with rfl | hNe
      · have hAbsent : s.specValue (handle u) = none := Option.isNone_iff_eq_none.mp hStarts
        simp [St.getspecific, St.setPhase, hAbsent, Variables.step, h.unborn u hUnborn]
      · exact h.value u (by simpa [St.setPhase, hNe] using hLive)
  | getspecific t hUser => exact h.value u hLive
  | setspecific t ptr hUser =>
      rw [getspecific_setspecific]
      rcases eq_or_ne u t with rfl | hNe
      · simp [Variables.step]
      · have hApart : handle u ≠ handle t := fun hEq =>
          hNe (h.occupied.injective hLive (live_of_inUserCode hUser) hEq)
        simp [Variables.step, hNe, hApart, h.value u hLive]
  | absent t hRunning hFind =>
      rcases eq_or_ne u t with rfl | hNe
      · simp [St.getspecific, St.setPhase, hFind, Variables.step]
      · have hOther : (s.phase u).live = true := by simpa [St.setPhase, hNe] using hLive
        simpa [Variables.step, hNe] using h.value u hOther
  | erase t val hRunning hFind =>
      rcases eq_or_ne u t with rfl | hNe
      · simp [St.getspecific, Variables.step]
      · have hOther : (s.phase u).live = true := by simpa [St.setPhase, hNe] using hLive
        have hApart : handle u ≠ handle t := fun hEq =>
          hNe (h.occupied.injective hOther (by simp [hRunning, Phase.live]) hEq)
        simpa [St.getspecific, St.setPhase, Variables.step, hNe, hApart] using h.value u hOther
  | invoke t v hErased _ | skip t val hErased _ =>
      exact h.value u (live_of_setPhase (by simp [hErased, Phase.live]) hLive)
  | desFooReturns t v hDestructing =>
      exact h.value u (live_of_setPhase (by simp [hDestructing, Phase.live]) hLive)
  | reclaim t hExited => exact h.value u (live_of_setPhase (by simp [hExited, Phase.live]) hLive)
  | delete t hThis => exact h.value u (live_of_setPhase hThis hLive)

theorem Mirrors.stored_step (h : Mirrors handle past s) (hStep : Step handle desFoo s a s')
    (x : Handle) : s'.specValue x ≠ some none := by
  cases hStep with
  | setspecific t ptr _ =>
      rcases eq_or_ne x (handle t) with rfl | hNe
      · cases ptr <;> simp [St.setspecific]
      · simpa [St.setspecific, hNe] using h.stored x
  | erase t val _ _ =>
      rcases eq_or_ne x (handle t) with rfl | hNe
      · simp
      · simpa [St.setPhase, hNe] using h.stored x
  | _ => exact h.stored x

theorem Mirrors.unborn_step (h : Mirrors handle past s) (hStep : Step handle desFoo s a s')
    (u : Thread) (hUnborn : s'.phase u = .unborn) : (vars (past ++ [(s, a)])).value u = none := by
  rw [vars_snoc]
  cases hStep with
  | setspecific t ptr hUser =>
      have hNe : u ≠ t := fun hEq => by
        have hPhase : s.phase t = .unborn := hEq ▸ hUnborn
        simp [hPhase, Phase.inUserCode] at hUser
      simpa [Variables.step, hNe] using h.unborn u hUnborn
  | getspecific => exact h.unborn u hUnborn
  | _ t =>
      have hNe : u ≠ t := fun hEq => by simp [hEq] at hUnborn
      simpa [Variables.step, hNe] using h.unborn u (by simpa [hNe] using hUnborn)

theorem Mirrors.erased_step (h : Mirrors handle past s) (hStep : Step handle desFoo s a s')
    (u : Thread) (val : Option Value) (hErased : s'.phase u = .erased val) :
    val = (vars (past ++ [(s, a)])).taken u := by
  rw [vars_snoc]
  cases hStep with
  | erase t old hRunning hFind =>
      rcases eq_or_ne u t with rfl | hNe
      · have hValue := h.value u (by simp [hRunning, Phase.live])
        simp only [St.phase_setPhase, Function.update_self, Phase.erased.injEq] at hErased
        simp [Variables.step, ← hValue, St.getspecific, hFind, hErased]
      · simpa [Variables.step, hNe] using h.erased u val (by simpa [hNe] using hErased)
  | getspecific | setspecific => exact h.erased u val hErased
  | _ t =>
      have hNe : u ≠ t := fun hEq => by simp [hEq] at hErased
      simpa [Variables.step, hNe] using h.erased u val (by simpa [hNe] using hErased)

theorem Mirrors.untaken_step (h : Mirrors handle past s) (hStep : Step handle desFoo s a s')
    (u : Thread) (hBefore : s'.phase u = .unborn ∨ s'.phase u = .running) :
    (vars (past ++ [(s, a)])).taken u = none := by
  rw [vars_snoc]
  cases hStep with
  | create t hUnborn hFree =>
      rcases eq_or_ne u t with rfl | hNe
      · exact h.untaken u (.inl hUnborn)
      · exact h.untaken u (by simpa [St.setPhase, hNe] using hBefore)
  | getspecific | setspecific => exact h.untaken u hBefore
  | _ t =>
      have hNe : u ≠ t := fun hEq => by simp [hEq] at hBefore
      simpa [Variables.step, hNe] using h.untaken u (by simpa [hNe] using hBefore)

omit [DecidableEq Thread] [DecidableEq Handle] in
theorem invoked_of_eq {u : Thread} (hPhase : s'.phase u = s.phase u) : invoked s s' u = none := by
  simp [invoked, hPhase]

/-- A deletion cuts no call off exactly if the destructor is not about to run. -/
theorem Mirrors.due_delete (h : Mirrors handle past s) {t : Thread}
    (hLive : (s.phase t).live = true) :
    due desFoo (past ++ [(s, .delete t)]) (s.free t (handle t)) t = due desFoo past s t ↔
      exitsWhole desFoo s (.delete t) = true := by
  simp only [due, vars_snoc, Variables.step, St.phase_free, Function.update_self, exitsWhole]
  cases hPhase : s.phase t with
  | unborn | reclaimed => simp [hPhase, Phase.live] at hLive
  | running => simp [h.untaken t (.inr hPhase)]
  | erased val =>
      rw [← h.erased t val hPhase]
      cases desFoo <;> cases val <;> simp [Phase.pastDesFoo]
  | destructing | exited => simp [Phase.pastDesFoo]

theorem Mirrors.due_own (h : Mirrors handle past s) (hStep : Step handle desFoo s a s')
    (hWhole : exitsWhole desFoo s a = true) :
    due desFoo past s a.thread ++ (invoked s s' a.thread).toList =
      due desFoo (past ++ [(s, a)]) s' a.thread := by
  cases hStep with
  | getspecific t _ => simp [invoked_of_eq, due, vars_snoc, Variables.step]
  | setspecific t ptr _ =>
      have hInvoked : invoked s (s.setspecific (handle t) ptr) t = none := invoked_of_eq rfl
      simp [Act.thread, hInvoked, due, vars_snoc, Variables.step]
  | create t hPhase _ | desFooReturns t v hPhase | reclaim t hPhase | erase t val hPhase hFind =>
      simp [Act.thread, due, invoked, vars_snoc, Variables.step, hPhase, Phase.pastDesFoo, Phase.argument]
  | absent t hRunning hFind =>
      have hNull : (vars past).value t = none := by
        rw [← h.value t (by simp [hRunning, Phase.live]), St.getspecific, hFind]
      simp [Act.thread, due, invoked, vars_snoc, Variables.step, hRunning, hNull, Phase.pastDesFoo,
        Phase.argument]
  | invoke t v hErased hDesFoo =>
      have hTaken := h.erased t _ hErased
      simp [Act.thread, due, invoked, vars_snoc, Variables.step, hErased, hDesFoo, ← hTaken,
        Phase.pastDesFoo, Phase.argument]
  | skip t val hErased hNull =>
      have hTaken := h.erased t val hErased
      rcases Bool.and_eq_false_iff.mp hNull with hDesFoo | hVal
      · simp [Act.thread, due, invoked, hErased, hDesFoo, Phase.argument]
      · have hNone : val = none := by simpa using hVal
        simp [Act.thread, due, invoked, vars_snoc, Variables.step, hErased, ← hTaken, hNone,
          Phase.pastDesFoo, Phase.argument]
  | delete t hLive =>
      have hInvoked : invoked s (s.free t (handle t)) t = none := by simp [invoked, Phase.argument]
      rw [Act.thread, hInvoked, (h.due_delete hLive).mpr hWhole]
      exact List.append_nil _

theorem due_others (past : History Thread Handle Value) (hStep : Step handle desFoo s a s') {u : Thread}
    (hNe : u ≠ a.thread) :
    s'.phase u = s.phase u ∧ due desFoo (past ++ [(s, a)]) s' u = due desFoo past s u := by
  cases hStep with
  | getspecific | setspecific =>
      exact ⟨rfl, by simp [due, vars_snoc, Variables.step]⟩
  | _ t =>
      rw [Act.thread] at hNe
      constructor
      · simp [hNe]
      · simp [due, vars_snoc, Variables.step, hNe]

theorem Mirrors.step (h : Mirrors handle past s) (hStep : Step handle desFoo s a s')
    (hStarts : startsEmpty handle s a = true) : Mirrors handle (past ++ [(s, a)]) s' where
  occupied := h.occupied.step hStep
  stored := h.stored_step hStep
  unborn := h.unborn_step hStep
  untaken := h.untaken_step hStep
  value := h.value_step hStep hStarts
  erased := h.erased_step hStep

omit [DecidableEq Handle] in
theorem Mirrors.start (hStart : Start s) : Mirrors handle [] s where
  occupied x u := by simp [hStart.occupant, hStart.phase, Phase.live]
  stored x := by simp [hStart.specValue]
  unborn _ _ := rfl
  untaken _ _ := rfl
  value u hLive := by simp [hStart.phase, Phase.live] at hLive
  erased u val hErased := by simp [hStart.phase] at hErased

omit [DecidableEq Handle] in
/-- No entry is a null pointer. -/
theorem Mirrors.absent_of_null (h : Mirrors handle past s) {x : Handle}
    (hNull : s.getspecific x = none) : s.specValue x = none := by
  cases hFind : s.specValue x with
  | none => rfl
  | some ptr =>
      rw [St.getspecific, hFind] at hNull
      exact absurd (hFind.trans (congrArg some hNull)) (h.stored x)

/-- The entries of other threads stay as they are. -/
theorem Mirrors.others (h : Mirrors handle past s) (hStep : Step handle desFoo s a s')
    (u : Thread) (hNe : u ≠ a.thread) (hLive : (s.phase u).live = true) :
    s'.getspecific (handle u) = s.getspecific (handle u) := by
  cases hStep with
  | setspecific t ptr hUser =>
      have hApart : handle u ≠ handle t := fun hEq =>
        hNe (h.occupied.injective hLive (live_of_inUserCode hUser) hEq)
      rw [getspecific_setspecific, if_neg hApart]
  | erase t val hRunning _ =>
      have hOther : (s.phase t).live = true := by simp [hRunning, Phase.live]
      have hApart : handle u ≠ handle t := fun hEq => hNe (h.occupied.injective hLive hOther hEq)
      simp [St.getspecific, hApart]
  | _ => rfl

section Calls

variable [DecidableEq Value]

theorem Simulates.destructor_step (h : Simulates handle desFoo past s) (hNext : next handle desFoo s a = some s')
    (hWhole : exitsWhole desFoo s a = true) (u : Thread) :
    invocations handle desFoo (past ++ [(s, a)]) u = due desFoo (past ++ [(s, a)]) s' u := by
  have hStep := step_of_next hNext
  rw [invocations_snoc past hNext, h.destructor u]
  rcases eq_or_ne u a.thread with rfl | hNe
  · exact h.due_own hStep hWhole
  · rw [invoked_of_eq (due_others past hStep hNe).1, (due_others past hStep hNe).2]
    exact List.append_nil _

theorem Simulates.step (h : Simulates handle desFoo past s) (hNext : next handle desFoo s a = some s')
    (hUndisturbed : undisturbed handle desFoo s a = true) :
    Simulates handle desFoo (past ++ [(s, a)]) s' := by
  obtain ⟨hStarts, hWhole⟩ := Bool.and_eq_true_iff.mp hUndisturbed
  exact ⟨h.toMirrors.step (step_of_next hNext) hStarts, h.destructor_step hNext hWhole⟩

theorem Simulates.start (hStart : Start s) : Simulates handle desFoo [] s where
  toMirrors := Mirrors.start hStart
  destructor u := by simp [invocations, due, hStart.phase, Phase.pastDesFoo]

/-- A step respects the variables exactly if it creates no thread on top of an
entry and deletes none for which the destructor is about to run. -/
theorem Simulates.refines_iff (h : Simulates handle desFoo past s) (hNext : next handle desFoo s a = some s') :
    Refines handle desFoo past s a s' ↔ undisturbed handle desFoo s a = true := by
  have hStep := step_of_next hNext
  rw [undisturbed, Bool.and_eq_true_iff]
  constructor
  · intro hRefines
    cases hStep with
    | create t hUnborn hFree =>
        have hValue := hRefines.value t (by simp [St.setPhase, Phase.live])
        have hNull : s.getspecific (handle t) = none := by
          simpa [vars_snoc, Variables.step, h.unborn t hUnborn, St.getspecific, St.setPhase] using hValue
        exact ⟨Option.isNone_iff_eq_none.mpr (h.absent_of_null hNull), rfl⟩
    | delete t hLive =>
        have hInvoked : invoked s (s.free t (handle t)) t = none := by simp [invoked, Phase.argument]
        have hDue := hRefines.destructor t
        rw [invocations_snoc past hNext, hInvoked, Option.toList_none, List.append_nil, h.destructor t] at hDue
        exact ⟨rfl, (h.due_delete hLive).mp hDue.symm⟩
    | _ => exact ⟨rfl, rfl⟩
  · rintro ⟨hStarts, hWhole⟩
    refine ⟨fun t hGet => ?_, h.value_step hStep hStarts, h.others hStep, h.destructor_step hNext hWhole⟩
    subst hGet
    cases hStep with
    | getspecific _ hUser => exact h.value t (live_of_inUserCode hUser)

/-- Whatever handles the heap gives out and whoever is deleted, the key is a
variable for each thread along exactly those runs in which no thread is created
under a handle that still has an entry, or deleted when the destructor is about
to run for it. -/
theorem refines_iff_undisturbed {trace : History Thread Handle Value}
    (hReaches : (system handle desFoo).Reaches trace s) :
    (system handle desFoo).AtEachStep trace (Refines handle desFoo) ↔
      Guarded (undisturbed handle desFoo) trace := by
  obtain ⟨s₀, hStart, hRun⟩ := hReaches
  rw [← hRun.atEachStep_guard]
  exact hRun.atEachStep_congr (Simulates.start hStart)
    (fun past t a u h hUndisturbed hNext => h.step hNext hUndisturbed)
    fun past t a u h hNext => h.refines_iff hNext

end Calls

/-- Two threads overlap in their exits; a third one gets the handle of the first,
and a fourth one that of the second and is deleted. -/
def overlappingExits : List (Act Nat Nat) :=
  [.create 0, .create 1, .setspecific 0 (some 5), .setspecific 1 (some 7), .callDestructor 0,
    .getspecific 1, .setspecific 1 (some 8), .desFoo 0, .getspecific 0, .callDestructor 1,
    .desFooReturns 0, .reclaim 0, .create 2, .getspecific 2, .desFoo 1, .desFooReturns 1,
    .reclaim 1, .create 3, .setspecific 3 (some 9), .setspecific 3 none, .delete 3]

theorem refines_overlappingExits :
    ∃ s, (system (fun t : Nat => t % 2) true).exec (St.initial : St Nat Nat Nat) overlappingExits = some s ∧
      (system (fun t : Nat => t % 2) true).AtEachStep
        ((system (fun t : Nat => t % 2) true).replay St.initial overlappingExits) (Refines (fun t => t % 2) true) :=
  ⟨_, rfl, (refines_iff_undisturbed
    ⟨_, St.initial_start, System.run_of_exec overlappingExits rfl⟩).mpr (by decide)⟩

/-- The destructor of thread 0 stores 6, and thread 1 is created under the same handle. -/
def storedAtExit : List (Act Nat Nat) :=
  [.create 0, .setspecific 0 (some 5), .callDestructor 0, .desFoo 0, .setspecific 0 (some 6),
    .desFooReturns 0, .reclaim 0, .create 1]

/-- Thread 1 has set nothing and gets 6. -/
theorem getspecific_foreign :
    ¬ ∀ (handle : Nat → Nat) desFoo trace (s : St Nat Nat Nat), (system handle desFoo).Reaches trace s →
      (system handle desFoo).AtEachStep trace (Refines handle desFoo) := by
  intro hClaim
  have hRun : (system (fun _ : Nat => 0) true).Reaches _ _ :=
    ⟨St.initial, St.initial_start,
      (System.run_of_exec storedAtExit rfl).snoc (a := .getspecific 1) rfl⟩
  have hGet := (hClaim _ _ _ _ hRun _ _ _ [] rfl _ rfl).getspecific 1 rfl
  exact absurd hGet (by decide)

end FreeRtos.KeyStore
