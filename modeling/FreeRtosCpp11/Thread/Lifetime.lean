import FreeRtosCpp11.Thread.Slots
import FreeRtosCpp11.Transition.Calls

/-! The lifetime of event groups and of `_State` objects. Every group has one
owner, is used only while it exists, and is deleted once, by the join or detach
of its owner; every state is run and destroyed once, by the new task. -/
namespace FreeRtos.Thread

set_option linter.unusedSectionVars false

open Transition

variable {Handle Addr : Type} [DecidableEq Handle] [DecidableEq Addr]

/-- The object on which the task is inside join or detach. -/
def Op.leaves : Op Addr → Option Addr
  | .joinWait a | .joinReset a | .detachWait a | .detachCrit a | .detachReset a => some a
  | .idle | .create .. | .storeTls .. | .release .. | .swap .. => none

/-- The object on which the task is inside detach. -/
def Op.detaches : Op Addr → Option Addr
  | .detachWait a | .detachCrit a | .detachReset a => some a
  | .idle | .create .. | .storeTls .. | .release .. | .swap .. | .joinWait _ | .joinReset _ => none

theorem Op.uses_of_leaves {op : Op Addr} {a : Addr} (h : op.leaves = some a) : op.uses a := by
  cases op <;> simp_all [Op.leaves, Op.uses]

/-- Join or detach was called on the owner of the group. -/
def Called (trace : Trace (St Handle Addr) (Act Handle Addr)) (e : Nat) : Prop :=
  ∃ step ∈ trace, ∃ t a, (step.2 = .join t a ∨ step.2 = .detach t a) ∧ Owner (step.1.hnd (.obj a)) e

/-- A join or detach of the object that names the group is over: its caller is
outside `std::thread` again. -/
def Returned (trace : Trace (St Handle Addr) (Act Handle Addr)) (s : St Handle Addr) (e : Nat) : Prop :=
  ∃ u act t a during, (act = .join t a ∨ act = .detach t a) ∧ u.joinable a = true ∧
    (u.hnd (.obj a)).evHandle = some e ∧
    Transition.Returned (fun v => v.op t == .idle) trace s (u, act) during

section Steps

variable {port : Port} {s s' : St Handle Addr} {act : Act Handle Addr}

/-- No group is deleted twice, or before its thread has started. -/
def Groups (s : St Handle Addr) : Prop :=
  ∀ k, s.deletes k = 0 ∨ s.deletes k = 1 ∧ s.eStartedEv k = true

theorem Coherent.deletes_step (h : Coherent s) (hStep : Step port s act s') (k : Nat) :
    s'.deletes k = s.deletes k ∨
      s.deletes k = 0 ∧ s'.deletes k = 1 ∧ s.eStartedEv k = true ∧ ∃ t a, act = .step t ∧
        (s.op t).leaves = some a ∧ (s.hnd (.obj a)).evHandle = some k := by
  obtain hSame | ⟨t, a, rfl, hOp, hEv, hMore⟩ := hStep.deletes_cases k
  · exact .inl hSame
  · have hOwner : Owner (s.hnd (.obj a)) k ∧ s.eStartedEv k = true := by
      rcases hOp with hCrit | ⟨hReset, hFlag⟩
      · obtain ⟨-, e, hOwner, hStarted⟩ := h.at hCrit
        cases hEv.symm.trans hOwner.ev
        exact ⟨hOwner, hStarted⟩
      · exact ⟨⟨hEv, hFlag⟩, h.started_of_reset hReset hEv⟩
    have hZero := (h.objects.owner (.obj a) k hOwner.1).1
    have hLeaves : (s.op t).leaves = some a := by
      rcases hOp with hOp | ⟨hOp | hOp, -⟩ <;> rw [hOp] <;> rfl
    exact .inr ⟨hZero, by omega, hOwner.2, t, a, rfl, hLeaves, hEv⟩

theorem Groups.step (hGroups : Groups s) (h : Coherent s) (hStep : Step port s act s') : Groups s' := by
  intro k
  obtain hSame | ⟨-, hOne, hStarted, -⟩ := h.deletes_step hStep k
  · rw [hSame]
    exact (hGroups k).imp_right fun ⟨hOne, hStarted⟩ => ⟨hOne, hStep.eStartedEv_mono hStarted⟩
  · exact .inr ⟨hOne, hStep.eStartedEv_mono hStarted⟩

/-- The copies of the new tasks own nothing. -/
theorem Step.copy_shared (hStep : Step port s act s') (hShared : ∀ t, (s.copy t).fOwner = false)
    (t : Nat) : (s'.copy t).fOwner = false := by
  cases hStep
  case copy k hRuns hOp hPhase =>
    by_cases hSelf : t = k
    · simp [St.copyHandle, hSelf]
    · simpa [St.copyHandle, hSelf] using hShared t
  all_goals exact hShared t

/-- Everything that holds in all reachable states. -/
structure Sound (s : St Handle Addr) : Prop where
  coherent : Coherent s
  body : ∀ k, Body s k
  slots : Slots s
  groups : Groups s
  shared : ∀ t, (s.copy t).fOwner = false

theorem Sound.step (h : Sound s) (hNext : next port s act = some s') : Sound s' := by
  have hStep := h.coherent.step_of_next hNext
  exact ⟨h.coherent.step hStep, Body.step h.body h.coherent hStep, h.slots.step h.coherent hStep,
    h.groups.step h.coherent hStep, hStep.copy_shared h.shared⟩

theorem Sound.start (hStart : Start s) : Sound s where
  coherent := .start hStart
  body := .start hStart
  slots j e _ hTls := by
    rw [hStart.tls] at hTls
    cases hTls
  groups k := .inl (hStart.deletes k)
  shared t := by rw [hStart.copy]

theorem sound_of_reaches {trace : Trace (St Handle Addr) (Act Handle Addr)}
    (hReaches : (system Handle Addr port).Reaches trace s) : Sound s := by
  obtain ⟨s₀, hStart, hRun⟩ := hReaches
  exact hRun.invariant (C := fun _ _ => true) (fun _ _ => rfl) (.start hStart)
    fun _ _ _ h _ hNext => h.step hNext

/-- A task inside join or detach called it on the owner, or was inside already. -/
theorem Coherent.leaves_step (h : Coherent s) (hStep : Step port s act s') {t e : Nat} {a : Addr}
    (hTask : act.task = some t) (hLeaves : (s'.op t).leaves = some a)
    (hEv : (s'.hnd (.obj a)).evHandle = some e) :
    (act = .join t a ∧ (s'.op t).detaches = none ∨ act = .detach t a) ∧ Owner (s.hnd (.obj a)) e ∨
      (s.op t).leaves = some a ∧ (s.op t).detaches = (s'.op t).detaches ∧
        (s.hnd (.obj a)).evHandle = some e := by
  have hNone : ∀ {op : Op Addr}, s'.op t = op → op.leaves = none → False := by
    intro op hOp hNot
    rw [hOp, hNot] at hLeaves
    cases hLeaves
  have hStay : ∀ {before after : Op Addr}, s.op t = before → s'.op t = after →
      before.leaves = after.leaves → before.detaches = after.detaches →
      s'.hnd (.obj a) = s.hnd (.obj a) → (s.op t).leaves = some a ∧
        (s.op t).detaches = (s'.op t).detaches ∧ (s.hnd (.obj a)).evHandle = some e := by
    intro before after hBefore hAfter hSame hKind hHnd
    rw [hBefore, hSame, hKind, ← hAfter, ← hHnd]
    exact ⟨hLeaves, rfl, hEv⟩
  have hOwn {op : Op Addr} : Function.update s.op t op t = op := Function.update_self _ _ _
  cases hStep
  case terminate | throws | setKey => exact .inr ⟨hLeaves, rfl, hEv⟩
  case callJoin u b hCalls hBusy hJoinable =>
    cases hTask
    obtain rfl : b = a := by simpa [St.enter, St.setOp, Op.leaves] using hLeaves
    have hNames : (s.hnd (.obj b)).evHandle = some e := by simpa [St.enter, St.setOp] using hEv
    have hOwner := h.owner_of_names hBusy hJoinable hNames
    exact .inl ⟨.inl ⟨rfl, by rw [show (s.enter t b _).op t = _ from hOwn]; rfl⟩, hOwner⟩
  case callDetach u b hCalls hBusy hJoinable =>
    cases hTask
    obtain rfl : b = a := by simpa [St.enter, St.setOp, Op.leaves] using hLeaves
    have hNames : (s.hnd (.obj b)).evHandle = some e := by simpa [St.enter, St.setOp] using hEv
    have hOwner := h.owner_of_names hBusy hJoinable hNames
    exact .inl ⟨.inr rfl, hOwner⟩
  case callSwap u b c hCalls hFirst hSecond hAct =>
    obtain rfl : u = t := by rcases hAct with rfl | rfl <;> simpa [Act.task] using hTask
    exact (hNone hOwn rfl).elim
  case joinWait u b k hRuns hOp hWait hJoin hStarted =>
    cases hTask
    exact .inr (hStay hOp hOwn rfl rfl rfl)
  case detachWait u b k hRuns hOp hWait hStarted =>
    cases hTask
    exact .inr (hStay hOp hOwn rfl rfl rfl)
  case detachGone u b hRuns hOp hState =>
    cases hTask
    exact .inr (hStay hOp hOwn rfl rfl rfl)
  case detachFound u b hdl j hRuns hOp hFound =>
    cases hTask
    obtain rfl : b = a := by simpa [St.detachFound, St.setOp, Op.leaves] using hLeaves
    have hNames : (s.hnd (.obj b)).evHandle = some e := by simpa [St.detachFound, St.setOp] using hEv
    exact .inr ⟨by rw [hOp]; rfl, by simp [St.setOp, hOp, Op.detaches], hNames⟩
  case detachAstray u b hRuns hOp hAstray =>
    cases hTask
    obtain rfl : b = a := by simpa [St.detachAstray, St.setOp, Op.leaves] using hLeaves
    have hNames : (s.hnd (.obj b)).evHandle = some e := by simpa [St.detachAstray, St.setOp] using hEv
    exact .inr ⟨by rw [hOp]; rfl, by simp [St.setOp, hOp, Op.detaches], hNames⟩
  case resetStuck u b hdl hPort hRuns hOp hOwner hFound => exact .inr ⟨hLeaves, rfl, hEv⟩
  case construct u b prio hCalls hBusy hNull | release u b k err hRuns hOp =>
    cases hTask
    exact (hNone hOwn rfl).elim
  case create u hdl b k prio hRuns hOp hFree =>
    cases hTask
    exact (hNone hOwn rfl).elim
  case storeTls u b k hRuns hOp =>
    cases hTask
    exact (hNone hOwn rfl).elim
  case resetShared u b hRuns hOp hShared =>
    cases hTask
    exact (hNone hOwn rfl).elim
  case resetGone u b hRuns hOp hOwner hState | resetAstray u b hRuns hOp hOwner hState =>
    cases hTask
    exact (hNone hOwn rfl).elim
  case resetFound u b hdl j hRuns hOp hOwner hFound hOther =>
    cases hTask
    exact (hNone hOwn rfl).elim
  case resetSelf u b hdl hPort hRuns hOp hOwner hFound =>
    cases hTask
    exact (hNone hOwn rfl).elim
  case swapSame u b c leg hRuns hOp hLeg hSame | swapNow u b c leg hRuns hOp hShared =>
    cases hTask
    cases leg <;> exact (hNone hOwn rfl).elim
  case swapMove u b c leg hRuns hOp =>
    cases hTask
    cases leg <;> exact (hNone hOwn rfl).elim
  case swapBegin u b c leg hRuns hOp hOwner =>
    cases hTask
    exact (hNone hOwn rfl).elim
  case swapWait u b c leg k hRuns hOp hWait hStarted =>
    cases hTask
    exact (hNone hOwn rfl).elim
  case reclaim | reuse => cases hTask
  all_goals exact .inr ⟨hLeaves, rfl, hEv⟩

/-- A task inside join or detach takes no step but that of its next statement. -/
theorem advanceOp_of_leaves {t : Nat} {a : Addr} (hNext : next port s act = some s')
    (hTask : act.task = some t) (hLeaves : (s.op t).leaves = some a) :
    act = .step t ∧ s.advanceOp port t (s.op t) = some s' := by
  have hBusy : s.op t ≠ .idle := fun hIdle => by simp [hIdle, Op.leaves] at hLeaves
  have hOutside : s.inUserCode t = false := by simp [St.inUserCode, hBusy]
  cases act with
  | step u =>
      obtain rfl : u = t := Option.some.inj hTask
      simp only [next, hBusy, if_false, Option.ite_none_right_eq_some] at hNext
      exact ⟨rfl, hNext.2⟩
  | create u hdl =>
      obtain rfl : u = t := Option.some.inj hTask
      cases hOp : s.op u <;> simp [next, hOp] at hNext
      simp [hOp, Op.leaves] at hLeaves
  | allocationFails u =>
      obtain rfl : u = t := Option.some.inj hTask
      cases hOp : s.op u <;> simp [next, hOp, hOutside] at hNext
      simp [hOp, Op.leaves] at hLeaves
  | reclaim | reuse => cases hTask
  | _ u =>
      obtain rfl : u = t := Option.some.inj hTask
      simp [next, hOutside] at hNext

/-- The last move of join or detach is the last statement, unless the caller deletes
itself and does not come back. -/
theorem advanceReset_cases (port : Port) (s : St Handle Addr) (t : Nat) (a : Addr) :
    (s.advanceReset port t a).op t = .idle ∨
      (s.advanceReset port t a).op = s.op ∧ (s.advanceReset port t a).hnd = s.hnd := by
  have hDone : ∀ u : St Handle Addr, (u.finishCall t a).op t = .idle := fun u => by
    simp [St.finishCall, St.setOp]
  unfold St.advanceReset St.assignOwner
  split
  · by_cases hState : s.eDeleted (s.hnd (.obj a)).taskHandle
    · simp only [hState, if_true]
      exact .inl (hDone _)
    · simp only [hState, Bool.false_eq_true, if_false]
      cases (s.hnd (.obj a)).taskHandle.bind s.occupant with
      | none => exact .inl (hDone _)
      | some j =>
          by_cases hSelf : j = t
          · cases port with
            | synchronous => exact .inr (by simp [hSelf, St.deleteSelf])
            | deferred => exact .inl (by simp [hSelf, hDone])
          · exact .inl (by simp [hSelf, hDone])
  · exact .inl (hDone _)

/-- The task is still inside the same call with its object. -/
structure StaysInside (s s' : St Handle Addr) (t : Nat) (a : Addr) : Prop where
  leaves : (s'.op t).leaves = some a
  detaches : (s'.op t).detaches = (s.op t).detaches
  evHandle : (s'.hnd (.obj a)).evHandle = (s.hnd (.obj a)).evHandle

/-- Where the statements of join and detach lead. -/
theorem leaves_own {t : Nat} {a : Addr} (hMove : s.advanceOp port t (s.op t) = some s')
    (hLeaves : (s.op t).leaves = some a) :
    StaysInside s s' t a ∨ (s.op t = .joinReset a ∨ s.op t = .detachReset a) ∧ s'.op t = .idle := by
  have hReset : s.op t = .joinReset a ∨ s.op t = .detachReset a → s.advanceReset port t a = s' →
      StaysInside s s' t a ∨ (s.op t = .joinReset a ∨ s.op t = .detachReset a) ∧ s'.op t = .idle := by
    rintro hOp rfl
    obtain hIdle | ⟨hSame, hHnd⟩ := advanceReset_cases port s t a
    · exact .inr ⟨hOp, hIdle⟩
    · exact .inl ⟨hSame ▸ hLeaves, by rw [hSame], by rw [hHnd]⟩
  have hWaits : ∀ {op after : Op Addr}, s.op t = op → op.leaves = after.leaves → op.detaches = after.detaches →
      StaysInside s (s.setOp t after) t a := by
    rintro op after rfl hSame hKind
    exact ⟨by simp [St.setOp, ← hSame, hLeaves], by simp [St.setOp, hKind], rfl⟩
  cases hOp : s.op t with
  | joinWait b | detachWait b =>
      rw [hOp] at hMove
      obtain ⟨-, hState⟩ := Option.ite_none_right_eq_some.mp hMove
      obtain rfl := Option.some.inj hState
      exact .inl (hWaits hOp rfl rfl)
  | detachCrit b =>
      obtain rfl : b = a := by simpa [hOp, Op.leaves] using hLeaves
      rw [hOp, St.advanceOp] at hMove
      obtain hState | ⟨hdl, j, hFound⟩ | hAstray := state_cases s b
      · rw [if_pos hState, Option.some.injEq] at hMove
        exact .inl (hMove ▸ hWaits hOp rfl rfl)
      · simp only [hFound.eDeleted, hFound.bind, Bool.false_eq_true, if_false, Option.some.injEq] at hMove
        subst hMove
        exact .inl ⟨by simp [St.setOp, Op.leaves], by simp [St.setOp, hOp, Op.detaches],
          by simp [St.detachFound, St.setOp]⟩
      · simp only [hAstray.state, hAstray.occupant, Bool.false_eq_true, if_false, Option.some.injEq] at hMove
        subst hMove
        exact .inl ⟨by simp [St.setOp, Op.leaves], by simp [St.setOp, hOp, Op.detaches],
          by simp [St.detachAstray, St.setOp]⟩
  | joinReset b =>
      obtain rfl : b = a := by simpa [hOp, Op.leaves] using hLeaves
      rw [hOp, St.advanceOp, Option.some.injEq] at hMove
      exact hOp ▸ hReset (.inl hOp) hMove
  | detachReset b =>
      obtain rfl : b = a := by simpa [hOp, Op.leaves] using hLeaves
      rw [hOp, St.advanceOp, Option.some.injEq] at hMove
      exact hOp ▸ hReset (.inr hOp) hMove
  | _ => simp [hOp, Op.leaves] at hLeaves

/-- A task inside join or detach stays there with its object until the last move. -/
theorem Coherent.leaves_forward (h : Coherent s) (hNext : next port s act = some s') {t : Nat} {a : Addr}
    (hLeaves : (s.op t).leaves = some a) :
    StaysInside s s' t a ∨
      act = .step t ∧ (s.op t = .joinReset a ∨ s.op t = .detachReset a) ∧ s'.op t = .idle := by
  by_cases hOther : some t ≠ act.task
  · have hStep := h.step_of_next hNext
    have hBusy := h.held t a (Op.uses_of_leaves hLeaves)
    have hOp := hStep.op_other hOther
    exact .inl ⟨hOp ▸ hLeaves, by rw [hOp], by rw [(hStep.obj_other h.held hOther hBusy).1]⟩
  · obtain ⟨rfl, hMove⟩ := advanceOp_of_leaves hNext (not_not.mp hOther).symm hLeaves
    exact (leaves_own hMove hLeaves).imp_right fun hLast => ⟨rfl, hLast⟩

end Steps

section Histories

variable {port : Port} {s : St Handle Addr} {trace : Trace (St Handle Addr) (Act Handle Addr)}

theorem Called.snoc {e : Nat} (h : Called trace e) (step : St Handle Addr × Act Handle Addr) :
    Called (trace ++ [step]) e := by
  obtain ⟨old, hMem, hCall⟩ := h
  exact ⟨old, List.mem_append_left _ hMem, hCall⟩

/-- What the past says about the groups. -/
structure Recorded (trace : Trace (St Handle Addr) (Act Handle Addr)) (s : St Handle Addr) : Prop where
  sound : Sound s
  inside : ∀ t a e, (s.op t).leaves = some a → (s.hnd (.obj a)).evHandle = some e → Called trace e
  called : ∀ e, s.deletes e ≠ 0 → Called trace e
  grows : ∀ e, ∀ step ∈ trace, step.1.deletes e ≤ s.deletes e

theorem Recorded.step {act : Act Handle Addr} {s' : St Handle Addr} (h : Recorded trace s)
    (hNext : next port s act = some s') : Recorded (trace ++ [(s, act)]) s' := by
  have hStep := h.sound.coherent.step_of_next hNext
  refine ⟨h.sound.step hNext, fun t a e hLeaves hEv => ?_, fun e hSome => ?_, fun e step hMem => ?_⟩
  · by_cases hOther : some t ≠ act.task
    · rw [hStep.op_other hOther] at hLeaves
      have hBusy := h.sound.coherent.held t a (Op.uses_of_leaves hLeaves)
      rw [(hStep.obj_other h.sound.coherent.held hOther hBusy).1] at hEv
      exact (h.inside t a e hLeaves hEv).snoc _
    · obtain ⟨hCall, hOwner⟩ | ⟨hOld, -, hNames⟩ :=
        h.sound.coherent.leaves_step hStep (not_not.mp hOther).symm hLeaves hEv
      · exact ⟨(s, act), by simp, t, a, hCall.imp_left And.left, hOwner⟩
      · exact (h.inside t a e hOld hNames).snoc _
  · obtain hSame | ⟨-, -, -, t, a, -, hLeaves, hEv⟩ := h.sound.coherent.deletes_step hStep e
    · exact (h.called e (hSame ▸ hSome)).snoc _
    · exact (h.inside t a e hLeaves hEv).snoc _
  · have hGrows : s.deletes e ≤ s'.deletes e := by
      obtain hSame | ⟨hZero, -⟩ := h.sound.coherent.deletes_step hStep e <;> omega
    rcases List.mem_append.mp hMem with hOld | hNew
    · exact Nat.le_trans (h.grows e step hOld) hGrows
    · rw [List.mem_singleton.mp hNew]
      exact hGrows

theorem Recorded.start (hStart : Start s) : Recorded [] s where
  sound := .start hStart
  inside t a e hLeaves _ := by
    rw [hStart.op] at hLeaves
    cases hLeaves
  called e hSome := absurd (hStart.deletes e) hSome
  grows e step hMem := by cases hMem

end Histories

/-- Task 0 starts a thread from object 0, moves it to object 1 and joins it there. -/
def moveAndJoin : List (Act Nat Nat) :=
  [.construct 0 0 1, .create 0 7, .step 0, .step 0, .step 1, .step 1, .swap 0 1 0] ++
    List.replicate 5 (.step 0) ++ [.join 0 1] ++ List.replicate 6 (.step 1) ++
    [.step 0, .step 0, .reclaim 1]

end FreeRtos.Thread
