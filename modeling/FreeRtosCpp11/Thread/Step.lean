import FreeRtosCpp11.Thread.Machine

/-! What one step of the thread system can do, with the facts that enabled it. -/
namespace FreeRtos.Thread

set_option linter.unusedSectionVars false

variable {Handle Addr : Type} [DecidableEq Handle] [DecidableEq Addr]

/-- The task lives and no other task is inside `create_thread`'s critical section. -/
structure Runs (s : St Handle Addr) (t : Nat) : Prop where
  live : s.life t = .alive
  crit : s.crit = none ∨ s.crit = some t

/-- The task executes user code. -/
structure Calls (s : St Handle Addr) (t : Nat) : Prop extends Runs s t where
  idle : s.op t = .idle
  phase : s.phase t = .user ∨ s.phase t = .running ∨ s.phase t = .keyDtor

theorem runs_of_runnable {s : St Handle Addr} {t : Nat} (h : s.runnable t = true) : Runs s t := by
  simp only [St.runnable, Bool.and_eq_true, beq_iff_eq, Bool.or_eq_true, Option.isNone_iff_eq_none] at h
  exact ⟨h.1.2, h.2⟩

theorem runs_of_next {port : Port} {s s' : St Handle Addr} {t : Nat}
    (h : next port s (.step t) = some s') : Runs s t := by
  simp only [next, Option.ite_none_right_eq_some] at h
  exact runs_of_runnable h.1

theorem calls_of_inUserCode {s : St Handle Addr} {t : Nat} (h : s.inUserCode t = true) : Calls s t := by
  simp only [St.inUserCode, Bool.and_eq_true, beq_iff_eq, Bool.or_eq_true] at h
  exact { toRuns := runs_of_runnable h.1.1, idle := h.1.2, phase := by tauto }

/-- The task found under the kept handle is not in the deleted state. -/
structure Found (s : St Handle Addr) (a : Addr) (h : Handle) (j : Nat) : Prop where
  handle : (s.hnd (.obj a)).taskHandle = some h
  occupant : s.occupant h = some j
  life : s.life j ≠ .deleted

/-- There is no TCB under the kept handle, and the memory there passes for one. -/
structure Astray (s : St Handle Addr) (a : Addr) : Prop where
  occupant : (s.hnd (.obj a)).taskHandle.bind s.occupant = none
  state : s.eDeleted (s.hnd (.obj a)).taskHandle = false

theorem Found.bind {s : St Handle Addr} {a : Addr} {h : Handle} {j : Nat} (hFound : Found s a h j) :
    (s.hnd (.obj a)).taskHandle.bind s.occupant = some j := by
  rw [hFound.handle]
  exact hFound.occupant

theorem Found.eDeleted {s : St Handle Addr} {a : Addr} {h : Handle} {j : Nat}
    (hFound : Found s a h j) : s.eDeleted (s.hnd (.obj a)).taskHandle = false := by
  simpa [St.eDeleted, hFound.bind] using hFound.life

/-- What `eTaskGetState` may answer about the kept handle. -/
theorem state_cases (s : St Handle Addr) (a : Addr) :
    s.eDeleted (s.hnd (.obj a)).taskHandle = true ∨ (∃ h j, Found s a h j) ∨ Astray s a := by
  cases hState : s.eDeleted (s.hnd (.obj a)).taskHandle with
  | true => exact .inl rfl
  | false =>
      right
      cases hBind : (s.hnd (.obj a)).taskHandle.bind s.occupant with
      | none => exact .inr ⟨hBind, hState⟩
      | some j =>
          obtain ⟨h, hHandle, hOccupant⟩ := Option.bind_eq_some_iff.mp hBind
          refine .inl ⟨h, j, hHandle, hOccupant, ?_⟩
          simpa [St.eDeleted, hBind] using hState

/-- No move of a swap overwrites an owner. -/
def NoOver (s : St Handle Addr) : Prop :=
  ∀ t a b leg, s.op t = .swap a b leg .check → leg ≠ .save → (s.hnd (leg.dst t a b)).fOwner = false

/-- The transitions of `next` while no move of a swap overwrites an owner. -/
inductive Step (port : Port) (s : St Handle Addr) : Act Handle Addr → St Handle Addr → Prop where
  | terminate (act : Act Handle Addr) (hAct : ∀ t, act ≠ .step t) :
      Step port s act { s with terminated := true }
  | throws (act : Act Handle Addr) (hAct : ∀ t, act ≠ .step t) : Step port s act s
  | setKey (t : Nat) (created : Bool) (hCalls : Calls s t) :
      Step port s (.setKey t created) { s with sKey := created }
  | construct (t : Nat) (a : Addr) (prio : Nat) (hCalls : Calls s t) (hBusy : s.busy a = none)
      (hNull : s.hnd (.obj a) = {}) : Step port s (.construct t a prio) (s.construct t a prio)
  | create (t : Nat) (h : Handle) (a : Addr) (k prio : Nat) (hRuns : Runs s t)
      (hOp : s.op t = .create a k prio) (hFree : s.occupant h = none) :
      Step port s (.create t h) (s.xTaskCreate port t h a k prio)
  | callJoin (t : Nat) (a : Addr) (hCalls : Calls s t) (hBusy : s.busy a = none)
      (hJoinable : s.joinable a = true) : Step port s (.join t a) (s.enter t a (.joinWait a))
  | callDetach (t : Nat) (a : Addr) (hCalls : Calls s t) (hBusy : s.busy a = none)
      (hJoinable : s.joinable a = true) : Step port s (.detach t a) (s.enter t a (.detachWait a))
  | callSwap (act : Act Handle Addr) (t : Nat) (a b : Addr) (hCalls : Calls s t)
      (hAct : act = .swap t a b ∨ act = .moveAssign t a b) (hFirst : s.busy a = none)
      (hSecond : s.busy b = none) : Step port s act (s.enterSwap t a b)
  | storeTls (t : Nat) (a : Addr) (k : Nat) (hRuns : Runs s t) (hOp : s.op t = .storeTls a k) :
      Step port s (.step t) ((s.storeTls a).setOp t (.release a k 0))
  | release (t : Nat) (a : Addr) (k err : Nat) (hRuns : Runs s t) (hOp : s.op t = .release a k err) :
      Step port s (.step t) ((s.releaseState t k err).finishCall t a)
  | joinWait (t : Nat) (a : Addr) (e : Nat) (hRuns : Runs s t) (hOp : s.op t = .joinWait a)
      (hEv : (s.hnd (.obj a)).evHandle = some e) (hJoin : s.eJoinEv e = true)
      (hStarted : s.eStartedEv e = true) : Step port s (.step t) (s.setOp t (.joinReset a))
  | detachWait (t : Nat) (a : Addr) (e : Nat) (hRuns : Runs s t) (hOp : s.op t = .detachWait a)
      (hEv : (s.hnd (.obj a)).evHandle = some e) (hStarted : s.eStartedEv e = true) :
      Step port s (.step t) (s.setOp t (.detachCrit a))
  | detachFound (t : Nat) (a : Addr) (h : Handle) (j : Nat) (hRuns : Runs s t)
      (hOp : s.op t = .detachCrit a) (hFound : Found s a h j) :
      Step port s (.step t) ((s.detachFound a j).setOp t (.detachReset a))
  | detachAstray (t : Nat) (a : Addr) (hRuns : Runs s t) (hOp : s.op t = .detachCrit a)
      (hAstray : Astray s a) :
      Step port s (.step t) ((s.detachAstray a).setOp t (.detachReset a))
  | detachGone (t : Nat) (a : Addr) (hRuns : Runs s t) (hOp : s.op t = .detachCrit a)
      (hState : s.eDeleted (s.hnd (.obj a)).taskHandle = true) :
      Step port s (.step t) (s.setOp t (.detachReset a))
  | resetShared (t : Nat) (a : Addr) (hRuns : Runs s t)
      (hOp : s.op t = .joinReset a ∨ s.op t = .detachReset a)
      (hShared : (s.hnd (.obj a)).fOwner = false) :
      Step port s (.step t) ((s.move (.obj a) (.tmp t)).finishCall t a)
  | resetGone (t : Nat) (a : Addr) (hRuns : Runs s t)
      (hOp : s.op t = .joinReset a ∨ s.op t = .detachReset a)
      (hOwner : (s.hnd (.obj a)).fOwner = true)
      (hState : s.eDeleted (s.hnd (.obj a)).taskHandle = true) :
      Step port s (.step t)
        (((s.deleteGroup (s.hnd (.obj a)).evHandle).move (.obj a) (.tmp t)).finishCall t a)
  | resetAstray (t : Nat) (a : Addr) (hRuns : Runs s t)
      (hOp : s.op t = .joinReset a ∨ s.op t = .detachReset a)
      (hOwner : (s.hnd (.obj a)).fOwner = true) (hAstray : Astray s a) :
      Step port s (.step t)
        (((s.astray.deleteGroup (s.hnd (.obj a)).evHandle).move (.obj a) (.tmp t)).finishCall t a)
  | resetFound (t : Nat) (a : Addr) (h : Handle) (j : Nat) (hRuns : Runs s t)
      (hOp : s.op t = .joinReset a ∨ s.op t = .detachReset a)
      (hOwner : (s.hnd (.obj a)).fOwner = true) (hFound : Found s a h j) (hOther : j ≠ t) :
      Step port s (.step t)
        ((((s.deleteOther (some h) j).deleteGroup (s.hnd (.obj a)).evHandle).move
          (.obj a) (.tmp t)).finishCall t a)
  | resetSelf (t : Nat) (a : Addr) (h : Handle) (hPort : port = .deferred) (hRuns : Runs s t)
      (hOp : s.op t = .joinReset a ∨ s.op t = .detachReset a)
      (hOwner : (s.hnd (.obj a)).fOwner = true) (hFound : Found s a h t) :
      Step port s (.step t)
        ((((s.deleteSelf t).deleteGroup (s.hnd (.obj a)).evHandle).move
          (.obj a) (.tmp t)).finishCall t a)
  | resetStuck (t : Nat) (a : Addr) (h : Handle) (hPort : port = .synchronous) (hRuns : Runs s t)
      (hOp : s.op t = .joinReset a ∨ s.op t = .detachReset a)
      (hOwner : (s.hnd (.obj a)).fOwner = true) (hFound : Found s a h t) :
      Step port s (.step t) (s.deleteSelf t)
  | swapSame (t : Nat) (a b : Addr) (leg : Leg) (hRuns : Runs s t)
      (hOp : s.op t = .swap a b leg .check) (hLeg : leg ≠ .save)
      (hSame : leg.dst t a b = leg.src t a b) : Step port s (.step t) (s.finishLeg t a b leg)
  | swapBegin (t : Nat) (a b : Addr) (leg : Leg) (hRuns : Runs s t)
      (hOp : s.op t = .swap a b leg .check) (hOwner : (s.hnd (leg.src t a b)).fOwner = true) :
      Step port s (.step t) (s.setOp t (.swap a b leg .wait))
  | swapNow (t : Nat) (a b : Addr) (leg : Leg) (hRuns : Runs s t)
      (hOp : s.op t = .swap a b leg .check) (hShared : (s.hnd (leg.src t a b)).fOwner = false) :
      Step port s (.step t) ((s.move (leg.dst t a b) (leg.src t a b)).finishLeg t a b leg)
  | swapWait (t : Nat) (a b : Addr) (leg : Leg) (e : Nat) (hRuns : Runs s t)
      (hOp : s.op t = .swap a b leg .wait) (hEv : (s.hnd (leg.src t a b)).evHandle = some e)
      (hStarted : s.eStartedEv e = true) : Step port s (.step t) (s.setOp t (.swap a b leg .move))
  | swapMove (t : Nat) (a b : Addr) (leg : Leg) (hRuns : Runs s t)
      (hOp : s.op t = .swap a b leg .move) :
      Step port s (.step t) ((s.move (leg.dst t a b) (leg.src t a b)).finishLeg t a b leg)
  | copy (k : Nat) (hRuns : Runs s k) (hOp : s.op k = .idle) (hPhase : s.phase k = .entry) :
      Step port s (.step k) (s.copyHandle k)
  | notifyStarted (k : Nat) (hRuns : Runs s k) (hOp : s.op k = .idle) (hPhase : s.phase k = .copied) :
      Step port s (.step k) (s.notifyStarted k)
  | run (k : Nat) (hRuns : Runs s k) (hOp : s.op k = .idle) (hPhase : s.phase k = .started) :
      Step port s (.step k) (s.runState k)
  | return (k : Nat) (hRuns : Runs s k) (hOp : s.op k = .idle) (hPhase : s.phase k = .running) :
      Step port s (.step k) (s.setPhase k .returned)
  | destroy (k : Nat) (hRuns : Runs s k) (hOp : s.op k = .idle) (hPhase : s.phase k = .returned) :
      Step port s (.step k) (s.destroyState k)
  | keyStart (k : Nat) (hRuns : Runs s k) (hOp : s.op k = .idle) (hPhase : s.phase k = .destroyed)
      (hKey : s.sKey = true) : Step port s (.step k) (s.setPhase k .keyDtor)
  | keySkip (k : Nat) (hRuns : Runs s k) (hOp : s.op k = .idle) (hPhase : s.phase k = .destroyed)
      (hKey : s.sKey = false) : Step port s (.step k) (s.setPhase k .keyed)
  | keyDone (k : Nat) (hRuns : Runs s k) (hOp : s.op k = .idle) (hPhase : s.phase k = .keyDtor) :
      Step port s (.step k) (s.setPhase k .keyed)
  | notifyJoined (k : Nat) (hRuns : Runs s k) (hOp : s.op k = .idle) (hPhase : s.phase k = .keyed) :
      Step port s (.step k) (s.notifyJoined k)
  | selfDelete (k : Nat) (hRuns : Runs s k) (hOp : s.op k = .idle) (hPhase : s.phase k = .exited) :
      Step port s (.step k) (s.deleteSelf k)
  | reclaim (j : Nat) (hLife : s.life j = .deleted) (hCrit : s.crit = none) :
      Step port s (.reclaim j) (s.deleteOther (s.handle j) j)
  | reuse (h : Handle) (foreign : Bool) (hFree : s.occupant h = none) :
      Step port s (.reuse h foreign) { s with foreign := Function.update s.foreign h foreign }

section Inversion

variable {port : Port} {s s' : St Handle Addr} {t : Nat} {a : Addr}

theorem step_of_reset (hRuns : Runs s t) (hOp : s.op t = .joinReset a ∨ s.op t = .detachReset a) :
    Step port s (.step t) (s.advanceReset port t a) := by
  cases hOwner : (s.hnd (.obj a)).fOwner with
  | false =>
      simp only [St.advanceReset, hOwner, Bool.false_eq_true, if_false]
      exact .resetShared t a hRuns hOp hOwner
  | true =>
      simp only [St.advanceReset, hOwner, if_true, St.assignOwner]
      obtain hState | ⟨h, j, hFound⟩ | hAstray := state_cases s a
      · simpa [hState] using .resetGone t a hRuns hOp hOwner hState
      · simp only [hFound.eDeleted, hFound.bind, Bool.false_eq_true, if_false]
        rw [hFound.handle]
        by_cases hSelf : j = t
        · subst hSelf
          cases port with
          | synchronous => simpa using .resetStuck j a h rfl hRuns hOp hOwner hFound
          | deferred => simpa using .resetSelf j a h rfl hRuns hOp hOwner hFound
        · simpa [hSelf] using .resetFound t a h j hRuns hOp hOwner hFound hSelf
      · simpa [hAstray.state, hAstray.occupant] using .resetAstray t a hRuns hOp hOwner hAstray

theorem step_of_swap {b : Addr} {leg : Leg} {stage : Stage} (hOver : NoOver s) (hRuns : Runs s t)
    (hOp : s.op t = .swap a b leg stage) (h : s.advanceSwap port t a b leg stage = some s') :
    Step port s (.step t) s' := by
  cases stage with
  | check =>
      simp only [St.advanceSwap] at h
      split at h
      · rename_i hSame
        cases h
        exact .swapSame t a b leg hRuns hOp hSame.1 hSame.2
      · split at h
        · rename_i hTarget
          have hFree := hOver t a b leg hOp hTarget.1
          rw [hTarget.2] at hFree
          cases hFree
        · split at h
          · rename_i hOwner
            cases h
            exact .swapBegin t a b leg hRuns hOp hOwner
          · rename_i hShared
            cases h
            exact .swapNow t a b leg hRuns hOp (by simpa using hShared)
  | wait =>
      simp only [St.advanceSwap, Option.ite_none_right_eq_some, Option.some.injEq,
        Option.any_eq_true] at h
      obtain ⟨⟨e, hEv, hStarted⟩, rfl⟩ := h
      exact .swapWait t a b leg e hRuns hOp hEv hStarted
  | move =>
      simp only [St.advanceSwap, Option.some.injEq] at h
      exact h ▸ .swapMove t a b leg hRuns hOp

theorem step_of_op (hOver : NoOver s) (hRuns : Runs s t)
    (h : s.advanceOp port t (s.op t) = some s') : Step port s (.step t) s' := by
  cases hOp : s.op t with
  | idle | create a k prio => simp [St.advanceOp, hOp] at h
  | storeTls a k =>
      simp only [St.advanceOp, hOp, Option.some.injEq] at h
      exact h ▸ .storeTls t a k hRuns hOp
  | release a k err =>
      simp only [St.advanceOp, hOp, Option.some.injEq] at h
      exact h ▸ .release t a k err hRuns hOp
  | joinWait a =>
      simp only [St.advanceOp, hOp, Option.ite_none_right_eq_some, Option.some.injEq,
        Option.any_eq_true, Bool.and_eq_true] at h
      obtain ⟨⟨e, hEv, hJoin, hStarted⟩, rfl⟩ := h
      exact .joinWait t a e hRuns hOp hEv hJoin hStarted
  | joinReset a =>
      simp only [St.advanceOp, hOp, Option.some.injEq] at h
      exact h ▸ step_of_reset hRuns (.inl hOp)
  | detachWait a =>
      simp only [St.advanceOp, hOp, Option.ite_none_right_eq_some, Option.some.injEq,
        Option.any_eq_true] at h
      obtain ⟨⟨e, hEv, hStarted⟩, rfl⟩ := h
      exact .detachWait t a e hRuns hOp hEv hStarted
  | detachCrit a =>
      obtain hState | ⟨h', j, hFound⟩ | hAstray := state_cases s a
      · simp only [St.advanceOp, hOp, hState, if_true, Option.some.injEq] at h
        exact h ▸ .detachGone t a hRuns hOp hState
      · simp only [St.advanceOp, hOp, hFound.eDeleted, hFound.bind, Bool.false_eq_true, if_false,
          Option.some.injEq] at h
        exact h ▸ .detachFound t a h' j hRuns hOp hFound
      · simp only [St.advanceOp, hOp, hAstray.state, hAstray.occupant, Bool.false_eq_true, if_false,
          Option.some.injEq] at h
        exact h ▸ .detachAstray t a hRuns hOp hAstray
  | detachReset a =>
      simp only [St.advanceOp, hOp, Option.some.injEq] at h
      exact h ▸ step_of_reset hRuns (.inr hOp)
  | swap a b leg stage =>
      exact step_of_swap hOver hRuns hOp (by simpa [St.advanceOp, hOp] using h)

theorem step_of_body (hRuns : Runs s t) (hOp : s.op t = .idle)
    (h : s.advanceBody t (s.phase t) = some s') : Step port s (.step t) s' := by
  cases hPhase : s.phase t <;>
    simp only [St.advanceBody, hPhase, Option.some.injEq, reduceCtorEq] at h
  case entry => exact h ▸ .copy t hRuns hOp hPhase
  case copied => exact h ▸ .notifyStarted t hRuns hOp hPhase
  case started => exact h ▸ .run t hRuns hOp hPhase
  case running => exact h ▸ .return t hRuns hOp hPhase
  case returned => exact h ▸ .destroy t hRuns hOp hPhase
  case destroyed =>
    cases hKey : s.sKey with
    | false => exact h ▸ by simpa [hKey] using .keySkip t hRuns hOp hPhase hKey
    | true => exact h ▸ by simpa [hKey] using .keyStart t hRuns hOp hPhase hKey
  case keyDtor => exact h ▸ .keyDone t hRuns hOp hPhase
  case keyed => exact h ▸ .notifyJoined t hRuns hOp hPhase
  case exited => exact h ▸ .selfDelete t hRuns hOp hPhase

/-- The inversion of the step function. -/
theorem step_of_next {act : Act Handle Addr} (hOver : NoOver s) (h : next port s act = some s') :
    Step port s act s' := by
  cases act with
  | construct t a prio =>
      simp only [next, Option.ite_none_right_eq_some, Option.some.injEq] at h
      obtain ⟨⟨hUser, hBusy, hNull⟩, rfl⟩ := h
      exact .construct t a prio (calls_of_inUserCode hUser) hBusy hNull
  | create t h' =>
      cases hOp : s.op t <;> simp only [next, hOp, Option.ite_none_right_eq_some,
        Option.some.injEq, reduceCtorEq] at h
      obtain ⟨⟨hRun, hFree⟩, rfl⟩ := h
      exact .create t h' _ _ _ (runs_of_runnable hRun) hOp hFree
  | join t a =>
      simp only [next, Option.ite_none_right_eq_some, Option.some.injEq] at h
      obtain ⟨⟨hUser, hBusy⟩, rfl⟩ := h
      split
      · rename_i hJoinable
        exact .callJoin t a (calls_of_inUserCode hUser) hBusy hJoinable
      · exact .throws _ (by simp)
  | detach t a =>
      simp only [next, Option.ite_none_right_eq_some, Option.some.injEq] at h
      obtain ⟨⟨hUser, hBusy⟩, rfl⟩ := h
      split
      · rename_i hJoinable
        exact .callDetach t a (calls_of_inUserCode hUser) hBusy hJoinable
      · exact .throws _ (by simp)
  | swap t a b =>
      simp only [next, Option.ite_none_right_eq_some, Option.some.injEq] at h
      obtain ⟨⟨hUser, hFirst, hSecond⟩, rfl⟩ := h
      exact .callSwap _ t a b (calls_of_inUserCode hUser) (.inl rfl) hFirst hSecond
  | moveAssign t a b =>
      simp only [next, Option.ite_none_right_eq_some, Option.some.injEq] at h
      obtain ⟨⟨hUser, hFirst, hSecond⟩, rfl⟩ := h
      split
      · exact .terminate _ (by simp)
      · exact .callSwap _ t a b (calls_of_inUserCode hUser) (.inr rfl) hFirst hSecond
  | setKey t created =>
      simp only [next, Option.ite_none_right_eq_some, Option.some.injEq] at h
      obtain ⟨hUser, rfl⟩ := h
      exact .setKey t created (calls_of_inUserCode hUser)
  | allocationFails t =>
      simp only [next, Option.ite_none_right_eq_some, Option.some.injEq] at h
      exact h.2 ▸ .terminate _ (by simp)
  | step t =>
      simp only [next, Option.ite_none_right_eq_some] at h
      obtain ⟨hRun, h⟩ := h
      split at h
      · rename_i hOp
        exact step_of_body (runs_of_runnable hRun) hOp h
      · exact step_of_op hOver (runs_of_runnable hRun) h
  | reclaim j =>
      simp only [next, Option.ite_none_right_eq_some, Option.some.injEq] at h
      obtain ⟨⟨hLife, hCrit, _⟩, rfl⟩ := h
      exact .reclaim j hLife hCrit
  | reuse h' foreign =>
      simp only [next, Option.ite_none_right_eq_some, Option.some.injEq] at h
      obtain ⟨hFree, rfl⟩ := h
      exact .reuse h' foreign hFree

end Inversion

end FreeRtos.Thread
