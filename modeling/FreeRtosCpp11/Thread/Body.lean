import FreeRtosCpp11.Thread.Objects

/-! How far each new task has come in `__execute_native_thread_routine`, and
what it has done by then. -/
namespace FreeRtos.Thread

set_option linter.unusedSectionVars false

variable {Handle Addr : Type} [DecidableEq Handle] [DecidableEq Addr]

/-- The number of statements of `__execute_native_thread_routine` done. -/
def Phase.rank : Phase → Nat
  | .user => 0
  | .entry => 1
  | .copied => 2
  | .started => 3
  | .running => 4
  | .returned => 5
  | .destroyed => 6
  | .keyDtor => 7
  | .keyed => 8
  | .exited => 9

/-- The new task copies the handle from the object of its construction, and then
starts, runs and destroys its own state. -/
structure Body (s : St Handle Addr) (k : Nat) : Prop where
  entry : s.phase k = .entry → s.life k ≠ .unborn →
    (s.hnd (.obj (s.param k))).evHandle = some k ∧ s.handle k ≠ none
  copied : 2 ≤ (s.phase k).rank →
    s.copy k = { taskHandle := s.handle k, evHandle := some k, arg := some k } ∧ s.handle k ≠ none
  started : s.eStartedEv k = true ↔ 3 ≤ (s.phase k).rank
  runs : s.runs k = if 4 ≤ (s.phase k).rank then [k] else []
  destroys : s.destroys k = if 6 ≤ (s.phase k).rank then [k] else []

section Steps

variable {port : Port} {s s' : St Handle Addr} {act : Act Handle Addr} {k : Nat}

/-- Until the start event is set, nobody takes the handle from its object. -/
theorem HandleChange.names_stay (hChange : HandleChange s s') {a : Addr}
    (hEv : (s.hnd (.obj a)).evHandle = some k) (hNot : s.eStartedEv k ≠ true) :
    (s'.hnd (.obj a)).evHandle = some k := by
  cases hChange with
  | same hHnd => rwa [hHnd]
  | construct b hNull _ _ _ hHnd =>
      have hNe : a ≠ b := by
        rintro rfl
        simp [hNull] at hEv
      rwa [hHnd, update_obj_of_ne hNe]
  | create b hdl j hNew _ _ hHnd =>
      by_cases hHere : a = b
      · subst hHere
        rw [hNew] at hEv
        simpa [hHnd] using hEv
      · rwa [hHnd, update_obj_of_ne hHere]
  | store b j _ _ _ _ _ hHnd | detach b j _ _ _ hHnd =>
      by_cases hHere : a = b
      · subst hHere
        simpa [hHnd] using hEv
      · rwa [hHnd, update_obj_of_ne hHere]
  | clear l hStarted _ _ hHnd =>
      have hNe : Loc.obj a ≠ l := by
        rintro rfl
        exact hNot (hStarted k hEv)
      rwa [hHnd, Function.update_of_ne hNe]
  | move dst src hNull hStarted _ _ hHnd =>
      have hSrc : Loc.obj a ≠ src := by
        rintro rfl
        exact hNot (hStarted k hEv)
      have hDst : Loc.obj a ≠ dst := by
        rintro rfl
        simp [hNull] at hEv
      rwa [hHnd, Function.update_of_ne hSrc, Function.update_of_ne hDst]

theorem Body.not_started (hBody : Body s k) (hEntry : s.phase k = .entry) : s.eStartedEv k ≠ true := by
  rw [Ne, hBody.started, hEntry]
  decide

theorem Body.handle_ne_none (hBody : Body s k) (hNew : s.phase k ≠ .user) (hBorn : s.life k ≠ .unborn) :
    s.handle k ≠ none := by
  by_cases hEntry : s.phase k = .entry
  · exact (hBody.entry hEntry hBorn).2
  · refine (hBody.copied ?_).2
    revert hNew hEntry
    cases s.phase k <;> simp [Phase.rank]

/-- A thread that the step does not advance. -/
theorem Body.keep (hBody : Body s k) (h : Coherent s) (hStep : Step port s act s')
    (hPhase : s'.phase k = s.phase k) (hCopy : s'.copy k = s.copy k)
    (hStarted : s'.eStartedEv k = s.eStartedEv k) (hRuns : s'.runs k = s.runs k)
    (hDestroys : s'.destroys k = s.destroys k)
    (hBorn : s.life k = .unborn → s'.life k = .unborn) : Body s' k where
  entry hEntry hLife := by
    rw [hPhase] at hEntry
    have hHad : s.life k ≠ .unborn := mt hBorn hLife
    obtain ⟨hEv, hHandle⟩ := hBody.entry hEntry hHad
    obtain ⟨-, hParam, hSame⟩ := h.recorded hStep hHad
    rw [hParam, hSame]
    exact ⟨(h.handleChange hStep).names_stay hEv (hBody.not_started hEntry), hHandle⟩
  copied hRank := by
    rw [hPhase] at hRank
    have hHad : s.life k ≠ .unborn := by
      intro hUnborn
      rw [(h.kernel.unborn k hUnborn).2] at hRank
      revert hRank
      decide
    obtain ⟨-, -, hSame⟩ := h.recorded hStep hHad
    rw [hCopy, hSame]
    exact hBody.copied hRank
  started := by rw [hStarted, hPhase, hBody.started]
  runs := by rw [hRuns, hPhase, hBody.runs]
  destroys := by rw [hDestroys, hPhase, hBody.destroys]

theorem Coherent.unborn_stays (h : Coherent s) (hStep : Step port s act s')
    (hAct : ∀ t hdl, act ≠ .create t hdl) (hUnborn : s.life k = .unborn) : s'.life k = .unborn := by
  obtain hStays | ⟨-, t, hdl, a, prio, hCreate, -⟩ := (hStep.taskChange h.kernel).unborn hUnborn
  · exact hStays
  · exact absurd hCreate (hAct t hdl)

/-- The assertion of a task after it took the handle. -/
theorem Body.advance {phase : Phase} (hPhase : s'.phase k = phase) (hRank : 2 ≤ phase.rank)
    (hCopy : s'.copy k = { taskHandle := s'.handle k, evHandle := some k, arg := some k })
    (hHandle : s'.handle k ≠ none) (hStarted : s'.eStartedEv k = true ↔ 3 ≤ phase.rank)
    (hRuns : s'.runs k = if 4 ≤ phase.rank then [k] else [])
    (hDestroys : s'.destroys k = if 6 ≤ phase.rank then [k] else []) : Body s' k where
  entry hEntry := by
    rw [← hPhase, hEntry] at hRank
    exact absurd hRank (by decide)
  copied _ := ⟨hCopy, hHandle⟩
  started := by rw [hPhase, hStarted]
  runs := by rw [hPhase, hRuns]
  destroys := by rw [hPhase, hDestroys]

/-- A statement after the start of the user function that leaves the state object alone. -/
theorem Body.moveOn (hBody : Body s k) {before after : Phase} (hPhase : s.phase k = before)
    (hMoved : s'.phase k = after) (hBefore : 4 ≤ before.rank) (hAfter : 4 ≤ after.rank)
    (hEnd : 6 ≤ before.rank ↔ 6 ≤ after.rank) (hCopy : s'.copy k = s.copy k)
    (hHandle : s'.handle k = s.handle k) (hStarted : s'.eStartedEv k = s.eStartedEv k)
    (hRuns : s'.runs k = s.runs k) (hDestroys : s'.destroys k = s.destroys k) : Body s' k := by
  obtain ⟨hTaken, hSome⟩ := hBody.copied (by rw [hPhase]; omega)
  refine .advance hMoved (by omega) ?_ (hHandle ▸ hSome) ?_ ?_ ?_
  · rw [hCopy, hHandle, hTaken]
  · rw [hStarted, hBody.started, hPhase]
    omega
  · rw [hRuns, hBody.runs, hPhase, if_pos hBefore, if_pos hAfter]
  · simp only [hDestroys, hBody.destroys, hPhase, hEnd]

theorem Body.step (hBodies : ∀ k, Body s k) (h : Coherent s) (hStep : Step port s act s') (k : Nat) :
    Body s' k := by
  have hBody := hBodies k
  have hStep' := hStep
  have hOther : ∀ {j : Nat} {phase : Phase}, k ≠ j → act = .step j →
      s'.phase = Function.update s.phase j phase → s'.copy k = s.copy k →
      s'.eStartedEv k = s.eStartedEv k → s'.runs k = s.runs k → s'.destroys k = s.destroys k →
      Body s' k := by
    intro j phase hNe hAct hPhase hCopy hStarted hRuns hDestroys
    refine hBody.keep h hStep ?_ hCopy hStarted hRuns hDestroys (h.unborn_stays hStep (by simp [hAct]))
    rw [hPhase, Function.update_of_ne hNe]
  cases hStep
  case create t hdl a j prio hRuns hOp hFree =>
    by_cases hSelf : k = j
    · subst hSelf
      obtain ⟨-, hHnd, hUnborn, -⟩ := h.at hOp
      have hEntry := (h.kernel.unborn k hUnborn).2
      refine ⟨fun _ _ => ?_, fun hRank => ?_, hBody.started, hBody.runs, hBody.destroys⟩
      · simp [St.xTaskCreate, St.setOp, hHnd]
      · exact absurd (hEntry ▸ hRank : 2 ≤ Phase.entry.rank) (by decide)
    · refine hBody.keep h hStep' rfl rfl rfl rfl rfl fun hUnborn => ?_
      exact (Function.update_of_ne hSelf _ _).trans hUnborn
  case copy j hRuns hOp hPhase =>
    by_cases hSelf : k = j
    · subst hSelf
      obtain ⟨hEv, hHandle⟩ := hBody.entry hPhase (by simp [hRuns.live])
      obtain ⟨hTask, hArg, -⟩ := h.objects.shape _ k hEv
      refine .advance (Function.update_self _ _ _) (by decide) ?_ hHandle ?_ ?_ ?_
      · simp [St.copyHandle, hTask, hEv, hArg]
      · exact hBody.started.trans (by rw [hPhase]; decide)
      · exact hBody.runs.trans (by rw [hPhase]; rfl)
      · exact hBody.destroys.trans (by rw [hPhase]; rfl)
    · exact hOther hSelf rfl rfl (Function.update_of_ne hSelf _ _) rfl rfl rfl
  case notifyStarted j hRuns hOp hPhase =>
    obtain ⟨hCopy, hHandle⟩ := (hBodies j).copied (by rw [hPhase]; decide)
    by_cases hSelf : k = j
    · subst hSelf
      refine .advance (Function.update_self _ _ _) (by decide) hCopy hHandle ?_ ?_ ?_
      · simp [St.notifyStarted, hCopy, Phase.rank]
      · exact hBody.runs.trans (by rw [hPhase]; rfl)
      · exact hBody.destroys.trans (by rw [hPhase]; rfl)
    · exact hOther hSelf rfl rfl rfl (by simp [St.notifyStarted, hCopy, Ne.symm hSelf]) rfl rfl
  case run j hRuns hOp hPhase =>
    obtain ⟨hCopy, hHandle⟩ := (hBodies j).copied (by rw [hPhase]; decide)
    by_cases hSelf : k = j
    · subst hSelf
      refine .advance (Function.update_self _ _ _) (by decide) hCopy hHandle ?_ ?_ ?_
      · exact hBody.started.trans (by rw [hPhase]; decide)
      · simp [St.runState, hCopy, hBody.runs, hPhase, Phase.rank]
      · exact hBody.destroys.trans (by rw [hPhase]; rfl)
    · exact hOther hSelf rfl rfl rfl rfl (by simp [St.runState, hCopy, Ne.symm hSelf]) rfl
  case destroy j hRuns hOp hPhase =>
    obtain ⟨hCopy, hHandle⟩ := (hBodies j).copied (by rw [hPhase]; decide)
    by_cases hSelf : k = j
    · subst hSelf
      refine .advance (Function.update_self _ _ _) (by decide) hCopy hHandle ?_ ?_ ?_
      · exact hBody.started.trans (by rw [hPhase]; decide)
      · exact hBody.runs.trans (by rw [hPhase]; rfl)
      · simp [St.destroyState, hCopy, hBody.destroys, hPhase, Phase.rank]
    · exact hOther hSelf rfl rfl rfl rfl rfl (by simp [St.destroyState, hCopy, Ne.symm hSelf])
  case «return» j hRuns hOp hPhase | keyDone j hRuns hOp hPhase | notifyJoined j hRuns hOp hPhase
      | keyStart j hRuns hOp hPhase _ | keySkip j hRuns hOp hPhase _ =>
    by_cases hSelf : k = j
    · subst hSelf
      exact hBody.moveOn hPhase (Function.update_self _ _ _) (by decide) (by decide) (by decide)
        rfl rfl rfl rfl rfl
    · exact hOther hSelf rfl rfl rfl rfl rfl rfl
  case release t a j err hRuns hOp =>
    obtain ⟨-, -, rfl⟩ := h.at hOp
    exact hBody.keep h hStep' rfl rfl rfl rfl (by simp [St.releaseState, St.finishCall, St.setOp])
      (h.unborn_stays hStep' (by simp))
  case terminate => exact hBody.keep h hStep' rfl rfl rfl rfl rfl id
  case throws => exact hBody
  case callSwap t a b hCalls hFirst hSecond hAct => exact hBody.keep h hStep' rfl rfl rfl rfl rfl id
  all_goals exact hBody.keep h hStep' rfl rfl rfl rfl rfl (h.unborn_stays hStep' (by simp))

theorem Body.start (hStart : Start s) (k : Nat) : Body s k := by
  have hPhase : (s.phase k).rank ≤ 1 := by
    rw [hStart.phase]
    split <;> decide
  refine ⟨fun hEntry hLife => ?_, fun hRank => by omega, ?_, ?_, ?_⟩
  · rw [hStart.phase] at hEntry
    rw [hStart.life] at hLife
    split at hEntry <;> simp_all
  · rw [hStart.eStartedEv]
    simp only [Bool.false_eq_true, false_iff]
    omega
  · rw [hStart.runs, if_neg (by omega)]
  · rw [hStart.destroys, if_neg (by omega)]

end Steps

end FreeRtos.Thread
