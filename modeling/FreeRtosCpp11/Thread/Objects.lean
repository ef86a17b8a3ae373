import FreeRtosCpp11.Thread.Outline

/-! The handles that are no copies. A step builds, moves or clears at most one of
them, so that no two name the same construction and every free object is null
or owns a thread. -/
namespace FreeRtos.Thread

set_option linter.unusedSectionVars false

variable {Handle Addr : Type} [DecidableEq Handle] [DecidableEq Addr]

attribute [local grind =] Function.update_apply

section Changes

variable {port : Port} {s s' : St Handle Addr} {act : Act Handle Addr}

/-- What a step does to the handles that are no copies. -/
inductive HandleChange (s s' : St Handle Addr) : Prop where
  | same (hHnd : s'.hnd = s.hnd) (hHandle : s'.handle = s.handle) (hNext : s.next ≤ s'.next)
  | construct (a : Addr) (hNull : s.hnd (.obj a) = {}) (hFresh : s.handle s.next = none)
      (hHandle : s'.handle = s.handle) (hNext : s'.next = s.next + 1)
      (hHnd : s'.hnd = Function.update s.hnd (.obj a) { evHandle := some s.next, arg := some s.next })
  | create (a : Addr) (h : Handle) (k : Nat)
      (hNew : s.hnd (.obj a) = { evHandle := some k, arg := some k })
      (hHandle : s'.handle = Function.update s.handle k (some h)) (hNext : s'.next = s.next)
      (hHnd : s'.hnd = Function.update s.hnd (.obj a)
        { taskHandle := some h, evHandle := some k, arg := some k })
  | store (a : Addr) (k : Nat) (hEv : (s.hnd (.obj a)).evHandle = some k) (hZero : s.deletes k = 0)
      (hBorn : s.life k ≠ .unborn) (hHandle : s'.handle = s.handle) (hNext : s'.next = s.next)
      (hHnd : s'.hnd = Function.update s.hnd (.obj a) { s.hnd (.obj a) with fOwner := true })
  | detach (a : Addr) (k : Nat) (hEv : (s.hnd (.obj a)).evHandle = some k)
      (hHandle : s'.handle = s.handle) (hNext : s'.next = s.next)
      (hHnd : s'.hnd = Function.update s.hnd (.obj a) { s.hnd (.obj a) with fOwner := false })
  | clear (l : Loc Addr) (hStarted : ∀ k, (s.hnd l).evHandle = some k → s.eStartedEv k = true)
      (hHandle : s'.handle = s.handle) (hNext : s'.next = s.next)
      (hHnd : s'.hnd = Function.update s.hnd l {})
  | move (dst src : Loc Addr) (hNull : s.hnd dst = {})
      (hStarted : ∀ k, (s.hnd src).evHandle = some k → s.eStartedEv k = true)
      (hHandle : s'.handle = s.handle) (hNext : s'.next = s.next)
      (hHnd : s'.hnd = Function.update (Function.update s.hnd dst (s.hnd src)) src {})

/-- The move assignment from the null `invalid` clears the object. -/
theorem Coherent.move_invalid (h : Coherent s) {t : Nat} {a : Addr}
    (hOp : s.op t = .joinReset a ∨ s.op t = .detachReset a) :
    (s.move (.obj a) (.tmp t)).hnd = Function.update s.hnd (.obj a) {} := by
  have hNull : s.hnd (.tmp t) = {} := by
    rcases hOp with hOp | hOp
    · exact (h.at hOp).1
    · exact (h.at hOp).1
  simp only [St.move, hNull]
  exact Function.update_eq_self_iff.mpr (by simp [hNull])

/-- Join and detach clear an object only after its thread has started. -/
theorem Coherent.started_of_reset (h : Coherent s) {t : Nat} {a : Addr}
    (hOp : s.op t = .joinReset a ∨ s.op t = .detachReset a) {k : Nat}
    (hEv : (s.hnd (.obj a)).evHandle = some k) : s.eStartedEv k = true := by
  rcases hOp with hOp | hOp
  · obtain ⟨-, e, hOwner, hStarted, -⟩ := h.at hOp
    cases hEv.symm.trans hOwner.ev
    exact hStarted
  · obtain ⟨-, e, hNames, hStarted, -⟩ := h.at hOp
    cases hEv.symm.trans hNames
    exact hStarted

/-- A move of a swap takes a handle only after its thread has started. -/
theorem Coherent.started_of_swapNow (h : Coherent s) {t : Nat} {a b : Addr} {leg : Leg}
    (hOp : s.op t = .swap a b leg .check) (hShared : (s.hnd (leg.src t a b)).fOwner = false) {k : Nat}
    (hEv : (s.hnd (leg.src t a b)).evHandle = some k) : s.eStartedEv k = true := by
  obtain ⟨-, hFirst, hSecond, hSpare, -⟩ := h.at hOp
  have hSrc : Settled (s.hnd (leg.src t a b)) := by cases leg <;> assumption
  rw [hSrc.null hShared] at hEv
  cases hEv

theorem Coherent.started_of_swapMove (h : Coherent s) {t : Nat} {a b : Addr} {leg : Leg}
    (hOp : s.op t = .swap a b leg .move) {k : Nat}
    (hEv : (s.hnd (leg.src t a b)).evHandle = some k) : s.eStartedEv k = true := by
  obtain ⟨-, -, -, -, hBegun⟩ := h.at hOp
  obtain ⟨e, hOwner, hStarted⟩ := hBegun (by simp)
  cases hEv.symm.trans hOwner.ev
  exact hStarted rfl

attribute [local simp] St.move St.deleteGroup St.deleteOther St.deleteSelf St.astray St.finishCall
  St.setOp St.detachAstray

theorem Coherent.handleChange (h : Coherent s) (hStep : Step port s act s') : HandleChange s s' := by
  cases hStep
  case construct t a prio hCalls hBusy hNull =>
    have hUnborn := (h.fresh s.next (Nat.le_refl _)).1
    exact .construct a hNull (h.kernel.unborn s.next hUnborn).1 rfl rfl rfl
  case create t hdl a k prio hRuns hOp hFree =>
    have hNew := (h.at hOp).2.1
    exact .create a hdl k hNew rfl rfl (by simp [St.xTaskCreate, St.setOp, hNew])
  case callJoin t a hCalls hBusy hJoinable | callDetach t a hCalls hBusy hJoinable =>
    exact .clear (.tmp t) (by simp [h.spare hCalls]) rfl rfl rfl
  case storeTls t a k hRuns hOp =>
    obtain ⟨-, hEv, -, hBorn, hZero, -⟩ := h.at hOp
    exact .store a k hEv hZero hBorn rfl rfl rfl
  case detachFound t a hdl j hRuns hOp hFound =>
    obtain ⟨-, k, hOwner, -⟩ := h.at hOp
    exact .detach a k hOwner.ev rfl rfl rfl
  case resetShared t a hRuns hOp hShared =>
    exact .clear (.obj a) (fun k => h.started_of_reset hOp) rfl rfl (h.move_invalid hOp)
  case detachAstray t a hRuns hOp hAstray =>
    obtain ⟨-, k, hOwner, -⟩ := h.at hOp
    exact .detach a k hOwner.ev (by simp) (by simp) (by simp)
  case resetGone t a hRuns hOp hOwner hState | resetAstray t a hRuns hOp hOwner hState =>
    exact .clear (.obj a) (fun k => h.started_of_reset hOp) (by simp) (by simp)
      (by simpa using h.move_invalid hOp)
  case resetFound t a hdl j hRuns hOp hOwner hFound hOther =>
    exact .clear (.obj a) (fun k => h.started_of_reset hOp) (by simp) (by simp)
      (by simpa using h.move_invalid hOp)
  case resetSelf t a hdl hPort hRuns hOp hOwner hFound =>
    exact .clear (.obj a) (fun k => h.started_of_reset hOp) (by simp) (by simp)
      (by simpa using h.move_invalid hOp)
  case swapNow t a b leg hRuns hOp hShared =>
    exact .move _ _ (h.at hOp).1 (fun k => h.started_of_swapNow hOp hShared) rfl rfl rfl
  case swapMove t a b leg hRuns hOp =>
    exact .move _ _ (h.at hOp).1 (fun k => h.started_of_swapMove hOp) rfl rfl rfl
  all_goals exact .same rfl rfl (Nat.le_refl _)

theorem HandleChange.null (hChange : HandleChange s s') (h : Objects s) (l : Loc Addr)
    (hNone : (s'.hnd l).evHandle = none) : s'.hnd l = {} := by
  have hNull := h.null
  cases hChange with
  | same hHnd => rw [hHnd] at hNone ⊢; exact hNull l hNone
  | construct a _ _ _ _ hHnd | create a hdl k _ _ _ hHnd | store a k hEv _ _ _ _ hHnd
  | detach a k hEv _ _ hHnd | clear l' _ _ _ hHnd | move dst src _ _ _ _ hHnd =>
      rw [hHnd] at hNone ⊢
      grind

theorem HandleChange.shape (hChange : HandleChange s s') (h : Objects s) (l : Loc Addr) (k : Nat)
    (hEv : (s'.hnd l).evHandle = some k) :
    (s'.hnd l).taskHandle = s'.handle k ∧ (s'.hnd l).arg = some k ∧ k < s'.next := by
  have hShape := h.shape
  have hUnique := h.unique
  cases hChange with
  | same hHnd hHandle hNext =>
      rw [hHnd] at hEv ⊢
      rw [hHandle]
      obtain ⟨hTask, hArg, hLt⟩ := hShape l k hEv
      exact ⟨hTask, hArg, Nat.lt_of_lt_of_le hLt hNext⟩
  | construct a _ _ hHandle hNext hHnd | create a hdl k _ hHandle hNext hHnd
  | store a k _ _ _ hHandle hNext hHnd | detach a k _ hHandle hNext hHnd
  | clear l' _ hHandle hNext hHnd | move dst src _ _ hHandle hNext hHnd =>
      rw [hHnd] at hEv ⊢
      rw [hHandle, hNext]
      grind

theorem HandleChange.unique (hChange : HandleChange s s') (h : Objects s) (l l' : Loc Addr) (k : Nat)
    (hFirst : (s'.hnd l).evHandle = some k) (hSecond : (s'.hnd l').evHandle = some k) : l = l' := by
  have hUnique := h.unique
  have hShape := h.shape
  cases hChange with
  | same hHnd => rw [hHnd] at hFirst hSecond; exact hUnique l l' k hFirst hSecond
  | construct a _ _ _ _ hHnd | create a hdl k _ _ _ hHnd | store a k hEv _ _ _ _ hHnd
  | detach a k hEv _ _ hHnd | clear l' _ _ _ hHnd | move dst src _ _ _ _ hHnd =>
      rw [hHnd] at hFirst hSecond
      grind

theorem HandleChange.owner (hChange : HandleChange s s') {l : Loc Addr} {k : Nat}
    (hOwner : Owner (s'.hnd l) k) :
    (∃ l', Owner (s.hnd l') k) ∨ (s.deletes k = 0 ∧ s.life k ≠ .unborn) := by
  obtain ⟨hEv, hFlag⟩ := hOwner
  cases hChange with
  | same hHnd => rw [hHnd] at hEv hFlag; exact .inl ⟨l, hEv, hFlag⟩
  | construct a _ _ _ _ hHnd | create a hdl k _ _ _ hHnd | store a k _ _ _ _ _ hHnd
  | detach a k _ _ _ hHnd | clear l' _ _ _ hHnd | move dst src _ _ _ _ hHnd =>
      rw [hHnd] at hEv hFlag
      grind [Owner]

/-- No handle owns a group once its object is cleared. -/
theorem Objects.notOwner_of_clear (h : Objects s) {a : Addr} {k : Nat} {hnd : Loc Addr → Gthr Handle}
    (hEv : (s.hnd (.obj a)).evHandle = some k) (hHnd : hnd = Function.update s.hnd (.obj a) {})
    (l : Loc Addr) : ¬ Owner (hnd l) k := by
  rintro ⟨hNames, -⟩
  rw [hHnd] at hNames
  by_cases hHere : l = .obj a
  · rw [hHere, Function.update_self] at hNames
    cases hNames
  · rw [Function.update_of_ne hHere] at hNames
    exact hHere (h.unique l (.obj a) k hNames hEv)

/-- The step that deletes a group leaves no owner of it. -/
theorem Coherent.lost (h : Coherent s) (hStep : Step port s act s') {k : Nat}
    (hMore : s'.deletes k = s.deletes k + 1) (l : Loc Addr) : ¬ Owner (s'.hnd l) k := by
  have hNames : ∀ {a : Addr} {more : Nat},
      (if (s.hnd (.obj a)).evHandle = some k then more else s.deletes k) = s.deletes k + 1 →
        (s.hnd (.obj a)).evHandle = some k := by
    intro a more hMore
    by_contra hOther
    rw [if_neg hOther] at hMore
    omega
  cases hStep
  case detachFound t a hdl j hRuns hOp hFound =>
    rintro ⟨hEv, hFlag⟩
    have hUnique := h.objects.unique
    have hHere := hNames hMore
    simp only [St.detachFound, St.setOp] at hEv hFlag
    grind
  case detachAstray t a hRuns hOp hAstray =>
    rintro ⟨hEv, hFlag⟩
    have hUnique := h.objects.unique
    have hHere := hNames hMore
    simp only [St.detachAstray, St.setOp] at hEv hFlag
    grind
  case resetGone t a hRuns hOp hOwner hState | resetAstray t a hRuns hOp hOwner hState =>
    exact h.objects.notOwner_of_clear (hNames hMore) (h.move_invalid hOp) l
  case resetFound t a hdl j hRuns hOp hOwner hFound hOther =>
    exact h.objects.notOwner_of_clear (hNames hMore) (h.move_invalid hOp) l
  case resetSelf t a hdl hPort hRuns hOp hOwner hFound =>
    exact h.objects.notOwner_of_clear (hNames hMore) (h.move_invalid hOp) l
  all_goals exact absurd hMore (Nat.succ_ne_self _).symm

theorem Coherent.owner_step (h : Coherent s) (hStep : Step port s act s') (l : Loc Addr) (k : Nat)
    (hOwner : Owner (s'.hnd l) k) : s'.deletes k = 0 ∧ s'.life k ≠ .unborn := by
  have hBefore : s.deletes k = 0 ∧ s.life k ≠ .unborn := by
    obtain ⟨l', hOld⟩ | hNew := (h.handleChange hStep).owner hOwner
    · exact h.objects.owner l' k hOld
    · exact hNew
  refine ⟨?_, h.born hStep hBefore.2⟩
  obtain hSame | ⟨t, a, hAct, hOp, hEv, hMore⟩ := hStep.deletes_cases k
  · rw [hSame, hBefore.1]
  · exact absurd hOwner (h.lost hStep hMore l)

/-- An object that stays free keeps its handle. -/
theorem Coherent.obj_free (h : Coherent s) (hStep : Step port s act s') {c : Addr}
    (hFree : s.busy c = none) (hStays : s'.busy c = none) : s'.hnd (.obj c) = s.hnd (.obj c) := by
  have hUsed : ∀ t, ¬ (s.op t).uses c := by
    intro t hUses
    rw [h.held t c hUses] at hFree
    cases hFree
  have hReset : ∀ t a, s.op t = .joinReset a ∨ s.op t = .detachReset a →
      (s.move (.obj a) (.tmp t)).hnd (.obj c) = s.hnd (.obj c) := by
    intro t a hOp
    have hNe : c ≠ a := by
      rintro rfl
      apply hUsed t
      rcases hOp with hOp | hOp <;> rw [hOp] <;> rfl
    exact (congrFun (h.move_invalid hOp) _).trans (update_obj_of_ne hNe)
  cases hStep
  case construct t a prio hCalls hBusy hNull =>
    have hNe : c ≠ a := by
      rintro rfl
      simp [St.construct] at hStays
    exact update_obj_of_ne hNe
  case create t hdl a k prio hRuns hOp hIdle =>
    have hNe : c ≠ a := fun hEq => hUsed t (by rw [hOp]; exact hEq)
    exact update_obj_of_ne hNe
  case callJoin t a hCalls hBusy hJoinable => simp [St.enter, St.setOp]
  case callDetach t a hCalls hBusy hJoinable => simp [St.enter, St.setOp]
  case storeTls t a k hRuns hOp =>
    have hNe : c ≠ a := fun hEq => hUsed t (by rw [hOp]; exact hEq)
    exact update_obj_of_ne hNe
  case detachFound t a hdl j hRuns hOp hFound =>
    have hNe : c ≠ a := fun hEq => hUsed t (by rw [hOp]; exact hEq)
    exact update_obj_of_ne hNe
  case detachAstray t a hRuns hOp hAstray =>
    have hNe : c ≠ a := fun hEq => hUsed t (by rw [hOp]; exact hEq)
    exact update_obj_of_ne hNe
  case resetShared t a hRuns hOp hShared => exact hReset t a hOp
  case resetGone t a hRuns hOp hOwner hState | resetAstray t a hRuns hOp hOwner hState =>
    exact hReset t a hOp
  case resetFound t a hdl j hRuns hOp hOwner hFound hOther => exact hReset t a hOp
  case resetSelf t a hdl hPort hRuns hOp hOwner hFound => exact hReset t a hOp
  case swapNow t a b leg hRuns hOp hShared =>
    exact St.move_obj_other fun hEq => hUsed t (by rw [hOp]; exact hEq)
  case swapMove t a b leg hRuns hOp =>
    exact St.move_obj_other fun hEq => hUsed t (by rw [hOp]; exact hEq)
  all_goals rfl

/-- The object that a step sets free is null or owns a thread. -/
theorem Coherent.settled_of_release (h : Coherent s) (hStep : Step port s act s') {c : Addr}
    (hBusy : s.busy c ≠ none) (hFree : s'.busy c = none) : Settled (s'.hnd (.obj c)) := by
  have hCall : ∀ {a}, Function.update s.busy a none c = none → c = a := by
    intro a hNone
    by_contra hOther
    rw [Function.update_of_ne hOther] at hNone
    exact hBusy hNone
  have hTaken : ∀ {a t}, Function.update s.busy a (some t) c ≠ none := by
    intro a t hNone
    rw [Function.update_apply] at hNone
    split at hNone
    · cases hNone
    · exact hBusy hNone
  have hReset : ∀ t a, s.op t = .joinReset a ∨ s.op t = .detachReset a → c = a →
      Settled ((s.move (.obj a) (.tmp t)).hnd (.obj c)) := by
    rintro t a hOp rfl
    exact .inl ((congrFun (h.move_invalid hOp) _).trans (Function.update_self _ _ _))
  have hLast : ∀ {a b leg}, (if leg = .restore ∧ (c = a ∨ c = b) then none else s.busy c) = none →
      leg = Leg.restore ∧ (c = a ∨ c = b) := by
    intro a b leg hNone
    by_contra hOther
    exact hBusy ((if_neg hOther).symm.trans hNone)
  have hSwap : ∀ t a b leg, (∃ stage, s.op t = .swap a b leg stage) →
      leg = .restore ∧ (c = a ∨ c = b) →
      Settled (s.hnd (.obj c)) ∧ Settled ((s.move (leg.dst t a b) (leg.src t a b)).hnd (.obj c)) := by
    rintro t a b leg ⟨stage, hOp⟩ ⟨rfl, hEither⟩
    obtain ⟨-, hFirst, hSecond, hSpare, -⟩ := h.at hOp
    have hHere : Settled (s.hnd (.obj c)) := by rcases hEither with rfl | rfl <;> assumption
    have hMoved : Settled ((s.move (.obj b) (.tmp t)).hnd (.obj c)) := hSpare.move hHere
    exact ⟨hHere, hMoved⟩
  cases hStep
  case construct t a prio hCalls hIdle hNull => exact absurd hFree hTaken
  case callJoin t a hCalls hIdle hJoinable | callDetach t a hCalls hIdle hJoinable =>
    exact absurd hFree hTaken
  case callSwap t a b hCalls hFirst hSecond hAct =>
    have hNone : (if c = a ∨ c = b then some t else s.busy c) = none := hFree
    split at hNone
    · cases hNone
    · exact absurd hNone hBusy
  case release t a k err hRuns hOp =>
    cases hCall hFree
    exact .inr ⟨k, (h.at hOp).2.1⟩
  case resetShared t a hRuns hOp hShared => exact hReset t a hOp (hCall hFree)
  case resetGone t a hRuns hOp hOwner hState | resetAstray t a hRuns hOp hOwner hState =>
    exact hReset t a hOp (hCall hFree)
  case resetFound t a hdl j hRuns hOp hOwner hFound hOther => exact hReset t a hOp (hCall hFree)
  case resetSelf t a hdl hPort hRuns hOp hOwner hFound => exact hReset t a hOp (hCall hFree)
  case swapSame t a b leg hRuns hOp hLeg hSame => exact (hSwap t a b leg ⟨_, hOp⟩ (hLast hFree)).1
  case swapNow t a b leg hRuns hOp hShared => exact (hSwap t a b leg ⟨_, hOp⟩ (hLast hFree)).2
  case swapMove t a b leg hRuns hOp => exact (hSwap t a b leg ⟨_, hOp⟩ (hLast hFree)).2
  all_goals exact absurd hFree hBusy

theorem Coherent.free_step (h : Coherent s) (hStep : Step port s act s') (c : Addr)
    (hFree : s'.busy c = none) : Settled (s'.hnd (.obj c)) := by
  cases hBefore : s.busy c with
  | none => exact h.obj_free hStep hBefore hFree ▸ h.objects.free c hBefore
  | some t =>
      by_cases hOther : some t ≠ act.task
      · rw [(hStep.obj_other h.held hOther hBefore).2] at hFree
        cases hFree
      · exact h.settled_of_release hStep (by simp [hBefore]) hFree

theorem Coherent.fresh_step (h : Coherent s) (hStep : Step port s act s') : Fresh s' := by
  intro k hLe
  have hNext : s.next ≤ s'.next := by
    cases h.handleChange hStep <;> omega
  obtain ⟨hUnborn, hZero⟩ := h.fresh k (Nat.le_trans hNext hLe)
  have hTooLow : ∀ {a}, (s.hnd (.obj a)).evHandle ≠ some k := by
    intro a hEv
    have hLt := (h.objects.shape (.obj a) k hEv).2.2
    omega
  constructor
  · obtain hStays | ⟨-, t, hdl, a, prio, -, hOp⟩ := (hStep.taskChange h.kernel).unborn hUnborn
    · exact hStays
    · exact absurd (by rw [(h.at hOp).2.1]) (hTooLow (a := a))
  · obtain hSame | ⟨t, a, -, -, hEv, -⟩ := hStep.deletes_cases k
    · rw [hSame, hZero]
    · exact absurd hEv hTooLow

theorem Coherent.step (h : Coherent s) (hStep : Step port s act s') : Coherent s' := by
  have hChange := h.handleChange hStep
  refine ⟨h.held.step hStep, h.kernel.step hStep fun t a k prio => h.unborn, ?_, fun t => ?_,
    h.fresh_step hStep⟩
  · exact ⟨hChange.null h.objects, hChange.shape h.objects, hChange.unique h.objects,
      h.owner_step hStep, h.free_step hStep⟩
  · by_cases hOther : some t ≠ act.task
    · exact Outline.other h hStep hOther
    · exact Outline.own h hStep (not_not.mp hOther).symm

theorem Coherent.start (hStart : Start s) : Coherent s where
  held t c hUses := by
    rw [hStart.op] at hUses
    exact hUses.elim
  kernel :=
    { occupies := fun h j hOcc => by
        have hHandle := (hStart.occupant h j).mp hOcc
        have hLt : j < s.next := by
          by_contra hLe
          rw [hStart.handle j (by omega)] at hHandle
          cases hHandle
        exact ⟨hHandle, .inl (by rw [hStart.life, if_pos hLt])⟩
      found := fun h j hHandle _ => (hStart.occupant h j).mpr hHandle
      unborn := fun k hUnborn => by
        have hLe : ¬ k < s.next := by
          intro hLt
          rw [hStart.life, if_pos hLt] at hUnborn
          cases hUnborn
        exact ⟨hStart.handle k (by omega), by rw [hStart.phase, if_neg hLe]⟩ }
  objects :=
    { null := fun l _ => hStart.hnd l
      shape := fun l k hEv => by
        rw [hStart.hnd] at hEv
        cases hEv
      unique := fun l l' k hEv => by
        rw [hStart.hnd] at hEv
        cases hEv
      owner := fun l k hOwner => by
        have hEv := hOwner.ev
        rw [hStart.hnd] at hEv
        cases hEv
      free := fun a _ => .inl (hStart.hnd _) }
  outline t := by
    rw [hStart.op]
    exact hStart.hnd _
  fresh k hLe := ⟨by rw [hStart.life, if_neg (by omega)], hStart.deletes k⟩

end Changes

end FreeRtos.Thread
