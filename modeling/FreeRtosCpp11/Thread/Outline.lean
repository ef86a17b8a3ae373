import FreeRtosCpp11.Thread.Frames

/-! A proof outline of the operations on `std::thread`: what a task knows at each
statement. The acting task establishes its next assertion, and no step of
another task invalidates it. -/
namespace FreeRtos.Thread

set_option linter.unusedSectionVars false

variable {Handle Addr : Type} [DecidableEq Handle] [DecidableEq Addr]

/-- The `gthr_freertos` owns the thread of the `k`-th construction. -/
structure Owner (g : Gthr Handle) (k : Nat) : Prop where
  ev : g.evHandle = some k
  owner : g.fOwner = true

/-- The `gthr_freertos` is null, or owns a thread. -/
def Settled (g : Gthr Handle) : Prop := g = {} ∨ ∃ k, Owner g k

/-- The assertion at a statement of the task. -/
def Outline (s : St Handle Addr) (t : Nat) : Op Addr → Prop
  | .idle => s.hnd (.tmp t) = {}
  | .create a k _ => s.hnd (.tmp t) = {} ∧
      s.hnd (.obj a) = { evHandle := some k, arg := some k } ∧ s.life k = .unborn ∧ s.deletes k = 0
  | .storeTls a k => s.hnd (.tmp t) = {} ∧ (s.hnd (.obj a)).evHandle = some k ∧
      (s.hnd (.obj a)).fOwner = false ∧ s.life k ≠ .unborn ∧ s.deletes k = 0 ∧ s.maker k = t
  | .release a k err => s.hnd (.tmp t) = {} ∧ Owner (s.hnd (.obj a)) k ∧ err = 0
  | .joinWait a => s.hnd (.tmp t) = {} ∧ ∃ k, Owner (s.hnd (.obj a)) k
  | .joinReset a => s.hnd (.tmp t) = {} ∧ ∃ k, Owner (s.hnd (.obj a)) k ∧
      s.eStartedEv k = true ∧ s.eJoinEv k = true
  | .detachWait a => s.hnd (.tmp t) = {} ∧ ∃ k, Owner (s.hnd (.obj a)) k
  | .detachCrit a => s.hnd (.tmp t) = {} ∧ ∃ k, Owner (s.hnd (.obj a)) k ∧ s.eStartedEv k = true
  | .detachReset a => s.hnd (.tmp t) = {} ∧ ∃ k, (s.hnd (.obj a)).evHandle = some k ∧
      s.eStartedEv k = true ∧ ((s.hnd (.obj a)).fOwner = true ∨ s.deletes k = 1)
  | .swap a b leg stage => s.hnd (leg.dst t a b) = {} ∧ Settled (s.hnd (.obj a)) ∧
      Settled (s.hnd (.obj b)) ∧ Settled (s.hnd (.tmp t)) ∧
      (stage ≠ .check → ∃ k, Owner (s.hnd (leg.src t a b)) k ∧ (stage = .move → s.eStartedEv k = true))

/-- A `gthr_freertos` that is no copy is null or names one construction, and is
the only one to name it. An owner's group exists and its task was created. -/
structure Objects (s : St Handle Addr) : Prop where
  null : ∀ l, (s.hnd l).evHandle = none → s.hnd l = {}
  shape : ∀ l k, (s.hnd l).evHandle = some k →
    (s.hnd l).taskHandle = s.handle k ∧ (s.hnd l).arg = some k ∧ k < s.next
  unique : ∀ l l' k, (s.hnd l).evHandle = some k → (s.hnd l').evHandle = some k → l = l'
  owner : ∀ l k, Owner (s.hnd l) k → s.deletes k = 0 ∧ s.life k ≠ .unborn
  free : ∀ a, s.busy a = none → Settled (s.hnd (.obj a))

/-- The constructions to come. -/
def Fresh (s : St Handle Addr) : Prop := ∀ k, s.next ≤ k → s.life k = .unborn ∧ s.deletes k = 0

/-- The invariant of the thread system. -/
structure Coherent (s : St Handle Addr) : Prop where
  held : Held s
  kernel : Kernel s
  objects : Objects s
  outline : ∀ t, Outline s t (s.op t)
  fresh : Fresh s

section Facts

variable {s : St Handle Addr}

theorem Coherent.at (h : Coherent s) {t : Nat} {op : Op Addr} (hOp : s.op t = op) : Outline s t op :=
  hOp ▸ h.outline t

theorem Coherent.noOver (h : Coherent s) : NoOver s := by
  intro t a b leg hOp _
  obtain ⟨hNull, _⟩ := h.at hOp
  rw [hNull]

theorem Coherent.step_of_next (h : Coherent s) {port : Port} {act : Act Handle Addr}
    {s' : St Handle Addr} (hNext : next port s act = some s') : Step port s act s' :=
  FreeRtos.Thread.step_of_next h.noOver hNext

theorem Coherent.unborn (h : Coherent s) {t : Nat} {a : Addr} {k prio : Nat}
    (hOp : s.op t = .create a k prio) : s.life k = .unborn := (h.at hOp).2.2.1

/-- A settled object without ownership is null. -/
theorem Settled.null {g : Gthr Handle} (h : Settled g) (hShared : g.fOwner = false) : g = {} := by
  rcases h with hNull | ⟨k, hOwner⟩
  · exact hNull
  · rw [hOwner.owner] at hShared
    cases hShared

end Facts

section Interference

variable {port : Port} {s s' : St Handle Addr} {act : Act Handle Addr} {u : Nat}

/-- The group named by an object of a task is deleted by no other task. -/
theorem Coherent.deletes_other (h : Coherent s) (hStep : Step port s act s')
    (hOther : some u ≠ act.task) {a : Addr} {k : Nat} (hBusy : s.busy a = some u)
    (hEv : (s.hnd (.obj a)).evHandle = some k) : s'.deletes k = s.deletes k := by
  obtain hSame | ⟨t, b, rfl, hOp, hNames, _⟩ := hStep.deletes_cases k
  · exact hSame
  · cases h.objects.unique (.obj b) (.obj a) k hNames hEv
    have hUses : (s.op t).uses a := by
      rcases hOp with hOp | ⟨hOp | hOp, -⟩ <;> rw [hOp] <;> rfl
    rw [h.held t a hUses] at hBusy
    exact absurd hBusy.symm hOther

/-- A task under construction is born to its creator's own step only. -/
theorem Coherent.unborn_other (h : Coherent s) (hStep : Step port s act s')
    (hOther : some u ≠ act.task) {a : Addr} {k prio : Nat} (hOp : s.op u = .create a k prio) :
    s'.life k = .unborn := by
  obtain hStays | ⟨-, t, hdl, b, prio', hAct, hMake⟩ :=
    (hStep.taskChange h.kernel).unborn (h.unborn hOp)
  · exact hStays
  · have hTheirs := (h.at hMake).2.1
    have hMine := (h.at hOp).2.1
    cases h.objects.unique (.obj b) (.obj a) k (by rw [hTheirs]) (by rw [hMine])
    have hBusy := h.held t a (by rw [hMake]; rfl)
    rw [h.held u a (by rw [hOp]; rfl)] at hBusy
    exact absurd (hAct ▸ hBusy) hOther

theorem Coherent.born (h : Coherent s) (hStep : Step port s act s') {k : Nat}
    (hBorn : s.life k ≠ .unborn) : s'.life k ≠ .unborn :=
  (hStep.taskChange h.kernel).born hBorn

/-- What `xTaskCreate` records of a task is final. -/
theorem Coherent.recorded (h : Coherent s) (hStep : Step port s act s') {k : Nat}
    (hBorn : s.life k ≠ .unborn) :
    s'.maker k = s.maker k ∧ s'.param k = s.param k ∧ s'.handle k = s.handle k := by
  cases hStep
  case create t hdl a j prio hRuns hOp hFree =>
    have hNe : k ≠ j := by
      rintro rfl
      exact hBorn (h.unborn hOp)
    exact ⟨Function.update_of_ne hNe _ _, Function.update_of_ne hNe _ _, Function.update_of_ne hNe _ _⟩
  all_goals exact ⟨rfl, rfl, rfl⟩

theorem Outline.other (h : Coherent s) (hStep : Step port s act s') (hOther : some u ≠ act.task) :
    Outline s' u (s'.op u) := by
  have hAt := h.outline u
  have hTmp := hStep.tmp_other hOther
  have hObj : ∀ c, (s.op u).uses c → s'.hnd (.obj c) = s.hnd (.obj c) := fun c hUses =>
    (hStep.obj_other h.held hOther (h.held u c hUses)).1
  have hDeletes : ∀ c k, (s.op u).uses c → (s.hnd (.obj c)).evHandle = some k →
      s'.deletes k = s.deletes k := fun c k hUses =>
    h.deletes_other hStep hOther (h.held u c hUses)
  rw [hStep.op_other hOther]
  cases hOp : s.op u with
  | idle => simpa [Outline, hTmp, hOp] using hAt
  | create a k prio =>
      rw [hOp] at hAt hObj hDeletes
      obtain ⟨hNull, hHnd, hUnborn, hZero⟩ := hAt
      refine ⟨hTmp.trans hNull, (hObj a rfl).trans hHnd, h.unborn_other hStep hOther hOp, ?_⟩
      rw [hDeletes a k rfl (by rw [hHnd]), hZero]
  | storeTls a k =>
      rw [hOp] at hAt hObj hDeletes
      obtain ⟨hNull, hEv, hShared, hBorn, hZero, hMaker⟩ := hAt
      have hDel := hDeletes a k rfl hEv
      rw [Outline, hTmp, hObj a rfl, hDel, (h.recorded hStep hBorn).1]
      exact ⟨hNull, hEv, hShared, h.born hStep hBorn, hZero, hMaker⟩
  | release a k err =>
      rw [hOp] at hAt hObj
      rw [Outline, hTmp, hObj a rfl]
      exact hAt
  | joinWait a | detachWait a =>
      rw [hOp] at hAt hObj
      rw [Outline, hTmp, hObj a rfl]
      exact hAt
  | joinReset a =>
      rw [hOp] at hAt hObj
      obtain ⟨hNull, k, hOwner, hStarted, hJoin⟩ := hAt
      rw [Outline, hTmp, hObj a rfl]
      exact ⟨hNull, k, hOwner, hStep.eStartedEv_mono hStarted, hStep.eJoinEv_mono hJoin⟩
  | detachCrit a =>
      rw [hOp] at hAt hObj
      obtain ⟨hNull, k, hOwner, hStarted⟩ := hAt
      rw [Outline, hTmp, hObj a rfl]
      exact ⟨hNull, k, hOwner, hStep.eStartedEv_mono hStarted⟩
  | detachReset a =>
      rw [hOp] at hAt hObj hDeletes
      obtain ⟨hNull, k, hEv, hStarted, hLeft⟩ := hAt
      rw [Outline, hTmp, hObj a rfl]
      refine ⟨hNull, k, hEv, hStep.eStartedEv_mono hStarted, ?_⟩
      rwa [hDeletes a k rfl hEv]
  | swap a b leg stage =>
      rw [hOp] at hAt hObj
      have hDst : s'.hnd (leg.dst u a b) = s.hnd (leg.dst u a b) := by
        cases leg
        exacts [hTmp, hObj a (.inl rfl), hObj b (.inr rfl)]
      have hSrc : s'.hnd (leg.src u a b) = s.hnd (leg.src u a b) := by
        cases leg
        exacts [hObj a (.inl rfl), hObj b (.inr rfl), hTmp]
      obtain ⟨hNull, hFirst, hSecond, hSpare, hBegun⟩ := hAt
      rw [Outline, hTmp, hObj a (.inl rfl), hObj b (.inr rfl), hDst, hSrc]
      refine ⟨hNull, hFirst, hSecond, hSpare, fun hStage => ?_⟩
      obtain ⟨k, hOwner, hStarted⟩ := hBegun hStage
      exact ⟨k, hOwner, fun hMove => hStep.eStartedEv_mono (hStarted hMove)⟩

end Interference

section Acting

variable {port : Port} {s s' : St Handle Addr} {act : Act Handle Addr} {u : Nat}

theorem Coherent.spare (h : Coherent s) {t : Nat} (hCalls : Calls s t) : s.hnd (.tmp t) = {} :=
  h.at hCalls.idle

/-- A joinable object that nobody uses owns a thread. -/
theorem Coherent.owner_of_joinable (h : Coherent s) {a : Addr} (hBusy : s.busy a = none)
    (hJoinable : s.joinable a = true) : ∃ k, Owner (s.hnd (.obj a)) k := by
  rcases h.objects.free a hBusy with hNull | hOwner
  · simp [St.joinable, hNull] at hJoinable
  · exact hOwner

theorem Coherent.owner_of_names (h : Coherent s) {a : Addr} {e : Nat} (hBusy : s.busy a = none)
    (hJoinable : s.joinable a = true) (hEv : (s.hnd (.obj a)).evHandle = some e) :
    Owner (s.hnd (.obj a)) e := by
  obtain ⟨k, hOwner⟩ := h.owner_of_joinable hBusy hJoinable
  obtain rfl : k = e := Option.some.inj (hOwner.ev.symm.trans hEv)
  exact hOwner

theorem Settled.owner {g : Gthr Handle} (h : Settled g) (hOwner : g.fOwner = true) :
    ∃ k, Owner g k := by
  rcases h with rfl | hSome
  · cases hOwner
  · exact hSome

theorem St.move_src (s : St Handle Addr) (dst src : Loc Addr) : (s.move dst src).hnd src = {} :=
  Function.update_self _ _ _

/-- A move of a swap leaves the objects of others alone. -/
theorem St.move_obj_other {t : Nat} {a b c : Addr} {leg : Leg} (hOther : ¬ (c = a ∨ c = b)) :
    (s.move (leg.dst t a b) (leg.src t a b)).hnd (.obj c) = s.hnd (.obj c) := by
  cases leg <;> simp_all [St.move, Leg.dst, Leg.src]

theorem Settled.move {dst src l : Loc Addr} (hSrc : Settled (s.hnd src)) (hHere : Settled (s.hnd l)) :
    Settled ((s.move dst src).hnd l) := by
  simp only [St.move, Function.update_apply]
  split
  · exact .inl rfl
  · split
    · exact hSrc
    · exact hHere

/-- After a move of a swap, its source is the target of the next one. -/
theorem Outline.afterMove {t : Nat} {a b : Addr} {leg : Leg} {stage : Stage}
    (hAt : Outline s t (.swap a b leg stage)) :
    Outline ((s.move (leg.dst t a b) (leg.src t a b)).finishLeg t a b leg) t (leg.after a b) := by
  obtain ⟨hNull, hFirst, hSecond, hSpare, -⟩ := hAt
  cases leg with
  | save =>
      exact ⟨St.move_src .., hFirst.move hFirst, hFirst.move hSecond, hFirst.move hSpare, by simp⟩
  | copy =>
      have hHere : Settled ((s.move (.obj a) (.obj b)).hnd (.tmp t)) := hSecond.move hSpare
      exact ⟨St.move_src .., hSecond.move hFirst, hSecond.move hSecond, hHere, by simp⟩
  | restore => exact St.move_src ..

theorem Outline.of_op {op : Op Addr} (hOp : s'.op u = op) (hAt : Outline s' u op) :
    Outline s' u (s'.op u) := hOp ▸ hAt

/-- A statement that stores no handle keeps the assertion of user code. -/
theorem Outline.idle (h : Coherent s) (hOp : s.op u = .idle) (hSame : s'.op u = s.op u)
    (hHnd : s'.hnd (.tmp u) = s.hnd (.tmp u)) : Outline s' u (s'.op u) := by
  have hNull : s.hnd (.tmp u) = {} := h.at hOp
  rw [hSame, hOp]
  exact hHnd.trans hNull

theorem Outline.own (h : Coherent s) (hStep : Step port s act s') (hTask : act.task = some u) :
    Outline s' u (s'.op u) := by
  cases hStep
  case terminate | throws | setKey => exact h.outline u
  case construct t a prio hCalls hBusy hNull =>
    cases hTask
    obtain ⟨hUnborn, hZero⟩ := h.fresh s.next (Nat.le_refl _)
    refine .of_op (Function.update_self _ _ _) ⟨?_, Function.update_self _ _ _, hUnborn, hZero⟩
    simpa [St.construct, St.setOp] using h.spare hCalls
  case create t hdl a k prio hRuns hOp hFree =>
    cases hTask
    obtain ⟨hNull, hHnd, hUnborn, hZero⟩ := h.at hOp
    refine .of_op (Function.update_self _ _ _) ?_
    simp [Outline, St.xTaskCreate, St.setOp, hNull, hHnd, hZero]
  case callJoin t a hCalls hBusy hJoinable | callDetach t a hCalls hBusy hJoinable =>
    cases hTask
    obtain ⟨k, hOwner⟩ := h.owner_of_joinable hBusy hJoinable
    refine .of_op (Function.update_self _ _ _) ⟨Function.update_self _ _ _, k, ?_⟩
    simpa [St.enter] using hOwner
  case callSwap t a b hCalls hFirst hSecond hAct =>
    obtain rfl : t = u := by rcases hAct with rfl | rfl <;> simpa [Act.task] using hTask
    exact .of_op (Function.update_self _ _ _) ⟨h.spare hCalls, h.objects.free a hFirst,
      h.objects.free b hSecond, .inl (h.spare hCalls), by simp⟩
  case storeTls t a k hRuns hOp =>
    cases hTask
    obtain ⟨hNull, hEv, -⟩ := h.at hOp
    refine .of_op (Function.update_self _ _ _) ⟨?_, ⟨?_, ?_⟩, rfl⟩
    · simpa [St.storeTls, St.setOp] using hNull
    · simpa [St.storeTls, St.setOp] using hEv
    · simp [St.storeTls, St.setOp]
  case release t a k err hRuns hOp =>
    cases hTask
    exact .of_op (Function.update_self _ _ _) (h.at hOp).1
  case joinWait t a e hRuns hOp hEv hJoin hStarted =>
    cases hTask
    obtain ⟨hNull, k, hOwner⟩ := h.at hOp
    obtain rfl : k = e := Option.some.inj (hOwner.ev.symm.trans hEv)
    exact .of_op (Function.update_self _ _ _) ⟨hNull, k, hOwner, hStarted, hJoin⟩
  case detachWait t a e hRuns hOp hEv hStarted =>
    cases hTask
    obtain ⟨hNull, k, hOwner⟩ := h.at hOp
    obtain rfl : k = e := Option.some.inj (hOwner.ev.symm.trans hEv)
    exact .of_op (Function.update_self _ _ _) ⟨hNull, k, hOwner, hStarted⟩
  case detachFound t a hdl j hRuns hOp hFound =>
    cases hTask
    obtain ⟨hNull, k, hOwner, hStarted⟩ := h.at hOp
    have hZero := (h.objects.owner _ k hOwner).1
    refine .of_op (Function.update_self _ _ _) ⟨?_, k, ?_, hStarted, .inr ?_⟩
    · simpa [St.detachFound, St.setOp] using hNull
    · simpa [St.detachFound, St.setOp] using hOwner.ev
    · simp [St.detachFound, St.deleteGroup, St.setOp, hOwner.ev, hZero]
  case detachAstray t a hRuns hOp hAstray =>
    cases hTask
    obtain ⟨hNull, k, hOwner, hStarted⟩ := h.at hOp
    have hZero := (h.objects.owner _ k hOwner).1
    refine .of_op (Function.update_self _ _ _) ⟨?_, k, ?_, hStarted, .inr ?_⟩
    · simpa [St.detachAstray, St.setOp] using hNull
    · simpa [St.detachAstray, St.setOp] using hOwner.ev
    · simp [St.detachAstray, St.astray, St.deleteGroup, St.setOp, hOwner.ev, hZero]
  case detachGone t a hRuns hOp hState =>
    cases hTask
    obtain ⟨hNull, k, hOwner, hStarted⟩ := h.at hOp
    exact .of_op (Function.update_self _ _ _) ⟨hNull, k, hOwner.ev, hStarted, .inl hOwner.owner⟩
  case resetShared t a hRuns hOp hShared =>
    cases hTask
    exact .of_op (Function.update_self _ _ _) (St.move_src ..)
  case resetGone t a hRuns hOp hOwner hState | resetAstray t a hRuns hOp hOwner hState =>
    cases hTask
    exact .of_op (Function.update_self _ _ _) (St.move_src ..)
  case resetFound t a hdl j hRuns hOp hOwner hFound hOther =>
    cases hTask
    exact .of_op (Function.update_self _ _ _) (St.move_src ..)
  case resetSelf t a hdl hPort hRuns hOp hOwner hFound =>
    cases hTask
    exact .of_op (Function.update_self _ _ _) (St.move_src ..)
  case resetStuck t a hdl hPort hRuns hOp hOwner hFound =>
    cases hTask
    rcases hOp with hOp | hOp
    · exact .of_op hOp (h.at hOp)
    · exact .of_op hOp (h.at hOp)
  case swapSame t a b leg hRuns hOp hLeg hSame =>
    cases hTask
    obtain ⟨hNull, hFirst, hSecond, hSpare, -⟩ := h.at hOp
    refine .of_op (Function.update_self _ _ _) ?_
    cases leg with
    | save => contradiction
    | copy =>
        have hTarget : s.hnd (.obj b) = {} := (congrArg s.hnd hSame).symm.trans hNull
        exact ⟨hTarget, hFirst, hSecond, hSpare, by simp⟩
    | restore => cases hSame
  case swapBegin t a b leg hRuns hOp hOwner =>
    cases hTask
    obtain ⟨hNull, hFirst, hSecond, hSpare, -⟩ := h.at hOp
    refine .of_op (Function.update_self _ _ _) ⟨hNull, hFirst, hSecond, hSpare, fun _ => ?_⟩
    have hSrc : Settled (s.hnd (leg.src u a b)) := by cases leg <;> assumption
    obtain ⟨k, hSome⟩ := hSrc.owner hOwner
    exact ⟨k, hSome, by simp⟩
  case swapNow t a b leg hRuns hOp hShared =>
    cases hTask
    exact .of_op (Function.update_self _ _ _) (h.at hOp).afterMove
  case swapWait t a b leg e hRuns hOp hEv hStarted =>
    cases hTask
    obtain ⟨hNull, hFirst, hSecond, hSpare, hBegun⟩ := h.at hOp
    obtain ⟨k, hOwner, -⟩ := hBegun (by simp)
    obtain rfl : k = e := Option.some.inj (hOwner.ev.symm.trans hEv)
    exact .of_op (Function.update_self _ _ _)
      ⟨hNull, hFirst, hSecond, hSpare, fun _ => ⟨k, hOwner, fun _ => hStarted⟩⟩
  case swapMove t a b leg hRuns hOp =>
    cases hTask
    exact .of_op (Function.update_self _ _ _) (h.at hOp).afterMove
  case copy k hRuns hOp hPhase | notifyStarted k hRuns hOp hPhase | run k hRuns hOp hPhase
      | «return» k hRuns hOp hPhase | destroy k hRuns hOp hPhase | keyDone k hRuns hOp hPhase
      | notifyJoined k hRuns hOp hPhase | selfDelete k hRuns hOp hPhase =>
    cases hTask
    exact .idle h hOp rfl rfl
  case keyStart k hRuns hOp hPhase hKey | keySkip k hRuns hOp hPhase hKey =>
    cases hTask
    exact .idle h hOp rfl rfl
  case reclaim | reuse => cases hTask

/-- A statement that takes no further object and gives none back. -/
theorem Held.keep (h : Held s) {c : Addr} {before after : Op Addr} (hBefore : s.op u = before)
    (hAfter : s'.op u = after) (hSame : after.uses c → before.uses c) (hBusy : s'.busy c = s.busy c)
    (hUses : (s'.op u).uses c) : s'.busy c = some u := by
  rw [hBusy]
  exact h u c (hBefore ▸ hSame (hAfter ▸ hUses))

theorem Held.done {c : Addr} (hAfter : s'.op u = .idle) (hUses : (s'.op u).uses c) :
    s'.busy c = some u := by
  rw [hAfter] at hUses
  exact hUses.elim

theorem Held.own (h : Held s) (hStep : Step port s act s') (hTask : act.task = some u) {c : Addr}
    (hUses : (s'.op u).uses c) : s'.busy c = some u := by
  have hOwn {op : Op Addr} : Function.update s.op u op u = op := Function.update_self _ _ _
  cases hStep
  case terminate | throws | setKey => exact h u c hUses
  case construct t a prio hCalls hBusy hNull =>
    cases hTask
    obtain rfl : c = a := by simpa [St.construct, St.setOp, Op.uses] using hUses
    exact Function.update_self _ _ _
  case create t hdl a k prio hRuns hOp hFree =>
    cases hTask
    exact h.keep hOp hOwn id rfl hUses
  case callJoin t a hCalls hBusy hJoinable | callDetach t a hCalls hBusy hJoinable =>
    cases hTask
    obtain rfl : c = a := by simpa [St.enter, St.setOp, Op.uses] using hUses
    exact Function.update_self _ _ _
  case callSwap t a b hCalls hFirst hSecond hAct =>
    obtain rfl : t = u := by rcases hAct with rfl | rfl <;> simpa [Act.task] using hTask
    have hEither : c = a ∨ c = b := by simpa [St.enterSwap, St.setOp, Op.uses] using hUses
    exact if_pos hEither
  case storeTls t a k hRuns hOp =>
    cases hTask
    exact h.keep hOp hOwn id rfl hUses
  case detachGone t a hRuns hOp hState | detachAstray t a hRuns hOp hState =>
    cases hTask
    exact h.keep hOp hOwn id rfl hUses
  case joinWait t a e hRuns hOp hEv hJoin hStarted =>
    cases hTask
    exact h.keep hOp hOwn id rfl hUses
  case detachWait t a e hRuns hOp hEv hStarted =>
    cases hTask
    exact h.keep hOp hOwn id rfl hUses
  case detachFound t a hdl j hRuns hOp hFound =>
    cases hTask
    exact h.keep hOp hOwn id rfl hUses
  case swapBegin t a b leg hRuns hOp hOwner =>
    cases hTask
    exact h.keep hOp hOwn id rfl hUses
  case swapWait t a b leg e hRuns hOp hEv hStarted =>
    cases hTask
    exact h.keep hOp hOwn id rfl hUses
  case release t a k err hRuns hOp | resetShared t a hRuns hOp hShared =>
    cases hTask
    exact Held.done hOwn hUses
  case resetGone t a hRuns hOp hOwner hState | resetAstray t a hRuns hOp hOwner hState =>
    cases hTask
    exact Held.done hOwn hUses
  case resetFound t a hdl j hRuns hOp hOwner hFound hOther =>
    cases hTask
    exact Held.done hOwn hUses
  case resetSelf t a hdl hPort hRuns hOp hOwner hFound =>
    cases hTask
    exact Held.done hOwn hUses
  case swapSame t a b leg hRuns hOp hLeg hSame =>
    cases hTask
    cases leg
    case restore => exact Held.done hOwn hUses
    all_goals exact h.keep hOp hOwn id (by simp [St.finishLeg, St.setOp]) hUses
  case swapNow t a b leg hRuns hOp hShared | swapMove t a b leg hRuns hOp =>
    cases hTask
    cases leg
    case restore => exact Held.done hOwn hUses
    all_goals exact h.keep hOp hOwn id (by simp [St.finishLeg, St.move, St.setOp]) hUses
  case reclaim | reuse => cases hTask
  all_goals exact h u c hUses

theorem Held.step (h : Held s) (hStep : Step port s act s') : Held s' := by
  intro t c hUses
  by_cases hOther : some t ≠ act.task
  · rw [hStep.op_other hOther] at hUses
    exact (hStep.obj_other h hOther (h t c hUses)).2
  · exact h.own hStep (not_not.mp hOther).symm hUses

end Acting

end FreeRtos.Thread
