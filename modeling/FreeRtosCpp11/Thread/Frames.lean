import FreeRtosCpp11.Thread.Step

/-! What one step leaves alone. A step belongs to one task; the operations of
all other tasks, and the objects these operations use, stay as they are. -/
namespace FreeRtos.Thread

set_option linter.unusedSectionVars false

variable {Handle Addr : Type} [DecidableEq Handle] [DecidableEq Addr]

/-- The task that takes the step; what becomes of freed memory is up to no task
in particular. -/
def Act.task : Act Handle Addr → Option Nat
  | .construct t _ _ | .create t _ | .join t _ | .detach t _ | .swap t _ _ | .moveAssign t _ _
  | .setKey t _ | .allocationFails t | .step t => some t
  | .reclaim _ | .reuse .. => none

/-- The `std::thread` objects of an operation. -/
def Op.uses : Op Addr → Addr → Prop
  | .idle, _ => False
  | .create a _ _, c | .storeTls a _, c | .release a _ _, c => c = a
  | .joinWait a, c | .joinReset a, c | .detachWait a, c | .detachCrit a, c | .detachReset a, c => c = a
  | .swap a b _ _, c => c = a ∨ c = b

/-- Each object is used by the one task recorded for it. -/
def Held (s : St Handle Addr) : Prop := ∀ t c, (s.op t).uses c → s.busy c = some t

theorem St.move_of_ne {s : St Handle Addr} {dst src l : Loc Addr} (hDst : l ≠ dst) (hSrc : l ≠ src) :
    (s.move dst src).hnd l = s.hnd l :=
  (Function.update_of_ne hSrc _ _).trans (Function.update_of_ne hDst _ _)

theorem update_obj_of_ne {hnd : Loc Addr → Gthr Handle} {a c : Addr} {g : Gthr Handle} (hNe : c ≠ a) :
    Function.update hnd (.obj a) g (.obj c) = hnd (.obj c) :=
  Function.update_of_ne (fun hEq => hNe (Loc.obj.inj hEq)) _ _

/-- A move of a swap works on the two objects and the local one of its task. -/
theorem Leg.ne_dst {t : Nat} {a b : Addr} {l : Loc Addr} (hTmp : l ≠ .tmp t) (hFirst : l ≠ .obj a)
    (hSecond : l ≠ .obj b) (leg : Leg) : l ≠ leg.dst t a b ∧ l ≠ leg.src t a b := by
  cases leg with
  | save => exact ⟨hTmp, hFirst⟩
  | copy => exact ⟨hFirst, hSecond⟩
  | restore => exact ⟨hSecond, hTmp⟩

attribute [local simp] Act.task Op.uses St.construct St.xTaskCreate St.enter St.enterSwap St.storeTls
  St.releaseState St.finishCall St.detachFound St.detachAstray St.astray St.move St.deleteGroup St.deleteOther St.deleteSelf
  St.finishLeg St.copyHandle St.notifyStarted St.runState St.destroyState St.notifyJoined St.setOp
  St.setPhase

section Bystander

variable {port : Port} {s s' : St Handle Addr} {act : Act Handle Addr} {u : Nat}

theorem Act.ne_of_task {t : Nat} (hOther : some u ≠ act.task) (hTask : act.task = some t) : u ≠ t := by
  rintro rfl
  exact hOther hTask.symm

theorem Act.task_of_swap {t : Nat} {a b : Addr} (hAct : act = .swap t a b ∨ act = .moveAssign t a b) :
    act.task = some t := by
  rcases hAct with rfl | rfl <;> rfl

theorem Step.op_other (hStep : Step port s act s') (hOther : some u ≠ act.task) :
    s'.op u = s.op u := by
  have hNe : ∀ {t}, act.task = some t → u ≠ t := Act.ne_of_task hOther
  cases hStep
  case callSwap t a b hCalls hFirst hSecond hAct =>
    exact Function.update_of_ne (hNe (Act.task_of_swap hAct)) _ _
  case terminate | throws | setKey | resetStuck | copy | notifyStarted | run | «return» | destroy
      | keyStart | keySkip | keyDone | notifyJoined | selfDelete | reclaim | reuse => rfl
  all_goals exact Function.update_of_ne (hNe rfl) _ _

theorem Step.tmp_other (hStep : Step port s act s') (hOther : some u ≠ act.task) :
    s'.hnd (.tmp u) = s.hnd (.tmp u) := by
  have hNe : ∀ {t}, act.task = some t → (Loc.tmp u : Loc Addr) ≠ .tmp t := fun hTask hEq =>
    Act.ne_of_task hOther hTask (Loc.tmp.inj hEq)
  cases hStep
  case callJoin | callDetach => exact Function.update_of_ne (hNe rfl) _ _
  case resetShared | resetGone | resetAstray | resetFound | resetSelf =>
    exact St.move_of_ne (by simp) (hNe rfl)
  case swapNow t a b leg hRuns hOp hShared =>
    obtain ⟨hDst, hSrc⟩ := leg.ne_dst (hNe rfl) (a := a) (b := b) (by simp) (by simp)
    exact St.move_of_ne hDst hSrc
  case swapMove t a b leg hRuns hOp =>
    obtain ⟨hDst, hSrc⟩ := leg.ne_dst (hNe rfl) (a := a) (b := b) (by simp) (by simp)
    exact St.move_of_ne hDst hSrc
  all_goals rfl

theorem Step.obj_other (hHeld : Held s) (hStep : Step port s act s') (hOther : some u ≠ act.task)
    {c : Addr} (hBusy : s.busy c = some u) :
    s'.hnd (.obj c) = s.hnd (.obj c) ∧ s'.busy c = some u := by
  have hFree : ∀ {a}, s.busy a = none → c ≠ a := by
    rintro a hNone rfl
    rw [hBusy] at hNone
    cases hNone
  have hUsed : ∀ {t a op}, act.task = some t → s.op t = op → op.uses a → c ≠ a := by
    rintro t a op hTask rfl hUses rfl
    rw [hHeld t c hUses] at hBusy
    exact hOther (hBusy ▸ hTask.symm)
  have hReset : ∀ {t a}, act.task = some t → s.op t = .joinReset a ∨ s.op t = .detachReset a → c ≠ a :=
    fun hTask hOp => hOp.elim (fun hOp => hUsed hTask hOp rfl) fun hOp => hUsed hTask hOp rfl
  have hTaken : ∀ {a o}, c ≠ a → Function.update s.busy a o c = some u := fun hNe =>
    (Function.update_of_ne hNe _ _).trans hBusy
  have hMoved : ∀ {t a}, c ≠ a → (s.move (.obj a) (.tmp t)).hnd (.obj c) = s.hnd (.obj c) := fun hNe =>
    St.move_of_ne (fun hEq => hNe (Loc.obj.inj hEq)) (by simp)
  have hLeg : ∀ {t a b leg stage}, act.task = some t → s.op t = .swap a b leg stage →
      (s.move (leg.dst t a b) (leg.src t a b)).hnd (.obj c) = s.hnd (.obj c) ∧
        (if leg = .restore ∧ (c = a ∨ c = b) then none else s.busy c) = some u := by
    intro t a b leg stage hTask hOp
    have hFirst := hUsed hTask hOp (.inl rfl)
    have hSecond := hUsed hTask hOp (.inr rfl)
    obtain ⟨hDst, hSrc⟩ := leg.ne_dst (t := t) (l := Loc.obj c) (by simp)
      (fun hEq => hFirst (Loc.obj.inj hEq)) fun hEq => hSecond (Loc.obj.inj hEq)
    exact ⟨St.move_of_ne hDst hSrc, by simp [hFirst, hSecond, hBusy]⟩
  cases hStep
  case construct t a prio hCalls hIdle hNull =>
    exact ⟨update_obj_of_ne (hFree hIdle), hTaken (hFree hIdle)⟩
  case create t h a k prio hRuns hOp hIdle => exact ⟨update_obj_of_ne (hUsed rfl hOp rfl), hBusy⟩
  case callJoin t a hCalls hIdle hJoinable | callDetach t a hCalls hIdle hJoinable =>
    exact ⟨rfl, hTaken (hFree hIdle)⟩
  case callSwap t a b hCalls hFirst hSecond hAct =>
    exact ⟨rfl, by simp [hFree hFirst, hFree hSecond, hBusy]⟩
  case storeTls t a k hRuns hOp => exact ⟨update_obj_of_ne (hUsed rfl hOp rfl), hBusy⟩
  case release t a k err hRuns hOp => exact ⟨rfl, hTaken (hUsed rfl hOp rfl)⟩
  case detachFound t a h j hRuns hOp hFound => exact ⟨update_obj_of_ne (hUsed rfl hOp rfl), hBusy⟩
  case detachAstray t a hRuns hOp hAstray => exact ⟨update_obj_of_ne (hUsed rfl hOp rfl), hBusy⟩
  case resetShared t a hRuns hOp hShared => exact ⟨hMoved (hReset rfl hOp), hTaken (hReset rfl hOp)⟩
  case resetGone t a hRuns hOp hOwner hState | resetAstray t a hRuns hOp hOwner hState =>
    exact ⟨hMoved (hReset rfl hOp), hTaken (hReset rfl hOp)⟩
  case resetFound t a h j hRuns hOp hOwner hFound hNe =>
    exact ⟨hMoved (hReset rfl hOp), hTaken (hReset rfl hOp)⟩
  case resetSelf t a h hPort hRuns hOp hOwner hFound =>
    exact ⟨hMoved (hReset rfl hOp), hTaken (hReset rfl hOp)⟩
  case swapSame t a b leg hRuns hOp hCopy hSame => exact ⟨rfl, (hLeg rfl hOp).2⟩
  case swapNow t a b leg hRuns hOp hShared => exact hLeg rfl hOp
  case swapMove t a b leg hRuns hOp => exact hLeg rfl hOp
  all_goals exact ⟨rfl, hBusy⟩

/-- The statements that can follow a statement of an operation of the task. -/
inductive Op.Follows (port : Port) (s : St Handle Addr) (act : Act Handle Addr) (s' : St Handle Addr)
    (u : Nat) : Op Addr → Op Addr → Prop where
  | construct (a : Addr) (k prio : Nat) (hAct : act = .construct u a prio) :
      Follows port s act s' u .idle (.create a k prio)
  | create (h : Handle) (a : Addr) (k prio : Nat) (hAct : act = .create u h)
      (hState : s' = s.xTaskCreate port u h a k prio) :
      Follows port s act s' u (.create a k prio) (.storeTls a k)
  | storeTls (a : Addr) (k : Nat) (hState : s' = (s.storeTls a).setOp u (.release a k 0)) :
      Follows port s act s' u (.storeTls a k) (.release a k 0)
  | release (a : Addr) (k err : Nat) : Follows port s act s' u (.release a k err) .idle
  | join (a : Addr) : Follows port s act s' u .idle (.joinWait a)
  | joinWait (a : Addr) : Follows port s act s' u (.joinWait a) (.joinReset a)
  | joinReset (a : Addr) : Follows port s act s' u (.joinReset a) .idle
  | detach (a : Addr) : Follows port s act s' u .idle (.detachWait a)
  | detachWait (a : Addr) : Follows port s act s' u (.detachWait a) (.detachCrit a)
  | detachCrit (a : Addr) : Follows port s act s' u (.detachCrit a) (.detachReset a)
  | detachReset (a : Addr) : Follows port s act s' u (.detachReset a) .idle
  | swap (a b : Addr) : Follows port s act s' u .idle (.swap a b .save .check)
  | leg (a b : Addr) (leg leg' : Leg) (stage stage' : Stage) :
      Follows port s act s' u (.swap a b leg stage) (.swap a b leg' stage')
  | restore (a b : Addr) (stage : Stage) : Follows port s act s' u (.swap a b .restore stage) .idle

theorem Leg.follows (a b : Addr) (leg : Leg) (stage : Stage) :
    Op.Follows port s act s' u (.swap a b leg stage) (leg.after a b) := by
  cases leg with
  | save => exact .leg a b .save .copy stage .check
  | copy => exact .leg a b .copy .restore stage .check
  | restore => exact .restore a b stage

theorem Step.follows (hStep : Step port s act s') (hTask : act.task = some u) :
    s'.op u = s.op u ∨ Op.Follows port s act s' u (s.op u) (s'.op u) := by
  have hOf : ∀ {before after : Op Addr}, s.op u = before → s'.op u = after →
      Op.Follows port s act s' u before after →
      s'.op u = s.op u ∨ Op.Follows port s act s' u (s.op u) (s'.op u) := by
    rintro before after rfl rfl hFollows
    exact .inr hFollows
  have hReset : ∀ {a}, s.op u = .joinReset a ∨ s.op u = .detachReset a → s'.op u = .idle →
      s'.op u = s.op u ∨ Op.Follows port s act s' u (s.op u) (s'.op u) := by
    intro a hOp hIdle
    rcases hOp with hOp | hOp
    · exact hOf hOp hIdle (.joinReset a)
    · exact hOf hOp hIdle (.detachReset a)
  have hOwn {op : Op Addr} : Function.update s.op u op u = op := Function.update_self _ _ _
  cases hStep
  case construct t a prio hCalls hBusy hNull =>
    cases hTask
    exact hOf hCalls.idle hOwn (.construct a s.next prio rfl)
  case create t h a k prio hRuns hOp hFree =>
    cases hTask
    exact hOf hOp hOwn (.create h a k prio rfl rfl)
  case callJoin t a hCalls hBusy hJoinable =>
    cases hTask
    exact hOf hCalls.idle hOwn (.join a)
  case callDetach t a hCalls hBusy hJoinable =>
    cases hTask
    exact hOf hCalls.idle hOwn (.detach a)
  case callSwap t a b hCalls hFirst hSecond hAct =>
    obtain rfl : t = u := by rcases hAct with rfl | rfl <;> simpa using hTask
    exact hOf hCalls.idle hOwn (.swap a b)
  case storeTls t a k hRuns hOp =>
    cases hTask
    exact hOf hOp hOwn (.storeTls a k rfl)
  case release t a k err hRuns hOp =>
    cases hTask
    exact hOf hOp hOwn (.release a k err)
  case joinWait t a e hRuns hOp hEv hJoin hStarted =>
    cases hTask
    exact hOf hOp hOwn (.joinWait a)
  case detachWait t a e hRuns hOp hEv hStarted =>
    cases hTask
    exact hOf hOp hOwn (.detachWait a)
  case detachFound t a h j hRuns hOp hFound =>
    cases hTask
    exact hOf hOp hOwn (.detachCrit a)
  case detachGone t a hRuns hOp hState | detachAstray t a hRuns hOp hState =>
    cases hTask
    exact hOf hOp hOwn (.detachCrit a)
  case resetShared t a hRuns hOp hShared =>
    cases hTask
    exact hReset hOp hOwn
  case resetGone t a hRuns hOp hOwner hState | resetAstray t a hRuns hOp hOwner hState =>
    cases hTask
    exact hReset hOp hOwn
  case resetFound t a h j hRuns hOp hOwner hFound hNe =>
    cases hTask
    exact hReset hOp hOwn
  case resetSelf t a h hPort hRuns hOp hOwner hFound =>
    cases hTask
    exact hReset hOp hOwn
  case swapSame t a b leg hRuns hOp hLeg hSame | swapNow t a b leg hRuns hOp hShared =>
    cases hTask
    exact hOf hOp hOwn (leg.follows a b .check)
  case swapMove t a b leg hRuns hOp =>
    cases hTask
    exact hOf hOp hOwn (leg.follows a b .move)
  case swapBegin t a b leg hRuns hOp hOwner =>
    cases hTask
    exact hOf hOp hOwn (.leg a b leg leg .check .wait)
  case swapWait t a b leg e hRuns hOp hEv hStarted =>
    cases hTask
    exact hOf hOp hOwn (.leg a b leg leg .wait .move)
  all_goals exact .inl rfl

theorem Step.task_of_leave (hStep : Step port s act s') (hLeft : s'.op u ≠ s.op u) :
    act.task = some u := by
  by_contra hOther
  exact hLeft (hStep.op_other (Ne.symm hOther))

/-- Once its slot is due, a task leaves `create_thread` by filling it. -/
theorem Step.stored_of_leave (hStep : Step port s act s') {a : Addr} {k : Nat}
    (hOp : s.op u = .storeTls a k) (hLeft : s'.op u ≠ .storeTls a k) :
    s' = (s.storeTls a).setOp u (.release a k 0) := by
  obtain hSame | hFollows := hStep.follows (hStep.task_of_leave (hOp ▸ hLeft))
  · exact absurd (hSame.trans hOp) hLeft
  · rw [hOp] at hFollows
    generalize s'.op u = after at hFollows
    cases hFollows with
    | storeTls a k hState => exact hState

theorem Step.created_of_enter (hStep : Step port s act s') {a : Addr} {k prio : Nat}
    (hOp : s.op u = .create a k prio) (hEntered : s'.op u = .storeTls a k) :
    ∃ h, act = .create u h ∧ s' = s.xTaskCreate port u h a k prio := by
  have hLeft : s'.op u ≠ s.op u := by simp [hOp, hEntered]
  obtain hSame | hFollows := hStep.follows (hStep.task_of_leave hLeft)
  · exact absurd hSame hLeft
  · rw [hOp] at hFollows
    generalize s'.op u = after at hFollows
    cases hFollows with
    | create h a k prio hAct hState => exact ⟨h, hAct, hState⟩

/-- The critical section of `create_thread` changes hands in `create_thread` only. -/
theorem Step.crit_cases (hStep : Step port s act s') : s'.crit = s.crit ∨ ∃ t, Runs s t ∧
    ((∃ a k prio, s.op t = .create a k prio) ∨ ∃ a k, s.op t = .storeTls a k ∧ s'.op t = .release a k 0) := by
  cases hStep
  case create t h a k prio hRuns hOp hFree => exact .inr ⟨t, hRuns, .inl ⟨a, k, prio, hOp⟩⟩
  case storeTls t a k hRuns hOp =>
    exact .inr ⟨t, hRuns, .inr ⟨a, k, hOp, Function.update_self _ _ _⟩⟩
  all_goals exact .inl rfl

theorem Step.eStartedEv_mono (hStep : Step port s act s') {e : Nat} (h : s.eStartedEv e = true) :
    s'.eStartedEv e = true := by
  cases hStep <;> simp [h]

theorem Step.eJoinEv_mono (hStep : Step port s act s') {e : Nat} (h : s.eJoinEv e = true) :
    s'.eJoinEv e = true := by
  cases hStep <;> simp [h]

/-- A group is deleted by the end of a join or detach, or in the critical section
of `detach`, through an object of the task that takes the step. -/
theorem Step.deletes_cases (hStep : Step port s act s') (e : Nat) :
    s'.deletes e = s.deletes e ∨ ∃ t a, act = .step t ∧
      (s.op t = .detachCrit a ∨ (s.op t = .joinReset a ∨ s.op t = .detachReset a) ∧
        (s.hnd (.obj a)).fOwner = true) ∧ (s.hnd (.obj a)).evHandle = some e ∧ s'.deletes e = s.deletes e + 1 := by
  cases hStep
  case detachFound t a h j hRuns hOp hFound =>
    by_cases hEv : (s.hnd (.obj a)).evHandle = some e
    · exact .inr ⟨t, a, rfl, .inl hOp, hEv, by simp [hEv]⟩
    · exact .inl (by simp [hEv])
  case detachAstray t a hRuns hOp hAstray =>
    by_cases hEv : (s.hnd (.obj a)).evHandle = some e
    · exact .inr ⟨t, a, rfl, .inl hOp, hEv, by simp [hEv]⟩
    · exact .inl (by simp [hEv])
  case resetGone t a hRuns hOp hOwner hState | resetAstray t a hRuns hOp hOwner hState =>
    by_cases hEv : (s.hnd (.obj a)).evHandle = some e
    · exact .inr ⟨t, a, rfl, .inr ⟨hOp, hOwner⟩, hEv, by simp [hEv]⟩
    · exact .inl (by simp [hEv])
  case resetFound t a h j hRuns hOp hOwner hFound hNe =>
    by_cases hEv : (s.hnd (.obj a)).evHandle = some e
    · exact .inr ⟨t, a, rfl, .inr ⟨hOp, hOwner⟩, hEv, by simp [hEv]⟩
    · exact .inl (by simp [hEv])
  case resetSelf t a h hPort hRuns hOp hOwner hFound =>
    by_cases hEv : (s.hnd (.obj a)).evHandle = some e
    · exact .inr ⟨t, a, rfl, .inr ⟨hOp, hOwner⟩, hEv, by simp [hEv]⟩
    · exact .inl (by simp [hEv])
  all_goals exact .inl (by simp)

/-- The statements of `__execute_native_thread_routine` in their order. -/
inductive Phase.Follows : Phase → Phase → Prop where
  | copy : Follows .entry .copied
  | notifyStarted : Follows .copied .started
  | run : Follows .started .running
  | return : Follows .running .returned
  | destroy : Follows .returned .destroyed
  | keyStart : Follows .destroyed .keyDtor
  | keySkip : Follows .destroyed .keyed
  | keyDone : Follows .keyDtor .keyed
  | notifyJoined : Follows .keyed .exited

theorem Phase.Follows.ends {before after : Phase} (h : before.Follows after) :
    before ≠ .user ∧ before ≠ .exited ∧ after ≠ .entry := by
  cases h <;> simp

/-- A task moves on in its own body only. -/
theorem Step.phase_cases (hStep : Step port s act s') (k : Nat) : s'.phase k = s.phase k ∨
    act = .step k ∧ s.life k = .alive ∧ (s.phase k).Follows (s'.phase k) := by
  have hMoves : ∀ {j : Nat} {before after : Phase}, act = .step j → Runs s j → s.phase j = before →
      s'.phase = Function.update s.phase j after → before.Follows after →
      s'.phase k = s.phase k ∨ act = .step k ∧ s.life k = .alive ∧ (s.phase k).Follows (s'.phase k) := by
    rintro j before after hAct hRuns rfl hPhase hFollows
    by_cases hSelf : k = j
    · rw [hPhase, hSelf, Function.update_self]
      exact .inr ⟨hAct, hRuns.live, hFollows⟩
    · rw [hPhase, Function.update_of_ne hSelf]
      exact .inl rfl
  cases hStep
  case copy j hRuns hOp hPhase => exact hMoves rfl hRuns hPhase rfl .copy
  case notifyStarted j hRuns hOp hPhase => exact hMoves rfl hRuns hPhase rfl .notifyStarted
  case run j hRuns hOp hPhase => exact hMoves rfl hRuns hPhase rfl .run
  case «return» j hRuns hOp hPhase => exact hMoves rfl hRuns hPhase rfl .return
  case destroy j hRuns hOp hPhase => exact hMoves rfl hRuns hPhase rfl .destroy
  case keyStart j hRuns hOp hPhase hKey => exact hMoves rfl hRuns hPhase rfl .keyStart
  case keySkip j hRuns hOp hPhase hKey => exact hMoves rfl hRuns hPhase rfl .keySkip
  case keyDone j hRuns hOp hPhase => exact hMoves rfl hRuns hPhase rfl .keyDone
  case notifyJoined j hRuns hOp hPhase => exact hMoves rfl hRuns hPhase rfl .notifyJoined
  all_goals exact .inl rfl

/-- No task comes back to its first statement. -/
theorem Step.entry_before (hStep : Step port s act s') {k : Nat} (hEntry : s'.phase k = .entry) :
    s.phase k = .entry := by
  obtain hSame | ⟨-, -, hFollows⟩ := hStep.phase_cases k
  · exact hSame ▸ hEntry
  · exact absurd hEntry hFollows.ends.2.2

theorem Step.exited_stays (hStep : Step port s act s') {k : Nat} (hExited : s.phase k = .exited) :
    s'.phase k = .exited := by
  obtain hSame | ⟨-, -, hFollows⟩ := hStep.phase_cases k
  · exact hSame.trans hExited
  · exact absurd hExited hFollows.ends.2.1

theorem Step.user_stays (hStep : Step port s act s') {k : Nat} (hUser : s.phase k = .user) :
    s'.phase k = .user := by
  obtain hSame | ⟨-, -, hFollows⟩ := hStep.phase_cases k
  · exact hSame.trans hUser
  · exact absurd hUser hFollows.ends.1

/-- The TCBs are allocated at the addresses of the tasks that have one. -/
structure Kernel (s : St Handle Addr) : Prop where
  occupies : ∀ h j, s.occupant h = some j → s.handle j = some h ∧
    (s.life j = .alive ∨ s.life j = .deleted)
  found : ∀ h j, s.handle j = some h → (s.life j = .alive ∨ s.life j = .deleted) →
    s.occupant h = some j
  unborn : ∀ k, s.life k = .unborn → s.handle k = none ∧ s.phase k = .entry

/-- What a step does to the tasks and their TCBs. -/
inductive TaskChange (s : St Handle Addr) (act : Act Handle Addr) (s' : St Handle Addr) : Prop where
  | same (hLife : s'.life = s.life) (hHandle : s'.handle = s.handle)
      (hOccupant : s'.occupant = s.occupant)
  | create (t : Nat) (h : Handle) (a : Addr) (k prio : Nat) (hAct : act = .create t h)
      (hOp : s.op t = .create a k prio) (hFree : s.occupant h = none)
      (hLife : s'.life = Function.update s.life k .alive)
      (hHandle : s'.handle = Function.update s.handle k (some h))
      (hOccupant : s'.occupant = Function.update s.occupant h (some k))
  | finish (t : Nat) (hAct : act = .step t) (hAlive : s.life t = .alive)
      (hLife : s'.life = Function.update s.life t .deleted) (hHandle : s'.handle = s.handle)
      (hOccupant : s'.occupant = s.occupant)
  | free (j : Nat) (hHad : s.life j = .alive ∨ s.life j = .deleted)
      (hLife : s'.life = Function.update s.life j .reclaimed) (hHandle : s'.handle = s.handle)
      (hOccupant : ∀ h, s'.occupant h = if s.handle j = some h then none else s.occupant h)

theorem Step.taskChange (hKernel : Kernel s) (hStep : Step port s act s') : TaskChange s act s' := by
  cases hStep
  case create t h a k prio hRuns hOp hFree =>
    exact .create t h a k prio rfl hOp hFree rfl rfl rfl
  case resetFound t a h j hRuns hOp hOwner hFound hNe =>
    obtain ⟨hHandle, hHad⟩ := hKernel.occupies h j hFound.occupant
    exact .free j hHad (by simp) (by simp) (by simp [hHandle])
  case resetSelf t a h hPort hRuns hOp hOwner hFound =>
    exact .finish t rfl hRuns.live (by simp) (by simp) (by simp)
  case resetStuck t a h hPort hRuns hOp hOwner hFound => exact .finish t rfl hRuns.live rfl rfl rfl
  case selfDelete k hRuns hOp hPhase => exact .finish k rfl hRuns.live rfl rfl rfl
  case reclaim j hLife hCrit => exact .free j (.inr hLife) rfl rfl (fun h => rfl)
  all_goals exact .same (by simp) (by simp) (by simp)

/-- A task that was created is never unborn again. -/
theorem TaskChange.born (hChange : TaskChange s act s') {k : Nat} (hBorn : s.life k ≠ .unborn) :
    s'.life k ≠ .unborn := by
  cases hChange with
  | same hLife => rwa [hLife]
  | create t h a j prio hAct hOp hFree hLife | finish j hAct hAlive hLife | free j hHad hLife =>
      rw [hLife, Function.update_apply]
      split
      · simp
      · exact hBorn

/-- A task is born to `xTaskCreate` of its own construction only. -/
theorem TaskChange.unborn (hChange : TaskChange s act s') {k : Nat} (hUnborn : s.life k = .unborn) :
    s'.life k = .unborn ∨ s'.life k = .alive ∧
      ∃ t h a prio, act = .create t h ∧ s.op t = .create a k prio := by
  cases hChange with
  | same hLife => exact .inl (hLife ▸ hUnborn)
  | create t h a j prio hAct hOp hFree hLife =>
      rw [hLife]
      by_cases hNew : k = j
      · subst hNew
        exact .inr ⟨Function.update_self _ _ _, t, h, a, prio, hAct, hOp⟩
      · exact .inl ((Function.update_of_ne hNew _ _).trans hUnborn)
  | finish j hAct hAlive hLife =>
      have hNe : k ≠ j := by
        rintro rfl
        simp [hUnborn] at hAlive
      exact .inl (by rw [hLife, Function.update_of_ne hNe, hUnborn])
  | free j hHad hLife =>
      have hNe : k ≠ j := by
        rintro rfl
        simp [hUnborn] at hHad
      exact .inl (by rw [hLife, Function.update_of_ne hNe, hUnborn])

theorem TaskChange.occupies (hChange : TaskChange s act s') (hKernel : Kernel s)
    (hMaking : ∀ t a k prio, s.op t = .create a k prio → s.life k = .unborn) {h : Handle} {j : Nat}
    (hOcc : s'.occupant h = some j) :
    s'.handle j = some h ∧ (s'.life j = .alive ∨ s'.life j = .deleted) := by
  cases hChange with
  | same hLife hHandle hOccupant =>
      rw [hLife, hHandle]
      exact hKernel.occupies h j (hOccupant ▸ hOcc)
  | create t h' a k prio hAct hOp hFree hLife hHandle hOccupant =>
      rw [hOccupant] at hOcc
      rw [hLife, hHandle]
      by_cases hHere : h = h'
      · subst hHere
        obtain rfl : k = j := by simpa using hOcc
        simp
      · rw [Function.update_of_ne hHere] at hOcc
        obtain ⟨hOld, hHad⟩ := hKernel.occupies h j hOcc
        have hNe : j ≠ k := by
          rintro rfl
          simp [hMaking t a j prio hOp] at hHad
        rw [Function.update_of_ne hNe, Function.update_of_ne hNe]
        exact ⟨hOld, hHad⟩
  | finish t hAct hAlive hLife hHandle hOccupant =>
      obtain ⟨hOld, hHad⟩ := hKernel.occupies h j (hOccupant ▸ hOcc)
      refine ⟨hHandle ▸ hOld, ?_⟩
      rw [hLife]
      by_cases hHere : j = t
      · simp [hHere]
      · rwa [Function.update_of_ne hHere]
  | free i hHad hLife hHandle hOccupant =>
      rw [hOccupant, Option.ite_none_left_eq_some] at hOcc
      obtain ⟨hOld, hHas⟩ := hKernel.occupies h j hOcc.2
      have hNe : j ≠ i := by
        rintro rfl
        exact hOcc.1 hOld
      rw [hLife, hHandle, Function.update_of_ne hNe]
      exact ⟨hOld, hHas⟩

theorem TaskChange.found (hChange : TaskChange s act s') (hKernel : Kernel s) {h : Handle} {j : Nat}
    (hMade : s'.handle j = some h) (hHas : s'.life j = .alive ∨ s'.life j = .deleted) :
    s'.occupant h = some j := by
  cases hChange with
  | same hLife hHandle hOccupant =>
      rw [hOccupant]
      exact hKernel.found h j (hHandle ▸ hMade) (hLife ▸ hHas)
  | create t h' a k prio hAct hOp hFree hLife hHandle hOccupant =>
      rw [hOccupant]
      rw [hHandle] at hMade
      rw [hLife] at hHas
      by_cases hNew : j = k
      · subst hNew
        obtain rfl : h' = h := by simpa using hMade
        exact Function.update_self _ _ _
      · rw [Function.update_of_ne hNew] at hMade hHas
        have hOld := hKernel.found h j hMade hHas
        have hNe : h ≠ h' := by
          rintro rfl
          cases hOld.symm.trans hFree
        rw [Function.update_of_ne hNe, hOld]
  | finish t hAct hAlive hLife hHandle hOccupant =>
      rw [hOccupant]
      rw [hLife] at hHas
      refine hKernel.found h j (hHandle ▸ hMade) ?_
      by_cases hHere : j = t
      · exact .inl (hHere ▸ hAlive)
      · rwa [Function.update_of_ne hHere] at hHas
  | free i hHad hLife hHandle hOccupant =>
      rw [hLife] at hHas
      rw [hHandle] at hMade
      have hNe : j ≠ i := by
        rintro rfl
        simp at hHas
      rw [Function.update_of_ne hNe] at hHas
      have hOld := hKernel.found h j hMade hHas
      have hOther : s.handle i ≠ some h := fun hSame =>
        hNe (Option.some.inj (hOld.symm.trans (hKernel.found h i hSame hHad)))
      rw [hOccupant, if_neg hOther, hOld]

/-- What is recorded of a task is recorded when `xTaskCreate` makes it. -/
theorem TaskChange.handle_of_unborn (hChange : TaskChange s act s') {k : Nat}
    (hUnborn : s'.life k = .unborn) : s'.handle k = s.handle k := by
  cases hChange with
  | same hLife hHandle | finish t hAct hAlive hLife hHandle | free j hHad hLife hHandle =>
      rw [hHandle]
  | create t h a j prio hAct hOp hFree hLife hHandle =>
      have hNe : k ≠ j := by
        rintro rfl
        simp [hLife] at hUnborn
      rw [hHandle, Function.update_of_ne hNe]

theorem Kernel.step (hKernel : Kernel s) (hStep : Step port s act s')
    (hMaking : ∀ t a k prio, s.op t = .create a k prio → s.life k = .unborn) : Kernel s' := by
  have hChange := hStep.taskChange hKernel
  refine ⟨fun h j => hChange.occupies hKernel hMaking, fun h j => hChange.found hKernel,
    fun k hUnborn => ?_⟩
  have hBefore : s.life k = .unborn := by
    by_contra hBorn
    exact hChange.born hBorn hUnborn
  obtain ⟨hNone, hEntry⟩ := hKernel.unborn k hBefore
  refine ⟨(hChange.handle_of_unborn hUnborn).trans hNone, ?_⟩
  obtain hSame | ⟨-, hAlive, -⟩ := hStep.phase_cases k
  · exact hSame.trans hEntry
  · cases hBefore.symm.trans hAlive

end Bystander

end FreeRtos.Thread
