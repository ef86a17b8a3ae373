import FreeRtosCpp11.Thread.Join

/-! When the join event of a finished thread is set: `create_thread` has filled
the slot before `notify_joined` reads it, and no join or detach of an older
object hits the thread. -/
namespace FreeRtos.Thread

set_option linter.unusedSectionVars false

open Transition

variable {Handle Addr : Type} [DecidableEq Handle] [DecidableEq Addr]

/-- `notify_joined` does not run while the creator is still before
`vTaskSetThreadLocalStoragePointer`. -/
def slotFilled (s : St Handle Addr) : Act Handle Addr → Bool
  | .step k => match s.op k, s.phase k, s.op (s.maker k) with
      | .idle, .keyed, .storeTls _ j => j != k
      | _, _, _ => true
  | _ => true

def joinKept (s : St Handle Addr) (act : Act Handle Addr) : Bool := findsOwn s act && slotFilled s act

/-- The call of detach on the object of the `k`-th construction. -/
def callsDetach (k : Nat) (s : St Handle Addr) : Act Handle Addr → Bool
  | .detach _ a => (s.hnd (.obj a)).evHandle == some k
  | _ => false

def Detached (trace : Trace (St Handle Addr) (Act Handle Addr)) (k : Nat) : Prop :=
  ∃ step ∈ trace, callsDetach k step.1 step.2 = true

instance (trace : Trace (St Handle Addr) (Act Handle Addr)) (k : Nat) : Decidable (Detached trace k) :=
  inferInstanceAs (Decidable (∃ step ∈ trace, callsDetach k step.1 step.2 = true))

/-- How the event group of a new thread is on its way to `notify_joined`. -/
inductive Route (trace : Trace (St Handle Addr) (Act Handle Addr)) (s : St Handle Addr) (k : Nat) :
    Prop where
  | unfilled (t : Nat) (a : Addr) (hOp : s.op t = .storeTls a k)
  | detached (hDetached : Detached trace k)
  | filled (hAlive : s.life k = .alive) (hPhase : s.phase k ≠ .exited) (hTls : s.tls k = some k)
  | joined (hExited : s.phase k = .exited) (hJoin : s.eJoinEv k = true)

/-- What holds in the runs that keep the join events. -/
structure Routed (trace : Trace (St Handle Addr) (Act Handle Addr)) (s : St Handle Addr) : Prop where
  sound : Sound s
  channels : Channels s
  pending : ∀ t a k, s.op t = .storeTls a k → s.life k = .alive ∧ s.phase k ≠ .exited
  inside : ∀ t a k, (s.op t).detaches = some a → (s.hnd (.obj a)).evHandle = some k → Detached trace k
  route : ∀ k, s.phase k ≠ .user → s.life k ≠ .unborn → Route trace s k

section Steps

variable {port : Port} {s s' : St Handle Addr} {act : Act Handle Addr}
  {trace : Trace (St Handle Addr) (Act Handle Addr)}

theorem Detached.snoc {k : Nat} (h : Detached trace k) (step : St Handle Addr × Act Handle Addr) :
    Detached (trace ++ [step]) k := by
  obtain ⟨old, hMem, hCall⟩ := h
  exact ⟨old, List.mem_append_left _ hMem, hCall⟩

theorem Routed.storesOwn (h : Routed trace s) : StoresOwn s act := by
  intro t a k j _ hOp hHit
  obtain ⟨-, hEv, -⟩ := h.sound.coherent.at hOp
  obtain ⟨hdl, hTask, hOcc⟩ := Option.bind_eq_some_iff.mp hHit
  have hHandle := (h.sound.coherent.objects.shape (.obj a) k hEv).1
  have hHere := h.sound.coherent.kernel.found hdl k (hHandle.symm.trans hTask)
    (.inl (h.pending t a k hOp).1)
  exact Option.some.inj (hOcc.symm.trans hHere)

/-- The last move of join or detach finds the object's own task. -/
theorem ev_of_findsOwn {t j : Nat} {a : Addr} {hdl : Handle}
    (hOp : s.op t = .joinReset a ∨ s.op t = .detachReset a) (hOwner : (s.hnd (.obj a)).fOwner = true)
    (hFound : Found s a hdl j) (hGuard : findsOwn s (.step t) = true) :
    (s.hnd (.obj a)).evHandle = some j := by
  rcases hOp with hOp | hOp <;>
    simpa [findsOwn, hOp, hOwner, hFound.eDeleted, hFound.bind] using hGuard

/-- A thread that has not ended is deleted only by the detach of its own object. -/
theorem Routed.dies (h : Routed trace s) (hStep : Step port s act s') (hGuard : findsOwn s act = true)
    {k : Nat} (hAlive : s.life k = .alive) (hPhase : s.phase k ≠ .exited) :
    s'.life k = .alive ∨ ∃ t a, s.op t = .detachReset a ∧ (s.hnd (.obj a)).evHandle = some k := by
  have hReset : ∀ {t a}, s.op t = .joinReset a ∨ s.op t = .detachReset a →
      (s.hnd (.obj a)).evHandle = some k →
      ∃ t a, s.op t = .detachReset a ∧ (s.hnd (.obj a)).evHandle = some k := by
    intro t a hOp hEv
    rcases hOp with hOp | hOp
    · -- the join has seen the join event, which only the end of the thread sets
      obtain ⟨-, e, hOwner, -, hJoin⟩ := h.sound.coherent.at hOp
      obtain rfl : k = e := Option.some.inj (hEv.symm.trans hOwner.ev)
      exact absurd (h.channels.ended k hJoin) hPhase
    · exact ⟨t, a, hOp, hEv⟩
  have hOther : ∀ {j : Nat} {l : Life}, k ≠ j → Function.update s.life j l k = .alive :=
    fun hNe => (Function.update_of_ne hNe _ _).trans hAlive
  cases hStep
  case create t hdl a j prio hRuns hOp hFree =>
    by_cases hNew : k = j
    · exact .inl (hNew ▸ Function.update_self _ _ _)
    · exact .inl (hOther hNew)
  case resetFound t a hdl j hRuns hOp hOwner hFound hNe =>
    by_cases hHere : k = j
    · exact .inr (hReset hOp (hHere ▸ ev_of_findsOwn hOp hOwner hFound hGuard))
    · exact .inl (hOther hHere)
  case resetSelf t a hdl hPort hRuns hOp hOwner hFound =>
    by_cases hHere : k = t
    · exact .inr (hReset hOp (hHere ▸ ev_of_findsOwn hOp hOwner hFound hGuard))
    · exact .inl (hOther hHere)
  case resetStuck t a hdl hPort hRuns hOp hOwner hFound =>
    by_cases hHere : k = t
    · exact .inr (hReset hOp (hHere ▸ ev_of_findsOwn hOp hOwner hFound hGuard))
    · exact .inl (hOther hHere)
  case selfDelete j hRuns hOp hExited =>
    refine .inl (hOther ?_)
    rintro rfl
    exact hPhase hExited
  case reclaim j hDeleted hCrit =>
    refine .inl (hOther ?_)
    rintro rfl
    simp [hAlive] at hDeleted
  all_goals exact .inl hAlive

/-- The slot of a live thread stays filled until the detach of its own object. -/
theorem Routed.empties (h : Routed trace s) (hStep : Step port s act s') (hGuard : findsOwn s act = true)
    {k : Nat} (hAlive : s.life k = .alive) (hTls : s.tls k = some k) :
    s'.tls k = some k ∨ ∃ t a, s.op t = .detachCrit a ∧ (s.hnd (.obj a)).evHandle = some k := by
  cases hStep
  case create t hdl a j prio hRuns hOp hFree =>
    have hNe : k ≠ j := by
      rintro rfl
      simp [h.sound.coherent.unborn hOp] at hAlive
    exact .inl ((Function.update_of_ne hNe _ _).trans hTls)
  case storeTls t a j hRuns hOp =>
    by_cases hHit : (s.hnd (.obj a)).taskHandle.bind s.occupant = some k
    · obtain rfl := h.storesOwn t a j k rfl hOp hHit
      obtain ⟨-, hEv, -⟩ := h.sound.coherent.at hOp
      exact .inl ((if_pos hHit).trans hEv)
    · exact .inl ((if_neg hHit).trans hTls)
  case detachFound t a hdl j hRuns hOp hFound =>
    by_cases hHere : k = j
    · subst hHere
      have hEv : (s.hnd (.obj a)).evHandle = some k := by
        simpa [findsOwn, hOp, hFound.eDeleted, hFound.bind, hTls] using hGuard
      exact .inr ⟨t, a, hOp, hEv⟩
    · exact .inl ((Function.update_of_ne hHere _ _).trans hTls)
  all_goals exact .inl hTls

/-- The only way to the end leads through `notify_joined`. -/
theorem Step.notifyJoined_of_exits (hStep : Step port s act s') {k : Nat}
    (hPhase : s.phase k ≠ .exited) (hExited : s'.phase k = .exited) :
    act = .step k ∧ Runs s k ∧ s.op k = .idle ∧ s.phase k = .keyed ∧ s' = s.notifyJoined k := by
  have hNot : ∀ {j : Nat} {phase : Phase}, phase ≠ .exited → Function.update s.phase j phase k ≠ .exited := by
    intro j phase hOther hUpdate
    rw [Function.update_apply] at hUpdate
    split at hUpdate
    · exact hOther hUpdate
    · exact hPhase hUpdate
  cases hStep
  case notifyJoined j hRuns hOp hKeyed =>
    have hSelf : k = j := by
      by_contra hNe
      exact hPhase ((Function.update_of_ne hNe _ _).symm.trans hExited)
    subst hSelf
    exact ⟨rfl, hRuns, hOp, hKeyed, rfl⟩
  case copy | notifyStarted | run | «return» | destroy | keyStart | keySkip | keyDone =>
    exact absurd hExited (hNot (by simp))
  all_goals exact absurd hExited hPhase

/-- While the slot of a thread is unfilled, its object is in the hands of its creator. -/
theorem Coherent.unfilled_apart (h : Coherent s) {t u k : Nat} {a b : Addr}
    (hOp : s.op t = .storeTls a k) (hLeaves : (s.op u).leaves = some b)
    (hEv : (s.hnd (.obj b)).evHandle = some k) : False := by
  obtain ⟨-, hNames, -⟩ := h.at hOp
  cases h.objects.unique (.obj b) (.obj a) k hEv hNames
  have hMine := h.held t a (by rw [hOp]; rfl)
  have hTheirs := h.held u a (Op.uses_of_leaves hLeaves)
  obtain rfl : u = t := Option.some.inj (hTheirs.symm.trans hMine)
  rw [hOp] at hLeaves
  cases hLeaves

theorem Routed.pending_step (h : Routed trace s) (hStep : Step port s act s')
    (hGuard : joinKept s act = true) {t k : Nat} {a : Addr} (hOp : s'.op t = .storeTls a k) :
    s'.life k = .alive ∧ s'.phase k ≠ .exited := by
  obtain ⟨hFinds, hSlot⟩ := Bool.and_eq_true_iff.mp hGuard
  have hAfter := h.sound.coherent.step hStep
  obtain hOld | ⟨prio, hMade⟩ := hStep.before_storeTls hOp
  · obtain ⟨hAlive, hPhase⟩ := h.pending t a k hOld
    constructor
    · obtain hLives | ⟨u, b, hDetach, hEv⟩ := h.dies hStep hFinds hAlive hPhase
      · exact hLives
      · exact (h.sound.coherent.unfilled_apart hOld (by rw [hDetach]; rfl) hEv).elim
    · intro hExited
      obtain ⟨rfl, -, hIdle, hKeyed, -⟩ := hStep.notifyJoined_of_exits hPhase hExited
      obtain ⟨-, -, -, -, -, hMaker⟩ := h.sound.coherent.at hOld
      simp [slotFilled, hIdle, hKeyed, hMaker, hOld] at hSlot
  · have hUnborn := h.sound.coherent.unborn hMade
    obtain ⟨-, -, -, hBorn, -⟩ := hAfter.at hOp
    refine ⟨h.sound.coherent.alive_of_born hStep hUnborn hBorn, fun hExited => ?_⟩
    have hEntry := (h.sound.coherent.kernel.unborn k hUnborn).2
    obtain ⟨-, hRuns, -⟩ := hStep.notifyJoined_of_exits (by simp [hEntry]) hExited
    cases hUnborn.symm.trans hRuns.live

theorem Op.leaves_of_detaches {op : Op Addr} {a : Addr} (h : op.detaches = some a) :
    op.leaves = some a := by
  cases op <;> simp_all [Op.detaches, Op.leaves]

theorem Routed.inside_step (h : Routed trace s) (hStep : Step port s act s') {t k : Nat} {a : Addr}
    (hDetaches : (s'.op t).detaches = some a) (hEv : (s'.hnd (.obj a)).evHandle = some k) :
    Detached (trace ++ [(s, act)]) k := by
  have hLeaves := Op.leaves_of_detaches hDetaches
  by_cases hOther : some t ≠ act.task
  · rw [hStep.op_other hOther] at hDetaches hLeaves
    have hBusy := h.sound.coherent.held t a (Op.uses_of_leaves hLeaves)
    rw [(hStep.obj_other h.sound.coherent.held hOther hBusy).1] at hEv
    exact (h.inside t a k hDetaches hEv).snoc _
  · obtain ⟨⟨-, hNot⟩ | hCall, hOwner⟩ | ⟨-, hKind, hNames⟩ :=
      h.sound.coherent.leaves_step hStep (not_not.mp hOther).symm hLeaves hEv
    · rw [hNot] at hDetaches
      cases hDetaches
    · exact ⟨(s, act), by simp, by simp [hCall, callsDetach, hOwner.ev]⟩
    · exact (h.inside t a k (hKind.trans hDetaches) hNames).snoc _

/-- A new thread starts on its route inside `create_thread`. -/
theorem Coherent.unfilled_of_born (h : Coherent s) (hStep : Step port s act s') {k : Nat}
    (hUnborn : s.life k = .unborn) (hBorn : s'.life k ≠ .unborn) : ∃ t a, s'.op t = .storeTls a k := by
  have hStep' := hStep
  cases hStep
  case create t hdl a j prio hRuns hOp hFree =>
    have hNew : k = j := by
      by_contra hNe
      exact hBorn ((Function.update_of_ne hNe _ _).trans hUnborn)
    exact ⟨t, a, hNew ▸ Function.update_self _ _ _⟩
  case terminate | throws | callSwap => exact absurd hUnborn hBorn
  all_goals exact absurd (h.unborn_stays hStep' (by simp) hUnborn) hBorn

theorem Routed.route_step (h : Routed trace s) (hStep : Step port s act s')
    (hGuard : joinKept s act = true) {k : Nat} (hNew : s'.phase k ≠ .user) (hBorn : s'.life k ≠ .unborn) :
    Route (trace ++ [(s, act)]) s' k := by
  have hFinds := (Bool.and_eq_true_iff.mp hGuard).1
  by_cases hUnborn : s.life k = .unborn
  · obtain ⟨t, a, hOp⟩ := h.sound.coherent.unfilled_of_born hStep hUnborn hBorn
    exact .unfilled t a hOp
  cases h.route k (mt hStep.user_stays hNew) hUnborn with
  | unfilled t a hOp =>
      by_cases hStays : s'.op t = .storeTls a k
      · exact .unfilled t a hStays
      · obtain ⟨hAlive, hPhase⟩ := h.pending t a k hOp
        obtain ⟨-, hEv, -⟩ := h.sound.coherent.at hOp
        obtain ⟨hdl, hHandle⟩ := Option.ne_none_iff_exists'.mp
          ((h.sound.body k).handle_ne_none (mt hStep.user_stays hNew) hUnborn)
        have hTask := (h.sound.coherent.objects.shape (.obj a) k hEv).1
        have hHere := h.sound.coherent.kernel.found hdl k hHandle (.inl hAlive)
        have hStored := hStep.stored_of_leave hOp hStays
        subst hStored
        refine .filled hAlive hPhase ?_
        simp [St.storeTls, St.setOp, hTask, hHandle, hHere, hEv]
  | detached hDetached => exact .detached (hDetached.snoc _)
  | filled hAlive hPhase hTls =>
      obtain hLives | ⟨t, a, hOp, hEv⟩ := h.dies hStep hFinds hAlive hPhase
      · obtain hHeld | ⟨t, a, hOp, hEv⟩ := h.empties hStep hFinds hAlive hTls
        · by_cases hExited : s'.phase k = .exited
          · obtain ⟨-, -, -, hKeyed, rfl⟩ := hStep.notifyJoined_of_exits hPhase hExited
            refine .joined hExited ?_
            simp [St.notifyJoined, h.sound.joinGroup hAlive hKeyed, hTls]
          · exact .filled hLives hExited hHeld
        · exact .detached ((h.inside t a k (by rw [hOp]; rfl) hEv).snoc _)
      · exact .detached ((h.inside t a k (by rw [hOp]; rfl) hEv).snoc _)
  | joined hExited hJoin => exact .joined (hStep.exited_stays hExited) (hStep.eJoinEv_mono hJoin)

theorem Routed.step (h : Routed trace s) (hGuard : joinKept s act = true)
    (hNext : next port s act = some s') : Routed (trace ++ [(s, act)]) s' := by
  have hStep := h.sound.coherent.step_of_next hNext
  exact ⟨h.sound.step hNext, h.channels.step h.sound hStep h.storesOwn,
    fun _ _ _ => h.pending_step hStep hGuard, fun _ _ _ => h.inside_step hStep,
    fun _ => h.route_step hStep hGuard⟩

theorem Routed.start (hStart : Start s) : Routed [] s where
  sound := .start hStart
  channels := .start hStart
  pending t a k hOp := by
    rw [hStart.op] at hOp
    cases hOp
  inside t a k hDetaches := by
    rw [hStart.op] at hDetaches
    cases hDetaches
  route k hNew hBorn := by
    rw [hStart.phase] at hNew
    rw [hStart.life] at hBorn
    split at hNew <;> simp_all

end Steps

section Runs

variable {port : Port} {s : St Handle Addr} {trace : Trace (St Handle Addr) (Act Handle Addr)}

/-- A finished thread that was never detached has its join event, and a join of it
does not block. -/
def JoinEventSet (port : Port) (trace : Trace (St Handle Addr) (Act Handle Addr))
    (s : St Handle Addr) : Prop :=
  ∀ k, s.phase k = .exited → ¬ Detached trace k → s.eJoinEv k = true ∧
    ∀ t a, s.op t = .joinWait a → (s.hnd (.obj a)).evHandle = some k → s.runnable t = true →
      (next port s (.step t)).isSome = true

theorem Routed.joinEventSet (h : Routed trace s) : JoinEventSet port trace s := by
  intro k hExited hNot
  have hBorn : s.life k ≠ .unborn := by
    intro hUnborn
    rw [(h.sound.coherent.kernel.unborn k hUnborn).2] at hExited
    cases hExited
  have hJoin : s.eJoinEv k = true := by
    cases h.route k (by simp [hExited]) hBorn with
    | unfilled t a hOp => exact absurd hExited (h.pending t a k hOp).2
    | detached hDetached => exact absurd hDetached hNot
    | filled hAlive hPhase hTls => exact absurd hExited hPhase
    | joined hExited hJoin => exact hJoin
  refine ⟨hJoin, fun t a hOp hEv hRun => ?_⟩
  have hStarted : s.eStartedEv k = true := by
    rw [(h.sound.body k).started, hExited]
    decide
  simp [next, hRun, hOp, St.advanceOp, hEv, hJoin, hStarted]

/-- In every run in which the slots are filled in time and no stale handle is used,
no join event is lost. -/
theorem joinEventSet_of_joinKept (hReaches : (system Handle Addr port).Reaches trace s)
    (hGuard : Guarded joinKept trace) : JoinEventSet port trace s := by
  obtain ⟨s₀, hStart, hRun⟩ := hReaches
  have hRouted := hRun.history hGuard (Routed.start hStart)
    fun _ _ _ _ h hHere hNext => h.step hHere hNext
  exact hRouted.joinEventSet

end Runs

section Priorities

variable {port : Port} {s s' : St Handle Addr} {act : Act Handle Addr}
  {trace : Trace (St Handle Addr) (Act Handle Addr)}

/-- `xTaskCreate` does not switch to the new task at once: the port pends the
switch, or the new task has no higher priority than its creator. -/
def heldBack (port : Port) (s : St Handle Addr) : Act Handle Addr → Bool
  | .create t _ => match s.op t with
      | .create _ _ prio => port = .deferred || prio ≤ s.priority t
      | _ => true
  | _ => true

/-- The critical section of `create_thread` lasts until the slot is filled. -/
def Protected (s : St Handle Addr) : Prop := ∀ t a k, s.op t = .storeTls a k → s.crit = some t

theorem Protected.step (hProtected : Protected s) (hStep : Step port s act s')
    (hGuard : heldBack port s act = true) : Protected s' := by
  intro t a k hOp
  obtain hOld | ⟨prio, hMade⟩ := hStep.before_storeTls hOp
  · have hCrit := hProtected t a k hOld
    obtain hSame | ⟨u, hRuns, hChange⟩ := hStep.crit_cases
    · exact hSame.trans hCrit
    · -- nobody else runs while the critical section is entered
      obtain rfl : t = u := by simpa [hCrit] using hRuns.crit
      obtain ⟨b, j, prio, hMake⟩ | ⟨b, j, -, hLeft⟩ := hChange
      · cases hOld.symm.trans hMake
      · cases hOp.symm.trans hLeft
  · obtain ⟨hdl, rfl, rfl⟩ := hStep.created_of_enter hMade hOp
    have hTurn : ¬ (port = .synchronous ∧ s.priority t < prio) := by
      rintro ⟨rfl, hLess⟩
      simp [heldBack, hMade] at hGuard
      omega
    exact if_neg hTurn

theorem Protected.slotFilled (hProtected : Protected s) (hNext : next port s act = some s') :
    slotFilled s act = true := by
  cases act with
  | step k =>
      have hRuns := runs_of_next hNext
      simp only [slotFilled]
      split
      · rename_i a j hIdle hKeyed hStore
        have hCrit := hProtected _ a j hStore
        obtain hSelf : s.maker k = k := by simpa [hCrit] using hRuns.crit
        rw [hSelf, hIdle] at hStore
        cases hStore
      · rfl
  | _ => rfl

/-- The slots are filled in time when no new thread preempts its creator. -/
theorem slotFilled_of_heldBack (hReaches : (system Handle Addr port).Reaches trace s)
    (hGuard : Guarded (heldBack port) trace) : Guarded slotFilled trace := by
  obtain ⟨s₀, hStart, hRun⟩ := hReaches
  refine hRun.guarded (P := fun u => Coherent u ∧ Protected u) hGuard ⟨.start hStart, ?_⟩ ?_ ?_
  · intro t a k hOp
    rw [hStart.op] at hOp
    cases hOp
  · rintro u b v ⟨hCoherent, hProtected⟩ hHere hNext
    have hStep := hCoherent.step_of_next hNext
    exact ⟨hCoherent.step hStep, hProtected.step hStep hHere⟩
  · rintro u b v ⟨-, hProtected⟩ _ hNext
    exact hProtected.slotFilled hNext

theorem joinEventSet_of_heldBack (hReaches : (system Handle Addr port).Reaches trace s)
    (hFinds : Guarded findsOwn trace) (hGuard : Guarded (heldBack port) trace) :
    JoinEventSet port trace s := by
  have hSlots := slotFilled_of_heldBack hReaches hGuard
  refine joinEventSet_of_joinKept hReaches fun step hMem => ?_
  simp [joinKept, hFinds step hMem, hSlots step hMem]

end Priorities

/-- The thread of object 0 has the higher priority and ends before task 0 fills
its slot; then task 0 joins it. -/
def lateSlot : List (Act Nat Nat) :=
  [.construct 0 0 2, .create 0 7] ++ List.replicate 8 (.step 1) ++ [.step 0, .step 0, .join 0 0]

/-- The join waits for an event that nobody will set. -/
theorem lateSlot_blocks :
    ¬ ∀ trace s, (system Nat Nat .synchronous).Reaches trace s → JoinEventSet .synchronous trace s := by
  intro hClaim
  have hRun : (system Nat Nat .synchronous).Reaches _ _ :=
    ⟨_, boot_start 1, System.run_of_exec lateSlot rfl⟩
  have hJoins := (hClaim _ _ hRun 1 rfl (by decide)).2 0 0 rfl rfl rfl
  exact absurd hJoins (by decide)

theorem joinEventSet_moveAndJoin :
    ∃ s, (system Nat Nat .deferred).exec (boot 1) moveAndJoin = some s ∧
      JoinEventSet .deferred ((system Nat Nat .deferred).replay (boot 1) moveAndJoin) s :=
  ⟨_, rfl, joinEventSet_of_joinKept ⟨_, boot_start 1, System.run_of_exec moveAndJoin rfl⟩
    (by decide)⟩

end FreeRtos.Thread
