import FreeRtosCpp11.Thread.Isolation

/-! The way of the join event: from the slot that `create_thread` fills, over
`notify_joined` of the task that finds its group there, to the join that waits. -/
namespace FreeRtos.Thread

set_option linter.unusedSectionVars false

open Transition

variable {Handle Addr : Type} [DecidableEq Handle] [DecidableEq Addr]

/-- The event group of a thread is in the slot of its own task only, and its join
event is set at the end of that task. -/
structure Channels (s : St Handle Addr) : Prop where
  own : ∀ j e, s.tls j = some e → j = e
  ended : ∀ e, s.eJoinEv e = true → s.phase e = .exited

/-- At the end of `create_thread` the kept handle leads to the new task, if to any. -/
def StoresOwn (s : St Handle Addr) (act : Act Handle Addr) : Prop :=
  ∀ t a k j, act = .step t → s.op t = .storeTls a k →
    (s.hnd (.obj a)).taskHandle.bind s.occupant = some j → j = k

section Steps

variable {port : Port} {s s' : St Handle Addr} {act : Act Handle Addr}

/-- Nothing fills a slot but the end of `create_thread`. -/
theorem Step.tls_cases (hStep : Step port s act s') {j e : Nat} (hTls : s'.tls j = some e) :
    s.tls j = some e ∨ ∃ t a k, act = .step t ∧ s.op t = .storeTls a k ∧
      (s.hnd (.obj a)).taskHandle.bind s.occupant = some j ∧ (s.hnd (.obj a)).evHandle = some e := by
  cases hStep
  case create t hdl a k prio hRuns hOp hFree =>
    by_cases hHere : j = k
    · rw [hHere] at hTls
      cases (Function.update_self _ _ _).symm.trans hTls
    · exact .inl ((Function.update_of_ne hHere _ _).symm.trans hTls)
  case storeTls t a k hRuns hOp =>
    by_cases hHit : (s.hnd (.obj a)).taskHandle.bind s.occupant = some j
    · exact .inr ⟨t, a, k, rfl, hOp, hHit, (if_pos hHit).symm.trans hTls⟩
    · exact .inl ((if_neg hHit).symm.trans hTls)
  case detachFound t a hdl i hRuns hOp hFound =>
    by_cases hHere : j = i
    · rw [hHere] at hTls
      cases (Function.update_self _ _ _).symm.trans hTls
    · exact .inl ((Function.update_of_ne hHere _ _).symm.trans hTls)
  all_goals exact .inl hTls

/-- `notify_joined` of a live task finds the group in the task's own slot. -/
theorem Sound.joinGroup (h : Sound s) {k : Nat} (hAlive : s.life k = .alive)
    (hPhase : s.phase k = .keyed) : s.joinGroup k = s.tls k := by
  obtain ⟨hCopy, hSome⟩ := (h.body k).copied (by rw [hPhase]; decide)
  obtain ⟨hdl, hHandle⟩ := Option.ne_none_iff_exists'.mp hSome
  simp [St.joinGroup, hCopy, hHandle, h.coherent.kernel.found hdl k hHandle (.inl hAlive)]

/-- A join event is set by `notify_joined` of the task in whose slot the group is. -/
theorem Sound.eJoinEv_cases (h : Sound s) (hStep : Step port s act s') {e : Nat}
    (hJoin : s'.eJoinEv e = true) :
    s.eJoinEv e = true ∨ ∃ k, s.tls k = some e ∧ s'.phase k = .exited := by
  cases hStep
  case notifyJoined k hRuns hOp hPhase =>
    simp only [St.notifyJoined, h.joinGroup hRuns.live hPhase, Bool.or_eq_true, beq_iff_eq] at hJoin
    rcases hJoin with hNow | hBefore
    · exact .inr ⟨k, hNow, Function.update_self _ _ _⟩
    · exact .inl hBefore
  all_goals exact .inl hJoin

theorem Channels.step (hChannels : Channels s) (h : Sound s) (hStep : Step port s act s')
    (hStores : StoresOwn s act) : Channels s' := by
  refine ⟨fun j e hTls => ?_, fun e hJoin => ?_⟩
  · obtain hOld | ⟨t, a, k, hAct, hOp, hHit, hEv⟩ := hStep.tls_cases hTls
    · exact hChannels.own j e hOld
    · obtain ⟨-, hNames, -⟩ := h.coherent.at hOp
      rw [hStores t a k j hAct hOp hHit]
      exact Option.some.inj (hNames.symm.trans hEv)
  · obtain hOld | ⟨k, hTls, hExited⟩ := h.eJoinEv_cases hStep hJoin
    · exact hStep.exited_stays (hChannels.ended e hOld)
    · exact hChannels.own k e hTls ▸ hExited

theorem Channels.start (hStart : Start s) : Channels s where
  own j e hTls := by
    rw [hStart.tls] at hTls
    cases hTls
  ended e hJoin := by
    rw [hStart.eJoinEv] at hJoin
    cases hJoin

end Steps

/-- All threads are created by one task. -/
def createdBy (creator : Nat) (_ : St Handle Addr) : Act Handle Addr → Bool
  | .construct t _ _ => t == creator
  | _ => true

/-- The statement of a construction. -/
def Op.makes : Op Addr → Bool
  | .create .. | .storeTls .. | .release .. => true
  | _ => false

/-- Only the creator is inside constructions, and until the new task's slot is
filled nobody else gets its handle. -/
structure OneCreator (creator : Nat) (s : St Handle Addr) : Prop where
  only : ∀ t, (s.op t).makes = true → t = creator
  kept : ∀ t a k h j, s.op t = .storeTls a k → s.handle k = some h → s.occupant h = some j → j = k

section Creator

variable {port : Port} {creator : Nat} {s s' : St Handle Addr} {act : Act Handle Addr}

/-- A task comes into a construction by its own call. -/
theorem Step.makes_step (hStep : Step port s act s') {t : Nat} (hMakes : (s'.op t).makes = true) :
    (s.op t).makes = true ∨ ∃ a prio, act = .construct t a prio := by
  by_cases hOther : some t ≠ act.task
  · rw [hStep.op_other hOther] at hMakes
    exact .inl hMakes
  · have hTask := (not_not.mp hOther).symm
    obtain hSame | hFollows := hStep.follows hTask
    · exact .inl (hSame ▸ hMakes)
    · generalize hBefore : s.op t = before at hFollows
      generalize hAfter : s'.op t = after at hFollows hMakes
      cases hFollows with
      | construct a k prio hAct => exact .inr ⟨a, prio, hAct⟩
      | create => exact .inl rfl
      | storeTls => exact .inl rfl
      | _ => cases hMakes

/-- The slot is filled by the task that just created the thread. -/
theorem Step.before_storeTls (hStep : Step port s act s') {t : Nat} {a : Addr} {k : Nat}
    (hOp : s'.op t = .storeTls a k) : s.op t = .storeTls a k ∨ ∃ prio, s.op t = .create a k prio := by
  by_cases hOther : some t ≠ act.task
  · exact .inl (hStep.op_other hOther ▸ hOp)
  · obtain hSame | hFollows := hStep.follows (not_not.mp hOther).symm
    · exact .inl (hSame ▸ hOp)
    · rw [hOp] at hFollows
      generalize hBefore : s.op t = before at hFollows
      cases hFollows with
      | create h a k prio => exact .inr ⟨prio, rfl⟩

/-- A new task is alive. -/
theorem Coherent.alive_of_born (h : Coherent s) (hStep : Step port s act s') {k : Nat}
    (hUnborn : s.life k = .unborn) (hBorn : s'.life k ≠ .unborn) : s'.life k = .alive := by
  obtain hStays | ⟨hAlive, -⟩ := (hStep.taskChange h.kernel).unborn hUnborn
  · exact absurd hStays hBorn
  · exact hAlive

theorem OneCreator.storesOwn (hOne : OneCreator creator s) (h : Sound s) : StoresOwn s act := by
  intro t a k j _ hOp hHit
  obtain ⟨-, hEv, -⟩ := h.coherent.at hOp
  obtain ⟨hdl, hTask, hOcc⟩ := Option.bind_eq_some_iff.mp hHit
  have hHandle := (h.coherent.objects.shape (.obj a) k hEv).1
  exact hOne.kept t a k hdl j hOp (hHandle.symm.trans hTask) hOcc

theorem OneCreator.step (hOne : OneCreator creator s) (h : Sound s) (hStep : Step port s act s')
    (hGuard : createdBy creator s act = true) : OneCreator creator s' := by
  have hAfter := h.coherent.step hStep
  refine ⟨fun t hMakes => ?_, fun t a k hdl j hOp hHandle hOcc => ?_⟩
  · obtain hOld | ⟨a, prio, rfl⟩ := hStep.makes_step hMakes
    · exact hOne.only t hOld
    · simpa [createdBy] using hGuard
  · obtain hOld | ⟨prio, hMade⟩ := hStep.before_storeTls hOp
    · obtain ⟨-, -, -, hBorn, -⟩ := h.coherent.at hOld
      rw [(h.coherent.recorded hStep hBorn).2.2] at hHandle
      cases hStep.taskChange h.coherent.kernel with
      | same hLife hSame hOccupant | finish u hAct hAlive hLife hSame hOccupant =>
          exact hOne.kept t a k hdl j hOld hHandle (hOccupant ▸ hOcc)
      | create u hdl' b i prio hAct hMake hFree hLife hSame hOccupant =>
          -- the other task would be the creator as well
          have hSelf : u = t :=
            (hOne.only u (by rw [hMake]; rfl)).trans (hOne.only t (by rw [hOld]; rfl)).symm
          rw [hSelf, hOld] at hMake
          cases hMake
      | free i hHad hLife hSame hOccupant =>
          rw [hOccupant] at hOcc
          split at hOcc
          · cases hOcc
          · exact hOne.kept t a k hdl j hOld hHandle hOcc
    · obtain ⟨-, -, -, hBorn, -⟩ := hAfter.at hOp
      have hAlive := h.coherent.alive_of_born hStep (h.coherent.unborn hMade) hBorn
      have hHere := hAfter.kernel.found hdl k hHandle (.inl hAlive)
      exact Option.some.inj (hOcc.symm.trans hHere)

theorem OneCreator.start (hStart : Start s) : OneCreator creator s where
  only t hMakes := by
    rw [hStart.op] at hMakes
    cases hMakes
  kept t a k h j hOp := by
    rw [hStart.op] at hOp
    cases hOp

variable {trace : Trace (St Handle Addr) (Act Handle Addr)}

/-- The thread has left its user function, destroyed its state and done the key
store's exit processing. -/
structure Ended (s : St Handle Addr) (k : Nat) : Prop where
  phase : s.phase k = .exited
  runs : s.runs k = [k]
  destroys : s.destroys k = [k]

/-- How far a join has come: it waits, or does its last move, and once it is back
the thread has ended. -/
def JoinAt (t : Nat) (a : Addr) (k : Nat) (s : St Handle Addr) : Prop :=
  (s.op t).leaves = some a ∧ (s.op t).detaches = none ∧ (s.hnd (.obj a)).evHandle = some k ∨
    s.op t = .idle ∧ Ended s k

theorem Sound.ended (h : Sound s) {k : Nat} (hExited : s.phase k = .exited) : Ended s k := by
  refine ⟨hExited, ?_, ?_⟩
  · rw [(h.body k).runs, hExited]
    rfl
  · rw [(h.body k).destroys, hExited]
    rfl

/-- The last move of a join comes after the end of its thread. -/
theorem JoinAt.step (h : Sound s) (hChannels : Channels s) (hNext : next port s act = some s')
    {t k : Nat} {a : Addr} (hAt : JoinAt t a k s) (hInside : s.op t ≠ .idle) : JoinAt t a k s' := by
  have hStep := h.coherent.step_of_next hNext
  obtain ⟨hLeaves, hJoins, hEv⟩ | ⟨hIdle, -⟩ := hAt
  · obtain ⟨hStays, hKind, hSame⟩ | ⟨-, hOp, hBack⟩ := h.coherent.leaves_forward hNext hLeaves
    · exact .inl ⟨hStays, hKind.trans hJoins, hSame.trans hEv⟩
    · have hReset : s.op t = .joinReset a := by
        refine hOp.resolve_right fun hDetach => ?_
        rw [hDetach] at hJoins
        cases hJoins
      obtain ⟨-, e, hOwner, -, hJoin⟩ := h.coherent.at hReset
      obtain rfl : k = e := Option.some.inj (hEv.symm.trans hOwner.ev)
      exact .inr ⟨hBack, (h.step hNext).ended (hStep.exited_stays (hChannels.ended k hJoin))⟩
  · exact absurd hIdle hInside

end Creator

/-- The run up to the return of the join. -/
def joined : List (Act Nat Nat) := moveAndJoin.dropLast

end FreeRtos.Thread
