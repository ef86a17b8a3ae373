import FreeRtosCpp11.Thread.HandOff

/-! Which tasks the join or detach of an object deletes, and whose thread-local
slots it clears, when the allocator gives the memory of a TCB to a later task or
to something that is no task. -/
namespace FreeRtos.Thread

set_option linter.unusedSectionVars false

open Transition

variable {Handle Addr : Type} [DecidableEq Handle] [DecidableEq Addr]

/-- The statement of join or detach touches no task but the one that its object
created, and takes no memory without a TCB for a task. -/
def Isolated (s : St Handle Addr) (act : Act Handle Addr) (s' : St Handle Addr) : Prop :=
  ∀ t a k, act = .step t → (s.op t).leaves = some a → (s.hnd (.obj a)).evHandle = some k →
    s'.stray = s.stray ∧ ∀ j, j ≠ k → s'.life j = s.life j ∧ s'.tls j = s.tls j

/-- Where join or detach acts on what `eTaskGetState` finds under the kept handle,
this is the object's own task; or, for the critical section of `detach`, a task
with an empty slot. -/
def findsOwn (s : St Handle Addr) : Act Handle Addr → Bool
  | .step t => match s.op t with
      | .detachCrit a => s.eDeleted (s.hnd (.obj a)).taskHandle ||
          ((s.hnd (.obj a)).taskHandle.bind s.occupant).any fun j =>
            (s.hnd (.obj a)).evHandle == some j || (s.tls j).isNone
      | .joinReset a | .detachReset a =>
          (s.hnd (.obj a)).fOwner = false || s.eDeleted (s.hnd (.obj a)).taskHandle ||
            ((s.hnd (.obj a)).taskHandle.bind s.occupant).any fun j =>
              (s.hnd (.obj a)).evHandle == some j
      | _ => true
  | _ => true

section Steps

variable {port : Port} {s s' : St Handle Addr} {act : Act Handle Addr}

theorem isolated_of_same (hStray : s'.stray = s.stray) (hLife : s'.life = s.life)
    (hTls : s'.tls = s.tls) : Isolated s act s' := by
  intro t a k _ _ _
  rw [hLife, hTls]
  exact ⟨hStray, fun _ _ => ⟨rfl, rfl⟩⟩

/-- A statement outside join and detach. -/
theorem isolated_of_outside {t : Nat} (hOp : (s.op t).leaves = none) : Isolated s (.step t) s' := by
  rintro u a k ⟨⟩ hLeaves
  rw [hOp] at hLeaves
  cases hLeaves

/-- A statement of join or detach that changes at most one task. -/
theorem isolated_iff_of_only {t j k : Nat} {a : Addr} (hLeaves : (s.op t).leaves = some a)
    (hEv : (s.hnd (.obj a)).evHandle = some k) (hStray : s'.stray = s.stray)
    (hOnly : ∀ i, i ≠ j → s'.life i = s.life i ∧ s'.tls i = s.tls i) :
    Isolated s (.step t) s' ↔ k = j ∨ s'.life j = s.life j ∧ s'.tls j = s.tls j := by
  constructor
  · intro hIsolated
    by_cases hOwn : k = j
    · exact .inl hOwn
    · exact .inr ((hIsolated t a k rfl hLeaves hEv).2 j (Ne.symm hOwn))
  · rintro hSafe u b e ⟨⟩ hSame hNames
    cases hLeaves.symm.trans hSame
    cases hEv.symm.trans hNames
    refine ⟨hStray, fun i hNe => ?_⟩
    by_cases hHere : i = j
    · subst hHere
      exact hSafe.resolve_left (Ne.symm hNe)
    · exact hOnly i hHere

/-- A statement of join or detach that takes other memory for a task. -/
theorem not_isolated_of_astray {t k : Nat} {a : Addr} (hLeaves : (s.op t).leaves = some a)
    (hEv : (s.hnd (.obj a)).evHandle = some k) (hStray : s'.stray = s.stray + 1) :
    ¬ Isolated s (.step t) s' := by
  intro hIsolated
  have hSame := (hIsolated t a k rfl hLeaves hEv).1
  omega

theorem findsOwn_of_call (hAct : ∀ t, act ≠ .step t) : findsOwn s act = true := by
  cases act with
  | step t => exact absurd rfl (hAct t)
  | _ => rfl

theorem Coherent.names_of_reset (h : Coherent s) {t : Nat} {a : Addr}
    (hOp : s.op t = .joinReset a ∨ s.op t = .detachReset a) :
    ∃ k, (s.hnd (.obj a)).evHandle = some k := by
  rcases hOp with hOp | hOp
  · obtain ⟨-, k, hHas, -⟩ := h.at hOp
    exact ⟨k, hHas.ev⟩
  · obtain ⟨-, k, hNames, -⟩ := h.at hOp
    exact ⟨k, hNames⟩

/-- The last move of join or detach changes the task found, from live to dead. -/
theorem Coherent.isolated_iff_of_reset (h : Coherent s) {t j : Nat} {a : Addr} {hdl : Handle} {l : Life}
    (hOp : s.op t = .joinReset a ∨ s.op t = .detachReset a) (hOwner : (s.hnd (.obj a)).fOwner = true)
    (hFound : Found s a hdl j) (hDead : l ≠ .alive) (hStray : s'.stray = s.stray)
    (hLife : s'.life = Function.update s.life j l) (hTls : s'.tls = s.tls) :
    Isolated s (.step t) s' ↔ findsOwn s (.step t) = true := by
  have hAlive : s.life j = .alive :=
    (h.kernel.occupies hdl j hFound.occupant).2.resolve_right hFound.life
  have hLeaves : (s.op t).leaves = some a := by rcases hOp with hOp | hOp <;> rw [hOp] <;> rfl
  obtain ⟨k, hEv⟩ := h.names_of_reset hOp
  have hFinds : findsOwn s (.step t) = true ↔ k = j := by
    rcases hOp with hOp | hOp <;> simp [findsOwn, hOp, hOwner, hFound.eDeleted, hFound.bind, hEv]
  rw [hFinds, isolated_iff_of_only (j := j) hLeaves hEv hStray fun i hNe => ?_, or_iff_left]
  · rw [hLife, Function.update_self, hAlive]
    exact fun hSame => hDead hSame.1
  · rw [hLife, hTls, Function.update_of_ne hNe]
    exact ⟨rfl, rfl⟩

theorem Coherent.isolated_iff_of_detach (h : Coherent s) {t j : Nat} {a : Addr} {hdl : Handle}
    (hOp : s.op t = .detachCrit a) (hFound : Found s a hdl j) :
    Isolated s (.step t) ((s.detachFound a j).setOp t (.detachReset a)) ↔
      findsOwn s (.step t) = true := by
  obtain ⟨-, k, hOwner, -⟩ := h.at hOp
  have hFinds : findsOwn s (.step t) = true ↔ k = j ∨ s.tls j = none := by
    simp [findsOwn, hOp, hFound.eDeleted, hFound.bind, hOwner.ev]
  have hStray : ((s.detachFound a j).setOp t (.detachReset a)).stray = s.stray := rfl
  rw [hFinds, isolated_iff_of_only (j := j) (by rw [hOp]; rfl) hOwner.ev hStray fun i hNe => ?_]
  · simp [St.detachFound, St.deleteGroup, St.setOp, eq_comm]
  · exact ⟨rfl, Function.update_of_ne hNe _ _⟩

/-- A statement is isolated exactly if the kept handle leads to the object's own
task. -/
theorem Coherent.isolated_iff (h : Coherent s) (hStep : Step port s act s') :
    Isolated s act s' ↔ findsOwn s act = true := by
  cases hStep
  case terminate hAct => exact iff_of_true (isolated_of_same rfl rfl rfl) (findsOwn_of_call hAct)
  case throws hAct => exact iff_of_true (isolated_of_same rfl rfl rfl) (findsOwn_of_call hAct)
  case create t hdl a k prio hRuns hOp hFree => exact iff_of_true (by rintro _ _ _ ⟨⟩) rfl
  case reclaim j hDeleted hCrit => exact iff_of_true (by rintro _ _ _ ⟨⟩) rfl
  case reuse hdl foreign hFree => exact iff_of_true (by rintro _ _ _ ⟨⟩) rfl
  case callSwap t a b hCalls hFirst hSecond hAct =>
    apply iff_of_true (isolated_of_same rfl rfl rfl)
    rcases hAct with rfl | rfl <;> rfl
  case setKey | construct | callJoin | callDetach => exact iff_of_true (isolated_of_same rfl rfl rfl) rfl
  case storeTls t a k hRuns hOp =>
    exact iff_of_true (isolated_of_outside (by rw [hOp]; rfl)) (by simp [findsOwn, hOp])
  case detachFound t a hdl j hRuns hOp hFound => exact h.isolated_iff_of_detach hOp hFound
  case detachAstray t a hRuns hOp hAstray =>
    obtain ⟨-, k, hOwner, -⟩ := h.at hOp
    apply iff_of_false (not_isolated_of_astray (by rw [hOp]; rfl) hOwner.ev rfl)
    simp [findsOwn, hOp, hAstray.state, hAstray.occupant]
  case detachGone t a hRuns hOp hState =>
    exact iff_of_true (isolated_of_same rfl rfl rfl) (by simp [findsOwn, hOp, hState])
  case resetShared t a hRuns hOp hShared =>
    apply iff_of_true (isolated_of_same rfl rfl rfl)
    rcases hOp with hOp | hOp <;> simp [findsOwn, hOp, hShared]
  case resetGone t a hRuns hOp hOwner hState =>
    apply iff_of_true (isolated_of_same rfl rfl rfl)
    rcases hOp with hOp | hOp <;> simp [findsOwn, hOp, hState]
  case resetAstray t a hRuns hOp hOwner hAstray =>
    obtain ⟨k, hEv⟩ := h.names_of_reset hOp
    have hLeaves : (s.op t).leaves = some a := by rcases hOp with hOp | hOp <;> rw [hOp] <;> rfl
    apply iff_of_false (not_isolated_of_astray hLeaves hEv rfl)
    rcases hOp with hOp | hOp <;> simp [findsOwn, hOp, hOwner, hAstray.state, hAstray.occupant]
  case resetFound t a hdl j hRuns hOp hOwner hFound hOther =>
    exact h.isolated_iff_of_reset hOp hOwner hFound (l := .reclaimed) (by simp) rfl rfl rfl
  case resetSelf t a hdl hPort hRuns hOp hOwner hFound =>
    exact h.isolated_iff_of_reset hOp hOwner hFound (l := .deleted) (by simp) rfl rfl rfl
  case resetStuck t a hdl hPort hRuns hOp hOwner hFound =>
    exact h.isolated_iff_of_reset hOp hOwner hFound (l := .deleted) (by simp) rfl rfl rfl
  case selfDelete k hRuns hOp hPhase =>
    exact iff_of_true (isolated_of_outside (by rw [hOp]; rfl)) (by simp [findsOwn, hOp])
  case release hOp | swapMove hOp =>
    exact iff_of_true (isolated_of_same rfl rfl rfl) (by simp [findsOwn, hOp])
  case swapBegin hOp _ | swapNow hOp _ | copy hOp _ | notifyStarted hOp _ | run hOp _ | «return» hOp _
      | destroy hOp _ | keyDone hOp _ | notifyJoined hOp _ =>
    exact iff_of_true (isolated_of_same rfl rfl rfl) (by simp [findsOwn, hOp])
  case detachWait hOp _ _ | swapSame hOp _ _ | swapWait hOp _ _ | keyStart hOp _ _ | keySkip hOp _ _ =>
    exact iff_of_true (isolated_of_same rfl rfl rfl) (by simp [findsOwn, hOp])
  case joinWait hOp _ _ _ => exact iff_of_true (isolated_of_same rfl rfl rfl) (by simp [findsOwn, hOp])

end Steps

section Runs

variable {port : Port} {s : St Handle Addr} {trace : Trace (St Handle Addr) (Act Handle Addr)}

/-- In every run, joins and detaches are isolated exactly if they act on nothing
else that was given the memory under a kept handle. -/
theorem isolated_iff_findsOwn (hReaches : (system Handle Addr port).Reaches trace s) :
    ((system Handle Addr port).AtEachStep trace fun _ u act v => Isolated u act v) ↔
      Guarded findsOwn trace := by
  obtain ⟨s₀, hStart, hRun⟩ := hReaches
  refine hRun.atEachStep_iff (Coherent.start hStart) (fun u act v h hNext => ?_) fun u act v h hNext => ?_
  · exact Coherent.step h (h.step_of_next hNext)
  · exact h.isolated_iff (h.step_of_next hNext)

end Runs

/-- The thread of object 0 ends and is reclaimed; the thread of object 1 gets its
handle; task 0 joins object 0. -/
def reusedHandle : List (Act Nat Nat) :=
  [.construct 0 0 1, .create 0 7, .step 0, .step 0] ++ List.replicate 8 (.step 1) ++
    [.reclaim 1, .construct 0 1 1, .create 0 7, .step 0, .step 0, .join 0 0, .step 0]

/-- The join of object 0 deletes the task of object 1. -/
theorem reusedHandle_deletes :
    ¬ ∀ trace s, (system Nat Nat .deferred).Reaches trace s →
      (system Nat Nat .deferred).AtEachStep trace fun _ u act v => Isolated u act v := by
  intro hClaim
  have hRun : (system Nat Nat .deferred).Reaches _ _ :=
    ⟨_, boot_start 1, (System.run_of_exec reusedHandle rfl).snoc (a := .step 0) rfl⟩
  have hOther := hClaim _ _ hRun _ _ _ [] rfl _ rfl 0 0 1 rfl rfl rfl
  exact absurd (hOther.2 2 (by decide)).1 (by decide)

theorem isolated_moveAndJoin :
    ∃ s, (system Nat Nat .deferred).exec (boot 1) moveAndJoin = some s ∧
      (system Nat Nat .deferred).AtEachStep
        ((system Nat Nat .deferred).replay (boot 1) moveAndJoin) fun _ u act v => Isolated u act v :=
  ⟨_, rfl, (isolated_iff_findsOwn ⟨_, boot_start 1, System.run_of_exec moveAndJoin rfl⟩).mpr
    (by decide)⟩

end FreeRtos.Thread
