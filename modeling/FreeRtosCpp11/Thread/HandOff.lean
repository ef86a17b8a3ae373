import FreeRtosCpp11.Thread.Lifetime

/-! The hand-off of the handle and of the `_State` to the new task. -/
namespace FreeRtos.Thread

set_option linter.unusedSectionVars false

open Transition

variable {Handle Addr : Type} [DecidableEq Handle] [DecidableEq Addr]

/-- The new task finds its complete handle in the object of its construction,
where it has been since `xTaskCreate` made the task. -/
structure TakesOwn (past : Trace (St Handle Addr) (Act Handle Addr)) (s : St Handle Addr) (k : Nat) :
    Prop where
  ev : (s.hnd (.obj (s.param k))).evHandle = some k
  arg : (s.hnd (.obj (s.param k))).arg = some k
  task : (s.hnd (.obj (s.param k))).taskHandle = s.handle k ∧ s.handle k ≠ none
  group : s.deletes k = 0
  since : ∀ step ∈ past, step.1.life k ≠ .unborn →
    (step.1.hnd (.obj (s.param k))).evHandle = some k

/-- Who ran and who destroyed the state of the `k`-th construction. -/
structure StateOnce (s : St Handle Addr) (k : Nat) : Prop where
  runs : s.runs k = [] ∨ s.runs k = [k]
  destroys : s.destroys k = [] ∨ s.destroys k = [k] ∧ s.runs k = [k]

section Steps

variable {port : Port} {s s' : St Handle Addr} {act : Act Handle Addr} {k : Nat}

/-- Since its creation, a task that has not started has its handle in its object. -/
def Waiting (trace : Trace (St Handle Addr) (Act Handle Addr)) (s : St Handle Addr) : Prop :=
  ∀ k, s.phase k = .entry → ∀ step ∈ trace, step.1.life k ≠ .unborn →
    s.life k ≠ .unborn ∧ (step.1.hnd (.obj (s.param k))).evHandle = some k

theorem Waiting.step {trace : Trace (St Handle Addr) (Act Handle Addr)} (hWaiting : Waiting trace s)
    (h : Sound s) (hStep : Step port s act s') : Waiting (trace ++ [(s, act)]) s' := by
  intro k hEntry step hMem hBorn
  have hBefore := hStep.entry_before hEntry
  have hHere : s.life k ≠ .unborn ∧ (step.1.hnd (.obj (s.param k))).evHandle = some k := by
    rcases List.mem_append.mp hMem with hOld | hNew
    · exact hWaiting k hBefore step hOld hBorn
    · rw [List.mem_singleton.mp hNew] at hBorn ⊢
      exact ⟨hBorn, ((h.body k).entry hBefore hBorn).1⟩
  rw [(h.coherent.recorded hStep hHere.1).2.1]
  exact ⟨h.coherent.born hStep hHere.1, hHere.2⟩

theorem Body.stateOnce (hBody : Body s k) : StateOnce s k := by
  obtain ⟨-, -, -, hRuns, hDestroys⟩ := hBody
  constructor
  · rw [hRuns]
    split <;> simp
  · rw [hRuns, hDestroys]
    by_cases hEnd : 6 ≤ (s.phase k).rank
    · rw [if_pos hEnd, if_pos (by omega)]
      exact .inr ⟨rfl, rfl⟩
    · rw [if_neg hEnd]
      exact .inl rfl

theorem Sound.takesOwn {trace : Trace (St Handle Addr) (Act Handle Addr)} (h : Sound s)
    (hWaiting : Waiting trace s) (hEntry : s.phase k = .entry) (hBorn : s.life k ≠ .unborn) :
    TakesOwn trace s k := by
  obtain ⟨hEv, hHandle⟩ := (h.body k).entry hEntry hBorn
  obtain ⟨hTask, hArg, -⟩ := h.coherent.objects.shape _ k hEv
  refine ⟨hEv, hArg, ⟨hTask, hHandle⟩, ?_, fun step hMem hHad => (hWaiting k hEntry step hMem hHad).2⟩
  rcases h.groups k with hZero | ⟨-, hStarted⟩
  · exact hZero
  · exact absurd hStarted ((h.body k).not_started hEntry)

end Steps

section Histories

variable {port : Port} {s : St Handle Addr} {trace : Trace (St Handle Addr) (Act Handle Addr)}

/-- What the hand-off promises at a step of the run. -/
def HandsOff (past : Trace (St Handle Addr) (Act Handle Addr)) (s : St Handle Addr)
    (act : Act Handle Addr) : Prop :=
  ∀ k, act = .step k → s.op k = .idle →
    (s.phase k = .entry → TakesOwn past s k) ∧
    (s.phase k = .keyed → s.runs k = [k] ∧ s.destroys k = [k])

/-- In every run a new task copies its own complete handle, and its state is run
and then destroyed by it alone, once, before `notify_joined`. -/
theorem handOff_of_reaches (hReaches : (system Handle Addr port).Reaches trace s) :
    ((system Handle Addr port).AtEachStep trace fun past u act _ => HandsOff past u act) ∧
      ∀ k, StateOnce s k := by
  refine ⟨?_, fun k => ((sound_of_reaches hReaches).body k).stateOnce⟩
  obtain ⟨s₀, hStart, hRun⟩ := hReaches
  refine hRun.atEachStep (P := fun past u => Sound u ∧ Waiting past u) (C := fun _ _ => true)
    (fun _ _ => rfl) ⟨.start hStart, fun k _ step hMem => by cases hMem⟩ ?_ ?_
  · rintro past u act v ⟨hSound, hWaiting⟩ _ hNext
    exact ⟨hSound.step hNext, hWaiting.step hSound (hSound.coherent.step_of_next hNext)⟩
  · rintro past u act v ⟨hSound, hWaiting⟩ _ hNext k rfl hIdle
    refine ⟨fun hEntry => hSound.takesOwn hWaiting hEntry ?_, fun hKeyed => ?_⟩
    · rw [(runs_of_next hNext).live]
      simp
    · rw [(hSound.body k).runs, (hSound.body k).destroys, hKeyed]
      exact ⟨rfl, rfl⟩

end Histories

/-- The new thread has the higher priority and runs to its end while task 0 is
still inside `create_thread`. -/
def runsInside : List (Act Nat Nat) :=
  [.construct 0 0 2, .create 0 7] ++ List.replicate 8 (.step 1) ++ [.step 0, .step 0]

theorem handOff_runsInside :
    ∃ s, (system Nat Nat .synchronous).exec (boot 1) runsInside = some s ∧
      ((system Nat Nat .synchronous).AtEachStep
        ((system Nat Nat .synchronous).replay (boot 1) runsInside)
        fun past u act _ => HandsOff past u act) ∧ ∀ k, StateOnce s k :=
  ⟨_, rfl, handOff_of_reaches ⟨_, boot_start 1, System.run_of_exec runsInside rfl⟩⟩

end FreeRtos.Thread
