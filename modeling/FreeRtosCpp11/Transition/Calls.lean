import FreeRtosCpp11.Transition.Run

/-! Calls in a run. A call is made by one step, and it is over as soon as its
caller is outside again; what the call did is what the steps in between did.
A call that comes back with the step that made it has an empty history. -/
namespace Transition

universe u v

variable {State : Type u} {Action : Type v}

/-- The call made at one step of the trace is over in the last state. -/
structure Returned (outside : State → Bool) (trace : Trace State Action) (last : State)
    (call : State × Action) (during : Trace State Action) : Prop where
  made : ∃ past, trace = past ++ call :: during
  inside : ∀ step ∈ during, outside step.1 = false
  back : outside last = true

namespace System

variable {S : System State Action}

/-- A run is cut at any of its steps. -/
theorem Run.split {s u : State} {past later : Trace State Action} {t : State} {a : Action}
    (run : S.Run s (past ++ (t, a) :: later) u) :
    S.Run s past t ∧ ∃ v, S.next t a = some v ∧ S.Run v later u := by
  generalize hTrace : past ++ (t, a) :: later = trace at run
  induction run generalizing later with
  | nil => simp at hTrace
  | @snoc w x trace b prior last ih =>
      rcases List.eq_nil_or_concat later with rfl | ⟨init, step, rfl⟩
      · obtain ⟨rfl, hStep⟩ := List.append_inj' hTrace rfl
        simp only [List.cons.injEq, Prod.mk.injEq, and_true] at hStep
        obtain ⟨rfl, rfl⟩ := hStep
        exact ⟨prior, x, last, .nil x⟩
      · rw [List.concat_eq_append, ← List.cons_append, ← List.append_assoc] at hTrace
        obtain ⟨hInit, hStep⟩ := List.append_inj' hTrace rfl
        obtain ⟨hPast, v, hNext, hLater⟩ := ih hInit
        rw [List.cons.injEq] at hStep
        rw [List.concat_eq_append, hStep.1]
        exact ⟨hPast, v, hNext, hLater.snoc last⟩

theorem AtEachStep.of_append {past later : Trace State Action}
    {Q : Trace State Action → State → Action → State → Prop} {trace : Trace State Action}
    (h : S.AtEachStep trace Q) (hTrace : past ++ later = trace) : S.AtEachStep past Q := by
  subst hTrace
  rintro first t a rest rfl u hNext
  exact h first t a (rest ++ later) (by simp) u hNext

end System

/-- What the first state of a call has, and each step inside the call keeps,
holds when the call is over. What is known of each step of the run is known of
the steps of the call. -/
theorem Returned.history {S : System State Action} {P : Trace State Action → State → Prop}
    {Q : Trace State Action → State → Action → State → Prop} {outside : State → Bool}
    {s last : State} {trace during : Trace State Action} {call : State × Action}
    (h : Returned outside trace last call during) (run : S.Run s trace last)
    (hEach : S.AtEachStep trace Q)
    (hCall : ∀ past u, Q past call.1 call.2 u → S.next call.1 call.2 = some u → P [] u)
    (hStep : ∀ past done t a u, (t, a) ∈ during → outside t = false → Q past t a u →
      S.next t a = some u → P done t → P (done ++ [(t, a)]) u) : P during last := by
  obtain ⟨past, rfl⟩ := h.made
  obtain ⟨_, v, hNext, hDuring⟩ := run.split
  have hInside : S.AtEachStep during fun _ t a u => (t, a) ∈ during ∧ ∃ past, Q past t a u := by
    rintro done t a later rfl u hThis
    refine ⟨by simp, past ++ call :: done, hEach _ t a later (by simp) u hThis⟩
  refine hDuring.history_of_atEachStep hInside (hCall past v (hEach past _ _ during rfl v hNext) hNext) ?_
  rintro done t a u hDone ⟨hMem, before, hQ⟩ hThis
  exact hStep before done t a u hMem (h.inside (t, a) hMem) hQ hThis hDone

end Transition
