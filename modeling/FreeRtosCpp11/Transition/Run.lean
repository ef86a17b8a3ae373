import Mathlib.Data.List.Induction

/-! Guarded executable transition systems and their finite runs. A step
function that answers `none` marks an action that is not enabled. A run keeps
every state it left together with the action taken there, so that properties
of single steps and of whole histories are both stated over the same object. -/
namespace Transition

universe u v

/-- A step function with the states it may start from. -/
structure System (State : Type u) (Action : Type v) where
  start : State → Prop
  next : State → Action → Option State

/-- The states left so far, in order, each with the action taken there. -/
abbrev Trace (State : Type u) (Action : Type v) := List (State × Action)

/-- Every step of the trace was taken where the condition allows it. -/
def Guarded {State : Type u} {Action : Type v} (C : State → Action → Bool)
    (trace : Trace State Action) : Prop :=
  ∀ step ∈ trace, C step.1 step.2

instance {State : Type u} {Action : Type v} (C : State → Action → Bool)
    (trace : Trace State Action) : Decidable (Guarded C trace) :=
  inferInstanceAs (Decidable (∀ step ∈ trace, C step.1 step.2))

theorem Guarded.snoc {State : Type u} {Action : Type v} {C : State → Action → Bool}
    {trace : Trace State Action} {t : State} {a : Action} (past : Guarded C trace) (last : C t a) :
    Guarded C (trace ++ [(t, a)]) := by
  intro step hMem
  rcases List.mem_append.mp hMem with hOld | hNew
  · exact past step hOld
  · rw [List.mem_singleton.mp hNew]
    exact last

namespace System

variable {State : Type u} {Action : Type v}

/-- A finite run from one state to another along its trace. -/
inductive Run (S : System State Action) : State → Trace State Action → State → Prop where
  | nil (s : State) : Run S s [] s
  | snoc {s t u : State} {trace : Trace State Action} {a : Action}
      (prior : Run S s trace t) (last : S.next t a = some u) :
      Run S s (trace ++ [(t, a)]) u

/-- The trace leads from a start state to the given state. -/
def Reaches (S : System State Action) (trace : Trace State Action) (t : State) : Prop :=
  ∃ s, S.start s ∧ S.Run s trace t

/-- Every step taken along the trace has the property, which may look at the
history before the step. -/
def AtEachStep (S : System State Action) (trace : Trace State Action)
    (Q : Trace State Action → State → Action → State → Prop) : Prop :=
  ∀ past t a later, trace = past ++ (t, a) :: later → ∀ u, S.next t a = some u → Q past t a u

variable {S : System State Action}

theorem Run.append {s t u : State} {first second : Trace State Action}
    (left : S.Run s first t) (right : S.Run t second u) : S.Run s (first ++ second) u := by
  induction right with
  | nil => simpa using left
  | snoc prior last ih => simpa only [List.append_assoc] using Run.snoc ih last

theorem Reaches.append {t u : State} {first second : Trace State Action}
    (past : S.Reaches first t) (later : S.Run t second u) : S.Reaches (first ++ second) u := by
  obtain ⟨s, hStart, run⟩ := past
  exact ⟨s, hStart, run.append later⟩

theorem atEachStep_nil (Q : Trace State Action → State → Action → State → Prop) :
    S.AtEachStep [] Q := by
  intro past t a later hTrace
  simp at hTrace

theorem atEachStep_snoc {Q : Trace State Action → State → Action → State → Prop}
    {trace : Trace State Action} {t : State} {a : Action} :
    S.AtEachStep (trace ++ [(t, a)]) Q ↔
      S.AtEachStep trace Q ∧ ∀ u, S.next t a = some u → Q trace t a u := by
  constructor
  · intro hAll
    refine ⟨?_, fun u hNext => hAll trace t a [] rfl u hNext⟩
    rintro past v b later rfl w hNext
    exact hAll past v b (later ++ [(t, a)]) (by simp) w hNext
  · rintro ⟨hPrior, hLast⟩ past v b later hTrace w hNext
    rcases List.eq_nil_or_concat later with rfl | ⟨init, last, rfl⟩
    · obtain ⟨rfl, hStep⟩ := List.append_inj' hTrace rfl
      simp only [List.cons.injEq, Prod.mk.injEq, and_true] at hStep
      obtain ⟨rfl, rfl⟩ := hStep
      exact hLast w hNext
    · rw [List.concat_eq_append, ← List.cons_append, ← List.append_assoc] at hTrace
      exact hPrior past v b init (List.append_inj' hTrace rfl).1 w hNext

/-- A condition that looks at the history, checked at each position of the trace. -/
theorem atEachStep_of_take {C : Trace State Action → State → Action → Bool} {trace : Trace State Action}
    (hAll : ∀ i (hBound : i < trace.length),
      C (trace.take i) (trace.get ⟨i, hBound⟩).1 (trace.get ⟨i, hBound⟩).2) :
    S.AtEachStep trace (fun past t a _ => C past t a) := by
  rintro past t a later rfl u _
  have hHere := hAll past.length (by simp)
  simpa using hHere

/-- In a run every step was enabled, so a condition on states and actions is
met at each step exactly if the trace is guarded by it. -/
theorem Run.atEachStep_guard {C : State → Action → Bool} {s t : State} {trace : Trace State Action}
    (run : S.Run s trace t) : S.AtEachStep trace (fun _ t a _ => C t a) ↔ Guarded C trace := by
  induction run with
  | nil => exact iff_of_true (atEachStep_nil _) (by simp [Guarded])
  | @snoc t u trace a prior last ih =>
      rw [atEachStep_snoc, ih]
      constructor
      · rintro ⟨hPrior, hLast⟩
        exact hPrior.snoc (hLast u last)
      · intro hGuard
        exact ⟨fun step h => hGuard step (by simp [h]), fun _ _ => hGuard (t, a) (by simp)⟩

/-- A property of histories that every step keeps, where the condition on the
steps may look at the history too. -/
theorem Run.history_of_atEachStep {P : Trace State Action → State → Prop}
    {C : Trace State Action → State → Action → State → Prop}
    {s t : State} {trace : Trace State Action} (run : S.Run s trace t)
    (hEach : S.AtEachStep trace C) (hStart : P [] s)
    (hStep : ∀ trace t a u, P trace t → C trace t a u → S.next t a = some u → P (trace ++ [(t, a)]) u) :
    P trace t := by
  induction run with
  | nil => exact hStart
  | @snoc t u trace a prior last ih =>
      obtain ⟨hPrior, hHere⟩ := atEachStep_snoc.mp hEach
      exact hStep _ _ _ _ (ih hPrior) (hHere u last) last

/-- A property of histories that every step keeps holds at the end of the run.
The condition is known of each step taken. -/
theorem Run.history {P : Trace State Action → State → Prop} {C : State → Action → Bool}
    {s t : State} {trace : Trace State Action} (run : S.Run s trace t)
    (hGuard : Guarded C trace) (hStart : P [] s)
    (hStep : ∀ trace t a u, P trace t → C t a → S.next t a = some u → P (trace ++ [(t, a)]) u) :
    P trace t :=
  run.history_of_atEachStep (run.atEachStep_guard.mpr hGuard) hStart hStep

/-- An invariant that every step meeting the condition keeps. -/
theorem Run.invariant {P : State → Prop} {C : State → Action → Bool}
    {s t : State} {trace : Trace State Action} (run : S.Run s trace t)
    (hGuard : Guarded C trace) (hStart : P s)
    (hStep : ∀ t a u, P t → C t a → S.next t a = some u → P u) : P t :=
  run.history (P := fun _ => P) hGuard hStart (fun _ => hStep)

/-- What holds of each single step taken where the invariant and the condition
hold, holds at each step of the run. -/
theorem Run.atEachStep_mono {P : Trace State Action → State → Prop}
    {C Q : Trace State Action → State → Action → State → Prop}
    {s t : State} {trace : Trace State Action} (run : S.Run s trace t)
    (hCond : S.AtEachStep trace C) (hStart : P [] s)
    (hStep : ∀ trace t a u, P trace t → C trace t a u → S.next t a = some u → P (trace ++ [(t, a)]) u)
    (hEach : ∀ trace t a u, P trace t → C trace t a u → S.next t a = some u → Q trace t a u) :
    S.AtEachStep trace Q := by
  induction run with
  | nil => exact atEachStep_nil Q
  | @snoc t u trace a prior last ih =>
      obtain ⟨hPrior, hHere⟩ := atEachStep_snoc.mp hCond
      refine atEachStep_snoc.mpr ⟨ih hPrior, fun v hNext => ?_⟩
      exact hEach trace t a v (prior.history_of_atEachStep hPrior hStart hStep) (hHere v hNext) hNext

theorem Run.atEachStep {P : Trace State Action → State → Prop} {C : State → Action → Bool}
    {Q : Trace State Action → State → Action → State → Prop}
    {s t : State} {trace : Trace State Action} (run : S.Run s trace t)
    (hGuard : Guarded C trace) (hStart : P [] s)
    (hStep : ∀ trace t a u, P trace t → C t a → S.next t a = some u → P (trace ++ [(t, a)]) u)
    (hEach : ∀ trace t a u, P trace t → C t a → S.next t a = some u → Q trace t a u) :
    S.AtEachStep trace Q :=
  run.atEachStep_mono (run.atEachStep_guard.mpr hGuard) hStart hStep hEach

/-- A run whose steps meet one condition meets any other that follows where the
invariant holds. -/
theorem Run.guarded {P : State → Prop} {C D : State → Action → Bool}
    {s t : State} {trace : Trace State Action} (run : S.Run s trace t)
    (hGuard : Guarded C trace) (hStart : P s)
    (hStep : ∀ t a u, P t → C t a → S.next t a = some u → P u)
    (hEach : ∀ t a u, P t → C t a → S.next t a = some u → D t a) : Guarded D trace :=
  run.atEachStep_guard.mp
    (run.atEachStep (P := fun _ => P) hGuard hStart (fun _ => hStep) fun _ => hEach)

/-- Two properties of single steps that agree as long as the second one held so
far hold along the same runs. -/
theorem Run.atEachStep_congr {P : Trace State Action → State → Prop}
    {Q C : Trace State Action → State → Action → State → Prop}
    {s t : State} {trace : Trace State Action} (run : S.Run s trace t) (hStart : P [] s)
    (hStep : ∀ trace t a u, P trace t → C trace t a u → S.next t a = some u → P (trace ++ [(t, a)]) u)
    (hEach : ∀ trace t a u, P trace t → S.next t a = some u → (Q trace t a u ↔ C trace t a u)) :
    S.AtEachStep trace Q ↔ S.AtEachStep trace C := by
  induction run with
  | nil => exact iff_of_true (atEachStep_nil Q) (atEachStep_nil C)
  | @snoc t u trace a prior last ih =>
      rw [atEachStep_snoc, atEachStep_snoc, ih]
      refine and_congr_right fun hPrior => forall₂_congr fun v hNext => ?_
      exact hEach trace t a v (prior.history_of_atEachStep hPrior hStart hStep) hNext

/-- A property of single steps that the condition decides holds at each step of
the run exactly if the condition does. -/
theorem Run.atEachStep_iff {P : State → Prop} {C : State → Action → Bool}
    {Q : State → Action → State → Prop} {s t : State} {trace : Trace State Action}
    (run : S.Run s trace t) (hStart : P s) (hStep : ∀ t a u, P t → S.next t a = some u → P u)
    (hEach : ∀ t a u, P t → S.next t a = some u → (Q t a u ↔ C t a)) :
    S.AtEachStep trace (fun _ => Q) ↔ Guarded C trace := by
  rw [← run.atEachStep_guard]
  exact run.atEachStep_congr (P := fun _ => P) hStart (fun _ t a u h _ => hStep t a u h) fun _ => hEach

/-- Replay a list of actions; `none` when one of them is not enabled. -/
def exec (S : System State Action) (s : State) : List Action → Option State
  | [] => some s
  | a :: rest => (S.next s a).bind fun t => S.exec t rest

/-- The trace that a replay leaves, up to the first action not enabled. -/
def replay (S : System State Action) (s : State) : List Action → Trace State Action
  | [] => []
  | a :: rest => match S.next s a with
    | none => []
    | some t => (s, a) :: S.replay t rest

/-- A successful replay is a run along its trace. -/
theorem run_of_exec {s t : State} (actions : List Action) (h : S.exec s actions = some t) :
    S.Run s (S.replay s actions) t := by
  induction actions generalizing s with
  | nil =>
      simp only [exec, Option.some.injEq] at h
      subst h
      exact .nil s
  | cons a rest ih =>
      cases hNext : S.next s a with
      | none => simp [exec, hNext] at h
      | some u =>
          simp only [exec, hNext, Option.bind_some] at h
          simp only [replay, hNext]
          exact (Run.snoc (.nil s) hNext).append (ih h)

end System
end Transition
