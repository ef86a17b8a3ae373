import FreeRtosCpp11.Transition.Run

/-! Two systems that take the same actions side by side: a relation of their states
that every action keeps holds along whole runs. And a system with one more call,
which has variables of its own. -/
namespace Transition

universe u v

section Answers

variable {α β γ δ : Type*} {R : α → β → Prop} {Q : γ → δ → Prop} {x : Option α} {y : Option β}
  {f : α → Option γ} {g : β → Option δ}

/-- Answers that are related, or both missing, lead to such answers. -/
theorem rel_bind (h : Option.Rel R x y) (hNext : ∀ a b, R a b → Option.Rel Q (f a) (g b)) :
    Option.Rel Q (x.bind f) (y.bind g) := by
  cases h with
  | none => exact .none
  | some hBoth => exact hNext _ _ hBoth

theorem rel_map {f : α → γ} {g : β → δ} (h : Option.Rel R x y) (hNext : ∀ a b, R a b → Q (f a) (g b)) :
    Option.Rel Q (x.map f) (y.map g) := by
  cases h with
  | none => exact .none
  | some hBoth => exact .some (hNext _ _ hBoth)

theorem rel_ite {c d : Prop} [Decidable c] [Decidable d] {x₁ x₂ : Option α} {y₁ y₂ : Option β} (hSame : c ↔ d)
    (hThen : Option.Rel R x₁ y₁) (hElse : Option.Rel R x₂ y₂) :
    Option.Rel R (if c then x₁ else x₂) (if d then y₁ else y₂) := by
  by_cases hHolds : c
  · rw [if_pos hHolds, if_pos (hSame.mp hHolds)]
    exact hThen
  · rw [if_neg hHolds, if_neg (mt hSame.mpr hHolds)]
    exact hElse

end Answers

namespace System

variable {State Other : Type u} {Action : Type v} {S : System State Action} {T : System Other Action}
  {R : State → Other → Prop} {C : State → Action → Bool} {s s' : State} {t : Other} {trace : Trace State Action}

/-- The other system can follow a run whose steps meet the condition, by the same
actions. -/
theorem Run.lockstep (run : S.Run s trace s') (hGuard : Guarded C trace) (hStart : R s t)
    (hStep : ∀ s t a, R s t → C s a → Option.Rel R (S.next s a) (T.next t a)) :
    ∃ other t', T.Run t other t' ∧ other.map Prod.snd = trace.map Prod.snd ∧ R s' t' := by
  induction run with
  | nil => exact ⟨[], t, .nil t, rfl, hStart⟩
  | @snoc s₁ s₂ trace a prior last ih =>
      obtain ⟨other, t₁, hRun, hSame, hRelated⟩ := ih (fun step hMem => hGuard step (List.mem_append_left _ hMem))
      have hBoth := hStep s₁ t₁ a hRelated (hGuard (s₁, a) (by simp))
      rw [last] at hBoth
      cases hNext : T.next t₁ a with
      | none =>
          rw [hNext] at hBoth
          cases hBoth
      | some t₂ =>
          rw [hNext] at hBoth
          exact ⟨_, t₂, hRun.snoc hNext, by simp [hSame], Option.rel_some_some.mp hBoth⟩

/-- The system with one more call, which works on the state and its own variables. -/
def extend {Var : Type u} (S : System State Action) (call : State → Var → Option (State × Var)) :
    System (State × Var) (Option Action) where
  start s := S.start s.1
  next s := fun
    | some a => (S.next s.1 a).map fun t => (t, s.2)
    | none => call s.1 s.2

/-- A step of the system leaves the variables of the call alone. -/
theorem extend_some {Var : Type u} {call : State → Var → Option (State × Var)} {x y : State × Var} {a : Action}
    (hNext : (S.extend call).next x (some a) = some y) : S.next x.1 a = some y.1 ∧ y.2 = x.2 := by
  obtain ⟨t, hStep, rfl⟩ := Option.map_eq_some_iff.mp hNext
  exact ⟨hStep, rfl⟩

end System

end Transition
