import FreeRtosCpp11.Transition.Calls
import Mathlib.Logic.Function.Basic

/-! `__gthread_once` of `gthr-default.h`: any number of tasks call it on one
`Once` object, with a function that returns and does not come back to the same
object. Each statement is one step of one task, and any task may take the next
step. -/
namespace FreeRtos.Once

/-- The next statement of a task in `__gthread_once`. -/
inductive Pc where
  /-- Outside the function. -/
  | idle
  /-- `if (!once->m)`. -/
  | check
  /-- `xSemaphoreTake(once->m, portMAX_DELAY)`. -/
  | take
  /-- `std::swap(once->v, flag)`. -/
  | swap
  /-- `if (flag == false)`. -/
  | test (flag : Bool)
  /-- `func()`, which has started and not returned. -/
  | func
  /-- `xSemaphoreGive(once->m)`, then `return 0`. -/
  | give
  deriving DecidableEq, Repr

structure St (Task : Type) where
  /-- `Once::v`. -/
  v : Bool
  /-- `Once::m` is not null. -/
  m : Bool
  /-- The task that holds the mutex. -/
  holder : Option Task
  pc : Task → Pc
  /-- What the last call of the task has returned. -/
  result : Task → Option Nat

inductive Act (Task : Type) where
  | call (t : Task)
  /-- The task executes its next statement. -/
  | step (t : Task)
  deriving DecidableEq

def Act.task {Task : Type} : Act Task → Task
  | .call t | .step t => t

variable {Task : Type} [DecidableEq Task]

namespace St

def setPc (s : St Task) (t : Task) (pc : Pc) : St Task :=
  { s with pc := Function.update s.pc t pc }

def call (s : St Task) (t : Task) : St Task :=
  { s.setPc t .check with result := Function.update s.result t none }

/-- The task returns from `__gthread_once`. -/
def ret (s : St Task) (t : Task) (code : Nat) : St Task :=
  { s.setPc t .idle with result := Function.update s.result t (some code) }

end St

def advance (s : St Task) (t : Task) : Option (St Task) :=
  match s.pc t with
  | .idle => none
  -- `return 12; // POSIX error: ENOMEM`
  | .check => some (if s.m then s.setPc t .take else s.ret t 12)
  | .take => if s.holder = none then some { s.setPc t .swap with holder := some t } else none
  | .swap => some { s.setPc t (.test s.v) with v := true }
  | .test flag => some (s.setPc t (if flag = false then .func else .give))
  | .func => some (s.setPc t .give)
  | .give => some { s.ret t 0 with holder := none }

def next (s : St Task) : Act Task → Option (St Task)
  | .call t => if s.pc t = .idle then some (s.call t) else none
  | .step t => advance s t

def system (Task : Type) [DecidableEq Task] : Transition.System (St Task) (Act Task) where
  start s := s.v = false ∧ s.holder = none ∧ (∀ t, s.pc t = .idle) ∧ ∀ t, s.result t = none
  next := next

abbrev History (Task : Type) := Transition.Trace (St Task) (Act Task)

/-- The function starts with this step. -/
def starts (s : St Task) (a : Act Task) : Bool :=
  (next s a).any fun s' => s.pc a.task != .func && s'.pc a.task == .func

/-- The function returns with this step. -/
def completes (s : St Task) (a : Act Task) : Bool :=
  (next s a).any fun s' => s.pc a.task == .func && s'.pc a.task != .func

/-- How often the function has started, or has returned. -/
def count (event : St Task → Act Task → Bool) (past : History Task) : Nat :=
  past.countP fun step => event step.1 step.2

omit [DecidableEq Task] in
theorem count_snoc (event : St Task → Act Task → Bool) (past : History Task) (s : St Task)
    (a : Act Task) : count event (past ++ [(s, a)]) = count event past + (event s a).toNat := by
  rw [count, List.countP_append, List.countP_singleton, count]
  cases event s a <;> rfl

/-- A task holds the mutex between take and give. -/
def Pc.holds : Pc → Bool
  | .idle | .check | .take => false
  | _ => true

/-- The mutex and the flag. -/
structure Exclusive (s : St Task) : Prop where
  holder : ∀ t, s.holder = some t ↔ (s.pc t).holds = true
  flag : ∀ t, (s.pc t).holds = true → s.pc t ≠ .swap → s.v = true
  /-- Without a mutex nobody comes beyond the first statement. -/
  noMutex : s.m = false → s.v = false ∧ ∀ t, s.pc t = .idle ∨ s.pc t = .check

variable {s s' : St Task} {a : Act Task} {past : History Task}

/-- What a step does. -/
inductive Step (s : St Task) : Act Task → St Task → Prop where
  | call (t : Task) (hPc : s.pc t = .idle) : Step s (.call t) (s.call t)
  | noMutex (t : Task) (hPc : s.pc t = .check) (hNull : s.m = false) : Step s (.step t) (s.ret t 12)
  | check (t : Task) (hPc : s.pc t = .check) (hMutex : s.m = true) : Step s (.step t) (s.setPc t .take)
  | take (t : Task) (hPc : s.pc t = .take) (hFree : s.holder = none) :
      Step s (.step t) { s.setPc t .swap with holder := some t }
  | swap (t : Task) (hPc : s.pc t = .swap) : Step s (.step t) { s.setPc t (.test s.v) with v := true }
  | run (t : Task) (hPc : s.pc t = .test false) : Step s (.step t) (s.setPc t .func)
  | skip (t : Task) (hPc : s.pc t = .test true) : Step s (.step t) (s.setPc t .give)
  | func (t : Task) (hPc : s.pc t = .func) : Step s (.step t) (s.setPc t .give)
  | give (t : Task) (hPc : s.pc t = .give) : Step s (.step t) { s.ret t 0 with holder := none }

theorem step_of_next (hNext : next s a = some s') : Step s a s' := by
  cases a with
  | call t =>
      simp only [next, Option.ite_none_right_eq_some, Option.some.injEq] at hNext
      obtain ⟨hPc, rfl⟩ := hNext
      exact .call t hPc
  | step t =>
      simp only [next, advance] at hNext
      cases hPc : s.pc t with
      | idle => simp [hPc] at hNext
      | check =>
          simp only [hPc, Option.some.injEq] at hNext
          subst hNext
          cases hMutex : s.m with
          | true => exact .check t hPc hMutex
          | false => exact .noMutex t hPc hMutex
      | take =>
          simp only [hPc, Option.ite_none_right_eq_some, Option.some.injEq] at hNext
          obtain ⟨hFree, rfl⟩ := hNext
          exact .take t hPc hFree
      | swap =>
          simp only [hPc, Option.some.injEq] at hNext
          subst hNext
          exact .swap t hPc
      | test flag =>
          simp only [hPc, Option.some.injEq] at hNext
          subst hNext
          cases flag with
          | false => exact .run t hPc
          | true => exact .skip t hPc
      | func =>
          simp only [hPc, Option.some.injEq] at hNext
          subst hNext
          exact .func t hPc
      | give =>
          simp only [hPc, Option.some.injEq] at hNext
          subst hNext
          exact .give t hPc

/-- A task that has not taken the mutex. -/
theorem Exclusive.outside (h : Exclusive s) {t : Task} {pc : Pc} {result : Task → Option Nat}
    (hBefore : (s.pc t).holds = false) (hAfter : pc.holds = false)
    (hNone : s.m = false → pc = .idle ∨ pc = .check) :
    Exclusive { s.setPc t pc with result := result } where
  holder u := by
    rcases eq_or_ne u t with rfl | hNe
    · simp [St.setPc, h.holder, hBefore, hAfter]
    · simp [St.setPc, h.holder, hNe]
  flag u hHolds := by
    rcases eq_or_ne u t with rfl | hNe
    · simp [St.setPc, hAfter] at hHolds
    · simpa [St.setPc, hNe] using h.flag u (by simpa [St.setPc, hNe] using hHolds)
  noMutex hNoMutex := by
    refine ⟨(h.noMutex hNoMutex).1, fun u => ?_⟩
    rcases eq_or_ne u t with rfl | hNe
    · simpa [St.setPc] using hNone hNoMutex
    · simpa [St.setPc, hNe] using (h.noMutex hNoMutex).2 u

/-- A task that keeps the mutex. -/
theorem Exclusive.inside (h : Exclusive s) {t : Task} {pc : Pc} {v : Bool} (hBefore : (s.pc t).holds = true)
    (hAfter : pc.holds = true) (hFlag : v = true) : Exclusive { s.setPc t pc with v := v } where
  holder u := by
    rcases eq_or_ne u t with rfl | hNe
    · simp [St.setPc, h.holder, hBefore, hAfter]
    · simp [St.setPc, h.holder, hNe]
  flag _ _ _ := hFlag
  noMutex hNoMutex := by
    rcases (h.noMutex hNoMutex).2 t with hPc | hPc <;> simp [hPc, Pc.holds] at hBefore

omit [DecidableEq Task] in
/-- With a free mutex nobody is between take and give. -/
theorem Exclusive.holds_of_free (h : Exclusive s) (hFree : s.holder = none) (t : Task) :
    (s.pc t).holds = false := by
  rw [← Bool.not_eq_true, ← h.holder, hFree]
  simp

theorem Exclusive.acquire (h : Exclusive s) {t : Task} (hPc : s.pc t = .take) (hFree : s.holder = none) :
    Exclusive { s.setPc t .swap with holder := some t } where
  holder u := by
    rcases eq_or_ne u t with rfl | hNe
    · simp [St.setPc, Pc.holds]
    · simp [St.setPc, hNe, hNe.symm, h.holds_of_free hFree]
  flag u hHolds hSwap := by
    rcases eq_or_ne u t with rfl | hNe
    · simp [St.setPc] at hSwap
    · simp [St.setPc, hNe, h.holds_of_free hFree] at hHolds
  noMutex hNoMutex := by
    rcases (h.noMutex hNoMutex).2 t with hIdle | hCheck
    · simp [hPc] at hIdle
    · simp [hPc] at hCheck

theorem Exclusive.release (h : Exclusive s) {t : Task} (hPc : s.pc t = .give) :
    Exclusive { s.ret t 0 with holder := none } := by
  have hHolder : s.holder = some t := (h.holder t).mpr (by simp [hPc, Pc.holds])
  have hOther : ∀ u, u ≠ t → (s.pc u).holds = false := fun u hNe => by
    rw [← Bool.not_eq_true, ← h.holder, hHolder]
    simpa using hNe.symm
  refine ⟨fun u => ?_, fun u hHolds => ?_, fun hNoMutex => ?_⟩
  · rcases eq_or_ne u t with rfl | hNe
    · simp [St.ret, St.setPc, Pc.holds]
    · simp [St.ret, St.setPc, hNe, hOther u hNe]
  · rcases eq_or_ne u t with rfl | hNe
    · simp [St.ret, St.setPc, Pc.holds] at hHolds
    · simp [St.ret, St.setPc, hNe, hOther u hNe] at hHolds
  · rcases (h.noMutex hNoMutex).2 t with hIdle | hCheck
    · simp [hPc] at hIdle
    · simp [hPc] at hCheck

theorem Exclusive.step (h : Exclusive s) (hStep : Step s a s') : Exclusive s' := by
  cases hStep with
  | call t hPc => exact h.outside (by simp [hPc, Pc.holds]) rfl fun _ => .inr rfl
  | noMutex t hPc hNull => exact h.outside (by simp [hPc, Pc.holds]) rfl fun _ => .inl rfl
  | check t hPc hMutex =>
      exact h.outside (by simp [hPc, Pc.holds]) rfl fun hNone => by simp [hMutex] at hNone
  | take t hPc hFree => exact h.acquire hPc hFree
  | swap t hPc => exact h.inside (by simp [hPc, Pc.holds]) rfl rfl
  | run t hPc | skip t hPc | func t hPc =>
      exact h.inside (by simp [hPc, Pc.holds]) rfl (h.flag t (by simp [hPc, Pc.holds]) (by simp [hPc]))
  | give t hPc => exact h.release hPc

/-- The execution of the function that a holder of the mutex still owes. -/
def Pc.owesStart : Pc → Bool
  | .test flag => !flag
  | _ => false

def Pc.owesReturn : Pc → Bool
  | .func => true
  | pc => pc.owesStart

/-- What the holder of the mutex owes. -/
def owed (debt : Pc → Bool) (s : St Task) : Nat := (s.holder.any fun t => debt (s.pc t)).toNat

/-- Whoever set the flag runs the function before it gives the mutex back. -/
structure Sound (past : History Task) (s : St Task) : Prop extends Exclusive s where
  started : count starts past + owed Pc.owesStart s = s.v.toNat
  completed : count completes past + owed Pc.owesReturn s = s.v.toNat
  returned : ∀ t code, s.result t = some code →
    code = (if s.m then 0 else 12) ∧ (s.m = true → count completes past = 1)

theorem Sound.start (h : (system Task).start s) : Sound [] s := by
  obtain ⟨hFlag, hFree, hIdle, hResult⟩ := h
  refine ⟨⟨?_, ?_, ?_⟩, ?_, ?_, ?_⟩ <;>
    simp [hFlag, hFree, hIdle, hResult, Pc.holds, count, owed]

omit [DecidableEq Task] in
theorem owed_of_holder {t : Task} (debt : Pc → Bool) (hHolder : s.holder = some t) :
    owed debt s = (debt (s.pc t)).toNat := by
  rw [owed, hHolder, Option.any_some]

omit [DecidableEq Task] in
theorem owed_of_free (debt : Pc → Bool) (hFree : s.holder = none) : owed debt s = 0 := by
  rw [owed, hFree]
  rfl

/-- A task that does not hold the mutex owes nothing, wherever it goes. -/
theorem Exclusive.owed_outside (h : Exclusive s) {t : Task} (debt : Pc → Bool) (pc : Pc)
    (result : Task → Option Nat) (hOut : (s.pc t).holds = false) :
    owed debt { s.setPc t pc with result := result } = owed debt s := by
  cases hHolder : s.holder with
  | none => rw [owed_of_free debt hHolder, owed_of_free debt (by exact hHolder)]
  | some u =>
      have hNe : u ≠ t := fun hEq => by
        have hIn := (h.holder u).mp hHolder
        rw [hEq, hOut] at hIn
        cases hIn
      rw [owed_of_holder debt hHolder, owed_of_holder debt (by exact hHolder)]
      simp [St.setPc, hNe]

/-- A step outside of the mutex neither starts nor ends the function. -/
theorem Exclusive.balance_outside (h : Exclusive s) {t : Task} {pc : Pc} {result : Task → Option Nat}
    (hOut : (s.pc t).holds = false) (hAfter : pc.holds = false) :
    let u : St Task := { s.setPc t pc with result := result }
    ((s.pc t != .func && u.pc t == .func).toNat + owed Pc.owesStart u + s.v.toNat =
        owed Pc.owesStart s + u.v.toNat) ∧
      ((s.pc t == .func && u.pc t != .func).toNat + owed Pc.owesReturn u + s.v.toNat =
        owed Pc.owesReturn s + u.v.toNat) := by
  have hBefore : s.pc t ≠ .func := fun hEq => by simp [hEq, Pc.holds] at hOut
  have hThen : pc ≠ .func := fun hEq => by simp [hEq, Pc.holds] at hAfter
  dsimp only
  rw [h.owed_outside Pc.owesStart pc result hOut, h.owed_outside Pc.owesReturn pc result hOut]
  simp [St.setPc, hBefore, hThen]

/-- Starts and returns of the function pay what is owed since the flag was set. -/
theorem Exclusive.balance (h : Exclusive s) (hNext : next s a = some s') :
    (starts s a).toNat + owed Pc.owesStart s' + s.v.toNat = owed Pc.owesStart s + s'.v.toNat ∧
      (completes s a).toNat + owed Pc.owesReturn s' + s.v.toNat = owed Pc.owesReturn s + s'.v.toNat := by
  simp only [starts, completes, hNext, Option.any_some]
  cases step_of_next hNext with
  | call t hPc | noMutex t hPc hNull | check t hPc hMutex =>
      have hOut : (s.pc t).holds = false := by simp [hPc, Pc.holds]
      exact h.balance_outside hOut rfl
  | take t hPc hFree =>
      simp [Act.task, hPc, owed, hFree, St.setPc, Pc.owesStart, Pc.owesReturn]
  | swap t hPc =>
      have hHolder : s.holder = some t := (h.holder t).mpr (by simp [hPc, Pc.holds])
      cases hFlag : s.v <;>
        simp [Act.task, hPc, owed, hHolder, hFlag, St.setPc, Pc.owesStart, Pc.owesReturn]
  | run t hPc | skip t hPc | func t hPc =>
      have hHolder : s.holder = some t := (h.holder t).mpr (by simp [hPc, Pc.holds])
      simp [Act.task, hPc, owed, hHolder, St.setPc, Pc.owesStart, Pc.owesReturn, Nat.add_comm]
  | give t hPc =>
      have hHolder : s.holder = some t := (h.holder t).mpr (by simp [hPc, Pc.holds])
      simp [Act.task, hPc, owed, hHolder, St.ret, St.setPc, Pc.owesStart, Pc.owesReturn]

/-- A task that gives the mutex back owes nothing. -/
theorem Sound.completed_of_give (h : Sound past s) {t : Task} (hPc : s.pc t = .give) :
    count completes past = 1 := by
  have hHolder : s.holder = some t := (h.holder t).mpr (by simp [hPc, Pc.holds])
  have hFlag := h.flag t (by simp [hPc, Pc.holds]) (by simp [hPc])
  have hCompleted := h.completed
  rw [owed_of_holder _ hHolder, hPc, hFlag] at hCompleted
  simpa [Pc.owesReturn, Pc.owesStart] using hCompleted

theorem m_of_step (hStep : Step s a s') : s'.m = s.m := by
  cases hStep <;> rfl

/-- A result is new only where a call returns. -/
theorem Sound.returned_step (h : Sound past s) (hStep : Step s a s') (u : Task) (code : Nat)
    (hResult : s'.result u = some code) :
    code = (if s.m then 0 else 12) ∧ (s.m = true → count completes past = 1) := by
  cases hStep with
  | call t hPc =>
      rcases eq_or_ne u t with rfl | hNe
      · simp [St.call] at hResult
      · exact h.returned u code (by simpa [St.call, hNe] using hResult)
  | noMutex t hPc hNull =>
      rcases eq_or_ne u t with rfl | hNe
      · have hCode : 12 = code := by simpa [St.ret] using hResult
        simp [hNull, ← hCode]
      · exact h.returned u code (by simpa [St.ret, hNe] using hResult)
  | give t hPc =>
      rcases eq_or_ne u t with rfl | hNe
      · have hCode : 0 = code := by simpa [St.ret] using hResult
        have hMutex : s.m = true := by
          by_contra hNull
          rcases (h.noMutex (by simpa using hNull)).2 u with hIdle | hCheck
          · simp [hPc] at hIdle
          · simp [hPc] at hCheck
        exact ⟨by simp [hMutex, ← hCode], fun _ => h.completed_of_give hPc⟩
      · exact h.returned u code (by simpa [St.ret, hNe] using hResult)
  | _ => exact h.returned u code hResult

theorem Sound.step (h : Sound past s) (hNext : next s a = some s') : Sound (past ++ [(s, a)]) s' := by
  have hStep := step_of_next hNext
  obtain ⟨hStarts, hCompletes⟩ := h.toExclusive.balance hNext
  have hStarted := h.started
  have hCompleted := h.completed
  refine ⟨h.toExclusive.step hStep, ?_, ?_, fun u code hResult => ?_⟩
  · rw [count_snoc]
    omega
  · rw [count_snoc]
    omega
  · obtain ⟨hCode, hBefore⟩ := h.returned_step hStep u code hResult
    rw [m_of_step hStep, count_snoc]
    refine ⟨hCode, fun hMutex => ?_⟩
    have hFlag := Bool.toNat_le s'.v
    have hOnce := hBefore hMutex
    omega

theorem sound_of_reaches {trace : History Task} (hRun : (system Task).Reaches trace s) : Sound trace s := by
  obtain ⟨s₀, hStart, run⟩ := hRun
  exact run.history (P := Sound) (C := fun _ _ => true) (fun _ _ => rfl) (Sound.start hStart)
    fun _ _ _ _ h _ hNext => h.step hNext

/-- A start that is owed is a return that is owed. -/
theorem Sound.completes_le_starts (h : Sound past s) : count completes past ≤ count starts past := by
  have hStarted := h.started
  have hCompleted := h.completed
  have hOwes : owed Pc.owesStart s ≤ owed Pc.owesReturn s := by
    cases hHolder : s.holder with
    | none => exact Nat.le_of_eq ((owed_of_free _ hHolder).trans (owed_of_free _ hHolder).symm)
    | some t =>
        rw [owed_of_holder _ hHolder, owed_of_holder _ hHolder]
        cases s.pc t <;> simp [Pc.owesReturn, Pc.owesStart]
  omega

theorem Sound.once (h : Sound past s) : count starts past ≤ 1 := by
  have hStarted := h.started
  have hFlag := Bool.toNat_le s.v
  omega

/-- The call that the task made at one step of the history is over. -/
abbrev Returned (t : Task) (past : History Task) (s : St Task) (call : St Task)
    (during : History Task) : Prop :=
  Transition.Returned (fun v => v.pc t == .idle) past s (call, .call t) during

/-- A call that is over has a result. -/
theorem result_of_returned {trace during : History Task} (hRun : (system Task).Reaches trace s) {t : Task}
    {call : St Task} (hReturned : Returned t trace s call during) : ∃ code, s.result t = some code := by
  obtain ⟨s₀, _, run⟩ := hRun
  have hHolds := hReturned.history (P := fun _ v => v.pc t = .idle → ∃ code, v.result t = some code)
    (Q := fun _ _ _ _ => True) run (fun _ _ _ _ _ _ _ => trivial)
    (fun _ u _ hNext hIdle => ?_) fun _ _ u a u' _ hInside _ hNext hBefore hIdle => ?_
  · exact hHolds (by simpa using hReturned.back)
  · have hStep : Step call (.call t) u := step_of_next hNext
    cases hStep with
    | call _ _ => simp [St.call, St.setPc] at hIdle
  · have hBusy : u.pc t ≠ .idle := by simpa using hInside
    cases step_of_next hNext with
    | noMutex v _ _ | give v _ =>
        rcases eq_or_ne t v with rfl | hNe
        · exact ⟨_, Function.update_self ..⟩
        · exact absurd (by simpa [St.ret, St.setPc, hNe] using hIdle) hBusy
    | _ v =>
        rcases eq_or_ne t v with rfl | hNe
        · simp [St.call, St.setPc] at hIdle
        · exact absurd (by simpa [St.call, St.setPc, hNe] using hIdle) hBusy

/-- What holds after a history of calls. -/
structure Exactly (past : History Task) (s : St Task) : Prop where
  /-- The function is never started twice. -/
  once : count starts past ≤ 1
  result : ∀ t call during, Returned t past s call during → s.result t = some (if s.m then 0 else 12)
  /-- As soon as a call has returned the function has been executed, once, and it stays so. -/
  executed : s.m = true → ∀ t call during, Returned t past s call during →
    ∀ later u, (system Task).Run s later u →
      count starts (past ++ later) = 1 ∧ count completes (past ++ later) = 1
  free : (∀ t, s.pc t = .idle) → s.holder = none
  /-- Without a mutex nothing runs, and every call returns with its next step. -/
  outOfMemory : s.m = false → count starts past = 0 ∧ s.v = false ∧
    ∀ t, s.pc t ≠ .idle → ∃ s', next s (.step t) = some s' ∧ s'.pc t = .idle

/-- The function is executed exactly once, and before any call returns. -/
theorem exactly_of_reaches {trace : History Task} (hRun : (system Task).Reaches trace s) : Exactly trace s where
  once := (sound_of_reaches hRun).once
  result t call during hReturned := by
    obtain ⟨code, hResult⟩ := result_of_returned hRun hReturned
    rw [hResult, ((sound_of_reaches hRun).returned t code hResult).1]
  executed hMutex t call during hReturned later u hLater := by
    obtain ⟨code, hResult⟩ := result_of_returned hRun hReturned
    have hCompleted := ((sound_of_reaches hRun).returned t code hResult).2 hMutex
    have hAfter := sound_of_reaches (hRun.append hLater)
    have hOnce := hAfter.once
    have hLe := hAfter.completes_le_starts
    have hGrows : count completes trace ≤ count completes (trace ++ later) := by
      rw [count, count, List.countP_append]
      exact Nat.le_add_right _ _
    omega
  free hIdle := by
    cases hHolder : s.holder with
    | none => rfl
    | some t =>
        have hHolds := ((sound_of_reaches hRun).holder t).mp hHolder
        simp [hIdle, Pc.holds] at hHolds
  outOfMemory hNoMutex := by
    have hSound := sound_of_reaches hRun
    have hStarted := hSound.started
    obtain ⟨hUnset, hPcs⟩ := hSound.noMutex hNoMutex
    rw [hUnset, Bool.toNat_false] at hStarted
    refine ⟨by omega, hUnset, fun t hCall => ?_⟩
    have hCheck : s.pc t = .check := (hPcs t).resolve_left hCall
    exact ⟨s.ret t 12, by simp [next, advance, hCheck, hNoMutex], by simp [St.ret, St.setPc]⟩

/-- Task 1 arrives while task 0 runs the function. -/
def overlap : List (Act Nat) :=
  [.call 0, .step 0, .step 0, .step 0, .call 1, .step 0, .step 1, .step 0, .step 0, .step 1, .step 1,
    .step 1, .step 1]

/-- The `Once` object before the first call. -/
def fresh (m : Bool) : St Nat where
  v := false
  m := m
  holder := none
  pc := fun _ => .idle
  result := fun _ => none

theorem exactly_of_reaches_overlap :
    ∃ s, (system Nat).exec (fresh true) overlap = some s ∧ s.result 0 = some 0 ∧ s.result 1 = some 0 ∧
      Exactly ((system Nat).replay (fresh true) overlap) s :=
  ⟨_, rfl, rfl, rfl, exactly_of_reaches
    ⟨fresh true, ⟨rfl, rfl, fun _ => rfl, fun _ => rfl⟩, Transition.System.run_of_exec overlap rfl⟩⟩

end FreeRtos.Once
