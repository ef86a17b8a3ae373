import FreeRtosCpp11.CondVar.History
import FreeRtosCpp11.Transition.Calls

/-! What a call has done when it comes back to its caller. The handles taken off
a list and the notifications counted are read off the steps themselves, whatever
statement takes them. -/
namespace FreeRtos.CondVar

set_option linter.unusedSectionVars false

variable {Task Cond Mutex : Type} [DecidableEq Task] [DecidableEq Cond] [DecidableEq Mutex]

/-- A call of the task is over: it came back to its caller, and nobody deleted
the task meanwhile. -/
structure Answered (t : Task) (trace : History Task Cond Mutex) (s : St Task Cond Mutex)
    (call : St Task Cond Mutex × Act Task Cond Mutex) (during : History Task Cond Mutex) : Prop
    extends Transition.Returned (fun s => s.pc t == .idle) trace s call during where
  spared : ∀ step ∈ during, step.2 ≠ .delete t

/-- The handle that a step takes off the front of a list. -/
def taken (c : Cond) (step : St Task Cond Mutex × Act Task Cond Mutex) : Option Task :=
  (next step.1 step.2).bind fun s' =>
    if s'.que c = (step.1.que c).tail then (step.1.que c).head? else none

/-- The step raises the notification count of the task by one. -/
def notifies (t : Task) (step : St Task Cond Mutex × Act Task Cond Mutex) : Bool :=
  (next step.1 step.2).any fun s' =>
    (s'.note t).ulNotifiedValue == (step.1.note t).ulNotifiedValue + 1

/-- The handles that steps of one task take off a list, in order. -/
def popsBy (u : Task) (c : Cond) (trace : History Task Cond Mutex) : List Task :=
  (trace.filter (·.2 = .step u)).filterMap (taken c)

/-- How often steps of one task notify another one. -/
def givesBy (u t : Task) (trace : History Task Cond Mutex) : Nat :=
  (trace.filter (·.2 = .step u)).countP (notifies t)

/-- How often steps take the handle off the front of a list. -/
def takes (t : Task) (c : Cond) (trace : History Task Cond Mutex) : Nat :=
  trace.countP fun step => taken c step = some t

/-- How often steps notify the task. -/
def raises (t : Task) (trace : History Task Cond Mutex) : Nat := trace.countP (notifies t)

/-- The step takes the free lock of a list. -/
def TakesLock (u : Task) (c : Cond) (s : St Task Cond Mutex) : Prop :=
  s.sem c = none ∧ ∃ s', next s (.step u) = some s' ∧ s'.sem c = some u

/-- The call of a notifier that took the queue lock in the given state and went
on with the given steps. -/
structure Locks (u : Task) (c : Cond) (during : History Task Cond Mutex) (s : St Task Cond Mutex)
    (held : History Task Cond Mutex) : Prop where
  cut : ∃ first, during = first ++ (s, .step u) :: held
  lock : TakesLock u c s
  /-- Whoever waits and was not notified is in the list. -/
  finds : ∀ t, (s.pc t).waiting = some c → (s.note t).ulNotifiedValue = 0 → t ∈ s.que c
  /-- A notification finds its task live, in its wait and not notified yet. -/
  reached : ∀ step ∈ during, step.2 = .step u → ∀ t, notifies t step →
    step.1.live t = true ∧ (step.1.pc t).waiting = some c ∧ (step.1.note t).ulNotifiedValue = 0

/-- A notifier's call that did what it is for. -/
structure Serves (all : Bool) (u : Task) (c : Cond) (during : History Task Cond Mutex)
    (s : St Task Cond Mutex) (held : History Task Cond Mutex) : Prop extends
    Locks u c during s held where
  /-- A broadcast pops the list it finds, a signal the front of it. -/
  popped : popsBy u c during = if all then s.que c else (s.que c).take 1
  /-- Every handle popped is notified once. -/
  given : ∀ t, givesBy u t during = (popsBy u c during).count t

/-- The call of a waiter that pushed its handle in the given state and went on
with the given steps. -/
structure Pushes (t : Task) (c : Cond) (during : History Task Cond Mutex) (s : St Task Cond Mutex)
    (later : History Task Cond Mutex) : Prop where
  cut : ∃ first, during = first ++ (s, .step t) :: later
  push : ∃ s', next s (.step t) = some s' ∧ s'.que c = s.que c ++ [t]

/-- A waiter's call that pushed its handle, was popped once and was notified once. -/
structure Waits (t : Task) (c : Cond) (during : History Task Cond Mutex) (s : St Task Cond Mutex)
    (later : History Task Cond Mutex) : Prop extends Pushes t c during s later where
  popped : takes t c later = 1
  notified : raises t later = 1

/-- A signal notifies a waiter whenever the list it finds is not empty. -/
theorem Serves.wakes {u t : Task} {c : Cond} {s : St Task Cond Mutex}
    {during held : History Task Cond Mutex} (h : Serves false u c during s held)
    (hWaiting : (s.pc t).waiting = some c) (hZero : (s.note t).ulNotifiedValue = 0) :
    ∃ front, popsBy u c during = [front] ∧ ∃ step ∈ during, step.2 = .step u ∧
      notifies front step ∧ step.1.live front = true ∧ (step.1.pc front).waiting = some c := by
  obtain ⟨front, rest, hQue⟩ := List.exists_cons_of_ne_nil
    (List.ne_nil_of_mem (h.finds t hWaiting hZero))
  have hPops : popsBy u c during = [front] := by
    rw [h.popped, hQue]
    rfl
  have hGiven : 0 < givesBy u front during := by
    rw [h.given, hPops]
    simp
  obtain ⟨step, hMem, hNotifies⟩ := List.countP_pos_iff.mp hGiven
  obtain ⟨hDuring, hActor⟩ := List.mem_filter.mp hMem
  have hSelf : step.2 = .step u := by simpa using hActor
  obtain ⟨hLive, hFront, _⟩ := h.reached step hDuring hSelf front hNotifies
  exact ⟨front, hPops, step, hDuring, hSelf, hNotifies, hLive, hFront⟩

section Observations

variable {s s' : St Task Cond Mutex} {a : Act Task Cond Mutex} {trace : History Task Cond Mutex}
  {t u : Task} {c : Cond}

theorem taken_of_same (hNext : next s a = some s') (hQue : s'.que c = s.que c) :
    taken c (s, a) = none := by
  simp only [taken, hNext, Option.bind_some, hQue]
  cases s.que c with
  | nil => rfl
  | cons front rest => exact if_neg (List.cons_ne_self front rest)

theorem taken_of_cons (hNext : next s a = some s') {front : Task}
    (hQue : s.que c = front :: s'.que c) : taken c (s, a) = some front := by
  simp [taken, hNext, hQue]

theorem notifies_of_next (hNext : next s a = some s') :
    notifies t (s, a) ↔ (s'.note t).ulNotifiedValue = (s.note t).ulNotifiedValue + 1 := by
  simp [notifies, hNext]

theorem notifies_of_same (hNext : next s a = some s') (hNote : s'.note t = s.note t) :
    notifies t (s, a) = false := by
  simp [notifies, hNext, hNote]

theorem popsBy_of_ne (trace : History Task Cond Mutex) (s : St Task Cond Mutex) (hActor : a ≠ .step u) :
    popsBy u c (trace ++ [(s, a)]) = popsBy u c trace := by
  simp [popsBy, hActor]

theorem givesBy_of_ne (trace : History Task Cond Mutex) (s : St Task Cond Mutex) (hActor : a ≠ .step u) :
    givesBy u t (trace ++ [(s, a)]) = givesBy u t trace := by
  simp [givesBy, hActor]

theorem popsBy_step (trace : History Task Cond Mutex) (s : St Task Cond Mutex) (u : Task) (c : Cond) :
    popsBy u c (trace ++ [(s, .step u)]) = popsBy u c trace ++ (taken c (s, .step u)).toList := by
  cases hTaken : taken c (s, .step u) <;> simp [popsBy, hTaken]

theorem givesBy_step (trace : History Task Cond Mutex) (s : St Task Cond Mutex) (u t : Task) :
    givesBy u t (trace ++ [(s, .step u)]) =
      givesBy u t trace + if notifies t (s, .step u) then 1 else 0 := by
  simp [givesBy]

theorem takes_snoc (trace : History Task Cond Mutex) (step : St Task Cond Mutex × Act Task Cond Mutex) :
    takes t c (trace ++ [step]) = takes t c trace + if taken c step = some t then 1 else 0 := by
  simp [takes, List.countP_append, List.countP_singleton]

theorem raises_snoc (trace : History Task Cond Mutex) (step : St Task Cond Mutex × Act Task Cond Mutex) :
    raises t (trace ++ [step]) = raises t trace + if notifies t step then 1 else 0 := by
  simp [raises, List.countP_append, List.countP_singleton]

theorem mem_of_taken {step : St Task Cond Mutex × Act Task Cond Mutex} (h : taken c step = some t) :
    t ∈ step.1.que c := by
  simp only [taken, Option.bind_eq_some_iff, Option.ite_none_right_eq_some] at h
  obtain ⟨_, _, _, hHead⟩ := h
  exact List.mem_of_head? hHead

end Observations

section Frames

variable {s s' : St Task Cond Mutex} {a : Act Task Cond Mutex} {u : Task}

/-- A held list is changed by its holder only. -/
theorem Step.que_of_locks (hStep : Step s a s') (h : Locked s) {c : Cond}
    (hLocks : (s.pc u).locks = some c) (hActor : a ≠ .step u) : s'.que c = s.que c := by
  have hUnique : ∀ v d, (s.pc v).locks = some d → a = .step v → c ≠ d := by
    rintro v d hOther hAct rfl
    obtain rfl := h.sem.unique hOther hLocks
    exact hActor hAct
  cases hStep with
  | push v w hPc | remove v w hPc =>
      have hNe : c ≠ w.cond := hUnique v w.cond (by simp [hPc, Pc.locks]) rfl
      simp [hNe]
  | popFront v all d front rest hPc =>
      have hNe : c ≠ d := hUnique v d (by simp [hPc, Pc.locks]) rfl
      simp [hNe]
  | _ => rfl

/-- Only its own steps, the end of its block time and its deletion take a task
from a statement inside a call. -/
theorem Step.pc_of_ne (hStep : Step s a s') (hActor : a ≠ .step u) (hExpire : a ≠ .expire u)
    (hSpared : a ≠ .delete u) (hInside : s.pc u ≠ .idle) : s'.pc u = s.pc u := by
  cases hStep with
  | create | exit | lock | unlock => rfl
  | wait v c m hLive hPc | timedwait v c m ticks hLive hPc | signal v c hLive hPc
  | broadcast v c hLive hPc =>
      refine Function.update_of_ne ?_ _ _
      rintro rfl
      exact hInside hPc
  | delete v hLive =>
      refine Function.update_of_ne ?_ _ _
      rintro rfl
      exact hSpared rfl
  | expire v w hPc =>
      refine Function.update_of_ne ?_ _ _
      rintro rfl
      exact hExpire rfl
  | _ =>
      refine Function.update_of_ne ?_ _ _
      rintro rfl
      exact hActor rfl

/-- The entries of a task in a list change by its own push and by pops, as long
as nobody removes an entry from the middle. -/
theorem Step.count_que (hStep : Step s a s') (hNext : next s a = some s') (t : Task) (c : Cond)
    (hPush : ∀ w, a = .step t → s.pc t ≠ .push w) (hRemove : ∀ v w, s.pc v ≠ .remove w) :
    (s'.que c).count t + (if taken c (s, a) = some t then 1 else 0) = (s.que c).count t := by
  have hSame : s'.que c = s.que c → (s'.que c).count t +
      (if taken c (s, a) = some t then 1 else 0) = (s.que c).count t := by
    intro hQue
    rw [taken_of_same hNext hQue, hQue, if_neg (by simp), Nat.add_zero]
  cases hStep with
  | push v w hPc =>
      rcases eq_or_ne c w.cond with rfl | hOther
      · have hNe : v ≠ t := by
          rintro rfl
          exact hPush w rfl hPc
        have hTaken : taken w.cond (s, .step v) = none := by
          simp only [taken, hNext, Option.bind_some, St.setPc_que, St.setQue_que, Function.update_self]
          refine if_neg fun hTail => ?_
          have hLength := congrArg List.length hTail
          simp at hLength
          omega
        simp [hTaken, hNe]
      · exact hSame (by simp [hOther])
  | popFront v all d front rest hPc hQue =>
      rcases eq_or_ne c d with rfl | hOther
      · have hTaken : taken c (s, .step v) = some front := taken_of_cons hNext (by simp [hQue])
        rw [hTaken, hQue, List.count_cons]
        simp
      · exact hSame (by simp [hOther])
  | remove v w hPc => exact absurd hPc (hRemove v w)
  | _ => exact hSame rfl

/-- The count of a live task changes by notifications and by its own take. -/
theorem Step.count_note (hStep : Step s a s') (hNext : next s a = some s') {t : Task}
    (hLive : s.live t = true) (hSpared : a ≠ .delete t) (hRead : ∀ w, a = .step t → s.pc t ≠ .takeRead w) :
    (s'.note t).ulNotifiedValue =
      (s.note t).ulNotifiedValue + if notifies t (s, a) then 1 else 0 := by
  have hSame : (s'.note t).ulNotifiedValue = (s.note t).ulNotifiedValue →
      (s'.note t).ulNotifiedValue =
        (s.note t).ulNotifiedValue + if notifies t (s, a) then 1 else 0 := by
    intro hNote
    have hQuiet : notifies t (s, a) = false := by simp [notifies, hNext, hNote]
    rw [hNote, hQuiet]
    rfl
  cases hStep with
  | create v hDead =>
      have hNe : t ≠ v := by
        rintro rfl
        cases hLive.symm.trans hDead
      exact hSame (by simp [hNe])
  | delete v =>
      have hNe : t ≠ v := by
        rintro rfl
        exact hSpared rfl
      exact hSame (by simp [hNe])
  | takeBlock v w | takeSkip v w =>
      apply hSame
      rcases eq_or_ne t v with rfl | hOther
      · simp
      · simp [hOther]
  | takeRead v w hPc =>
      have hNe : t ≠ v := by
        rintro rfl
        exact hRead w rfl hPc
      exact hSame (by simp [hNe])
  | give v all c front hPc =>
      rcases eq_or_ne t front with rfl | hOther
      · simp [notifies, hNext]
      · exact hSame (by simp [hOther])
  | _ => exact hSame rfl

theorem Step.not_expire (hStep : Step s a s') (hBlocked : ∀ w, s.pc u ≠ .blocked w) :
    a ≠ .expire u := by
  rintro rfl
  cases hStep with
  | expire v w hPc => exact hBlocked w hPc

end Frames

section Notifiers

variable [Fintype Task] [Fintype Cond] {s s' : St Task Cond Mutex} {a : Act Task Cond Mutex}
  {during : History Task Cond Mutex} {all : Bool} {u : Task} {c : Cond}

/-- What is known of each step of the runs in which no notification is lost. -/
structure Attentive (s : St Task Cond Mutex) (a : Act Task Cond Mutex) : Prop extends
    Accounted s where
  gives : ∀ v all d t, a = .step v → s.pc v = .give all d t → (s.pc t).waiting = some d

/-- How far the call of a notifier has come, by the statement it is at. -/
def NotifyAt (all : Bool) (u : Task) (c : Cond) (during : History Task Cond Mutex)
    (s : St Task Cond Mutex) : Prop :=
  match s.pc u with
  | .notifyLock b d => b = all ∧ d = c ∧ ∀ step ∈ during, step.2 ≠ .step u
  | .pop b d => b = all ∧ d = c ∧ (all = false → popsBy u c during = []) ∧
      ∃ v held, Locks u c during v held ∧ v.que c = popsBy u c during ++ s.que c ∧
        ∀ t, givesBy u t during = (popsBy u c during).count t
  | .give b d x => b = all ∧ d = c ∧ (all = false → popsBy u c during = [x]) ∧
      ∃ v held, Locks u c during v held ∧ v.que c = popsBy u c during ++ s.que c ∧
        ∀ t, givesBy u t during + (if x = t then 1 else 0) = (popsBy u c during).count t
  | .notifyUnlock b d => b = all ∧ d = c ∧ ∃ v held, Serves all u c during v held
  | .idle => ∃ v held, Serves all u c during v held
  | _ => False

theorem Locks.snoc {v : St Task Cond Mutex} {held : History Task Cond Mutex}
    (h : Locks u c during v held)
    (hReached : a = .step u → ∀ t, notifies t (s, a) →
      s.live t = true ∧ (s.pc t).waiting = some c ∧ (s.note t).ulNotifiedValue = 0) :
    Locks u c (during ++ [(s, a)]) v (held ++ [(s, a)]) where
  cut := by
    obtain ⟨first, rfl⟩ := h.cut
    exact ⟨first, by simp⟩
  lock := h.lock
  finds := h.finds
  reached step hMem hActor t hNotifies := by
    rcases List.mem_append.mp hMem with hOld | hNew
    · exact h.reached step hOld hActor t hNotifies
    · obtain rfl := List.mem_singleton.mp hNew
      exact hReached hActor t hNotifies

/-- A call in which the notifier has not moved yet popped and notified nobody. -/
theorem popsBy_of_unmoved (h : ∀ step ∈ during, step.2 ≠ .step u) :
    popsBy u c during = [] ∧ ∀ t, givesBy u t during = 0 := by
  have hFilter : during.filter (fun step => step.2 = Act.step u) = [] := by
    simpa [List.filter_eq_nil_iff] using h
  simp [popsBy, givesBy, hFilter]

/-- The step that takes the lock finds everybody who waits. -/
theorem Attentive.locks (h : Attentive s (.step u)) (hPc : s.pc u = .notifyLock all c)
    (hFree : s.sem c = none) (hUnmoved : ∀ step ∈ during, step.2 ≠ .step u) :
    Locks u c (during ++ [(s, .step u)]) s [] where
  cut := ⟨during, rfl⟩
  lock := ⟨hFree, by simp [next, advance, hPc, hFree]⟩
  finds t hWaiting hZero := by
    rcases h.found hFree hWaiting with hMem | hOne
    · exact hMem
    · omega
  reached step hMem hActor t hNotifies := by
    rcases List.mem_append.mp hMem with hOld | hNew
    · exact absurd hActor (hUnmoved step hOld)
    · obtain rfl := List.mem_singleton.mp hNew
      simp [notifies, next, advance, hPc, hFree] at hNotifies

/-- A step of the notifier that leaves all notifications as they are. -/
theorem Locks.snoc_same {v : St Task Cond Mutex} {held : History Task Cond Mutex}
    (h : Locks u c during v held) (hNext : next s a = some s') (hNote : s'.note = s.note) :
    Locks u c (during ++ [(s, a)]) v (held ++ [(s, a)]) := by
  refine h.snoc fun _ t hNotifies => ?_
  rw [notifies_of_same hNext (congrFun hNote t)] at hNotifies
  cases hNotifies

theorem givesBy_of_same (during : History Task Cond Mutex) (hNext : next s (.step u) = some s')
    (hNote : s'.note = s.note) (t : Task) :
    givesBy u t (during ++ [(s, .step u)]) = givesBy u t during := by
  rw [givesBy_step, notifies_of_same hNext (congrFun hNote t)]
  rfl

theorem popsBy_of_same (during : History Task Cond Mutex) (hNext : next s (.step u) = some s')
    (hQue : s'.que c = s.que c) : popsBy u c (during ++ [(s, .step u)]) = popsBy u c during := by
  rw [popsBy_step, taken_of_same hNext hQue]
  exact List.append_nil _

/-- Steps of other tasks leave a notifier's call where it is. -/
theorem NotifyAt.step_of_ne (hAt : NotifyAt all u c during s) (h : Accounted s) (hStep : Step s a s')
    (hActor : a ≠ .step u) (hSpared : a ≠ .delete u) (hInside : s.pc u ≠ .idle) :
    NotifyAt all u c (during ++ [(s, a)]) s' := by
  have hBlocked : ∀ w, s.pc u ≠ .blocked w := by
    intro w hPc
    simp [NotifyAt, hPc] at hAt
  have hSame := hStep.pc_of_ne hActor (hStep.not_expire hBlocked) hSpared hInside
  have hPops := popsBy_of_ne (c := c) during s hActor
  have hGives := fun t => givesBy_of_ne (t := t) during s hActor
  have hQue : ∀ d, (s.pc u).locks = some d → s'.que d = s.que d :=
    fun d hLocks => hStep.que_of_locks h.toLocked hLocks hActor
  have hLocks : ∀ v held, Locks u c during v held →
      Locks u c (during ++ [(s, a)]) v (held ++ [(s, a)]) :=
    fun v held hHeld => hHeld.snoc fun hAct => absurd hAct hActor
  unfold NotifyAt at hAt ⊢
  rw [hSame]
  cases hPc : s.pc u <;> simp only [hPc] at hAt ⊢
  case notifyLock b d =>
    obtain ⟨rfl, rfl, hUnmoved⟩ := hAt
    refine ⟨rfl, rfl, fun step hMem => ?_⟩
    rcases List.mem_append.mp hMem with hOld | hNew
    · exact hUnmoved step hOld
    · rw [List.mem_singleton.mp hNew]
      exact hActor
  case pop b d =>
    obtain ⟨rfl, rfl, hSignal, v, held, hHeld, hList, hCount⟩ := hAt
    rw [hPops, hQue d (by simp [hPc, Pc.locks])]
    exact ⟨rfl, rfl, hSignal, v, _, hLocks v held hHeld, hList, fun t => by rw [hGives, hCount]⟩
  case give b d x =>
    obtain ⟨rfl, rfl, hSignal, v, held, hHeld, hList, hCount⟩ := hAt
    rw [hPops, hQue d (by simp [hPc, Pc.locks])]
    exact ⟨rfl, rfl, hSignal, v, _, hLocks v held hHeld, hList, fun t => by rw [hGives, hCount]⟩
  case notifyUnlock b d =>
    obtain ⟨rfl, rfl, v, held, hServes⟩ := hAt
    exact ⟨rfl, rfl, v, _, hLocks v held hServes.toLocks, by rw [hPops, hServes.popped],
      fun t => by rw [hGives, hPops, hServes.given]⟩
  case idle => exact absurd hPc hInside

/-- The steps of a notifier itself take its call forward. -/
theorem NotifyAt.step_self (hAt : NotifyAt all u c during s) (h : Attentive s (.step u))
    (hNext : next s (.step u) = some s') : NotifyAt all u c (during ++ [(s, .step u)]) s' := by
  unfold NotifyAt at hAt
  cases step_of_next hNext with
  | notifyLock u b d hPc hFree =>
      rw [hPc] at hAt
      obtain ⟨rfl, rfl, hUnmoved⟩ := hAt
      obtain ⟨hPops, hGives⟩ := popsBy_of_unmoved (c := d) hUnmoved
      have hPops' := (popsBy_of_same (c := d) during hNext rfl).trans hPops
      simp only [NotifyAt, St.setPc_pc, Function.update_self, true_and]
      refine ⟨fun _ => hPops', s, [], h.locks hPc hFree hUnmoved, ?_, fun t => ?_⟩
      · rw [hPops']
        rfl
      · rw [givesBy_of_same during hNext rfl, hGives, hPops', List.count_nil]
  | popEmpty u b d hPc hQue =>
      rw [hPc] at hAt
      obtain ⟨rfl, rfl, hSignal, v, held, hHeld, hList, hCount⟩ := hAt
      have hPops := popsBy_of_same (c := d) during hNext rfl
      rw [hQue, List.append_nil] at hList
      simp only [NotifyAt, St.setPc_pc, Function.update_self, true_and]
      refine ⟨v, _, hHeld.snoc_same hNext rfl, ?_, fun t => ?_⟩
      · rw [hPops, hList]
        cases b with
        | false => simp [hSignal rfl]
        | true => rfl
      · rw [givesBy_of_same during hNext rfl, hPops, hCount]
  | popFront u b d front rest hPc hQue =>
      rw [hPc] at hAt
      obtain ⟨rfl, rfl, hSignal, v, held, hHeld, hList, hCount⟩ := hAt
      have hTaken : taken d (s, .step u) = some front := taken_of_cons hNext (by simp [hQue])
      have hPops : popsBy u d (during ++ [(s, .step u)]) = popsBy u d during ++ [front] := by
        rw [popsBy_step, hTaken]
        rfl
      simp only [NotifyAt, St.setPc_pc, Function.update_self, true_and]
      refine ⟨fun hOne => ?_, v, _, hHeld.snoc_same hNext rfl, ?_, fun t => ?_⟩
      · rw [hPops, hSignal hOne]
        rfl
      · rw [hPops, hList, hQue]
        simp
      · rw [givesBy_of_same during hNext rfl, hPops, hCount, List.count_append, List.count_singleton]
        simp only [beq_iff_eq]
  | give u b d x hPc =>
      rw [hPc] at hAt
      obtain ⟨rfl, rfl, hSignal, v, held, hHeld, hList, hCount⟩ := hAt
      have hWaiting := h.gives u b d x rfl hPc
      have hListed : (s.pc x).listed = some d := by simp [Pc.listed, hWaiting]
      have hPops := popsBy_of_same (c := d) during hNext rfl
      have hNotifies : ∀ t, notifies t (s, .step u) ↔ x = t := by
        intro t
        rw [notifies_of_next hNext]
        rcases eq_or_ne x t with rfl | hOther
        · simp
        · simp [hOther, hOther.symm]
      have hGives : ∀ t, givesBy u t (during ++ [(s, .step u)]) =
          (popsBy u d (during ++ [(s, .step u)])).count t := by
        intro t
        rw [givesBy_step, hPops, ← hCount]
        simp only [hNotifies]
      have hLocks := hHeld.snoc (a := .step u) fun _ t hThis => by
        obtain rfl := (hNotifies t).mp hThis
        exact ⟨h.live_of_listed hListed, hWaiting, h.of_give hPc⟩
      cases b with
      | false =>
          simp only [NotifyAt, St.setPc_pc, Function.update_self, Bool.false_eq_true, if_false,
            true_and]
          refine ⟨v, _, hLocks, ?_, hGives⟩
          rw [hPops, hList, hSignal rfl]
          rfl
      | true =>
          simp only [NotifyAt, St.setPc_pc, Function.update_self, if_true, true_and]
          exact ⟨by simp, v, _, hLocks, by rw [hPops, hList]; rfl, hGives⟩
  | notifyUnlock u b d hPc =>
      rw [hPc] at hAt
      obtain ⟨rfl, rfl, v, held, hServes⟩ := hAt
      have hPops := popsBy_of_same (c := d) during hNext rfl
      simp only [NotifyAt, St.setPc_pc, Function.update_self]
      refine ⟨v, _, hServes.toLocks.snoc_same hNext rfl, by rw [hPops, hServes.popped], fun t => ?_⟩
      rw [givesBy_of_same during hNext rfl, hPops, hServes.given]
  | _ => simp_all

/-- The action that calls signal or broadcast. -/
def notify (all : Bool) (u : Task) (c : Cond) : Act Task Cond Mutex :=
  if all then .broadcast u c else .signal u c

/-- Every call of signal or broadcast that came back did what it is for. -/
theorem serves_of_answered {trace : History Task Cond Mutex} {s₀ v : St Task Cond Mutex}
    (run : (system Task Cond Mutex).Run s₀ trace s)
    (hEach : (system Task Cond Mutex).AtEachStep trace fun _ t a _ => Attentive t a)
    (h : Answered u trace s (v, notify all u c) during) :
    ∃ w held, Serves all u c during w held := by
  have hAt : NotifyAt all u c during s := by
    refine h.history run hEach (P := NotifyAt all u c) ?_ ?_
    · intro past t hAttentive hNext
      have hStep : Step v (notify all u c) t := step_of_next hNext
      have hPc : t.pc u = .notifyLock all c := by
        cases all with
        | false =>
            simp only [notify, Bool.false_eq_true, if_false] at hStep
            cases hStep
            simp
        | true =>
            simp only [notify, if_true] at hStep
            cases hStep
            simp
      simp [NotifyAt, hPc]
    · intro past done t a w hMem hInside hAttentive hNext hAt
      have hSpared := h.spared (t, a) hMem
      have hBusy : t.pc u ≠ .idle := by simpa using hInside
      by_cases hActor : a = .step u
      · subst hActor
        exact hAt.step_self hAttentive hNext
      · exact hAt.step_of_ne hAttentive.toAccounted (step_of_next hNext) hActor hSpared hBusy
  have hIdle : s.pc u = .idle := by simpa using h.back
  simpa [NotifyAt, hIdle] using hAt

end Notifiers

end FreeRtos.CondVar
