import FreeRtosCpp11.AttributesLock.Machine

/-! Which attributes reach a new thread. The global pointer remembers only the last
construction or destruction of a lock, and the object only as long as it lives.
So a thread gets the attributes of the innermost lock of its creator exactly as
long as that lock was the last event and its object has not ended. -/
namespace FreeRtos.AttributesLock

open Transition

variable {Task Obj : Type} [DecidableEq Task] [DecidableEq Obj]

/-- The thread gets what its creator holds. -/
structure Intended (c : Config) (s : St Task Obj) (a : Act Task Obj) (s' : St Task Obj) : Prop where
  passes : ∀ t attr, passes c s a = some (t, attr) → attr = s.innermost c t
  tcb : ∀ t u, a = .create t (some u) → s'.tcb u = some (s.innermost c t)

/-- The construction of a lock on an object, or a destruction. -/
def lockEvent : Act Task Obj → Option (Task × Option Obj)
  | .lock t o => some (t, some o)
  | .unlock t => some (t, none)
  | _ => none

/-- The last construction or destruction of a lock, by any task. -/
def lastLock (past : History Task Obj) : Option (Task × Option Obj) :=
  (past.filterMap fun step => lockEvent step.2).getLast?

/-- At a creation, the last lock event is the construction of the creator's own
innermost lock, and the object given to it lives, or no construction if it holds
none. -/
def undisturbed (past : History Task Obj) (s : St Task Obj) : Act Task Obj → Bool
  | .create t _ => match (s.locks t).head? with
      | none => (lastLock past).all fun event => event.2.isNone
      | some o => (lastLock past).any (fun event => event.1 == t && event.2.isSome) && s.life o == .during
  | _ => true

variable {c : Config} {s s' : St Task Obj} {a : Act Task Obj} {past : History Task Obj}

omit [DecidableEq Task] [DecidableEq Obj] in
theorem lastLock_snoc (past : History Task Obj) (s : St Task Obj) (a : Act Task Obj) :
    lastLock (past ++ [(s, a)]) = (lockEvent a).or (lastLock past) := by
  simp only [lastLock, List.filterMap_append, List.getLast?_append, List.filterMap_cons, List.filterMap_nil]
  cases lockEvent a <;> rfl

/-- The pointer and the locks follow the last event, and the memory the objects. -/
structure Follows (past : History Task Obj) (s : St Task Obj) : Prop where
  attrib : s.attrib = (lastLock past).bind Prod.snd
  head : ∀ t o, lastLock past = some (t, some o) → (s.locks t).head? = some o
  memory : ∀ o, s.life o = .during → s.memory o = s.value o

omit [DecidableEq Task] [DecidableEq Obj] in
theorem Follows.start (hStart : Start s) : Follows [] s where
  attrib := hStart.attrib
  head _ _ hLast := by simp [lastLock] at hLast
  memory o hDuring := by simp [hStart.life o] at hDuring

theorem Follows.memory_step (h : Follows past s) (hStep : Step c s a s') (o : Obj)
    (hDuring : s'.life o = .during) : s'.memory o = s'.value o := by
  cases hStep with
  | init t x attr _ _ =>
      rcases eq_or_ne o x with rfl | hNe
      · simp
      · simpa [hNe] using h.memory o (by simpa [hNe] using hDuring)
  | write t x attr _ _ =>
      rcases eq_or_ne o x with rfl | hNe
      · have hLives : s.life o = .during := hDuring
        simp [St.write, hLives]
      · have hValue : (s.write x attr).value o = s.value o := by
          rw [St.write]
          split <;> simp [hNe]
        rw [hValue, ← h.memory o hDuring]
        simp [St.write, hNe]
  | finish t x _ _ =>
      rcases eq_or_ne o x with rfl | hNe
      · simp at hDuring
      · exact h.memory o (by simpa [hNe] using hDuring)
  | _ => exact h.memory o hDuring

theorem Follows.step (h : Follows past s) (hStep : Step c s a s') : Follows (past ++ [(s, a)]) s' := by
  refine ⟨?_, fun t o hLast => ?_, h.memory_step hStep⟩
  · rw [lastLock_snoc]
    cases hStep with
    | lock | unlock => rfl
    | _ => exact h.attrib
  · rw [lastLock_snoc] at hLast
    cases hStep with
    | lock u own _ _ =>
        simp only [lockEvent, Option.some_or, Option.some.injEq, Prod.mk.injEq] at hLast
        obtain ⟨rfl, rfl⟩ := hLast
        simp [St.lock]
    | unlock u _ _ => simp [lockEvent] at hLast
    | _ => exact h.head t o hLast

omit [DecidableEq Obj] in
/-- A creation after its own lock's construction passes that lock's attributes. -/
theorem Follows.attr_of_undisturbed (h : Follows past s) {t : Task} {new : Option Task}
    (hLast : undisturbed past s (.create t new) = true) : s.attr c = s.innermost c t := by
  rw [St.attr, St.innermost, h.attrib]
  cases hHead : (s.locks t).head? with
  | none =>
      simp only [undisturbed, hHead] at hLast
      match hEvent : lastLock past with
      | none | some (u, none) => rfl
      | some (u, some o) => simp [hEvent] at hLast
  | some o =>
      simp only [undisturbed, hHead, Bool.and_eq_true, beq_iff_eq] at hLast
      obtain ⟨hOwn, hLife⟩ := hLast
      match hEvent : lastLock past with
      | none | some (u, none) => simp [hEvent] at hOwn
      | some (u, some x) =>
          obtain rfl : u = t := by simpa [hEvent] using hOwn
          obtain rfl : x = o := Option.some.inj ((h.head u x hEvent).symm.trans hHead)
          exact h.memory x hLife

theorem Follows.intended (h : Follows past s) (hStep : Step c s a s')
    (hLast : undisturbed past s a = true) : Intended c s a s' := by
  refine ⟨fun t attr hPasses => ?_, fun t u hCreate => ?_⟩
  · cases hStep with
    | terminate t hRuns | create t u hRuns hNew =>
        simp only [AttributesLock.passes, Option.some.injEq, Prod.mk.injEq] at hPasses
        obtain ⟨rfl, rfl⟩ := hPasses
        exact h.attr_of_undisturbed hLast
    | _ => simp [AttributesLock.passes] at hPasses
  · subst hCreate
    cases hStep with
    | create _ _ hRuns hNew =>
        rw [← h.attr_of_undisturbed hLast]
        simp [St.xTaskCreate]

section Runs

variable {trace : History Task Obj}

/-- In every run, on every port: where each creation comes with its own lock as
the last event and the object of that lock lives, each thread gets the attributes
of the innermost lock of its creator, or the default ones if there is none. -/
theorem intended_of_undisturbed (hReaches : (system Task Obj c).Reaches trace s)
    (hLast : (system Task Obj c).AtEachStep trace fun past t a _ => undisturbed past t a) :
    (system Task Obj c).AtEachStep trace fun _ => Intended c := by
  obtain ⟨s₀, hStart, hRun⟩ := hReaches
  exact hRun.atEachStep_mono hLast (Follows.start hStart)
    (fun past t a u h _ hNext => h.step (step_of_next hNext))
    fun past t a u h hHere hNext => h.intended (step_of_next hNext) hHere

end Runs

section Deferred

variable {trace : History Task Obj}

/-- No task constructs a lock inside another one, or ends the object of its lock. -/
def unnested (s : St Task Obj) : Act Task Obj → Bool
  | .lock t _ => (s.locks t).isEmpty
  | .finish t o => !(s.locks t).contains o
  | _ => true

/-- Where nothing switches inside a critical section, only the running task is in
one, and its lock is the last event. -/
structure Exclusive (past : History Task Obj) (s : St Task Obj) : Prop where
  others : ∀ t, s.running = some t → ∀ u, u ≠ t → s.critical u = false
  depth : ∀ t, (s.locks t).length ≤ 1
  held : ∀ t, s.locks t ≠ [] → ∃ o, lastLock past = some (t, some o)
  free : (∀ t, s.locks t = []) → ∀ event, lastLock past = some event → event.2 = none
  alive : ∀ t, ∀ o ∈ s.locks t, s.life o = .during

omit [DecidableEq Task] [DecidableEq Obj] in
theorem Exclusive.start (hStart : Start s) : Exclusive [] s where
  others _ _ u _ := by simp [St.critical, hStart.locks, hStart.creating]
  depth t := by simp [hStart.locks]
  held t hHeld := absurd (hStart.locks t) hHeld
  free _ event hLast := by simp [lastLock] at hLast
  alive t o hMem := by simp [hStart.locks] at hMem

omit [DecidableEq Obj] in
theorem runs_iff {t : Task} : s.runs t = true ↔ s.running = some t ∧ s.creating t = false := by
  simp [St.runs]

omit [DecidableEq Task] [DecidableEq Obj] in
theorem locks_of_not_critical {t : Task} (hFree : s.critical t = false) : s.locks t = [] := by
  simp only [St.critical, Bool.or_eq_false_iff, Bool.not_eq_false', List.isEmpty_iff] at hFree
  exact hFree.2

omit [DecidableEq Obj] in
/-- The running task has constructed its only lock, or destroyed it. -/
theorem Exclusive.lock_step (h : Exclusive past s) {t : Task} {event : Option Obj}
    (hEvent : lockEvent a = some (t, event)) (hRunning : s.running = some t)
    (hLocks : s'.locks = Function.update s.locks t event.toList) (hRest : s'.running = s.running)
    (hCreating : s'.creating = s.creating) (hLife : s'.life = s.life)
    (hAlive : ∀ o, event = some o → s.life o = .during) : Exclusive (past ++ [(s, a)]) s' := by
  have hOut : ∀ u, u ≠ t → s.locks u = [] := fun u hNe => locks_of_not_critical (h.others t hRunning u hNe)
  have hOwn : s'.locks t = event.toList := by simp [hLocks]
  have hNone : ∀ u, u ≠ t → s'.locks u = [] := fun u hNe => by simp [hLocks, hNe, hOut u hNe]
  refine ⟨fun v hOther u hNe => ?_, fun u => ?_, fun u hMine => ?_, fun hEmpty last hLast => ?_,
    fun u o hMem => ?_⟩
  · rw [hRest, hRunning, Option.some.injEq] at hOther
    subst hOther
    simpa [St.critical, hCreating, hLocks, hNe] using h.others t hRunning u hNe
  · rcases eq_or_ne u t with rfl | hNe
    · rw [hOwn]
      cases event <;> simp
    · simp [hNone u hNe]
  · rcases eq_or_ne u t with rfl | hNe
    · cases event with
      | none => exact absurd hOwn hMine
      | some o => exact ⟨o, by rw [lastLock_snoc, hEvent, Option.some_or]⟩
    · exact absurd (hNone u hNe) hMine
  · rw [lastLock_snoc, hEvent, Option.some_or, Option.some.injEq] at hLast
    rw [← hLast]
    exact Option.toList_eq_nil_iff.mp (hOwn.symm.trans (hEmpty t))
  · rcases eq_or_ne u t with rfl | hNe
    · rw [hOwn, Option.mem_toList] at hMem
      exact hLife ▸ hAlive o hMem
    · simp [hNone u hNe] at hMem

omit [DecidableEq Task] [DecidableEq Obj] in
/-- A step that neither constructs nor destroys a lock. -/
theorem Exclusive.rest (h : Exclusive past s) (hEvent : lockEvent a = none) (hLocks : s'.locks = s.locks)
    (hOthers : ∀ t, s'.running = some t → ∀ u, u ≠ t → s'.critical u = false)
    (hAlive : ∀ t, ∀ o ∈ s.locks t, s'.life o = .during) : Exclusive (past ++ [(s, a)]) s' := by
  refine ⟨hOthers, ?_, ?_, ?_, ?_⟩
  · exact hLocks ▸ h.depth
  · rw [lastLock_snoc, hEvent, hLocks]
    exact h.held
  · rw [lastLock_snoc, hEvent, hLocks]
    exact h.free
  · exact hLocks ▸ hAlive

theorem Exclusive.step (h : Exclusive past s) (hPort : c.port = .deferred) (hStep : Step c s a s')
    (hFlat : unnested s a = true) : Exclusive (past ++ [(s, a)]) s' := by
  cases hStep with
  | init t o attr hRuns hBefore =>
      refine h.rest rfl rfl h.others fun u x hMem => ?_
      have hNe : x ≠ o := fun hEq => by simpa [hEq, hBefore] using h.alive u x hMem
      simpa [hNe] using h.alive u x hMem
  | write => exact h.rest rfl rfl h.others h.alive
  | finish t o hRuns hDuring =>
      refine h.rest rfl rfl h.others fun u x hMem => ?_
      have hNe : x ≠ o := fun hEq => by
        subst hEq
        rcases eq_or_ne u t with rfl | hOther
        · simp [unnested, hMem] at hFlat
        · simp [locks_of_not_critical (h.others t (runs_iff.mp hRuns).1 u hOther)] at hMem
      simpa [hNe] using h.alive u x hMem
  | lock t o hRuns hDuring =>
      have hNone : s.locks t = [] := List.isEmpty_iff.mp hFlat
      exact h.lock_step rfl (runs_iff.mp hRuns).1 (by simp [St.lock, hNone]) rfl rfl rfl
        fun x hSame => Option.some.inj hSame ▸ hDuring
  | unlock t hRuns hHeld =>
      have hTail : (s.locks t).tail = [] := List.length_eq_zero_iff.mp (by
        have hDepth := h.depth t
        rw [List.length_tail]
        omega)
      exact h.lock_step rfl (runs_iff.mp hRuns).1 (by simp [St.unlock, hTail]) rfl rfl rfl
        fun x hNothing => by cases hNothing
  | terminate t hRuns => exact h.rest rfl rfl (fun u hNobody => by cases hNobody) h.alive
  | create t u hRuns hNew =>
      refine h.rest rfl rfl (fun v hRunning w hNe => ?_) h.alive
      obtain rfl : t = v := by simpa [St.xTaskCreate, hPort] using hRunning
      simpa [St.critical, St.xTaskCreate, hNe] using h.others t (runs_iff.mp hRuns).1 w hNe
  | created t hRunning hCreating =>
      refine h.rest rfl rfl (fun v hSame w hNe => ?_) h.alive
      have hOld : s.critical w = false := h.others v hSame w hNe
      rcases eq_or_ne w t with rfl | hApart
      · rw [hRunning, Option.some.injEq] at hSame
        exact absurd hSame hNe
      · simpa [St.critical, hApart] using hOld
  | switch t u hRunning hYield =>
      refine h.rest rfl rfl (fun v hSwitched w hNe => ?_) h.alive
      have hOut : s.critical t = false := by simpa [hPort] using hYield
      rcases eq_or_ne w t with rfl | hApart
      · exact hOut
      · exact h.others t hRunning w hApart

/-- A creation finds its own lock as the last event, and the object alive. -/
theorem Exclusive.undisturbed (h : Exclusive past s) (hStep : Step c s a s') :
    undisturbed past s a = true := by
  cases hStep with
  | terminate t hRuns | create t u hRuns hNew =>
      simp only [AttributesLock.undisturbed]
      cases hHead : (s.locks t).head? with
      | none =>
          have hFree : ∀ u, s.locks u = [] := fun u => by
            rcases eq_or_ne u t with rfl | hNe
            · exact List.head?_eq_none_iff.mp hHead
            · exact locks_of_not_critical (h.others t (runs_iff.mp hRuns).1 u hNe)
          cases hLast : lastLock past with
          | none => rfl
          | some event => simp [h.free hFree event hLast]
      | some o =>
          have hMem : o ∈ s.locks t := List.mem_of_mem_head? hHead
          obtain ⟨x, hLast⟩ := h.held t (List.ne_nil_of_mem hMem)
          simp [hLast, h.alive t o hMem]
  | _ => rfl

/-- On the Cortex-M ports the condition holds by itself as long as no task nests
its locks or ends their objects before them. -/
theorem undisturbed_of_unnested (hPort : c.port = .deferred) (hReaches : (system Task Obj c).Reaches trace s)
    (hFlat : Guarded unnested trace) :
    (system Task Obj c).AtEachStep trace fun past t a _ => AttributesLock.undisturbed past t a := by
  obtain ⟨s₀, hStart, hRun⟩ := hReaches
  exact hRun.atEachStep hFlat (Exclusive.start hStart)
    (fun past t a u h hHere hNext => h.step hPort (step_of_next hNext) hHere)
    fun past t a u h _ hNext => h.undisturbed (step_of_next hNext)

end Deferred

/-- Task 0 runs alone; it was created with the default attributes. -/
def boot (c : Config) : St Nat Nat where
  attrib := none
  memory _ := c.default
  life _ := .before
  value _ := c.default
  locks _ := []
  creating _ := false
  tcb t := if t = 0 then some c.default else none
  running := some 0

theorem boot_start (c : Config) : Start (boot c) := ⟨rfl, fun _ => rfl, fun _ => rfl, fun _ => rfl⟩

/-- `attr_stack_size(1024)`. -/
def bigStack (c : Config) : Attributes := { c.default with stackWordCount := 1024 }

/-- `attr_priority(3)`. -/
def urgent (c : Config) : Attributes := { c.default with priority := 3 }

/-- `std_thread` with a temporary, whose memory is used again after the call, then
a switch, a thread without attributes and one with a variable. -/
def customThenPlain (c : Config) : List (Act Nat Nat) :=
  [.init 0 0 (bigStack c), .lock 0 0, .create 0 (some 1), .created 0, .unlock 0, .finish 0 0,
    .write 0 0 (urgent c), .switch 0 1, .create 1 (some 2), .created 1, .init 1 1 c.default,
    .write 1 1 (urgent c), .lock 1 1, .create 1 (some 3), .created 1, .unlock 1, .switch 1 0,
    .create 0 (some 4)]

/-- A lock inside a lock: after the inner one ends, the outer one selects nothing. -/
def innerEnds (c : Config) : List (Act Nat Nat) :=
  [.init 0 0 (bigStack c), .lock 0 0, .init 0 1 (urgent c), .lock 0 1, .create 0 (some 1), .created 0,
    .unlock 0]

def cortex : Config := ⟨.deferred, 5, none⟩

theorem intended_customThenPlain :
    ∃ s, (system Nat Nat cortex).exec (boot cortex) (customThenPlain cortex) = some s ∧
      (system Nat Nat cortex).AtEachStep
        ((system Nat Nat cortex).replay (boot cortex) (customThenPlain cortex)) fun _ => Intended cortex :=
  ⟨_, rfl, intended_of_undisturbed
    ⟨_, boot_start cortex, System.run_of_exec (customThenPlain cortex) rfl⟩
    (System.atEachStep_of_take (by decide))⟩

/-- The thread created under the outer lock gets the default attributes. -/
theorem innerEnds_default :
    ¬ ∀ c trace s, (system Nat Nat c).Reaches trace s →
      (system Nat Nat c).AtEachStep trace fun _ => Intended c := by
  intro hClaim
  have hRun : (system Nat Nat cortex).Reaches _ _ :=
    ⟨_, boot_start cortex,
      (System.run_of_exec (innerEnds cortex) rfl).snoc (a := .create 0 (some 2)) rfl⟩
  have hPasses := (hClaim _ _ _ hRun _ _ _ [] rfl _ rfl).passes 0 _ rfl
  exact absurd hPasses (by decide)

/-- With a trap that switches at once, the new task runs under its creator's lock,
and its own threads get the attributes of a lock that it does not hold. -/
example : let c : Config := ⟨.synchronous, 5, none⟩
    ∃ s, (system Nat Nat c).exec (boot c) [.init 0 0 (urgent c), .lock 0 0, .create 0 (some 1)] = some s ∧
      passes c s (.create 1 (some 2)) = some (1, urgent c) ∧ s.innermost c 1 = c.default :=
  ⟨_, rfl, by decide, by decide⟩

/-- The temporary of `lock{{.stackWordCount = 1024}}` has ended when the thread is
created, and its place in the stack holds something else. -/
example : ∃ s, (system Nat Nat cortex).exec (boot cortex)
      [.init 0 0 (bigStack cortex), .lock 0 0, .finish 0 0, .write 0 0 (urgent cortex)] = some s ∧
    passes cortex s (.create 0 (some 1)) = some (0, urgent cortex) ∧ s.innermost cortex 0 = bigStack cortex :=
  ⟨_, rfl, by decide, by decide⟩

end FreeRtos.AttributesLock
