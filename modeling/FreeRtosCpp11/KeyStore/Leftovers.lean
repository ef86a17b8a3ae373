import FreeRtosCpp11.KeyStore.Variables

/-! What a thread leaves to the next one under its handle. `CallDestructor` erases
the entry once and then runs the destructor, which may store again. A thread
that is deleted from outside does not come to `CallDestructor` at all. -/
namespace FreeRtos.KeyStore

open Transition

variable {Thread Handle Value : Type} [DecidableEq Thread] [DecidableEq Handle]

/-- A destructor that stored a value under the key has set it back to null when
it returns, and so has a thread that is deleted. -/
def clearsUp (past : History Thread Handle Value) : Act Thread Value → Bool
  | .desFooReturns t | .delete t => ((vars past).value t).isNone
  | _ => true

/-- No thread finds the value of another one. -/
structure StartsNull [DecidableEq Value] (handle : Thread → Handle) (desFoo : Bool)
    (past : History Thread Handle Value) (s : St Thread Handle Value) (a : Act Thread Value) (s' : St Thread Handle Value) : Prop where
  exited : ∀ t, s'.phase t = .exited → s'.specValue (handle t) = none
  free : ∀ h, s'.occupant h = none → s'.specValue h = none
  first : ∀ t, a = .getspecific t → (∀ ptr, .setspecific t ptr ∉ past.map Prod.snd) →
    s.getspecific (handle t) = none
  own : ∀ t v, invokes handle desFoo t (s, a) = some v → .setspecific t (some v) ∈ past.map Prod.snd

/-- Every entry belongs to a thread that may still come to the key. -/
def Owned (s : St Thread Handle Value) : Prop :=
  ∀ h, s.specValue h ≠ none → ∃ t, s.occupant h = some t ∧ (s.phase t).inUserCode = true

variable {handle : Thread → Handle} {desFoo : Bool} {s s' : St Thread Handle Value} {a : Act Thread Value}
  {past : History Thread Handle Value}

omit [DecidableEq Handle] in
/-- The variable of a thread and what exit processing took are values it set. -/
theorem setspecific_of_vars (past : History Thread Handle Value) (t : Thread) (v : Value)
    (hVars : (vars past).value t = some v ∨ (vars past).taken t = some v) :
    .setspecific t (some v) ∈ past.map Prod.snd := by
  induction past using List.reverseRecOn with
  | nil => simp [vars] at hVars
  | append_singleton past step ih =>
      obtain ⟨s, a⟩ := step
      rw [vars_snoc] at hVars
      rw [List.map_append, List.mem_append]
      cases a with
      | setspecific u ptr =>
          rcases eq_or_ne t u with rfl | hNe
          · simp only [Variables.step, Function.update_self] at hVars
            rcases hVars with rfl | hTaken
            · exact .inr (by simp)
            · exact .inl (ih (.inr hTaken))
          · exact .inl (ih (by simpa [Variables.step, hNe] using hVars))
      | callDestructor u =>
          rcases eq_or_ne t u with rfl | hNe
          · exact .inl (ih (.inl (by simpa [Variables.step] using hVars)))
          · exact .inl (ih (by simpa [Variables.step, hNe] using hVars))
      | _ => exact .inl (ih hVars)

omit [DecidableEq Handle] in
theorem value_of_not_set (past : History Thread Handle Value) (t : Thread)
    (hNone : ∀ ptr, .setspecific t ptr ∉ past.map Prod.snd) : (vars past).value t = none := by
  cases hValue : (vars past).value t with
  | none => rfl
  | some v => exact absurd (setspecific_of_vars past t v (.inl hValue)) (hNone (some v))

omit [DecidableEq Thread] [DecidableEq Handle] in
/-- A thread that may not come to the key any more owns no entry, so that whatever
happens to its phase and its handle, every entry keeps its owner. -/
theorem Owned.keep (h : Owned s) {t : Thread} (hPhase : ∀ u, u ≠ t → s'.phase u = s.phase u)
    (hOccupant : ∀ x u, u ≠ t → s.occupant x = some u → s'.occupant x = some u)
    (hEntry : ∀ x, s'.specValue x ≠ none → s.specValue x ≠ none)
    (hOwner : ∀ x, s'.specValue x ≠ none → s.occupant x = some t → (s.phase t).inUserCode = false) :
    Owned s' := by
  intro x hFind
  obtain ⟨u, hAt, hUser⟩ := h x (hEntry x hFind)
  have hNe : u ≠ t := fun hEq => by
    subst hEq
    rw [hOwner x hFind hAt] at hUser
    cases hUser
  exact ⟨u, hOccupant x u hNe hAt, (hPhase u hNe) ▸ hUser⟩

theorem Mirrors.taken_of_invokes [DecidableEq Value] (h : Mirrors handle past s)
    (hNext : next handle desFoo s a = some s') {t : Thread} {v : Value}
    (hInvokes : invokes handle desFoo t (s, a) = some v) : (vars past).taken t = some v := by
  have hInvoked : invoked s s' t = some v := by simpa [invokes, hNext] using hInvokes
  have hPhase : s'.phase t ≠ s.phase t := fun hEq => by simp [invoked_of_eq hEq] at hInvoked
  cases step_of_next hNext with
  | invoke u w hErased hDesFoo =>
      obtain rfl : t = u := Classical.byContradiction fun hNe => hPhase (by simp [hNe])
      have hSame : w = v := by simpa [invoked, hErased, Phase.argument] using hInvoked
      exact hSame ▸ (h.erased t _ hErased).symm
  | getspecific | setspecific => exact absurd rfl hPhase
  | _ u =>
      obtain rfl : t = u := Classical.byContradiction fun hNe => hPhase (by simp [hNe])
      simp [invoked, Phase.argument] at hInvoked

omit [DecidableEq Handle] in
/-- A thread has no entry exactly if its variable is null. -/
theorem Mirrors.absent_iff (h : Mirrors handle past s) {t : Thread} (hLive : (s.phase t).live = true) :
    s.specValue (handle t) = none ↔ ((vars past).value t).isNone = true := by
  rw [Option.isNone_iff_eq_none, ← h.value t hLive]
  exact ⟨fun hAbsent => by rw [St.getspecific, hAbsent], h.absent_of_null⟩

/-- A thread that gives its handle back owns no entry there. -/
theorem Owned.free (h : Owned s) (hMirrors : Mirrors handle past s) {t : Thread}
    (hLive : (s.phase t).live = true)
    (hNone : (s.phase t).inUserCode = true → s.specValue (handle t) = none) :
    Owned (s.free t (handle t)) := by
  have hOwner := (hMirrors.occupied (handle t) t).mpr ⟨rfl, hLive⟩
  refine h.keep (t := t) (fun u hNe => by simp [hNe]) (fun x u hOther hAt => ?_)
    (fun _ hEntry => hEntry) fun x hEntry hAt => Bool.eq_false_iff.mpr fun hUser => ?_
  · have hNe : x ≠ handle t := fun hEq => by
      rw [hEq, hOwner] at hAt
      exact hOther (Option.some.inj hAt).symm
    simpa [St.free, hNe] using hAt
  · rw [← ((hMirrors.occupied x t).mp hAt).1] at hEntry
    exact hEntry (hNone hUser)

theorem Owned.step (h : Owned s) (hMirrors : Mirrors handle past s)
    (hStep : Step handle desFoo s a s') (hClears : clearsUp past a = true) : Owned s' := by
  have hOwns : ∀ {x t}, s.occupant x = some t → handle t = x :=
    fun hAt => ((hMirrors.occupied _ _).mp hAt).1
  cases hStep with
  | getspecific => exact h
  | setspecific t ptr hUser =>
      intro x hFind
      rcases eq_or_ne x (handle t) with rfl | hNe
      · exact ⟨t, (hMirrors.occupied _ _).mpr ⟨rfl, live_of_inUserCode hUser⟩, hUser⟩
      · exact h x (by simpa [St.setspecific, hNe] using hFind)
  | create t hUnborn hFree =>
      refine h.keep (t := t) (fun u hNe => by simp [St.setPhase, hNe]) (fun x u _ hAt => ?_)
        (fun _ hFind => hFind) fun _ _ _ => by simp [hUnborn, Phase.inUserCode]
      have hNe : x ≠ handle t := fun hEq => by
        rw [hEq, hFree] at hAt
        cases hAt
      simpa [hNe] using hAt
  | absent t hRunning hFind =>
      refine h.keep (t := t) (fun u hNe => by simp [St.setPhase, hNe]) (fun _ _ _ hAt => hAt)
        (fun _ hEntry => hEntry) fun x hEntry hAt => ?_
      rw [← hOwns hAt] at hEntry
      exact absurd hFind hEntry
  | erase t val hRunning hFind =>
      refine h.keep (t := t) (fun u hNe => by simp [St.setPhase, hNe]) (fun _ _ _ hAt => hAt)
        (fun x hEntry hNone => ?_) fun x hEntry hAt => ?_
      · simp [Function.update_apply, hNone] at hEntry
      · simp [hOwns hAt] at hEntry
  | invoke t v hErased _ | skip t val hErased _ =>
      exact h.keep (t := t) (fun u hNe => by simp [St.setPhase, hNe]) (fun _ _ _ hAt => hAt)
        (fun _ hEntry => hEntry) fun _ _ _ => by simp [hErased, Phase.inUserCode]
  | desFooReturns t v hDestructing =>
      refine h.keep (t := t) (fun u hNe => by simp [hNe]) (fun _ _ _ hAt => hAt)
        (fun _ hEntry => hEntry) fun x hEntry hAt => ?_
      rw [← hOwns hAt] at hEntry
      exact absurd ((hMirrors.absent_iff (by simp [hDestructing, Phase.live])).mpr hClears) hEntry
  | reclaim t hExited =>
      exact h.free hMirrors (by simp [hExited, Phase.live]) fun hUser => by simp [hExited, Phase.inUserCode] at hUser
  | delete t hLive => exact h.free hMirrors hLive fun _ => (hMirrors.absent_iff hLive).mpr hClears

/-- Where every entry has an owner, a new thread finds none under its handle. -/
theorem Owned.startsEmpty (h : Owned s) (hStep : Step handle desFoo s a s') :
    startsEmpty handle s a = true := by
  cases hStep with
  | create t _ hFree =>
      refine Option.isNone_iff_eq_none.mpr (Classical.byContradiction fun hFind => ?_)
      obtain ⟨u, hAt, _⟩ := h _ hFind
      rw [hFree] at hAt
      cases hAt
  | _ => rfl

/-- Nothing is left over: the variables are in the map and every entry has an owner. -/
structure Tidy (handle : Thread → Handle) (past : History Thread Handle Value)
    (s : St Thread Handle Value) : Prop extends Mirrors handle past s where
  owned : Owned s

theorem Tidy.step (h : Tidy handle past s) (hStep : Step handle desFoo s a s')
    (hClears : clearsUp past a = true) : Tidy handle (past ++ [(s, a)]) s' :=
  ⟨h.toMirrors.step hStep (h.owned.startsEmpty hStep), h.owned.step h.toMirrors hStep hClears⟩

omit [DecidableEq Handle] in
theorem Tidy.start (hStart : Start s) : Tidy handle [] s :=
  ⟨Mirrors.start hStart, fun x hFind => absurd (hStart.specValue x) hFind⟩

section Runs

variable [DecidableEq Value]

theorem Tidy.startsNull_iff (h : Tidy handle past s) (hNext : next handle desFoo s a = some s') :
    StartsNull handle desFoo past s a s' ↔ clearsUp past a = true := by
  have hStep := step_of_next hNext
  constructor
  · intro hStarts
    cases hStep with
    | desFooReturns t v hDestructing =>
        exact (h.absent_iff (by simp [hDestructing, Phase.live])).mp (hStarts.exited t (by simp))
    | delete t hLive => exact (h.absent_iff hLive).mp (hStarts.free (handle t) (by simp [St.free]))
    | _ => rfl
  · intro hClears
    have hAfter := h.step hStep hClears
    refine ⟨fun t hExited => Classical.byContradiction fun hFind => ?_,
      fun x hFree => Classical.byContradiction fun hFind => ?_, fun t hGet hNone => ?_, fun t v hInvokes => ?_⟩
    · obtain ⟨u, hAt, hUser⟩ := hAfter.owned _ hFind
      have hOwner := (hAfter.occupied (handle t) t).mpr ⟨rfl, by simp [hExited, Phase.live]⟩
      rw [hAt] at hOwner
      rw [Option.some.inj hOwner, hExited] at hUser
      cases hUser
    · obtain ⟨u, hAt, _⟩ := hAfter.owned x hFind
      rw [hFree] at hAt
      cases hAt
    · subst hGet
      cases hStep with
      | getspecific _ hUser =>
          have hNull : s.getspecific (handle t) = none :=
            (h.value t (live_of_inUserCode hUser)).trans (value_of_not_set past t hNone)
          exact hNull
    · exact setspecific_of_vars past t v (.inr (h.taken_of_invokes hNext hInvokes))

/-- Along exactly those runs in which every destructor clears what it stored, and
so has every thread that is deleted, an ended thread leaves no entry, a new one
starts with null, and a destructor gets a value of its own thread. -/
theorem startsNull_iff_clearsUp {trace : History Thread Handle Value}
    (hReaches : (system handle desFoo).Reaches trace s) :
    (system handle desFoo).AtEachStep trace (StartsNull handle desFoo) ↔
      (system handle desFoo).AtEachStep trace fun past _ a _ => clearsUp past a := by
  obtain ⟨s₀, hStart, hRun⟩ := hReaches
  exact hRun.atEachStep_congr (Tidy.start hStart)
    (fun past t a u h hClears hNext => h.step (step_of_next hNext) hClears)
    fun past t a u h hNext => h.startsNull_iff hNext

end Runs

/-- The destructor of thread 0 stores and clears; the next thread under the handle
sets a value and exits, and the last one clears its own and is deleted. -/
def clearedAtExit : List (Act Nat Nat) :=
  [.create 0, .setspecific 0 (some 5), .callDestructor 0, .desFoo 0, .setspecific 0 (some 6),
    .getspecific 0, .setspecific 0 none, .desFooReturns 0, .reclaim 0, .create 1, .getspecific 1,
    .setspecific 1 (some 7), .callDestructor 1, .desFoo 1, .desFooReturns 1,
    .reclaim 1, .create 2, .setspecific 2 (some 8), .setspecific 2 none, .delete 2]

theorem startsNull_clearedAtExit :
    ∃ s, (system (fun _ : Nat => 0) true).exec (St.initial : St Nat Nat Nat) clearedAtExit = some s ∧
      (system (fun _ : Nat => 0) true).AtEachStep
        ((system (fun _ : Nat => 0) true).replay St.initial clearedAtExit) (StartsNull (fun _ => 0) true) :=
  ⟨_, rfl, (startsNull_iff_clearsUp
    ⟨_, St.initial_start, System.run_of_exec clearedAtExit rfl⟩).mpr (System.atEachStep_of_take (by decide))⟩

/-- The entry that the destructor stored stays after its thread has ended. -/
theorem entry_remains :
    ¬ ∀ (handle : Nat → Nat) desFoo trace (s : St Nat Nat Nat), (system handle desFoo).Reaches trace s →
      (system handle desFoo).AtEachStep trace (StartsNull handle desFoo) := by
  intro hClaim
  have hRun : (system (fun _ : Nat => 0) true).Reaches _ _ :=
    ⟨St.initial, St.initial_start,
      (System.run_of_exec storedAtExit rfl).snoc (a := .getspecific 1) rfl⟩
  have hCreated : ∀ act ∈ ((system (fun _ : Nat => 0) true).replay
      (St.initial : St Nat Nat Nat) storedAtExit).map Prod.snd, act.thread = 1 → act = .create 1 := by decide
  have hFirst := (hClaim _ _ _ _ hRun _ _ _ [] rfl _ rfl).first 1 rfl
    fun ptr hMem => by simpa using hCreated _ hMem rfl
  exact absurd hFirst (by decide)

end FreeRtos.KeyStore
