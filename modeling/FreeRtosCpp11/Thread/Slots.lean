import FreeRtosCpp11.Thread.Body

/-! The thread-local slots, through which an exiting task finds the event group
that its join waits for. -/
namespace FreeRtos.Thread

set_option linter.unusedSectionVars false

variable {Handle Addr : Type} [DecidableEq Handle] [DecidableEq Addr]

/-- The slot of a live task holds a group that exists, of a thread that was
created under the same handle. -/
def Slots (s : St Handle Addr) : Prop :=
  ∀ j e, s.life j = .alive → s.tls j = some e →
    (∃ h, s.handle j = some h ∧ s.handle e = some h) ∧ s.life e ≠ .unborn ∧ s.deletes e = 0

section Steps

variable {port : Port} {s s' : St Handle Addr} {act : Act Handle Addr}

theorem Found.unique {a : Addr} {h h' : Handle} {i j : Nat} (hFirst : Found s a h i)
    (hSecond : Found s a h' j) : i = j := by
  have hSame : h = h' := Option.some.inj (hFirst.handle.symm.trans hSecond.handle)
  exact Option.some.inj (hFirst.occupant.symm.trans (hSame ▸ hSecond.occupant))

/-- A live task whose slot holds the group of an object is found under its handle. -/
theorem Slots.found (hSlots : Slots s) (h : Coherent s) {a : Addr} {j k : Nat}
    (hEv : (s.hnd (.obj a)).evHandle = some k) (hAlive : s.life j = .alive)
    (hTls : s.tls j = some k) : ∃ hdl, Found s a hdl j := by
  obtain ⟨⟨hdl, hHandle, hSame⟩, -, -⟩ := hSlots j k hAlive hTls
  have hTask := (h.objects.shape (.obj a) k hEv).1
  exact ⟨hdl, hTask.trans hSame, h.kernel.found hdl j hHandle (.inl hAlive), by simp [hAlive]⟩

/-- A step that fills no slot, and deletes no group that a slot still holds. -/
theorem Slots.keep (hSlots : Slots s) (h : Coherent s) (hStep : Step port s act s')
    (hTls : ∀ j, s'.life j = .alive → s'.tls j = none ∨ s.life j = .alive ∧ s'.tls j = s.tls j)
    (hDeletes : ∀ j e, s.life j = .alive → s'.life j = .alive → s.tls j = some e →
      s'.tls j = some e → s'.deletes e = s.deletes e) : Slots s' := by
  intro j e hAlive hSome
  obtain hNone | ⟨hLive, hSame⟩ := hTls j hAlive
  · rw [hNone] at hSome
    cases hSome
  · have hHeld : s.tls j = some e := hSame.symm.trans hSome
    obtain ⟨⟨hdl, hHandle, hMade⟩, hBorn, hZero⟩ := hSlots j e hLive hHeld
    have hThread := (h.recorded hStep (k := j) (by simp [hLive])).2.2
    have hGroup := (h.recorded hStep hBorn).2.2
    refine ⟨⟨hdl, hThread.trans hHandle, hGroup.trans hMade⟩, h.born hStep hBorn, ?_⟩
    rw [hDeletes j e hLive hAlive hHeld hSome, hZero]

theorem update_alive {life : Nat → Life} {i j : Nat} {l : Life} (hNot : l ≠ .alive)
    (hAlive : Function.update life i l j = .alive) : j ≠ i ∧ life j = .alive := by
  have hNe : j ≠ i := by
    rintro rfl
    rw [Function.update_self] at hAlive
    exact hNot hAlive
  exact ⟨hNe, (Function.update_of_ne hNe _ _).symm.trans hAlive⟩

theorem Slots.step (hSlots : Slots s) (h : Coherent s) (hStep : Step port s act s') : Slots s' := by
  have hStep' := hStep
  have hGroup : ∀ {a : Addr} {e : Nat}, (s.hnd (.obj a)).evHandle ≠ some e →
      (if (s.hnd (.obj a)).evHandle = some e then s.deletes e + 1 else s.deletes e) = s.deletes e :=
    fun hOther => if_neg hOther
  cases hStep
  case create t hdl a k prio hRuns hOp hFree =>
    refine hSlots.keep h hStep' (fun j hAlive => ?_) (fun _ _ _ _ _ _ => rfl)
    by_cases hNew : j = k
    · exact .inl (hNew ▸ Function.update_self _ _ _)
    · refine .inr ⟨?_, Function.update_of_ne hNew _ _⟩
      exact (Function.update_of_ne hNew _ _).symm.trans hAlive
  case storeTls t a k hRuns hOp =>
    obtain ⟨-, hEv, -, hBorn, hZero, -⟩ := h.at hOp
    have hTask := (h.objects.shape (.obj a) k hEv).1
    intro j e hAlive hSome
    by_cases hHit : (s.hnd (.obj a)).taskHandle.bind s.occupant = some j
    · obtain ⟨hdl, hMade, hOcc⟩ := Option.bind_eq_some_iff.mp hHit
      obtain rfl : k = e := Option.some.inj (hEv.symm.trans ((if_pos hHit).symm.trans hSome))
      exact ⟨⟨hdl, (h.kernel.occupies hdl j hOcc).1, hTask.symm.trans hMade⟩, hBorn, hZero⟩
    · exact hSlots j e hAlive ((if_neg hHit).symm.trans hSome)
  case detachFound t a hdl j hRuns hOp hFound =>
    refine hSlots.keep h hStep' (fun i hAlive => ?_) (fun i e hLive _ hHeld hSome => hGroup ?_)
    · by_cases hHere : i = j
      · exact .inl (hHere ▸ Function.update_self _ _ _)
      · exact .inr ⟨hAlive, Function.update_of_ne hHere _ _⟩
    · intro hEv
      obtain ⟨hdl', hSame⟩ := hSlots.found h hEv hLive hHeld
      rw [hSame.unique hFound] at hSome
      cases (Function.update_self _ _ _).symm.trans hSome
  case resetGone t a hRuns hOp hOwner hState =>
    refine hSlots.keep h hStep' (fun i hAlive => .inr ⟨hAlive, rfl⟩)
      (fun i e hLive _ hHeld hSome => hGroup fun hEv => ?_)
    obtain ⟨hdl, hFound⟩ := hSlots.found h hEv hLive hHeld
    cases hState.symm.trans hFound.eDeleted
  case detachAstray t a hRuns hOp hAstray =>
    refine hSlots.keep h hStep' (fun i hAlive => .inr ⟨hAlive, rfl⟩)
      (fun i e hLive _ hHeld hSome => hGroup fun hEv => ?_)
    obtain ⟨hdl, hFound⟩ := hSlots.found h hEv hLive hHeld
    cases hAstray.occupant.symm.trans hFound.bind
  case resetAstray t a hRuns hOp hOwner hAstray =>
    refine hSlots.keep h hStep' (fun i hAlive => .inr ⟨hAlive, rfl⟩)
      (fun i e hLive _ hHeld hSome => hGroup fun hEv => ?_)
    obtain ⟨hdl, hFound⟩ := hSlots.found h hEv hLive hHeld
    cases hAstray.occupant.symm.trans hFound.bind
  case resetFound t a hdl j hRuns hOp hOwner hFound hOther
      | resetSelf t a hdl hPort hRuns hOp hOwner hFound =>
    refine hSlots.keep h hStep' (fun i hAlive => .inr ⟨(update_alive (by simp) hAlive).2, rfl⟩)
      (fun i e hLive hAlive hHeld hSome => hGroup fun hEv => ?_)
    obtain ⟨hdl', hSame⟩ := hSlots.found h hEv hLive hHeld
    exact (update_alive (by simp) hAlive).1 (hSame.unique hFound)
  case resetStuck | selfDelete | reclaim =>
    exact hSlots.keep h hStep' (fun i hAlive => .inr ⟨(update_alive (by simp) hAlive).2, rfl⟩)
      (fun _ _ _ _ _ _ => rfl)
  all_goals exact hSlots.keep h hStep' (fun j hAlive => .inr ⟨hAlive, rfl⟩) (fun _ _ _ _ _ _ => rfl)

end Steps

end FreeRtos.Thread
