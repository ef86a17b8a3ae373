import FreeRtosCpp11.Lists.Refine

/-! The rounds of a kernel that keeps the rules of the lists: each item is in one
list at most, and each list has it once. -/
namespace FreeRtos.Lists

open Links

variable {ι κ : Type} [DecidableEq ι] [DecidableEq κ]

namespace Abs

variable {a : Abs ι κ} {l k : κ} {i j : ι} {v : Nat}

@[simp] theorem home_insertEnd : (a.step (.insertEnd l i)).home = Function.update a.home i (some l) := rfl

@[simp] theorem home_insert : (a.step (.insert l i)).home = Function.update a.home i (some l) := rfl

@[simp] theorem home_nextEntry : (a.step (.nextEntry l)).home = a.home := rfl

@[simp] theorem home_setValue : (a.step (.setValue i v)).home = a.home := rfl

@[simp] theorem home_remove : (a.step (.remove i)).home = Function.update a.home i none := by
  cases hHome : a.home i with
  | none =>
      have hSame := Function.update_eq_self i a.home
      rw [hHome] at hSame
      simp only [step, hHome, hSame]
  | some l => simp only [step, hHome]

@[simp] theorem value_insertEnd : (a.step (.insertEnd l i)).value = a.value := rfl

@[simp] theorem value_insert : (a.step (.insert l i)).value = a.value := rfl

@[simp] theorem value_nextEntry : (a.step (.nextEntry l)).value = a.value := rfl

@[simp] theorem value_setValue : (a.step (.setValue i v)).value = Function.update a.value i v := rfl

@[simp] theorem value_remove : (a.step (.remove i)).value = a.value := by
  cases hHome : a.home i <;> simp only [step, hHome]

/-- Items are where their lists have them. -/
structure Sound (a : Abs ι κ) : Prop where
  member : ∀ l i, i ∈ (a.round l).order ↔ a.home i = some l
  nodup : ∀ l, (a.round l).order.Nodup

/-- The list is in the order of its values. -/
def Ascending (a : Abs ι κ) (l : κ) : Prop := (a.round l).order.Pairwise fun i j => a.value i ≤ a.value j

theorem Sound.insertEnd (h : a.Sound) (hFree : a.home i = none) : (a.step (.insertEnd l i)).Sound := by
  have hOut : i ∉ (a.round l).order := by
    rw [h.member, hFree]
    exact nofun
  obtain ⟨A, B, hOld, hNew, _⟩ := Round.order_insertEnd (a.round l) i
  have hNodup := h.nodup l
  rw [hOld] at hOut hNodup
  constructor
  · intro k j
    rw [home_insertEnd]
    by_cases hList : k = l
    · subst hList
      simp only [step, Function.update_self, hNew]
      by_cases hItem : j = i
      · subst hItem
        simp
      · rw [Function.update_of_ne hItem, ← h.member, hOld]
        simp [hItem]
    · simp only [step, Function.update_of_ne hList, h.member]
      by_cases hItem : j = i
      · subst hItem
        simp [hFree, Ne.symm hList]
      · rw [Function.update_of_ne hItem]
  · intro k
    by_cases hList : k = l
    · subst hList
      simp only [step, Function.update_self, hNew]
      exact List.nodup_middle.mpr (List.nodup_cons.mpr ⟨hOut, hNodup⟩)
    · simp only [step, Function.update_of_ne hList]
      exact h.nodup k

theorem Sound.insert (h : a.Sound) (hFree : a.home i = none) : (a.step (.insert l i)).Sound := by
  have hOut : i ∉ (a.round l).order := by
    rw [h.member, hFree]
    exact nofun
  have hNodup := h.nodup l
  have hOld : (a.round l).order.takeWhile (fun j => a.value j ≤ a.value i) ++
      (a.round l).order.dropWhile (fun j => a.value j ≤ a.value i) = (a.round l).order :=
    List.takeWhile_append_dropWhile
  have hMem : ∀ j, j ∈ Round.place (fun j => a.value j ≤ a.value i) i (a.round l).order ↔
      j = i ∨ j ∈ (a.round l).order := by
    intro j
    conv_rhs => rw [← hOld]
    simp only [Round.place, List.mem_append, List.mem_cons]
    tauto
  constructor
  · intro k j
    rw [home_insert]
    by_cases hList : k = l
    · subst hList
      simp only [step, Function.update_self, Round.order_insertBy, hMem]
      by_cases hItem : j = i
      · subst hItem
        simp
      · rw [Function.update_of_ne hItem, ← h.member]
        simp [hItem]
    · simp only [step, Function.update_of_ne hList, h.member]
      by_cases hItem : j = i
      · subst hItem
        simp [hFree, Ne.symm hList]
      · rw [Function.update_of_ne hItem]
  · intro k
    by_cases hList : k = l
    · subst hList
      simp only [step, Function.update_self, Round.order_insertBy, Round.place]
      rw [← hOld] at hOut hNodup
      exact List.nodup_middle.mpr (List.nodup_cons.mpr ⟨hOut, hNodup⟩)
    · simp only [step, Function.update_of_ne hList]
      exact h.nodup k

theorem round_remove (h : a.Sound) (i : ι) (k : κ) :
    ((a.step (.remove i)).round k).order = (a.round k).order.filter (· ≠ i) := by
  cases hHome : a.home i with
  | none =>
      simp only [step, hHome]
      refine (Round.filter_ne_self ?_).symm
      rw [h.member, hHome]
      exact (Option.some_ne_none k).symm
  | some l =>
      simp only [step, hHome]
      by_cases hList : k = l
      · subst hList
        rw [Function.update_self, Round.order_remove]
      · rw [Function.update_of_ne hList]
        refine (Round.filter_ne_self ?_).symm
        rw [h.member, hHome]
        exact fun hSame => hList (Option.some.inj hSame).symm

theorem Sound.remove (h : a.Sound) : (a.step (.remove i)).Sound := by
  constructor
  · intro k j
    rw [round_remove h, home_remove]
    by_cases hItem : j = i
    · subst hItem
      simp
    · rw [Function.update_of_ne hItem, ← h.member]
      simp [hItem]
  · intro k
    rw [round_remove h]
    exact (h.nodup k).filter _

theorem order_nextEntry (a : Abs ι κ) (l k : κ) :
    ((a.step (.nextEntry l)).round k).order = (a.round k).order := by
  by_cases hList : k = l
  · subst hList
    simp only [step, Function.update_self, Round.order_advance]
  · simp only [step, Function.update_of_ne hList]

theorem Sound.nextEntry (h : a.Sound) : (a.step (.nextEntry l)).Sound := by
  constructor
  · intro k j
    rw [order_nextEntry, home_nextEntry]
    exact h.member k j
  · intro k
    rw [order_nextEntry]
    exact h.nodup k

theorem Sound.setValue (h : a.Sound) : (a.step (.setValue i v)).Sound := ⟨h.member, h.nodup⟩

omit [DecidableEq ι] [DecidableEq κ] in
theorem Sound.eq_nil_iff (h : a.Sound) : (a.round l).order = [] ↔ ∀ i, a.home i ≠ some l := by
  rw [List.eq_nil_iff_forall_not_mem]
  exact forall_congr' fun i => not_congr (h.member l i)

omit [DecidableEq ι] [DecidableEq κ] in
/-- The first item of an ascending list has the least value. -/
theorem Ascending.head {w : List ι} (h : a.Ascending l) (hSound : a.Sound) (hFirst : (a.round l).order = i :: w)
    (hHome : a.home j = some l) : a.value i ≤ a.value j := by
  rw [← hSound.member, hFirst] at hHome
  rw [Ascending, hFirst] at h
  rcases List.mem_cons.mp hHome with rfl | hLater
  · exact Nat.le_refl _
  · exact (List.pairwise_cons.mp h).1 j hLater

theorem Ascending.insert (h : a.Ascending l) : (a.step (.insert k i)).Ascending l := by
  by_cases hList : l = k
  · subst hList
    simp only [Ascending, step, Function.update_self, Round.order_insertBy]
    refine Round.place_pairwise h (fun j _ hLow => of_decide_eq_true hLow) (fun j _ hHigh => ?_) Nat.le_trans
    exact Nat.le_of_not_le (of_decide_eq_false hHigh)
  · simp only [Ascending, step, Function.update_of_ne hList]
    exact h

theorem Ascending.insertEnd (h : a.Ascending l) (hList : l ≠ k) : (a.step (.insertEnd k i)).Ascending l := by
  simp only [Ascending, step, Function.update_of_ne hList]
  exact h

theorem Ascending.remove (h : a.Ascending l) (hSound : a.Sound) : (a.step (.remove i)).Ascending l := by
  rw [Ascending, round_remove hSound, value_remove]
  exact List.Pairwise.filter _ h

theorem Ascending.nextEntry (h : a.Ascending l) : (a.step (.nextEntry k)).Ascending l := by
  rw [Ascending, order_nextEntry]
  exact h

/-- The value of an item outside the list does not matter. -/
theorem Ascending.setValue (h : a.Ascending l) (hSound : a.Sound) (hOut : a.home i ≠ some l) :
    (a.step (.setValue i v)).Ascending l := by
  show (a.round l).order.Pairwise _
  refine List.Pairwise.imp_of_mem (fun hj hk hLe => ?_) h
  have hApart : ∀ j ∈ (a.round l).order, j ≠ i := by
    rintro j hj rfl
    exact hOut ((hSound.member l j).mp hj)
  rw [value_setValue, Function.update_of_ne (hApart _ hj), Function.update_of_ne (hApart _ hk)]
  exact hLe

end Abs

end FreeRtos.Lists
