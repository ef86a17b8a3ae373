import Mathlib.Data.List.Nodup

/-! Elements that are served in turn. A cursor walks round the list: behind it
lie the elements it served, the latest first, and ahead of it the others. -/
namespace Links

/-- A list with a cursor. -/
structure Round (α : Type*) where
  served : List α
  ahead : List α

namespace Round

variable {α : Type*}

/-- The elements from the start of the list. -/
def order (c : Round α) : List α := c.served.reverse ++ c.ahead

/-- The elements in the order of their turns. -/
def waiting (c : Round α) : List α := c.ahead ++ c.served.reverse

/-- A new element right before the cursor, or at the end when the cursor is at
the start. -/
def insertEnd (c : Round α) (x : α) : Round α :=
  match c.served with
  | [] => ⟨[], c.ahead ++ [x]⟩
  | y :: served => ⟨y :: x :: served, c.ahead⟩

/-- A new element behind the first ones that satisfy the condition. -/
def place (p : α → Bool) (x : α) (l : List α) : List α := l.takeWhile p ++ x :: l.dropWhile p

/-- The same, with a cursor. -/
def insertBy (p : α → Bool) (c : Round α) (x : α) : Round α :=
  if c.served.reverse.all p then ⟨c.served, place p x c.ahead⟩
  else ⟨(place p x c.served.reverse).reverse, c.ahead⟩

/-- The cursor moves to the next element, past the end to the first one. -/
def advance (c : Round α) : Round α :=
  match c.ahead with
  | x :: ahead => ⟨x :: c.served, ahead⟩
  | [] => match c.served.reverse with
    | [] => c
    | x :: ahead => ⟨[x], ahead⟩

variable {c : Round α} {x y : α} {l : List α} {p : α → Bool}

theorem mem_order : x ∈ c.order ↔ x ∈ c.waiting := by
  simp [order, waiting, or_comm]

theorem eq_empty (hEmpty : c.order = []) : c = ⟨[], []⟩ := by
  obtain ⟨served, ahead⟩ := c
  simp only [order, List.append_eq_nil_iff, List.reverse_eq_nil_iff] at hEmpty
  rw [hEmpty.1, hEmpty.2]

/-- Everybody moves up by one, and the element served goes to the back. -/
theorem waiting_advance (hFirst : c.waiting = x :: l) : c.advance.waiting = l ++ [x] := by
  obtain ⟨served, ahead⟩ := c
  cases ahead with
  | cons y ahead =>
      obtain ⟨rfl, rfl⟩ := List.cons.inj hFirst
      simp [advance, waiting]
  | nil =>
      have hServed : served.reverse = x :: l := by simpa [waiting] using hFirst
      simp [advance, waiting, hServed]

/-- Where the cursor is: at the element served last, or at the start. -/
def cursor (c : Round α) : Option α := c.served.head?

theorem cursor_advance (hFirst : c.waiting = x :: l) : c.advance.cursor = some x := by
  obtain ⟨served, ahead⟩ := c
  cases ahead with
  | cons y ahead =>
      obtain ⟨rfl, rfl⟩ := List.cons.inj hFirst
      rfl
  | nil =>
      have hServed : served.reverse = x :: l := by simpa [waiting] using hFirst
      simp [advance, cursor, hServed]

theorem order_advance : c.advance.order = c.order := by
  obtain ⟨served, ahead⟩ := c
  cases ahead with
  | cons y ahead => simp [advance, order]
  | nil =>
      cases hServed : served.reverse with
      | nil => simp [advance, hServed]
      | cons x l => simp [advance, order, hServed]

/-- The new element is the last to be served, but for the one served now. -/
theorem waiting_insertEnd (c : Round α) (x : α) :
    (c.insertEnd x).waiting = c.ahead ++ c.served.tail.reverse ++ x :: c.cursor.toList := by
  obtain ⟨served, ahead⟩ := c
  cases served with
  | nil => simp [insertEnd, waiting, cursor]
  | cons y served => simp [insertEnd, waiting, cursor]

theorem waiting_eq (c : Round α) : c.waiting = c.ahead ++ c.served.tail.reverse ++ c.cursor.toList := by
  obtain ⟨served, ahead⟩ := c
  cases served with
  | nil => simp [waiting, cursor]
  | cons y served => simp [waiting, cursor]

theorem cursor_insertEnd : (c.insertEnd x).cursor = c.cursor := by
  obtain ⟨served, ahead⟩ := c
  cases served <;> rfl

/-- The part of the list before the cursor, and the cursor with the rest. -/
theorem order_insertEnd (c : Round α) (x : α) :
    ∃ l m, c.order = l ++ m ∧ (c.insertEnd x).order = l ++ x :: m ∧
      m.head? = c.cursor := by
  obtain ⟨served, ahead⟩ := c
  cases served with
  | nil => exact ⟨ahead, [], by simp [order], by simp [insertEnd, order], rfl⟩
  | cons y served =>
      exact ⟨served.reverse, y :: ahead, by simp [order], by simp [insertEnd, order], rfl⟩

theorem place_append {l m : List α} :
    place p x (l ++ m) = if l.all p then l ++ place p x m else place p x l ++ m := by
  induction l with
  | nil => rfl
  | cons y l ih =>
      unfold place at ih ⊢
      cases hy : p y with
      | false => simp [hy]
      | true =>
          simp only [List.cons_append, List.takeWhile_cons_of_pos hy, List.dropWhile_cons_of_pos hy, ih,
            List.all_cons, hy, Bool.true_and]
          split <;> rfl

/-- A sorted insertion does not look at the cursor. -/
theorem order_insertBy : (c.insertBy p x).order = place p x c.order := by
  rw [insertBy, order, order, place_append]
  split
  case isTrue => rfl
  case isFalse => rw [List.reverse_reverse]

theorem place_last {l : List α} (hNot : l.all p = false) : (place p x l).getLast? = l.getLast? := by
  induction l with
  | nil => cases hNot
  | cons y l ih =>
      unfold place at ih ⊢
      cases hy : p y with
      | false => simp [hy]
      | true =>
          have hRest : l.all p = false := by simpa [hy] using hNot
          have hSome : l ≠ [] := by
            rintro rfl
            cases hRest
          rw [List.takeWhile_cons_of_pos hy, List.dropWhile_cons_of_pos hy, List.cons_append, List.getLast?_cons,
            ih hRest, List.getLast?_cons]

theorem cursor_insertBy : (c.insertBy p x).cursor = c.cursor := by
  unfold insertBy cursor
  split
  case isTrue => rfl
  case isFalse hNot =>
    rw [List.head?_reverse, place_last (by simpa using hNot), List.getLast?_reverse]

/-- Sorted insertion keeps a list sorted: the condition holds of the smaller
elements, which come first. -/
theorem place_pairwise {r : α → α → Prop} {l : List α} (hSorted : l.Pairwise r)
    (hBefore : ∀ y ∈ l, p y = true → r y x) (hAfter : ∀ y ∈ l, p y = false → r x y)
    (hTrans : ∀ {u v}, r x u → r u v → r x v) : (place p x l).Pairwise r := by
  have hSplit : l.takeWhile p ++ l.dropWhile p = l := List.takeWhile_append_dropWhile
  rw [← hSplit, List.pairwise_append] at hSorted
  obtain ⟨hFirst, hLast, hCross⟩ := hSorted
  refine List.pairwise_append.mpr ⟨hFirst, List.pairwise_cons.mpr ⟨fun y hy => ?_, hLast⟩, fun u hu v hv => ?_⟩
  · cases hDrop : l.dropWhile p with
    | nil =>
        rw [hDrop] at hy
        cases hy
    | cons z rest =>
        have hz : p z = false := by
          have hHead := List.head?_dropWhile_not p l
          rw [hDrop] at hHead
          simpa using hHead
        rw [hDrop] at hy hLast
        have hIn : z ∈ l := by
          rw [← hSplit, hDrop]
          exact List.mem_append_right _ List.mem_cons_self
        rcases List.mem_cons.mp hy with rfl | hLater
        · exact hAfter y hIn hz
        · exact hTrans (hAfter z hIn hz) ((List.pairwise_cons.mp hLast).1 y hLater)
  · rcases List.mem_cons.mp hv with rfl | hLater
    · exact hBefore u ((List.takeWhile_sublist p).subset hu) (List.all_eq_true.mp List.all_takeWhile u hu)
    · exact hCross u hu v hLater

section Turns

variable [DecidableEq α]

/-- How many turns come before that of the element. -/
def rank (c : Round α) (x : α) : Nat := c.waiting.idxOf x

theorem idxOf_filter_le {l : List α} (q : α → Bool) (hx : q x = true) : (l.filter q).idxOf x ≤ l.idxOf x := by
  induction l with
  | nil => exact Nat.le_refl _
  | cons y l ih =>
      by_cases hSame : y = x
      · subst hSame
        rw [List.filter_cons_of_pos hx, List.idxOf_cons_self]
        exact Nat.zero_le _
      · rw [List.idxOf_cons_ne _ hSame]
        cases hy : q y with
        | false =>
            rw [List.filter_cons_of_neg (by simp [hy])]
            exact Nat.le_succ_of_le ih
        | true =>
            rw [List.filter_cons_of_pos hy, List.idxOf_cons_ne _ hSame]
            exact Nat.succ_le_succ ih

theorem idxOf_append_right {l m n : List α} (hx : x ∈ l) : (l ++ m).idxOf x = (l ++ n).idxOf x := by
  rw [List.idxOf_append_of_mem hx, List.idxOf_append_of_mem hx]

/-- A new element does not delay the others, but for the one served last. -/
theorem rank_insertEnd (hx : x ∈ c.order) (hCursor : c.cursor ≠ some x) :
    (c.insertEnd y).rank x = c.rank x := by
  rw [mem_order, waiting_eq, List.mem_append] at hx
  have hFront : x ∈ c.ahead ++ c.served.tail.reverse := by
    refine hx.resolve_right fun hLast => hCursor ?_
    simpa [eq_comm] using hLast
  rw [rank, rank, waiting_insertEnd, waiting_eq]
  exact idxOf_append_right hFront

/-- The one served last is delayed by one turn. -/
theorem rank_insertEnd_le : (c.insertEnd y).rank x ≤ c.rank x + 1 := by
  rw [rank, rank, waiting_insertEnd, waiting_eq]
  by_cases hFront : x ∈ c.ahead ++ c.served.tail.reverse
  · rw [idxOf_append_right (n := c.cursor.toList) hFront]
    exact Nat.le_succ _
  · rw [List.idxOf_append_of_notMem hFront, List.idxOf_append_of_notMem hFront, List.idxOf_cons]
    cases hSame : y == x <;> simp <;> omega

/-- A turn of somebody else brings the turn of an element nearer by one. -/
theorem rank_advance (hx : x ∈ c.order) (hAdvance : c.advance.cursor ≠ some x) :
    c.advance.rank x + 1 = c.rank x := by
  rw [mem_order] at hx
  cases hFirst : c.waiting with
  | nil =>
      rw [hFirst] at hx
      cases hx
  | cons y l =>
      have hNe : y ≠ x := by
        rintro rfl
        exact hAdvance (cursor_advance hFirst)
      rw [hFirst] at hx
      have hLater : x ∈ l := (List.mem_cons.mp hx).resolve_left (Ne.symm hNe)
      rw [rank, rank, waiting_advance hFirst, hFirst, List.idxOf_cons_ne _ hNe, List.idxOf_append_of_mem hLater]

theorem rank_lt (hx : x ∈ c.order) : c.rank x < c.order.length := by
  have hLength : c.order.length = c.waiting.length := by
    simp [order, waiting, Nat.add_comm]
  rw [mem_order] at hx
  rw [hLength]
  exact List.idxOf_lt_length_of_mem hx

end Turns

section Remove

variable [DecidableEq α]

/-- The element leaves the list; a cursor on it steps back. -/
def remove (c : Round α) (x : α) : Round α :=
  ⟨c.served.filter (· ≠ x), c.ahead.filter (· ≠ x)⟩

theorem order_remove : (c.remove x).order = c.order.filter (· ≠ x) := by
  simp [remove, order]

theorem waiting_remove : (c.remove x).waiting = c.waiting.filter (· ≠ x) := by
  simp [remove, waiting]

theorem cursor_remove_of_ne (hNe : c.cursor ≠ some x) : (c.remove x).cursor = c.cursor := by
  obtain ⟨served, ahead⟩ := c
  cases served with
  | nil => rfl
  | cons y served =>
      have hKeep : y ≠ x := fun hSame => hNe (congrArg some hSame)
      simp [remove, cursor, hKeep]

theorem filter_ne_self (hApart : x ∉ l) : l.filter (· ≠ x) = l := by
  rw [List.filter_eq_self]
  intro y hy
  simp only [decide_eq_true_eq]
  rintro rfl
  exact hApart hy

/-- Nobody waits longer when another element leaves. -/
theorem rank_remove_le (hNe : y ≠ x) : (c.remove y).rank x ≤ c.rank x := by
  rw [rank, rank, waiting_remove]
  exact idxOf_filter_le _ (by simpa using Ne.symm hNe)

/-- A cursor on the element steps back to the one served before. -/
theorem remove_cursor (hNodup : c.order.Nodup) (hCursor : c.cursor = some x) :
    ∃ served : List α, c.order = served.reverse ++ x :: c.ahead ∧ (c.remove x).cursor = served.head? := by
  obtain ⟨before, ahead⟩ := c
  cases before with
  | nil => cases hCursor
  | cons y served =>
      obtain rfl : y = x := Option.some.inj hCursor
      refine ⟨served, by simp [order], ?_⟩
      have hApart : y ∉ served := by
        intro hMem
        simp only [order, List.reverse_cons, List.append_assoc] at hNodup
        rw [List.nodup_append] at hNodup
        exact hNodup.2.2 y (List.mem_reverse.mpr hMem) y (by simp) rfl
      simp only [remove, cursor]
      rw [List.filter_cons_of_neg (by simp), filter_ne_self hApart]

theorem filter_ne_middle {A B : List α} (hNodup : (A ++ x :: B).Nodup) :
    (A ++ x :: B).filter (· ≠ x) = A ++ B := by
  rw [List.nodup_middle, List.nodup_cons, List.mem_append, not_or] at hNodup
  rw [List.filter_append, List.filter_cons_of_neg (by simp), filter_ne_self hNodup.1.1, filter_ne_self hNodup.1.2]

end Remove

end Round

end Links
