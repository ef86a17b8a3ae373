import FreeRtosCpp11.Links.Chain
import Mathlib.Data.List.Nodup

/-! Doubly linked rings through a marker. The next links run from the marker
through the elements and back to it, and the previous links the other way. -/
namespace Links

variable {α : Type*}

/-- The ring through the marker `e` and the elements of the list. -/
structure Ring (next prev : α → α) (e : α) (l : List α) : Prop where
  forward : Chain next e e l
  backward : Chain prev e e l.reverse
  nodup : (e :: l).Nodup

variable {next prev next' prev' : α → α} {b e x : α} {l m : List α}

theorem getLastD_reverse (m : List α) (e : α) : m.reverse.getLastD e = m.headD e := by
  cases m with
  | nil => rfl
  | cons c m => simp

theorem headD_reverse (l : List α) (e : α) : l.reverse.headD e = l.getLastD e := by
  rw [← getLastD_reverse, List.reverse_reverse]

namespace Ring

/-- A marker that links to itself. -/
theorem empty (hNext : next e = e) (hPrev : prev e = e) : Ring next prev e [] :=
  ⟨hNext, hPrev, List.nodup_singleton e⟩

/-- A ring depends on the links of its nodes alone. -/
theorem congr (h : Ring next prev e l) (hNext : ∀ x ∈ e :: l, next' x = next x)
    (hPrev : ∀ x ∈ e :: l, prev' x = prev x) : Ring next' prev' e l where
  forward := h.forward.congr hNext
  backward := h.backward.congr fun x hx => hPrev x (by simpa using hx)
  nodup := h.nodup

theorem next_eq (h : Ring next prev e (l ++ m)) : next (l.getLastD e) = m.headD e :=
  (chain_append.mp h.forward).1.next_last

theorem prev_eq (h : Ring next prev e (l ++ m)) : prev (m.headD e) = l.getLastD e := by
  have hBack := h.backward
  rw [List.reverse_append, chain_append, getLastD_reverse, headD_reverse] at hBack
  rw [← getLastD_reverse]
  exact hBack.1.next_last

theorem next_elem (h : Ring next prev e (l ++ b :: m)) : next b = m.headD e := by
  rw [List.append_cons] at h
  have hNext := h.next_eq
  rwa [List.getLastD_concat] at hNext

theorem prev_elem (h : Ring next prev e (l ++ b :: m)) : prev b = l.getLastD e := by
  have hPrev := h.prev_eq
  rwa [List.headD_cons] at hPrev

variable [DecidableEq α]

/-- Linking a new node between the two parts. -/
theorem insert (h : Ring next prev e (l ++ m)) (hNew : b ∉ e :: (l ++ m)) :
    Ring (Function.update (Function.update next b (m.headD e)) (l.getLastD e) b)
      (Function.update (Function.update prev b (l.getLastD e)) (m.headD e) b) e (l ++ b :: m) where
  forward := h.forward.insert h.nodup hNew
  backward := by
    have hBack := h.backward
    have hNodup : (e :: (m.reverse ++ l.reverse)).Nodup := by
      rw [← List.reverse_append, List.nodup_cons, List.mem_reverse, List.nodup_reverse, ← List.nodup_cons]
      exact h.nodup
    rw [List.reverse_append] at hBack
    have hInsert := hBack.insert (b := b) hNodup (by simpa [or_comm, and_comm] using hNew)
    rw [headD_reverse, getLastD_reverse] at hInsert
    simpa using hInsert
  nodup := by
    have hNodup := h.nodup
    rw [List.nodup_cons] at hNodup ⊢
    rw [List.mem_cons, not_or] at hNew
    refine ⟨fun hMem => ?_, ?_⟩
    · rcases List.mem_append.mp hMem with hLeft | hRight
      · exact hNodup.1 (List.mem_append_left m hLeft)
      · rcases List.mem_cons.mp hRight with rfl | hRight
        · exact hNew.1 rfl
        · exact hNodup.1 (List.mem_append_right l hRight)
    · exact List.nodup_middle.mpr (List.nodup_cons.mpr ⟨hNew.2, hNodup.2⟩)

/-- Taking a node out. -/
theorem remove (h : Ring next prev e (l ++ b :: m)) :
    Ring (Function.update next (prev b) (next b)) (Function.update prev (next b) (prev b)) e (l ++ m) where
  forward := by
    rw [h.prev_elem]
    exact h.forward.unlink h.nodup
  backward := by
    have hBack := h.backward
    have hNodup : (e :: (m.reverse ++ b :: l.reverse)).Nodup := by
      have hAll : (e :: (l ++ b :: m).reverse).Nodup := by
        rw [List.nodup_cons, List.mem_reverse, List.nodup_reverse, ← List.nodup_cons]
        exact h.nodup
      simpa using hAll
    rw [List.reverse_append, List.reverse_cons, List.append_assoc, List.singleton_append] at hBack
    have hUnlink := hBack.unlink hNodup
    rw [getLastD_reverse] at hUnlink
    rw [h.next_elem, List.reverse_append]
    exact hUnlink
  nodup := h.nodup.sublist ((List.Sublist.append_left (List.sublist_cons_self b m) l).cons_cons e)

end Ring

end Links
