import Mathlib.Logic.Function.Basic

/-! Singly linked chains. The links are a function from each node to the next
one, so that writing a link is an update of that function. A chain hangs off a
node that is not one of its elements and ends before a node that is none. -/
namespace Links

variable {α : Type*}

/-- Following the links from `a` visits the elements of the list and then `e`. -/
def Chain (next : α → α) (e : α) : α → List α → Prop
  | a, [] => next a = e
  | a, b :: l => next a = b ∧ Chain next e b l

/-- Follow the links up to the first node that satisfies the condition. -/
def scan (next : α → α) (stop : α → Bool) : Nat → α → Option α
  | 0, _ => none
  | fuel + 1, a => if stop a then some a else scan next stop fuel (next a)

/-- The nodes behind `a` up to the end. -/
def collect [DecidableEq α] (next : α → α) (e : α) : Nat → α → List α
  | 0, _ => []
  | fuel + 1, a => if next a = e then [] else next a :: collect next e fuel (next a)

variable {next next' : α → α} {stop : α → Bool} {a b e : α} {l m : List α}

theorem getLastD_mem (a : α) (l : List α) : l.getLastD a ∈ a :: l := by
  induction l generalizing a with
  | nil => exact List.mem_singleton_self a
  | cons b l ih =>
      rw [List.getLastD_cons]
      exact List.mem_cons_of_mem a (ih b)

theorem nodup_split (hNodup : (a :: (l ++ m)).Nodup) :
    (a :: l).Nodup ∧ ∀ x ∈ a :: l, ∀ y ∈ m, x ≠ y := by
  rw [← List.cons_append, List.nodup_append] at hNodup
  exact ⟨hNodup.1, hNodup.2.2⟩

/-- A chain depends on the links of its nodes alone. -/
theorem Chain.congr (h : Chain next e a l) (hSame : ∀ x ∈ a :: l, next' x = next x) :
    Chain next' e a l := by
  induction l generalizing a with
  | nil =>
      rw [Chain, hSame a (List.mem_singleton_self a)]
      exact h
  | cons b l ih =>
      refine ⟨?_, ih h.2 fun x hx => hSame x (List.mem_cons_of_mem a hx)⟩
      rw [hSame a List.mem_cons_self]
      exact h.1

/-- A chain splits at each of its nodes. -/
theorem chain_append :
    Chain next e a (l ++ m) ↔ Chain next (m.headD e) a l ∧ Chain next e (l.getLastD a) m := by
  induction l generalizing a with
  | nil =>
      cases m with
      | nil => exact (and_self_iff).symm
      | cons b m => exact ⟨fun h => ⟨h.1, h⟩, fun h => h.2⟩
  | cons b l ih => rw [List.cons_append, Chain, Chain, ih, and_assoc, List.getLastD_cons]

theorem Chain.next_last (h : Chain next e a l) : next (l.getLastD a) = e := by
  rw [← List.append_nil l] at h
  exact (chain_append.mp h).2

/-- Every node but the last links to an element. -/
theorem Chain.next_mem {x : α} (h : Chain next e a l) (hx : x ∈ (a :: l).dropLast) : next x ∈ l := by
  induction l generalizing a with
  | nil => cases hx
  | cons b l ih =>
      rw [List.dropLast_cons_cons] at hx
      rcases List.mem_cons.mp hx with rfl | hLater
      · rw [h.1]
        exact List.mem_cons_self
      · exact List.mem_cons_of_mem b (ih h.2 hLater)

/-- Every node links to an element or to the end. -/
theorem Chain.next_mem_or {x : α} (h : Chain next e a l) (hx : x ∈ a :: l) : next x ∈ l ∨ next x = e := by
  induction l generalizing a with
  | nil =>
      rw [List.mem_singleton.mp hx]
      exact .inr h
  | cons b l ih =>
      rcases List.mem_cons.mp hx with rfl | hLater
      · rw [h.1]
        exact .inl List.mem_cons_self
      · exact (ih h.2 hLater).imp_left (List.mem_cons_of_mem b)

/-- The scan stops at the first node where the condition holds. -/
theorem Chain.scan_eq (h : Chain next e a l) (hBefore : ∀ x ∈ (a :: l).dropLast, stop x = false)
    (hLast : stop (l.getLastD a) = true) {fuel : Nat} (hFuel : l.length < fuel) :
    scan next stop fuel a = some (l.getLastD a) := by
  induction l generalizing a fuel with
  | nil =>
      obtain ⟨fuel, rfl⟩ := Nat.exists_eq_add_of_lt hFuel
      rw [List.getLastD_nil] at hLast
      simp [scan, hLast]
  | cons b l ih =>
      obtain ⟨fuel, rfl⟩ := Nat.exists_eq_add_of_lt hFuel
      have hHere : stop a = false := hBefore a (by simp)
      rw [scan, hHere, h.1, List.getLastD_cons]
      rw [List.getLastD_cons] at hLast
      apply ih h.2 _ hLast (by simp; omega)
      intro x hx
      exact hBefore x (List.mem_cons_of_mem a hx)

/-- Two chains are one when the first ends where the second begins. -/
theorem Chain.append (h : Chain next (m.headD e) a l) (hRest : Chain next e (l.getLastD a) m) :
    Chain next e a (l ++ m) :=
  chain_append.mpr ⟨h, hRest⟩

variable [DecidableEq α]

theorem Chain.collect_eq (h : Chain next e a l) (hApart : e ∉ l) {fuel : Nat} (hFuel : l.length < fuel) :
    collect next e fuel a = l := by
  induction l generalizing a fuel with
  | nil =>
      obtain ⟨fuel, rfl⟩ := Nat.exists_eq_add_of_lt hFuel
      have hEnd : next a = e := h
      simp [collect, hEnd]
  | cons b l ih =>
      obtain ⟨fuel, rfl⟩ := Nat.exists_eq_add_of_lt hFuel
      rw [List.mem_cons, not_or] at hApart
      rw [collect, h.1, if_neg (Ne.symm hApart.1), ih h.2 hApart.2 (by simp; omega)]

/-- Writing the last link gives the chain another end. -/
theorem Chain.redirect (h : Chain next b a l) (hNodup : (a :: l).Nodup) (e : α) :
    Chain (Function.update next (l.getLastD a) e) e a l := by
  induction l generalizing a with
  | nil => exact Function.update_self a e next
  | cons c l ih =>
      have hApart : a ∉ c :: l := (List.nodup_cons.mp hNodup).1
      have hNe : a ≠ l.getLastD c := by
        intro hSame
        rw [hSame] at hApart
        exact hApart (getLastD_mem c l)
      rw [List.getLastD_cons]
      refine ⟨?_, ih h.2 (List.nodup_cons.mp hNodup).2⟩
      rw [Function.update_of_ne hNe]
      exact h.1

/-- Linking a new node behind the last node of the first part. -/
theorem Chain.insert (h : Chain next e a (l ++ m)) (hNodup : (a :: (l ++ m)).Nodup)
    (hNew : b ∉ a :: (l ++ m)) :
    Chain (Function.update (Function.update next b (m.headD e)) (l.getLastD a) b) e a (l ++ b :: m) := by
  obtain ⟨hFirst, hSecond⟩ := chain_append.mp h
  obtain ⟨hLeft, hApart⟩ := nodup_split hNodup
  have hLast : l.getLastD a ∈ a :: l := getLastD_mem a l
  have hOld : ∀ x ∈ a :: (l ++ m), Function.update next b (m.headD e) x = next x := by
    intro x hx
    apply Function.update_of_ne
    intro hSame
    exact hNew (hSame ▸ hx)
  have hLastNe : b ≠ l.getLastD a := by
    intro hSame
    apply hNew
    rw [hSame]
    exact List.mem_append_left m hLast
  refine Chain.append ?_ ⟨Function.update_self _ _ _, ?_⟩
  · have hFirst' : Chain (Function.update next b (m.headD e)) (m.headD e) a l :=
      hFirst.congr fun x hx => hOld x (List.mem_append_left m hx)
    exact hFirst'.redirect hLeft b
  · cases m with
    | nil =>
        rw [Chain, Function.update_of_ne hLastNe, Function.update_self]
        rfl
    | cons c m =>
        refine ⟨by rw [Function.update_of_ne hLastNe, Function.update_self]; rfl, ?_⟩
        apply hSecond.2.congr
        intro x hx
        rw [Function.update_of_ne (hApart _ hLast x hx).symm, hOld x (List.mem_append_right (a :: l) hx)]

/-- Taking the node behind the first part out of the chain. -/
theorem Chain.unlink (h : Chain next e a (l ++ b :: m)) (hNodup : (a :: (l ++ b :: m)).Nodup) :
    Chain (Function.update next (l.getLastD a) (next b)) e a (l ++ m) := by
  obtain ⟨hFirst, _, hSecond⟩ := chain_append.mp h
  obtain ⟨hLeft, hApart⟩ := nodup_split hNodup
  have hLast : l.getLastD a ∈ a :: l := getLastD_mem a l
  have hNext : next b = m.headD e := by
    cases m with
    | nil => exact hSecond
    | cons c m => exact hSecond.1
  rw [hNext]
  refine Chain.append (hFirst.redirect hLeft _) ?_
  cases m with
  | nil => exact Function.update_self _ _ _
  | cons c m =>
      refine ⟨Function.update_self _ _ _, ?_⟩
      apply hSecond.2.congr
      intro x hx
      exact Function.update_of_ne (hApart _ hLast x (List.mem_cons_of_mem b hx)).symm _ _

end Links
