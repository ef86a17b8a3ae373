import Mathlib.Algebra.Order.BigOperators.Group.Finset
import Mathlib.Data.Fintype.BigOperators
import Mathlib.Logic.Function.Basic

/-! Records that change one entry at a time: totals over finitely many places,
and locks with at most one holder. -/
namespace Transition

section Totals

variable {Place Content Amount : Type*} [Fintype Place] [DecidableEq Place] [AddCommMonoid Amount]

/-- Replacing the content of one place: the old content leaves the total and
the new one enters it. -/
theorem sum_update_add (held : Place → Content) (worth : Content → Amount) (p : Place)
    (content : Content) :
    ∑ q, worth (Function.update held p content q) + worth (held p) =
      ∑ q, worth (held q) + worth content := by
  rw [← Finset.add_sum_erase Finset.univ _ (Finset.mem_univ p),
    ← Finset.add_sum_erase Finset.univ (fun q => worth (held q)) (Finset.mem_univ p)]
  have hRest : ∑ q ∈ Finset.univ.erase p, worth (Function.update held p content q) =
      ∑ q ∈ Finset.univ.erase p, worth (held q) :=
    Finset.sum_congr rfl fun q hq => by rw [Function.update_of_ne (Finset.ne_of_mem_erase hq)]
  rw [Function.update_self, hRest]
  exact add_right_comm _ _ _ |>.trans (by rw [add_comm (worth content), add_right_comm])

end Totals

section Locks

variable {Lock Task : Type*} {holder : Lock → Option Task} {claim : Task → Option Lock}

/-- The recorded holder of a lock is exactly the task that claims it. -/
def Owned (holder : Lock → Option Task) (claim : Task → Option Lock) : Prop :=
  ∀ l t, holder l = some t ↔ claim t = some l

/-- Two tasks never claim the same lock. -/
theorem Owned.unique (h : Owned holder claim) {l : Lock} {t u : Task} (hFirst : claim t = some l)
    (hSecond : claim u = some l) : t = u := by
  have hHolder := (h l t).mpr hFirst
  rw [(h l u).mpr hSecond] at hHolder
  exact (Option.some.inj hHolder).symm

/-- Nobody claims a free lock. -/
theorem Owned.claim_ne (h : Owned holder claim) {l : Lock} (hFree : holder l = none) (t : Task) :
    claim t ≠ some l := by
  intro hClaim
  rw [← h l t, hFree] at hClaim
  cases hClaim

variable [DecidableEq Lock] [DecidableEq Task]

theorem Owned.acquire (h : Owned holder claim) {l : Lock} {t : Task} (hFree : holder l = none)
    (hIdle : claim t = none) :
    Owned (Function.update holder l (some t)) (Function.update claim t (some l)) := by
  intro k u
  have hOther := h.claim_ne hFree u
  have hHolds : holder k ≠ some t := by rw [Ne, h k t, hIdle]; simp
  have hSame := h k u
  rcases eq_or_ne k l with rfl | hLock <;> rcases eq_or_ne u t with rfl | hTask <;>
    simp_all [Function.update_of_ne, eq_comm]

theorem Owned.release (h : Owned holder claim) {l : Lock} {t : Task} (hClaim : claim t = some l) :
    Owned (Function.update holder l none) (Function.update claim t none) := by
  intro k u
  have hSame := h k u
  have hHolder := (h l t).mpr hClaim
  rcases eq_or_ne k l with rfl | hLock <;> rcases eq_or_ne u t with rfl | hTask <;>
    simp_all [Function.update_of_ne, eq_comm]

end Locks

end Transition
