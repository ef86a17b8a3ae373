import FreeRtosCpp11.Alloc.Wrap

/-! One allocation followed by its free, for every size and for both answers of
`pvPortMalloc`. The requested length is added up in `size_t` without a check,
and `__wrap_free` does not look for a null pointer. -/
namespace FreeRtos.Alloc

open Memory

variable {w : Nat} {h : Heap} {r : Request} {p : Nat}

/-- The length that an entry asks `pvPortMalloc` for. -/
def Request.wanted (w : Nat) (r : Request) : Nat := (r.size + r.overhead w) % sizeRange w

/-- The bytes lie in a block that is in use. -/
def Heap.Holds (h : Heap) (a k : Nat) : Prop :=
  ∃ b ∈ h.blocks, b.addr ≤ a ∧ a + k ≤ b.addr + b.len

/-- The word below a result of a request that did not wrap is in its block. -/
theorem Request.address_inside (hValid : r.Valid w) (hWord : p % sizeofPtr w = 0)
    (hEnd : p + (r.size + r.overhead w) < sizeRange w) :
    r.address w p % sizeRange w = r.address w p ∧
      wordBelow w (r.address w p) + sizeofPtr w = r.address w p ∧
      p ≤ wordBelow w (r.address w p) ∧ r.address w p + r.size ≤ p + (r.size + r.overhead w) := by
  obtain ⟨hLow, hHigh⟩ := address_bounds hValid hWord (by omega)
  rw [wordBelow_of_le (by omega) (by omega), Nat.mod_eq_of_lt (by omega)]
  omega

/-- The free finds the address that was saved. -/
theorem Request.load_run (hAddr : p < sizeRange w) :
    load (r.run w h (some p)).2.mem (wordBelow w (r.run w h (some p)).1) (sizeofPtr w) = p := by
  rw [run_some h hAddr]
  exact load_store h.mem (by rw [← sizeRange_eq]; exact hAddr)

end FreeRtos.Alloc
