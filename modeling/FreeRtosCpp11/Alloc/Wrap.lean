import FreeRtosCpp11.Memory.Words
import Mathlib.Algebra.Order.Ring.Nat

/-! The allocation entries of `sys.cpp` over `pvPortMalloc` and `vPortFree`.
The word below a result holds the address that `pvPortMalloc` answered. A
pointer has `2 ^ w` bytes, 4 on all ports; sizes and addresses wrap at the
range of `size_t`. -/
namespace FreeRtos.Alloc

open Memory

def sizeofPtr (w : Nat) : Nat := 2 ^ w

/-- One more than the largest `size_t`, and the first address that is none. -/
def sizeRange (w : Nat) : Nat := 2 ^ (8 * sizeofPtr w)

structure Block where
  addr : Nat
  len : Nat
  deriving DecidableEq, Repr

structure Heap where
  mem : Bytes
  /-- What `pvPortMalloc` handed out and nobody freed. -/
  blocks : List Block

/-- The heap after `pvPortMalloc(n)` answered a block, or null. -/
def Heap.pvPortMalloc (h : Heap) (n : Nat) : Option Nat → Heap
  | none => h
  | some p => { h with blocks := ⟨p, n⟩ :: h.blocks }

def Heap.vPortFree (h : Heap) (pv : Nat) : Heap :=
  if pv = 0 then h else { h with blocks := h.blocks.eraseP (·.addr = pv) }

/-- What `pvPortMalloc(n)` promises of its answer: a block of that length,
aligned to a pointer, apart from the blocks in use, with an end that is an
address. -/
def Answers (w : Nat) (h : Heap) (n : Nat) (answer : Option Nat) : Prop :=
  ∀ p ∈ answer, p ≠ 0 ∧ p % sizeofPtr w = 0 ∧ p + n < sizeRange w ∧
    ∀ b ∈ h.blocks, p + n ≤ b.addr ∨ b.addr + b.len ≤ p

instance (w : Nat) (h : Heap) (n : Nat) (answer : Option Nat) : Decidable (Answers w h n answer) :=
  inferInstanceAs (Decidable (∀ p ∈ answer, _))

/-- `((void **)p)[-1]`. -/
def wordBelow (w p : Nat) : Nat := (p + sizeRange w - sizeofPtr w) % sizeRange w

def Heap.storePtr (w : Nat) (h : Heap) (a v : Nat) : Heap :=
  { h with mem := store h.mem a (sizeofPtr w) v }

/-- `__wrap_malloc`: its result, 0 for null, and the heap after it. -/
def wrapMalloc (w : Nat) (h : Heap) (size : Nat) (answer : Option Nat) : Nat × Heap :=
  let h := h.pvPortMalloc ((size + sizeofPtr w) % sizeRange w) answer
  match answer with
  | none => (0, h)
  | some p => ((p + sizeofPtr w) % sizeRange w, h.storePtr w p p)

/-- `__wrap__malloc_r`. -/
def wrapMallocR (w : Nat) (h : Heap) (size : Nat) (answer : Option Nat) : Nat × Heap :=
  wrapMalloc w h size answer

/-- The alignment of `__wrap__memalign_r`, at least that of a pointer. -/
def atLeastPtr (w al : Nat) : Nat := if al < sizeofPtr w then sizeofPtr w else al

/-- `__wrap__memalign_r`; `-al` is the negation in `size_t`. -/
def wrapMemalignR (w : Nat) (h : Heap) (al size : Nat) (answer : Option Nat) : Nat × Heap :=
  let al := atLeastPtr w al
  let h := h.pvPortMalloc ((size + al) % sizeRange w) answer
  match answer with
  | none => (0, h)
  | some p =>
      let alignedPtr := ((p &&& (sizeRange w - al)) + al) % sizeRange w
      (alignedPtr, h.storePtr w (wordBelow w alignedPtr) p)

/-- `__wrap_free`: the address it passes to `vPortFree`, and the heap after it. -/
def wrapFree (w : Nat) (h : Heap) (p : Nat) : Nat × Heap :=
  let realPtr := load h.mem (wordBelow w p) (sizeofPtr w)
  (realPtr, h.vPortFree realPtr)

/-- A call of one of the allocation entries. -/
inductive Request where
  | malloc (size : Nat)
  | mallocR (size : Nat)
  | memalignR (al size : Nat)
  deriving DecidableEq, Repr

namespace Request

def size : Request → Nat
  | malloc size | mallocR size | memalignR _ size => size

/-- What the entry asks for on top of the size. -/
def overhead (w : Nat) : Request → Nat
  | malloc _ | mallocR _ => sizeofPtr w
  | memalignR al _ => atLeastPtr w al

/-- The arguments are values of `size_t`, and an alignment is a power of two. -/
def Valid (w : Nat) (r : Request) : Prop :=
  r.size < sizeRange w ∧ match r with
    | memalignR al _ => al < sizeRange w ∧ al = 2 ^ al.log2
    | _ => True

instance (w : Nat) (r : Request) : Decidable (r.Valid w) := by
  unfold Valid
  cases r <;> infer_instance

def run (w : Nat) (h : Heap) : Request → Option Nat → Nat × Heap
  | malloc size => wrapMalloc w h size
  | mallocR size => wrapMallocR w h size
  | memalignR al size => wrapMemalignR w h al size

/-- The result for a block at `p`, before it wraps at the end of the addresses. -/
def address (w p : Nat) : Request → Nat
  | malloc _ | mallocR _ => p + sizeofPtr w
  | memalignR al _ => (p &&& (sizeRange w - atLeastPtr w al)) + atLeastPtr w al

end Request

variable {w : Nat}

theorem sizeofPtr_pos (w : Nat) : 0 < sizeofPtr w := Nat.two_pow_pos w

theorem sizeofPtr_lt (w : Nat) : sizeofPtr w < sizeRange w := by
  apply Nat.pow_lt_pow_right (by decide)
  have h := Nat.lt_two_pow_self (n := w)
  unfold sizeofPtr
  omega

/-- A pointer holds any address. -/
theorem sizeRange_eq (w : Nat) : sizeRange w = 256 ^ sizeofPtr w := by
  rw [sizeRange, Nat.pow_mul]

/-- The saved address sits right below the result, unless that is null. -/
theorem wordBelow_of_le {p : Nat} (hLow : sizeofPtr w ≤ p) (hHigh : p < sizeRange w) :
    wordBelow w p = p - sizeofPtr w := by
  have hSplit : p + sizeRange w - sizeofPtr w = p - sizeofPtr w + sizeRange w := by omega
  rw [wordBelow, hSplit, Nat.add_mod_right, Nat.mod_eq_of_lt (by omega)]

theorem wordBelow_add {p : Nat} (h : p < sizeRange w) :
    wordBelow w ((p + sizeofPtr w) % sizeRange w) = p := by
  have hPtr := sizeofPtr_lt w
  rcases Nat.lt_or_ge (p + sizeofPtr w) (sizeRange w) with hIn | hOut
  · rw [Nat.mod_eq_of_lt hIn, wordBelow_of_le (by omega) hIn]
    omega
  · rw [Nat.mod_eq_sub_mod hOut, Nat.mod_eq_of_lt (by omega), wordBelow, Nat.mod_eq_of_lt (by omega)]
    omega

/-- The clamped alignment is a power of two between a pointer and `size_t`. -/
theorem atLeastPtr_eq {al : Nat} (hRange : al < sizeRange w) (hPower : al = 2 ^ al.log2) :
    ∃ j, atLeastPtr w al = 2 ^ j ∧ w ≤ j ∧ j < 8 * sizeofPtr w := by
  unfold atLeastPtr
  split
  · exact ⟨w, rfl, Nat.le_refl w, (Nat.pow_lt_pow_iff_right (by decide)).mp (sizeofPtr_lt w)⟩
  · refine ⟨al.log2, hPower, ?_, ?_⟩
    · apply (Nat.pow_le_pow_iff_right (a := 2) (by decide)).mp
      rw [← hPower]
      exact Nat.not_lt.mp ‹_›
    · apply (Nat.pow_lt_pow_iff_right (a := 2) (by decide)).mp
      rw [← hPower]
      exact hRange

/-- The address handed out by `__wrap__memalign_r` is the first multiple of the
alignment above the block's start. -/
theorem alignedPtr_eq {al p : Nat} (hRange : al < sizeRange w) (hPower : al = 2 ^ al.log2)
    (hAddr : p < sizeRange w) :
    (p &&& (sizeRange w - atLeastPtr w al)) + atLeastPtr w al =
      atLeastPtr w al * (p / atLeastPtr w al + 1) := by
  obtain ⟨j, hAl, _, hj⟩ := atLeastPtr_eq hRange hPower
  rw [hAl, sizeRange, and_mask hAddr (Nat.le_of_lt hj), Nat.mul_succ]

/-- Multiples of a divisor are at least one divisor apart. -/
theorem add_le_of_dvd {d x y : Nat} (hx : d ∣ x) (hy : d ∣ y) (h : x < y) : x + d ≤ y := by
  obtain ⟨a, rfl⟩ := hx
  obtain ⟨b, rfl⟩ := hy
  have hLt : a < b := Nat.lt_of_mul_lt_mul_left h
  rw [← Nat.mul_succ]
  exact Nat.mul_le_mul_left d hLt

namespace Request

variable {r : Request} {p : Nat}

/-- The result leaves room for the saved address and stays within the overhead. -/
theorem address_bounds (hValid : r.Valid w) (hWord : p % sizeofPtr w = 0) (hAddr : p < sizeRange w) :
    p + sizeofPtr w ≤ r.address w p ∧ r.address w p ≤ p + r.overhead w := by
  cases r with
  | malloc size => exact ⟨Nat.le_refl _, Nat.le_refl _⟩
  | mallocR size => exact ⟨Nat.le_refl _, Nat.le_refl _⟩
  | memalignR al size =>
      obtain ⟨_, hRange, hPower⟩ := hValid
      obtain ⟨j, hAl, hPtr, _⟩ := atLeastPtr_eq hRange hPower
      simp only [address, overhead]
      rw [alignedPtr_eq hRange hPower hAddr]
      have hFloor := Nat.mul_div_le p (atLeastPtr w al)
      have hAbove : p < atLeastPtr w al * (p / atLeastPtr w al + 1) :=
        Nat.lt_mul_div_succ p (by rw [hAl]; exact Nat.two_pow_pos j)
      have hWords : sizeofPtr w ∣ atLeastPtr w al := by
        rw [hAl]
        exact Nat.pow_dvd_pow 2 hPtr
      refine ⟨add_le_of_dvd (Nat.dvd_of_mod_eq_zero hWord) (Dvd.dvd.mul_right hWords _) hAbove, ?_⟩
      rw [Nat.mul_succ]
      omega

theorem dvd_address {al size : Nat} (hValid : (memalignR al size).Valid w) (hAddr : p < sizeRange w) :
    al ∣ (memalignR al size).address w p := by
  obtain ⟨_, hRange, hPower⟩ := hValid
  simp only [address]
  rw [alignedPtr_eq hRange hPower hAddr]
  apply Dvd.dvd.mul_right
  unfold atLeastPtr
  split
  · rw [hPower]
    apply Nat.pow_dvd_pow 2
    apply Nat.le_of_lt
    apply (Nat.pow_lt_pow_iff_right (a := 2) (by decide)).mp
    rw [← hPower]
    assumption
  · exact Nat.dvd_refl al

/-- A request that gets no block answers null and changes nothing. -/
theorem run_none (h : Heap) : r.run w h none = (0, h) := by
  cases r <;> rfl

/-- A request that gets a block saves its address below the result. -/
theorem run_some (h : Heap) (hAddr : p < sizeRange w) :
    r.run w h (some p) = (r.address w p % sizeRange w,
      { mem := store h.mem (wordBelow w (r.address w p % sizeRange w)) (sizeofPtr w) p
        blocks := ⟨p, (r.size + r.overhead w) % sizeRange w⟩ :: h.blocks }) := by
  cases r with
  | malloc size => simp only [run, wrapMalloc, address, wordBelow_add hAddr]; rfl
  | mallocR size => simp only [run, wrapMallocR, wrapMalloc, address, wordBelow_add hAddr]; rfl
  | memalignR al size => rfl

end Request

end FreeRtos.Alloc
