import Mathlib.Algebra.Group.Nat.Defs
import Mathlib.Logic.Function.Basic

/-! Words in a memory of bytes, least significant byte first, and the rounding
of addresses by a mask. The width of a word is a number of bytes. -/
namespace Memory

/-- The bytes by address. -/
abbrev Bytes := Nat → UInt8

/-- The address is one of `k` bytes from `a` on. -/
def InRange (a k x : Nat) : Prop := a ≤ x ∧ x < a + k

instance (a k x : Nat) : Decidable (InRange a k x) := inferInstanceAs (Decidable (_ ∧ _))

def load (m : Bytes) (a : Nat) : Nat → Nat
  | 0 => 0
  | k + 1 => (m a).toNat + 256 * load m (a + 1) k

def store (m : Bytes) (a : Nat) : Nat → Nat → Bytes
  | 0, _ => m
  | k + 1, v => Function.update (store m (a + 1) k (v / 256)) a (UInt8.ofNat v)

/-- A store changes no byte outside its word. -/
theorem store_of_not_inRange {a k x : Nat} (m : Bytes) (v : Nat) (h : ¬ InRange a k x) :
    store m a k v x = m x := by
  induction k generalizing a v with
  | zero => rfl
  | succ k ih =>
      unfold InRange at h ih
      rw [store, Function.update_of_ne (by omega)]
      exact ih (v / 256) (by omega)

/-- A load depends on the bytes of its word alone. -/
theorem load_congr {m m' : Bytes} {a k : Nat} (h : ∀ x, InRange a k x → m' x = m x) :
    load m' a k = load m a k := by
  induction k generalizing a with
  | zero => rfl
  | succ k ih =>
      unfold InRange at h ih
      rw [load, load, h a (by omega), ih fun x hx => h x (by omega)]

/-- A word that fits is read back. -/
theorem load_store (m : Bytes) {a k v : Nat} (h : v < 256 ^ k) : load (store m a k v) a k = v := by
  induction k generalizing a v with
  | zero =>
      rw [Nat.pow_zero] at h
      simp only [load]
      omega
  | succ k ih =>
      have hRest : load (store m a (k + 1) v) (a + 1) k = v / 256 := by
        rw [load_congr (m := store m (a + 1) k (v / 256)) fun x hx => ?_]
        · exact ih (by rw [Nat.pow_succ] at h; omega)
        · unfold InRange at hx
          rw [store, Function.update_of_ne (by omega)]
      have hFirst : (store m a (k + 1) v a).toNat = v % 256 := by
        rw [store, Function.update_self, UInt8.toNat_ofNat']
      rw [load, hRest, hFirst]
      omega

/-- A store beside a word leaves it alone. -/
theorem load_store_of_disjoint (m : Bytes) {a k b l : Nat} (v : Nat) (h : a + k ≤ b ∨ b + l ≤ a) :
    load (store m b l v) a k = load m a k := by
  refine load_congr fun x hx => store_of_not_inRange m v ?_
  unfold InRange at hx ⊢
  omega

/-- The mask of the bits from `j` on, of `n` bits, rounds down to a multiple of
`2 ^ j`. -/
theorem and_mask {p n j : Nat} (hp : p < 2 ^ n) (hj : j ≤ n) : p &&& (2 ^ n - 2 ^ j) = 2 ^ j * (p / 2 ^ j) := by
  have hMask : 2 ^ n - 2 ^ j = 2 ^ j * (2 ^ (n - j) - 1) := by
    rw [Nat.mul_sub, ← Nat.pow_add, Nat.add_sub_cancel' hj, Nat.mul_one]
  rw [hMask]
  refine Nat.eq_of_testBit_eq fun i => ?_
  rw [Nat.testBit_and, Nat.testBit_two_pow_mul, Nat.testBit_two_pow_mul, Nat.testBit_two_pow_sub_one,
    Nat.testBit_div_two_pow]
  rcases Nat.lt_or_ge i j with hLow | hHigh
  · simp [Nat.not_le.mpr hLow]
  · rw [Nat.sub_add_cancel hHigh]
    rcases Nat.lt_or_ge i n with hIn | hOut
    · simp [hHigh, Nat.sub_lt_sub_right hHigh hIn]
    · have hZero : p.testBit i = false :=
        Nat.testBit_lt_two_pow (Nat.lt_of_lt_of_le hp (Nat.pow_le_pow_right (by decide) hOut))
      simp [hZero]

end Memory
