import Mathlib.Algebra.GroupWithZero.Nat
import Mathlib.Data.List.Chain

/-! Intervals cut into tiles that are free or in use. The tiles of a list lie
side by side without gap or overlap. Giving a tile in use back joins it with the
free ones next to it, so that no two free tiles ever touch. -/
namespace Memory

structure Tile where
  addr : Nat
  len : Nat
  free : Bool
  deriving DecidableEq, Repr

/-- The tiles cover the addresses from `a` up to `e`, in order. -/
def Tiling : Nat → Nat → List Tile → Prop
  | a, e, [] => a = e
  | a, e, t :: l => t.addr = a ∧ 0 < t.len ∧ Tiling (t.addr + t.len) e l

/-- Two free tiles never touch. -/
def Coalesced (l : List Tile) : Prop := l.IsChain fun t u => t.free = true → u.free = false

/-- The free bytes among the tiles. -/
def freeBytes (l : List Tile) : Nat := ((l.filter (·.free)).map Tile.len).sum

def usedBytes (l : List Tile) : Nat := ((l.filter (!·.free)).map Tile.len).sum

/-- The tiles after `b` between `pre` and `post` was given back. -/
inductive Release : List Tile → Tile → List Tile → List Tile → Prop where
  | alone {pre post : List Tile} {b : Tile} (hPre : ∀ x ∈ pre.getLast?, x.free = false)
      (hPost : ∀ y ∈ post.head?, y.free = false) :
      Release pre b post (pre ++ ⟨b.addr, b.len, true⟩ :: post)
  | before {pre post : List Tile} {b x : Tile} (hx : x.free = true)
      (hPost : ∀ y ∈ post.head?, y.free = false) :
      Release (pre ++ [x]) b post (pre ++ ⟨x.addr, x.len + b.len, true⟩ :: post)
  | after {pre post : List Tile} {b y : Tile} (hPre : ∀ x ∈ pre.getLast?, x.free = false)
      (hy : y.free = true) :
      Release pre b (y :: post) (pre ++ ⟨b.addr, b.len + y.len, true⟩ :: post)
  | both {pre post : List Tile} {b x y : Tile} (hx : x.free = true) (hy : y.free = true) :
      Release (pre ++ [x]) b (y :: post) (pre ++ ⟨x.addr, x.len + b.len + y.len, true⟩ :: post)

/-- The tiles after the free tile `b` between `pre` and `post` was taken, whole
or for `n` bytes. -/
inductive Acquire (pre : List Tile) (b : Tile) (post : List Tile) (n : Nat) : List Tile → Prop where
  | whole : Acquire pre b post n (pre ++ ⟨b.addr, b.len, false⟩ :: post)
  | part (hPos : 0 < n) (hRest : n < b.len) :
      Acquire pre b post n (pre ++ ⟨b.addr, n, false⟩ :: ⟨b.addr + n, b.len - n, true⟩ :: post)

variable {a c e n : Nat} {b t u : Tile} {l m pre post tiles : List Tile}

theorem tiling_append : Tiling a e (l ++ m) ↔ ∃ c, Tiling a c l ∧ Tiling c e m := by
  induction l generalizing a with
  | nil => exact ⟨fun h => ⟨a, rfl, h⟩, fun ⟨_, hSame, h⟩ => hSame ▸ h⟩
  | cons t l ih =>
      rw [List.cons_append, Tiling, ih]
      constructor
      · intro ⟨hAddr, hLen, c, hLeft, hRight⟩
        exact ⟨c, ⟨hAddr, hLen, hLeft⟩, hRight⟩
      · intro ⟨c, ⟨hAddr, hLen, hLeft⟩, hRight⟩
        exact ⟨hAddr, hLen, c, hLeft, hRight⟩

theorem Tiling.le (h : Tiling a e l) : a ≤ e := by
  induction l generalizing a with
  | nil => exact Nat.le_of_eq h
  | cons t l ih =>
      have hRest := ih h.2.2
      have hAddr := h.1
      omega

/-- Every tile lies inside the interval. -/
theorem Tiling.bounds (h : Tiling a e l) (ht : t ∈ l) : a ≤ t.addr ∧ 0 < t.len ∧ t.addr + t.len ≤ e := by
  induction l generalizing a with
  | nil => cases ht
  | cons u l ih =>
      have hAddr := h.1
      have hLen := h.2.1
      have hEnd := h.2.2.le
      cases ht with
      | head => exact ⟨by omega, hLen, hEnd⟩
      | tail _ hLater =>
          have hRest := ih h.2.2 hLater
          omega

/-- A tile cut out of a tiling lies right between the two rests. -/
theorem tiling_split : Tiling a e (pre ++ b :: post) ↔
    Tiling a b.addr pre ∧ 0 < b.len ∧ Tiling (b.addr + b.len) e post := by
  rw [tiling_append]
  constructor
  · intro ⟨c, hPre, hAddr, hLen, hPost⟩
    exact ⟨hAddr ▸ hPre, hLen, hPost⟩
  · intro ⟨hPre, hLen, hPost⟩
    exact ⟨b.addr, hPre, rfl, hLen, hPost⟩

theorem mem_around (b : Tile) (ht : t ∈ pre ++ post) : t ∈ pre ++ b :: post :=
  (List.Sublist.append_left (List.sublist_cons_self b post) pre).subset ht

theorem Tiling.pairwise (h : Tiling a e l) : l.Pairwise fun t u => t.addr + t.len ≤ u.addr := by
  induction l generalizing a with
  | nil => exact List.Pairwise.nil
  | cons t l ih => exact List.Pairwise.cons (fun u hu => (h.2.2.bounds hu).1) (ih h.2.2)

theorem Tiling.pairwise_lt (h : Tiling a e l) : l.Pairwise fun t u => t.addr < u.addr := by
  refine h.pairwise.imp_of_mem fun {t u} ht _ hBefore => ?_
  have hLen := (h.bounds ht).2.1
  omega

theorem Tiling.length_le (h : Tiling a e l) : a + l.length ≤ e := by
  induction l generalizing a with
  | nil => exact Nat.le_of_eq h
  | cons t l ih =>
      have hRest := ih h.2.2
      have hAddr := h.1
      have hLen := h.2.1
      rw [List.length_cons]
      omega

/-- The start of a tile tells which tile it is. -/
theorem Tiling.eq_of_addr (h : Tiling a e l) (ht : t ∈ l) (hu : u ∈ l) (hSame : t.addr = u.addr) :
    t = u := by
  induction l generalizing a with
  | nil => cases ht
  | cons v l ih =>
      have hLater : ∀ w ∈ l, v.addr < w.addr := by
        intro w hw
        have hBounds := h.2.2.bounds hw
        have hLen := h.2.1
        omega
      cases ht with
      | head => cases hu with
        | head => rfl
        | tail _ hu => exact absurd hSame (Nat.ne_of_lt (hLater u hu))
      | tail _ ht => cases hu with
        | head => exact absurd hSame.symm (Nat.ne_of_lt (hLater t ht))
        | tail _ hu => exact ih h.2.2 ht hu

/-- No tile starts inside another one. -/
theorem Tiling.inside (h : Tiling a e l) (ht : t ∈ l) (hu : u ∈ l) :
    u.addr ≤ t.addr ∨ t.addr + t.len ≤ u.addr := by
  obtain ⟨pre, post, rfl⟩ := List.append_of_mem ht
  obtain ⟨hPre, _, hPost⟩ := tiling_split.mp h
  rcases List.mem_append.mp hu with hIn | hIn
  · have hBelow := hPre.bounds hIn
    omega
  · rcases List.mem_cons.mp hIn with rfl | hIn
    · omega
    · have hAbove := hPost.bounds hIn
      omega

/-- Lengths of whole units keep the starts at whole units. -/
theorem Tiling.dvd_addr (h : Tiling a e l) {d : Nat} (hStart : d ∣ a) (hLen : ∀ u ∈ l, d ∣ u.len) (ht : t ∈ l) :
    d ∣ t.addr := by
  induction l generalizing a with
  | nil => cases ht
  | cons u l ih =>
      rw [List.forall_mem_cons] at hLen
      cases ht with
      | head => exact h.1 ▸ hStart
      | tail _ ht =>
          refine ih h.2.2 ?_ hLen.2 ht
          exact Nat.dvd_add (h.1 ▸ hStart) hLen.1

/-- Only the last tile reaches the end. -/
theorem Tiling.getLast?_of_stop (h : Tiling a e l) (ht : t ∈ l) (hStop : t.addr + t.len = e) :
    l.getLast? = some t := by
  obtain ⟨pre, post, rfl⟩ := List.append_of_mem ht
  have hPost := (tiling_split.mp h).2.2
  cases post with
  | nil => simp
  | cons u post =>
      have hNext := hPost.1
      have hEnd := (hPost.bounds List.mem_cons_self).2
      omega

/-- Free and used bytes add up to the interval. -/
theorem Tiling.bytes (h : Tiling a e l) : freeBytes l + usedBytes l + a = e := by
  induction l generalizing a with
  | nil => simpa [freeBytes, usedBytes, Tiling] using h
  | cons t l ih =>
      have hRest := ih h.2.2
      have hAddr := h.1
      cases hFree : t.free <;> simp [freeBytes, usedBytes, hFree] at hRest ⊢ <;> omega

theorem Coalesced.tail (h : Coalesced (t :: l)) : Coalesced l := (List.isChain_cons.mp h).2

/-- What follows a free tile is in use. -/
theorem Coalesced.head_used (h : Coalesced (t :: l)) (hFree : t.free = true) :
    ∀ u ∈ l.head?, u.free = false :=
  fun u hu => (List.isChain_cons.mp h).1 u hu hFree

/-- Between two free tiles lies one in use. -/
theorem Tiling.free_apart (h : Tiling a e l) (hFree : Coalesced l) :
    ((l.filter (·.free)).map fun t => (t.addr, t.len)).Pairwise fun x y => x.1 + x.2 < y.1 := by
  induction l generalizing a with
  | nil => exact List.Pairwise.nil
  | cons t l ih =>
      cases ht : t.free with
      | false =>
          rw [List.filter_cons_of_neg (by simp [ht])]
          exact ih h.2.2 hFree.tail
      | true =>
          rw [List.filter_cons_of_pos ht, List.map_cons]
          refine List.Pairwise.cons ?_ (ih h.2.2 hFree.tail)
          simp only [List.mem_map, List.mem_filter]
          rintro _ ⟨u, ⟨hu, huFree⟩, rfl⟩
          cases l with
          | nil => cases hu
          | cons v l =>
              have hUsed := hFree.head_used ht v rfl
              rcases List.mem_cons.mp hu with rfl | hLater
              · rw [hUsed] at huFree
                cases huFree
              · obtain ⟨hNext, hLen, hRest⟩ := h.2.2
                have hBounds := hRest.bounds hLater
                simp only
                omega

theorem Coalesced.neighbours (h : Coalesced (pre ++ b :: post)) (hFree : b.free = true) :
    (∀ x ∈ pre.getLast?, x.free = false) ∧ ∀ y ∈ post.head?, y.free = false := by
  rw [Coalesced, List.isChain_append] at h
  refine ⟨fun x hx => ?_, Coalesced.head_used h.2.1 hFree⟩
  cases hxFree : x.free with
  | false => rfl
  | true =>
      have hClash := h.2.2 x hx b (by simp) hxFree
      rw [hFree] at hClash
      cases hClash

/-- The tiles in use that lie behind two free tiles at one place tell where
those end. -/
theorem Coalesced.head_eq (hl : Tiling a e (t :: l)) (hm : Tiling a e (u :: m)) (hlFree : Coalesced (t :: l))
    (hmFree : Coalesced (u :: m)) (ht : t.free = true) (hu : u.free = true)
    (hUsed : l.filter (!·.free) = m.filter (!·.free)) : t = u := by
  have hStop : t.addr + t.len = u.addr + u.len := by
    cases l with
    | nil => cases m with
      | nil => exact hl.2.2.trans hm.2.2.symm
      | cons v m =>
          rw [List.filter_cons_of_pos (by simp [hmFree.head_used hu v rfl])] at hUsed
          cases hUsed
    | cons w l =>
        rw [List.filter_cons_of_pos (by simp [hlFree.head_used ht w rfl])] at hUsed
        cases m with
        | nil => cases hUsed
        | cons v m =>
            rw [List.filter_cons_of_pos (by simp [hmFree.head_used hu v rfl])] at hUsed
            have hSame : w.addr = v.addr := congrArg Tile.addr (List.cons.inj hUsed).1
            exact hl.2.2.1.symm.trans (hSame.trans hm.2.2.1)
  have htAddr := hl.1
  have huAddr := hm.1
  cases t
  cases u
  simp only at *
  subst ht hu
  simp only [Tile.mk.injEq, and_true]
  omega

/-- Where the tiles in use lie tells the free ones, when these never touch. -/
theorem Tiling.eq_of_used (hl : Tiling a e l) (hm : Tiling a e m) (hlFree : Coalesced l) (hmFree : Coalesced m)
    (hUsed : l.filter (!·.free) = m.filter (!·.free)) : l = m := by
  induction l generalizing a m with
  | nil => cases m with
    | nil => rfl
    | cons u m =>
        have hLen := hm.2.1
        have hRest := hm.2.2.le
        have hAddr := hm.1
        have hEnd : a = e := hl
        omega
  | cons t l ih => cases m with
    | nil =>
        have hLen := hl.2.1
        have hRest := hl.2.2.le
        have hAddr := hl.1
        have hEnd : a = e := hm
        omega
    | cons u m =>
        have hAddr : t.addr = u.addr := hl.1.trans hm.1.symm
        have hHead : t = u := by
          cases ht : t.free with
          | false =>
              have hIn : t ∈ (u :: m).filter (!·.free) := by
                rw [← hUsed, List.filter_cons_of_pos (by simp [ht])]
                exact List.mem_cons_self
              exact hm.eq_of_addr (List.mem_of_mem_filter hIn) List.mem_cons_self hAddr
          | true => cases hu : u.free with
            | false =>
                have hIn : u ∈ (t :: l).filter (!·.free) := by
                  rw [hUsed, List.filter_cons_of_pos (by simp [hu])]
                  exact List.mem_cons_self
                exact hl.eq_of_addr List.mem_cons_self (List.mem_of_mem_filter hIn) hAddr
            | true =>
                rw [List.filter_cons_of_neg (by simp [ht]), List.filter_cons_of_neg (by simp [hu])] at hUsed
                exact Coalesced.head_eq hl hm hlFree hmFree ht hu hUsed
        subst hHead
        have hTail : l.filter (!·.free) = m.filter (!·.free) := by
          cases ht : t.free with
          | false =>
              rw [List.filter_cons_of_pos (by simp [ht]), List.filter_cons_of_pos (by simp [ht])] at hUsed
              exact (List.cons.inj hUsed).2
          | true => rwa [List.filter_cons_of_neg (by simp [ht]), List.filter_cons_of_neg (by simp [ht])] at hUsed
        rw [ih hl.2.2 hm.2.2 hlFree.tail hmFree.tail hTail]

theorem freeBytes_append : freeBytes (l ++ m) = freeBytes l + freeBytes m := by
  simp [freeBytes]

theorem freeBytes_cons : freeBytes (t :: l) = (if t.free then t.len else 0) + freeBytes l := by
  cases hFree : t.free <;> simp [freeBytes, hFree]

theorem len_le_freeBytes (ht : t ∈ l) (hFree : t.free = true) : t.len ≤ freeBytes l := by
  obtain ⟨pre, post, rfl⟩ := List.append_of_mem ht
  rw [freeBytes_append, freeBytes_cons, if_pos hFree]
  omega

namespace Acquire

theorem coalesced (h : Acquire pre b post n l) (hTiles : Coalesced (pre ++ b :: post)) (hb : b.free = true) :
    Coalesced l := by
  obtain ⟨hBefore, hAfter⟩ := hTiles.neighbours hb
  unfold Coalesced at hTiles ⊢
  rw [List.isChain_append, List.isChain_cons] at hTiles
  obtain ⟨hPre, ⟨_, hPost⟩, _⟩ := hTiles
  have hSide : ∀ x ∈ pre.getLast?, ∀ y : Tile, x.free = true → y.free = false := by
    intro x hx y hFree
    rw [hBefore x hx] at hFree
    cases hFree
  cases h with
  | whole =>
      rw [List.isChain_append, List.isChain_cons]
      exact ⟨hPre, ⟨fun y hy _ => hAfter y hy, hPost⟩, fun x hx y _ => hSide x hx y⟩
  | part =>
      rw [List.isChain_append, List.isChain_cons, List.isChain_cons]
      refine ⟨hPre, ⟨?_, fun y hy _ => hAfter y hy, hPost⟩, fun x hx y _ => hSide x hx y⟩
      intro y _ hFree
      cases hFree

/-- The tile at the place is the only new one in use. -/
theorem mem_used (h : Acquire pre b post n l) (ht : t ∈ l) (hUsed : t.free = false) :
    t ∈ pre ++ post ∨ t.addr = b.addr := by
  cases h with
  | whole =>
      rcases List.mem_append.mp ht with hPre | hRest
      · exact .inl (List.mem_append_left post hPre)
      · rcases List.mem_cons.mp hRest with rfl | hPost
        · exact .inr rfl
        · exact .inl (List.mem_append_right pre hPost)
  | part =>
      rcases List.mem_append.mp ht with hPre | hRest
      · exact .inl (List.mem_append_left post hPre)
      · rcases List.mem_cons.mp hRest with rfl | hRest
        · exact .inr rfl
        · rcases List.mem_cons.mp hRest with rfl | hPost
          · cases hUsed
          · exact .inl (List.mem_append_right pre hPost)

theorem mem_of_mem (h : Acquire pre b post n l) (ht : t ∈ pre ++ post) : t ∈ l := by
  rcases List.mem_append.mp ht with hPre | hPost
  · cases h <;> exact List.mem_append_left _ hPre
  · cases h <;> simp [hPost]

end Acquire

namespace Release

/-- Between tiles in use a tile stays alone. -/
theorem eq_alone (h : Release pre b post l) (hPre : ∀ x ∈ pre.getLast?, x.free = false)
    (hPost : ∀ y ∈ post.head?, y.free = false) : l = pre ++ ⟨b.addr, b.len, true⟩ :: post := by
  have hClash : ∀ {x : Tile}, x.free = true → x.free = false → False := by
    intro x hFree hUsed
    rw [hUsed] at hFree
    cases hFree
  cases h with
  | alone => rfl
  | before hx => exact (hClash hx (hPre _ (by simp))).elim
  | after _ hy => exact (hClash hy (hPost _ rfl)).elim
  | both hx => exact (hClash hx (hPre _ (by simp))).elim

theorem exists_release (pre : List Tile) (b : Tile) (post : List Tile) : ∃ l, Release pre b post l := by
  rcases List.eq_nil_or_concat pre with rfl | ⟨pre, x, rfl⟩
  · cases post with
    | nil => exact ⟨_, alone (by simp) (by simp)⟩
    | cons y post =>
        cases hy : y.free with
        | false => exact ⟨_, alone (by simp) (by simpa using hy)⟩
        | true => exact ⟨_, after (by simp) hy⟩
  · rw [List.concat_eq_append]
    cases hx : x.free with
    | false =>
        cases post with
        | nil => exact ⟨_, alone (by simpa using hx) (by simp)⟩
        | cons y post =>
            cases hy : y.free with
            | false => exact ⟨_, alone (by simpa using hx) (by simpa using hy)⟩
            | true => exact ⟨_, after (by simpa using hx) hy⟩
    | true =>
        cases post with
        | nil => exact ⟨_, before hx (by simp)⟩
        | cons y post =>
            cases hy : y.free with
            | false => exact ⟨_, before hx (by simpa using hy)⟩
            | true => exact ⟨_, both hx hy⟩

/-- The tiles stay side by side. -/
theorem tiling (h : Release pre b post l) (hTiles : Tiling a e (pre ++ b :: post)) : Tiling a e l := by
  obtain ⟨hPre, hLen, hPost⟩ := tiling_split.mp hTiles
  cases h with
  | alone => exact tiling_split.mpr ⟨hPre, hLen, hPost⟩
  | before =>
      obtain ⟨hBefore, hFirst, hStop⟩ := tiling_split.mp hPre
      rw [Tiling] at hStop
      refine tiling_split.mpr ⟨hBefore, Nat.add_pos_left hFirst _, ?_⟩
      rwa [← Nat.add_assoc, hStop]
  | after =>
      obtain ⟨hAddr, _, hAfter⟩ := hPost
      refine tiling_split.mpr ⟨hPre, Nat.add_pos_left hLen _, ?_⟩
      rwa [← Nat.add_assoc, ← hAddr]
  | both =>
      obtain ⟨hBefore, hFirst, hStop⟩ := tiling_split.mp hPre
      obtain ⟨hAddr, _, hAfter⟩ := hPost
      rw [Tiling] at hStop
      refine tiling_split.mpr ⟨hBefore, by simp only; omega, ?_⟩
      rwa [← Nat.add_assoc, ← Nat.add_assoc, hStop, ← hAddr]

/-- The tile lies in a free one afterwards. -/
theorem covers (h : Release pre b post l) (hTiles : Tiling a e (pre ++ b :: post)) :
    ∃ x ∈ l, x.free = true ∧ x.addr ≤ b.addr ∧ b.addr + b.len ≤ x.addr + x.len := by
  have hPre := (tiling_split.mp hTiles).1
  cases h with
  | alone => exact ⟨_, List.mem_append_right _ List.mem_cons_self, rfl, Nat.le_refl _, Nat.le_refl _⟩
  | before | both =>
      obtain ⟨_, _, hStop⟩ := tiling_split.mp hPre
      rw [Tiling] at hStop
      exact ⟨_, List.mem_append_right _ List.mem_cons_self, rfl, by simp only; omega, by simp only; omega⟩
  | after =>
      exact ⟨_, List.mem_append_right _ List.mem_cons_self, rfl, Nat.le_refl _, by simp only; omega⟩

/-- No two free tiles touch afterwards. -/
theorem coalesced (h : Release pre b post l) (hTiles : Coalesced (pre ++ b :: post)) : Coalesced l := by
  unfold Coalesced at hTiles ⊢
  rw [List.isChain_append, List.isChain_cons] at hTiles
  obtain ⟨hPre, ⟨_, hPost⟩, _⟩ := hTiles
  cases h with
  | alone hBefore hAfter =>
      rw [List.isChain_append, List.isChain_cons]
      refine ⟨hPre, ⟨fun y hy _ => hAfter y hy, hPost⟩, fun x hx y _ hFree => ?_⟩
      rw [hBefore x hx] at hFree
      cases hFree
  | @before pre _ _ x hx hAfter =>
      rw [List.isChain_append] at hPre
      rw [List.isChain_append, List.isChain_cons]
      refine ⟨hPre.1, ⟨fun y hy _ => hAfter y hy, hPost⟩, fun z hz y _ hFree => ?_⟩
      have hClash := hPre.2.2 z hz x (by simp) hFree
      rw [hx] at hClash
      cases hClash
  | @after _ post _ y hBefore hy =>
      rw [List.isChain_cons] at hPost
      rw [List.isChain_append, List.isChain_cons]
      refine ⟨hPre, ⟨fun z hz _ => hPost.1 z hz hy, hPost.2⟩, fun x hx z _ hFree => ?_⟩
      rw [hBefore x hx] at hFree
      cases hFree
  | @both pre post _ x y hx hy =>
      rw [List.isChain_append] at hPre
      rw [List.isChain_cons] at hPost
      rw [List.isChain_append, List.isChain_cons]
      refine ⟨hPre.1, ⟨fun z hz _ => hPost.1 z hz hy, hPost.2⟩, fun z hz w _ hFree => ?_⟩
      have hClash := hPre.2.2 z hz x (by simp) hFree
      rw [hx] at hClash
      cases hClash

/-- Exactly the bytes of the tile become free. -/
theorem freeBytes_eq (h : Release pre b post l) (hb : b.free = false) :
    freeBytes l = freeBytes (pre ++ b :: post) + b.len := by
  cases h with
  | alone => simp [freeBytes_append, freeBytes_cons, hb]; omega
  | before hx => simp [hb, hx, freeBytes]; omega
  | after _ hy => simp [freeBytes_append, freeBytes_cons, hb, hy]; omega
  | both hx hy => simp [hb, hx, hy, freeBytes]; omega

/-- The other tiles in use stay as they are. -/
theorem mem_used (h : Release pre b post l) (ht : t.free = false) : t ∈ l ↔ t ∈ pre ++ post := by
  have hNe : ∀ {u : Tile}, u.free = true → t ≠ u := by
    intro u hu hSame
    rw [← hSame, ht] at hu
    cases hu
  cases h with
  | alone => simp [hNe]
  | before hx => simp [hNe, hNe hx]
  | after _ hy => simp [hNe, hNe hy]
  | both hx hy => simp [hNe, hNe hx, hNe hy]

/-- A property of lengths that sums have holds of the joined tiles. -/
theorem forall_len (h : Release pre b post l) {P : Nat → Prop} (hAdd : ∀ x y, P x → P y → P (x + y))
    (hAll : ∀ t ∈ pre ++ b :: post, P t.len) : ∀ t ∈ l, P t.len := by
  have hb : P b.len := hAll b (by simp)
  cases h with
  | alone =>
      intro t ht
      rcases List.mem_append.mp ht with hPre | hRest
      · exact hAll t (by simp [hPre])
      · rcases List.mem_cons.mp hRest with rfl | hPost
        · exact hb
        · exact hAll t (by simp [hPost])
  | @before pre _ _ x =>
      have hx : P x.len := hAll x (by simp)
      intro t ht
      rcases List.mem_append.mp ht with hPre | hRest
      · exact hAll t (by simp [hPre])
      · rcases List.mem_cons.mp hRest with rfl | hPost
        · exact hAdd _ _ hx hb
        · exact hAll t (by simp [hPost])
  | @after _ post _ y =>
      have hy : P y.len := hAll y (by simp)
      intro t ht
      rcases List.mem_append.mp ht with hPre | hRest
      · exact hAll t (by simp [hPre])
      · rcases List.mem_cons.mp hRest with rfl | hPost
        · exact hAdd _ _ hb hy
        · exact hAll t (by simp [hPost])
  | @both pre post _ x y =>
      have hx : P x.len := hAll x (by simp)
      have hy : P y.len := hAll y (by simp)
      intro t ht
      rcases List.mem_append.mp ht with hPre | hRest
      · exact hAll t (by simp [hPre])
      · rcases List.mem_cons.mp hRest with rfl | hPost
        · exact hAdd _ _ (hAdd _ _ hx hb) hy
        · exact hAll t (by simp [hPost])

end Release

end Memory
