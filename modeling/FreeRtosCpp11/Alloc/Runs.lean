import FreeRtosCpp11.Alloc.Requests
import FreeRtosCpp11.Transition.Run
import Mathlib.Data.List.Pairwise

/-! Runs of the allocation entries: calls whose length does not wrap, writes of
the clients inside their results, frees of results in use, and writes of
anybody else outside the blocks in use. -/
namespace FreeRtos.Alloc

open Memory

/-- A result in use, with the block that `pvPortMalloc` answered for it. -/
structure Live where
  request : Request
  result : Nat
  block : Block
  deriving DecidableEq, Repr

structure St where
  heap : Heap
  live : List Live

inductive Act where
  /-- `pvPortMalloc` gives this answer. -/
  | alloc (r : Request) (answer : Option Nat)
  /-- A client writes a byte of a result. -/
  | write (a : Nat) (v : UInt8)
  | free (p : Nat)
  /-- The heap, or the owner of other memory, writes a byte. -/
  | outside (a : Nat) (v : UInt8)
  deriving DecidableEq

def Heap.write (h : Heap) (a : Nat) (v : UInt8) : Heap := { h with mem := Function.update h.mem a v }

def next (w : Nat) (s : St) : Act → Option St
  | .alloc r answer =>
      if r.Valid w ∧ r.size + r.overhead w < sizeRange w ∧ Answers w s.heap (r.wanted w) answer then
        let (result, heap) := r.run w s.heap answer
        some { heap := heap
               live := answer.elim s.live fun p => ⟨r, result, p, r.wanted w⟩ :: s.live }
      else none
  | .write a v =>
      if ∃ x ∈ s.live, InRange x.result x.request.size a then some { s with heap := s.heap.write a v }
      else none
  | .free p =>
      if ∃ x ∈ s.live, x.result = p then
        some { heap := (wrapFree w s.heap p).2, live := s.live.eraseP (·.result = p) }
      else none
  | .outside a v =>
      if ∀ b ∈ s.heap.blocks, ¬ InRange b.addr b.len a then some { s with heap := s.heap.write a v }
      else none

def system (w : Nat) : Transition.System St Act where
  start s := s.live = [] ∧ s.heap.blocks = []
  next := next w

/-- The saved address of a result. -/
def Live.saved (w : Nat) (h : Heap) (x : Live) : Nat := load h.mem (wordBelow w x.result) (sizeofPtr w)

/-- Where a result lies in its block. -/
structure Live.Placed (w : Nat) (x : Live) : Prop where
  notNull : x.block.addr ≠ 0
  /-- The saved address lies inside the block, below the payload. -/
  word : x.block.addr ≤ wordBelow w x.result ∧ wordBelow w x.result + sizeofPtr w ≤ x.result
  payload : x.result + x.request.size ≤ x.block.addr + x.block.len
  aligned : ∀ al size, x.request = .memalignR al size → al ∣ x.result

def Block.Apart (b c : Block) : Prop := b.addr + b.len ≤ c.addr ∨ c.addr + c.len ≤ b.addr

structure Sound (w : Nat) (s : St) : Prop where
  placed : ∀ x ∈ s.live, x.Placed w
  saved : ∀ x ∈ s.live, x.saved w s.heap = x.block.addr
  blocks : s.heap.blocks = s.live.map Live.block
  apart : s.live.Pairwise fun x y => x.block.Apart y.block

variable {w : Nat} {s s' : St} {a : Act} {trace : Transition.Trace St Act}

theorem Sound.start (h : (system w).start s) : Sound w s := by
  obtain ⟨hLive, hBlocks⟩ := h
  refine ⟨?_, ?_, ?_, ?_⟩ <;> simp [hLive, hBlocks]

theorem Sound.apart_of_ne (h : Sound w s) {x y : Live} (hx : x ∈ s.live) (hy : y ∈ s.live) (hNe : x ≠ y) :
    x.block.Apart y.block := by
  have hSymm : Std.Symm fun x y : Live => x.block.Apart y.block := ⟨fun x y h => h.symm⟩
  exact h.apart.forall hx hy hNe

/-- A block holds a pointer and the payload, so two results never share a start. -/
theorem Sound.eq_of_block (h : Sound w s) {x y : Live} (hx : x ∈ s.live) (hy : y ∈ s.live)
    (hSame : x.block.addr = y.block.addr) : x = y := by
  by_contra hNe
  have hApart := h.apart_of_ne hx hy hNe
  have hWord := sizeofPtr_pos w
  obtain ⟨_, hxWord, hxPayload, _⟩ := h.placed x hx
  obtain ⟨_, hyWord, hyPayload, _⟩ := h.placed y hy
  unfold Block.Apart at hApart
  omega

theorem Sound.eq_of_result (h : Sound w s) {x y : Live} (hx : x ∈ s.live) (hy : y ∈ s.live)
    (hSame : x.result = y.result) : x = y := by
  have hSaved : x.saved w s.heap = y.saved w s.heap := by rw [Live.saved, Live.saved, hSame]
  rw [h.saved x hx, h.saved y hy] at hSaved
  exact h.eq_of_block hx hy hSaved

/-- Memory may change outside the saved addresses. -/
theorem Sound.of_mem (h : Sound w s) {m : Bytes}
    (hSame : ∀ x ∈ s.live, load m (wordBelow w x.result) (sizeofPtr w) = x.saved w s.heap) :
    Sound w { s with heap := { s.heap with mem := m } } where
  placed := h.placed
  saved x hx := (hSame x hx).trans (h.saved x hx)
  blocks := h.blocks
  apart := h.apart

theorem load_write (h : Heap) {b k : Nat} (v : UInt8) {x : Nat} (hOut : ¬ InRange b k x) :
    load (h.write x v).mem b k = load h.mem b k := by
  refine load_congr fun y hy => ?_
  have hNe : y ≠ x := fun hEq => hOut (hEq ▸ hy)
  simp [Heap.write, hNe]

/-- A byte of a payload is in no saved address. -/
theorem Sound.not_saved_of_payload (h : Sound w s) {x y : Live} {b : Nat} (hx : x ∈ s.live)
    (hy : y ∈ s.live) (hIn : InRange y.result y.request.size b) :
    ¬ InRange (wordBelow w x.result) (sizeofPtr w) b := by
  obtain ⟨_, hxWord, hxPayload, _⟩ := h.placed x hx
  obtain ⟨_, hyWord, hyPayload, _⟩ := h.placed y hy
  unfold InRange at hIn ⊢
  rcases eq_or_ne x y with rfl | hNe
  · omega
  · have hApart := h.apart_of_ne hx hy hNe
    unfold Block.Apart at hApart
    omega

/-- A byte outside the blocks is in no saved address. -/
theorem Sound.not_saved_of_outside (h : Sound w s) {x : Live} {b : Nat} (hx : x ∈ s.live)
    (hOut : ∀ b' ∈ s.heap.blocks, ¬ InRange b'.addr b'.len b) :
    ¬ InRange (wordBelow w x.result) (sizeofPtr w) b := by
  obtain ⟨_, hWord, hPayload, _⟩ := h.placed x hx
  have hBlock := hOut x.block (by rw [h.blocks]; exact List.mem_map_of_mem hx)
  unfold InRange at hBlock ⊢
  omega

/-- What a step does. -/
theorem cases_of_next (hNext : next w s a = some s') :
    (∃ r, a = .alloc r none ∧ s' = s) ∨
    (∃ r p, a = .alloc r (some p) ∧ r.Valid w ∧ r.size + r.overhead w < sizeRange w ∧
      Answers w s.heap (r.wanted w) (some p) ∧
      s' = { heap := (r.run w s.heap (some p)).2
             live := ⟨r, (r.run w s.heap (some p)).1, p, r.wanted w⟩ :: s.live }) ∨
    (∃ b v, a = .write b v ∧ (∃ x ∈ s.live, InRange x.result x.request.size b) ∧
      s' = { s with heap := s.heap.write b v }) ∨
    (∃ x ∈ s.live, a = .free x.result ∧
      s' = { heap := (wrapFree w s.heap x.result).2, live := s.live.eraseP (·.result = x.result) }) ∨
    (∃ b v, a = .outside b v ∧ (∀ b' ∈ s.heap.blocks, ¬ InRange b'.addr b'.len b) ∧
      s' = { s with heap := s.heap.write b v }) := by
  cases a with
  | alloc r answer =>
      simp only [next, Option.ite_none_right_eq_some, Option.some.injEq] at hNext
      obtain ⟨⟨hValid, hFits, hAnswers⟩, rfl⟩ := hNext
      cases answer with
      | none => exact .inl ⟨r, rfl, by simp [Request.run_none]⟩
      | some p => exact .inr (.inl ⟨r, p, rfl, hValid, hFits, hAnswers, rfl⟩)
  | write b v =>
      simp only [next, Option.ite_none_right_eq_some, Option.some.injEq] at hNext
      exact .inr (.inr (.inl ⟨b, v, rfl, hNext.1, hNext.2.symm⟩))
  | free p =>
      simp only [next, Option.ite_none_right_eq_some, Option.some.injEq] at hNext
      obtain ⟨⟨x, hMem, rfl⟩, rfl⟩ := hNext
      exact .inr (.inr (.inr (.inl ⟨x, hMem, rfl, rfl⟩)))
  | outside b v =>
      simp only [next, Option.ite_none_right_eq_some, Option.some.injEq] at hNext
      exact .inr (.inr (.inr (.inr ⟨b, v, rfl, hNext.1, hNext.2.symm⟩)))

/-- A new result lies in its block, whichever entry answered it. -/
theorem placed_of_run {h : Heap} {r : Request} {p : Nat} (hValid : r.Valid w)
    (hFits : r.size + r.overhead w < sizeRange w) (hAnswers : Answers w h (r.wanted w) (some p)) :
    (Live.mk r (r.run w h (some p)).1 ⟨p, r.wanted w⟩).Placed w := by
  obtain ⟨hSome, hWord, hEnd, _⟩ := hAnswers p rfl
  have hWanted : r.wanted w = r.size + r.overhead w := Nat.mod_eq_of_lt hFits
  rw [hWanted] at hEnd
  have hAddr : p < sizeRange w := by omega
  obtain ⟨hMod, hBelow, hLow, hHigh⟩ := Request.address_inside hValid hWord hEnd
  rw [Request.run_some h hAddr, hWanted]
  refine ⟨hSome, ?_, ?_, ?_⟩
  · simp only [hMod]
    omega
  · simp only [hMod]
    omega
  · rintro al size rfl
    simp only [hMod]
    exact Request.dvd_address hValid hAddr

theorem Sound.alloc (h : Sound w s) {r : Request} {p : Nat} (hValid : r.Valid w)
    (hFits : r.size + r.overhead w < sizeRange w)
    (hAnswers : Answers w s.heap (r.wanted w) (some p)) :
    Sound w { heap := (r.run w s.heap (some p)).2
              live := ⟨r, (r.run w s.heap (some p)).1, p, r.wanted w⟩ :: s.live } := by
  have hNew := placed_of_run hValid hFits hAnswers
  obtain ⟨_, _, hEnd, hApart⟩ := hAnswers p rfl
  have hAddr : p < sizeRange w := by omega
  have hApartLive : ∀ x ∈ s.live, Block.Apart ⟨p, r.wanted w⟩ x.block := fun x hx =>
    hApart x.block (by rw [h.blocks]; exact List.mem_map_of_mem hx)
  refine ⟨?_, ?_, ?_, List.pairwise_cons.mpr ⟨hApartLive, h.apart⟩⟩
  · intro x hx
    rcases List.mem_cons.mp hx with rfl | hOld
    · exact hNew
    · exact h.placed x hOld
  · intro x hx
    rcases List.mem_cons.mp hx with rfl | hOld
    · exact Request.load_run hAddr
    · rw [← h.saved x hOld, Live.saved, Request.run_some s.heap hAddr]
      refine load_store_of_disjoint s.heap.mem p ?_
      -- the two words lie in blocks apart from each other
      have hWord := hNew.word
      have hPayload := hNew.payload
      obtain ⟨_, hxWord, hxPayload, _⟩ := h.placed x hOld
      have hxApart := hApartLive x hOld
      rw [Request.run_some s.heap hAddr] at hWord hPayload
      simp only [Block.Apart] at hWord hPayload hxApart
      omega
  · rw [Request.run_some s.heap hAddr, List.map_cons, ← h.blocks]
    rfl

/-- Erasing depends on the elements of the list alone. -/
theorem eraseP_congr {α : Type} {p q : α → Bool} {l : List α} (h : ∀ x ∈ l, p x = q x) :
    l.eraseP p = l.eraseP q := by
  induction l with
  | nil => rfl
  | cons x l ih =>
      rw [List.eraseP_cons, List.eraseP_cons, h x List.mem_cons_self,
        ih fun y hy => h y (List.mem_cons_of_mem x hy)]

/-- A free passes the saved address on, and gives that block back. -/
theorem Sound.wrapFree_eq (h : Sound w s) {x : Live} (hx : x ∈ s.live) :
    wrapFree w s.heap x.result = (x.block.addr,
      { s.heap with blocks := (s.live.eraseP (·.result = x.result)).map Live.block }) := by
  have hSaved := h.saved x hx
  have hErase : (s.live.map Live.block).eraseP (·.addr = x.block.addr) =
      (s.live.eraseP (·.result = x.result)).map Live.block := by
    rw [List.eraseP_map]
    refine congrArg (List.map Live.block) (eraseP_congr fun y hy => ?_)
    rw [Function.comp_apply, decide_eq_decide]
    exact ⟨fun hSame => h.eq_of_block hy hx hSame ▸ rfl, fun hSame => h.eq_of_result hy hx hSame ▸ rfl⟩
  unfold Live.saved at hSaved
  simp only [wrapFree, hSaved, Heap.vPortFree, if_neg (h.placed x hx).notNull]
  rw [h.blocks, hErase]

theorem Sound.erase_block (h : Sound w s) {x : Live} (hx : x ∈ s.live) :
    (s.live.map Live.block).erase x.block =
      (s.live.eraseP (·.result = x.result)).map Live.block := by
  rw [List.erase_eq_eraseP, List.eraseP_map]
  refine congrArg (List.map Live.block) (eraseP_congr fun y hy => ?_)
  rw [Function.comp_apply, beq_eq_decide, decide_eq_decide]
  exact ⟨fun hSame => h.eq_of_block hx hy (congrArg Block.addr hSame) ▸ rfl,
    fun hSame => h.eq_of_result hy hx hSame ▸ rfl⟩

theorem Sound.free (h : Sound w s) {x : Live} (hx : x ∈ s.live) :
    Sound w { heap := (wrapFree w s.heap x.result).2, live := s.live.eraseP (·.result = x.result) } := by
  rw [h.wrapFree_eq hx]
  exact ⟨fun y hy => h.placed y (List.mem_of_mem_eraseP hy), fun y hy => h.saved y (List.mem_of_mem_eraseP hy),
    rfl, h.apart.sublist List.eraseP_sublist⟩

theorem Sound.step (h : Sound w s) (hNext : next w s a = some s') : Sound w s' := by
  obtain ⟨r, rfl, rfl⟩ | ⟨r, p, rfl, hValid, hFits, hAnswers, rfl⟩ | ⟨b, v, rfl, ⟨y, hy, hIn⟩, rfl⟩ |
    ⟨x, hx, rfl, rfl⟩ | ⟨b, v, rfl, hOut, rfl⟩ := cases_of_next hNext
  · exact h
  · exact h.alloc hValid hFits hAnswers
  · exact h.of_mem fun x hx => load_write s.heap v (h.not_saved_of_payload hx hy hIn)
  · exact h.free hx
  · exact h.of_mem fun x hx => load_write s.heap v (h.not_saved_of_outside hx hOut)

/-- What holds of a result in use: the alignment asked for, and the saved
address and the payload side by side in its block. -/
structure Live.Intact (w : Nat) (x : Live) : Prop where
  aligned : ∀ al size, x.request = .memalignR al size → al ∣ x.result
  word : x.block.addr ≤ wordBelow w x.result
  apart : wordBelow w x.result + sizeofPtr w ≤ x.result
  payload : x.result + x.request.size ≤ x.block.addr + x.block.len

/-- What holds of a step: the clients' writes keep the saved addresses, and a
free passes the address of the block to `vPortFree`, which takes that block and
no other off the heap. -/
structure Keeps (w : Nat) (s : St) (a : Act) (s' : St) : Prop where
  saved : ∀ b v, a = .write b v → ∀ x ∈ s.live, x.saved w s'.heap = x.saved w s.heap
  freed : ∀ p, a = .free p → ∀ x ∈ s.live, x.result = p → (wrapFree w s.heap p).1 = x.block.addr ∧
    s'.heap = s.heap.vPortFree x.block.addr ∧ s'.heap.blocks = s.heap.blocks.erase x.block

theorem Sound.keeps (h : Sound w s) (hNext : next w s a = some s') : Keeps w s a s' := by
  refine ⟨?_, ?_⟩
  · rintro b v rfl x hx
    simp only [next, Option.ite_none_right_eq_some, Option.some.injEq] at hNext
    obtain ⟨⟨y, hy, hIn⟩, rfl⟩ := hNext
    exact load_write s.heap v (h.not_saved_of_payload hx hy hIn)
  · rintro p rfl x hx rfl
    simp only [next, Option.ite_none_right_eq_some, Option.some.injEq] at hNext
    obtain ⟨_, rfl⟩ := hNext
    have hFree := h.wrapFree_eq hx
    have hPassed := congrArg Prod.fst hFree
    refine ⟨hPassed, congrArg s.heap.vPortFree hPassed, ?_⟩
    rw [hFree, h.blocks, h.erase_block hx]

/-- The allocation entries and the free agree over every run. -/
theorem intact_of_reaches (hRun : (system w).Reaches trace s) :
    (∀ x ∈ s.live, x.Intact w) ∧ (system w).AtEachStep trace fun _ => Keeps w := by
  obtain ⟨s₀, hStart, run⟩ := hRun
  have hAll : Transition.Guarded (fun _ _ => true) trace := fun _ _ => rfl
  refine ⟨fun x hx => ?_, ?_⟩
  · have hSound := run.invariant hAll (Sound.start hStart) fun t a u h _ hNext => h.step hNext
    obtain ⟨_, hWord, hPayload, hAligned⟩ := hSound.placed x hx
    exact ⟨hAligned, hWord.1, hWord.2, hPayload⟩
  · exact run.atEachStep (P := fun _ => Sound w) hAll (Sound.start hStart)
      (fun _ t a u h _ hNext => h.step hNext) fun _ t a u h _ hNext => h.keeps hNext

/-- Both layouts at once, a failure, writes, and the free of the aligned result. -/
def mixedCalls : List Act :=
  [.alloc (.memalignR 64 8) (some 4100), .alloc (.malloc 8) (some 8192), .alloc (.mallocR 4) none,
    .write 4160 7, .outside 4096 9, .free 4160]

theorem intact_of_reaches_mixedCalls :
    ∃ s : St, (system 2).exec ⟨⟨fun _ => 0, []⟩, []⟩ mixedCalls = some s ∧
      s.live = [⟨.malloc 8, 8196, 8192, 12⟩] ∧ ((∀ x ∈ s.live, x.Intact 2) ∧
        (system 2).AtEachStep ((system 2).replay ⟨⟨fun _ => 0, []⟩, []⟩ mixedCalls) fun _ => Keeps 2) :=
  ⟨_, rfl, rfl, intact_of_reaches ⟨_, ⟨rfl, rfl⟩, Transition.System.run_of_exec mixedCalls rfl⟩⟩

end FreeRtos.Alloc
