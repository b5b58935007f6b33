import Aether.Kernel.Memory

/-!
# The shape of the heap

`WellFormed heap blocks` says that the list from `free_list` visits exactly `blocks`, most
recently carved first, and that these tile the carved part of the heap. `kmalloc_cases` and
`WellFormed.kfree` say once what a call can do to that list; every other fact about the heap is
derived from them.
-/

namespace Aether.Kernel

open ByteMemory

/-- One carved block: its header's address, the payload bytes the header records, and whether the
block waits for reuse. -/
structure Block where
  hdr : Nat
  size : Nat
  isFree : Bool
  deriving DecidableEq

namespace Block

/-- The address handed to the user. -/
def payload (b : Block) : Nat := b.hdr + sizeofMemHeader

/-- The address past the payload. -/
def fin (b : Block) : Nat := b.hdr + sizeofMemHeader + b.size

/-- The block serves a request of `size` bytes by reuse. -/
def Fits (size : Nat) (b : Block) : Prop := b.isFree = true ∧ size ≤ b.size

instance (size : Nat) (b : Block) : Decidable (b.Fits size) :=
  inferInstanceAs (Decidable (_ ∧ _))

end Block

/-- The header of `b`, with `next` as its link, is in memory. -/
structure HeaderAt (mem : Memory) (b : Block) (next : Nat) : Prop where
  size : load 8 mem b.hdr = b.size
  isFree : load 4 mem (b.hdr + 8) = if b.isFree then 1 else 0
  next : load 8 mem (b.hdr + 16) = next

/-- The list of headers from `head` visits `blocks`, which tile `[heapStart, top)` from the top
downwards. -/
def Chain (mem : Memory) : Nat → Nat → List Block → Prop
  | head, top, [] => head = 0 ∧ top = heapStart
  | head, top, b :: rest =>
      head = b.hdr ∧ b.fin = top ∧ 8 ∣ b.size ∧
        ∃ next, HeaderAt mem b next ∧ Chain mem next b.hdr rest

/-- The heap's list is `blocks`, and its carved part is within the heap. -/
structure WellFormed (heap : Heap) (blocks : List Block) : Prop where
  chain : Chain heap.mem heap.freeList heap.heapPtr blocks
  bound : heap.heapPtr ≤ heapEnd

/-! ## Geometry of a chain -/

section Geometry

variable {mem mem' : Memory} {head top : Nat} {blocks : List Block}

/-- The blocks lie above `heapStart`. -/
theorem Chain.start_le (h : Chain mem head top blocks) : heapStart ≤ top := by
  induction blocks generalizing head top with
  | nil => exact h.2.ge
  | cons b rest ih =>
      obtain ⟨_, hfin, _, _, _, hrest⟩ := h
      have := ih hrest
      simp only [Block.fin] at hfin
      omega

/-- Every block lies between `heapStart` and the top. -/
theorem Chain.within (h : Chain mem head top blocks) {b : Block} (hb : b ∈ blocks) :
    heapStart ≤ b.hdr ∧ b.fin ≤ top := by
  induction blocks generalizing head top with
  | nil => cases hb
  | cons c rest ih =>
      obtain ⟨_, hfin, _, _, _, hrest⟩ := h
      rcases List.mem_cons.mp hb with rfl | hb
      · exact ⟨hrest.start_le, hfin.le⟩
      · obtain ⟨hlow, hhigh⟩ := ih hrest hb
        refine ⟨hlow, ?_⟩
        have : c.hdr ≤ c.fin := by simp only [Block.fin]; omega
        omega

/-- Blocks appear in decreasing order of address and do not overlap. -/
theorem Chain.pairwise (h : Chain mem head top blocks) :
    blocks.Pairwise fun b c ↦ c.fin ≤ b.hdr := by
  induction blocks generalizing head top with
  | nil => exact .nil
  | cons b rest ih =>
      obtain ⟨_, _, _, _, _, hrest⟩ := h
      exact .cons (fun c hc ↦ (hrest.within hc).2) (ih hrest)

/-- Headers are distinct, so the list is acyclic. -/
theorem Chain.nodup (h : Chain mem head top blocks) : (blocks.map Block.hdr).Nodup := by
  rw [List.Nodup, List.pairwise_map]
  refine h.pairwise.imp fun hle heq ↦ ?_
  simp only [Block.fin, sizeofMemHeader] at hle
  omega

/-- Every header address is a multiple of eight, as is the top. -/
theorem Chain.aligned (h : Chain mem head top blocks) :
    8 ∣ top ∧ ∀ b ∈ blocks, 8 ∣ b.hdr := by
  induction blocks generalizing head top with
  | nil => exact ⟨h.2 ▸ by decide, by simp⟩
  | cons b rest ih =>
      obtain ⟨_, hfin, hsize, _, _, hrest⟩ := h
      obtain ⟨hhdr, hblocks⟩ := ih hrest
      refine ⟨?_, by simpa using ⟨hhdr, hblocks⟩⟩
      simp only [Block.fin, sizeofMemHeader] at hfin
      omega

/-- Each block takes up a header at least, which bounds their number. -/
theorem Chain.length_le (h : Chain mem head top blocks) :
    sizeofMemHeader * blocks.length + heapStart ≤ top := by
  induction blocks generalizing head top with
  | nil => simpa using h.2.ge
  | cons b rest ih =>
      obtain ⟨_, hfin, _, _, _, hrest⟩ := h
      have := ih hrest
      simp only [Block.fin] at hfin
      rw [List.length_cons, Nat.mul_succ]
      omega

/-- The blocks cover every address from `heapStart` to the top. -/
theorem Chain.covers (h : Chain mem head top blocks) (a : Nat) :
    (heapStart ≤ a ∧ a < top) ↔ ∃ b ∈ blocks, b.hdr ≤ a ∧ a < b.fin := by
  induction blocks generalizing head top with
  | nil =>
      have := h.2
      simp only [List.not_mem_nil, false_and, exists_false, iff_false]
      omega
  | cons b rest ih =>
      obtain ⟨_, hfin, _, _, _, hrest⟩ := h
      have hlow := hrest.start_le
      have hhdr : b.hdr ≤ b.fin := by simp only [Block.fin]; omega
      simp only [List.mem_cons, exists_eq_or_imp, ← ih hrest]
      omega

/-- A member of a chain's list has its header in memory. -/
theorem Chain.headerAt (h : Chain mem head top blocks) {b : Block} (hb : b ∈ blocks) :
    ∃ next, HeaderAt mem b next := by
  induction blocks generalizing head top with
  | nil => cases hb
  | cons c rest ih =>
      obtain ⟨_, _, _, next, hhdr, hrest⟩ := h
      rcases List.mem_cons.mp hb with rfl | hb
      · exact ⟨next, hhdr⟩
      · exact ih hrest hb

/-- A member of a chain's list starts above `heapStart`, so it is not `NULL`. -/
theorem Chain.hdr_ne_zero (h : Chain mem head top blocks) {b : Block} (hb : b ∈ blocks) :
    b.hdr ≠ 0 := by
  have := (h.within hb).1
  simp only [heapStart] at this
  omega

/-! ## Frames -/

/-- A header survives a change of memory elsewhere. -/
theorem HeaderAt.frame {b : Block} {next : Nat} (h : HeaderAt mem b next)
    (hmem : Agree b.hdr sizeofMemHeader mem mem') : HeaderAt mem' b next where
  size := (hmem.mono (by omega) (by simp [sizeofMemHeader])).load.trans h.size
  isFree := (hmem.mono (by omega) (by simp [sizeofMemHeader])).load.trans h.isFree
  next := (hmem.mono (by omega) (by simp [sizeofMemHeader])).load.trans h.next

/-- A chain depends only on the header bytes of its blocks. -/
theorem Chain.frame (h : Chain mem head top blocks)
    (hmem : ∀ b ∈ blocks, Agree b.hdr sizeofMemHeader mem mem') :
    Chain mem' head top blocks := by
  induction blocks generalizing head top with
  | nil => exact h
  | cons b rest ih =>
      obtain ⟨hhead, hfin, hsize, next, hhdr, hrest⟩ := h
      exact ⟨hhead, hfin, hsize, next, hhdr.frame (hmem b List.mem_cons_self),
        ih hrest fun c hc ↦ hmem c (List.mem_cons_of_mem b hc)⟩

/-- Setting one block's `is_free` word changes that block's flag and nothing else. -/
theorem Chain.setIsFree {b : Block} {pre post : List Block} (flag : Bool)
    (h : Chain mem head top (pre ++ b :: post)) :
    Chain (storeIsFree mem b.hdr (if flag then 1 else 0)) head top
      (pre ++ { b with isFree := flag } :: post) := by
  induction pre generalizing head top with
  | nil =>
      obtain ⟨hhead, hfin, hsize, next, hhdr, hrest⟩ := h
      refine ⟨hhead, hfin, hsize, next, ⟨?_, ?_, ?_⟩, hrest.frame fun c hc ↦ ?_⟩
      · exact (load_store_outside _ _ _ _ _ _ (.inl (by simp))).trans hhdr.size
      · have := load_store_same 4 mem (b.hdr + 8) (if flag then 1 else 0)
        cases flag <;> simpa [storeIsFree] using this
      · exact (load_store_outside _ _ _ _ _ _ (.inr (by simp))).trans hhdr.next
      · have := (hrest.within hc).2
        apply agree_store
        simp only [Block.fin] at this
        omega
  | cons c pre ih =>
      obtain ⟨hhead, hfin, hsize, next, hhdr, hrest⟩ := h
      refine ⟨hhead, hfin, hsize, next, hhdr.frame ?_, ih hrest⟩
      have := (hrest.within (b := b) (by simp)).2
      apply agree_store
      simp only [Block.fin, sizeofMemHeader] at this
      omega

end Geometry

/-- A freshly stored header is in memory. -/
theorem headerAt_storeHeader (mem : Memory) (b : Block) (next : Nat) (hsize : b.size < 2 ^ 64)
    (hnext : next < 2 ^ 64) :
    HeaderAt (storeHeader mem b.hdr ⟨b.size, if b.isFree then 1 else 0, next⟩) b next where
  size := by
    simp only [storeHeader, storeIsFree]
    rw [load_store_outside _ _ _ _ _ _ (by omega), load_store_outside _ _ _ _ _ _ (by omega),
      load_store_same]
    exact Nat.mod_eq_of_lt hsize
  isFree := by
    simp only [storeHeader, storeIsFree]
    rw [load_store_outside _ _ _ _ _ _ (by omega), load_store_same]
    cases b.isFree <;> rfl
  next := by
    simp only [storeHeader]
    rw [load_store_same]
    exact Nat.mod_eq_of_lt hnext

/-- Storing a header leaves every range outside it alone. -/
theorem agree_storeHeader (mem : Memory) (p : Nat) (header : MemHeader) (a n : Nat)
    (h : a + n ≤ p ∨ p + sizeofMemHeader ≤ a) : Agree a n mem (storeHeader mem p header) := by
  simp only [sizeofMemHeader] at h
  exact ((agree_store 8 mem p header.size a n (by omega)).trans
    (agree_store 4 _ (p + 8) header.isFree a n (by omega))).trans
    (agree_store 8 _ (p + 16) header.next a n (by omega))

/-! ## The walk over the list -/

/-- On a chain the loop of `kmalloc` ends within one step per block and finds the first fit. -/
theorem Chain.findFree_eq {mem : Memory} {head top : Nat} {blocks : List Block}
    (h : Chain mem head top blocks) (size fuel : Nat) (hfuel : blocks.length < fuel) :
    findFree mem size fuel head =
      some (((blocks.find? (·.Fits size)).map Block.hdr).getD 0) := by
  induction blocks generalizing head top fuel with
  | nil =>
      obtain ⟨fuel, rfl⟩ := Nat.exists_eq_add_of_lt hfuel
      simp [findFree, h.1]
  | cons b rest ih =>
      obtain ⟨fuel, rfl⟩ : ∃ k, fuel = k + 1 := ⟨fuel - 1, by simp at hfuel; omega⟩
      have hne := h.hdr_ne_zero List.mem_cons_self
      obtain ⟨rfl, _, _, next, hhdr, hrest⟩ := h
      have hflag : load 4 mem (b.hdr + 8) ≠ 0 ↔ b.isFree = true := by
        rw [hhdr.isFree]
        cases b.isFree <;> simp
      by_cases hfit : b.Fits size
      · have hcond : load 4 mem (b.hdr + 8) ≠ 0 ∧ size ≤ b.size := ⟨hflag.mpr hfit.1, hfit.2⟩
        simp [findFree, loadHeader, hne, hhdr.size, hcond, hfit]
      · have hcond : ¬ (load 4 mem (b.hdr + 8) ≠ 0 ∧ size ≤ b.size) := by
          rw [hflag]
          exact hfit
        simp only [findFree, hne, ↓reduceIte, loadHeader, hhdr.size, hcond, hhdr.next]
        rw [ih hrest fuel (by simpa using hfuel), List.find?_cons_of_neg (by simpa using hfit)]

/-- On a chain the header walk ends and returns the blocks' headers. -/
theorem Chain.walkHeaders_eq {mem : Memory} {head top : Nat} {blocks : List Block}
    (h : Chain mem head top blocks) (fuel : Nat) (hfuel : blocks.length < fuel) :
    walkHeaders mem fuel head = some (blocks.map Block.hdr) := by
  induction blocks generalizing head top fuel with
  | nil =>
      obtain ⟨fuel, rfl⟩ := Nat.exists_eq_add_of_lt hfuel
      simp [walkHeaders, h.1]
  | cons b rest ih =>
      obtain ⟨fuel, rfl⟩ : ∃ k, fuel = k + 1 := ⟨fuel - 1, by simp at hfuel; omega⟩
      have hne := h.hdr_ne_zero List.mem_cons_self
      obtain ⟨rfl, _, _, next, hhdr, hrest⟩ := h
      simp only [walkHeaders, hne, ↓reduceIte, loadHeader, hhdr.next,
        ih hrest fuel (by simpa using hfuel), Option.map_some, List.map_cons]

/-- A well-formed heap has fewer blocks than the walks have fuel. -/
theorem WellFormed.length_lt {heap : Heap} {blocks : List Block} (h : WellFormed heap blocks) :
    blocks.length < maxBlocks + 1 := by
  have hlen := h.chain.length_le
  have hbound := h.bound
  simp only [sizeofMemHeader, heapEnd, heapStart, heapSize, maxBlocks] at *
  omega

/-! ## What the two calls do -/

/-- The boot heap has no blocks. -/
theorem WellFormed.boot (mem : Memory) : WellFormed (Heap.boot mem) [] :=
  ⟨⟨rfl, rfl⟩, Nat.le_add_right _ _⟩

/-- Sizes of at most 32 bits are rounded up without wrapping. -/
theorem alignSize_spec {size : Nat} (h : size < 2 ^ 32) :
    size ≤ alignSize size ∧ alignSize size < size + 8 ∧ 8 ∣ alignSize size := by
  simp only [alignSize]
  omega

/-- The state after reusing `b`. -/
def Heap.reuse (heap : Heap) (b : Block) : Heap :=
  { heap with mem := storeIsFree heap.mem b.hdr 0 }

/-- The block that the bump path carves for a rounded size. -/
def Heap.nextBlock (heap : Heap) (size : Nat) : Block := ⟨heap.heapPtr, size, false⟩

/-- The state after carving a block for a rounded size. -/
def Heap.carve (heap : Heap) (size : Nat) : Heap :=
  { mem := storeHeader heap.mem heap.heapPtr ⟨size, 0, heap.freeList⟩
    heapPtr := heap.heapPtr + (sizeofMemHeader + size)
    freeList := heap.heapPtr }

/-- What a call of `kmalloc` does: reuse the first fitting block, or carve a new one at the bump
pointer, or fail and change nothing. -/
inductive Kmalloc (heap : Heap) (blocks : List Block) (size : Nat) :
    Nat → Heap → List Block → Prop where
  | reuse (pre : List Block) (b : Block) (post : List Block) :
      blocks = pre ++ b :: post → b.Fits (alignSize size) →
      (∀ c ∈ pre, ¬ c.Fits (alignSize size)) →
      Kmalloc heap blocks size b.payload (heap.reuse b)
        (pre ++ { b with isFree := false } :: post)
  | carve :
      (∀ c ∈ blocks, ¬ c.Fits (alignSize size)) →
      heap.heapPtr + (sizeofMemHeader + alignSize size) ≤ heapEnd →
      Kmalloc heap blocks size (heap.nextBlock (alignSize size)).payload
        (heap.carve (alignSize size)) (heap.nextBlock (alignSize size) :: blocks)
  | exhausted :
      (∀ c ∈ blocks, ¬ c.Fits (alignSize size)) →
      heapEnd < heap.heapPtr + (sizeofMemHeader + alignSize size) →
      Kmalloc heap blocks size 0 heap blocks

/-- Carving keeps the heap well formed. -/
theorem WellFormed.carve {heap : Heap} {blocks : List Block} (h : WellFormed heap blocks)
    {size : Nat} (hsize : 8 ∣ size)
    (hroom : heap.heapPtr + (sizeofMemHeader + size) ≤ heapEnd) :
    WellFormed (heap.carve size) (heap.nextBlock size :: blocks) := by
  have hhead : heap.freeList ≤ heap.heapPtr := by
    cases blocks with
    | nil => exact h.chain.1 ▸ Nat.zero_le _
    | cons b rest =>
        have := h.chain.2.1
        rw [h.chain.1]
        simp only [Block.fin] at this
        omega
  have hend : heapEnd < 2 ^ 64 := by decide
  refine ⟨⟨rfl, ?_, hsize, heap.freeList, ?_, ?_⟩, hroom⟩
  · simp only [Block.fin, Heap.nextBlock, Heap.carve]
    omega
  · exact headerAt_storeHeader heap.mem (heap.nextBlock size) heap.freeList
      (by simp only [Heap.nextBlock]; omega) (by omega)
  · refine h.chain.frame fun b hb ↦ agree_storeHeader _ _ _ _ _ (.inl ?_)
    have := (h.chain.within hb).2
    simp only [Block.fin] at this
    omega

/-- A request of any size on a well-formed heap gets the first block that fits, or what the wrapped
sum of the bump pointer, the header and the rounded size says. -/
theorem WellFormed.kmalloc_wrapped {heap : Heap} {blocks : List Block}
    (h : WellFormed heap blocks) (size : Nat) :
    kmalloc heap size = some (match blocks.find? (·.Fits (alignSize size)) with
      | some b => (b.payload, heap.reuse b)
      | none =>
          if heapEnd < (heap.heapPtr + (sizeofMemHeader + alignSize size)) % 2 ^ 64 then (0, heap)
          else ((heap.nextBlock (alignSize size)).payload, { heap.carve (alignSize size) with
            heapPtr := (heap.heapPtr + (sizeofMemHeader + alignSize size)) % 2 ^ 64 })) := by
  have hfind := h.chain.findFree_eq (alignSize size) _ h.length_lt
  cases hfit : blocks.find? (·.Fits (alignSize size)) with
  | some b =>
      have hne := h.chain.hdr_ne_zero (List.mem_of_find?_eq_some hfit)
      simp [kmalloc, hfind, hfit, hne, Block.payload, Heap.reuse]
  | none =>
      rw [hfit] at hfind
      have hwrap : (heap.heapPtr + (sizeofMemHeader + alignSize size) % 2 ^ 64) % 2 ^ 64 =
          (heap.heapPtr + (sizeofMemHeader + alignSize size)) % 2 ^ 64 := Nat.add_mod_mod ..
      simp only [kmalloc, hfind, hwrap, Option.map_none, Option.getD_none, ne_eq,
        not_true_eq_false, ↓reduceIte, Option.bind_eq_bind, Option.bind_some, Option.pure_def]
      split
      · rfl
      · rfl

/-- `kmalloc` on a well-formed heap takes the first block that fits, or the next one at the bump
pointer if there is room for it. -/
theorem WellFormed.kmalloc_eq {heap : Heap} {blocks : List Block} (h : WellFormed heap blocks)
    {size : Nat} (hsize : size < 2 ^ 32) :
    kmalloc heap size = some (match blocks.find? (·.Fits (alignSize size)) with
      | some b => (b.payload, heap.reuse b)
      | none =>
          if heap.heapPtr + (sizeofMemHeader + alignSize size) ≤ heapEnd then
            ((heap.nextBlock (alignSize size)).payload, heap.carve (alignSize size))
          else (0, heap)) := by
  have hbound := h.bound
  have hupper := (alignSize_spec hsize).2.1
  have hend : heapEnd < 2 ^ 33 := by decide
  have htop : (heap.heapPtr + (sizeofMemHeader + alignSize size)) % 2 ^ 64 =
      heap.heapPtr + (sizeofMemHeader + alignSize size) :=
    Nat.mod_eq_of_lt (by simp only [sizeofMemHeader]; omega)
  rw [h.kmalloc_wrapped, htop]
  cases hfit : blocks.find? (·.Fits (alignSize size)) with
  | some b => rfl
  | none =>
      by_cases hroom : heap.heapPtr + (sizeofMemHeader + alignSize size) ≤ heapEnd
      · simp only [hroom, Nat.not_lt.mpr hroom, ↓reduceIte, Heap.carve]
      · simp only [hroom, Nat.lt_of_not_le hroom, ↓reduceIte]

/-- Every call of `kmalloc` on a well-formed heap returns, does one of the three things of
`Kmalloc`, and leaves the heap well formed. -/
theorem kmalloc_cases {heap : Heap} {blocks : List Block} (h : WellFormed heap blocks)
    {size : Nat} (hsize : size < 2 ^ 32) :
    ∃ p heap' blocks', kmalloc heap size = some (p, heap') ∧
      Kmalloc heap blocks size p heap' blocks' ∧ WellFormed heap' blocks' := by
  have hcall := h.kmalloc_eq hsize
  cases hfit : blocks.find? (·.Fits (alignSize size)) with
  | some b =>
      rw [hfit] at hcall
      obtain ⟨hb, pre, post, rfl, hpre⟩ := List.find?_eq_some_iff_append.mp hfit
      exact ⟨b.payload, heap.reuse b, _, hcall, .reuse pre b post rfl (by simpa using hb)
        (by simpa using hpre), ⟨h.chain.setIsFree false, h.bound⟩⟩
  | none =>
      rw [hfit] at hcall
      have hno : ∀ c ∈ blocks, ¬ c.Fits (alignSize size) := by simpa using hfit
      by_cases hroom : heap.heapPtr + (sizeofMemHeader + alignSize size) ≤ heapEnd
      · rw [if_pos hroom] at hcall
        exact ⟨_, _, _, hcall, .carve hno hroom, h.carve (alignSize_spec hsize).2.2 hroom⟩
      · rw [if_neg hroom] at hcall
        exact ⟨0, heap, blocks, hcall, .exhausted hno (Nat.lt_of_not_le hroom), h⟩

/-- Freeing a block's payload marks that block free and keeps the heap well formed. -/
theorem WellFormed.kfree {heap : Heap} {pre post : List Block} {b : Block}
    (h : WellFormed heap (pre ++ b :: post)) :
    WellFormed (kfree heap b.payload) (pre ++ { b with isFree := true } :: post) := by
  have hne : b.payload ≠ 0 := by simp [Block.payload, sizeofMemHeader]
  have hhdr : b.payload - sizeofMemHeader = b.hdr := Nat.add_sub_cancel _ _
  refine ⟨?_, ?_⟩
  · simpa [Kernel.kfree, hne, hhdr] using h.chain.setIsFree true
  · simpa [Kernel.kfree, hne] using h.bound

end Aether.Kernel
