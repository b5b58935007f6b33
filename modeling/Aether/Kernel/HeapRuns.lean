import Aether.Kernel.Ownership
import Aether.Lib.Transition

/-!
# Whole runs of the heap

Users of the heap call `kmalloc` and `kfree` in any order and write inside the blocks they hold.
The ledger `Users` records what they hold and which headers were ever carved. `Users.Sound` is the
representation invariant over such runs, and `heap_integrity` reads off what a user relies on: the
header list is exactly what was carved and tiles the heap, and a served request gets bytes that
belong to nobody else.
-/

namespace Aether.Kernel

open ByteMemory Transition

/-- A block held by a user: the pointer `kmalloc` returned and the size that was asked for. -/
structure Alloc where
  ptr : Nat
  size : Nat
  deriving DecidableEq

/-- The heap with its users' ledger: the blocks they hold, and the header address of every block
carved so far, most recent first. -/
structure Users where
  heap : Heap
  live : List Alloc
  carved : List Nat

namespace Users

/-- Nobody holds anything at boot. -/
def boot (mem : Memory) : Users := ⟨Heap.boot mem, [], []⟩

/-- The ledger after a call of `kmalloc` that returned `p`. A moved bump pointer means that a
block was carved where it stood. -/
def afterKmalloc (s : Users) (size p : Nat) (heap' : Heap) : Users where
  heap := heap'
  live := if p = 0 then s.live else ⟨p, size⟩ :: s.live
  carved := if heap'.heapPtr = s.heap.heapPtr then s.carved else s.heap.heapPtr :: s.carved

/-- One action of a user. Sizes fit in 32 bits, only held blocks are freed, and writes stay inside
the bytes that were asked for. -/
inductive Step : Users → Users → Prop where
  | kmalloc {s : Users} {size p : Nat} {heap' : Heap} :
      size < 2 ^ 32 → Kernel.kmalloc s.heap size = some (p, heap') →
      Step s (s.afterKmalloc size p heap')
  | kfree {s : Users} {a : Alloc} :
      a ∈ s.live →
      Step s { s with heap := Kernel.kfree s.heap a.ptr, live := s.live.erase a }
  | write {s : Users} {a : Alloc} {x : Nat} (byte : UInt8) :
      a ∈ s.live → a.ptr ≤ x → x < a.ptr + a.size →
      Step s { s with heap := s.heap.write x [byte] }

/-- The states that runs from boot reach, over RAM of the given content. -/
abbrev Reaches (mem : Memory) : Users → Prop := Reachable (· = boot mem) Step

/-- The ledger agrees with a well-formed heap whose list is `blocks`. -/
structure Sound (s : Users) (blocks : List Block) : Prop where
  wf : WellFormed s.heap blocks
  carved : s.carved = blocks.map Block.hdr
  live : (s.live.map Alloc.ptr).Perm ((liveRegions blocks).map Region.ptr)
  room : ∀ a ∈ s.live, ∀ b ∈ blocks, b.payload = a.ptr → a.size ≤ b.size

/-- A held block is a block in use. -/
theorem Sound.block {s : Users} {blocks : List Block} (h : s.Sound blocks) {a : Alloc}
    (ha : a ∈ s.live) :
    ∃ b ∈ blocks, b.isFree = false ∧ b.payload = a.ptr ∧ a.size ≤ b.size := by
  obtain ⟨r, hr, hptr⟩ := List.mem_map.mp (h.live.mem_iff.mp (List.mem_map_of_mem ha))
  obtain ⟨b, hb, huse, rfl⟩ := mem_liveRegions.mp hr
  exact ⟨b, hb, huse, hptr, h.room a ha b hb hptr⟩

/-- Replacing one block by another with the same header address does not change what the ledger
of carved headers or the room of the held blocks says, when the size is kept. -/
theorem Sound.room_flip {s : Users} {pre post : List Block} {b : Block} (flag : Bool)
    (h : s.Sound (pre ++ b :: post)) :
    ∀ a ∈ s.live, ∀ c ∈ pre ++ { b with isFree := flag } :: post,
      c.payload = a.ptr → a.size ≤ c.size := by
  intro a ha c hc hptr
  simp only [List.mem_append, List.mem_cons] at hc
  rcases hc with hc | rfl | hc
  · exact h.room a ha c (by simp [hc]) hptr
  · exact h.room a ha b (by simp) hptr
  · exact h.room a ha c (by simp [hc]) hptr

/-- A call of `kmalloc` keeps the ledger sound. -/
theorem Sound.kmalloc {s : Users} {blocks : List Block} (h : s.Sound blocks) {size p : Nat}
    {heap' : Heap} (hsize : size < 2 ^ 32) (hcall : Kernel.kmalloc s.heap size = some (p, heap')) :
    ∃ blocks', (s.afterKmalloc size p heap').Sound blocks' := by
  obtain ⟨p₀, heap₀, blocks', hcall', hcase, hwf'⟩ := kmalloc_cases h.wf hsize
  obtain ⟨rfl, rfl⟩ : p₀ = p ∧ heap₀ = heap' := by simpa [hcall'] using hcall
  have hle := (alignSize_spec hsize).1
  refine ⟨blocks', ?_⟩
  cases hcase with
  | reuse pre b post hblocks hfit hpre =>
      subst hblocks
      have hne : b.payload ≠ 0 := by simp [Block.payload, sizeofMemHeader]
      refine ⟨hwf', ?_, ?_, ?_⟩
      · simpa [afterKmalloc, Heap.reuse] using h.carved
      · refine .trans ?_ ((liveRegions_use pre post b hfit.1).map Region.ptr).symm
        simpa [afterKmalloc, hne, Block.region] using h.live
      · simp only [afterKmalloc, hne, ↓reduceIte, List.mem_cons]
        rintro a (rfl | ha) c hc hptr
        · have : c = { b with isFree := false } :=
            hwf'.eq_of_payload hc (by simp) (hptr.trans rfl)
          exact this ▸ hle.trans hfit.2
        · exact h.room_flip false a ha c hc hptr
  | carve hno hroom =>
      have hmoved : (s.heap.carve (alignSize size)).heapPtr ≠ s.heap.heapPtr := by
        simp only [Heap.carve, sizeofMemHeader]
        omega
      have hne : (s.heap.nextBlock (alignSize size)).payload ≠ 0 := by
        simp [Block.payload, sizeofMemHeader]
      refine ⟨hwf', ?_, ?_, ?_⟩
      · simp [afterKmalloc, hmoved, h.carved, Heap.nextBlock]
      · rw [liveRegions_cons rfl]
        simpa [afterKmalloc, hne, Block.region] using h.live
      · simp only [afterKmalloc, hne, ↓reduceIte, List.mem_cons]
        rintro a ha c hc hptr
        rcases ha with rfl | ha
        · have : c = s.heap.nextBlock (alignSize size) :=
            hwf'.eq_of_payload (by simpa using hc) (by simp) hptr
          rw [this]
          exact hle
        · rcases hc with rfl | hc
          -- the new block begins behind all others
          · obtain ⟨b, hb, _, hbptr, _⟩ := h.block ha
            have := hwf'.eq_of_payload (b := b) (c := s.heap.nextBlock (alignSize size))
              (by simp [hb]) (by simp) (hbptr.trans hptr.symm)
            have hfin := (h.wf.chain.within hb).2
            rw [this] at hfin
            simp only [Block.fin, Heap.nextBlock, sizeofMemHeader] at hfin
            omega
          · exact h.room a ha c hc hptr
  | exhausted hno hfull =>
      exact ⟨hwf', by simpa [afterKmalloc] using h.carved, by simpa [afterKmalloc] using h.live,
        by simpa [afterKmalloc] using h.room⟩

/-- Freeing a held block keeps the ledger sound. -/
theorem Sound.kfree {s : Users} {blocks : List Block} (h : s.Sound blocks) {a : Alloc}
    (ha : a ∈ s.live) :
    ∃ blocks', Sound { s with heap := Kernel.kfree s.heap a.ptr, live := s.live.erase a }
      blocks' := by
  obtain ⟨b, hb, huse, hptr, _⟩ := h.block ha
  obtain ⟨pre, post, rfl⟩ := List.append_of_mem hb
  refine ⟨pre ++ { b with isFree := true } :: post, ?_, ?_, ?_, ?_⟩
  · exact hptr ▸ h.wf.kfree
  · simpa using h.carved
  · have hlive := h.live.trans ((liveRegions_release pre post b huse).map Region.ptr)
    have hsplit := ((List.perm_cons_erase ha).map Alloc.ptr).symm.trans hlive
    rw [List.map_cons, List.map_cons, Block.region, hptr] at hsplit
    exact hsplit.cons_inv
  · exact fun c hc ↦ h.room_flip true c (List.mem_of_mem_erase hc)

/-- A write inside a held block keeps the ledger sound. -/
theorem Sound.write {s : Users} {blocks : List Block} (h : s.Sound blocks) {a : Alloc} {x : Nat}
    (byte : UInt8) (ha : a ∈ s.live) (hlow : a.ptr ≤ x) (hhigh : x < a.ptr + a.size) :
    Sound { s with heap := s.heap.write x [byte] } blocks := by
  obtain ⟨b, hb, _, hptr, hsize⟩ := h.block ha
  exact ⟨h.wf.write hb (by omega) (by simp; omega), h.carved, h.live, h.room⟩

/-- The ledger is sound in every state that a run reaches. -/
theorem Reaches.sound {mem : Memory} {s : Users} (h : Reaches mem s) :
    ∃ blocks, s.Sound blocks := by
  refine h.invariant (fun s ↦ ∃ blocks, s.Sound blocks) ?_ ?_
  · rintro _ rfl
    exact ⟨[], WellFormed.boot mem, rfl, .refl _, by simp [boot]⟩
  · rintro s s' ⟨blocks, hs⟩ hstep
    cases hstep with
    | kmalloc hsize hcall => exact hs.kmalloc hsize hcall
    | kfree ha => exact hs.kfree ha
    | write byte ha hlow hhigh => exact ⟨blocks, hs.write byte ha hlow hhigh⟩

end Users

/-! ## What the invariant means for users -/

/-- The address past the block whose header is at `p`. -/
def blockEnd (heap : Heap) (p : Nat) : Nat := p + sizeofMemHeader + (loadHeader heap.mem p).size

/-- The payload bytes of the block whose payload is at `p`, as its header records them. -/
def capacity (heap : Heap) (p : Nat) : Nat := (loadHeader heap.mem (p - sizeofMemHeader)).size

/-- The list from `free_list` ends, visits exactly `headers`, each once, and the blocks they head
tile the carved part of the heap. -/
structure Tiled (heap : Heap) (headers : List Nat) : Prop where
  walk : walkHeaders heap.mem (maxBlocks + 1) heap.freeList = some headers
  nodup : headers.Nodup
  covers : ∀ a, (heapStart ≤ a ∧ a < heap.heapPtr) ↔ ∃ p ∈ headers, p ≤ a ∧ a < blockEnd heap p
  apart : headers.Pairwise fun p q ↦ blockEnd heap q ≤ p

/-- The block at `p` in `heap'` serves a request of `size` bytes made in `s`: its whole payload is
inside the heap and apart from every header and from every block held in `s`. -/
structure Serves (s : Users) (size p : Nat) (heap' : Heap) : Prop where
  aligned : 8 ∣ p
  room : size ≤ capacity heap' p
  within : heapStart ≤ p ∧ p + capacity heap' p ≤ heapEnd
  headers : ∀ q ∈ (s.afterKmalloc size p heap').carved,
    Apart p (capacity heap' p) q sizeofMemHeader
  live : ∀ a ∈ s.live, a.size ≤ capacity s.heap a.ptr ∧
    Apart p (capacity heap' p) a.ptr (capacity s.heap a.ptr)

/-- The header of a block in the list records its size. -/
theorem Chain.loadHeader_size {mem : Memory} {head top : Nat} {blocks : List Block}
    (h : Chain mem head top blocks) {b : Block} (hb : b ∈ blocks) :
    (loadHeader mem b.hdr).size = b.size := by
  obtain ⟨next, hhdr⟩ := h.headerAt hb
  exact hhdr.size

/-- The capacity found behind a payload pointer is the block's size. -/
theorem WellFormed.capacity_eq {heap : Heap} {blocks : List Block} (h : WellFormed heap blocks)
    {b : Block} (hb : b ∈ blocks) : capacity heap b.payload = b.size := by
  rw [capacity, Block.payload, Nat.add_sub_cancel]
  exact h.chain.loadHeader_size hb

/-- A well-formed heap is tiled by its blocks. -/
theorem WellFormed.tiled {heap : Heap} {blocks : List Block} (h : WellFormed heap blocks) :
    Tiled heap (blocks.map Block.hdr) := by
  have hend : ∀ b ∈ blocks, blockEnd heap b.hdr = b.fin := fun b hb ↦ by
    rw [blockEnd, h.chain.loadHeader_size hb, Block.fin]
  refine ⟨h.chain.walkHeaders_eq _ h.length_lt, h.chain.nodup, fun a ↦ ?_, ?_⟩
  · rw [h.chain.covers]
    constructor
    · rintro ⟨b, hb, hlow, hhigh⟩
      exact ⟨b.hdr, List.mem_map_of_mem hb, hlow, (hend b hb).symm ▸ hhigh⟩
    · rintro ⟨_, hp, hlow, hhigh⟩
      obtain ⟨b, hb, rfl⟩ := List.mem_map.mp hp
      exact ⟨b, hb, hlow, hend b hb ▸ hhigh⟩
  · rw [List.pairwise_map]
    exact h.chain.pairwise.imp_of_mem fun _ hc hle ↦ (hend _ hc).symm ▸ hle

/-- A region's capacity is the one its header records. -/
theorem Owns.capacity_eq {heap : Heap} {regions : List Region} (h : Owns heap regions)
    {r : Region} (hr : r ∈ regions) : capacity heap r.ptr = r.cap := by
  obtain ⟨blocks, hwf, hblock⟩ := h.block
  obtain ⟨b, hb, _, rfl⟩ := hblock r hr
  exact hwf.capacity_eq hb

/-- The heap has no room for `size` bytes: every block of the list is in use or too small, and no
block can be carved above the bump pointer. -/
def Heap.Refuses (heap : Heap) (size : Nat) : Prop :=
  (∀ headers, walkHeaders heap.mem (maxBlocks + 1) heap.freeList = some headers →
    ∀ p ∈ headers, (loadHeader heap.mem p).isFree = 0 ∨
      (loadHeader heap.mem p).size < alignSize size) ∧
  heapEnd < heap.heapPtr + (sizeofMemHeader + alignSize size)

/-- What a header says about whether its block fits. -/
theorem WellFormed.fits_iff {heap : Heap} {blocks : List Block} (h : WellFormed heap blocks)
    {b : Block} (hb : b ∈ blocks) (size : Nat) :
    ¬ b.Fits size ↔
      (loadHeader heap.mem b.hdr).isFree = 0 ∨ (loadHeader heap.mem b.hdr).size < size := by
  obtain ⟨next, hhdr⟩ := h.chain.headerAt hb
  have hfree : (loadHeader heap.mem b.hdr).isFree = if b.isFree then 1 else 0 := hhdr.isFree
  have hsize : (loadHeader heap.mem b.hdr).size = b.size := hhdr.size
  rw [hfree, hsize, Block.Fits, not_and_or, Nat.not_le]
  cases b.isFree <;> simp

/-- The heap refuses a request when no block fits and none can be carved. -/
theorem WellFormed.refuses_iff {heap : Heap} {blocks : List Block} (h : WellFormed heap blocks)
    (size : Nat) : heap.Refuses size ↔ (∀ b ∈ blocks, ¬ b.Fits (alignSize size)) ∧
      heapEnd < heap.heapPtr + (sizeofMemHeader + alignSize size) := by
  have hwalk := h.chain.walkHeaders_eq _ h.length_lt
  refine and_congr_left fun _ ↦ ?_
  constructor
  · intro hheaders b hb
    exact (h.fits_iff hb _).mpr (hheaders _ hwalk _ (List.mem_map_of_mem hb))
  · intro hblocks headers hheaders p hp
    rw [hwalk, Option.some.injEq] at hheaders
    obtain ⟨b, hb, rfl⟩ := List.mem_map.mp (hheaders ▸ hp)
    exact (h.fits_iff hb _).mp (hblocks b hb)

/-- A block that was just freed is there for requests that it has room for. -/
theorem Owns.not_refuses_kfree {heap : Heap} {regions : List Region} {r : Region} {size : Nat}
    (h : Owns heap (r :: regions)) (hsize : alignSize size ≤ r.cap) :
    ¬ (Kernel.kfree heap r.ptr).Refuses size := by
  obtain ⟨blocks, hwf, hlive⟩ := h
  obtain ⟨b, hb, -, rfl⟩ := mem_liveRegions.mp (hlive.mem_iff.mpr List.mem_cons_self)
  obtain ⟨pre, post, rfl⟩ := List.append_of_mem hb
  intro hrefuses
  have hno := ((WellFormed.refuses_iff hwf.kfree size).mp hrefuses).1
  exact hno { b with isFree := true } (List.mem_append_right pre List.mem_cons_self) ⟨rfl, hsize⟩

/-- Whether a request is refused depends on the blocks alone. -/
theorem Heap.SameBlocks.refuses_iff {heap heap' : Heap} (h : heap.SameBlocks heap') (size : Nat) :
    heap'.Refuses size ↔ heap.Refuses size := by
  obtain ⟨blocks, hwf, hwf'⟩ := h
  rw [hwf.refuses_iff, hwf'.refuses_iff, hwf.heapPtr_eq hwf']

/-- Heaps of the same blocks serve a request alike, and consist of the same blocks afterwards. -/
theorem Heap.SameBlocks.kmalloc {heap heap' served' : Heap} {size p : Nat}
    (h : heap.SameBlocks heap') (hsize : size < 2 ^ 32)
    (hcall : Kernel.kmalloc heap' size = some (p, served')) :
    ∃ served, Kernel.kmalloc heap size = some (p, served) ∧ served.SameBlocks served' := by
  obtain ⟨blocks, hwf, hwf'⟩ := h
  have heq := hwf.kmalloc_eq hsize
  have heq' := hcall.symm.trans (hwf'.kmalloc_eq hsize)
  have hptr := hwf.heapPtr_eq hwf'
  cases hfit : blocks.find? (·.Fits (alignSize size)) with
  | some b =>
      rw [hfit] at heq heq'
      cases heq'
      obtain ⟨-, pre, post, rfl, -⟩ := List.find?_eq_some_iff_append.mp hfit
      exact ⟨_, heq, _, ⟨hwf.chain.setIsFree false, hwf.bound⟩,
        ⟨hwf'.chain.setIsFree false, hwf'.bound⟩⟩
  | none =>
      rw [hfit, hptr] at heq'
      rw [hfit] at heq
      have hnext : heap'.nextBlock = heap.nextBlock := by
        funext n
        rw [Heap.nextBlock, Heap.nextBlock, hptr]
      by_cases hroom : heap.heapPtr + (sizeofMemHeader + alignSize size) ≤ heapEnd
      · rw [if_pos hroom] at heq heq'
        cases heq'
        have hdvd := (alignSize_spec hsize).2.2
        refine ⟨_, hnext ▸ heq, _, hwf.carve hdvd hroom, ?_⟩
        exact hnext ▸ hwf'.carve hdvd (hptr ▸ hroom)
      · rw [if_neg hroom] at heq heq'
        cases heq'
        exact ⟨_, heq, blocks, hwf, hwf'⟩

/-- `kmalloc` returns `NULL` exactly when the heap has no room. -/
theorem Owns.kmalloc_eq_null {heap heap' : Heap} {regions : List Region} {size p : Nat}
    (h : Owns heap regions) (hsize : size < 2 ^ 32)
    (hcall : Kernel.kmalloc heap size = some (p, heap')) : p = 0 ↔ heap.Refuses size := by
  obtain ⟨blocks, hwf, -⟩ := h
  obtain ⟨p₀, heap₀, _, hcall', hcase, -⟩ := kmalloc_cases hwf hsize
  obtain ⟨rfl, rfl⟩ : p₀ = p ∧ heap₀ = heap' := by simpa [hcall'] using hcall
  rw [hwf.refuses_iff]
  cases hcase with
  | reuse pre b post hblocks hfit hpre =>
      have hne : b.payload ≠ 0 := by simp [Block.payload, sizeofMemHeader]
      refine iff_of_false hne fun hno ↦ hno.1 b ?_ hfit
      rw [hblocks]
      exact List.mem_append_right pre List.mem_cons_self
  | carve hno hroom =>
      have hne : (heap.nextBlock (alignSize size)).payload ≠ 0 := by
        simp [Block.payload, sizeofMemHeader]
      exact iff_of_false hne fun h ↦ absurd h.2 (Nat.not_lt.mpr hroom)
  | exhausted hno hfull => exact iff_of_true rfl ⟨hno, hfull⟩

/-- A request that is not refused is served. -/
theorem Users.Sound.serves {s : Users} {blocks : List Block} (h : s.Sound blocks) {size p : Nat}
    {heap' : Heap} (hsize : size < 2 ^ 32) (hcall : Kernel.kmalloc s.heap size = some (p, heap'))
    (hp : p ≠ 0) : Serves s size p heap' := by
  have howns : Owns s.heap (liveRegions blocks) := ⟨blocks, h.wf, .refl _⟩
  obtain ⟨p₀, heap₀, hcall', hcase⟩ := howns.kmalloc hsize
  obtain ⟨rfl, rfl⟩ : p₀ = p ∧ heap₀ = heap' := by simpa [hcall'] using hcall
  obtain ⟨cap, hroom, howns', _⟩ := hcase.resolve_left fun h ↦ hp h.1
  obtain ⟨hlow, hhigh, haligned⟩ :
      heapStart + sizeofMemHeader ≤ p₀ ∧ p₀ + cap ≤ heapEnd ∧ 8 ∣ p₀ :=
    howns'.within List.mem_cons_self
  have hcap : capacity heap₀ p₀ = cap := howns'.capacity_eq (r := ⟨p₀, cap⟩) List.mem_cons_self
  refine ⟨haligned, by rw [hcap]; exact hroom, ⟨by omega, by rw [hcap]; exact hhigh⟩,
    fun q hq ↦ ?_, fun a ha ↦ ?_⟩
  · obtain ⟨blocks', h'⟩ := h.kmalloc hsize hcall
    have hmem : (⟨p₀, size⟩ : Alloc) ∈ (s.afterKmalloc size p₀ heap₀).live := by
      simp [Users.afterKmalloc, hp]
    obtain ⟨b, hb, _, rfl, _⟩ := h'.block hmem
    rw [h'.carved] at hq
    obtain ⟨c, hc, rfl⟩ := List.mem_map.mp hq
    have hsame : capacity heap₀ b.payload = b.size := h'.wf.capacity_eq hb
    rw [hsame]
    exact h'.wf.payload_apart_header hb hc
  · obtain ⟨c, hc, huse, hptr, hsmall⟩ := h.block ha
    have hmem : c.region ∈ liveRegions blocks := mem_liveRegions.mpr ⟨c, hc, huse, rfl⟩
    have hccap : capacity s.heap a.ptr = c.size := by rw [← hptr, h.wf.capacity_eq hc]
    rw [hcap, hccap, ← hptr]
    refine ⟨hsmall, ?_⟩
    exact howns'.head_apart hmem

/-- No action moves the bump pointer down. -/
theorem Users.Step.heapPtr_le {s s' : Users} {blocks : List Block} (h : s.Sound blocks)
    (hstep : Users.Step s s') : s.heap.heapPtr ≤ s'.heap.heapPtr := by
  cases hstep with
  | @kmalloc size p heap' hsize hcall =>
      obtain ⟨p₀, heap₀, _, hcall', hcase, _⟩ := kmalloc_cases h.wf hsize
      obtain ⟨rfl, rfl⟩ : p₀ = p ∧ heap₀ = heap' := by simpa [hcall'] using hcall
      cases hcase with
      | reuse | exhausted => exact le_rfl
      | carve => exact Nat.le_add_right _ _
  | @kfree a ha =>
      simp only [Kernel.kfree]
      split <;> exact le_rfl
  | write => exact le_rfl

/-- In every state that users reach, the header list is finite, acyclic and is exactly what was
carved, and it tiles the carved part of the heap; every request of at most 32 bits is answered, by
a block that serves it or by `NULL` and an unchanged heap; and the bump pointer only grows, up to
the end of the heap. -/
theorem heap_integrity (mem : Memory) (s : Users) (h : Users.Reaches mem s) :
    Tiled s.heap s.carved ∧
    (∀ size < 2 ^ 32, ∃ p heap', kmalloc s.heap size = some (p, heap') ∧
      (p ≠ 0 → Serves s size p heap') ∧ (p = 0 → heap' = s.heap)) ∧
    s.heap.heapPtr ≤ heapEnd ∧
    (∀ s', Users.Step s s' → s.heap.heapPtr ≤ s'.heap.heapPtr) := by
  obtain ⟨blocks, hs⟩ := h.sound
  refine ⟨hs.carved ▸ hs.wf.tiled, fun size hsize ↦ ?_, hs.wf.bound, fun s' ↦ ?_⟩
  · obtain ⟨p, heap', hcall, hcase⟩ := Owns.kmalloc ⟨blocks, hs.wf, .refl _⟩ hsize
    refine ⟨p, heap', hcall, hs.serves hsize hcall, fun hp ↦ ?_⟩
    rcases hcase with ⟨_, rfl⟩ | ⟨cap, _, howns, _⟩
    · rfl
    · exact absurd hp (howns.ptr_ne_zero List.mem_cons_self)
  · exact Users.Step.heapPtr_le hs

/-- After one request for 100 bytes the heap is one block of 104 bytes and its header. -/
theorem heap_integrity_one_block :
    Tiled ((Heap.boot fun _ ↦ 0).carve 104) [heapStart] :=
  (heap_integrity (fun _ ↦ 0)
    ((Users.boot fun _ ↦ 0).afterKmalloc 100 (heapStart + 24) ((Heap.boot fun _ ↦ 0).carve 104))
    (.step (.init rfl) (.kmalloc (by decide) rfl))).1

end Aether.Kernel
