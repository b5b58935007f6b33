import Aether.Kernel.HeapInvariant
import Mathlib.Data.List.Nodup
import Mathlib.Data.List.Pairwise

/-!
# Ownership of live blocks

`Owns heap regions` says that the blocks in use are exactly `regions`, each a payload pointer with
its capacity. The rules below are the allocator's contract as its callers use it: `Owns.kmalloc`
hands out one more region, `Owns.kfree` takes one back, `Owns.write` writes inside one, and every
other region keeps its bytes (`Frame`).
-/

namespace Aether.Kernel

open ByteMemory

/-- A payload: its address and its capacity in bytes. -/
structure Region where
  ptr : Nat
  cap : Nat
  deriving DecidableEq

/-- The payload of a block. -/
def Block.region (b : Block) : Region := ⟨b.payload, b.size⟩

/-- The payloads of the blocks in use, in list order. -/
def liveRegions (blocks : List Block) : List Region :=
  (blocks.filter fun b ↦ !b.isFree).map Block.region

/-- The blocks in use are exactly `regions`, in any order. -/
def Owns (heap : Heap) (regions : List Region) : Prop :=
  ∃ blocks, WellFormed heap blocks ∧ (liveRegions blocks).Perm regions

/-- The bytes of every region are the same in both memories. -/
def Frame (regions : List Region) (m m' : Memory) : Prop :=
  ∀ r ∈ regions, Agree r.ptr r.cap m m'

/-- Two address ranges do not overlap. -/
def Apart (a n b k : Nat) : Prop := a + n ≤ b ∨ b + k ≤ a

/-- The heap with the byte string `bs` written at address `a`. -/
def Heap.write (heap : Heap) (a : Nat) (bs : List UInt8) : Heap :=
  { heap with mem := writeBytes heap.mem a bs }

/-! ## Frames -/

theorem Frame.refl (regions : List Region) (m : Memory) : Frame regions m m :=
  fun r _ ↦ .refl r.ptr r.cap m

theorem Frame.trans {regions : List Region} {m m' m'' : Memory} (h : Frame regions m m')
    (h' : Frame regions m' m'') : Frame regions m m'' :=
  fun r hr ↦ (h r hr).trans (h' r hr)

theorem Frame.mono {regions regions' : List Region} {m m' : Memory} (h : Frame regions' m m')
    (hsub : ∀ r ∈ regions, r ∈ regions') : Frame regions m m' :=
  fun r hr ↦ h r (hsub r hr)

/-! ## Disjointness of blocks -/

section Blocks

variable {heap : Heap} {blocks : List Block}

/-- Two blocks of a well-formed heap are the same or do not overlap. -/
theorem WellFormed.eq_or_apart (h : WellFormed heap blocks) {b c : Block} (hb : b ∈ blocks)
    (hc : c ∈ blocks) : b = c ∨ c.fin ≤ b.hdr ∨ b.fin ≤ c.hdr := by
  let R (b c : Block) : Prop := b = c ∨ c.fin ≤ b.hdr ∨ b.fin ≤ c.hdr
  have hsymm : Std.Symm R := ⟨fun _ _ h ↦ h.imp Eq.symm Or.symm⟩
  have hpair : blocks.Pairwise R := h.chain.pairwise.imp fun h ↦ .inr (.inl h)
  exact hpair.forall_of_forall (fun _ _ ↦ .inl rfl) hb hc

/-- No payload overlaps a header. -/
theorem WellFormed.payload_apart_header (h : WellFormed heap blocks) {b c : Block}
    (hb : b ∈ blocks) (hc : c ∈ blocks) :
    Apart b.payload b.size c.hdr sizeofMemHeader := by
  simp only [Apart, Block.payload]
  rcases h.eq_or_apart hb hc with rfl | hbc | hbc
  · omega
  · simp only [Block.fin] at hbc
    omega
  · simp only [Block.fin] at hbc
    omega

/-- Payloads of different blocks do not overlap. -/
theorem WellFormed.payload_apart (h : WellFormed heap blocks) {b c : Block} (hb : b ∈ blocks)
    (hc : c ∈ blocks) (hbc : b ≠ c) : Apart b.payload b.size c.payload c.size := by
  simp only [Apart, Block.payload]
  have := (h.eq_or_apart hb hc).resolve_left hbc
  simp only [Block.fin] at this
  omega

/-- A block is determined by its payload pointer. -/
theorem WellFormed.eq_of_payload (h : WellFormed heap blocks) {b c : Block} (hb : b ∈ blocks)
    (hc : c ∈ blocks) (hbc : b.payload = c.payload) : b = c := by
  rcases h.eq_or_apart hb hc with rfl | hle | hle
  · rfl
  all_goals
    simp only [Block.payload, Block.fin, sizeofMemHeader] at hbc hle
    omega

/-- A write inside a payload keeps the heap well formed. -/
theorem WellFormed.write (h : WellFormed heap blocks) {b : Block} (hb : b ∈ blocks) {a : Nat}
    {bs : List UInt8} (hlow : b.payload ≤ a) (hhigh : a + bs.length ≤ b.payload + b.size) :
    WellFormed (heap.write a bs) blocks := by
  refine ⟨h.chain.frame fun c hc ↦ agree_writeBytes _ _ _ _ _ ?_, h.bound⟩
  have := h.payload_apart_header hb hc
  simp only [Apart] at this
  omega

end Blocks

/-! ## Heaps of the same blocks -/

/-- A header determines its block. -/
theorem HeaderAt.unique {mem : Memory} {b c : Block} {next next' : Nat} (h : HeaderAt mem b next)
    (h' : HeaderAt mem c next') (hhdr : b.hdr = c.hdr) : b = c ∧ next = next' := by
  obtain ⟨hdr, size, isFree⟩ := b
  obtain ⟨hdr', size', isFree'⟩ := c
  obtain rfl : hdr = hdr' := hhdr
  obtain rfl : size = size' := h.size.symm.trans h'.size
  have hfree : (if isFree then 1 else 0) = if isFree' then 1 else 0 := h.isFree.symm.trans h'.isFree
  refine ⟨?_, h.next.symm.trans h'.next⟩
  cases isFree <;> cases isFree' <;> simp_all

/-- A memory has at most one list of blocks from a given head. -/
theorem Chain.unique {mem : Memory} {head top top' : Nat} {blocks blocks' : List Block}
    (h : Chain mem head top blocks) (h' : Chain mem head top' blocks') : blocks = blocks' := by
  induction blocks generalizing head top blocks' top' with
  | nil =>
      cases blocks' with
      | nil => rfl
      | cons c rest' => exact absurd (h'.1.symm.trans h.1) (h'.hdr_ne_zero List.mem_cons_self)
  | cons b rest ih =>
      cases blocks' with
      | nil => exact absurd (h.1.symm.trans h'.1) (h.hdr_ne_zero List.mem_cons_self)
      | cons c rest' =>
          obtain ⟨hhead, _, _, next, hhdr, hrest⟩ := h
          obtain ⟨hhead', _, _, next', hhdr', hrest'⟩ := h'
          obtain ⟨rfl, rfl⟩ := hhdr.unique hhdr' (hhead.symm.trans hhead')
          rw [ih hrest hrest']

/-- The two heaps consist of the same blocks. They differ at most in what the payloads hold. -/
def Heap.SameBlocks (heap heap' : Heap) : Prop :=
  ∃ blocks, WellFormed heap blocks ∧ WellFormed heap' blocks

theorem Heap.SameBlocks.trans {heap heap' heap'' : Heap} (h : heap.SameBlocks heap')
    (h' : heap'.SameBlocks heap'') : heap.SameBlocks heap'' := by
  obtain ⟨blocks, hwf, hwf'⟩ := h
  obtain ⟨blocks', hwf₁, hwf''⟩ := h'
  obtain rfl := hwf'.chain.unique hwf₁.chain
  exact ⟨blocks, hwf, hwf''⟩

/-- A heap's blocks determine its bump pointer. -/
theorem WellFormed.heapPtr_eq {heap heap' : Heap} {blocks : List Block}
    (h : WellFormed heap blocks) (h' : WellFormed heap' blocks) :
    heap'.heapPtr = heap.heapPtr := by
  cases blocks with
  | nil => exact h'.chain.2.trans h.chain.2.symm
  | cons b rest => exact h'.chain.2.1.symm.trans h.chain.2.1

/-! ## The list of live regions -/

theorem mem_liveRegions {blocks : List Block} {r : Region} :
    r ∈ liveRegions blocks ↔ ∃ b ∈ blocks, b.isFree = false ∧ b.region = r := by
  simp [liveRegions, and_assoc]

/-- Taking a block into use adds its payload to the live regions. -/
theorem liveRegions_use (pre post : List Block) (b : Block) (hb : b.isFree = true) :
    (liveRegions (pre ++ { b with isFree := false } :: post)).Perm
      (b.region :: liveRegions (pre ++ b :: post)) := by
  simp [liveRegions, hb, Block.region, Block.payload]

/-- Releasing a block removes its payload from the live regions. -/
theorem liveRegions_release (pre post : List Block) (b : Block) (hb : b.isFree = false) :
    (liveRegions (pre ++ b :: post)).Perm
      (b.region :: liveRegions (pre ++ { b with isFree := true } :: post)) := by
  simp [liveRegions, hb]

/-- A new block in use adds its payload to the live regions. -/
theorem liveRegions_cons {b : Block} (hb : b.isFree = false) (blocks : List Block) :
    liveRegions (b :: blocks) = b.region :: liveRegions blocks := by
  simp [liveRegions, hb]

/-! ## Facts about owned regions -/

section Owned

variable {heap : Heap} {regions : List Region}

/-- The order in which regions are listed does not matter. -/
theorem Owns.perm {regions' : List Region} (h : Owns heap regions)
    (hperm : regions.Perm regions') : Owns heap regions' :=
  h.imp fun _ ⟨hwf, hlive⟩ ↦ ⟨hwf, hlive.trans hperm⟩

/-- An owned region is the payload of some block in use. -/
theorem Owns.block (h : Owns heap regions) :
    ∃ blocks, WellFormed heap blocks ∧
      ∀ r ∈ regions, ∃ b ∈ blocks, b.isFree = false ∧ b.region = r := by
  obtain ⟨blocks, hwf, hlive⟩ := h
  exact ⟨blocks, hwf, fun r hr ↦ mem_liveRegions.mp (hlive.mem_iff.mpr hr)⟩

/-- Owned regions lie inside the heap, after their headers. -/
theorem Owns.within (h : Owns heap regions) {r : Region} (hr : r ∈ regions) :
    heapStart + sizeofMemHeader ≤ r.ptr ∧ r.ptr + r.cap ≤ heapEnd ∧ 8 ∣ r.ptr := by
  obtain ⟨blocks, hwf, hblock⟩ := h.block
  obtain ⟨b, hb, _, rfl⟩ := hblock r hr
  obtain ⟨hlow, hhigh⟩ := hwf.chain.within hb
  have hbound := hwf.bound
  have haligned := hwf.chain.aligned.2 b hb
  simp only [Block.region, Block.payload, Block.fin, sizeofMemHeader] at *
  omega

/-- An owned pointer is not `NULL`. -/
theorem Owns.ptr_ne_zero (h : Owns heap regions) {r : Region} (hr : r ∈ regions) :
    r.ptr ≠ 0 := by
  have := (h.within hr).1
  simp only [sizeofMemHeader] at this
  omega

/-- Owned regions have distinct addresses. -/
theorem Owns.nodup (h : Owns heap regions) : (regions.map Region.ptr).Nodup := by
  obtain ⟨blocks, hwf, hlive⟩ := h
  refine (hlive.map Region.ptr).nodup_iff.mp ?_
  simp only [liveRegions, List.map_map]
  refine List.Nodup.map_on (fun b hb c hc hbc ↦ ?_)
    (List.Nodup.filter _ (List.Nodup.of_map _ hwf.chain.nodup))
  exact hwf.eq_of_payload (List.mem_of_mem_filter hb) (List.mem_of_mem_filter hc) hbc

/-- Owned regions at different addresses do not overlap. -/
theorem Owns.apart (h : Owns heap regions) {r s : Region} (hr : r ∈ regions) (hs : s ∈ regions)
    (hrs : r.ptr ≠ s.ptr) : Apart r.ptr r.cap s.ptr s.cap := by
  obtain ⟨blocks, hwf, hblock⟩ := h.block
  obtain ⟨b, hb, _, rfl⟩ := hblock r hr
  obtain ⟨c, hc, _, rfl⟩ := hblock s hs
  exact hwf.payload_apart hb hc fun hbc ↦ hrs (congrArg Block.payload hbc)

/-- The first of the listed regions does not overlap the others. -/
theorem Owns.head_apart {r s : Region} (h : Owns heap (r :: regions)) (hs : s ∈ regions) :
    Apart r.ptr r.cap s.ptr s.cap := by
  refine h.apart List.mem_cons_self (List.mem_cons_of_mem r hs) fun hrs ↦ ?_
  exact (List.nodup_cons.mp h.nodup).1 (hrs ▸ List.mem_map_of_mem hs)

/-- There are fewer owned regions than the list walks have fuel. -/
theorem Owns.length_le (h : Owns heap regions) : regions.length ≤ maxBlocks := by
  obtain ⟨blocks, hwf, hlive⟩ := h
  have hlen := hwf.length_lt
  have hfilter := List.length_filter_le (fun b ↦ !b.isFree) blocks
  rw [← hlive.length_eq, liveRegions, List.length_map]
  omega

/-- The walk over the header list finds exactly the owned regions in use. -/
theorem Owns.liveBlocks (h : Owns heap regions) :
    ∃ live, liveBlocks heap = some live ∧ live.Perm (regions.map Region.ptr) := by
  obtain ⟨blocks, hwf, hlive⟩ := h
  refine ⟨(liveRegions blocks).map Region.ptr, ?_, hlive.map Region.ptr⟩
  rw [Kernel.liveBlocks, hwf.chain.walkHeaders_eq _ hwf.length_lt, Option.map_some,
    List.filter_map, List.map_map, liveRegions, List.map_map]
  refine congrArg some (congrArg (List.map _) (List.filter_congr fun b hb ↦ ?_))
  obtain ⟨next, hhdr⟩ := hwf.chain.headerAt hb
  have hfree : (loadHeader heap.mem b.hdr).isFree = if b.isFree then 1 else 0 := hhdr.isFree
  simp only [Function.comp, hfree]
  cases b.isFree <;> rfl

/-! ## The allocator's contract -/

/-- `kmalloc` returns `NULL` and changes nothing, or hands out a region with room for `size` bytes
while every owned region keeps its contents. -/
theorem Owns.kmalloc (h : Owns heap regions) {size : Nat} (hsize : size < 2 ^ 32) :
    ∃ p heap', kmalloc heap size = some (p, heap') ∧
      (p = 0 ∧ heap' = heap ∨
        ∃ cap, size ≤ cap ∧ Owns heap' (⟨p, cap⟩ :: regions) ∧
          Frame regions heap.mem heap'.mem) := by
  obtain ⟨blocks, hwf, hlive⟩ := h
  obtain ⟨p, heap', blocks', hcall, hcase, hwf'⟩ := kmalloc_cases hwf hsize
  have hle := (alignSize_spec hsize).1
  have hblock : ∀ r ∈ regions, ∃ b ∈ blocks, b.region = r := fun r hr ↦ by
    obtain ⟨b, hb, _, hbr⟩ := mem_liveRegions.mp (hlive.mem_iff.mpr hr)
    exact ⟨b, hb, hbr⟩
  refine ⟨p, heap', hcall, ?_⟩
  cases hcase with
  | reuse pre b post hblocks hfit hpre =>
      subst hblocks
      refine .inr ⟨b.size, hle.trans hfit.2, ⟨_, hwf', ?_⟩, fun r hr ↦ ?_⟩
      · exact (liveRegions_use pre post b hfit.1).trans (hlive.cons b.region)
      · obtain ⟨c, hc, rfl⟩ := hblock r hr
        have := hwf.payload_apart_header hc (c := b) (by simp)
        apply agree_store
        simp only [Apart, sizeofMemHeader, Block.region] at *
        omega
  | carve hno hroom =>
      refine .inr ⟨alignSize size, hle, ⟨_, hwf', ?_⟩, fun r hr ↦ ?_⟩
      · rw [liveRegions_cons rfl]
        exact hlive.cons _
      · obtain ⟨c, hc, rfl⟩ := hblock r hr
        have := (hwf.chain.within hc).2
        refine agree_storeHeader _ _ _ _ _ (.inl ?_)
        simpa [Block.region, Block.payload, Block.fin] using this
  | exhausted hno hfull => exact .inl ⟨rfl, rfl⟩

/-- A served request has a region of its own. -/
theorem Owns.kmalloc_some (h : Owns heap regions) {size p : Nat} (hsize : size < 2 ^ 32)
    {heap' : Heap} (hcall : Kernel.kmalloc heap size = some (p, heap')) (hp : p ≠ 0) :
    ∃ cap, size ≤ cap ∧ Owns heap' (⟨p, cap⟩ :: regions) := by
  obtain ⟨p₀, heap₀, hcall', hcase⟩ := h.kmalloc hsize
  cases hcall'.symm.trans hcall
  rcases hcase with ⟨hnull, -⟩ | ⟨cap, hfits, howns, -⟩
  · exact absurd hnull hp
  · exact ⟨cap, hfits, howns⟩

/-- `kfree` of an owned region gives it up and leaves the others alone. -/
theorem Owns.kfree {r : Region} (h : Owns heap (r :: regions)) :
    Owns (kfree heap r.ptr) regions ∧ Frame regions heap.mem (kfree heap r.ptr).mem := by
  obtain ⟨blocks, hwf, hlive⟩ := h
  obtain ⟨b, hb, huse, rfl⟩ := mem_liveRegions.mp (hlive.mem_iff.mpr List.mem_cons_self)
  obtain ⟨pre, post, rfl⟩ := List.append_of_mem hb
  have hne : b.payload ≠ 0 := by simp [Block.payload, sizeofMemHeader]
  have hhdr : b.payload - sizeofMemHeader = b.hdr := Nat.add_sub_cancel _ _
  refine ⟨⟨_, hwf.kfree, ?_⟩, fun s hs ↦ ?_⟩
  · exact ((liveRegions_release pre post b huse).symm.trans hlive).cons_inv
  · obtain ⟨c, hc, _, rfl⟩ := mem_liveRegions.mp (hlive.mem_iff.mpr (List.mem_cons_of_mem _ hs))
    have := hwf.payload_apart_header hc hb
    simp only [Kernel.kfree, Block.region, hne, ↓reduceIte, hhdr]
    apply agree_store
    simp only [Apart, sizeofMemHeader] at this
    omega

/-- A write inside an owned region keeps ownership and leaves the other regions alone. -/
theorem Owns.write {r : Region} (h : Owns heap (r :: regions)) (a : Nat) (bs : List UInt8)
    (hlow : r.ptr ≤ a) (hhigh : a + bs.length ≤ r.ptr + r.cap) :
    Owns (heap.write a bs) (r :: regions) ∧
      Frame regions heap.mem (heap.write a bs).mem := by
  refine ⟨?_, fun s hs ↦ ?_⟩
  · obtain ⟨blocks, hwf, hlive⟩ := h
    obtain ⟨b, hb, _, rfl⟩ := mem_liveRegions.mp (hlive.mem_iff.mpr List.mem_cons_self)
    exact ⟨blocks, hwf.write hb hlow hhigh, hlive⟩
  · have := h.head_apart hs
    apply agree_writeBytes
    simp only [Apart] at this
    omega

/-- A write inside any owned region keeps ownership and leaves the regions at other addresses
alone. -/
theorem Owns.write_mem {r : Region} (h : Owns heap regions) (hr : r ∈ regions) (a : Nat)
    (bs : List UInt8) (hlow : r.ptr ≤ a) (hhigh : a + bs.length ≤ r.ptr + r.cap) :
    Owns (heap.write a bs) regions ∧
      ∀ s ∈ regions, s.ptr ≠ r.ptr → Agree s.ptr s.cap heap.mem (heap.write a bs).mem := by
  have hperm := List.perm_cons_erase hr
  obtain ⟨howns, hframe⟩ := (h.perm hperm).write a bs hlow hhigh
  refine ⟨howns.perm hperm.symm, fun s hs hne ↦ ?_⟩
  exact hframe s ((List.mem_erase_of_ne fun heq : s = r ↦ hne (congrArg Region.ptr heq)).mpr hs)

/-- A write inside an owned region changes no block. -/
theorem Owns.sameBlocks_write {r : Region} (h : Owns heap regions) (hr : r ∈ regions) (a : Nat)
    (bs : List UInt8) (hlow : r.ptr ≤ a) (hhigh : a + bs.length ≤ r.ptr + r.cap) :
    heap.SameBlocks (heap.write a bs) := by
  obtain ⟨blocks, hwf, hblock⟩ := h.block
  obtain ⟨b, hb, _, rfl⟩ := hblock r hr
  exact ⟨blocks, hwf, hwf.write hb hlow hhigh⟩

/-- One more owned region is another heap. -/
theorem Owns.not_cons (h : Owns heap regions) (r : Region) : ¬ Owns heap (r :: regions) := by
  intro h'
  obtain ⟨live, hlive, hperm⟩ := h.liveBlocks
  obtain ⟨live', hlive', hperm'⟩ := h'.liveBlocks
  obtain rfl : live = live' := by simpa [hlive] using hlive'
  have := hperm.length_eq.symm.trans hperm'.length_eq
  simp at this

/-- A block that was allocated, written and freed again leaves the heap as it was exactly when it
was not carved for the purpose and held what was written before. -/
theorem Owns.kfree_kmalloc (h : Owns heap regions) {size p : Nat} (hsize : size < 2 ^ 32)
    {heap' : Heap} (hcall : Kernel.kmalloc heap size = some (p, heap')) (hp : p ≠ 0)
    (bs : List UInt8) : Kernel.kfree (heap'.write p bs) p = heap ↔
      heap'.heapPtr = heap.heapPtr ∧ readBytes heap.mem p bs.length = bs := by
  obtain ⟨blocks, hwf, -⟩ := h
  obtain ⟨p₀, heap₀, _, hcall', hcase, -⟩ := kmalloc_cases hwf hsize
  obtain ⟨rfl, rfl⟩ : p₀ = p ∧ heap₀ = heap' := by simpa [hcall'] using hcall
  cases hcase with
  | reuse pre b post hblocks hfit hpre =>
      obtain ⟨next, hhdr⟩ := hwf.chain.headerAt (b := b) (by simp [hblocks])
      have hfree : load 4 heap.mem (b.hdr + 8) = 1 := by rw [hhdr.isFree, if_pos hfit.1]
      -- the flag is set back to what it was
      have hstored : store 4 heap.mem (b.hdr + 8) 1 = heap.mem := by
        rw [← hfree, store_load_same]
      have hmem : (Kernel.kfree ((heap.reuse b).write b.payload bs) b.payload).mem =
          writeBytes heap.mem b.payload bs := by
        have hhdr : b.payload - sizeofMemHeader = b.hdr := Nat.add_sub_cancel _ _
        simp only [Kernel.kfree, hp, ↓reduceIte, Heap.write, Heap.reuse, storeIsFree, hhdr]
        rw [store, writeBytes_comm _ (.inr (by simp [Block.payload, sizeofMemHeader])), store,
          writeBytes_over _ _ (by simp)]
        exact congrArg (writeBytes · b.payload bs) hstored
      rw [← writeBytes_eq_self]
      constructor
      · intro heq
        exact ⟨rfl, hmem.symm.trans (congrArg Heap.mem heq)⟩
      · rintro ⟨-, hsame⟩
        have hother : (Kernel.kfree ((heap.reuse b).write b.payload bs) b.payload) =
            { heap with mem := writeBytes heap.mem b.payload bs } := by
          rw [← hmem]
          simp only [Kernel.kfree, hp, ↓reduceIte, Heap.write, Heap.reuse]
        rw [hother, hsame]
  | carve hno hroom =>
      -- a block that was carved stays in the list
      have hmoved : (heap.carve (alignSize size)).heapPtr ≠ heap.heapPtr := by
        simp only [Heap.carve, sizeofMemHeader]
        omega
      refine iff_of_false (fun heq ↦ hmoved ?_) fun hsame ↦ hmoved hsame.1
      have hptr := congrArg Heap.heapPtr heq
      simpa only [Kernel.kfree, hp, ↓reduceIte, Heap.write] using hptr
  | exhausted => exact absurd rfl hp

/-- `kfree` of any owned region leaves the regions at other addresses alone. -/
theorem Owns.kfree_mem {r s : Region} (h : Owns heap regions) (hr : r ∈ regions)
    (hs : s ∈ regions) (hne : s.ptr ≠ r.ptr) :
    Agree s.ptr s.cap heap.mem (Kernel.kfree heap r.ptr).mem := by
  have hother : s ∈ regions.erase r :=
    (List.mem_erase_of_ne fun heq : s = r ↦ hne (congrArg Region.ptr heq)).mpr hs
  exact (h.perm (List.perm_cons_erase hr)).kfree.2 s hother

end Owned

end Aether.Kernel
