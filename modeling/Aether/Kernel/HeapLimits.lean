import Aether.Kernel.HeapRuns

/-!
# The heap at its limits

`kmalloc` adds three times in 64 bits before it compares once. `kmalloc_sizes_sound` says for which
requests none of that goes wrong, and `heap_usage_follows` for which runs the monitor shows what the
allocator carved.
-/

namespace Aether.Kernel

open ByteMemory Transition

/-! ## Requests of any size -/

/-- The bytes that the caller asked for are inside the block behind the returned pointer, that block
is inside the heap with its header, and the bump pointer does not move down. -/
structure Heap.Grants (heap : Heap) (size p : Nat) (heap' : Heap) : Prop where
  room : p ≠ 0 → p + size ≤ p + capacity heap' p
  within : p ≠ 0 → heapStart + sizeofMemHeader ≤ p ∧ p + capacity heap' p ≤ heapEnd
  grows : heap.heapPtr ≤ heap'.heapPtr

/-- The call returns, and what it returns is granted. -/
def Heap.Sizes (heap : Heap) (size : Nat) : Prop :=
  ∃ p heap', kmalloc heap size = some (p, heap') ∧ heap.Grants size p heap'

/-- No block of the list is free and has room for `size` bytes. -/
def Heap.NoFit (heap : Heap) (size : Nat) : Prop :=
  ∀ headers, walkHeaders heap.mem (maxBlocks + 1) heap.freeList = some headers →
    ∀ p ∈ headers, (loadHeader heap.mem p).isFree = 0 ∨
      (loadHeader heap.mem p).size < alignSize size

/-- Rounding up, adding the header and adding the bump pointer do not wrap; or the request is
refused although they do. -/
def Heap.Adds (heap : Heap) (size : Nat) : Prop :=
  (size + 7 < 2 ^ 64 ∧ heap.heapPtr + (sizeofMemHeader + alignSize size) < 2 ^ 64) ∨
  (heap.NoFit size ∧
    heapEnd < (heap.heapPtr + (sizeofMemHeader + alignSize size)) % 2 ^ 64)

section Sizes

variable {heap : Heap} {blocks : List Block} {size : Nat}

/-- Without wrapping, a size is rounded up. -/
theorem le_alignSize (h : size + 7 < 2 ^ 64) : size ≤ alignSize size := by
  unfold alignSize
  omega

/-- A rounded size is a 64-bit number. -/
theorem alignSize_lt (size : Nat) : alignSize size < 2 ^ 64 := by
  have hmod : (size + 7) % 2 ^ 64 < 2 ^ 64 := Nat.mod_lt _ (by decide)
  unfold alignSize
  omega

/-- No block of a well-formed heap is larger than the heap. -/
theorem WellFormed.size_le (h : WellFormed heap blocks) {b : Block} (hb : b ∈ blocks) :
    heapStart + sizeofMemHeader ≤ b.payload ∧ b.payload + b.size ≤ heapEnd := by
  obtain ⟨hlow, hhigh⟩ := h.chain.within hb
  have hbound := h.bound
  unfold Block.fin at hhigh
  unfold Block.payload
  omega

/-- No block fits when the search of `kmalloc` finds none. -/
theorem WellFormed.noFit_iff (h : WellFormed heap blocks) (size : Nat) :
    heap.NoFit size ↔ blocks.find? (·.Fits (alignSize size)) = none := by
  have hwalk := h.chain.walkHeaders_eq _ h.length_lt
  rw [List.find?_eq_none]
  constructor
  · intro hheaders b hb hfit
    exact (h.fits_iff hb _).mpr (hheaders _ hwalk _ (List.mem_map_of_mem hb))
      (of_decide_eq_true hfit)
  · intro hblocks headers hheaders p hp
    rw [hwalk, Option.some.injEq] at hheaders
    obtain ⟨b, hb, rfl⟩ := List.mem_map.mp (hheaders ▸ hp)
    refine (h.fits_iff hb _).mp fun hfit ↦ hblocks b hb ?_
    exact decide_eq_true hfit

/-- A request served by reuse is granted if and only if its size was rounded up without wrapping. -/
theorem WellFormed.sizes_reuse (h : WellFormed heap blocks) {b : Block}
    (hfit : blocks.find? (·.Fits (alignSize size)) = some b) (hsize : size < 2 ^ 64) :
    heap.Sizes size ↔ heap.Adds size := by
  have hb := List.mem_of_find?_eq_some hfit
  obtain ⟨hlow, hhigh⟩ := h.size_le hb
  have hroom : alignSize size ≤ b.size := by
    have hfits := List.find?_some hfit
    exact (of_decide_eq_true hfits).2
  have hcall := h.kmalloc_wrapped size
  rw [hfit] at hcall
  have hcap : capacity (heap.reuse b) b.payload = b.size := by
    obtain ⟨-, pre, post, rfl, -⟩ := List.find?_eq_some_iff_append.mp hfit
    have hwf : WellFormed (heap.reuse b) (pre ++ { b with isFree := false } :: post) :=
      ⟨h.chain.setIsFree false, h.bound⟩
    exact hwf.capacity_eq (b := { b with isFree := false }) (by simp)
  have hne : b.payload ≠ 0 := by
    unfold heapStart at hlow
    omega
  have hstart : heapEnd - heapStart = heapSize := Nat.add_sub_cancel_left ..
  have hbound := h.bound
  have hend : heapEnd < 2 ^ 33 := by decide
  constructor
  · intro hsizes
    obtain ⟨p, heap', hcall', hgrants⟩ := hsizes
    cases hcall.symm.trans hcall'
    have hsmall := hgrants.room hne
    rw [hcap] at hsmall
    refine .inl ⟨by omega, ?_⟩
    unfold sizeofMemHeader
    omega
  · intro hadds
    -- a size that wraps is rounded to less than was asked for
    have hnowrap : size + 7 < 2 ^ 64 := by
      rcases hadds with ⟨hnowrap, -⟩ | ⟨hno, -⟩
      · exact hnowrap
      · rw [h.noFit_iff, hfit] at hno
        cases hno
    have hle := le_alignSize hnowrap
    refine ⟨_, _, hcall, ⟨fun _ ↦ ?_, fun _ ↦ ?_, le_rfl⟩⟩
    · rw [hcap]
      omega
    · rw [hcap]
      exact ⟨hlow, hhigh⟩

/-- A request that no block fits is granted if and only if the sums did not wrap, or it was refused
all the same. -/
theorem WellFormed.sizes_carve (h : WellFormed heap blocks)
    (hfit : blocks.find? (·.Fits (alignSize size)) = none) (hsize : size < 2 ^ 64) :
    heap.Sizes size ↔ heap.Adds size := by
  have hcall := h.kmalloc_wrapped size
  rw [hfit] at hcall
  have hno := (h.noFit_iff size).mpr hfit
  have hbound := h.bound
  have hlow := h.chain.start_le
  have hend : heapEnd < 2 ^ 33 := by decide
  by_cases hfull : heapEnd < (heap.heapPtr + (sizeofMemHeader + alignSize size)) % 2 ^ 64
  · simp only [if_pos hfull] at hcall
    refine iff_of_true ⟨_, _, hcall, ⟨?_, ?_, le_rfl⟩⟩ (.inr ⟨hno, hfull⟩)
    · intro hne
      exact absurd rfl hne
    · intro hne
      exact absurd rfl hne
  · simp only [if_neg hfull] at hcall
    -- the header was stored, with the rounded size that was never compared with the heap's end
    have hcap : capacity { heap.carve (alignSize size) with
        heapPtr := (heap.heapPtr + (sizeofMemHeader + alignSize size)) % 2 ^ 64 }
        (heap.nextBlock (alignSize size)).payload = alignSize size := by
      have hload : load 8 (storeHeader heap.mem heap.heapPtr
          ⟨alignSize size, 0, heap.freeList⟩) heap.heapPtr = alignSize size := by
        unfold storeHeader storeIsFree
        rw [load_store_outside _ _ _ _ _ _ (by omega), load_store_outside _ _ _ _ _ _ (by omega),
          load_store_same]
        exact Nat.mod_eq_of_lt (alignSize_lt size)
      unfold capacity Block.payload
      rw [Nat.add_sub_cancel]
      exact hload
    have hpayload : (heap.nextBlock (alignSize size)).payload =
        heap.heapPtr + sizeofMemHeader := rfl
    have hne : heap.heapPtr + sizeofMemHeader ≠ 0 := by
      unfold sizeofMemHeader
      omega
    rw [hpayload] at hcap hcall
    constructor
    · intro hsizes
      obtain ⟨p, heap', hcall', hgrants⟩ := hsizes
      cases hcall.symm.trans hcall'
      have hsmall := hgrants.room hne
      obtain ⟨-, hhigh⟩ := hgrants.within hne
      rw [hcap] at hsmall hhigh
      exact .inl ⟨by omega, by omega⟩
    · intro hadds
      have hnowrap := hadds.resolve_right fun hrefused ↦ hfull hrefused.2
      have hle := le_alignSize hnowrap.1
      have hsum : (heap.heapPtr + (sizeofMemHeader + alignSize size)) % 2 ^ 64 =
          heap.heapPtr + (sizeofMemHeader + alignSize size) := Nat.mod_eq_of_lt hnowrap.2
      rw [hsum] at hcall hcap hfull
      refine ⟨_, _, hcall, ⟨fun _ ↦ ?_, fun _ ↦ ?_, Nat.le_add_right _ _⟩⟩
      · rw [hcap]
        omega
      · rw [hcap]
        omega

/-- A request of more than 32 bits is refused when the sums do not wrap. -/
theorem WellFormed.adds_large (h : WellFormed heap blocks) (hadds : heap.Adds size)
    (hlarge : 2 ^ 32 ≤ size) : kmalloc heap size = some (0, heap) := by
  have hcall := h.kmalloc_wrapped size
  have hbound := h.bound
  have hend : heapEnd < 2 ^ 32 := by decide
  rcases hadds with ⟨hround, hsum⟩ | ⟨hno, hfull⟩
  · have hle := le_alignSize hround
    have hnone : blocks.find? (·.Fits (alignSize size)) = none := by
      rw [List.find?_eq_none]
      intro b hb hfit
      have hroom := (of_decide_eq_true hfit).2
      have hsize := h.size_le hb
      omega
    have hfull : heapEnd < (heap.heapPtr + (sizeofMemHeader + alignSize size)) % 2 ^ 64 := by
      rw [Nat.mod_eq_of_lt hsum]
      omega
    rw [hcall, hnone]
    simp only [if_pos hfull]
  · rw [h.noFit_iff] at hno
    rw [hcall, hno]
    simp only [if_pos hfull]

end Sizes

namespace Users

/-- One action of a user who asks for any size for which the sums of `kmalloc` are right. -/
inductive AnySize : Users → Users → Prop where
  | kmalloc {s : Users} {size p : Nat} {heap' : Heap} :
      size < 2 ^ 64 → s.heap.Adds size → Kernel.kmalloc s.heap size = some (p, heap') →
      AnySize s (s.afterKmalloc size p heap')
  | kfree {s : Users} {a : Alloc} :
      a ∈ s.live →
      AnySize s { s with heap := Kernel.kfree s.heap a.ptr, live := s.live.erase a }
  | write {s : Users} {a : Alloc} {x : Nat} (byte : UInt8) :
      a ∈ s.live → a.ptr ≤ x → x < a.ptr + a.size →
      AnySize s { s with heap := s.heap.write x [byte] }

/-- These users reach no states that users of small requests do not. -/
theorem reaches_of_anySize {mem : Memory} {s : Users}
    (h : Reachable (· = boot mem) AnySize s) : Reaches mem s := by
  induction h with
  | init hboot => exact .init hboot
  | @step s s' _ hstep ih =>
      cases hstep with
      | @kmalloc size p heap' hsize hadds hcall =>
          by_cases hsmall : size < 2 ^ 32
          · exact ih.step (.kmalloc hsmall hcall)
          · obtain ⟨blocks, hs⟩ := Reaches.sound ih
            have hrefused := hs.wf.adds_large hadds (Nat.le_of_not_lt hsmall)
            cases hcall.symm.trans hrefused
            simp only [afterKmalloc, ↓reduceIte]
            exact ih
      | kfree ha => exact ih.step (.kfree ha)
      | write byte ha hlow hhigh => exact ih.step (.write byte ha hlow hhigh)

end Users

/-- In every state of every run whose requests all `Adds`, a request of any 64-bit size is answered
by a block inside the heap that has room for it, or by `NULL`, without moving the bump pointer down,
if and only if it `Adds` as well. -/
theorem kmalloc_sizes_sound (mem : Memory) (s : Users)
    (h : Reachable (· = Users.boot mem) Users.AnySize s) (size : Nat) (hsize : size < 2 ^ 64) :
    s.heap.Sizes size ↔ s.heap.Adds size := by
  obtain ⟨blocks, hs⟩ := (Users.reaches_of_anySize h).sound
  cases hfit : blocks.find? (·.Fits (alignSize size)) with
  | some b => exact hs.wf.sizes_reuse hfit hsize
  | none => exact hs.wf.sizes_carve hfit hsize

/-- The largest request that does not wrap at boot is refused. -/
theorem kmalloc_sizes_sound_largest :
    (Users.boot fun _ ↦ 0).heap.Sizes (2 ^ 64 - 0x41000000 - 32) :=
  (kmalloc_sizes_sound (fun _ ↦ 0) (Users.boot fun _ ↦ 0) (.init rfl) (2 ^ 64 - 0x41000000 - 32)
    (by decide)).mpr (.inl (by decide))

/-- The first request after boot, for `2 ^ 64 - 32` bytes, gets a pointer and moves the bump pointer
eight bytes below the heap. -/
theorem kmalloc_size_wraps : ∃ s, Reachable (· = Users.boot fun _ ↦ 0) Users.AnySize s ∧
    (kmalloc s.heap (2 ^ 64 - 32)).map (fun r ↦ (r.1, r.2.heapPtr)) =
      some (heapStart + 24, heapStart - 8) ∧
    ¬ s.heap.Sizes (2 ^ 64 - 32) := by
  have hcall : (kmalloc (Users.boot fun _ ↦ 0).heap (2 ^ 64 - 32)).map
      (fun r ↦ (r.1, r.2.heapPtr)) = some (heapStart + 24, heapStart - 8) := rfl
  refine ⟨Users.boot fun _ ↦ 0, .init rfl, hcall, ?_⟩
  intro hsizes
  obtain ⟨p, heap', hcall', hgrants⟩ := hsizes
  rw [hcall', Option.map_some, Option.some.injEq, Prod.mk.injEq] at hcall
  have hmoved : heap'.heapPtr = heapStart - 8 := hcall.2
  have hgrows : heapStart ≤ heap'.heapPtr := hgrants.grows
  rw [hmoved] at hgrows
  exact absurd hgrows (by decide)

/-! ## What the monitor shows -/

/-- The allocator beside the variable that the monitor reads, with the requests made so far and the
heaps they were made on. -/
structure Monitored where
  heap : Heap
  heapCurrentPtr : Nat
  requests : List (Heap × Nat)

namespace Monitored

/-- At boot. -/
def boot (mem : Memory) : Monitored := ⟨Heap.boot mem, heapStart, []⟩

/-- `get_heap_usage`. -/
def getHeapUsage (s : Monitored) : Nat := (s.heapCurrentPtr + 2 ^ 64 - heapStart) % 2 ^ 64

/-- The heap bytes carved so far, as 64 bits. -/
def carvedBytes (s : Monitored) : Nat := (s.heap.heapPtr + 2 ^ 64 - heapStart) % 2 ^ 64

/-- One call of `kmalloc` or `kfree` with any argument, or a write anywhere in memory. -/
inductive Step : Monitored → Monitored → Prop where
  | kmalloc {s : Monitored} {size p : Nat} {heap' : Heap} :
      Kernel.kmalloc s.heap size = some (p, heap') →
      Step s { s with heap := heap', requests := (s.heap, size) :: s.requests }
  | kfree {s : Monitored} (ptr : Nat) : Step s { s with heap := Kernel.kfree s.heap ptr }
  | write {s : Monitored} (x : Nat) (byte : UInt8) :
      Step s { s with heap := s.heap.write x [byte] }

/-- The states that runs from boot reach. -/
abbrev Reaches (mem : Memory) : Monitored → Prop := Reachable (· = boot mem) Step

end Monitored

/-- A request for `size` bytes finds no block to reuse, and room for a new one. -/
structure Heap.Carves (heap : Heap) (size : Nat) : Prop where
  noFit : findFree heap.mem (alignSize size) (maxBlocks + 1) heap.freeList = some 0
  room : (heap.heapPtr + (sizeofMemHeader + alignSize size)) % 2 ^ 64 ≤ heapEnd
  moves : (sizeofMemHeader + alignSize size) % 2 ^ 64 ≠ 0

/-- The bump pointer stays where it is when nothing is carved. -/
theorem kmalloc_heapPtr {heap heap' : Heap} {size p : Nat} (hptr : heap.heapPtr < 2 ^ 64)
    (hcall : kmalloc heap size = some (p, heap')) :
    heap'.heapPtr < 2 ^ 64 ∧ (heap'.heapPtr = heap.heapPtr ↔ ¬ heap.Carves size) := by
  obtain ⟨current, hfind, hrest⟩ := Option.bind_eq_some_iff.mp hcall
  have hwrap : (heap.heapPtr + (sizeofMemHeader + alignSize size) % 2 ^ 64) % 2 ^ 64 =
      (heap.heapPtr + (sizeofMemHeader + alignSize size)) % 2 ^ 64 := Nat.add_mod_mod ..
  dsimp only at hrest
  rw [hwrap] at hrest
  by_cases hcurrent : current ≠ 0
  · rw [if_pos hcurrent] at hrest
    cases hrest
    refine ⟨hptr, iff_of_true rfl fun hcarves ↦ hcurrent ?_⟩
    exact Option.some.inj (hfind.symm.trans hcarves.noFit)
  · rw [if_neg hcurrent] at hrest
    rw [ne_eq, not_not] at hcurrent
    rw [hcurrent] at hfind
    by_cases hfull : (heap.heapPtr + (sizeofMemHeader + alignSize size)) % 2 ^ 64 > heapEnd
    · rw [if_pos hfull] at hrest
      cases hrest
      exact ⟨hptr, iff_of_true rfl fun hcarves ↦ Nat.not_lt.mpr hcarves.room hfull⟩
    · rw [if_neg hfull] at hrest
      cases hrest
      refine ⟨Nat.mod_lt _ (by decide), ?_⟩
      show (heap.heapPtr + (sizeofMemHeader + alignSize size)) % 2 ^ 64 = heap.heapPtr ↔ _
      constructor
      · intro hsame hcarves
        have hmoves := hcarves.moves
        omega
      · intro hno
        have hzero : (sizeofMemHeader + alignSize size) % 2 ^ 64 = 0 := by
          by_contra hmoves
          exact hno ⟨hfind, Nat.le_of_not_lt hfull, hmoves⟩
        omega

namespace Monitored

/-- Nothing ever assigns `heap_current_ptr`. -/
structure Sound (s : Monitored) : Prop where
  stuck : s.heapCurrentPtr = heapStart
  word : s.heap.heapPtr < 2 ^ 64
  idle : (∀ r ∈ s.requests, ¬ r.1.Carves r.2) → s.heap.heapPtr = heapStart

/-- The monitor is right while the bump pointer is where it was at boot. -/
theorem Sound.usage_iff {s : Monitored} (h : s.Sound) :
    s.getHeapUsage = s.carvedBytes ↔ s.heap.heapPtr = heapStart := by
  have hword := h.word
  unfold getHeapUsage carvedBytes
  rw [h.stuck]
  unfold heapStart
  omega

/-- A call of `kfree` does not move the bump pointer. -/
theorem kfree_heapPtr (heap : Heap) (ptr : Nat) :
    (Kernel.kfree heap ptr).heapPtr = heap.heapPtr := by
  unfold Kernel.kfree
  split
  · rfl
  · rfl

/-- Every step keeps the monitor sound. -/
theorem Sound.step {s s' : Monitored} (h : s.Sound) (hstep : Step s s') : s'.Sound := by
  cases hstep with
  | kmalloc hcall =>
      obtain ⟨hword, hmoves⟩ := kmalloc_heapPtr h.word hcall
      refine ⟨h.stuck, hword, fun hidle ↦ ?_⟩
      rw [List.forall_mem_cons] at hidle
      exact (hmoves.mpr hidle.1).trans (h.idle hidle.2)
  | kfree ptr =>
      have hsame := kfree_heapPtr s.heap ptr
      refine ⟨h.stuck, ?_, fun hidle ↦ ?_⟩
      · rw [hsame]
        exact h.word
      · rw [hsame]
        exact h.idle hidle
  | write x byte => exact ⟨h.stuck, h.word, h.idle⟩

/-- The monitor is sound in every run. -/
theorem Reaches.sound {mem : Memory} {s : Monitored} (h : Reaches mem s) : s.Sound := by
  induction h with
  | init hboot =>
      rw [hboot]
      have hword : heapStart < 2 ^ 64 := by decide
      exact ⟨rfl, hword, fun _ ↦ rfl⟩
  | step _ hstep ih => exact ih.step hstep

end Monitored

/-- In every run of `kmalloc` and `kfree`: as long as no request carved anything, `get_heap_usage`
is the number of heap bytes carved; and when it is, the next request leaves it so if and only if it
carves nothing. -/
theorem heap_usage_follows (mem : Memory) (s : Monitored) (h : Monitored.Reaches mem s) :
    ((∀ r ∈ s.requests, ¬ r.1.Carves r.2) → s.getHeapUsage = s.carvedBytes) ∧
    (s.getHeapUsage = s.carvedBytes → ∀ size p heap',
      kmalloc s.heap size = some (p, heap') →
      (Monitored.getHeapUsage { s with heap := heap', requests := (s.heap, size) :: s.requests } =
        Monitored.carvedBytes { s with
          heap := heap', requests := (s.heap, size) :: s.requests } ↔
        ¬ s.heap.Carves size)) := by
  have hs := Monitored.Reaches.sound h
  constructor
  · intro hidle
    exact hs.usage_iff.mpr (hs.idle hidle)
  · intro husage size p heap' hcall
    have hstart := hs.usage_iff.mp husage
    have hstep : Monitored.Step s
        { s with heap := heap', requests := (s.heap, size) :: s.requests } := .kmalloc hcall
    rw [(hs.step hstep).usage_iff, ← hstart]
    exact (kmalloc_heapPtr hs.word hcall).2

/-- A request for more than there is carves nothing. -/
theorem heap_usage_follows_refused :
    Monitored.getHeapUsage ⟨Heap.boot fun _ ↦ 0, heapStart, [(Heap.boot fun _ ↦ 0, 2 ^ 25)]⟩ =
      Monitored.carvedBytes
        ⟨Heap.boot fun _ ↦ 0, heapStart, [(Heap.boot fun _ ↦ 0, 2 ^ 25)]⟩ := by
  have hcall : kmalloc (Heap.boot fun _ ↦ 0) (2 ^ 25) = some (0, Heap.boot fun _ ↦ 0) := by
    simp [kmalloc, findFree, Heap.boot, alignSize, heapStart, heapEnd, heapSize, sizeofMemHeader]
  refine (heap_usage_follows (fun _ ↦ 0)
    ⟨Heap.boot fun _ ↦ 0, heapStart, [(Heap.boot fun _ ↦ 0, 2 ^ 25)]⟩
    (.step (.init rfl) (.kmalloc (s := .boot fun _ ↦ 0) hcall))).1 ?_
  intro r hr hcarves
  rw [List.mem_singleton.mp hr] at hcarves
  exact absurd hcarves.room (by decide)

/-- After one request for 100 bytes the monitor still shows zero, and 128 bytes are carved. -/
theorem heap_usage_stuck : ∃ s, Monitored.Reaches (fun _ ↦ 0) s ∧ s.getHeapUsage = 0 ∧
    s.carvedBytes = 128 :=
  ⟨⟨(Heap.boot fun _ ↦ 0).carve 104, heapStart, [(Heap.boot fun _ ↦ 0, 100)]⟩,
    .step (.init rfl) (.kmalloc (show Kernel.kmalloc (Heap.boot fun _ ↦ 0) 100 =
      some (heapStart + 24, (Heap.boot fun _ ↦ 0).carve 104) from rfl)), rfl, rfl⟩

end Aether.Kernel
