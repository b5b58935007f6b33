import Aether.Lib.ByteMemory

/-!
# The kernel heap

`kmalloc` and `kfree` of `kernel/memory.c` over byte-addressed memory. Every block is a
`mem_header_t` followed by its payload. The headers form an intrusive list from `free_list`; the
list holds every block ever carved, in use or not, and a block is reused whole. Pointers are
natural numbers and `NULL` is `0`; `size_t` and `uint64_t` arithmetic is explicit modulo `2 ^ 64`.
-/

namespace Aether.Kernel

open ByteMemory

/-- `HEAP_START`. -/
def heapStart : Nat := 0x41000000

/-- `HEAP_SIZE`, 16 MiB. -/
def heapSize : Nat := 16 * 1024 * 1024

/-- `HEAP_START + HEAP_SIZE`, the address past the last heap byte. -/
def heapEnd : Nat := heapStart + heapSize

/-- `sizeof(mem_header_t)`: `size_t`, `int`, four bytes of padding and a pointer. -/
def sizeofMemHeader : Nat := 24

/-- `mem_header_t`. -/
structure MemHeader where
  size : Nat
  isFree : Nat
  next : Nat
  deriving DecidableEq

/-- The header at address `p`. -/
def loadHeader (mem : Memory) (p : Nat) : MemHeader :=
  ⟨load 8 mem p, load 4 mem (p + 8), load 8 mem (p + 16)⟩

/-- `header->is_free = v`. -/
def storeIsFree (mem : Memory) (p v : Nat) : Memory := store 4 mem (p + 8) v

/-- The three stores that initialise a freshly carved header. -/
def storeHeader (mem : Memory) (p : Nat) (header : MemHeader) : Memory :=
  store 8 (storeIsFree (store 8 mem p header.size) p header.isFree) (p + 16) header.next

/-- The allocator's state: the memory it manages and its two static pointers. -/
structure Heap where
  mem : Memory
  heapPtr : Nat
  freeList : Nat

/-- The allocator at boot, over RAM of any content. -/
def Heap.boot (mem : Memory) : Heap := ⟨mem, heapStart, 0⟩

/-- `(size + 7) & ~7` on a 64-bit `size_t`. -/
def alignSize (size : Nat) : Nat := (size + 7) % 2 ^ 64 / 8 * 8

/-- No more headers than this fit into the heap, so a walk that takes more steps than this is on
a list that is not well formed. -/
def maxBlocks : Nat := heapSize / sizeofMemHeader

/-- The `while (current)` loop of `kmalloc`: the first free header with room for `size` bytes, or
`0` at the end of the list. The result is `none` when the walk outlasts its fuel. -/
def findFree (mem : Memory) (size : Nat) : Nat → Nat → Option Nat
  | 0, _ => none
  | fuel + 1, current =>
      if current = 0 then some 0
      else
        let header := loadHeader mem current
        if header.isFree ≠ 0 ∧ size ≤ header.size then some current
        else findFree mem size fuel header.next

/-- `kmalloc`: the returned pointer, `0` for `NULL`, and the new state. The outer `none` is a call
that does not return because the list is cyclic. -/
def kmalloc (heap : Heap) (size : Nat) : Option (Nat × Heap) := do
  let size := alignSize size
  let current ← findFree heap.mem size (maxBlocks + 1) heap.freeList
  -- a free block is handed out whole
  if current ≠ 0 then
    pure (current + sizeofMemHeader, { heap with mem := storeIsFree heap.mem current 0 })
  else
    -- the sums are those of 64 bits
    let totalSize := (sizeofMemHeader + size) % 2 ^ 64
    if (heap.heapPtr + totalSize) % 2 ^ 64 > heapEnd then
      pure (0, heap)
    else
      pure (heap.heapPtr + sizeofMemHeader,
        { mem := storeHeader heap.mem heap.heapPtr ⟨size, 0, heap.freeList⟩
          heapPtr := (heap.heapPtr + totalSize) % 2 ^ 64
          freeList := heap.heapPtr })

/-- `kfree`. -/
def kfree (heap : Heap) (ptr : Nat) : Heap :=
  if ptr = 0 then heap
  else { heap with mem := storeIsFree heap.mem (ptr - sizeofMemHeader) 1 }

/-- The headers met by following `next` from `current`, `none` when the walk outlasts its fuel. -/
def walkHeaders (mem : Memory) : Nat → Nat → Option (List Nat)
  | 0, _ => none
  | fuel + 1, current =>
      if current = 0 then some []
      else (walkHeaders mem fuel (loadHeader mem current).next).map (current :: ·)

/-- The payload pointers of the blocks in use, in list order. -/
def liveBlocks (heap : Heap) : Option (List Nat) :=
  (walkHeaders heap.mem (maxBlocks + 1) heap.freeList).map fun headers ↦
    (headers.filter fun p ↦ (loadHeader heap.mem p).isFree = 0).map (· + sizeofMemHeader)

end Aether.Kernel
