import Aether.Kernel.Health
import Aether.Lib.IndexedLists

/-!
# Split virtqueues

`virtio_ring.c`: the driver's bookkeeping of a virtqueue together with the rings it shares with
the device. Ring contents are total functions of the slot index; the addresses that
`virtqueue_init` computes are kept beside them. The doorbell and the memory barriers have no
effect on this state and are left out. `deviceComplete` is the device's only write.
-/

namespace Aether.Drivers

open Kernel IndexedLists

/-- `struct virtq_desc`. -/
structure VirtqDesc where
  addr : Nat := 0
  len : UInt32 := 0
  flags : UInt16 := 0
  next : UInt16 := 0
  deriving DecidableEq

/-- `struct virtq_used_elem`. -/
structure VirtqUsedElem where
  id : UInt32 := 0
  len : UInt32 := 0
  deriving DecidableEq

/-- `struct virtqueue`, with the contents of the memory behind its three pointers. `published` is
the device's side of the exchange: the heads it was handed and has not completed yet. -/
structure Virtqueue where
  size : UInt16 := 0
  queueIndex : UInt16 := 0
  descAddr : Nat := 0
  availAddr : Nat := 0
  usedAddr : Nat := 0
  desc : Nat → VirtqDesc := fun _ ↦ {}
  availIdx : UInt16 := 0
  availRing : Nat → UInt16 := fun _ ↦ 0
  usedIdx : UInt16 := 0
  usedRing : Nat → VirtqUsedElem := fun _ ↦ {}
  freeHead : UInt16 := 0
  numFree : UInt16 := 0
  lastUsedIdx : UInt16 := 0
  published : List UInt16 := []

/-- The queue structure and its ring memory before any call, all zero. -/
def Virtqueue.zeroed : Virtqueue := {}

/-- `desc[i].next = i + 1` for every `i` below `n`. -/
def linkDescriptors (n : Nat) (desc : Nat → VirtqDesc) : Nat → VirtqDesc :=
  (List.range n).foldl
    (fun desc i ↦ Function.update desc i { desc i with next := UInt16.ofNat (i + 1) }) desc

/-- `virtqueue_init`, on the ring memory at address `p` whose contents `vq` holds. Its callers have
rejected a `size` of zero. -/
def virtqueueInit (vq : Virtqueue) (size index : UInt16) (p : Nat) : Virtqueue :=
  let avail := p + 16 * size.toNat
  let used := avail + 2 + 2 + 2 * size.toNat + 2
  let linked := linkDescriptors (size.toNat - 1) vq.desc
  let last := size.toNat - 1
  { vq with
    size := size
    queueIndex := index
    descAddr := p
    availAddr := avail
    usedAddr := (used + 3) / 4 * 4
    freeHead := 0
    numFree := size
    desc := Function.update linked last { linked last with next := 0xFFFF }
    lastUsedIdx := 0 }

/-- `virtqueue_add_descriptor`: the head taken from the free list, `0xFFFF` when it is empty. -/
def virtqueueAddDescriptor (vq : Virtqueue) (stats : NetStats) (virtAddr : Nat) (len : UInt32)
    (flags : UInt16) : UInt16 × Virtqueue × NetStats :=
  if vq.numFree = 0 then (0xFFFF, vq, stats)
  else
    let head := vq.freeHead
    (head,
      { vq with
        freeHead := (vq.desc head.toNat).next
        numFree := vq.numFree - 1
        desc := Function.update vq.desc head.toNat ⟨virtAddr, len, flags, 0⟩ },
      { stats with bufferUsage := stats.bufferUsage + 1 })

/-- `virtqueue_push_available`. A head that names no descriptor gives the device nothing to
complete. -/
def virtqueuePushAvailable (vq : Virtqueue) (descHead : UInt16) : Virtqueue :=
  let idx := vq.availIdx
  { vq with
    availRing := Function.update vq.availRing (idx.toNat % vq.size.toNat) descHead
    availIdx := idx + 1
    published := if descHead < vq.size then vq.published ++ [descHead] else vq.published }

/-- The counters that `virtqueue_pop_used` updates for a queue with the given index. -/
def popStats (queueIndex : UInt16) (stats : NetStats) : NetStats :=
  let stats := { stats with bufferUsage := stats.bufferUsage - 1 }
  if queueIndex = 0 then { stats with rxPackets := stats.rxPackets + 1 }
  else if queueIndex = 1 then { stats with txPackets := stats.txPackets + 1 }
  else stats

/-- `virtqueue_pop_used`: the completed descriptor and the length the device reported, `none` for
the result `-1`. -/
def virtqueuePopUsed (vq : Virtqueue) (stats : NetStats) :
    Option (UInt16 × UInt32) × Virtqueue × NetStats :=
  if vq.lastUsedIdx = vq.usedIdx then (none, vq, stats)
  else
    -- the identifier is used as the device wrote it
    let receipt := vq.usedRing (vq.lastUsedIdx.toNat % vq.size.toNat)
    let descId := receipt.id.toUInt16
    (some (descId, receipt.len),
      { vq with
        lastUsedIdx := vq.lastUsedIdx + 1
        desc := Function.update vq.desc descId.toNat
          { vq.desc descId.toNat with next := vq.freeHead }
        freeHead := descId
        numFree := vq.numFree + 1 },
      popStats vq.queueIndex stats)

/-- The device completes `id`, reporting `len` bytes: it appends to the used ring and advances its
index by one. -/
def deviceComplete (vq : Virtqueue) (id : UInt16) (len : UInt32) : Virtqueue :=
  { vq with
    usedRing := Function.update vq.usedRing (vq.usedIdx.toNat % vq.size.toNat) ⟨id.toUInt32, len⟩
    usedIdx := vq.usedIdx + 1
    published := vq.published.erase id }

/-- The descriptors met by following `next` from `free_head`, `num_free` of them. -/
def Virtqueue.freeIds (vq : Virtqueue) : List UInt16 :=
  follow (fun id ↦ (vq.desc id.toNat).next) vq.freeHead vq.numFree.toNat

/-- The completions in the used ring that the driver has not popped, oldest first. -/
def Virtqueue.pendingIds (vq : Virtqueue) : List UInt16 :=
  (window vq.usedRing vq.size.toNat vq.lastUsedIdx.toNat (vq.usedIdx - vq.lastUsedIdx).toNat).map
    fun receipt ↦ receipt.id.toUInt16

end Aether.Drivers
