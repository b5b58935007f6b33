import Aether.Drivers.AvailRing

/-!
# A queue of receive buffers

A queue that the driver keeps full: every descriptor has a buffer of its own and is with the device
or in the used ring. `Stocked` holds between two polls for every size, also one that does not divide
the number of ring indices, as long as the device does not overwrite completions.
-/

namespace Aether.Drivers

open Kernel IndexedLists

namespace Virtqueue

/-! ## Completions that wait -/

/-- The slots of the used ring that hold completions which the driver has not popped, oldest
first. -/
def unpoppedSlots (vq : Virtqueue) : List Nat :=
  slots vq.size.toNat vq.lastUsedIdx vq.usedIdx

/-- These completions. -/
def unpopped (vq : Virtqueue) : List UInt16 :=
  vq.unpoppedSlots.map fun slot ↦ (vq.usedRing slot).id.toUInt16

/-- The slot that the device writes next holds none of them. -/
def SlotFree (vq : Virtqueue) : Prop := vq.usedIdx.toNat % vq.size.toNat ∉ vq.unpoppedSlots

instance (vq : Virtqueue) : Decidable vq.SlotFree := inferInstanceAs (Decidable (¬ _))

section Waiting

variable {vq : Virtqueue}

theorem length_unpopped (vq : Virtqueue) :
    vq.unpopped.length = (vq.usedIdx - vq.lastUsedIdx).toNat := by
  simp [unpopped, unpoppedSlots]

/-- A completion in a free slot goes to the end. -/
theorem unpopped_complete (hfree : vq.SlotFree) (hroom : vq.unpopped.length < 2 ^ 16 - 1)
    (id : UInt16) (len : UInt32) : (deviceComplete vq id len).unpopped = vq.unpopped ++ [id] := by
  rw [length_unpopped] at hroom
  have hslots : (deviceComplete vq id len).unpoppedSlots =
      vq.unpoppedSlots ++ [vq.usedIdx.toNat % vq.size.toNat] := slots_succ hroom
  rw [unpopped, hslots, List.map_append, List.map_cons, List.map_nil]
  congr 1
  · refine List.map_congr_left fun slot hslot ↦ ?_
    have hne : slot ≠ vq.usedIdx.toNat % vq.size.toNat := fun heq ↦ hfree (heq ▸ hslot)
    simp only [deviceComplete, Function.update_of_ne hne]
  · simp [deviceComplete]

/-- Popping takes the oldest completion. -/
theorem popUsed_of_unpopped {id : UInt16} {rest : List UInt16} (h : vq.unpopped = id :: rest)
    (stats : NetStats) :
    (∃ len, virtqueuePopUsed vq stats =
      (some (id, len), vq.recycle id, popStats vq.queueIndex stats)) ∧
    (vq.recycle id).unpoppedSlots = vq.unpoppedSlots.tail ∧ (vq.recycle id).unpopped = rest := by
  have hlen : (vq.usedIdx - vq.lastUsedIdx).toNat = rest.length + 1 := by
    rw [← length_unpopped, h, List.length_cons]
  have hne : vq.lastUsedIdx ≠ vq.usedIdx := fun heq ↦ by simp [heq] at hlen
  have hslots : vq.unpoppedSlots = vq.lastUsedIdx.toNat % vq.size.toNat ::
      (vq.recycle id).unpoppedSlots := slots_of_ne hne
  rw [unpopped, hslots, List.map_cons] at h
  obtain ⟨hid, hrest⟩ := List.cons.inj h
  refine ⟨⟨(vq.usedRing (vq.lastUsedIdx.toNat % vq.size.toNat)).len, ?_⟩, ?_, ?_⟩
  · simp only [virtqueuePopUsed, hne, ↓reduceIte, hid, recycle]
  · rw [hslots, List.tail_cons]
  · exact hrest

/-- With no completion waiting, popping changes nothing. -/
theorem popUsed_of_no_unpopped (h : vq.unpopped = []) (stats : NetStats) :
    virtqueuePopUsed vq stats = (none, vq, stats) := by
  have hlen := length_unpopped vq
  rw [h, List.length_nil, UInt16.toNat_sub] at hlen
  have heq : vq.lastUsedIdx = vq.usedIdx := UInt16.toNat_inj.mp <| by
    have hlast := vq.lastUsedIdx.toNat_lt
    have hused := vq.usedIdx.toNat_lt
    omega
  rw [virtqueuePopUsed, if_pos heq]

end Waiting

/-- Either nothing is waiting and the queue stays as it is, or one completion is popped. -/
theorem popUsed_cases (vq : Virtqueue) (stats : NetStats) :
    vq.lastUsedIdx = vq.usedIdx ∧ virtqueuePopUsed vq stats = (none, vq, stats) ∨
    vq.lastUsedIdx ≠ vq.usedIdx ∧ ∃ id len, virtqueuePopUsed vq stats =
      (some (id, len), vq.recycle id, popStats vq.queueIndex stats) := by
  by_cases heq : vq.lastUsedIdx = vq.usedIdx
  · exact .inl ⟨heq, by rw [virtqueuePopUsed, if_pos heq]⟩
  · exact .inr ⟨heq, _, _, by rw [virtqueuePopUsed, if_neg heq]; rfl⟩

/-! ## Full queues -/

/-- Every descriptor of the queue describes the buffer with its number, and is with the device or in
the used ring. -/
structure Stocked (buffer : Nat → Nat) (len : UInt32) (flags : UInt16) (vq : Virtqueue) :
    Prop where
  numFree : vq.numFree = 0
  desc : ∀ i < vq.size.toNat,
    (vq.desc i).addr = buffer i ∧ (vq.desc i).len = len ∧ (vq.desc i).flags = flags
  partition : ((vq.published ++ vq.unpopped).map UInt16.toNat).Perm (List.range vq.size.toNat)

section Full

variable {vq : Virtqueue} {buffer : Nat → Nat} {len : UInt32} {flags : UInt16}

/-- The places of a full queue hold as many ids as it has descriptors. -/
theorem Stocked.length_eq (h : vq.Stocked buffer len flags) :
    vq.published.length + vq.unpopped.length = vq.size.toNat := by
  simpa using h.partition.length_eq

/-- The places hold ids of descriptors. -/
theorem Stocked.lt_size (h : vq.Stocked buffer len flags) {id : UInt16}
    (hid : id ∈ vq.published ++ vq.unpopped) : id.toNat < vq.size.toNat :=
  List.mem_range.mp (h.partition.mem_iff.mp (List.mem_map_of_mem hid))

/-- No id is in two places. -/
theorem Stocked.nodup (h : vq.Stocked buffer len flags) : (vq.published ++ vq.unpopped).Nodup :=
  .of_map UInt16.toNat (h.partition.nodup_iff.mpr List.nodup_range)

/-- A completion keeps the queue full. -/
theorem Stocked.complete (h : vq.Stocked buffer len flags) {id : UInt16} (hid : id ∈ vq.published)
    (hfree : vq.SlotFree) (n : UInt32) : (deviceComplete vq id n).Stocked buffer len flags := by
  have hroom : vq.unpopped.length < 2 ^ 16 - 1 := by
    have hlen := h.length_eq
    have hpos := List.length_pos_of_mem hid
    have hsize := vq.size.toNat_lt
    omega
  refine ⟨h.numFree, h.desc, ?_⟩
  have hpublished : (deviceComplete vq id n).published = vq.published.erase id := rfl
  rw [hpublished, unpopped_complete hfree hroom, ← List.append_assoc]
  refine (List.Perm.map _ ?_).trans h.partition
  refine (List.perm_append_singleton id _).trans ?_
  exact ((List.perm_cons_erase hid).append_right _).symm

/-- The driver pops a completion and hands the same buffer in again, under the same id. -/
theorem Stocked.refill (h : vq.Stocked buffer len flags) {id : UInt16} {rest : List UInt16}
    (hunpopped : vq.unpopped = id :: rest) (stats : NetStats) :
    ∃ added, virtqueueAddDescriptor (vq.recycle id) stats (buffer id.toNat) len flags =
        (id, added, { stats with bufferUsage := stats.bufferUsage + 1 }) ∧
      (virtqueuePushAvailable added id).Stocked buffer len flags ∧
      (virtqueuePushAvailable added id).size = vq.size ∧
      (virtqueuePushAvailable added id).published = vq.published ++ [id] ∧
      (virtqueuePushAvailable added id).unpopped = rest ∧
      (virtqueuePushAvailable added id).availIdx = (virtqueuePushAvailable vq id).availIdx ∧
      (virtqueuePushAvailable added id).availRing = (virtqueuePushAvailable vq id).availRing := by
  obtain ⟨-, -, hrest⟩ := popUsed_of_unpopped hunpopped stats
  have hlt : id < vq.size := h.lt_size (by simp [hunpopped])
  -- the descriptor that comes back is the only free one, so that it is taken again
  have hone : (vq.recycle id).numFree = 1 := by
    show vq.numFree + 1 = 1
    rw [h.numFree]
    rfl
  have hfree : (vq.recycle id).numFree ≠ 0 := by
    rw [hone]
    decide
  have hadd := add_eq hfree stats (buffer id.toNat) len flags
  generalize htake : (vq.recycle id).take (buffer id.toNat) len flags = added at hadd
  have hpublished : (virtqueuePushAvailable added id).published = vq.published ++ [id] := by
    rw [← htake]
    exact if_pos hlt
  have hleft : (virtqueuePushAvailable added id).unpopped = rest := by
    rw [← hrest, ← htake]
    rfl
  refine ⟨added, hadd, ⟨?_, fun i hi ↦ ?_, ?_⟩, ?_, hpublished, hleft, ?_, ?_⟩
  · rw [← htake]
    show (vq.recycle id).numFree - 1 = 0
    rw [hone]
    rfl
  · have hdesc : (virtqueuePushAvailable added id).desc i =
        Function.update (vq.recycle id).desc id.toNat ⟨buffer id.toNat, len, flags, 0⟩ i := by
      rw [← htake]
      rfl
    rw [hdesc]
    by_cases heq : i = id.toNat
    · rw [heq, Function.update_self]
      exact ⟨rfl, rfl, rfl⟩
    · have hsame : (vq.recycle id).desc i = vq.desc i := Function.update_of_ne heq ..
      rw [Function.update_of_ne heq, hsame]
      rw [← htake] at hi
      exact h.desc i hi
  · have hsize : (virtqueuePushAvailable added id).size = vq.size := by
      rw [← htake]
      rfl
    rw [hpublished, hleft, hsize]
    refine (List.Perm.map _ ?_).trans h.partition
    rw [hunpopped, List.append_assoc, List.singleton_append]
  · rw [← htake]
    rfl
  · rw [← htake]
    rfl
  · rw [← htake]
    rfl

/-- When the size divides the number of ring indices, the device always finds a free slot. -/
theorem Stocked.slotFree (h : vq.Stocked buffer len flags) (hdvd : vq.size.toNat ∣ 2 ^ 16)
    {id : UInt16} (hid : id ∈ vq.published) : vq.SlotFree := by
  have hroom : (vq.usedIdx - vq.lastUsedIdx).toNat < vq.size.toNat := by
    have hlen := h.length_eq
    have hpos := List.length_pos_of_mem hid
    rw [length_unpopped] at hlen
    omega
  exact slot_notMem_slots hdvd hroom

/-! ## Filling a queue -/

/-- The first `k` descriptors of a fresh queue describe their buffers and are published. -/
structure Filling (buffer : Nat → Nat) (len : UInt32) (flags : UInt16) (k : Nat)
    (vq : Virtqueue) : Prop where
  freeIds : vq.freeIds = (List.range' k (vq.size.toNat - k)).map UInt16.ofNat
  desc : ∀ i < k, (vq.desc i).addr = buffer i ∧ (vq.desc i).len = len ∧ (vq.desc i).flags = flags
  published : vq.published = (List.range k).map UInt16.ofNat
  unpopped : vq.unpopped = []
  availIdx : vq.availIdx = UInt16.ofNat k
  availRing : ∀ i < k, vq.availRing i = UInt16.ofNat i

/-- At first nothing is published. -/
theorem filling_init (buffer : Nat → Nat) (len : UInt32) (flags : UInt16) (size index : UInt16)
    (p : Nat) : (virtqueueInit zeroed size index p).Filling buffer len flags 0 where
  freeIds := by
    rw [freeIds_init, List.range_eq_range']
    rfl
  desc := by simp
  published := rfl
  unpopped := by simp [Virtqueue.unpopped, unpoppedSlots, virtqueueInit, zeroed]
  availIdx := rfl
  availRing := by simp

/-- The next descriptor is filled and published. -/
theorem Filling.step {k : Nat} (h : vq.Filling buffer len flags k) (hk : k < vq.size.toNat)
    (stats : NetStats) :
    ∃ added, virtqueueAddDescriptor vq stats (buffer k) len flags =
        (UInt16.ofNat k, added, { stats with bufferUsage := stats.bufferUsage + 1 }) ∧
      (virtqueuePushAvailable added (UInt16.ofNat k)).Filling buffer len flags (k + 1) ∧
      (virtqueuePushAvailable added (UInt16.ofNat k)).size = vq.size := by
  have hsize := vq.size.toNat_lt
  have hid : (UInt16.ofNat k).toNat = k := UInt16.toNat_ofNat_of_lt' (by rw [UInt16.size]; omega)
  have hlt : UInt16.ofNat k < vq.size := by
    rw [UInt16.lt_iff_toNat_lt, hid]
    exact hk
  have hfree : vq.freeIds = UInt16.ofNat k ::
      (List.range' (k + 1) (vq.size.toNat - (k + 1))).map UInt16.ofNat := by
    rw [h.freeIds, show vq.size.toNat - k = vq.size.toNat - (k + 1) + 1 by omega, List.range'_succ,
      List.map_cons]
  -- no descriptor is free twice
  have hnodup : vq.freeIds.Nodup := by
    refine .of_map UInt16.toNat ?_
    have hids : vq.freeIds.map UInt16.toNat = List.range' k (vq.size.toNat - k) := by
      rw [h.freeIds, List.map_map]
      refine (List.map_congr_left fun i hi ↦ ?_).trans (List.map_id _)
      have := List.mem_range'_1.mp hi
      exact UInt16.toNat_ofNat_of_lt' (by rw [UInt16.size]; omega)
    rw [hids]
    exact List.nodup_range'
  have hne : vq.numFree ≠ 0 := by
    intro hzero
    have hlength := length_freeIds vq
    rw [hfree, hzero] at hlength
    cases hlength
  obtain ⟨hhead, hrest⟩ := freeIds_add hfree hnodup stats (buffer k) len flags
  rw [add_eq hne] at hhead hrest
  dsimp only at hhead hrest
  refine ⟨vq.take (buffer k) len flags, by rw [add_eq hne, hhead],
    ⟨?_, fun i hi ↦ ?_, ?_, ?_, ?_, fun i hi ↦ ?_⟩, rfl⟩
  · exact hrest
  · show ((vq.take (buffer k) len flags).desc i).addr = buffer i ∧
      ((vq.take (buffer k) len flags).desc i).len = len ∧
      ((vq.take (buffer k) len flags).desc i).flags = flags
    rw [take, hhead, hid]
    dsimp only
    by_cases heq : i = k
    · rw [heq, Function.update_self]
      exact ⟨rfl, rfl, rfl⟩
    · rw [Function.update_of_ne heq]
      exact h.desc i (by omega)
  · have hpublished : (virtqueuePushAvailable (vq.take (buffer k) len flags)
        (UInt16.ofNat k)).published = vq.published ++ [UInt16.ofNat k] := if_pos hlt
    rw [hpublished, h.published, List.range_succ, List.map_append, List.map_cons, List.map_nil]
  · exact h.unpopped
  · show vq.availIdx + 1 = UInt16.ofNat (k + 1)
    rw [h.availIdx, UInt16.ofNat_add]
    rfl
  · show Function.update vq.availRing (vq.availIdx.toNat % vq.size.toNat) (UInt16.ofNat k) i = _
    rw [h.availIdx, hid, Nat.mod_eq_of_lt hk]
    by_cases heq : i = k
    · rw [heq, Function.update_self]
    · rw [Function.update_of_ne heq]
      exact h.availRing i (by omega)

/-- The available ring holds the published descriptors in order. -/
theorem Filling.unfetched (h : vq.Filling buffer len flags vq.size.toNat) :
    vq.unfetched 0 = (List.range vq.size.toNat).map UInt16.ofNat := by
  have hsize := vq.size.toNat_lt
  have hslots : slots vq.size.toNat 0 vq.availIdx = List.range vq.size.toNat := by
    rw [h.availIdx, slots, UInt16.sub_zero, UInt16.ofNat_toNat]
    refine (List.map_congr_left fun j hj ↦ ?_).trans (List.map_id _)
    have hlt := List.mem_range.mp hj
    rw [UInt16.zero_add, UInt16.toNat_ofNat_of_lt' (by rw [UInt16.size]; omega),
      Nat.mod_eq_of_lt hlt, id]
  rw [Virtqueue.unfetched, hslots]
  exact List.map_congr_left fun i hi ↦ h.availRing i (List.mem_range.mp hi)

/-- With all descriptors published the queue is full. -/
theorem Filling.stocked (h : vq.Filling buffer len flags vq.size.toNat) :
    vq.Stocked buffer len flags where
  numFree := by
    have hlength := length_freeIds vq
    rw [h.freeIds, Nat.sub_self] at hlength
    exact UInt16.toNat_inj.mp hlength.symm
  desc := h.desc
  partition := by
    rw [h.published, h.unpopped, List.append_nil, ids_toNat vq.size.toNat_lt.le]

end Full

end Virtqueue

end Aether.Drivers
