import Aether.Drivers.VirtioRing
import Mathlib.Data.List.Nodup
import Mathlib.Data.List.Range

/-!
# Where the descriptors are

`Virtqueue.Balanced vq held` says that every descriptor of the queue is in exactly one place: on
the free list, held by a driver call between taking and publishing it, with the device, or in the
used ring waiting to be popped. Each operation of the driver and of the device moves one
descriptor and keeps the balance.
-/

namespace Aether.Drivers

open Kernel IndexedLists

namespace Virtqueue

/-- The size is a power of two that virtio permits, and the four places partition the ids. -/
structure Balanced (vq : Virtqueue) (held : List UInt16) : Prop where
  size : ∃ k ≤ 15, vq.size.toNat = 2 ^ k
  partition : ((vq.freeIds ++ held ++ vq.published ++ vq.pendingIds).map UInt16.toNat).Perm
    (List.range vq.size.toNat)

section Facts

variable {vq : Virtqueue} {held : List UInt16}

/-- The size divides the number of values of the 16-bit ring indices. -/
theorem Balanced.size_dvd (h : vq.Balanced held) : vq.size.toNat ∣ 2 ^ 16 := by
  obtain ⟨k, hk, hsize⟩ := h.size
  exact hsize ▸ pow_dvd_pow 2 (by omega)

/-- The size is between 1 and 32768. -/
theorem Balanced.size_bounds (h : vq.Balanced held) :
    0 < vq.size.toNat ∧ vq.size.toNat ≤ 32768 := by
  obtain ⟨k, hk, hsize⟩ := h.size
  have hpow : 2 ^ k ≤ 2 ^ 15 := Nat.pow_le_pow_right (by omega) hk
  have hpos := Nat.two_pow_pos k
  omega

/-- No id is in two places. -/
theorem Balanced.nodup (h : vq.Balanced held) :
    (vq.freeIds ++ held ++ vq.published ++ vq.pendingIds).Nodup :=
  List.Nodup.of_map UInt16.toNat (h.partition.nodup_iff.mpr List.nodup_range)

/-- Every id in circulation names a descriptor. -/
theorem Balanced.lt_size (h : vq.Balanced held) {id : UInt16}
    (hid : id ∈ vq.freeIds ++ held ++ vq.published ++ vq.pendingIds) :
    id.toNat < vq.size.toNat :=
  List.mem_range.mp (h.partition.mem_iff.mp (List.mem_map_of_mem hid))

/-- The four places hold as many ids as the queue has descriptors. -/
theorem Balanced.length_eq (h : vq.Balanced held) :
    vq.freeIds.length + held.length + vq.published.length + vq.pendingIds.length =
      vq.size.toNat := by
  simpa [Nat.add_assoc] using h.partition.length_eq

theorem length_freeIds (vq : Virtqueue) : vq.freeIds.length = vq.numFree.toNat := by
  simp [freeIds]

/-- While a descriptor is free, not all of them are published. -/
theorem Balanced.length_published_lt (h : vq.Balanced held) (hne : vq.numFree ≠ 0) :
    vq.published.length < vq.size.toNat := by
  have hlength := h.length_eq
  have hfree : 0 < vq.freeIds.length := by
    rw [length_freeIds]
    exact UInt16.lt_iff_toNat_lt.mp (UInt16.pos_iff_ne_zero.mpr hne)
  omega

theorem length_pendingIds (vq : Virtqueue) :
    vq.pendingIds.length = (vq.usedIdx - vq.lastUsedIdx).toNat := by
  simp [pendingIds]

/-- A queue of the same size whose places hold the same ids in another arrangement is balanced. -/
theorem Balanced.rearrange {vq' : Virtqueue} {held' : List UInt16} (h : vq.Balanced held)
    (hsize : vq'.size = vq.size)
    (hperm : (vq'.freeIds ++ held' ++ vq'.published ++ vq'.pendingIds).Perm
      (vq.freeIds ++ held ++ vq.published ++ vq.pendingIds)) : vq'.Balanced held' :=
  ⟨hsize ▸ h.size, hsize ▸ (hperm.map UInt16.toNat).trans h.partition⟩

end Facts

/-! ## Initialisation -/

/-- The loop of `virtqueue_init` sets the links of the first `n` descriptors. -/
theorem linkDescriptors_next (n : Nat) (desc : Nat → VirtqDesc) {i : Nat} (hi : i < n) :
    (linkDescriptors n desc i).next = UInt16.ofNat (i + 1) := by
  induction n with
  | zero => omega
  | succ n ih =>
      rw [linkDescriptors, List.range_succ, List.foldl_append, List.foldl_cons, List.foldl_nil]
      by_cases hin : i = n
      · subst hin
        simp
      · rw [Function.update_of_ne hin]
        exact ih (by omega)

/-- After initialisation the free list visits the descriptors in order. -/
theorem freeIds_init (vq : Virtqueue) (size index : UInt16) (p : Nat) :
    (virtqueueInit vq size index p).freeIds = (List.range size.toNat).map UInt16.ofNat := by
  have hsize := size.toNat_lt
  have hfollow : ∀ a m, a + m = size.toNat →
      follow (fun id ↦ ((virtqueueInit vq size index p).desc id.toNat).next) (UInt16.ofNat a) m =
        (List.range' a m).map UInt16.ofNat := by
    intro a m
    induction m generalizing a with
    | zero => intro _; rfl
    | succ m ih =>
        intro ham
        have htoNat : (UInt16.ofNat a).toNat = a :=
          UInt16.toNat_ofNat_of_lt' (by rw [UInt16.size]; omega)
        rw [follow, List.range'_succ, List.map_cons, htoNat]
        cases m with
        | zero => rfl
        | succ m =>
            have hnext : ((virtqueueInit vq size index p).desc a).next = UInt16.ofNat (a + 1) := by
              simp only [virtqueueInit]
              rw [Function.update_of_ne (by omega), linkDescriptors_next _ _ (by omega)]
            rw [hnext, ih (a + 1) (by omega)]
  have h := hfollow 0 size.toNat (by omega)
  rwa [← List.range_eq_range'] at h

/-- Nothing is outstanding on a freshly initialised queue over zeroed ring memory. -/
theorem pendingIds_init (size index : UInt16) (p : Nat) :
    (virtqueueInit zeroed size index p).pendingIds = [] := by
  simp [pendingIds, virtqueueInit, zeroed, window]

/-- Numbers below the size of a queue are ids. -/
theorem ids_toNat {n : Nat} (hn : n ≤ 2 ^ 16) :
    ((List.range n).map UInt16.ofNat).map UInt16.toNat = List.range n := by
  rw [List.map_map]
  refine (List.map_congr_left fun i hi ↦ ?_).trans (List.map_id _)
  have := List.mem_range.mp hi
  exact UInt16.toNat_ofNat_of_lt' (by rw [UInt16.size]; omega)

/-- A freshly initialised queue over zeroed ring memory has every descriptor on the free list. -/
theorem balanced_init {k : Nat} (hk : k ≤ 15) (index : UInt16) (p : Nat) :
    (virtqueueInit zeroed (UInt16.ofNat (2 ^ k)) index p).Balanced [] := by
  have hpow : 2 ^ k ≤ 2 ^ 15 := Nat.pow_le_pow_right (by omega) hk
  have hsize : (UInt16.ofNat (2 ^ k)).toNat = 2 ^ k :=
    UInt16.toNat_ofNat_of_lt' (by rw [UInt16.size]; omega)
  refine ⟨⟨k, hk, hsize⟩, ?_⟩
  have hpending := pendingIds_init (UInt16.ofNat (2 ^ k)) index p
  have hpublished : (virtqueueInit zeroed (UInt16.ofNat (2 ^ k)) index p).published = [] := rfl
  rw [freeIds_init, hpending, hpublished, List.append_nil, List.append_nil, List.append_nil, hsize,
    ids_toNat (hpow.trans (by decide))]
  exact .of_eq (congrArg List.range hsize.symm)

/-! ## Taking a descriptor -/

/-- The queue after its first free descriptor was taken for a buffer. -/
def take (vq : Virtqueue) (addr : Nat) (len : UInt32) (flags : UInt16) : Virtqueue :=
  { vq with
    freeHead := (vq.desc vq.freeHead.toNat).next
    numFree := vq.numFree - 1
    desc := Function.update vq.desc vq.freeHead.toNat ⟨addr, len, flags, 0⟩ }

theorem add_eq {vq : Virtqueue} (hne : vq.numFree ≠ 0) (stats : NetStats) (addr : Nat)
    (len : UInt32) (flags : UInt16) : virtqueueAddDescriptor vq stats addr len flags =
      (vq.freeHead, vq.take addr len flags, { stats with bufferUsage := stats.bufferUsage + 1 }) :=
  if_neg hne

/-- What taking a descriptor leaves alone, a call that may find none leaves alone. -/
theorem part_add {α : Type} (part : Virtqueue → α)
    (htake : ∀ vq addr len flags, part (take vq addr len flags) = part vq) (vq : Virtqueue)
    (stats : NetStats) (addr : Nat) (len : UInt32) (flags : UInt16) :
    part (virtqueueAddDescriptor vq stats addr len flags).2.1 = part vq := by
  by_cases hfree : vq.numFree = 0
  · rw [virtqueueAddDescriptor, if_pos hfree]
  · rw [add_eq hfree]
    exact htake vq addr len flags

/-! ## Operations -/

section Operations

variable {vq : Virtqueue} {held : List UInt16}

/-- Taking a descriptor removes the head of the free list. -/
theorem freeIds_add {head : UInt16} {rest : List UInt16} (hfree : vq.freeIds = head :: rest)
    (hnodup : vq.freeIds.Nodup) (stats : NetStats) (addr : Nat) (len : UInt32) (flags : UInt16) :
    (virtqueueAddDescriptor vq stats addr len flags).1 = head ∧
      (virtqueueAddDescriptor vq stats addr len flags).2.1.freeIds = rest := by
  have hlen : vq.numFree.toNat = rest.length + 1 := by
    rw [← length_freeIds, hfree, List.length_cons]
  have hne : vq.numFree ≠ 0 := fun h ↦ by simp [h] at hlen
  have hpred : (vq.numFree - 1).toNat = rest.length := by
    have hlt := vq.numFree.toNat_lt
    rw [UInt16.toNat_sub, hlen]
    simp only [UInt16.reduceToNat]
    omega
  have hnotin : head ∉ rest := by
    rw [hfree] at hnodup
    exact (List.nodup_cons.mp hnodup).1
  rw [freeIds, hlen, follow] at hfree
  obtain ⟨hhead, hrest⟩ := List.cons.inj hfree
  simp only [virtqueueAddDescriptor, hne, ↓reduceIte]
  refine ⟨hhead, ?_⟩
  simp only [freeIds, hpred]
  refine (follow_congr fun j hj ↦ ?_).trans hrest
  rw [hrest] at hj
  have hj' : j.toNat ≠ vq.freeHead.toNat := fun h ↦
    hnotin (hhead ▸ UInt16.toNat_inj.mp h ▸ hj)
  rw [Function.update_of_ne hj']

/-- A queue with a free descriptor gives up the head of its free list. -/
theorem Balanced.freeIds_ne_nil (hne : vq.numFree ≠ 0) :
    ∃ head rest, vq.freeIds = head :: rest := by
  refine List.exists_cons_of_ne_nil fun hnil ↦ hne (UInt16.toNat_inj.mp ?_)
  simpa [hnil] using (length_freeIds vq).symm

/-- While a descriptor is free, `free_head` names one. -/
theorem freeHead_mem (hne : vq.numFree ≠ 0) : vq.freeHead ∈ vq.freeIds := by
  obtain ⟨n, hn⟩ : ∃ n, vq.numFree.toNat = n + 1 := by
    refine Nat.exists_eq_add_one.mpr (Nat.pos_of_ne_zero fun hzero ↦ hne ?_)
    exact UInt16.toNat_inj.mp hzero
  rw [freeIds, hn, follow]
  exact List.mem_cons_self

/-- `virtqueue_add_descriptor` moves the first free descriptor to the caller. -/
theorem Balanced.add (h : vq.Balanced held) (hne : vq.numFree ≠ 0) (stats : NetStats) (addr : Nat)
    (len : UInt32) (flags : UInt16) :
    (virtqueueAddDescriptor vq stats addr len flags).2.1.Balanced
      ((virtqueueAddDescriptor vq stats addr len flags).1 :: held) := by
  obtain ⟨head, rest, hfree⟩ := freeIds_ne_nil hne
  have hnodup : vq.freeIds.Nodup := by
    have := h.nodup
    rw [List.append_assoc, List.append_assoc] at this
    exact this.of_append_left
  obtain ⟨hhead, hrest⟩ := freeIds_add hfree hnodup stats addr len flags
  refine h.rearrange ?_ ?_
  · simp [virtqueueAddDescriptor, hne]
  · have hpublished :
        (virtqueueAddDescriptor vq stats addr len flags).2.1.published = vq.published := by
      simp [virtqueueAddDescriptor, hne]
    have hpending :
        (virtqueueAddDescriptor vq stats addr len flags).2.1.pendingIds = vq.pendingIds := by
      simp [virtqueueAddDescriptor, hne, pendingIds]
    rw [hhead, hrest, hpublished, hpending, hfree]
    simp only [List.append_assoc, List.cons_append]
    exact List.perm_middle

/-- `virtqueue_push_available` moves a held descriptor to the device. -/
theorem Balanced.push {head : UInt16} (h : vq.Balanced (head :: held)) :
    (virtqueuePushAvailable vq head).Balanced held := by
  have hlt : head < vq.size := h.lt_size (by simp)
  refine h.rearrange rfl ?_
  have hpublished : (virtqueuePushAvailable vq head).published = vq.published ++ [head] := by
    simp [virtqueuePushAvailable, hlt]
  have hfree : (virtqueuePushAvailable vq head).freeIds = vq.freeIds := rfl
  have hpending : (virtqueuePushAvailable vq head).pendingIds = vq.pendingIds := rfl
  rw [hfree, hpublished, hpending]
  simp only [List.append_assoc, List.cons_append, List.nil_append]
  refine .append_left _ (.trans (.append_left _ ?_) List.perm_middle)
  exact List.perm_middle

/-- A push of a value that names no descriptor publishes nothing. -/
theorem Balanced.push_ignored {head : UInt16} (h : vq.Balanced held) (hhead : ¬ head < vq.size) :
    (virtqueuePushAvailable vq head).Balanced held := by
  refine h.rearrange rfl (.of_eq ?_)
  have hpublished : (virtqueuePushAvailable vq head).published = vq.published := by
    simp [virtqueuePushAvailable, hhead]
  have hfree : (virtqueuePushAvailable vq head).freeIds = vq.freeIds := rfl
  have hpending : (virtqueuePushAvailable vq head).pendingIds = vq.pendingIds := rfl
  rw [hfree, hpublished, hpending]

/-- The slot the device writes next is the one after the window of pending completions. -/
theorem usedSlot_eq (hdvd : vq.size.toNat ∣ 2 ^ 16) :
    vq.usedIdx.toNat % vq.size.toNat =
      (vq.lastUsedIdx.toNat + (vq.usedIdx - vq.lastUsedIdx).toNat) % vq.size.toNat := by
  have hlast := vq.lastUsedIdx.toNat_lt
  have hused := vq.usedIdx.toNat_lt
  have hsum : (vq.lastUsedIdx.toNat + (vq.usedIdx - vq.lastUsedIdx).toNat) % 2 ^ 16 =
      vq.usedIdx.toNat := by
    rw [UInt16.toNat_sub]
    omega
  rw [← hsum, Nat.mod_mod_of_dvd _ hdvd]

/-- A completion by the device goes to the end of the pending ones. -/
theorem Balanced.pendingIds_complete (h : vq.Balanced held) {id : UInt16} (hid : id ∈ vq.published)
    (len : UInt32) : (deviceComplete vq id len).pendingIds = vq.pendingIds ++ [id] := by
  have hbounds := h.size_bounds
  have hroom : (vq.usedIdx - vq.lastUsedIdx).toNat < vq.size.toNat := by
    have hlen := h.length_eq
    have := List.length_pos_of_mem hid
    rw [← length_pendingIds]
    omega
  have hsucc : (vq.usedIdx + 1 - vq.lastUsedIdx).toNat =
      (vq.usedIdx - vq.lastUsedIdx).toNat + 1 := by
    rw [show vq.usedIdx + 1 - vq.lastUsedIdx = vq.usedIdx - vq.lastUsedIdx + 1 by grind,
      UInt16.toNat_add]
    exact Nat.mod_eq_of_lt (by simp only [UInt16.reduceToNat]; omega)
  simp only [pendingIds, deviceComplete, hsucc]
  rw [usedSlot_eq h.size_dvd, window_push _ _ hroom]
  simp

/-- A completion moves an outstanding descriptor from the device to the used ring. -/
theorem Balanced.outstanding_complete (h : vq.Balanced held) {id : UInt16}
    (hid : id ∈ vq.published) (len : UInt32) :
    ((deviceComplete vq id len).published ++ (deviceComplete vq id len).pendingIds).Perm
      (vq.published ++ vq.pendingIds) := by
  have hpublished : (deviceComplete vq id len).published = vq.published.erase id := rfl
  rw [hpublished, h.pendingIds_complete hid len, ← List.append_assoc]
  refine (List.perm_append_singleton id _).trans ?_
  exact ((List.perm_cons_erase hid).append_right _).symm

/-- `deviceComplete` moves a published descriptor to the used ring. -/
theorem Balanced.complete (h : vq.Balanced held) {id : UInt16} (hid : id ∈ vq.published)
    (len : UInt32) : (deviceComplete vq id len).Balanced held := by
  refine h.rearrange rfl ?_
  have hfree : (deviceComplete vq id len).freeIds = vq.freeIds := rfl
  rw [hfree, List.append_assoc _ vq.published, List.append_assoc _ (deviceComplete ..).published]
  exact (h.outstanding_complete hid len).append_left _

/-- `virtqueue_pop_used` finds nothing exactly when nothing is pending. -/
theorem popUsed_eq_none (stats : NetStats) :
    (virtqueuePopUsed vq stats).1 = none ↔ vq.pendingIds = [] := by
  have hlen := length_pendingIds vq
  by_cases heq : vq.lastUsedIdx = vq.usedIdx
  · have : vq.pendingIds = [] := List.eq_nil_of_length_eq_zero (by simp [hlen, heq])
    simp [virtqueuePopUsed, heq, this]
  · have : vq.pendingIds ≠ [] := fun hnil ↦ heq <| UInt16.toNat_inj.mp <| by
      have hlast := vq.lastUsedIdx.toNat_lt
      have hused := vq.usedIdx.toNat_lt
      rw [hnil, List.length_nil, UInt16.toNat_sub] at hlen
      omega
    simp [virtqueuePopUsed, heq, this]

/-- With nothing pending the driver's state stays as it is. -/
theorem popUsed_of_nil (stats : NetStats) (hnil : vq.pendingIds = []) :
    virtqueuePopUsed vq stats = (none, vq, stats) := by
  have hnone := (popUsed_eq_none stats).mpr hnil
  simp only [virtqueuePopUsed] at hnone ⊢
  split at hnone
  · simp_all
  · cases hnone

/-- The queue after its driver popped the completion of `id`. -/
def recycle (vq : Virtqueue) (id : UInt16) : Virtqueue :=
  { vq with
    lastUsedIdx := vq.lastUsedIdx + 1
    desc := Function.update vq.desc id.toNat { vq.desc id.toNat with next := vq.freeHead }
    freeHead := id
    numFree := vq.numFree + 1 }

/-- Recycling a descriptor changes no address and no length. -/
@[simp] theorem desc_recycle_addr (id : UInt16) (i : Nat) :
    ((vq.recycle id).desc i).addr = (vq.desc i).addr := by
  by_cases hi : i = id.toNat
  · simp [recycle, hi]
  · simp [recycle, Function.update_of_ne hi]

@[simp] theorem desc_recycle_len (id : UInt16) (i : Nat) :
    ((vq.recycle id).desc i).len = (vq.desc i).len := by
  by_cases hi : i = id.toNat
  · simp [recycle, hi]
  · simp [recycle, Function.update_of_ne hi]

/-- Recycling a descriptor leaves the others alone. -/
theorem desc_recycle_of_ne {id i : UInt16} (hne : i ≠ id) :
    (vq.recycle id).desc i.toNat = vq.desc i.toNat :=
  Function.update_of_ne (fun heq ↦ hne (UInt16.toNat_inj.mp heq)) _ _

/-- A descriptor that is not free goes to the head of the free list. -/
theorem Balanced.freeIds_recycle (h : vq.Balanced held) {id : UInt16}
    (hid : id ∈ vq.pendingIds) : (vq.recycle id).freeIds = id :: vq.freeIds := by
  have hnotin : id ∉ vq.freeIds := by
    have hnodup := h.nodup
    rw [List.append_assoc, List.append_assoc] at hnodup
    exact fun hmem ↦ List.disjoint_of_nodup_append hnodup hmem (by simp [hid])
  have hsucc : (vq.numFree + 1).toNat = vq.numFree.toNat + 1 := by
    have hbounds := h.size_bounds
    have hlen := h.length_eq
    have hpos := List.length_pos_of_mem hid
    rw [length_freeIds] at hlen
    rw [UInt16.toNat_add]
    exact Nat.mod_eq_of_lt (by simp only [UInt16.reduceToNat]; omega)
  simp only [freeIds, recycle, hsucc, follow, Function.update_self]
  refine congrArg _ (follow_congr fun j hj ↦ ?_)
  have hj' : j.toNat ≠ id.toNat := fun heq ↦ hnotin (UInt16.toNat_inj.mp heq ▸ hj)
  rw [Function.update_of_ne hj']

/-- With something pending, `virtqueue_pop_used` returns the oldest pending completion, takes it
off the pending ones and recycles its descriptor. -/
theorem Balanced.popUsed_of_cons (h : vq.Balanced held) (stats : NetStats) {id : UInt16}
    {rest : List UInt16} (hpending : vq.pendingIds = id :: rest) :
    (∃ len, virtqueuePopUsed vq stats =
      (some (id, len), vq.recycle id, popStats vq.queueIndex stats)) ∧
    (vq.recycle id).pendingIds = rest := by
  have hlen : (vq.usedIdx - vq.lastUsedIdx).toNat = rest.length + 1 := by
    rw [← length_pendingIds, hpending, List.length_cons]
  have hne : vq.lastUsedIdx ≠ vq.usedIdx := fun heq ↦ by simp [heq] at hlen
  have hpred : (vq.usedIdx - (vq.lastUsedIdx + 1)).toNat = rest.length := by
    have hlt := (vq.usedIdx - vq.lastUsedIdx).toNat_lt
    rw [show vq.usedIdx - (vq.lastUsedIdx + 1) = vq.usedIdx - vq.lastUsedIdx - 1 by grind,
      UInt16.toNat_sub, hlen]
    simp only [UInt16.reduceToNat]
    omega
  have hstart : (vq.lastUsedIdx + 1).toNat % vq.size.toNat =
      (vq.lastUsedIdx.toNat + 1) % vq.size.toNat := by
    rw [UInt16.toNat_add, Nat.mod_mod_of_dvd _ h.size_dvd]
    simp
  rw [pendingIds, hlen, window, List.map_cons] at hpending
  obtain ⟨hid, hrest⟩ := List.cons.inj hpending
  constructor
  · refine ⟨(vq.usedRing (vq.lastUsedIdx.toNat % vq.size.toNat)).len, ?_⟩
    simp only [virtqueuePopUsed, hne, ↓reduceIte, hid, recycle]
  · simp only [pendingIds, recycle, hpred]
    rw [window_mod _ hstart, hrest]

/-- Popping a completion moves its descriptor from the used ring to the free list. -/
theorem Balanced.recycle (h : vq.Balanced held) {id : UInt16} {rest : List UInt16}
    (hpending : vq.pendingIds = id :: rest) : (vq.recycle id).Balanced held := by
  refine h.rearrange rfl ?_
  have hpublished : (vq.recycle id).published = vq.published := rfl
  rw [h.freeIds_recycle (by simp [hpending]), (h.popUsed_of_cons {} hpending).2, hpublished,
    hpending]
  exact List.perm_middle.symm

/-! ## Submitting a buffer -/

/-- Taking and publishing a descriptor adds it to the published ones, with the buffer's address
and length, and changes no outstanding descriptor. -/
theorem Balanced.submit (h : vq.Balanced held) (hne : vq.numFree ≠ 0) (stats : NetStats)
    (addr : Nat) (len : UInt32) (flags : UInt16) :
    ∃ head added stats', virtqueueAddDescriptor vq stats addr len flags = (head, added, stats') ∧
      (virtqueuePushAvailable added head).Balanced held ∧
      (virtqueuePushAvailable added head).published = vq.published ++ [head] ∧
      (virtqueuePushAvailable added head).pendingIds = vq.pendingIds ∧
      (virtqueuePushAvailable added head).desc head.toNat = ⟨addr, len, flags, 0⟩ ∧
      ∀ id ∈ vq.published ++ vq.pendingIds,
        (virtqueuePushAvailable added head).desc id.toNat = vq.desc id.toNat := by
  have hbal := h.add hne stats addr len flags
  obtain ⟨head, rest, hfree⟩ := freeIds_ne_nil hne
  have hnodup := h.nodup
  rw [List.append_assoc, List.append_assoc] at hnodup
  obtain ⟨hhead, -⟩ := freeIds_add hfree hnodup.of_append_left stats addr len flags
  have hlt : head < vq.size := h.lt_size (by simp [hfree])
  simp only [virtqueueAddDescriptor, hne, ↓reduceIte] at hbal hhead
  refine ⟨_, _, _, by simp only [virtqueueAddDescriptor, hne, ↓reduceIte]; rfl, hbal.push, ?_, rfl,
    ?_, fun id hid ↦ ?_⟩
  · simp [virtqueuePushAvailable, hhead, hlt]
  · simp [virtqueuePushAvailable]
  · have hne' : id.toNat ≠ vq.freeHead.toNat := fun heq ↦ by
      refine List.disjoint_of_nodup_append hnodup (a := id) ?_ (by simp at hid ⊢; tauto)
      rw [UInt16.toNat_inj.mp heq, hhead, hfree]
      exact List.mem_cons_self
    simp [virtqueuePushAvailable, Function.update_of_ne hne']

/-- With no free descriptor a submission changes nothing but the available ring. -/
theorem Balanced.submit_full (h : vq.Balanced held) (hfull : vq.numFree = 0) (stats : NetStats)
    (addr : Nat) (len : UInt32) (flags : UInt16) :
    virtqueueAddDescriptor vq stats addr len flags = (0xFFFF, vq, stats) ∧
      (virtqueuePushAvailable vq 0xFFFF).Balanced held ∧
      (virtqueuePushAvailable vq 0xFFFF).published = vq.published := by
  have hbounds := h.size_bounds
  have hnot : ¬ (0xFFFF : UInt16) < vq.size := by
    rw [UInt16.lt_iff_toNat_lt]
    simp only [UInt16.reduceToNat]
    omega
  exact ⟨by simp [virtqueueAddDescriptor, hfull], h.push_ignored hnot,
    by simp [virtqueuePushAvailable, hnot]⟩

end Operations

end Virtqueue

end Aether.Drivers
