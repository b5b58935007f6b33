import Aether.Drivers.VirtioRingInvariant

/-!
# The device's side of the available ring

A device does not see what the driver calls, it reads the available ring. `AvailReader` is what it
keeps for that: its own index, and the ids that it took from the ring and has not completed.
`AvailReader.Tied` says that these and the entries it has yet to read are the heads that the driver
handed over, so that a device which goes by the ring completes what was published.
-/

namespace Aether.Drivers

open IndexedLists

/-- The entries of the available ring that a device has yet to read whose index is `last`, oldest
first. -/
def Virtqueue.unfetched (vq : Virtqueue) (last : UInt16) : List UInt16 :=
  (slots vq.size.toNat last vq.availIdx).map vq.availRing

/-- From `vq` to `vq'` nothing has changed of what the two sides tell each other. -/
structure Virtqueue.SameRings (vq vq' : Virtqueue) : Prop where
  size : vq'.size = vq.size
  availIdx : vq'.availIdx = vq.availIdx
  availRing : vq'.availRing = vq.availRing
  usedIdx : vq'.usedIdx = vq.usedIdx
  published : vq'.published = vq.published

/-- What a device keeps of the available ring: the index of the entry that it reads next, and the
ids that it took from the ring and has not completed. -/
structure AvailReader where
  lastAvailIdx : UInt16 := 0
  fetched : List UInt16 := []

namespace AvailReader

/-- The entry that the device reads next. -/
def next (d : AvailReader) (vq : Virtqueue) : UInt16 :=
  vq.availRing (d.lastAvailIdx.toNat % vq.size.toNat)

/-- The device takes an id from the ring. -/
def fetch (d : AvailReader) (vq : Virtqueue) : AvailReader :=
  ⟨d.lastAvailIdx + 1, d.fetched ++ [d.next vq]⟩

/-- The device is done with an id that it took. -/
def finish (d : AvailReader) (id : UInt16) : AvailReader :=
  { d with fetched := d.fetched.erase id }

/-- The ids that are with the device: those it took, and those it has yet to read. -/
def outstanding (d : AvailReader) (vq : Virtqueue) : List UInt16 :=
  d.fetched ++ vq.unfetched d.lastAvailIdx

/-- They are the heads that the driver handed over and the device has not completed. -/
def Tied (d : AvailReader) (vq : Virtqueue) : Prop := vq.published.Perm (d.outstanding vq)

section Ring

variable {d : AvailReader} {vq : Virtqueue}

theorem length_unfetched (vq : Virtqueue) (last : UInt16) :
    (vq.unfetched last).length = (vq.availIdx - last).toNat := by
  simp [Virtqueue.unfetched]

/-- The device reads the oldest entry. -/
theorem unfetched_of_ne (hne : d.lastAvailIdx ≠ vq.availIdx) :
    vq.unfetched d.lastAvailIdx = d.next vq :: vq.unfetched (d.lastAvailIdx + 1) := by
  rw [Virtqueue.unfetched, slots_of_ne hne, List.map_cons]
  rfl

/-- Reading the ring keeps the ids with the device. -/
theorem outstanding_fetch (hne : d.lastAvailIdx ≠ vq.availIdx) :
    (d.fetch vq).outstanding vq = d.outstanding vq := by
  rw [outstanding, outstanding, unfetched_of_ne hne]
  exact List.append_assoc _ [d.next vq] _

/-- An entry is written behind the others, if the size divides the number of ring indices and the
ring has room. -/
theorem unfetched_push (hdvd : vq.size.toNat ∣ 2 ^ 16) {last : UInt16}
    (hroom : (vq.unfetched last).length < vq.size.toNat) (head : UInt16) :
    (virtqueuePushAvailable vq head).unfetched last = vq.unfetched last ++ [head] := by
  rw [length_unfetched] at hroom
  have hsize := vq.size.toNat_lt
  have hslots : slots vq.size.toNat last (vq.availIdx + 1) =
      slots vq.size.toNat last vq.availIdx ++ [vq.availIdx.toNat % vq.size.toNat] :=
    slots_succ (by omega)
  show (slots vq.size.toNat last (vq.availIdx + 1)).map (Function.update vq.availRing _ head) = _
  rw [hslots, List.map_append, List.map_cons, List.map_nil, Function.update_self]
  congr 1
  refine List.map_congr_left fun slot hslot ↦ Function.update_of_ne (fun heq ↦ ?_) _ _
  exact slot_notMem_slots hdvd hroom (heq ▸ hslot)

theorem outstanding_push (hdvd : vq.size.toNat ∣ 2 ^ 16)
    (hroom : (d.outstanding vq).length < vq.size.toNat) (head : UInt16) :
    d.outstanding (virtqueuePushAvailable vq head) = d.outstanding vq ++ [head] := by
  rw [outstanding, List.length_append] at hroom
  rw [outstanding, outstanding, unfetched_push hdvd (by omega), List.append_assoc]

/-- What is with the device depends on the available ring alone. -/
theorem outstanding_congr {vq' : Virtqueue} (hsize : vq'.size = vq.size)
    (hidx : vq'.availIdx = vq.availIdx) (hring : vq'.availRing = vq.availRing) :
    d.outstanding vq' = d.outstanding vq := by
  rw [outstanding, outstanding, Virtqueue.unfetched, Virtqueue.unfetched, hsize, hidx, hring]

/-- On a fresh queue nothing is with the device. -/
theorem tied_init (size index : UInt16) (p : Nat) :
    Tied {} (virtqueueInit .zeroed size index p) := by
  have hnone : (virtqueueInit .zeroed size index p).unfetched 0 = [] := by
    show (slots size.toNat 0 0).map _ = []
    rw [slots_self, List.map_nil]
  exact .of_eq hnone.symm

/-- What a device took was published. -/
theorem Tied.mem (h : d.Tied vq) {id : UInt16} (hid : id ∈ d.fetched) : id ∈ vq.published :=
  h.mem_iff.mpr (List.mem_append_left _ hid)

/-- The device knows what it knew while the rings stay the same. -/
theorem Tied.congr {vq' : Virtqueue} (h : d.Tied vq) (hsame : vq.SameRings vq') : d.Tied vq' := by
  unfold Tied
  rw [hsame.published, outstanding_congr hsame.size hsame.availIdx hsame.availRing]
  exact h

theorem Tied.fetch (h : d.Tied vq) (hne : d.lastAvailIdx ≠ vq.availIdx) : (d.fetch vq).Tied vq := by
  unfold Tied
  rw [outstanding_fetch hne]
  exact h

/-- A completed id is with the device no longer. -/
theorem outstanding_finish {id : UInt16} (hid : id ∈ d.fetched) (len : UInt32) :
    (d.finish id).outstanding (deviceComplete vq id len) = (d.outstanding vq).erase id :=
  (List.erase_append_left _ hid).symm

theorem Tied.complete (h : d.Tied vq) {id : UInt16} (hid : id ∈ d.fetched) (len : UInt32) :
    (d.finish id).Tied (deviceComplete vq id len) := by
  unfold Tied
  rw [outstanding_finish hid]
  exact h.erase id

/-- Publishing a descriptor hands it to the device. -/
theorem Tied.push (h : d.Tied vq) (hdvd : vq.size.toNat ∣ 2 ^ 16)
    (hroom : vq.published.length < vq.size.toNat) {head : UInt16} (hhead : head < vq.size) :
    d.Tied (virtqueuePushAvailable vq head) := by
  have hpublished : (virtqueuePushAvailable vq head).published = vq.published ++ [head] :=
    if_pos hhead
  unfold Tied
  rw [hpublished, outstanding_push hdvd (h.length_eq ▸ hroom)]
  exact h.append_right _

end Ring

end AvailReader

end Aether.Drivers
