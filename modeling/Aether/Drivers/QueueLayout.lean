import Aether.Drivers.VirtioRing
import Aether.Kernel.Mmu
import Aether.Kernel.Ownership

/-!
# The memory of a virtqueue

Where `virtqueue_init` puts the descriptor table and the two rings in the memory it is given, for
which sizes they fit `rx_ring_mem` and `tx_ring_mem`, and which of them each operation accesses.
-/

namespace Aether.Drivers

open Kernel

/-- The size of `rx_ring_mem` and of `tx_ring_mem`. -/
def ringMemSize : Nat := pageSize * 4

namespace Virtqueue

/-- The memory of the descriptor table, the available ring and the used ring. -/
def regions (vq : Virtqueue) : List Region :=
  [⟨vq.descAddr, 16 * vq.size.toNat⟩, ⟨vq.availAddr, 6 + 2 * vq.size.toNat⟩,
    ⟨vq.usedAddr, 4 + 8 * vq.size.toNat⟩]

/-- The rings are apart, aligned, and inside the ring memory at `ringMem`. -/
structure Placed (ringMem : Nat) (vq : Virtqueue) : Prop where
  apart : vq.regions.Pairwise fun r s ↦ r.ptr + r.cap ≤ s.ptr ∨ s.ptr + s.cap ≤ r.ptr
  desc : 16 ∣ vq.descAddr
  avail : 2 ∣ vq.availAddr
  used : 4 ∣ vq.usedAddr
  inside : ∀ r ∈ vq.regions, ringMem ≤ r.ptr ∧ r.ptr + r.cap ≤ ringMem + ringMemSize

/-- Only the places and lengths of the rings matter. -/
theorem Placed.of_regions {vq vq' : Virtqueue} {ringMem : Nat} (h : vq.Placed ringMem)
    (hregions : vq'.regions = vq.regions) : vq'.Placed ringMem := by
  have hrings := hregions
  simp only [regions, List.cons.injEq, Region.mk.injEq, and_true] at hrings
  obtain ⟨⟨hdesc, -⟩, ⟨havail, -⟩, hused, -⟩ := hrings
  exact ⟨hregions ▸ h.apart, hdesc ▸ h.desc, havail ▸ h.avail, hused ▸ h.used, hregions ▸ h.inside⟩

/-- Where the used ring of `n` descriptors starts, from the start of the ring memory. -/
def usedOffset (n : Nat) : Nat := (16 * n + 2 + 2 + 2 * n + 2 + 3) / 4 * 4

variable {vq : Virtqueue} {size index : UInt16} {p : Nat}

/-- The available ring ends before the used ring starts, at the next multiple of four. -/
theorem usedOffset_bounds (n : Nat) :
    16 * n + (6 + 2 * n) ≤ usedOffset n ∧ usedOffset n < 16 * n + (6 + 2 * n) + 4 := by
  unfold usedOffset
  omega

/-- In memory that is aligned to pages the rings lie one behind the other. -/
theorem regions_init (hp : 4096 ∣ p) : (virtqueueInit vq size index p).regions =
    [⟨p, 16 * size.toNat⟩, ⟨p + 16 * size.toNat, 6 + 2 * size.toNat⟩,
      ⟨p + usedOffset size.toNat, 4 + 8 * size.toNat⟩] := by
  obtain ⟨page, rfl⟩ := hp
  have hused : (4096 * page + 16 * size.toNat + 2 + 2 + 2 * size.toNat + 2 + 3) / 4 * 4 =
      4096 * page + usedOffset size.toNat := by
    unfold usedOffset
    omega
  show [_, _,
    Region.mk ((4096 * page + 16 * size.toNat + 2 + 2 + 2 * size.toNat + 2 + 3) / 4 * 4) _] = _
  rw [hused]
  rfl

/-- They are always apart and aligned, and inside the ring memory if the used ring ends there. -/
theorem placed_init (hp : 4096 ∣ p) : (virtqueueInit vq size index p).Placed p ↔
    usedOffset size.toNat + (4 + 8 * size.toNat) ≤ ringMemSize := by
  obtain ⟨hlow, hhigh⟩ := usedOffset_bounds size.toNat
  have hregions : (virtqueueInit vq size index p).regions = _ := regions_init hp
  constructor
  · intro h
    have hused : (⟨p + usedOffset size.toNat, 4 + 8 * size.toNat⟩ : Region) ∈
        (virtqueueInit vq size index p).regions := by
      rw [hregions]
      simp
    have hinside := (h.inside _ hused).2
    dsimp only at hinside
    omega
  · intro hfits
    constructor
    · rw [hregions]
      simp only [List.pairwise_cons, List.mem_cons, List.not_mem_nil, or_false, forall_eq_or_imp,
        forall_eq, false_imp_iff, implies_true, List.Pairwise.nil, and_true]
      omega
    · exact (show 16 ∣ 4096 by decide).trans hp
    · have htable : 2 ∣ 16 * size.toNat := Nat.dvd_mul_right_of_dvd (by decide) _
      exact Nat.dvd_add ((show 2 ∣ 4096 by decide).trans hp) htable
    · exact Nat.dvd_mul_left 4 _
    · rw [hregions]
      intro r hr
      simp only [List.mem_cons, List.not_mem_nil, or_false] at hr
      rcases hr with rfl | rfl | rfl <;> dsimp only <;> omega

/-- Among the powers of two, the rings of up to 512 descriptors fit. -/
theorem usedOffset_pow_le (k : Nat) :
    usedOffset (2 ^ k) + (4 + 8 * 2 ^ k) ≤ ringMemSize ↔ 2 ^ k ≤ 512 := by
  obtain ⟨hlow, hhigh⟩ := usedOffset_bounds (2 ^ k)
  rw [show ringMemSize = 16384 from rfl]
  constructor
  · intro hfits
    by_contra hlarge
    have hk : 10 ≤ k := by
      by_contra hsmall
      have : 2 ^ k ≤ 2 ^ 9 := Nat.pow_le_pow_right (by decide) (by omega)
      omega
    have : 2 ^ 10 ≤ 2 ^ k := Nat.pow_le_pow_right (by decide) hk
    omega
  · intro hsmall
    omega

/-! ## Accesses -/

/-- `virtqueue_pop_used` reads the used ring, and with a completion the descriptor table. A queue is
static, so until `virtqueue_init` sets its pointers they are `NULL`. -/
def PopsSafely (vq : Virtqueue) : Prop :=
  vq.usedAddr ≠ 0 ∧ (vq.lastUsedIdx ≠ vq.usedIdx → vq.size ≠ 0 ∧ vq.descAddr ≠ 0)

/-- `virtqueue_add_descriptor` writes to the descriptor table when a descriptor is free. -/
def AddsSafely (vq : Virtqueue) : Prop := vq.numFree ≠ 0 → vq.descAddr ≠ 0

/-- `virtqueue_push_available` writes to the available ring. -/
def PushesSafely (vq : Virtqueue) : Prop := vq.availAddr ≠ 0 ∧ vq.size ≠ 0

instance (vq : Virtqueue) : Decidable vq.PopsSafely := inferInstanceAs (Decidable (_ ∧ _))

instance (vq : Virtqueue) : Decidable vq.AddsSafely := inferInstanceAs (Decidable (_ → _))

instance (vq : Virtqueue) : Decidable vq.PushesSafely := inferInstanceAs (Decidable (_ ∧ _))

/-- `virtqueue_init` set the queue up. -/
structure RingsSet (vq : Virtqueue) : Prop where
  size : vq.size ≠ 0
  desc : vq.descAddr ≠ 0
  avail : vq.availAddr ≠ 0
  used : vq.usedAddr ≠ 0

theorem RingsSet.popsSafely (h : vq.RingsSet) : vq.PopsSafely := ⟨h.used, fun _ ↦ ⟨h.size, h.desc⟩⟩

theorem RingsSet.addsSafely (h : vq.RingsSet) : vq.AddsSafely := fun _ ↦ h.desc

theorem RingsSet.pushesSafely (h : vq.RingsSet) : vq.PushesSafely := ⟨h.avail, h.size⟩

/-- No operation moves the rings. -/
theorem RingsSet.of_regions {vq vq' : Virtqueue} (h : vq.RingsSet)
    (hregions : vq'.regions = vq.regions) : vq'.RingsSet := by
  simp only [regions, List.cons.injEq, Region.mk.injEq, and_true] at hregions
  obtain ⟨⟨hdesc, hlen⟩, ⟨havail, -⟩, hused, -⟩ := hregions
  have hsize : vq'.size = vq.size :=
    UInt16.toNat_inj.mp (Nat.eq_of_mul_eq_mul_left (by decide) hlen)
  exact ⟨hsize ▸ h.size, hdesc ▸ h.desc, havail ▸ h.avail, hused ▸ h.used⟩

/-- A queue with descriptors and ring memory is set up. -/
theorem ringsSet_init (hsize : size ≠ 0) (hp : p ≠ 0) :
    (virtqueueInit vq size index p).RingsSet := by
  refine ⟨hsize, hp, ?_, ?_⟩
  · show p + 16 * size.toNat ≠ 0
    omega
  · show (p + 16 * size.toNat + 2 + 2 + 2 * size.toNat + 2 + 3) / 4 * 4 ≠ 0
    omega

end Virtqueue

end Aether.Drivers
