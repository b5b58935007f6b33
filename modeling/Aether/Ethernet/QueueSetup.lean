import Aether.Drivers.QueueLayout
import Aether.Ethernet.ReceiveRuns

/-!
# Queue set-up for any queue size

`virtio_net_setup_queues` takes the queue sizes from the device and rejects only zero. Of the powers
of two, the rings fit their memory up to 512 descriptors, and the receive buffers suffice for 256.
-/

namespace Aether.Ethernet

open ByteMemory Kernel Drivers Common Program

/-- A queue size was rejected: its queue is still as it was before any call. -/
def Node.RejectedQueue (σ : Node) : Prop := σ.rxQueue.size = 0 ∨ σ.txQueue.size = 0

/-- Every descriptor that was handed to the device describes `RX_BUF_SIZE` bytes in `rx_buffers`. -/
def Node.BuffersInside (σ : Node) : Prop :=
  ∀ id ∈ σ.rxQueue.published, (σ.rxQueue.desc id.toNat).len = UInt32.ofNat rxBufSize ∧
    (σ.rxQueue.desc id.toNat).addr + rxBufSize ≤ rxQueueSize * rxBufSize

/-- Both queues fit the memory that they were given. -/
structure Node.QueuesFit (rxRingMem txRingMem : Nat) (σ : Node) : Prop where
  rx : σ.rxQueue.Placed rxRingMem
  tx : σ.txQueue.Placed txRingMem
  buffers : σ.BuffersInside

/-- The rings of the RX queue are where they were. -/
def Node.SameRings (σ σ' : Node) : Prop := σ'.rxQueue.regions = σ.rxQueue.regions

/-- Adding and publishing descriptors does not move them. -/
theorem sameRings_prefillLoop (i count : Nat) : Keeps Node.SameRings (prefillLoop i count) :=
  keeps_prefillLoop Virtqueue.regions (fun _ _ _ _ ↦ rfl) (fun _ _ ↦ rfl) i count

/-- The RX buffers suffice for 256 descriptors. -/
theorem buffersInside_iff {σ : Node} (h : σ.rxQueue.Filling rxBuffer (UInt32.ofNat rxBufSize)
    virtqDescFWrite σ.rxQueue.size.toNat) :
    σ.BuffersInside ↔ σ.rxQueue.size.toNat ≤ rxQueueSize := by
  have hsize := σ.rxQueue.size.toNat_lt
  have hdesc : ∀ i < σ.rxQueue.size.toNat, UInt16.ofNat i ∈ σ.rxQueue.published ∧
      (UInt16.ofNat i).toNat = i := by
    intro i hi
    refine ⟨?_, UInt16.toNat_ofNat_of_lt' (by rw [UInt16.size]; omega)⟩
    rw [h.published]
    exact List.mem_map_of_mem (List.mem_range.mpr hi)
  constructor
  · intro hinside
    by_contra hlarge
    obtain ⟨hmem, hid⟩ := hdesc rxQueueSize (by omega)
    have hbuffer := (hinside _ hmem).2
    rw [hid, (h.desc rxQueueSize (by omega)).1, rxBuffer] at hbuffer
    exact absurd hbuffer (by decide)
  · intro hsmall id hid
    rw [h.published] at hid
    obtain ⟨i, hi, rfl⟩ := List.mem_map.mp hid
    have hi := List.mem_range.mp hi
    obtain ⟨haddr, hlen, -⟩ := h.desc i hi
    rw [(hdesc i hi).2, haddr, hlen, rxBuffer, ← Nat.succ_mul]
    exact ⟨rfl, Nat.mul_le_mul_right rxBufSize (by omega)⟩

/-- The set-up rejects no size but zero, and the queues fit if their rings do and there are enough
receive buffers. -/
theorem virtioNetSetupQueues_fits {σ : Node} {rxSize txSize : UInt16} (hrx : rxSize ≠ 0)
    (htx : txSize ≠ 0) {rxRingMem txRingMem : Nat} (hrxMem : pageSize ∣ rxRingMem)
    (htxMem : pageSize ∣ txRingMem) (hfresh : σ.rxQueue = .zeroed) :
    wp (virtioNetSetupQueues rxSize txSize rxRingMem txRingMem) (fun _ σ' ↦ ¬ σ'.RejectedQueue ∧
      (σ'.QueuesFit rxRingMem txRingMem ↔
        (Virtqueue.usedOffset rxSize.toNat + (4 + 8 * rxSize.toNat) ≤ ringMemSize ∧
          rxSize.toNat ≤ rxQueueSize) ∧
        Virtqueue.usedOffset txSize.toNat + (4 + 8 * txSize.toNat) ≤ ringMemSize)) σ := by
  generalize hready : { σ with
    rxQueue := virtqueueInit σ.rxQueue rxSize 0 rxRingMem
    globalVnetDev :=
      σ.globalVnetDev.map fun dev : VirtioPciDevice ↦ { dev with rxVq := true } } = σ₁
  have hqueue : σ₁.rxQueue = virtqueueInit .zeroed rxSize 0 rxRingMem := by rw [← hready, ← hfresh]
  have hfilling : σ₁.rxQueue.Filling rxBuffer (UInt32.ofNat rxBufSize) virtqDescFWrite 0 := by
    rw [hqueue]
    exact Virtqueue.filling_init ..
  have hsize₁ : σ₁.rxQueue.size = rxSize := by
    rw [hqueue]
    rfl
  have hcount : 0 + rxSize.toNat = σ₁.rxQueue.size.toNat := by rw [hsize₁, Nat.zero_add]
  obtain ⟨rxQueue, hfull, hsize, hrun⟩ := prefillLoop_fills hfilling hcount
  have hregions : rxQueue.regions = σ₁.rxQueue.regions :=
    sameRings_prefillLoop 0 rxSize.toNat _ _ _ hrun
  -- filling the ring does not move it
  have hplaced : rxQueue.Placed rxRingMem ↔
      Virtqueue.usedOffset rxSize.toNat + (4 + 8 * rxSize.toNat) ≤ ringMemSize := by
    have hinit : (virtqueueInit .zeroed rxSize 0 rxRingMem).Placed rxRingMem ↔ _ :=
      Virtqueue.placed_init hrxMem
    rw [← hinit, ← hqueue]
    exact ⟨fun h ↦ h.of_regions hregions.symm, fun h ↦ h.of_regions hregions⟩
  rw [virtioNetSetupQueues, if_neg hrx, wp_bind, wp_modify, hready, wp_bind, wp_of_run hrun,
    if_neg htx, wp_modify]
  constructor
  · intro hrejected
    rcases hrejected with hzero | hzero
    · exact hrx (hsize₁.symm.trans (hsize.symm.trans hzero))
    · exact htx hzero
  · have hbuffers := buffersInside_iff (σ := { σ₁ with
      rxQueue := rxQueue
      netStats := { σ₁.netStats with
        bufferUsage := σ₁.netStats.bufferUsage + UInt64.ofNat rxSize.toNat }
      txQueue := virtqueueInit σ₁.txQueue txSize 1 txRingMem
      globalVnetDev := σ₁.globalVnetDev.map fun dev : VirtioPciDevice ↦
        { dev with txVq := true } }) hfull
    rw [show rxQueue.size.toNat = rxSize.toNat by rw [hsize, hsize₁]] at hbuffers
    constructor
    · intro hfit
      exact ⟨⟨hplaced.mp hfit.rx, hbuffers.mp hfit.buffers⟩,
        (Virtqueue.placed_init htxMem).mp hfit.tx⟩
    · intro hfit
      exact ⟨hplaced.mpr hfit.1.1, (Virtqueue.placed_init htxMem).mpr hfit.2,
        hbuffers.mpr hfit.1.2⟩

/-- For every pair of queue sizes that are powers of two up to 32768, the set-up returns; it rejects
a size or leaves both queues in the memory that they were given if and only if there are at most 256
RX and 512 TX descriptors. -/
theorem queue_setup_fits (σ : Node) (rxLog txLog rxRingMem txRingMem : Nat) (hrx : rxLog ≤ 15)
    (htx : txLog ≤ 15) (hrxMem : pageSize ∣ rxRingMem) (htxMem : pageSize ∣ txRingMem)
    (hfresh : σ.rxQueue = .zeroed) :
    wp (virtioNetSetupQueues (UInt16.ofNat (2 ^ rxLog)) (UInt16.ofNat (2 ^ txLog)) rxRingMem
      txRingMem) (fun _ σ' ↦ σ'.RejectedQueue ∨ σ'.QueuesFit rxRingMem txRingMem ↔
        2 ^ rxLog ≤ 256 ∧ 2 ^ txLog ≤ 512) σ := by
  refine wp_mono (virtioNetSetupQueues_fits (powSize_ne_zero hrx) (powSize_ne_zero htx) hrxMem
    htxMem hfresh) ?_
  intro _ σ' hσ'
  obtain ⟨haccepted, hfit⟩ := hσ'
  rw [or_iff_right haccepted, hfit, toNat_powSize hrx, toNat_powSize htx,
    Virtqueue.usedOffset_pow_le, Virtqueue.usedOffset_pow_le, show rxQueueSize = 256 from rfl]
  refine and_congr_left fun _ ↦ and_iff_right_of_imp fun hsmall ↦ ?_
  exact hsmall.trans (by decide)

/-- A node at 10.0.2.15 over zeroed RAM before any driver ran. -/
def Node.sampleBoot : Node := .boot (fun _ ↦ 0) (fun _ ↦ 0) gatewayMac 0x0A00020F 7000

/-- The queues of 256 descriptors that the arrays are meant for fit them. -/
theorem queue_setup_fits_default : wp (virtioNetSetupQueues (UInt16.ofNat (2 ^ 8))
    (UInt16.ofNat (2 ^ 8)) 0x40100000 0x40104000) (fun _ σ' ↦
      σ'.RejectedQueue ∨ σ'.QueuesFit 0x40100000 0x40104000) .sampleBoot := by
  refine wp_mono (queue_setup_fits .sampleBoot 8 8 0x40100000 0x40104000 (by decide) (by decide)
    (by decide) (by decide) rfl) ?_
  intro _ σ' hfit
  exact hfit.mpr ⟨by decide, by decide⟩

/-- A device that offers 512 RX descriptors gets all of them accepted, half of them without a
receive buffer. -/
theorem queue_setup_overruns : ∃ σ', (virtioNetSetupQueues (UInt16.ofNat (2 ^ 9))
      (UInt16.ofNat (2 ^ 8)) 0x40100000 0x40104000).run .sampleBoot = some ((), σ') ∧
    ¬ (σ'.RejectedQueue ∨ σ'.QueuesFit 0x40100000 0x40104000) := by
  have hsetup : wp (virtioNetSetupQueues (UInt16.ofNat (2 ^ 9)) (UInt16.ofNat (2 ^ 8)) 0x40100000
      0x40104000) _ .sampleBoot :=
    virtioNetSetupQueues_fits (by decide) (by decide) (by decide) (by decide) rfl
  obtain ⟨_, σ', hrun, haccepted, hfit⟩ := hsetup
  refine ⟨σ', hrun, fun hclaim ↦ ?_⟩
  have hbuffers := (hfit.mp (hclaim.resolve_left haccepted)).1.2
  exact absurd hbuffers (by decide)

end Aether.Ethernet
