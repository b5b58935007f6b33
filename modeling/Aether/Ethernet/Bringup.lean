import Aether.Drivers.Negotiation
import Aether.Drivers.QueueLayout
import Aether.Drivers.VirtioPci
import Aether.Ethernet.ReceiveRuns

/-!
# Bringing up the device

`virtio_pci_init` and `virtio_net_init` on any device. The device is a sequence of values, one for
each read of its registers in the order of the reads. `Starts.leaves` says which rings each of the
exits leaves set up.
-/

namespace Aether.Ethernet

open ByteMemory Kernel Drivers Common Program

/-- What a boot depends on: the contents of RAM and of the receive buffers, the node's addresses,
the configuration space and the page tables, what the device's registers return, the turns that each
loop is allowed, and where the rings are. -/
structure Probe where
  ram : Memory
  rx : Memory
  mac : Mac
  ip : UInt32
  isn : UInt32
  cfg : ConfigSpace
  mmu : Mmu
  values : Nat → UInt32
  turns : Nat
  rxRingMem : Nat
  rxRingMem_ne_zero : rxRingMem ≠ 0
  txRingMem : Nat
  txRingMem_ne_zero : txRingMem ≠ 0

/-- `VIRTIO_STATUS_FEATURES_OK`. -/
def virtioStatusFeaturesOk : UInt32 := 8

/-- The loop of `virtio_net_init` that waits for the reset: the number of the read after it, `none`
when it outlasts its turns. -/
def resetLoop (values : Nat → UInt32) : Nat → Nat → Option Nat
  | 0, _ => none
  | turns + 1, i => if values i ≠ 0 then resetLoop values turns (i + 1) else some (i + 1)

/-- `virtio_net_init`. The device status is read after the two feature words, `queue_size` after the
two words with the MAC address, and for the TX queue after `queue_notify_off`. -/
def Probe.virtioNetInit (c : Probe) : Action Unit :=
  match resetLoop c.values c.turns 0 with
  | none => fault
  | some i =>
      if c.values (i + 2) &&& virtioStatusFeaturesOk = 0 then pure ()
      else virtioNetSetupQueues (c.values (i + 5)).toUInt16 (c.values (i + 7)).toUInt16 c.rxRingMem
        c.txRingMem

/-- `virtio_pci_init`. The device is published before it is initialised. -/
def Probe.virtioPciInit (c : Probe) : Action Unit := do
  let vdev ← callKmalloc sizeofVirtioPciDevice
  if vdev = 0 then pure ()
  else
    match virtioPciCapLookup c.cfg c.turns ⟨0, 0, 0, 0, 0⟩ c.mmu with
    | none => fault
    | some (banks, _) =>
        if banks.common ≠ 0 ∧ banks.device ≠ 0 then
          -- the queue pointers are whatever was in the block, which is not cleared
          modify fun σ ↦ { σ with
            globalVnetDev := some
              ⟨vdev, load 8 σ.heap.mem (vdev + 56) ≠ 0, load 8 σ.heap.mem (vdev + 64) ≠ 0⟩ }
          c.virtioNetInit
        else pure ()

/-- The node before any driver ran. -/
def Probe.boot (c : Probe) : Node := .boot c.ram c.rx c.mac c.ip c.isn

/-- The node after `virtio_pci_init`. -/
def Probe.Starts (c : Probe) (σ : Node) : Prop := c.virtioPciInit.run c.boot = some ((), σ)

/-- The capabilities lead to the two banks that the driver needs. -/
def Probe.BanksFound (c : Probe) : Prop :=
  (virtioPciCapLookup c.cfg c.turns ⟨0, 0, 0, 0, 0⟩ c.mmu).any fun (banks, _) ↦
    banks.common ≠ 0 ∧ banks.device ≠ 0

/-- The device accepts the features and has descriptors for both queues. -/
def Probe.Accepted (c : Probe) : Prop :=
  (resetLoop c.values c.turns 0).any fun i ↦
    c.values (i + 2) &&& virtioStatusFeaturesOk ≠ 0 ∧ (c.values (i + 5)).toUInt16 ≠ 0 ∧
      (c.values (i + 7)).toUInt16 ≠ 0

instance (c : Probe) : Decidable c.BanksFound := inferInstanceAs (Decidable (_ = true))

instance (c : Probe) : Decidable c.Accepted := inferInstanceAs (Decidable (_ = true))

/-! ## The exits -/

/-- The set-up of the queues leaves both rings set, or one of them `NULL` when it rejects a size. -/
theorem virtioNetSetupQueues_leaves {σ σ' : Node} {rxSize txSize : UInt16}
    {rxRingMem txRingMem : Nat} (hrxMem : rxRingMem ≠ 0) (htxMem : txRingMem ≠ 0)
    (hrx : σ.rxQueue.usedAddr = 0) (htx : σ.txQueue.usedAddr = 0)
    (hrun : (virtioNetSetupQueues rxSize txSize rxRingMem txRingMem).run σ = some ((), σ')) :
    σ'.globalVnetDev.isSome = σ.globalVnetDev.isSome ∧
    (rxSize ≠ 0 ∧ txSize ≠ 0 → σ'.rxQueue.RingsSet ∧ σ'.txQueue.RingsSet) ∧
    (¬ (rxSize ≠ 0 ∧ txSize ≠ 0) → σ'.rxQueue.usedAddr = 0 ∨ σ'.txQueue.usedAddr = 0) := by
  by_cases hrxSize : rxSize = 0
  · rw [virtioNetSetupQueues, if_pos hrxSize] at hrun
    cases hrun
    exact ⟨rfl, fun h ↦ absurd hrxSize h.1, fun _ ↦ .inl hrx⟩
  · rw [virtioNetSetupQueues, if_neg hrxSize, run_modify_bind] at hrun
    obtain ⟨_, σ₁, hfill, hrest⟩ := run_bind_eq_some.mp hrun
    have hrings := keeps_prefillLoop Virtqueue.regions (fun _ _ _ _ ↦ rfl) (fun _ _ ↦ rfl) _ _ _ _ _
      hfill
    have hset : σ₁.rxQueue.RingsSet := (Virtqueue.ringsSet_init hrxSize hrxMem).of_regions hrings
    obtain ⟨rxQueue, stats, hprefill⟩ := prefillLoop_run 0 rxSize.toNat { σ with
      rxQueue := virtqueueInit σ.rxQueue rxSize 0 rxRingMem
      globalVnetDev := σ.globalVnetDev.map fun dev : VirtioPciDevice ↦ { dev with rxVq := true } }
    cases hprefill.symm.trans hfill
    by_cases htxSize : txSize = 0
    · rw [if_pos htxSize] at hrest
      cases hrest
      exact ⟨Option.isSome_map, fun h ↦ absurd htxSize h.2, fun _ ↦ .inr htx⟩
    · rw [if_neg htxSize] at hrest
      cases hrest
      refine ⟨?_, fun _ ↦ ⟨hset, Virtqueue.ringsSet_init htxSize htxMem⟩,
        fun h ↦ absurd ⟨hrxSize, htxSize⟩ h⟩
      rw [Option.isSome_map, Option.isSome_map]

variable {c : Probe}

/-- There is memory for the device structure. -/
theorem Probe.callKmalloc_boot (c : Probe) : ∃ heap,
    (callKmalloc sizeofVirtioPciDevice).run c.boot =
      some (heapStart + 24, { c.boot with heap := heap }) := by
  obtain ⟨⟨p, heap⟩, hkmalloc, hp⟩ := Option.map_eq_some_iff.mp (kmalloc_boot c.ram)
  obtain rfl : p = heapStart + 24 := hp
  refine ⟨heap, ?_⟩
  rw [callKmalloc_run, show c.boot.heap = Heap.boot c.ram from rfl, hkmalloc]
  rfl

/-- A device with the two banks is found as a conforming one is. -/
theorem Probe.starts_iff_of_banks (h : c.BanksFound) {σ : Node} : c.Starts σ ↔
    (Ethernet.virtioPciInit >>= fun _ ↦ c.virtioNetInit).run c.boot = some ((), σ) := by
  obtain ⟨⟨banks, mmu⟩, hlookup, hbanks⟩ := (Option.any_eq_true _ _).mp h
  obtain ⟨heap, hcall⟩ := c.callKmalloc_boot
  unfold Starts virtioPciInit Ethernet.virtioPciInit
  rw [bind_assoc, run_bind_of_run hcall, run_bind_of_run hcall, if_neg (by decide),
    if_neg (by decide), hlookup]
  dsimp only
  rw [if_pos (of_decide_eq_true hbanks)]

/-- On a device that accepts, this is the initialisation that every run of a node starts with. -/
theorem Probe.starts_iff_initialise (hbanks : c.BanksFound) (h : c.Accepted) :
    ∃ rxSize txSize, rxSize ≠ 0 ∧ txSize ≠ 0 ∧ ∀ σ, c.Starts σ ↔
      (initialise rxSize txSize c.rxRingMem c.txRingMem).run c.boot = some ((), σ) := by
  obtain ⟨i, hreset, haccepts⟩ := (Option.any_eq_true _ _).mp h
  obtain ⟨hfeatures, hrx, htx⟩ := of_decide_eq_true haccepts
  refine ⟨_, _, hrx, htx, fun σ ↦ ?_⟩
  rw [starts_iff_of_banks hbanks, initialise, virtioNetInit, hreset]
  dsimp only
  rw [if_neg hfeatures]

/-- Initialising the device sets both rings up if it accepts, and else leaves one of them `NULL`. -/
theorem Probe.virtioNetInit_leaves {σ σ' : Node} (hrx : σ.rxQueue.usedAddr = 0)
    (htx : σ.txQueue.usedAddr = 0) (hrun : c.virtioNetInit.run σ = some ((), σ')) :
    σ'.globalVnetDev.isSome = σ.globalVnetDev.isSome ∧
    (c.Accepted → σ'.rxQueue.RingsSet ∧ σ'.txQueue.RingsSet) ∧
    (¬ c.Accepted → σ'.rxQueue.usedAddr = 0 ∨ σ'.txQueue.usedAddr = 0) := by
  rw [virtioNetInit] at hrun
  unfold Accepted
  cases hreset : resetLoop c.values c.turns 0 with
  | none =>
      rw [hreset] at hrun
      cases hrun
  | some i =>
      rw [hreset] at hrun
      rw [Option.any_some, decide_eq_true_iff]
      dsimp only at hrun
      by_cases hfeatures : c.values (i + 2) &&& virtioStatusFeaturesOk = 0
      · rw [if_pos hfeatures] at hrun
        cases hrun
        exact ⟨rfl, fun h ↦ absurd hfeatures h.1, fun _ ↦ .inl hrx⟩
      · rw [if_neg hfeatures] at hrun
        rw [and_iff_right hfeatures]
        exact virtioNetSetupQueues_leaves c.rxRingMem_ne_zero c.txRingMem_ne_zero hrx htx hrun

/-- Without the two banks the device is not published, with them it is. The rings are both set up if
the device accepts then, and else one of them is `NULL`. -/
theorem Probe.Starts.leaves {σ : Node} (h : c.Starts σ) :
    (c.BanksFound ↔ σ.globalVnetDev.isSome) ∧ (c.BanksFound →
      (c.Accepted → σ.rxQueue.RingsSet ∧ σ.txQueue.RingsSet) ∧
      (¬ c.Accepted → σ.rxQueue.usedAddr = 0 ∨ σ.txQueue.usedAddr = 0)) := by
  by_cases hbanks : c.BanksFound
  · obtain ⟨_, σ₁, hfind, hinit⟩ := run_bind_eq_some.mp ((starts_iff_of_banks hbanks).mp h)
    obtain ⟨heap, hcall⟩ := c.callKmalloc_boot
    rw [Ethernet.virtioPciInit, run_bind_of_run hcall, if_neg (by decide)] at hfind
    cases hfind
    obtain ⟨hpublished, hleaves⟩ := virtioNetInit_leaves (c := c) rfl rfl hinit
    exact ⟨iff_of_true hbanks hpublished, fun _ ↦ hleaves⟩
  · obtain ⟨heap, hcall⟩ := c.callKmalloc_boot
    rw [Starts, virtioPciInit, run_bind_of_run hcall, if_neg (by decide)] at h
    have hmissing := hbanks
    unfold BanksFound at hmissing
    cases hlookup : virtioPciCapLookup c.cfg c.turns ⟨0, 0, 0, 0, 0⟩ c.mmu with
    | none =>
        rw [hlookup] at h
        cases h
    | some found =>
        rw [hlookup] at h hmissing
        dsimp only at h
        rw [Option.any_some, decide_eq_true_iff] at hmissing
        rw [if_neg hmissing] at h
        cases h
        exact ⟨iff_of_false hbanks Bool.false_ne_true, fun hfound ↦ absurd hfound hbanks⟩

/-! ## The handshake behind the exits -/

/-- What the handshake leaves to do with the queues in memory. -/
def handshakeSetup (rxRingMem txRingMem : Nat) : Handshake → Action Unit
  | .refused => pure ()
  | .noRx => virtioNetSetupQueues 0 0 rxRingMem txRingMem
  | .noTx rx => virtioNetSetupQueues rx.size 0 rxRingMem txRingMem
  | .ready rx tx => virtioNetSetupQueues rx.size tx.size rxRingMem txRingMem

section Values

variable {values : Nat → UInt32} {i : Nat}

/-- A read returns the next value. -/
theorem wp_readReg_ofValues {r : Register} {post : UInt32 → Nat → Prop} :
    wp ((Device.ofValues values).readReg r) post i ↔ post (values i) (i + 1) :=
  wp_of_run rfl

/-- A write does not count. -/
theorem wp_writeReg_ofValues {r : Register} {v : UInt32} {post : Unit → Nat → Prop} :
    wp ((Device.ofValues values).writeReg r v) post i ↔ post () i :=
  wp_of_run rfl

/-- Both waits for the reset make the same reads. -/
theorem resetLoop_ofValues (turns : Nat) : ((Device.ofValues values).resetLoop turns).run i =
    (resetLoop values turns i).map fun j ↦ ((), j) := by
  induction turns generalizing i with
  | zero => rfl
  | succ turns ih =>
      have hread : ((Device.ofValues values).readReg deviceStatusWord).run i =
          some (values i, i + 1) := rfl
      rw [resetLoop, Device.resetLoop, run_bind_of_run hread]
      by_cases hzero : values i ≠ 0
      · rw [if_pos hzero, if_pos hzero, ih]
      · rw [if_neg hzero, if_neg hzero]
        rfl

/-- The negotiation makes three reads behind the wait. -/
theorem negotiate_ofValues {turns j : Nat} (hreset : resetLoop values turns 0 = some j) :
    wp ((Device.ofValues values).negotiate turns) (fun accepted k ↦
      (accepted ↔ values (j + 2) &&& virtioStatusFeaturesOk ≠ 0) ∧ k = j + 3) 0 := by
  have hwait : ((Device.ofValues values).resetLoop turns).run 0 = some ((), j) := by
    rw [resetLoop_ofValues, hreset]
    rfl
  simp only [Device.negotiate, wp_bind, wp_writeReg_ofValues, wp_readReg_ofValues, wp_of_run hwait]
  split
  · rename_i hzero
    exact wp_pure.mpr ⟨iff_of_false Bool.false_ne_true (not_not.mpr hzero), rfl⟩
  · rename_i hset
    simp only [wp_bind, wp_writeReg_ofValues, wp_pure]
    exact ⟨iff_of_true trivial hset, trivial⟩

/-- Binding a queue makes no read. -/
theorem bindQueue_ofValues (vq : Virtqueue) {post : Unit → Nat → Prop} :
    wp ((Device.ofValues values).virtioPciBindQueue vq) post i ↔ post () i :=
  wp_of_run rfl

/-- Ringing the doorbell makes one. -/
theorem notify_ofValues (queue : UInt16) {post : Unit → Nat → Prop} :
    wp ((Device.ofValues values).virtqueueNotify queue) post i ↔ post () (i + 1) :=
  wp_of_run rfl

end Values

/-- The initialisation by the values that a device returns is the handshake with that device. -/
theorem Probe.virtioNetInit_handshake (c : Probe) : c.virtioNetInit =
    match ((Device.ofValues c.values).virtioNetInit c.turns c.rxRingMem c.txRingMem).run 0 with
    | none => fault
    | some (outcome, _) => handshakeSetup c.rxRingMem c.txRingMem outcome := by
  rw [virtioNetInit]
  cases hreset : resetLoop c.values c.turns 0 with
  | none =>
      have hwait : ((Device.ofValues c.values).resetLoop c.turns).run 0 = none := by
        rw [resetLoop_ofValues, hreset]
        rfl
      have hnone : ((Device.ofValues c.values).virtioNetInit c.turns c.rxRingMem
          c.txRingMem).run 0 = none := by
        have hwrite : ((Device.ofValues c.values).writeReg deviceStatusWord 0).run 0 =
            some ((), 0) := rfl
        have hnegotiate : ((Device.ofValues c.values).negotiate c.turns).run 0 = none := by
          rw [Device.negotiate, run_bind_of_run hwrite, StateT.run_bind, hwait]
          rfl
        rw [Device.virtioNetInit, StateT.run_bind, hnegotiate]
        rfl
      rw [hnone]
  | some i =>
      have hwp : wp ((Device.ofValues c.values).virtioNetInit c.turns c.rxRingMem c.txRingMem)
          (fun outcome _ ↦ handshakeSetup c.rxRingMem c.txRingMem outcome =
            if c.values (i + 2) &&& virtioStatusFeaturesOk = 0 then pure ()
            else virtioNetSetupQueues (c.values (i + 5)).toUInt16 (c.values (i + 7)).toUInt16
              c.rxRingMem c.txRingMem) 0 := by
        rw [Device.virtioNetInit, wp_bind]
        refine wp_mono (negotiate_ofValues hreset) fun accepted j hj ↦ ?_
        obtain ⟨haccepted, rfl⟩ := hj
        cases accepted with
        | false =>
            have hrefused := not_not.mp (mt haccepted.mpr Bool.false_ne_true)
            rw [if_neg Bool.false_ne_true, wp_pure, if_pos hrefused]
            rfl
        | true =>
            rw [if_pos rfl, if_neg (haccepted.mp rfl), wp_bind, wp_readReg_ofValues, wp_bind,
              wp_readReg_ofValues, Device.virtioNetSetupQueues, wp_bind, wp_writeReg_ofValues,
              wp_bind, wp_readReg_ofValues]
            by_cases hrx : (c.values (i + 5)).toUInt16 = 0
            · rw [if_pos hrx, wp_pure, hrx]
              -- without RX descriptors the size of the TX queue is not read
              rw [handshakeSetup, virtioNetSetupQueues, if_pos rfl, virtioNetSetupQueues,
                if_pos rfl]
            rw [if_neg hrx]
            dsimp only
            rw [wp_bind, bindQueue_ofValues, wp_bind, notify_ofValues, wp_bind,
              wp_writeReg_ofValues, wp_bind, wp_readReg_ofValues]
            by_cases htx : (c.values (i + 7)).toUInt16 = 0
            · rw [if_pos htx, wp_pure, htx]
              rfl
            · rw [if_neg htx, wp_bind, bindQueue_ofValues, wp_pure]
              rfl
      obtain ⟨outcome, j, hrun, hsetup⟩ := hwp
      rw [hrun]
      exact hsetup.symm

end Aether.Ethernet
