import Aether.Drivers.VirtioRing
import Aether.Lib.Wp

/-!
# The handshake with a virtio device

`virtio_net_init`, `virtio_net_setup_queues`, `virtio_pci_bind_queue` and `virtqueue_notify`,
register by register, on any device. `Conforming` is what the virtio specification says of a device
as far as the driver can see it. `device_agreement` says that driver and device agree when the
driver is done, and what it has to do with a device that refuses.
-/

namespace Aether.Drivers

open Program

/-! ## Registers -/

/-- A register of the common configuration with its offset and width, a word of the device's own
configuration, or the doorbell of the queue with the given `queue_notify_off`. -/
inductive Register where
  | common (offset width : Nat)
  | config (offset : Nat)
  | doorbell (notifyOff : UInt16)
  deriving DecidableEq

/-- What a device with states `S` returns and does. A read may change it too. -/
structure Device (S : Type) where
  read : S → Register → UInt32 × S
  write : S → Register → UInt32 → S

/-- The first word of `device_status`, which the driver reads and writes with 32 bits: the status,
`config_generation` and `queue_select`. -/
def deviceStatusWord : Register := .common 0x14 4

/-- `VIRTIO_STATUS_ACKNOWLEDGE`. -/
def virtioStatusAcknowledge : UInt32 := 1

/-- `VIRTIO_STATUS_DRIVER`. -/
def virtioStatusDriver : UInt32 := 2

/-- `VIRTIO_STATUS_DRIVER_OK`. -/
def virtioStatusDriverOk : UInt32 := 4

/-- `VIRTIO_STATUS_FEATURES_OK`. -/
def virtioStatusFeatures : UInt32 := 8

namespace Device

variable {S : Type} (dev : Device S)

/-- `mmio_read32`, or a read of a field. -/
def readReg (r : Register) : StateT S Option UInt32 := fun s ↦ some (dev.read s r)

/-- `mmio_write32`, or an assignment to a field. -/
def writeReg (r : Register) (v : UInt32) : StateT S Option Unit :=
  fun s ↦ some ((), dev.write s r v)

/-- The loop that waits for the reset, `none` when it outlasts its turns. -/
def resetLoop : Nat → StateT S Option Unit
  | 0 => fun _ ↦ none
  | turns + 1 => do
      let status ← dev.readReg deviceStatusWord
      if status ≠ 0 then resetLoop turns else pure ()

/-- The feature bits that the driver takes of the first word. -/
def accept0 (f0 : UInt32) : UInt32 :=
  let mac := (1 : UInt32) <<< 5
  let anyLayout := (1 : UInt32) <<< 27
  (if f0 &&& mac ≠ 0 then mac else 0) ||| (if f0 &&& anyLayout ≠ 0 then anyLayout else 0)

/-- The feature bits that the driver takes of the second word. -/
def accept1 (f1 : UInt32) : UInt32 := if f1 &&& 1 ≠ 0 then 1 else 0

/-- The first three parts of `virtio_net_init`: whether the device took the features. -/
def negotiate (turns : Nat) : StateT S Option Bool := do
  dev.writeReg deviceStatusWord 0
  dev.resetLoop turns
  let status := virtioStatusAcknowledge ||| virtioStatusDriver
  dev.writeReg deviceStatusWord status
  dev.writeReg (.common 0x00 4) 0
  let f0 ← dev.readReg (.common 0x04 4)
  dev.writeReg (.common 0x00 4) 1
  let f1 ← dev.readReg (.common 0x04 4)
  dev.writeReg (.common 0x08 4) 0
  dev.writeReg (.common 0x0C 4) (accept0 f0)
  dev.writeReg (.common 0x08 4) 1
  dev.writeReg (.common 0x0C 4) (accept1 f1)
  let status := status ||| virtioStatusFeatures
  dev.writeReg deviceStatusWord status
  let answer ← dev.readReg deviceStatusWord
  if answer &&& virtioStatusFeatures = 0 then pure false
  else
    dev.writeReg deviceStatusWord (status ||| virtioStatusDriverOk)
    pure true

/-- `virtio_pci_bind_queue`. -/
def virtioPciBindQueue (vq : Virtqueue) : StateT S Option Unit := do
  dev.writeReg (.common 0x16 2) vq.queueIndex.toUInt32
  dev.writeReg (.common 0x18 2) vq.size.toUInt32
  let desc := UInt64.ofNat vq.descAddr
  let avail := UInt64.ofNat vq.availAddr
  let used := UInt64.ofNat vq.usedAddr
  dev.writeReg (.common 0x20 4) (desc &&& 0xFFFFFFFF).toUInt32
  dev.writeReg (.common 0x24 4) (desc >>> 32).toUInt32
  dev.writeReg (.common 0x28 4) (avail &&& 0xFFFFFFFF).toUInt32
  dev.writeReg (.common 0x2C 4) (avail >>> 32).toUInt32
  dev.writeReg (.common 0x30 4) (used &&& 0xFFFFFFFF).toUInt32
  dev.writeReg (.common 0x34 4) (used >>> 32).toUInt32
  dev.writeReg (.common 0x1C 2) 1

/-- `virtqueue_notify`. -/
def virtqueueNotify (queueIndex : UInt16) : StateT S Option Unit := do
  dev.writeReg (.common 0x16 2) queueIndex.toUInt32
  let notifyOff ← dev.readReg (.common 0x1E 2)
  dev.writeReg (.doorbell notifyOff.toUInt16) queueIndex.toUInt32

end Device

/-- How `virtio_net_init` ends, with the queues that it initialised and bound. -/
inductive Handshake where
  | refused
  | noRx
  | noTx (rx : Virtqueue)
  | ready (rx tx : Virtqueue)

namespace Device

variable {S : Type} (dev : Device S)

/-- The accesses of `virtio_net_setup_queues`. Filling the RX queue makes none. -/
def virtioNetSetupQueues (rxRingMem txRingMem : Nat) : StateT S Option Handshake := do
  dev.writeReg (.common 0x16 2) 0
  let rxSize ← dev.readReg (.common 0x18 2)
  if rxSize.toUInt16 = 0 then pure .noRx
  else
    let rx := virtqueueInit .zeroed rxSize.toUInt16 0 rxRingMem
    dev.virtioPciBindQueue rx
    dev.virtqueueNotify 0
    dev.writeReg (.common 0x16 2) 1
    let txSize ← dev.readReg (.common 0x18 2)
    if txSize.toUInt16 = 0 then pure (.noTx rx)
    else
      let tx := virtqueueInit .zeroed txSize.toUInt16 1 txRingMem
      dev.virtioPciBindQueue tx
      pure (.ready rx tx)

/-- `virtio_net_init`. -/
def virtioNetInit (turns rxRingMem txRingMem : Nat) : StateT S Option Handshake := do
  if ← dev.negotiate turns then
    -- the hardware address is only printed
    let _macLow ← dev.readReg (.config 0)
    let _macHigh ← dev.readReg (.config 4)
    dev.virtioNetSetupQueues rxRingMem txRingMem
  else pure .refused

end Device

/-! ## What a device is -/

/-- The registers of a queue. -/
structure QueueConfig where
  size : UInt16
  enable : UInt16
  descLo : UInt32
  descHi : UInt32
  availLo : UInt32
  availHi : UInt32
  usedLo : UInt32
  usedHi : UInt32
  deriving DecidableEq

/-- A queue after a reset. -/
def QueueConfig.idle (size : UInt16) : QueueConfig := ⟨size, 0, 0, 0, 0, 0, 0, 0⟩

/-- What the registers of the common configuration hold, those of a queue for each queue. -/
structure CommonConfig where
  deviceFeatureSelect : UInt32
  driverFeatureSelect : UInt32
  driverFeature : UInt32 → UInt32
  deviceStatus : UInt32
  queueSelect : UInt16
  queue : UInt16 → QueueConfig

namespace CommonConfig

/-- After a reset. -/
def reset (sizes : UInt16 → UInt16) : CommonConfig :=
  ⟨0, 0, fun _ ↦ 0, 0, 0, fun i ↦ .idle (sizes i)⟩

/-- The selected queue. -/
def selected (g : CommonConfig) : QueueConfig := g.queue g.queueSelect

/-- A register of the selected queue is written. -/
def setSelected (g : CommonConfig) (q : QueueConfig) : CommonConfig :=
  { g with queue := Function.update g.queue g.queueSelect q }

/-- A queue is selected, and its registers are written. -/
def bound (g : CommonConfig) (i : UInt16) (q : QueueConfig) : CommonConfig :=
  { g with queueSelect := i, queue := Function.update g.queue i q }

@[simp] theorem selected_bound (g : CommonConfig) (i : UInt16) (q : QueueConfig) :
    (g.bound i q).selected = q := by
  simp [selected, bound]

@[simp] theorem setSelected_bound (g : CommonConfig) (i : UInt16) (q q' : QueueConfig) :
    (g.bound i q).setSelected q' = g.bound i q' := by
  simp [setSelected, bound]

/-- A queue is selected. -/
theorem select_eq_bound (g : CommonConfig) (i : UInt16) :
    { g with queueSelect := i } = g.bound i (g.queue i) := by
  simp [bound]

end CommonConfig

/-- What `view` shows of the states of a device is a common configuration as virtio describes it.
The device offers the feature words `offered`, takes the driver's features if `accepts`, and has
queues of the given `sizes`. It may take any number of reads to finish a reset, and the word with
its status then reads zero. A wide write of the status may select any queue. -/
structure Device.Conforming {S : Type} (dev : Device S) (view : S → CommonConfig)
    (offered : UInt32 → UInt32) (accepts : (UInt32 → UInt32) → Bool) (sizes : UInt16 → UInt16) :
    Prop where
  read : ∀ s r, view (dev.read s r).2 = view s
  doorbell : ∀ s n v, view (dev.write s (.doorbell n) v) = view s
  reset : ∀ s, view (dev.write s deviceStatusWord 0) = .reset sizes
  reset_ends : ∀ s, (view s).deviceStatus = 0 →
    ∃ n, (dev.read ((fun s ↦ (dev.read s deviceStatusWord).2)^[n] s) deviceStatusWord).1 = 0
  deviceStatus_read : ∀ s, (view s).deviceStatus ≠ 0 →
    (dev.read s deviceStatusWord).1 &&& 0xFF = (view s).deviceStatus &&& 0xFF
  deviceStatus : ∀ s v, v ≠ 0 → v < 0x100 → ∃ select, view (dev.write s deviceStatusWord v) =
    { view s with
      deviceStatus :=
        if v &&& virtioStatusFeatures ≠ 0 ∧ ¬ accepts (view s).driverFeature then
          v &&& ~~~virtioStatusFeatures
        else v
      queueSelect := select }
  deviceFeatureSelect : ∀ s v,
    view (dev.write s (.common 0x00 4) v) = { view s with deviceFeatureSelect := v }
  deviceFeature : ∀ s, (dev.read s (.common 0x04 4)).1 = offered (view s).deviceFeatureSelect
  driverFeatureSelect : ∀ s v,
    view (dev.write s (.common 0x08 4) v) = { view s with driverFeatureSelect := v }
  driverFeature : ∀ s v, (view s).deviceStatus &&& virtioStatusFeatures = 0 →
    view (dev.write s (.common 0x0C 4) v) = { view s with
      driverFeature :=
        Function.update (view s).driverFeature (view s).driverFeatureSelect v }
  queueSelect : ∀ s v,
    view (dev.write s (.common 0x16 2) v) = { view s with queueSelect := v.toUInt16 }
  queueSize_read : ∀ s, (dev.read s (.common 0x18 2)).1.toUInt16 = (view s).selected.size
  queueSize : ∀ s v, view (dev.write s (.common 0x18 2) v) =
    (view s).setSelected { (view s).selected with size := v.toUInt16 }
  queueEnable : ∀ s v, view (dev.write s (.common 0x1C 2) v) =
    (view s).setSelected { (view s).selected with enable := v.toUInt16 }
  descLo : ∀ s v, view (dev.write s (.common 0x20 4) v) =
    (view s).setSelected { (view s).selected with descLo := v }
  descHi : ∀ s v, view (dev.write s (.common 0x24 4) v) =
    (view s).setSelected { (view s).selected with descHi := v }
  availLo : ∀ s v, view (dev.write s (.common 0x28 4) v) =
    (view s).setSelected { (view s).selected with availLo := v }
  availHi : ∀ s v, view (dev.write s (.common 0x2C 4) v) =
    (view s).setSelected { (view s).selected with availHi := v }
  usedLo : ∀ s v, view (dev.write s (.common 0x30 4) v) =
    (view s).setSelected { (view s).selected with usedLo := v }
  usedHi : ∀ s v, view (dev.write s (.common 0x34 4) v) =
    (view s).setSelected { (view s).selected with usedHi := v }

/-! ## The feature bits -/

/-- A bit of a word is tested by masking it. -/
theorem masked_bit (x : UInt32) (i : Nat) (m : UInt32) (hm : m.toBitVec = BitVec.twoPow 32 i) :
    (if x &&& m ≠ 0 then m else 0) = x &&& m := by
  have hand : x &&& m = if x.toBitVec.getLsbD i then m else 0 := by
    rw [← UInt32.toBitVec_inj, UInt32.toBitVec_and, hm, BitVec.and_twoPow]
    split
    · exact hm.symm
    · rfl
  rw [hand]
  split
  · split
    · rfl
    · rename_i hzero
      exact (not_not.mp hzero).symm
  · rw [if_neg (not_not.mpr rfl)]

namespace Device

/-- The driver takes the hardware address and the arbitrary descriptor layout if they are offered.
-/
theorem accept0_eq (f0 : UInt32) : accept0 f0 = f0 &&& 0x08000020 := by
  unfold accept0
  dsimp only
  rw [masked_bit f0 5 _ (by decide), masked_bit f0 27 _ (by decide), ← UInt32.toBitVec_inj,
    UInt32.toBitVec_or, UInt32.toBitVec_and, UInt32.toBitVec_and, ← BitVec.and_or_distrib_left]
  rfl

/-- The driver takes version 1 if it is offered. -/
theorem accept1_eq (f1 : UInt32) : accept1 f1 = f1 &&& 1 := masked_bit f1 0 1 (by decide)

end Device

/-! ## The handshake -/

section Elementary

variable {S : Type} {dev : Device S} {s : S}

@[simp] theorem wp_writeReg {r : Register} {v : UInt32} {post : Unit → S → Prop} :
    wp (dev.writeReg r v) post s ↔ post () (dev.write s r v) :=
  wp_of_run rfl

@[simp] theorem wp_readReg {r : Register} {post : UInt32 → S → Prop} :
    wp (dev.readReg r) post s ↔ post (dev.read s r).1 (dev.read s r).2 :=
  wp_of_run rfl

/-- Waiting for a reset that ends. -/
theorem Device.resetLoop_returns {n turns : Nat}
    (hends : (dev.read ((fun s ↦ (dev.read s deviceStatusWord).2)^[n] s) deviceStatusWord).1 = 0)
    (hturns : n < turns) (P : S → Prop) (hs : P s)
    (hread : ∀ t, P t → P (dev.read t deviceStatusWord).2) :
    wp (dev.resetLoop turns) (fun _ ↦ P) s := by
  induction turns generalizing n s with
  | zero => exact absurd hturns (Nat.not_lt_zero n)
  | succ turns ih =>
      rw [Device.resetLoop, wp_bind, wp_readReg]
      by_cases hzero : (dev.read s deviceStatusWord).1 = 0
      · rw [if_neg (not_not.mpr hzero), wp_pure]
        exact hread s hs
      · rw [if_pos hzero]
        cases n with
        | zero => exact absurd hends hzero
        | succ n =>
            rw [Function.iterate_succ_apply] at hends
            exact ih hends (Nat.lt_of_succ_lt_succ hturns) (hread s hs)

end Elementary

/-- The queue registers hold the queue. -/
structure QueueConfig.Holds (q : QueueConfig) (vq : Virtqueue) : Prop where
  size : q.size = vq.size
  enable : q.enable = 1
  desc : q.descHi.toNat * 2 ^ 32 + q.descLo.toNat = vq.descAddr
  avail : q.availHi.toNat * 2 ^ 32 + q.availLo.toNat = vq.availAddr
  used : q.usedHi.toNat * 2 ^ 32 + q.usedLo.toNat = vq.usedAddr

/-- The feature words that the driver writes. -/
def negotiated (offered : UInt32 → UInt32) : UInt32 → UInt32 :=
  Function.update (Function.update (fun _ ↦ 0) 0 (Device.accept0 (offered 0))) 1
    (Device.accept1 (offered 1))

/-- An address is written in two halves. -/
theorem halves_of_address {a : Nat} (h : a < 2 ^ 64) :
    (UInt64.ofNat a >>> 32).toUInt32.toNat * 2 ^ 32 +
      (UInt64.ofNat a &&& 0xFFFFFFFF).toUInt32.toNat = a := by
  have hmask : (UInt64.ofNat a &&& 0xFFFFFFFF).toNat = a % 2 ^ 32 := by
    rw [UInt64.toNat_and, UInt64.toNat_ofNat_of_lt' h]
    exact Nat.and_two_pow_sub_one_eq_mod a 32
  have hshift : (UInt64.ofNat a >>> 32).toNat = a / 2 ^ 32 := by
    rw [UInt64.toNat_shiftRight, UInt64.toNat_ofNat_of_lt' h, Nat.shiftRight_eq_div_pow]
    rfl
  rw [UInt64.toNat_toUInt32, UInt64.toNat_toUInt32, hmask, hshift]
  omega

namespace Device.Conforming

variable {S : Type} {dev : Device S} {view : S → CommonConfig} {offered : UInt32 → UInt32}
  {accepts : (UInt32 → UInt32) → Bool} {sizes : UInt16 → UInt16} {s : S}

/-- The features that the driver takes are negotiated, unless the device refuses them. -/
theorem negotiate (h : dev.Conforming view offered accepts sizes) (s : S) :
    ∃ n, ∀ turns, n < turns → wp (dev.negotiate turns) (fun accepted s' ↦
      accepted = accepts (negotiated offered) ∧
      (view s').driverFeature = negotiated offered ∧
      (view s').deviceStatus = (if accepted then 15 else 3) ∧
      (view s').queue = fun i ↦ .idle (sizes i)) s := by
  have hreset := h.reset s
  obtain ⟨n, hends⟩ := h.reset_ends (dev.write s deviceStatusWord 0) (by rw [hreset]; rfl)
  refine ⟨n, fun turns hturns ↦ ?_⟩
  let idle : UInt16 → QueueConfig := fun i ↦ .idle (sizes i)
  have hstarted : (3 : UInt32) &&& virtioStatusFeatures = 0 := by decide
  rw [Device.negotiate, wp_bind, wp_writeReg, wp_bind]
  refine wp_mono (resetLoop_returns hends hturns (fun s ↦ view s = ⟨0, 0, fun _ ↦ 0, 0, 0, idle⟩)
    hreset fun t ht ↦ (h.read t _).trans ht) fun _ t₀ h₀ ↦ ?_
  dsimp only
  rw [wp_bind, wp_writeReg]
  obtain ⟨select, h₁⟩ : ∃ select, view (dev.write t₀ deviceStatusWord 3) =
      ⟨0, 0, fun _ ↦ 0, 3, select, idle⟩ := by
    obtain ⟨select, hwrite⟩ := h.deviceStatus t₀ 3 (by decide) (by decide)
    exact ⟨select, by rw [hwrite, h₀, if_neg fun hboth ↦ hboth.1 rfl]⟩
  change wp _ _ (dev.write t₀ deviceStatusWord 3)
  generalize dev.write t₀ deviceStatusWord 3 = t₁ at h₁ ⊢
  -- what the device offers
  rw [wp_bind, wp_writeReg]
  have h₂ : view (dev.write t₁ (.common 0x00 4) 0) = ⟨0, 0, fun _ ↦ 0, 3, select, idle⟩ := by
    rw [h.deviceFeatureSelect, h₁]
  generalize dev.write t₁ _ _ = t₂ at h₂ ⊢
  rw [wp_bind, wp_readReg, h.deviceFeature, h₂]
  have h₃ := (h.read t₂ (.common 0x04 4)).trans h₂
  generalize (dev.read t₂ _).2 = t₃ at h₃ ⊢
  rw [wp_bind, wp_writeReg]
  have h₄ : view (dev.write t₃ (.common 0x00 4) 1) = ⟨1, 0, fun _ ↦ 0, 3, select, idle⟩ := by
    rw [h.deviceFeatureSelect, h₃]
  generalize dev.write t₃ _ _ = t₄ at h₄ ⊢
  rw [wp_bind, wp_readReg, h.deviceFeature, h₄]
  have h₅ := (h.read t₄ (.common 0x04 4)).trans h₄
  generalize (dev.read t₄ _).2 = t₅ at h₅ ⊢
  dsimp only
  -- what the driver takes
  rw [wp_bind, wp_writeReg]
  have h₆ : view (dev.write t₅ (.common 0x08 4) 0) = ⟨1, 0, fun _ ↦ 0, 3, select, idle⟩ := by
    rw [h.driverFeatureSelect, h₅]
  generalize dev.write t₅ _ _ = t₆ at h₆ ⊢
  rw [wp_bind, wp_writeReg]
  have h₇ : view (dev.write t₆ (.common 0x0C 4) (accept0 (offered 0))) =
      ⟨1, 0, Function.update (fun _ ↦ 0) 0 (accept0 (offered 0)), 3, select, idle⟩ := by
    rw [h.driverFeature _ _ (by rw [h₆]; exact hstarted), h₆]
  generalize dev.write t₆ _ _ = t₇ at h₇ ⊢
  rw [wp_bind, wp_writeReg]
  have h₈ : view (dev.write t₇ (.common 0x08 4) 1) =
      ⟨1, 1, Function.update (fun _ ↦ 0) 0 (accept0 (offered 0)), 3, select, idle⟩ := by
    rw [h.driverFeatureSelect, h₇]
  generalize dev.write t₇ _ _ = t₈ at h₈ ⊢
  rw [wp_bind, wp_writeReg]
  have h₉ : view (dev.write t₈ (.common 0x0C 4) (accept1 (offered 1))) =
      ⟨1, 1, negotiated offered, 3, select, idle⟩ := by
    rw [h.driverFeature _ _ (by rw [h₈]; exact hstarted), h₈]
    rfl
  generalize dev.write t₈ _ _ = t₉ at h₉ ⊢
  -- what the device says to it
  rw [wp_bind, wp_writeReg]
  obtain ⟨select, h₁₀⟩ : ∃ select, view (dev.write t₉ deviceStatusWord 11) =
      ⟨1, 1, negotiated offered, if accepts (negotiated offered) then 11 else 3, select, idle⟩ := by
    obtain ⟨select, hwrite⟩ := h.deviceStatus t₉ 11 (by decide) (by decide)
    refine ⟨select, ?_⟩
    rw [hwrite, h₉]
    cases hanswer : accepts (negotiated offered) with
    | true => rfl
    | false => rfl
  change wp _ _ (dev.write t₉ deviceStatusWord 11)
  generalize dev.write t₉ deviceStatusWord 11 = t₁₀ at h₁₀ ⊢
  rw [wp_bind, wp_readReg]
  have hword := h.deviceStatus_read t₁₀
  have h₁₁ := (h.read t₁₀ deviceStatusWord).trans h₁₀
  generalize (dev.read t₁₀ _).2 = t₁₁ at h₁₁ ⊢
  generalize (dev.read t₁₀ _).1 = answer at hword ⊢
  have hbit : answer &&& virtioStatusFeatures = answer &&& 0xFF &&& virtioStatusFeatures :=
    (UInt32.and_assoc answer 0xFF virtioStatusFeatures).symm
  rw [h₁₀] at hword
  cases hanswer : accepts (negotiated offered) with
  | true =>
      rw [hanswer] at hword h₁₁
      have hkept : answer &&& 0xFF = 11 := (hword (show (11 : UInt32) ≠ 0 by decide)).trans
        (show (11 : UInt32) &&& 0xFF = 11 by decide)
      rw [if_neg (by rw [hbit, hkept]; decide), wp_bind, wp_writeReg]
      obtain ⟨select, hwrite⟩ := h.deviceStatus t₁₁ 15 (by decide) (by decide)
      have h₁₂ : view (dev.write t₁₁ deviceStatusWord 15) =
          ⟨1, 1, negotiated offered, 15, select, idle⟩ := by
        rw [hwrite, h₁₁]
        simp [hanswer]
      change wp _ _ (dev.write t₁₁ deviceStatusWord 15)
      rw [wp_pure, h₁₂]
      exact ⟨rfl, rfl, rfl, rfl⟩
  | false =>
      rw [hanswer] at hword h₁₁
      have hcleared : answer &&& 0xFF = 3 := (hword (show (3 : UInt32) ≠ 0 by decide)).trans
        (show (3 : UInt32) &&& 0xFF = 3 by decide)
      rw [if_pos (by rw [hbit, hcleared]; exact hstarted), wp_pure, h₁₁]
      exact ⟨rfl, rfl, rfl, rfl⟩

/-- The registers of a queue that was bound hold it, and no other register was touched. -/
theorem virtioPciBindQueue (h : dev.Conforming view offered accepts sizes) (vq : Virtqueue)
    (hdesc : vq.descAddr < 2 ^ 64) (havail : vq.availAddr < 2 ^ 64) (hused : vq.usedAddr < 2 ^ 64)
    (s : S) : wp (dev.virtioPciBindQueue vq) (fun _ s' ↦
      ∃ q : QueueConfig, q.Holds vq ∧ view s' = (view s).bound vq.queueIndex q) s := by
  generalize hg : view s = g
  generalize hi : vq.queueIndex = i
  rw [Device.virtioPciBindQueue, hi, wp_bind, wp_writeReg]
  have h₁ : view (dev.write s (.common 0x16 2) i.toUInt32) = g.bound i (g.queue i) := by
    rw [h.queueSelect, hg, UInt16.toUInt16_toUInt32, g.select_eq_bound]
  generalize dev.write s _ _ = t₁ at h₁ ⊢
  rw [wp_bind, wp_writeReg]
  have h₂ := h.queueSize t₁ vq.size.toUInt32
  rw [h₁, CommonConfig.selected_bound, CommonConfig.setSelected_bound] at h₂
  generalize dev.write t₁ _ _ = t₂ at h₂ ⊢
  dsimp only
  rw [wp_bind, wp_writeReg]
  have h₃ := h.descLo t₂ (UInt64.ofNat vq.descAddr &&& 0xFFFFFFFF).toUInt32
  rw [h₂, CommonConfig.selected_bound, CommonConfig.setSelected_bound] at h₃
  generalize dev.write t₂ _ _ = t₃ at h₃ ⊢
  rw [wp_bind, wp_writeReg]
  have h₄ := h.descHi t₃ (UInt64.ofNat vq.descAddr >>> 32).toUInt32
  rw [h₃, CommonConfig.selected_bound, CommonConfig.setSelected_bound] at h₄
  generalize dev.write t₃ _ _ = t₄ at h₄ ⊢
  rw [wp_bind, wp_writeReg]
  have h₅ := h.availLo t₄ (UInt64.ofNat vq.availAddr &&& 0xFFFFFFFF).toUInt32
  rw [h₄, CommonConfig.selected_bound, CommonConfig.setSelected_bound] at h₅
  generalize dev.write t₄ _ _ = t₅ at h₅ ⊢
  rw [wp_bind, wp_writeReg]
  have h₆ := h.availHi t₅ (UInt64.ofNat vq.availAddr >>> 32).toUInt32
  rw [h₅, CommonConfig.selected_bound, CommonConfig.setSelected_bound] at h₆
  generalize dev.write t₅ _ _ = t₆ at h₆ ⊢
  rw [wp_bind, wp_writeReg]
  have h₇ := h.usedLo t₆ (UInt64.ofNat vq.usedAddr &&& 0xFFFFFFFF).toUInt32
  rw [h₆, CommonConfig.selected_bound, CommonConfig.setSelected_bound] at h₇
  generalize dev.write t₆ _ _ = t₇ at h₇ ⊢
  rw [wp_bind, wp_writeReg]
  have h₈ := h.usedHi t₇ (UInt64.ofNat vq.usedAddr >>> 32).toUInt32
  rw [h₇, CommonConfig.selected_bound, CommonConfig.setSelected_bound] at h₈
  generalize dev.write t₇ _ _ = t₈ at h₈ ⊢
  -- only now the queue is enabled
  rw [wp_writeReg]
  have h₉ := h.queueEnable t₈ 1
  rw [h₈, CommonConfig.selected_bound, CommonConfig.setSelected_bound] at h₉
  refine ⟨_, ⟨?_, rfl, ?_, ?_, ?_⟩, h₉⟩
  · exact UInt16.toUInt16_toUInt32 vq.size
  · exact halves_of_address hdesc
  · exact halves_of_address havail
  · exact halves_of_address hused

/-- Ringing the doorbell selects the queue. -/
theorem virtqueueNotify (h : dev.Conforming view offered accepts sizes) (i : UInt16) (s : S) :
    wp (dev.virtqueueNotify i) (fun _ s' ↦ view s' = { view s with queueSelect := i }) s := by
  rw [Device.virtqueueNotify, wp_bind, wp_writeReg, wp_bind, wp_readReg, wp_writeReg, h.doorbell,
    h.read, h.queueSelect, UInt16.toUInt16_toUInt32]

end Device.Conforming

/-- How driver and device stand after `virtio_net_init`: the driver's queues are in the device's
registers, and no queue is enabled that the driver does not have. -/
def Handshake.Agrees (sizes : UInt16 → UInt16) (rxRingMem txRingMem : Nat) (g : CommonConfig) :
    Handshake → Prop
  | .refused => g.deviceStatus = 3 ∧ g.queue = fun i ↦ .idle (sizes i)
  | .noRx => g.deviceStatus = 15 ∧ sizes 0 = 0 ∧ g.queue = fun i ↦ .idle (sizes i)
  | .noTx rx => g.deviceStatus = 15 ∧ sizes 1 = 0 ∧
      rx = virtqueueInit .zeroed (sizes 0) 0 rxRingMem ∧ (g.queue 0).Holds rx ∧
      ∀ i ≠ 0, g.queue i = .idle (sizes i)
  | .ready rx tx => g.deviceStatus = 15 ∧
      rx = virtqueueInit .zeroed (sizes 0) 0 rxRingMem ∧
      tx = virtqueueInit .zeroed (sizes 1) 1 txRingMem ∧ (g.queue 0).Holds rx ∧
      (g.queue 1).Holds tx ∧ ∀ i, i ≠ 0 → i ≠ 1 → g.queue i = .idle (sizes i)

/-- The rings of a queue in the memory of the kernel have addresses of 64 bits. -/
theorem virtqueueInit_addresses {p : Nat} (hp : p < 2 ^ 63) (vq : Virtqueue) (size i : UInt16) :
    (virtqueueInit vq size i p).descAddr < 2 ^ 64 ∧ (virtqueueInit vq size i p).availAddr < 2 ^ 64 ∧
      (virtqueueInit vq size i p).usedAddr < 2 ^ 64 := by
  have hsize := size.toNat_lt
  refine ⟨?_, ?_, ?_⟩
  · show p < 2 ^ 64
    omega
  · show p + 16 * size.toNat < 2 ^ 64
    omega
  · show (p + 16 * size.toNat + 2 + 2 + 2 * size.toNat + 2 + 3) / 4 * 4 < 2 ^ 64
    omega

namespace Device.Conforming

variable {S : Type} {dev : Device S} {view : S → CommonConfig} {offered : UInt32 → UInt32}
  {accepts : (UInt32 → UInt32) → Bool} {sizes : UInt16 → UInt16} {s : S}

/-- The queues that the device has are bound, up to the first one that it does not have. -/
theorem virtioNetSetupQueues (h : dev.Conforming view offered accepts sizes)
    {rxRingMem txRingMem : Nat} (hrx : rxRingMem < 2 ^ 63) (htx : txRingMem < 2 ^ 63)
    (hstatus : (view s).deviceStatus = 15) (hqueue : (view s).queue = fun i ↦ .idle (sizes i)) :
    wp (dev.virtioNetSetupQueues rxRingMem txRingMem) (fun outcome s' ↦
      (view s').driverFeature = (view s).driverFeature ∧ outcome ≠ .refused ∧
      outcome.Agrees sizes rxRingMem txRingMem (view s')) s := by
  rw [Device.virtioNetSetupQueues, wp_bind, wp_writeReg, wp_bind, wp_readReg]
  have h₁ : view (dev.write s (.common 0x16 2) 0) = { view s with queueSelect := 0 } := by
    rw [h.queueSelect]
    rfl
  generalize dev.write s _ _ = t₁ at h₁ ⊢
  have hrxSize : (dev.read t₁ (.common 0x18 2)).1.toUInt16 = sizes 0 := by
    rw [h.queueSize_read, h₁, CommonConfig.selected, hqueue]
    rfl
  have h₂ := (h.read t₁ (.common 0x18 2)).trans h₁
  generalize (dev.read t₁ _).2 = t₂ at h₂ ⊢
  rw [hrxSize]
  by_cases hnoRx : sizes 0 = 0
  · rw [if_pos hnoRx, wp_pure, h₂]
    exact ⟨rfl, nofun, hstatus, hnoRx, hqueue⟩
  rw [if_neg hnoRx]
  dsimp only
  -- the RX queue
  obtain ⟨hdesc, havail, hused⟩ := virtqueueInit_addresses hrx .zeroed (sizes 0) 0
  generalize hrxq : virtqueueInit .zeroed (sizes 0) 0 rxRingMem = rx at hdesc havail hused ⊢
  have hrxIndex : rx.queueIndex = 0 := by
    rw [← hrxq]
    rfl
  rw [wp_bind]
  refine wp_mono (h.virtioPciBindQueue rx hdesc havail hused t₂) fun _ t₃ hbound ↦ ?_
  obtain ⟨q₀, hq₀, h₃⟩ := hbound
  rw [h₂, hrxIndex] at h₃
  rw [wp_bind]
  refine wp_mono (h.virtqueueNotify 0 t₃) fun _ t₄ h₄ ↦ ?_
  rw [wp_bind, wp_writeReg, wp_bind, wp_readReg]
  have h₅ : view (dev.write t₄ (.common 0x16 2) 1) = { view t₃ with queueSelect := 1 } := by
    rw [h.queueSelect, h₄]
    rfl
  generalize dev.write t₄ _ _ = t₅ at h₅ ⊢
  have hqueue₃ : (view t₃).queue = Function.update (fun i ↦ .idle (sizes i)) 0 q₀ := by
    rw [h₃, CommonConfig.bound, ← hqueue]
  have htxSize : (dev.read t₅ (.common 0x18 2)).1.toUInt16 = sizes 1 := by
    rw [h.queueSize_read, h₅, CommonConfig.selected, hqueue₃,
      Function.update_of_ne (by decide : (1 : UInt16) ≠ 0)]
    rfl
  have h₆ := (h.read t₅ (.common 0x18 2)).trans h₅
  generalize (dev.read t₅ _).2 = t₆ at h₆ ⊢
  rw [htxSize]
  have hstatus₃ : (view t₃).deviceStatus = 15 := by
    rw [h₃]
    exact hstatus
  have hfeature₃ : (view t₃).driverFeature = (view s).driverFeature := by rw [h₃]; rfl
  by_cases hnoTx : sizes 1 = 0
  · rw [if_pos hnoTx, wp_pure, h₆]
    refine ⟨hfeature₃, nofun, hstatus₃, hnoTx, hrxq.symm, ?_, fun i hi ↦ ?_⟩
    · show ((view t₃).queue 0).Holds rx
      rw [hqueue₃, Function.update_self]
      exact hq₀
    · show (view t₃).queue i = _
      rw [hqueue₃, Function.update_of_ne hi]
  rw [if_neg hnoTx]
  -- the TX queue
  obtain ⟨hdesc, havail, hused⟩ := virtqueueInit_addresses htx .zeroed (sizes 1) 1
  generalize htxq : virtqueueInit .zeroed (sizes 1) 1 txRingMem = tx at hdesc havail hused ⊢
  have htxIndex : tx.queueIndex = 1 := by
    rw [← htxq]
    rfl
  rw [wp_bind]
  refine wp_mono (h.virtioPciBindQueue tx hdesc havail hused t₆) fun _ t₇ hbound ↦ ?_
  obtain ⟨q₁, hq₁, h₇⟩ := hbound
  rw [h₆, htxIndex] at h₇
  have hqueue₇ : (view t₇).queue =
      Function.update (Function.update (fun i ↦ .idle (sizes i)) 0 q₀) 1 q₁ := by
    rw [h₇, CommonConfig.bound, ← hqueue₃]
  rw [wp_pure]
  refine ⟨?_, nofun, ?_, hrxq.symm, htxq.symm, ?_, ?_, fun i hi₀ hi₁ ↦ ?_⟩
  · rw [h₇]
    exact hfeature₃
  · rw [h₇]
    exact hstatus₃
  · rw [hqueue₇, Function.update_of_ne (by decide : (0 : UInt16) ≠ 1), Function.update_self]
    exact hq₀
  · rw [hqueue₇, Function.update_self]
    exact hq₁
  · rw [hqueue₇, Function.update_of_ne hi₁, Function.update_of_ne hi₀]

end Device.Conforming

/-- For every conforming device, whatever state it is in, the driver finishes. The features that it
took are those that the device offers of the hardware address, the descriptor layout and version 1.
Each side then has the other's queues, of the size that the device has and at the addresses where
the driver uses them, unless the device refuses the features; and no other queue is enabled. But the
driver declares itself ready when no queue is enabled yet. -/
theorem device_agreement {S : Type} (dev : Device S) (view : S → CommonConfig)
    (offered : UInt32 → UInt32) (accepts : (UInt32 → UInt32) → Bool) (sizes : UInt16 → UInt16)
    (h : dev.Conforming view offered accepts sizes) (rxRingMem txRingMem : Nat)
    (hrx : rxRingMem < 2 ^ 63) (htx : txRingMem < 2 ^ 63) (s : S) :
    ∃ n, ∀ turns, n < turns → ∃ ready outcome s',
      (dev.negotiate turns).run s = some (accepts (negotiated offered), ready) ∧
      (view ready).deviceStatus = (if accepts (negotiated offered) then 15 else 3) ∧
      (∀ i, ((view ready).queue i).enable = 0) ∧
      (dev.virtioNetInit turns rxRingMem txRingMem).run s = some (outcome, s') ∧
      (outcome = .refused ↔ accepts (negotiated offered) = false) ∧
      (view s').driverFeature 0 = offered 0 &&& 0x08000020 ∧
      (view s').driverFeature 1 = offered 1 &&& 1 ∧
      outcome.Agrees sizes rxRingMem txRingMem (view s') := by
  obtain ⟨n, hnegotiate⟩ := h.negotiate s
  refine ⟨n, fun turns hturns ↦ ?_⟩
  obtain ⟨accepted, ready, hrun, rfl, hfeature, hstatus, hqueue⟩ := hnegotiate turns hturns
  have hwords : ∀ g : CommonConfig, g.driverFeature = negotiated offered →
      g.driverFeature 0 = offered 0 &&& 0x08000020 ∧ g.driverFeature 1 = offered 1 &&& 1 := by
    intro g hg
    rw [hg, ← Device.accept0_eq, ← Device.accept1_eq]
    exact ⟨rfl, rfl⟩
  have hidle : ∀ i, ((view ready).queue i).enable = 0 := by
    intro i
    rw [hqueue]
    rfl
  cases hanswer : accepts (negotiated offered) with
  | false =>
      rw [hanswer] at hrun hstatus
      obtain ⟨hlow, hhigh⟩ := hwords _ hfeature
      refine ⟨ready, .refused, ready, hrun, hstatus, hidle, ?_, iff_of_true rfl rfl, hlow, hhigh,
        hstatus, hqueue⟩
      rw [Device.virtioNetInit, run_bind_of_run hrun]
      rfl
  | true =>
      rw [hanswer] at hrun hstatus
      -- the two words with the hardware address
      generalize hlow : (dev.read ready (.config 0)).2 = t
      generalize hhigh : (dev.read t (.config 4)).2 = t'
      have hview : view t' = view ready := by rw [← hhigh, h.read, ← hlow, h.read]
      rw [← hview] at hfeature hstatus hqueue
      obtain ⟨outcome, s', hsetup, hsame, hne, hagrees⟩ :=
        h.virtioNetSetupQueues hrx htx hstatus hqueue
      obtain ⟨hword₀, hword₁⟩ := hwords _ (hsame.trans hfeature)
      rw [hview] at hstatus
      refine ⟨ready, outcome, s', hrun, hstatus, hidle, ?_, iff_of_false hne Bool.noConfusion,
        hword₀, hword₁, hagrees⟩
      have hmacLow : (dev.readReg (.config 0)).run ready =
          some ((dev.read ready (.config 0)).1, t) := by
        rw [← hlow]
        rfl
      have hmacHigh : (dev.readReg (.config 4)).run t =
          some ((dev.read t (.config 4)).1, t') := by
        rw [← hhigh]
        rfl
      rw [Device.virtioNetInit, run_bind_of_run hrun, if_pos rfl, run_bind_of_run hmacLow,
        run_bind_of_run hmacHigh]
      exact hsetup

/-! ## Devices -/

/-- A device that returns the given values one after the other, whatever it is asked. -/
def Device.ofValues (values : Nat → UInt32) : Device Nat where
  read i _ := (values i, i + 1)
  write i _ _ := i

/-- A device with nothing but the registers. -/
def Device.virtio (offered : UInt32 → UInt32) (accepts : (UInt32 → UInt32) → Bool)
    (sizes : UInt16 → UInt16) : Device CommonConfig where
  read g r := (
    match r with
    | .common 0x04 4 => offered g.deviceFeatureSelect
    | .common 0x14 4 => g.deviceStatus
    | .common 0x18 2 => g.selected.size.toUInt32
    | _ => 0, g)
  write g r v :=
    match r with
    | .common 0x00 4 => { g with deviceFeatureSelect := v }
    | .common 0x08 4 => { g with driverFeatureSelect := v }
    | .common 0x0C 4 =>
        { g with driverFeature := Function.update g.driverFeature g.driverFeatureSelect v }
    | .common 0x14 4 =>
        if v = 0 then .reset sizes
        else { g with
          deviceStatus :=
            if v &&& virtioStatusFeatures ≠ 0 ∧ ¬ accepts g.driverFeature then
              v &&& ~~~virtioStatusFeatures
            else v }
    | .common 0x16 2 => { g with queueSelect := v.toUInt16 }
    | .common 0x18 2 => g.setSelected { g.selected with size := v.toUInt16 }
    | .common 0x1C 2 => g.setSelected { g.selected with enable := v.toUInt16 }
    | .common 0x20 4 => g.setSelected { g.selected with descLo := v }
    | .common 0x24 4 => g.setSelected { g.selected with descHi := v }
    | .common 0x28 4 => g.setSelected { g.selected with availLo := v }
    | .common 0x2C 4 => g.setSelected { g.selected with availHi := v }
    | .common 0x30 4 => g.setSelected { g.selected with usedLo := v }
    | .common 0x34 4 => g.setSelected { g.selected with usedHi := v }
    | _ => g

/-- It is as virtio describes a device. -/
theorem Device.virtio_conforming (offered : UInt32 → UInt32)
    (accepts : (UInt32 → UInt32) → Bool) (sizes : UInt16 → UInt16) :
    (Device.virtio offered accepts sizes).Conforming id offered accepts sizes where
  read _ _ := rfl
  doorbell _ _ _ := rfl
  reset _ := rfl
  reset_ends _ hs := ⟨0, hs⟩
  deviceStatus_read _ _ := rfl
  deviceStatus g _ hv _ := ⟨g.queueSelect, if_neg hv⟩
  deviceFeatureSelect _ _ := rfl
  deviceFeature _ := rfl
  driverFeatureSelect _ _ := rfl
  driverFeature _ _ _ := rfl
  queueSelect _ _ := rfl
  queueSize_read s := UInt16.toUInt16_toUInt32 s.selected.size
  queueSize _ _ := rfl
  queueEnable _ _ := rfl
  descLo _ _ := rfl
  descHi _ _ := rfl
  availLo _ _ := rfl
  availHi _ _ := rfl
  usedLo _ _ := rfl
  usedHi _ _ := rfl

/-- A device that offers all features and takes what the driver takes, with queues of 256. -/
theorem device_agreement_ready : ∃ rx tx turns g,
    ((Device.virtio (fun _ ↦ 0xFFFFFFFF) (fun _ ↦ true) fun _ ↦ 256).virtioNetInit turns
      0x40100000 0x40104000).run (.reset fun _ ↦ 256) = some (.ready rx tx, g) ∧
    g.driverFeature 0 = 0x08000020 ∧ (g.queue 0).Holds rx ∧ (g.queue 1).Holds tx := by
  obtain ⟨n, hagreement⟩ := device_agreement _ id _ _ _
    (Device.virtio_conforming (fun _ ↦ 0xFFFFFFFF) (fun _ ↦ true) fun _ ↦ 256) 0x40100000 0x40104000
    (by decide) (by decide) (.reset fun _ ↦ 256)
  obtain ⟨-, outcome, g, -, -, -, hrun, hrefused, hlow, -, hagrees⟩ :=
    hagreement (n + 1) n.lt_succ_self
  cases outcome with
  | refused => exact absurd (hrefused.mp rfl) Bool.noConfusion
  | noRx => exact absurd hagrees.2.1 (by decide)
  | noTx rx => exact absurd hagrees.2.1 (by decide)
  | ready rx tx =>
      obtain ⟨-, -, -, hrx, htx, -⟩ := hagrees
      exact ⟨rx, tx, n + 1, g, hrun, hlow, hrx, htx⟩

end Aether.Drivers
