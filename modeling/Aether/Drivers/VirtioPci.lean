import Aether.Kernel.Mmu
import Aether.Lib.Chains
import Mathlib.Data.UInt

/-!
# The PCI transport of virtio

`pcie_read_config` of `pcie.c` and the capability walk of `virtio_pci.c`. The configuration space of
the function is what reads of its registers return; nothing that the walk does changes it.
-/

namespace Aether.Drivers

open Kernel Chains

/-- The registers of the configuration space of one function, by offset. -/
abbrev ConfigSpace := Nat → UInt32

/-- `pcie_read_config`. -/
def pcieReadConfig (cfg : ConfigSpace) (reg : Nat) : UInt32 :=
  let val := cfg (reg &&& 0xFFC)
  let byteOffset := reg &&& 0x3
  if byteOffset = 0 then val else val >>> UInt32.ofNat (byteOffset * 8)

/-- The mapped banks of `struct virtio_pci_device`, as addresses. -/
structure VirtioPciBanks where
  common : Nat
  device : Nat
  isr : Nat
  notifyBase : Nat
  notifyOffMultiplier : UInt32
  deriving DecidableEq

/-- `VIRTIO_PCI_CAP_COMMON_CFG`. -/
def virtioPciCapCommonCfg : UInt8 := 1

/-- `VIRTIO_PCI_CAP_NOTIFY_CFG`. -/
def virtioPciCapNotifyCfg : UInt8 := 2

/-- `VIRTIO_PCI_CAP_ISR_CFG`. -/
def virtioPciCapIsrCfg : UInt8 := 3

/-- `VIRTIO_PCI_CAP_DEVICE_CFG`. -/
def virtioPciCapDeviceCfg : UInt8 := 4

/-- `phys_addr` in `virtio_pci_map_capability`, from a BAR of 32 or 64 bits. -/
def barAddress (cfg : ConfigSpace) (bar : UInt8) : Nat :=
  let barLow := pcieReadConfig cfg (0x10 + bar.toNat * 4)
  let physAddr := (barLow &&& 0xFFFFFFF0).toNat
  if barLow &&& 0x6 = 0x4 then
    physAddr ||| ((pcieReadConfig cfg (0x10 + bar.toNat * 4 + 4)).toNat <<< 32)
  else physAddr

/-- The `switch (type)` of `virtio_pci_map_capability`. -/
def storeBank (cfg : ConfigSpace) (banks : VirtioPciBanks) (type capPtr : UInt8)
    (virtAddr : Nat) : VirtioPciBanks :=
  if type = virtioPciCapCommonCfg then { banks with common := virtAddr }
  else if type = virtioPciCapDeviceCfg then { banks with device := virtAddr }
  else if type = virtioPciCapIsrCfg then { banks with isr := virtAddr }
  else if type = virtioPciCapNotifyCfg then
    { banks with
      notifyBase := virtAddr
      notifyOffMultiplier := pcieReadConfig cfg (capPtr.toNat + 16) }
  else banks

/-- `virtio_pci_map_capability`. The result is `none` when `ioremap` does not return. -/
def virtioPciMapCapability (cfg : ConfigSpace) (banks : VirtioPciBanks) (mmu : Mmu)
    (type bar : UInt8) (offset length : UInt32) (capPtr : UInt8) :
    Option (VirtioPciBanks × Mmu) :=
  let physAddr := barAddress cfg bar
  if physAddr = 0 then some (banks, mmu)
  else
    (ioremap mmu ((physAddr + offset.toNat) % 2 ^ 64) length.toNat).map fun (virtAddr, mmu) ↦
      (if virtAddr = 0 then banks else storeBank cfg banks type capPtr virtAddr, mmu)

/-- The next pointer of the capability at `capPtr`. -/
def capNextPtr (cfg : ConfigSpace) (capPtr : UInt8) : UInt8 :=
  ((pcieReadConfig cfg capPtr.toNat >>> 8) &&& 0xFF).toUInt8

/-- What the loop of `virtio_pci_cap_lookup` does with the capability at `capPtr`. -/
def capVisit (cfg : ConfigSpace) (banks : VirtioPciBanks) (mmu : Mmu) (capPtr : UInt8) :
    Option (VirtioPciBanks × Mmu) :=
  let d0 := pcieReadConfig cfg capPtr.toNat
  let capId := (d0 &&& 0xFF).toUInt8
  -- a vendor-specific capability
  if capId = 0x09 then
    let type := ((d0 >>> 24) &&& 0xFF).toUInt8
    let d1 := pcieReadConfig cfg (capPtr.toNat + 4)
    let bar := (d1 &&& 0xFF).toUInt8
    let offset := pcieReadConfig cfg (capPtr.toNat + 8)
    let length := pcieReadConfig cfg (capPtr.toNat + 12)
    virtioPciMapCapability cfg banks mmu type bar offset length capPtr
  else some (banks, mmu)

/-- The loop of `virtio_pci_cap_lookup`, `none` when it outlasts its turns. -/
def capLoop (cfg : ConfigSpace) : Nat → UInt8 → VirtioPciBanks → Mmu →
    Option (VirtioPciBanks × Mmu)
  | 0, _, _, _ => none
  | turns + 1, capPtr, banks, mmu =>
      if capPtr ≠ 0 ∧ capPtr < 0xFF then
        (capVisit cfg banks mmu capPtr).bind fun (banks, mmu) ↦
          capLoop cfg turns (capNextPtr cfg capPtr) banks mmu
      else some (banks, mmu)

/-- The capability pointer in the header. -/
def capHead (cfg : ConfigSpace) : UInt8 := (pcieReadConfig cfg 0x34 &&& 0xFF).toUInt8

/-- `virtio_pci_cap_lookup`, allowed a number of turns. -/
def virtioPciCapLookup (cfg : ConfigSpace) (turns : Nat) (banks : VirtioPciBanks) (mmu : Mmu) :
    Option (VirtioPciBanks × Mmu) :=
  capLoop cfg turns (capHead cfg) banks mmu

/-! ## The walk -/

/-- The capability after the one at `capPtr`, which the loop visits. -/
def capNext (cfg : ConfigSpace) (capPtr : UInt8) : Option UInt8 :=
  if capPtr ≠ 0 ∧ capPtr < 0xFF then some (capNextPtr cfg capPtr) else none

/-- The loop of `mmu_map_region` ends within a turn per page and one. -/
theorem mapLoop_returns {size flags : Nat} (hsize : size < 2 ^ 63) (n : Nat) {turns mapped : Nat}
    (hturns : n < turns) (hleft : size ≤ mapped + 4096 * n) (hmapped : mapped ≤ size + 4096)
    (kpt : KernelPt) (v p : Nat) : (mapLoop size flags turns kpt v p mapped).isSome := by
  induction n generalizing turns mapped kpt v p with
  | zero =>
      obtain ⟨turns, rfl⟩ := Nat.exists_eq_add_of_lt hturns
      rw [mapLoop, if_neg (by omega)]
      rfl
  | succ n ih =>
      obtain ⟨turns, rfl⟩ : ∃ m, turns = m + 1 := ⟨turns - 1, by omega⟩
      rw [mapLoop]
      by_cases hmore : mapped < size
      · rw [if_pos hmore]
        exact ih (by omega) (by omega) (by omega) _ _ _
      · rw [if_neg hmore]
        rfl

/-- `ioremap` returns for every length of 32 bits. -/
theorem ioremap_returns (m : Mmu) (physAddr : Nat) {size : Nat} (hsize : size < 2 ^ 32) :
    (ioremap m physAddr size).isSome := by
  unfold ioremap
  split
  · rfl
  · dsimp only
    split
    · rfl
    · have hoffset : physAddr % pageSize < 4096 := Nat.mod_lt _ (by decide)
      have hpages : pageCeil ((physAddr % pageSize + size) % 2 ^ 64) < 2 ^ 34 := by
        unfold pageCeil pageFloor pageSize at *
        omega
      rw [Option.isSome_map, mmuMapRegion]
      exact mapLoop_returns (by omega)
        (pageCeil ((physAddr % pageSize + size) % 2 ^ 64) / 4096 + 1) (by omega) (by omega)
        (by omega) _ _ _

/-- The visit of a capability returns. -/
theorem capVisit_returns (cfg : ConfigSpace) (banks : VirtioPciBanks) (mmu : Mmu)
    (capPtr : UInt8) : (capVisit cfg banks mmu capPtr).isSome := by
  unfold capVisit virtioPciMapCapability
  dsimp only
  split
  · split
    · rfl
    · rw [Option.isSome_map]
      exact ioremap_returns mmu _ (UInt32.toNat_lt _)
  · rfl

/-- The loop returns when the walk over the pointers ends, and takes as many turns. -/
theorem capLoop_isSome (cfg : ConfigSpace) (turns : Nat) (capPtr : UInt8) (banks : VirtioPciBanks)
    (mmu : Mmu) : (capLoop cfg turns capPtr banks mmu).isSome =
      (visits (capNext cfg) turns capPtr).isSome := by
  induction turns generalizing capPtr banks mmu with
  | zero => rfl
  | succ turns ih =>
      by_cases hlive : capPtr ≠ 0 ∧ capPtr < 0xFF
      · have hnext : capNext cfg capPtr = some (capNextPtr cfg capPtr) := if_pos hlive
        obtain ⟨⟨banks', mmu'⟩, hvisit⟩ :=
          Option.isSome_iff_exists.mp (capVisit_returns cfg banks mmu capPtr)
        rw [capLoop, if_pos hlive, hvisit, Option.bind_some, ih, visits_hop hnext,
          Option.isSome_map]
      · have hnext : capNext cfg capPtr = none := if_neg hlive
        rw [capLoop, if_neg hlive, visits_stop hnext]
        rfl

end Aether.Drivers
