import Aether.Drivers.Capabilities
import Aether.Drivers.Pcie
import Aether.Ethernet.Polling

/-!
# Which devices the drivers get

`pcie_init` with the drivers that the registry names. An entry of the registry has a device id, but
the scan compares vendor ids only, so every virtio device is taken for the network device.
`drivers_bind_iff` says for which devices on the bus this makes no difference.
-/

namespace Aether.Ethernet

open ByteMemory Kernel Drivers Program

/-- The rest of the system during the enumeration: the network stack, the page tables, and the
device number in `global_vnet_dev`. -/
structure Host where
  node : Node
  mmu : Mmu
  netFunction : Option Nat

/-- Before the enumeration. -/
def Host.boot (node : Node) (mmu : Mmu) : Host := ⟨node, mmu, none⟩

/-- The hardware behind each device number: what the registers of a virtio device return, what the
register block of an xHCI controller at an address does, and the turns that its walk is allowed. -/
structure Hardware where
  probe : Nat → Probe
  xhci : Nat → XhciRegs
  turns : Nat

/-- `virtio_pci_init` of a device with the given configuration space. -/
def Probe.virtioPciInitAt (c : Probe) (dev : Nat) (cfg : ConfigSpace) (h : Host) : Option Host := do
  let (vdev, σ) ← (callKmalloc sizeofVirtioPciDevice).run h.node
  if vdev = 0 then some { h with node := σ }
  else
    let (banks, mmu) ← virtioPciCapLookup cfg c.turns ⟨0, 0, 0, 0, 0⟩ h.mmu
    if banks.common ≠ 0 ∧ banks.device ≠ 0 then
      let published : Node := { σ with
        globalVnetDev := some
          ⟨vdev, load 8 σ.heap.mem (vdev + 56) ≠ 0, load 8 σ.heap.mem (vdev + 64) ≠ 0⟩ }
      let (_, σ) ← c.virtioNetInit.run published
      some ⟨σ, mmu, some dev⟩
    else some { h with node := σ, mmu := mmu }

/-- `xhci_init`. The waits for the controller after the hand-over have time limits. -/
def Hardware.xhciInit (hw : Hardware) (dev : Nat) (cfg : ConfigSpace) (h : Host) : Option Host := do
  let (base, mmu) ← ioremap h.mmu (barAddress cfg 0) 0x4000
  if base = 0 then some { h with mmu := mmu }
  else
    let _ ← (hw.xhci dev).xhciClaimOwnership (UInt64.ofNat base) hw.turns
    some { h with mmu := mmu }

/-- The drivers. -/
def Hardware.driverInit (hw : Hardware) : DriverInit Host
  | .virtioPciInit, dev, cfg, h => (hw.probe dev).virtioPciInitAt dev cfg h
  | .xhciInit, dev, cfg, h => hw.xhciInit dev cfg h

/-! ## What drivers are for -/

/-- The entry of the registry names the function by both ids, or by its class code. -/
def IsFor (drv : PciDriver) (f : PciFunction) : Prop :=
  f.vendor = drv.vendorId ∧ f.deviceId = drv.deviceId ∨
    drv.classCode ≠ 0 ∧ f.classCode = drv.classCode

/-- A virtio network device, by the ids of the transitional and of the modern kind. -/
def IsVirtioNet (f : PciFunction) : Prop :=
  f.vendor = 0x1AF4 ∧ (f.deviceId = 0x1000 ∨ f.deviceId = 0x1041)

instance (drv : PciDriver) (f : PciFunction) : Decidable (IsFor drv f) :=
  inferInstanceAs (Decidable (_ ∨ _))

instance (f : PciFunction) : Decidable (IsVirtioNet f) := inferInstanceAs (Decidable (_ ∧ _))

/-- Drivers are called for their own functions only, and the network driver has a network device. -/
structure BindsOwn (bus : Bus) (s : Pcie Host) : Prop where
  calls : ∀ dev drv, (dev, drv) ∈ s.initCalls → IsFor drv (bus dev)
  network : ∀ dev, s.host.netFunction = some dev → IsVirtioNet (bus dev)

/-! ## Calls -/

section Calls

variable {bus : Bus} {dev : Nat} {drv : PciDriver} {hw : Hardware}

/-- The registry has two entries with drivers. -/
theorem driver_cases {f : PciFunction} (hdriver : f.driver = some drv) (hinit : drv.init.isSome) :
    f.vendor = 0x1AF4 ∧ drv = ⟨0x1AF4, 0x1000, 0, some .virtioPciInit, "VirtIO Net Controller"⟩ ∨
    f.classCode = pciClassCodeXhci ∧
      drv = ⟨0, 0, pciClassCodeXhci, some .xhciInit, "Generic xHCI USB 3.0"⟩ := by
  unfold PciFunction.driver at hdriver
  have hmatches : drv.Matches f.vendor f.classCode := by simpa using List.find?_some hdriver
  have hmem := List.mem_of_find?_eq_some hdriver
  simp only [driverRegistry, List.mem_cons, List.not_mem_nil, or_false] at hmem
  rcases hmem with rfl | rfl | rfl
  · exact .inl ⟨(hmatches.resolve_right fun h ↦ h.1 rfl).2, rfl⟩
  · exact .inr ⟨(hmatches.resolve_left fun h ↦ h.1 rfl).2, rfl⟩
  · cases hinit

/-- Every function of the virtio vendor is taken for the network device. -/
theorem driver_virtio {f : PciFunction} (hvendor : f.vendor = 0x1AF4) : f.driver =
    some ⟨0x1AF4, 0x1000, 0, some .virtioPciInit, "VirtIO Net Controller"⟩ := by
  rw [PciFunction.driver, driverRegistry, List.find?_cons_of_pos]
  exact decide_eq_true (.inl ⟨by decide, hvendor⟩)

theorem mem_initCallsOf {n : Nat} : (dev, drv) ∈ initCallsOf bus n ↔
    dev < n ∧ (bus dev).Present ∧ (bus dev).driver = some drv ∧ drv.init.isSome := by
  unfold initCallsOf
  rw [List.mem_flatMap]
  constructor
  · rintro ⟨dev', hdev', hmem⟩
    split at hmem
    · rename_i hpresent
      obtain ⟨drv', hdrv', heq⟩ := List.mem_map.mp hmem
      cases heq
      obtain ⟨hdriver, hinit⟩ := List.mem_filter.mp hdrv'
      exact ⟨List.mem_range.mp hdev', hpresent, Option.mem_toList.mp hdriver, hinit⟩
    · cases hmem
  · rintro ⟨hdev, hpresent, hdriver, hinit⟩
    refine ⟨dev, List.mem_range.mpr hdev, ?_⟩
    rw [if_pos hpresent, hdriver]
    exact List.mem_map.mpr ⟨drv, List.mem_filter.mpr ⟨List.mem_singleton_self drv, hinit⟩, rfl⟩

/-- Only `virtio_pci_init` sets `global_vnet_dev`, to its own device. -/
theorem driverInit_network {i : PciInit} {cfg : ConfigSpace} {h h' : Host}
    (hrun : hw.driverInit i dev cfg h = some h') :
    h'.netFunction = h.netFunction ∨ i = .virtioPciInit ∧ h'.netFunction = some dev := by
  cases i with
  | virtioPciInit =>
      obtain ⟨⟨vdev, σ⟩, -, hrest⟩ := Option.bind_eq_some_iff.mp hrun
      dsimp only at hrest
      split at hrest
      · cases hrest
        exact .inl rfl
      obtain ⟨⟨banks, mmu⟩, -, hrest⟩ := Option.bind_eq_some_iff.mp hrest
      dsimp only at hrest
      split at hrest
      · obtain ⟨_, -, hrest⟩ := Option.bind_eq_some_iff.mp hrest
        cases hrest
        exact .inr ⟨rfl, rfl⟩
      · cases hrest
        exact .inl rfl
  | xhciInit =>
      obtain ⟨⟨base, mmu⟩, -, hrest⟩ := Option.bind_eq_some_iff.mp hrun
      dsimp only at hrest
      split at hrest
      · cases hrest
        exact .inl rfl
      obtain ⟨_, -, hrest⟩ := Option.bind_eq_some_iff.mp hrest
      cases hrest
      exact .inl rfl

/-- The device in `global_vnet_dev` is one that `virtio_pci_init` was called for. -/
theorem network_called {node : Node} {mmu : Mmu} {s : Pcie Host}
    (h : pcieInit hw.driverInit (.boot bus (.boot node mmu)) = some s)
    (hdev : s.host.netFunction = some dev) :
    ∃ drv, (dev, drv) ∈ s.initCalls ∧ drv.init = some .virtioPciInit := by
  refine foldlM_range (fun _ s ↦ ∀ dev, s.host.netFunction = some dev →
    ∃ drv, (dev, drv) ∈ s.initCalls ∧ drv.init = some .virtioPciInit) ?_ ?_ h dev hdev
  · intro dev hnone
    cases hnone
  · intro n _ t t' ht hvisit dev hdev
    rcases visitDevice_cases hvisit with ⟨hhost, hcalls⟩ | ⟨drv, i, cfg, hinit, hcalls, hrun⟩
    · rw [hcalls]
      exact ht dev (hhost ▸ hdev)
    · rw [hcalls]
      rcases driverInit_network hrun with hsame | ⟨rfl, hset⟩
      · obtain ⟨drv', hmem, hdrv'⟩ := ht dev (hsame ▸ hdev)
        exact ⟨drv', List.mem_append_left _ hmem, hdrv'⟩
      · obtain rfl : n = dev := Option.some.inj (hset.symm.trans hdev)
        exact ⟨drv, List.mem_append_right _ (List.mem_singleton_self _), hinit⟩

end Calls

/-- For every population of bus 0 with which `pcie_init` returns: it calls drivers for their own
functions only, and the device in `global_vnet_dev` is a virtio network device, if and only if no
function of the virtio vendor has another device id than the registry's. -/
theorem drivers_bind_iff (bus : Bus) (hw : Hardware) (node : Node) (mmu : Mmu) (s : Pcie Host)
    (h : pcieInit hw.driverInit (.boot bus (.boot node mmu)) = some s) : BindsOwn bus s ↔
      ∀ dev < 32, (bus dev).vendor = 0x1AF4 → (bus dev).deviceId = 0x1000 := by
  have hcalls := (visited_pcieInit h).calls
  constructor
  · intro hbinds dev hdev hvendor
    have hdriver := driver_virtio hvendor
    have hpresent : (bus dev).Present := by
      rw [PciFunction.Present, hvendor]
      decide
    have hown := hbinds.calls dev _ (hcalls ▸ mem_initCallsOf.mpr ⟨hdev, hpresent, hdriver, rfl⟩)
    exact (hown.resolve_right fun hclass ↦ hclass.1 rfl).2
  · intro hids
    have hcalled : ∀ dev drv, (dev, drv) ∈ s.initCalls →
        (bus dev).vendor = 0x1AF4 ∧ (bus dev).deviceId = 0x1000 ∧
          drv = ⟨0x1AF4, 0x1000, 0, some .virtioPciInit, "VirtIO Net Controller"⟩ ∨
        (bus dev).classCode = pciClassCodeXhci ∧
          drv = ⟨0, 0, pciClassCodeXhci, some .xhciInit, "Generic xHCI USB 3.0"⟩ := by
      intro dev drv hmem
      rw [hcalls] at hmem
      obtain ⟨hdev, -, hdriver, hinit⟩ := mem_initCallsOf.mp hmem
      rcases driver_cases hdriver hinit with ⟨hvendor, hdrv⟩ | hxhci
      · exact .inl ⟨hvendor, hids dev hdev hvendor, hdrv⟩
      · exact .inr hxhci
    constructor
    · intro dev drv hmem
      rcases hcalled dev drv hmem with ⟨hvendor, hdevice, rfl⟩ | ⟨hclass, rfl⟩
      · exact .inl ⟨hvendor, hdevice⟩
      · exact .inr ⟨by decide, hclass⟩
    · intro dev hdev
      obtain ⟨drv, hmem, hinit⟩ := network_called h hdev
      rcases hcalled dev drv hmem with ⟨hvendor, hdevice, -⟩ | ⟨-, rfl⟩
      · exact ⟨hvendor, .inl hdevice⟩
      · cases hinit

/-- A virtio device with the given ids alone on the bus, with the two banks that the driver needs.
-/
def virtioBus (ids : UInt32) : Bus := fun dev ↦
  if dev = 0 then
    ⟨fun offset ↦ if offset = 0x00 then ids else Probe.sampleConfig offset, fun _ ↦ 0⟩
  else ⟨fun _ ↦ 0xFFFFFFFF, fun _ ↦ 0⟩

/-- Devices that accept their features. -/
def Hardware.sample : Hardware := ⟨fun _ ↦ .sample 0x0B, fun _ ↦ ⟨fun _ ↦ 0, fun _ ↦ 0⟩, 0⟩

/-- The enumeration of that bus. -/
def enumerateVirtio (ids : UInt32) : Option (Pcie Host) :=
  pcieInit Hardware.sample.driverInit
    (.boot (virtioBus ids) (.boot (Probe.sample 0x0B).boot (Probe.sample 0x0B).mmu))

/-- A network device is published as one. -/
theorem drivers_bind_iff_network : ∃ s, enumerateVirtio 0x10001AF4 = some s ∧
    s.host.netFunction = some 0 ∧ BindsOwn (virtioBus 0x10001AF4) s := by
  have hnet : (enumerateVirtio 0x10001AF4).map (fun s ↦ s.host.netFunction) = some (some 0) := by
    decide +kernel
  obtain ⟨s, hs, hdev⟩ := Option.map_eq_some_iff.mp hnet
  refine ⟨s, hs, hdev, (drivers_bind_iff _ _ _ _ s hs).mpr ?_⟩
  decide +kernel

/-- So is a block device. -/
theorem drivers_bind_block : ∃ s, enumerateVirtio 0x10011AF4 = some s ∧
    s.host.netFunction = some 0 ∧ ¬ IsVirtioNet (virtioBus 0x10011AF4 0) ∧
      ¬ BindsOwn (virtioBus 0x10011AF4) s := by
  have hnet : (enumerateVirtio 0x10011AF4).map (fun s ↦ s.host.netFunction) = some (some 0) := by
    decide +kernel
  obtain ⟨s, hs, hdev⟩ := Option.map_eq_some_iff.mp hnet
  have hblock : ¬ IsVirtioNet (virtioBus 0x10011AF4 0) := by decide
  exact ⟨s, hs, hdev, hblock, fun hbinds ↦ hblock (hbinds.network 0 hdev)⟩

end Aether.Ethernet
