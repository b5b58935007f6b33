import Aether.Drivers.VirtioPci
import Mathlib.Data.List.Nodup
import Mathlib.Tactic.IntervalCases

/-!
# PCI enumeration

`pcie_init` and `pcie_probe_device` of `pcie.c` on bus 0. A function is its configuration space and
the bits of each register that a write changes. What a driver does is a parameter: no driver writes
to the configuration space. `enumerated_init` says which registers are written, and with what.
-/

namespace Aether.Drivers

/-! ## The registry -/

/-- The functions that registry entries name as `init`. -/
inductive PciInit where
  | virtioPciInit
  | xhciInit
  deriving DecidableEq

/-- `struct pci_driver`. -/
structure PciDriver where
  vendorId : UInt16
  deviceId : UInt16
  classCode : UInt32
  init : Option PciInit
  name : String
  deriving DecidableEq

/-- `PCI_CLASS_CODE_XHCI`. -/
def pciClassCodeXhci : UInt32 := 0x0C0330

/-- `driver_registry` without the entry that ends it. -/
def driverRegistry : List PciDriver := [
  ⟨0x1AF4, 0x1000, 0x0, some .virtioPciInit, "VirtIO Net Controller"⟩,
  ⟨0x0, 0x0, pciClassCodeXhci, some .xhciInit, "Generic xHCI USB 3.0"⟩,
  ⟨0x1B36, 0x0001, 0x0, none, "QEMU PCI Bridge"⟩]

/-- The test of `pcie_probe_device`. -/
def PciDriver.Matches (drv : PciDriver) (vendor : UInt16) (classCode : UInt32) : Prop :=
  drv.vendorId ≠ 0 ∧ vendor = drv.vendorId ∨ drv.classCode ≠ 0 ∧ classCode = drv.classCode

instance (drv : PciDriver) (vendor : UInt16) (classCode : UInt32) :
    Decidable (drv.Matches vendor classCode) :=
  inferInstanceAs (Decidable (_ ∨ _))

/-! ## Functions -/

/-- A function on the bus: its registers, and the bits of each that a write changes. -/
structure PciFunction where
  cfg : ConfigSpace
  writable : Nat → UInt32

/-- What a register holds after a write. -/
def PciFunction.written (f : PciFunction) (offset : Nat) (val : UInt32) : UInt32 :=
  (f.cfg offset &&& ~~~f.writable offset) ||| (val &&& f.writable offset)

/-- `pcie_write_config`. -/
def pcieWriteConfig (f : PciFunction) (reg : Nat) (val : UInt32) : PciFunction :=
  let offset := reg &&& 0xFFC
  { f with cfg := Function.update f.cfg offset (f.written offset val) }

namespace PciFunction

variable (f : PciFunction)

/-- The vendor id. -/
def vendor : UInt16 := (pcieReadConfig f.cfg 0x00 &&& 0xFFFF).toUInt16

/-- The device id, which the enumeration never looks at. -/
def deviceId : UInt16 := (pcieReadConfig f.cfg 0x00 >>> 16).toUInt16

/-- The class code. -/
def classCode : UInt32 := (pcieReadConfig f.cfg 0x08 >>> 8) &&& 0xFFFFFF

/-- `pcie_init` does not skip the function. -/
def Present : Prop := ¬ (f.vendor = 0xFFFF ∨ f.vendor = 0x0000)

instance : Decidable f.Present := inferInstanceAs (Decidable (¬ _))

/-- The registry entry that `pcie_probe_device` takes. -/
def driver : Option PciDriver :=
  driverRegistry.find? fun drv ↦ drv.Matches f.vendor f.classCode

/-- `pcie_probe_device` takes the register for a BAR without an address. -/
def Zeroed (barIdx : Nat) : Prop :=
  let barVal := pcieReadConfig f.cfg (0x10 + barIdx * 4)
  barVal ≠ 0 ∧ barVal &&& 0xFFFFFFF0 = 0

instance (barIdx : Nat) : Decidable (f.Zeroed barIdx) := inferInstanceAs (Decidable (_ ∧ _))

end PciFunction

/-- The function 0 of each device on bus 0. -/
abbrev Bus := Nat → PciFunction

/-! ## Enumeration -/

/-- The variables of `pcie.c`, the bus, and the state `host` of everything else. `assigned` and
`initCalls` record the addresses that were written to BARs, by device and BAR, and the calls of
drivers. -/
structure Pcie (S : Type) where
  bus : Bus
  nextPciMemAddr : UInt32
  totalPciDevices : UInt32
  host : S
  assigned : List (Nat × Nat × UInt32)
  initCalls : List (Nat × PciDriver)

section Enumeration

variable {S : Type}

/-- Write to a register of the function of a device. -/
def Pcie.writeConfig (s : Pcie S) (dev reg : Nat) (val : UInt32) : Pcie S :=
  { s with bus := Function.update s.bus dev (pcieWriteConfig (s.bus dev) reg val) }

/-- Assign the next address of the pool to a BAR. -/
def assignBar (dev : Nat) (s : Pcie S) (barIdx : Nat) : Pcie S :=
  { s.writeConfig dev (0x10 + barIdx * 4) s.nextPciMemAddr with
    nextPciMemAddr := s.nextPciMemAddr + 0x100000
    assigned := s.assigned ++ [(dev, barIdx, s.nextPciMemAddr)] }

/-- The loop over the BARs in `pcie_probe_device`. -/
def barLoop (dev : Nat) (slots : List Nat) (s : Pcie S) : Pcie S :=
  slots.foldl (fun s barIdx ↦ if (s.bus dev).Zeroed barIdx then assignBar dev s barIdx else s) s

/-- What `pcie_probe_device` writes to a function that has a driver. -/
def enableFunction (dev : Nat) (s : Pcie S) : Pcie S :=
  let s := barLoop dev (List.range 6) s
  let cmd := pcieReadConfig (s.bus dev).cfg 0x04 &&& 0xFFFF
  s.writeConfig dev 0x04 (cmd ||| 0x0006)

/-- What drivers do to the rest of the system, `none` when they do not return. -/
abbrev DriverInit (S : Type) := PciInit → Nat → ConfigSpace → S → Option S

/-- `pcie_probe_device`. -/
def pcieProbeDevice (init : DriverInit S) (dev : Nat) (s : Pcie S) : Option (Pcie S) :=
  let f := s.bus dev
  let s := { s with totalPciDevices := s.totalPciDevices + 1 }
  match f.driver with
  | none => some s
  | some drv =>
      let s := enableFunction dev s
      match drv.init with
      | none => some s
      | some driverInit =>
          (init driverInit dev (s.bus dev).cfg s.host).map fun host ↦
            { s with host := host, initCalls := s.initCalls ++ [(dev, drv)] }

/-- What the loop of `pcie_init` does with a device. -/
def visitDevice (init : DriverInit S) (s : Pcie S) (dev : Nat) : Option (Pcie S) :=
  if (s.bus dev).Present then pcieProbeDevice init dev s else some s

/-- `pcie_init`. -/
def pcieInit (init : DriverInit S) (s : Pcie S) : Option (Pcie S) :=
  (List.range 32).foldlM (visitDevice init) { s with totalPciDevices := 0 }

/-- Before `pcie_init`. -/
def Pcie.boot (bus : Bus) (host : S) : Pcie S := ⟨bus, 0x10000000, 0, host, [], []⟩

/-! ## Which registers are written -/

/-- The pool's address after `i` assignments. -/
def poolAddress (i : Nat) : UInt32 := 0x10000000 + 0x100000 * UInt32.ofNat i

/-- The BARs of the function that are assigned addresses. -/
def PciFunction.zeroedBars (f : PciFunction) : List Nat :=
  if f.Present ∧ f.driver.isSome then (List.range 6).filter fun barIdx ↦ f.Zeroed barIdx else []

/-- The BARs of the first `n` devices that are assigned addresses, in the order of the scan. -/
def zeroedRegisters (bus : Bus) (n : Nat) : List (Nat × Nat) :=
  (List.range n).flatMap fun dev ↦ (bus dev).zeroedBars.map (Prod.mk dev)

/-- The calls of drivers for the first `n` devices. -/
def initCallsOf (bus : Bus) (n : Nat) : List (Nat × PciDriver) :=
  (List.range n).flatMap fun dev ↦
    if (bus dev).Present then
      ((bus dev).driver.toList.filter fun drv ↦ drv.init.isSome).map (Prod.mk dev)
    else []

/-- The registers `rs` have been assigned addresses, and nothing else that matters has changed. -/
structure Pcie.Enumerated (bus : Bus) (rs : List (Nat × Nat)) (s : Pcie S) : Prop where
  next : s.nextPciMemAddr = poolAddress rs.length
  assigned : s.assigned = rs.zipIdx.map fun r ↦ (r.1.1, r.1.2, poolAddress r.2)
  bar : ∀ dev, ∀ slot < 6, (s.bus dev).cfg (0x10 + slot * 4) =
    if (dev, slot) ∈ rs then
      (bus dev).written (0x10 + slot * 4) (poolAddress (rs.idxOf (dev, slot)))
    else (bus dev).cfg (0x10 + slot * 4)
  ids : ∀ dev, (s.bus dev).cfg 0x00 = (bus dev).cfg 0x00
  classCode : ∀ dev, (s.bus dev).cfg 0x08 = (bus dev).cfg 0x08
  writable : ∀ dev, (s.bus dev).writable = (bus dev).writable

/-- The register of a BAR. -/
theorem pcieReadConfig_bar (cfg : ConfigSpace) {slot : Nat} (hslot : slot < 6) :
    pcieReadConfig cfg (0x10 + slot * 4) = cfg (0x10 + slot * 4) := by
  interval_cases slot <;> rfl

theorem pcieWriteConfig_bar (f : PciFunction) {slot : Nat} (hslot : slot < 6) (val : UInt32) :
    pcieWriteConfig f (0x10 + slot * 4) val = { f with
      cfg := Function.update f.cfg (0x10 + slot * 4) (f.written (0x10 + slot * 4) val) } := by
  interval_cases slot <;> rfl

theorem poolAddress_succ (i : Nat) : poolAddress (i + 1) = poolAddress i + 0x100000 := by
  unfold poolAddress
  rw [UInt32.ofNat_add]
  grind

section Steps

variable {bus : Bus} {rs : List (Nat × Nat)} {s : Pcie S}

/-- Before anything is written. -/
theorem Pcie.Enumerated.boot (bus : Bus) (host : S) (total : UInt32) :
    Enumerated bus [] { Pcie.boot bus host with totalPciDevices := total } where
  next := rfl
  assigned := rfl
  bar _ _ _ := rfl
  ids _ := rfl
  classCode _ := rfl
  writable _ := rfl

/-- A write to another register than those of the BARs and the ids. -/
theorem Pcie.Enumerated.command (h : s.Enumerated bus rs) (dev : Nat) (val : UInt32) :
    (s.writeConfig dev 0x04 val).Enumerated bus rs := by
  have hbus : ∀ dev', ((s.writeConfig dev 0x04 val).bus dev').writable = (s.bus dev').writable ∧
      ∀ offset, offset ≠ 0x04 →
        ((s.writeConfig dev 0x04 val).bus dev').cfg offset = (s.bus dev').cfg offset := by
    intro dev'
    show (Function.update s.bus dev _ dev').writable = _ ∧
      ∀ offset, offset ≠ 0x04 → (Function.update s.bus dev _ dev').cfg offset = _
    by_cases hdev : dev' = dev
    · rw [hdev, Function.update_self]
      exact ⟨rfl, fun offset hoffset ↦ Function.update_of_ne hoffset _ _⟩
    · rw [Function.update_of_ne hdev]
      exact ⟨rfl, fun _ _ ↦ rfl⟩
  exact {
    next := h.next
    assigned := h.assigned
    bar := fun dev' slot hslot ↦ ((hbus dev').2 _ (by omega)).trans (h.bar dev' slot hslot)
    ids := fun dev' ↦ ((hbus dev').2 _ (by decide)).trans (h.ids dev')
    classCode := fun dev' ↦ ((hbus dev').2 _ (by decide)).trans (h.classCode dev')
    writable := fun dev' ↦ (hbus dev').1.trans (h.writable dev') }

/-- The next BAR is assigned an address. -/
theorem Pcie.Enumerated.assign (h : s.Enumerated bus rs) {dev slot : Nat} (hslot : slot < 6)
    (hnew : (dev, slot) ∉ rs) : (assignBar dev s slot).Enumerated bus (rs ++ [(dev, slot)]) := by
  have hold : (s.bus dev).cfg (0x10 + slot * 4) = (bus dev).cfg (0x10 + slot * 4) := by
    rw [h.bar dev slot hslot, if_neg hnew]
  have hbus : (assignBar dev s slot).bus = Function.update s.bus dev
      ⟨Function.update (s.bus dev).cfg (0x10 + slot * 4)
        ((bus dev).written (0x10 + slot * 4) (poolAddress rs.length)), (s.bus dev).writable⟩ := by
    show Function.update s.bus dev (pcieWriteConfig (s.bus dev) _ _) = _
    rw [pcieWriteConfig_bar _ hslot, PciFunction.written, PciFunction.written, hold, h.writable,
      h.next]
  have hcfg : ∀ dev' offset, ((assignBar dev s slot).bus dev').cfg offset =
      if dev' = dev ∧ offset = 0x10 + slot * 4 then
        (bus dev).written (0x10 + slot * 4) (poolAddress rs.length)
      else (s.bus dev').cfg offset := by
    intro dev' offset
    rw [hbus]
    by_cases hdev : dev' = dev
    · rw [hdev, Function.update_self]
      show Function.update (s.bus dev).cfg _ _ offset = _
      rw [Function.update_apply]
      simp only [true_and]
    · rw [Function.update_of_ne hdev, if_neg fun hboth ↦ hdev hboth.1]
  constructor
  · show s.nextPciMemAddr + 0x100000 = _
    rw [h.next, List.length_append, List.length_singleton, poolAddress_succ]
  · show s.assigned ++ [(dev, slot, s.nextPciMemAddr)] = _
    rw [h.assigned, h.next, List.zipIdx_append, List.map_append, Nat.zero_add]
    rfl
  · intro dev' slot' hslot'
    rw [hcfg]
    -- the new register is the last of the list, the others keep their places
    by_cases hsame : dev' = dev ∧ slot' = slot
    · obtain ⟨rfl, rfl⟩ := hsame
      rw [if_pos ⟨rfl, rfl⟩, if_pos (by simp), List.idxOf_append_of_notMem hnew,
        List.idxOf_cons_self, Nat.add_zero]
    · have hother : (dev', slot') ≠ (dev, slot) := fun heq ↦
        hsame ⟨congrArg Prod.fst heq, congrArg Prod.snd heq⟩
      have hmem : (dev', slot') ∈ rs ++ [(dev, slot)] ↔ (dev', slot') ∈ rs := by simp [hother]
      rw [if_neg fun hboth ↦ hsame ⟨hboth.1, by omega⟩, h.bar dev' slot' hslot']
      by_cases hin : (dev', slot') ∈ rs
      · rw [if_pos hin, if_pos (hmem.mpr hin), List.idxOf_append_of_mem hin]
      · rw [if_neg hin, if_neg (mt hmem.mp hin)]
  · intro dev'
    rw [hcfg, if_neg (by omega), h.ids]
  · intro dev'
    rw [hcfg, if_neg (by omega), h.classCode]
  · intro dev'
    rw [hbus]
    by_cases hdev : dev' = dev
    · rw [hdev, Function.update_self]
      exact h.writable dev
    · rw [Function.update_of_ne hdev]
      exact h.writable dev'

/-- A BAR that was not assigned an address is zeroed if it was at the start. -/
theorem Pcie.Enumerated.zeroed (h : s.Enumerated bus rs) {dev slot : Nat} (hslot : slot < 6)
    (hnew : (dev, slot) ∉ rs) : (s.bus dev).Zeroed slot ↔ (bus dev).Zeroed slot := by
  unfold PciFunction.Zeroed
  rw [pcieReadConfig_bar _ hslot, pcieReadConfig_bar _ hslot, h.bar dev slot hslot, if_neg hnew]

/-- The loop over BARs assigns addresses to those that were zeroed. -/
theorem Pcie.Enumerated.barLoop (h : s.Enumerated bus rs) {dev : Nat} {slots : List Nat}
    (hslots : ∀ slot ∈ slots, slot < 6) (hnodup : slots.Nodup)
    (hnew : ∀ slot ∈ slots, (dev, slot) ∉ rs) : (barLoop dev slots s).Enumerated bus
      (rs ++ (slots.filter fun slot ↦ (bus dev).Zeroed slot).map (Prod.mk dev)) := by
  induction slots generalizing rs s with
  | nil =>
      rw [List.filter_nil, List.map_nil, List.append_nil]
      exact h
  | cons slot slots ih =>
      obtain ⟨hslot, hslots⟩ := List.forall_mem_cons.mp hslots
      obtain ⟨hfirst, hnew⟩ := List.forall_mem_cons.mp hnew
      obtain ⟨hout, hnodup⟩ := List.nodup_cons.mp hnodup
      have hzeroed := h.zeroed hslot hfirst
      show (Drivers.barLoop dev slots (if _ then assignBar dev s slot else s)).Enumerated bus _
      by_cases hz : (bus dev).Zeroed slot
      · rw [if_pos (hzeroed.mpr hz), List.filter_cons_of_pos (by simpa using hz), List.map_cons,
          List.append_cons]
        refine ih (h.assign hslot hfirst) hslots hnodup fun slot' hslot' hmem ↦ ?_
        rcases List.mem_append.mp hmem with hmem | hmem
        · exact hnew slot' hslot' hmem
        · obtain rfl : slot' = slot := congrArg Prod.snd (List.mem_singleton.mp hmem)
          exact hout hslot'
      · rw [if_neg (mt hzeroed.mp hz), List.filter_cons_of_neg (by simpa using hz)]
        exact ih h hslots hnodup hnew

/-- A function with a driver has its zeroed BARs assigned. -/
theorem Pcie.Enumerated.enable (h : s.Enumerated bus rs) {dev : Nat}
    (hnew : ∀ slot, (dev, slot) ∉ rs) : (enableFunction dev s).Enumerated bus
      (rs ++ ((List.range 6).filter fun slot ↦ (bus dev).Zeroed slot).map (Prod.mk dev)) := by
  simp only [enableFunction]
  exact (h.barLoop (fun slot hslot ↦ List.mem_range.mp hslot) List.nodup_range
    fun slot _ ↦ hnew slot).command dev _

/-- The ids of a function are never written. -/
theorem Pcie.Enumerated.present (h : s.Enumerated bus rs) (dev : Nat) :
    (s.bus dev).Present ↔ (bus dev).Present := by
  have hid : pcieReadConfig (s.bus dev).cfg 0x00 = pcieReadConfig (bus dev).cfg 0x00 := h.ids dev
  unfold PciFunction.Present PciFunction.vendor
  rw [hid]

theorem Pcie.Enumerated.driver (h : s.Enumerated bus rs) (dev : Nat) :
    (s.bus dev).driver = (bus dev).driver := by
  have hid : pcieReadConfig (s.bus dev).cfg 0x00 = pcieReadConfig (bus dev).cfg 0x00 := h.ids dev
  have hclass : pcieReadConfig (s.bus dev).cfg 0x08 = pcieReadConfig (bus dev).cfg 0x08 :=
    h.classCode dev
  unfold PciFunction.driver PciFunction.vendor PciFunction.classCode
  rw [hid, hclass]

/-- What does not concern the registers makes no difference. -/
theorem Pcie.Enumerated.congr {s' : Pcie S} (h : s.Enumerated bus rs) (hbus : s'.bus = s.bus)
    (hnext : s'.nextPciMemAddr = s.nextPciMemAddr) (hassigned : s'.assigned = s.assigned) :
    s'.Enumerated bus rs := by
  refine ⟨hnext.trans h.next, hassigned.trans h.assigned, ?_, ?_, ?_, ?_⟩
  · rw [hbus]
    exact h.bar
  · rw [hbus]
    exact h.ids
  · rw [hbus]
    exact h.classCode
  · rw [hbus]
    exact h.writable

end Steps

/-- The registers and the calls after the first `n` devices. -/
structure Pcie.Visited (bus : Bus) (n : Nat) (s : Pcie S) : Prop where
  enumerated : s.Enumerated bus (zeroedRegisters bus n)
  calls : s.initCalls = initCallsOf bus n

section Visits

variable {bus : Bus} {n : Nat} {s s' : Pcie S} {init : DriverInit S}

/-- Assigning addresses calls no driver. -/
theorem barLoop_calls (dev : Nat) (slots : List Nat) (s : Pcie S) :
    (barLoop dev slots s).initCalls = s.initCalls ∧ (barLoop dev slots s).host = s.host := by
  induction slots generalizing s with
  | nil => exact ⟨rfl, rfl⟩
  | cons slot slots ih =>
      obtain ⟨hcalls, hhost⟩ :=
        ih (if (s.bus dev).Zeroed slot then assignBar dev s slot else s)
      constructor
      · refine hcalls.trans ?_
        split <;> rfl
      · refine hhost.trans ?_
        split <;> rfl

theorem enableFunction_calls (dev : Nat) (s : Pcie S) :
    (enableFunction dev s).initCalls = s.initCalls ∧ (enableFunction dev s).host = s.host := by
  simp only [enableFunction, Pcie.writeConfig, barLoop_calls, and_self]

/-- A visit calls at most one driver. -/
theorem visitDevice_cases (h : visitDevice init s n = some s') :
    s'.host = s.host ∧ s'.initCalls = s.initCalls ∨
      ∃ drv i cfg, drv.init = some i ∧ s'.initCalls = s.initCalls ++ [(n, drv)] ∧
        init i n cfg s.host = some s'.host := by
  unfold visitDevice pcieProbeDevice at h
  dsimp only at h
  obtain ⟨hcalls, hhost⟩ := enableFunction_calls n
    { s with totalPciDevices := s.totalPciDevices + 1 }
  generalize enableFunction n { s with totalPciDevices := s.totalPciDevices + 1 } = t
    at h hcalls hhost
  split at h
  · split at h
    · cases h
      exact .inl ⟨rfl, rfl⟩
    · rename_i drv _
      split at h
      · cases h
        exact .inl ⟨hhost, hcalls⟩
      · rename_i i hinit
        obtain ⟨host, hrun, rfl⟩ := Option.map_eq_some_iff.mp h
        exact .inr ⟨drv, i, (t.bus n).cfg, hinit, by rw [hcalls], hhost ▸ hrun⟩
  · cases h
    exact .inl ⟨rfl, rfl⟩

theorem zeroedRegisters_succ (bus : Bus) (n : Nat) : zeroedRegisters bus (n + 1) =
    zeroedRegisters bus n ++ (bus n).zeroedBars.map (Prod.mk n) := by
  rw [zeroedRegisters, List.range_succ, List.flatMap_append, List.flatMap_singleton]
  rfl

theorem initCallsOf_succ (bus : Bus) (n : Nat) : initCallsOf bus (n + 1) = initCallsOf bus n ++
    if (bus n).Present then
      ((bus n).driver.toList.filter fun drv ↦ drv.init.isSome).map (Prod.mk n)
    else [] := by
  rw [initCallsOf, List.range_succ, List.flatMap_append, List.flatMap_singleton]
  rfl

/-- Devices are scanned in order. -/
theorem lt_of_mem_zeroedRegisters {r : Nat × Nat} (h : r ∈ zeroedRegisters bus n) : r.1 < n := by
  obtain ⟨dev, hdev, hr⟩ := List.mem_flatMap.mp h
  obtain ⟨slot, -, rfl⟩ := List.mem_map.mp hr
  exact List.mem_range.mp hdev

/-- Visiting a function that no entry of the registry matches. -/
theorem Pcie.Visited.skip (h : s.Visited bus n) (hskip : ¬ (bus n).Present ∨ (bus n).driver = none)
    (hbus : s'.bus = s.bus) (hnext : s'.nextPciMemAddr = s.nextPciMemAddr)
    (hassigned : s'.assigned = s.assigned) (hcalls : s'.initCalls = s.initCalls) :
    s'.Visited bus (n + 1) := by
  have hbars : (bus n).zeroedBars = [] := by
    refine if_neg fun hboth ↦ ?_
    rcases hskip with hpresent | hdriver
    · exact hpresent hboth.1
    · rw [hdriver] at hboth
      cases hboth.2
  have hcalled : (if (bus n).Present then
      ((bus n).driver.toList.filter fun drv ↦ drv.init.isSome).map (Prod.mk n) else []) = [] := by
    rcases hskip with hpresent | hdriver
    · exact if_neg hpresent
    · rw [hdriver]
      exact ite_self _
  constructor
  · rw [zeroedRegisters_succ, hbars, List.map_nil, List.append_nil]
    exact h.enumerated.congr hbus hnext hassigned
  · rw [initCallsOf_succ, hcalled, List.append_nil, hcalls]
    exact h.calls

/-- Every device is visited as the state of the bus at the start says. -/
theorem Pcie.Visited.visit (h : s.Visited bus n) (hvisit : visitDevice init s n = some s') :
    s'.Visited bus (n + 1) := by
  have hpresent := h.enumerated.present n
  have hdriver := h.enumerated.driver n
  unfold visitDevice at hvisit
  by_cases hskip : ¬ (bus n).Present
  · rw [if_neg (mt hpresent.mp hskip)] at hvisit
    cases hvisit
    exact h.skip (.inl hskip) rfl rfl rfl rfl
  have hthere := not_not.mp hskip
  rw [if_pos (hpresent.mpr hthere), pcieProbeDevice] at hvisit
  dsimp only at hvisit
  rw [hdriver] at hvisit
  cases hdrv : (bus n).driver with
  | none =>
      rw [hdrv] at hvisit
      cases hvisit
      exact h.skip (.inr hdrv) rfl rfl rfl rfl
  | some drv =>
      rw [hdrv] at hvisit
      dsimp only at hvisit
      have hbars : (bus n).zeroedBars = (List.range 6).filter fun slot ↦ (bus n).Zeroed slot := by
        refine if_pos ⟨hthere, ?_⟩
        rw [hdrv]
        rfl
      have hcounted : Enumerated bus (zeroedRegisters bus n)
          { s with totalPciDevices := s.totalPciDevices + 1 } := h.enumerated.congr rfl rfl rfl
      -- no register of this device has been assigned before
      have hnew : ∀ slot, (n, slot) ∉ zeroedRegisters bus n :=
        fun slot hmem ↦ (lt_of_mem_zeroedRegisters hmem).ne rfl
      have henabled := hcounted.enable hnew
      rw [← hbars, ← zeroedRegisters_succ] at henabled
      have hcalls := (enableFunction_calls n
        { s with totalPciDevices := s.totalPciDevices + 1 }).1.trans h.calls
      generalize enableFunction n { s with totalPciDevices := s.totalPciDevices + 1 } = t
        at hvisit henabled hcalls
      cases hinit : drv.init with
      | none =>
          rw [hinit] at hvisit
          cases hvisit
          refine ⟨henabled, ?_⟩
          rw [initCallsOf_succ, if_pos hthere, hdrv, hcalls]
          simp [hinit]
      | some driverInit =>
          rw [hinit] at hvisit
          obtain ⟨host, -, rfl⟩ := Option.map_eq_some_iff.mp hvisit
          refine ⟨henabled.congr rfl rfl rfl, ?_⟩
          rw [initCallsOf_succ, if_pos hthere, hdrv]
          show _ ++ _ = _
          rw [hcalls]
          simp [hinit]

/-- A loop over the first numbers keeps a property that may speak of the number it is at. -/
theorem foldlM_range {f : S → Nat → Option S} (inv : Nat → S → Prop) {n : Nat} {s s' : S}
    (hinit : inv 0 s) (hstep : ∀ k < n, ∀ t t', inv k t → f t k = some t' → inv (k + 1) t')
    (hrun : (List.range n).foldlM f s = some s') : inv n s' := by
  induction n generalizing s' with
  | zero =>
      cases hrun
      exact hinit
  | succ n ih =>
      rw [List.range_succ, List.foldlM_append] at hrun
      obtain ⟨t, hfirst, hlast⟩ := Option.bind_eq_some_iff.mp hrun
      have ht := ih (fun k hk ↦ hstep k (by omega)) hfirst
      refine hstep n (by omega) t s' ht ?_
      simpa using hlast

/-- The enumeration returns when the drivers do. -/
theorem pcieInit_returns (hinit : ∀ i dev cfg host, (init i dev cfg host).isSome) (s : Pcie S) :
    (pcieInit init s).isSome := by
  have hvisit : ∀ s dev, (visitDevice init s dev).isSome := by
    intro s dev
    unfold visitDevice pcieProbeDevice
    dsimp only
    split
    · split
      · rfl
      · split
        · rfl
        · rw [Option.isSome_map]
          exact hinit _ _ _ _
    · rfl
  have hloop : ∀ (devs : List Nat) (s : Pcie S), (devs.foldlM (visitDevice init) s).isSome := by
    intro devs
    induction devs with
    | nil => exact fun s ↦ rfl
    | cons dev devs ih =>
        intro s
        obtain ⟨t, ht⟩ := Option.isSome_iff_exists.mp (hvisit s dev)
        rw [List.foldlM_cons, ht]
        exact ih t
  exact hloop _ _

/-- When the enumeration returns, it has assigned addresses to the BARs that were zeroed and called
the drivers, in the order of the scan. -/
theorem visited_pcieInit {host : S} (h : pcieInit init (.boot bus host) = some s) :
    s.Visited bus 32 := by
  refine foldlM_range (fun n s ↦ s.Visited bus n) ⟨.boot bus host 0, rfl⟩ ?_ h
  exact fun k _ t t' ht hvisit ↦ ht.visit hvisit

end Visits

end Enumeration

end Aether.Drivers
