import Aether.Drivers.Banks
import Aether.Ethernet.Enumeration
import Aether.Kernel.MainLoop

/-!
# From the entry of the kernel to its loop

`kernel_main` before its loop, with whatever is on the bus. `main_loop_starts` says that the loop
starts in a state that the results about its runs are about, and in an address space that shows what
the drivers asked for, if there is one virtio function among the others.
-/

namespace Aether.Kernel

open ByteMemory Common Program Transition Drivers Ethernet

/-- `tcp_init`. -/
def tcpInit : Action Unit := modify fun σ ↦ { σ with tcpTcbList := 0 }

/-- `kernel_main` before its loop: the loop's variables, and what the enumeration left. -/
def kernelMainStart (board : Board) (a : KptAddress) (hw : Hardware) (bus : Bus) (node : Node) :
    Option (MainLoop × Pcie Host) := do
  let s ← pcieInit hw.driverInit (.boot bus (.boot node (.boot board a)))
  let (_, σ) ← tcpInit.run s.host.node
  pure (.boot σ ⟨List.replicate 6 0, MainLoop.length_noMac⟩, s)

/-- A device with the configuration space and the page tables that its driver finds. -/
def foundProbe (c : Probe) (cfg : ConfigSpace) (mmu : Mmu) : Probe :=
  { c with cfg := cfg, mmu := mmu }

/-- The sizes of the RX and the TX queue that a device reports if it takes the features. -/
def queueSizes (c : Probe) : Option (UInt16 × UInt16) :=
  (resetLoop c.values c.turns 0).bind fun i ↦
    if c.values (i + 2) &&& virtioStatusFeaturesOk = 0 then none
    else some ((c.values (i + 5)).toUInt16, (c.values (i + 7)).toUInt16)

/-- The windows that the drivers map lie in the physical address space. -/
structure InReach (cfg : ConfigSpace) : Prop where
  banks : InPhysicalSpace cfg
  registers : barAddress cfg 0 + 0x4000 ≤ 2 ^ 48

/-! ## One visit -/

section Visit

variable {S : Type} {init : DriverInit S} {s s' : Pcie S} {n d : Nat}

theorem barLoop_bus (slots : List Nat) (s : Pcie S) (hd : d ≠ n) :
    (barLoop n slots s).bus d = s.bus d := by
  induction slots generalizing s with
  | nil => rfl
  | cons slot slots ih =>
      refine (ih (if (s.bus n).Zeroed slot then assignBar n s slot else s)).trans ?_
      split
      · exact Function.update_of_ne hd _ _
      · rfl

theorem enableFunction_bus (s : Pcie S) (hd : d ≠ n) : (enableFunction n s).bus d = s.bus d := by
  rw [← barLoop_bus (List.range 6) s hd]
  exact Function.update_of_ne hd _ _

/-- A visit writes to one function. If that has a driver it is called with what was written. -/
theorem visitDevice_spec (h : visitDevice init s n = some s') :
    (∀ d, d ≠ n → s'.bus d = s.bus d) ∧
    ((s'.host = s.host ∧ ∀ drv, (s.bus n).Present → (s.bus n).driver = some drv →
        drv.init = none) ∨
      ∃ drv i, (s.bus n).Present ∧ (s.bus n).driver = some drv ∧ drv.init = some i ∧
        init i n (s'.bus n).cfg s.host = some s'.host) := by
  unfold visitDevice pcieProbeDevice at h
  dsimp only at h
  split at h
  · rename_i hpresent
    have hbus : ∀ d, d ≠ n → (enableFunction n { s with
        totalPciDevices := s.totalPciDevices + 1 }).bus d = s.bus d := fun d hd ↦
      enableFunction_bus _ hd
    obtain ⟨-, hhost⟩ := enableFunction_calls n { s with totalPciDevices := s.totalPciDevices + 1 }
    generalize enableFunction n { s with totalPciDevices := s.totalPciDevices + 1 } = t
      at h hbus hhost
    split at h
    · rename_i hdriver
      cases h
      exact ⟨fun _ _ ↦ rfl, .inl ⟨rfl, fun drv _ hdrv ↦ absurd (hdriver.symm.trans hdrv) nofun⟩⟩
    · rename_i drv hdriver
      split at h
      · rename_i hinit
        cases h
        refine ⟨hbus, .inl ⟨hhost, fun drv' _ hdrv' ↦ ?_⟩⟩
        cases hdriver.symm.trans hdrv'
        exact hinit
      · rename_i i hinit
        obtain ⟨host, hrun, rfl⟩ := Option.map_eq_some_iff.mp h
        exact ⟨hbus, .inr ⟨drv, i, hpresent, hdriver, hinit, hhost ▸ hrun⟩⟩
  · rename_i habsent
    cases h
    exact ⟨fun _ _ ↦ rfl, .inl ⟨rfl, fun _ hpresent ↦ absurd hpresent habsent⟩⟩

end Visit

/-! ## The drivers -/

section Drivers

variable {board : Board} {a : KptAddress} {m : Mappings} {hw : Hardware} {c : Probe} {dev : Nat}
  {cfg : ConfigSpace} {h h' : Host}

/-- The network driver leaves the node as if it were alone. -/
theorem virtioPciInitAt_node (hrun : c.virtioPciInitAt dev cfg h = some h') :
    (foundProbe c cfg h.mmu).virtioPciInit.run h.node = some ((), h'.node) := by
  obtain ⟨⟨vdev, σ⟩, hcall, hrest⟩ := Option.bind_eq_some_iff.mp hrun
  rw [Probe.virtioPciInit, run_bind_of_run hcall]
  dsimp only at hrest
  split at hrest
  · rename_i hnull
    cases hrest
    rw [if_pos hnull]
    rfl
  · rename_i hvdev
    obtain ⟨⟨banks, mmu⟩, hlookup, hrest⟩ := Option.bind_eq_some_iff.mp hrest
    have hfound : virtioPciCapLookup (foundProbe c cfg h.mmu).cfg (foundProbe c cfg h.mmu).turns
        ⟨0, 0, 0, 0, 0⟩ (foundProbe c cfg h.mmu).mmu = some (banks, mmu) := hlookup
    rw [if_neg hvdev, hfound]
    dsimp only at hrest ⊢
    split at hrest
    · rename_i hbanks
      obtain ⟨⟨_, σ'⟩, hinit, hrest⟩ := Option.bind_eq_some_iff.mp hrest
      cases hrest
      rw [if_pos hbanks]
      exact hinit
    · rename_i hbanks
      cases hrest
      rw [if_neg hbanks]
      rfl

/-- Both drivers leave page tables that calls of `ioremap` lead to. -/
theorem driverInit_mapped {i : PciInit} (hm : Mappings.Reaches Mmu.Fits board a m)
    (hmmu : m.mmu = h.mmu) (hreach : InReach cfg) (hrun : hw.driverInit i dev cfg h = some h') :
    ∃ m', Mappings.Reaches Mmu.Fits board a m' ∧ m'.mmu = h'.mmu := by
  cases i with
  | virtioPciInit =>
      obtain ⟨⟨vdev, σ⟩, -, hrest⟩ := Option.bind_eq_some_iff.mp hrun
      dsimp only at hrest
      split at hrest
      · cases hrest
        exact ⟨m, hm, hmmu⟩
      · obtain ⟨⟨banks, mmu⟩, hlookup, hrest⟩ := Option.bind_eq_some_iff.mp hrest
        rw [← hmmu] at hlookup
        have hnone : BanksOf cfg [] m ⟨0, 0, 0, 0, 0⟩ := by
          refine ⟨fun t ht ↦ absurd ?_ ht, fun _ _ _ hmem ↦ absurd hmem List.not_mem_nil⟩
          cases t <;> rfl
        obtain ⟨m', _, -, hreaches, rfl, -⟩ := hnone.loop hm hreach.banks hlookup
        refine ⟨m', hreaches, ?_⟩
        dsimp only at hrest
        split at hrest
        · obtain ⟨_, -, hrest⟩ := Option.bind_eq_some_iff.mp hrest
          cases hrest
          rfl
        · cases hrest
          rfl
  | xhciInit =>
      obtain ⟨⟨base, mmu⟩, hcall, hrest⟩ := Option.bind_eq_some_iff.mp hrun
      rw [← hmmu] at hcall
      have hstep := @Mappings.Step.ioremap Mmu.Fits _ _ _ _ _ (by decide) hreach.registers hcall
      refine ⟨_, hm.step hstep, ?_⟩
      dsimp only at hrest
      split at hrest
      · cases hrest
        rfl
      · obtain ⟨_, -, hrest⟩ := Option.bind_eq_some_iff.mp hrest
        cases hrest
        rfl

/-- The xHCI driver has nothing to do with the node. -/
theorem xhciInit_node (hrun : hw.xhciInit dev cfg h = some h') : h'.node = h.node := by
  obtain ⟨⟨base, mmu⟩, -, hrest⟩ := Option.bind_eq_some_iff.mp hrun
  dsimp only at hrest
  split at hrest
  · cases hrest
    rfl
  · obtain ⟨_, -, hrest⟩ := Option.bind_eq_some_iff.mp hrest
    cases hrest
    rfl

end Drivers

/-! ## The enumeration -/

section Enumeration

variable {board : Board} {a : KptAddress} {bus : Bus} {hw : Hardware} {dev n : Nat}
  {s s' : Pcie Host}

/-- The state of the system after visits to the first `n` devices, of which `dev` is the only one of
the virtio vendor. -/
structure Booted (board : Board) (a : KptAddress) (bus : Bus) (hw : Hardware) (dev n : Nat)
    (s : Pcie Host) : Prop where
  rest : ∀ d, n ≤ d → s.bus d = bus d
  mapped : (∀ d < n, (bus d).Present → InReach (s.bus d).cfg) →
    ∃ m, Mappings.Reaches Mmu.Fits board a m ∧ m.mmu = s.host.mmu
  before : n ≤ dev → s.host.node = (hw.probe dev).boot
  after : dev < n → ∃ mmu, (foundProbe (hw.probe dev) (s.bus dev).cfg mmu).Starts s.host.node

/-- The next visit. -/
theorem Booted.visit (h : Booted board a bus hw dev n s) (hn : (bus n).vendor = 0x1AF4 ↔ n = dev)
    (hvisit : visitDevice hw.driverInit s n = some s') : Booted board a bus hw dev (n + 1) s' := by
  obtain ⟨hbus, hcall⟩ := visitDevice_spec hvisit
  have hsame : s.bus n = bus n := h.rest n le_rfl
  have hmapped : (∀ d < n + 1, (bus d).Present → InReach (s'.bus d).cfg) →
      ∃ m, Mappings.Reaches Mmu.Fits board a m ∧ m.mmu = s.host.mmu := fun hreach ↦
    h.mapped fun d hd hpresent ↦ by
      rw [← hbus d (by omega)]
      exact hreach d (by omega) hpresent
  have hrest : ∀ d, n + 1 ≤ d → s'.bus d = bus d := fun d hd ↦
    (hbus d (by omega)).trans (h.rest d (by omega))
  -- a virtio function has a driver, so there was a call
  have hvirtio : n = dev → (s.bus n).Present ∧ (s.bus n).driver =
      some ⟨0x1AF4, 0x1000, 0, some .virtioPciInit, "VirtIO Net Controller"⟩ := fun heq ↦ by
    have hvendor := hn.mpr heq
    rw [hsame]
    refine ⟨?_, driver_virtio hvendor⟩
    rw [PciFunction.Present, hvendor]
    decide
  rcases hcall with ⟨hhost, hnone⟩ | ⟨drv, i, hpresent, hdriver, hinit, hrun⟩
  · have hne : n ≠ dev := fun heq ↦ by
      obtain ⟨hpresent, hdriver⟩ := hvirtio heq
      exact absurd (hnone _ hpresent hdriver) (Option.some_ne_none _)
    refine ⟨hrest, fun hreach ↦ hhost ▸ hmapped hreach, fun hle ↦ ?_, fun hlt ↦ ?_⟩
    · rw [hhost]
      exact h.before (by omega)
    · rw [hhost, hbus dev (by omega)]
      exact h.after (by omega)
  · refine ⟨hrest, fun hreach ↦ ?_, fun hle ↦ ?_, fun hlt ↦ ?_⟩
    · obtain ⟨m, hm, hmmu⟩ := hmapped hreach
      exact driverInit_mapped hm hmmu (hreach n (by omega) (hsame ▸ hpresent)) hrun
    all_goals
      have hkind := driver_cases hdriver (by rw [hinit]; rfl)
      rw [hsame] at hkind
    · rcases hkind with ⟨hvendor, -⟩ | ⟨-, rfl⟩
      · have hdev := hn.mp hvendor
        omega
      · cases hinit
        rw [xhciInit_node hrun]
        exact h.before (by omega)
    · by_cases hdev : n = dev
      · obtain ⟨-, hvirtioDriver⟩ := hvirtio hdev
        cases hdriver.symm.trans hvirtioDriver
        cases hinit
        refine ⟨s.host.mmu, ?_⟩
        have hstart := virtioPciInitAt_node hrun
        rw [h.before (by omega), hdev] at hstart
        exact hstart
      · rw [hbus dev (fun heq ↦ hdev heq.symm)]
        rcases hkind with ⟨hvendor, -⟩ | ⟨-, rfl⟩
        · exact absurd (hn.mp hvendor) hdev
        · cases hinit
          rw [xhciInit_node hrun]
          exact h.after (by omega)

/-- What `pcie_init` leaves. -/
theorem booted_pcieInit (hdev : ∀ d < 32, (bus d).vendor = 0x1AF4 ↔ d = dev)
    (hrun : pcieInit hw.driverInit (.boot bus (.boot (hw.probe dev).boot (.boot board a))) =
      some s) : Booted board a bus hw dev 32 s := by
  refine foldlM_range (fun n s ↦ Booted board a bus hw dev n s) ?_ ?_ hrun
  · exact ⟨fun _ _ ↦ rfl, fun _ ↦ ⟨⟨.boot board a, []⟩, .init rfl, rfl⟩, fun _ ↦ rfl,
      fun hlt ↦ absurd hlt (Nat.not_lt_zero _)⟩
  · exact fun n hn t t' ht hvisit ↦ ht.visit (hdev n hn) hvisit

end Enumeration

/-! ## The start of the loop -/

section Start

variable {c : Setup} {c' : Probe} {σ : Node}

/-- A device with two queues is set up as the device of a node is. -/
theorem starts_of_queueSizes {rxSize txSize : UInt16} (hbanks : c'.BanksFound)
    (hsizes : queueSizes c' = some (rxSize, txSize)) (hstarts : c'.Starts σ) :
    (initialise rxSize txSize c'.rxRingMem c'.txRingMem).run c'.boot = some ((), σ) := by
  obtain ⟨i, hreset, hanswer⟩ := Option.bind_eq_some_iff.mp hsizes
  rw [Probe.starts_iff_of_banks hbanks, Probe.virtioNetInit, hreset] at hstarts
  dsimp only at hstarts
  split at hanswer
  · cases hanswer
  · rename_i haccepted
    cases hanswer
    rw [if_neg haccepted] at hstarts
    exact hstarts

/-- There are no connections before the loop, so `tcp_init` changes nothing. -/
theorem starts_tcbList (h : c.Starts σ) : σ.tcpTcbList = 0 := by
  obtain ⟨_, σ₁, hinit, hsetup⟩ := run_bind_eq_some.mp h
  obtain ⟨heap, log, dev, rfl⟩ := virtioPciInit_changes hinit
  obtain ⟨rxQueue, stats, hrun⟩ := virtioNetSetupQueues_run c.rxSize_ne_zero c.txSize_ne_zero
    c.rxRingMem c.txRingMem { Node.boot c.ram c.rx c.mac c.ip c.isn with
      heap := heap, log := log, globalVnetDev := dev }
  cases hrun.symm.trans hsetup
  rfl

/-- Without a device the loop leaves the network alone. -/
theorem step_unpublished {t t' : MainLoop} (h : t.node.globalVnetDev = none ∧ t.point ≠ .reap)
    (hstep : MainLoop.Step t t') : t'.node.globalVnetDev = none ∧ t'.point ≠ .reap := by
  obtain ⟨hnone, hpoint⟩ := h
  cases hstep with
  | tick => exact ⟨hnone, hpoint⟩
  | fetch hne => exact ⟨hnone, hpoint⟩
  | fill len rx hid => exact ⟨hnone, hpoint⟩
  | complete len hid => exact ⟨hnone, hpoint⟩
  | cpu mac received hcpu =>
      cases hat : t.point with
      | refresh =>
          simp only [MainLoop.cpu, hat, MainLoop.refresh] at hcpu
          split at hcpu
          · obtain ⟨screen, -, rfl⟩ := Option.map_eq_some_iff.mp hcpu
            exact ⟨hnone, fun h ↦ by cases h⟩
          · cases hcpu
            exact ⟨hnone, fun h ↦ by cases h⟩
      | input =>
          simp only [MainLoop.cpu, hat] at hcpu
          cases received with
          | none =>
              cases hcpu
              exact ⟨hnone, fun h ↦ by cases h⟩
          | some byte =>
              cases hcpu
              refine ⟨hnone, ?_⟩
              show (if t.console.continues byte then Point.refresh else Point.poll) ≠ .reap
              split <;> decide
      | poll =>
          simp only [MainLoop.cpu, hat, hnone] at hcpu
          cases hcpu
          exact ⟨hnone, fun h ↦ by cases h⟩
      | reap => exact absurd hat hpoint
      | health =>
          simp only [MainLoop.cpu, hat] at hcpu
          obtain ⟨⟨_, σ⟩, hrun, rfl⟩ := Option.map_eq_some_iff.mp hcpu
          rw [healthUpdateTcpStats, run_get_bind] at hrun
          refine ⟨?_, fun h ↦ by cases h⟩
          split at hrun
          · cases hrun
          · cases hrun
            exact hnone

end Start

/-- If one function on the bus is of the virtio vendor, whatever the others are, the loop starts in
an address space that calls of `ioremap` made. If the driver found the banks of that function and
the function takes the features and has a power of two of TX descriptors, the node is one whose runs
the results about nodes and about the loop are about. If the function has no queues, a ring is
missing when the loop polls; and without banks the loop leaves the network alone for ever. -/
theorem main_loop_starts (board : Board) (a : KptAddress) (hw : Hardware) (bus : Bus) (dev : Nat)
    (hlt : dev < 32) (hdev : ∀ d < 32, (bus d).vendor = 0x1AF4 ↔ d = dev) (loop : MainLoop)
    (s : Pcie Host)
    (hrun : kernelMainStart board a hw bus (hw.probe dev).boot = some (loop, s))
    (hreach : ∀ d < 32, (bus d).Present → InReach (s.bus d).cfg) :
    (∃ m, Mappings.Reaches Mmu.Fits board a m ∧ m.mmu = s.host.mmu) ∧
    (loop.node.globalVnetDev.isSome → ∀ rxSize k, rxSize ≠ 0 → k ≤ 15 →
      queueSizes (hw.probe dev) = some (rxSize, UInt16.ofNat (2 ^ k)) →
        ∃ c : Setup, c.ip = (hw.probe dev).ip ∧ c.mac = (hw.probe dev).mac ∧ c.rxSize = rxSize ∧
          c.txLogSize = k ∧ MainLoop.Starts c loop) ∧
    (loop.node.globalVnetDev.isSome → ¬ (hw.probe dev).Accepted →
      loop.node.rxQueue.usedAddr = 0 ∨ loop.node.txQueue.usedAddr = 0) ∧
    (loop.node.globalVnetDev = none → ∀ t, Reachable (· = loop) MainLoop.Step t →
      t.node.globalVnetDev = none ∧ t.point ≠ .reap) := by
  obtain ⟨s', hinit, hrest⟩ := Option.bind_eq_some_iff.mp hrun
  obtain ⟨rfl, rfl⟩ := Prod.mk.inj (Option.some.inj hrest)
  have hbooted := booted_pcieInit hdev hinit
  obtain ⟨mmu, hstarts⟩ := hbooted.after hlt
  have hleaves := Probe.Starts.leaves hstarts
  refine ⟨hbooted.mapped hreach, fun hpublished rxSize k hrx hk hsizes ↦ ?_,
    fun hpublished hrefused ↦ ?_, fun hnone t ht ↦ ?_⟩
  · have hrunInit := starts_of_queueSizes (hleaves.1.mpr hpublished) hsizes hstarts
    let c : Setup := {
      ram := (hw.probe dev).ram
      rx := (hw.probe dev).rx
      mac := (hw.probe dev).mac
      ip := (hw.probe dev).ip
      isn := (hw.probe dev).isn
      rxSize := rxSize
      rxSize_ne_zero := hrx
      txLogSize := k
      txLogSize_le := hk
      rxRingMem := (hw.probe dev).rxRingMem
      txRingMem := (hw.probe dev).txRingMem }
    have hnode : c.Starts s'.host.node := hrunInit
    refine ⟨c, rfl, rfl, rfl, rfl, s'.host.node, hnode, ?_⟩
    have hlist := starts_tcbList hnode
    show MainLoop.boot { s'.host.node with tcpTcbList := 0 } _ = _
    rw [← hlist]
  · exact (hleaves.2 (hleaves.1.mpr hpublished)).2 hrefused
  · exact ht.invariant (fun t ↦ t.node.globalVnetDev = none ∧ t.point ≠ .reap)
      (fun t heq ↦ heq ▸ ⟨hnone, fun h ↦ by cases h⟩) fun _ _ h hstep ↦ step_unpublished h hstep

/-- A network device with four descriptors for each queue. -/
theorem main_loop_starts_network : ∃ loop s, kernelMainStart .virt .sample .sample
    (virtioBus 0x10001AF4) (Probe.sample 0x0B).boot = some (loop, s) ∧
    ∃ c : Setup, c.rxSize = 4 ∧ c.txLogSize = 2 ∧ MainLoop.Starts c loop := by
  have hall : (kernelMainStart .virt .sample .sample (virtioBus 0x10001AF4)
      (Probe.sample 0x0B).boot).any (fun r ↦ r.1.node.globalVnetDev.isSome &&
        decide (∀ d < 32, (virtioBus 0x10001AF4 d).Present →
          (∀ p < 256, CapWindow (r.2.bus d).cfg (UInt8.ofNat p) →
            capPhys (r.2.bus d).cfg (UInt8.ofNat p) + capLength (r.2.bus d).cfg (UInt8.ofNat p) ≤
              2 ^ 48) ∧
          barAddress (r.2.bus d).cfg 0 + 0x4000 ≤ 2 ^ 48)) = true := by
    decide +kernel
  obtain ⟨⟨loop, s⟩, hrun, hboth⟩ := (Option.any_eq_true _ _).mp hall
  rw [Bool.and_eq_true, decide_eq_true_eq] at hboth
  obtain ⟨hpublished, hreach⟩ := hboth
  obtain ⟨-, hstarts, -⟩ := main_loop_starts .virt .sample .sample (virtioBus 0x10001AF4) 0
    (by decide) (by decide +kernel) loop s hrun fun d hd hpresent ↦ by
      obtain ⟨hbanks, hregisters⟩ := hreach d hd hpresent
      refine ⟨fun capPtr ↦ ?_, hregisters⟩
      have hptr := hbanks capPtr.toNat capPtr.toNat_lt
      rwa [UInt8.ofNat_toNat] at hptr
  obtain ⟨c, -, -, hrx, htx, hloop⟩ := hstarts hpublished 4 2 (by decide) (by decide)
    (by decide +kernel)
  exact ⟨loop, s, hrun, c, hrx, htx, hloop⟩

end Aether.Kernel
