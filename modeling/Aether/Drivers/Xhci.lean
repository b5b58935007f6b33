import Aether.Drivers.Capabilities
import Aether.Drivers.Uart
import Aether.Lib.Mmio

/-!
# The USB controller

`xhci_init` on any controller that halts in the pause that the driver makes for that, whatever the
time that it and the BIOS take otherwise. The driver waits for three things and gives up on each
after a million reads. `usb_report_true` says that it returns and that what it prints is true.

The driver never reads whether the controller has halted. A controller may take longer than the
pause, and one that is reset before it has halted may do anything.
-/

namespace Aether.Drivers

open Program Kernel Chains Relation Ascii

/-! ## The driver -/

/-- What `xhci_init` prints. -/
inductive UsbMessage where
  | initializing
  | bar64 (physAddr : UInt64)
  | ioremapFailed
  | version (v : UInt16)
  | legacyFound
  | releaseTimeout
  | released
  | resetting
  | resetTimeout
  | ready
  deriving DecidableEq

/-- The bytes of a message. -/
def UsbMessage.bytes : UsbMessage → List UInt8
  | .initializing => uartPuts (text "[INFO] USB: Initializing xHCI Controller...\r\n")
  | .bar64 physAddr =>
      uartPuts (text "[INFO] USB: 64-bit BAR0 Address detected: ") ++ uartPutHex physAddr ++
        uartPuts (text "\r\n")
  | .ioremapFailed => uartPuts (text "[ERROR] USB: ioremap failed for xHCI.\r\n")
  | .version v =>
      uartPuts (text "[INFO] USB: xHCI Version: ") ++ uartPutHex v.toUInt64 ++
        uartPuts (text "\r\n")
  | .legacyFound => uartPuts (text "[USB] Legacy Support found. Requesting ownership...\r\n")
  | .releaseTimeout => uartPuts (text "[WARN] USB: BIOS ownership release timed out!\r\n")
  | .released => uartPuts (text "[OK] USB: BIOS ownership released.\r\n")
  | .resetting => uartPuts (text "[INFO] USB: Resetting Controller...\r\n")
  | .resetTimeout => uartPuts (text "[ERROR] USB: xHCI Controller Reset Timeout!\r\n")
  | .ready => uartPuts (text "[OK] USB: xHCI Host Controller is READY.\r\n")

/-- `XHCI_CAP_HCCPARAMS1`. -/
def xhciCapHccparams1 : UInt64 := 0x10

/-- `XHCI_OP_USBCMD`. -/
def xhciOpUsbcmd : UInt64 := 0x00

/-- `XHCI_OP_USBSTS`. -/
def xhciOpUsbsts : UInt64 := 0x04

/-- The BIOS owns the controller, by its Legacy Support register. -/
def biosOwns (ctrl : UInt32) : Bool := ctrl &&& usbBiosOwned ≠ 0

/-- The controller resets, by its command register. -/
def inReset (cmd : UInt32) : Bool := cmd &&& (1 : UInt32) <<< 1 ≠ 0

/-- The controller is not ready, by its status register. -/
def notReady (sts : UInt32) : Bool := sts &&& (1 : UInt32) <<< 11 ≠ 0

section Driver

variable {S : Type} (dev : Mmio.Device UInt64 UInt32 S) (pause : S → S)

/-- The part of `xhci_claim_ownership` for a Legacy Support capability. -/
def requestOwnership (extPtr : UInt64) : StateT S Option (List UsbMessage) := do
  dev.modifyReg (extPtr + 4) (· ||| usbOsOwned)
  let timeout ← dev.waitFor (extPtr + 4) biosOwns 1000000
  pure [.legacyFound, if timeout = 0 then .releaseTimeout else .released]

/-- The loop of `xhci_claim_ownership`. -/
def ownershipLoop (base : UInt64) : Nat → UInt64 → StateT S Option (List UsbMessage)
  | 0, _ => fun _ ↦ none
  | turns + 1, extPtr =>
      if extPtr = 0 then pure []
      else do
        let header ← dev.readReg extPtr
        if (header &&& 0xFF).toUInt8 = xhciExtCapLegacy then requestOwnership dev extPtr
        else if ((header >>> 8) &&& 0xFF).toUInt8 = 0 then pure []
        else ownershipLoop base turns (base + (((header >>> 8) &&& 0xFF).toUInt8.toUInt64 <<< 2))

/-- `xhci_claim_ownership`. -/
def claimOwnership (base : UInt64) (turns : Nat) : StateT S Option (List UsbMessage) := do
  let hcc ← dev.readReg (base + xhciCapHccparams1)
  if (hcc >>> 16) <<< 2 = 0 then pure []
  else ownershipLoop dev base turns (base + ((hcc >>> 16) <<< 2).toUInt64)

/-- The reset in `xhci_init`. The controller is told to stop, and gets a pause for that. -/
def resetController (opBase : UInt64) : StateT S Option UsbMessage := do
  dev.modifyReg (opBase + xhciOpUsbcmd) (· &&& ~~~1)
  modify pause
  dev.modifyReg (opBase + xhciOpUsbcmd) (· ||| (1 : UInt32) <<< 1)
  let resetTimeout ← dev.waitFor (opBase + xhciOpUsbcmd) inReset 1000000
  let cnrTimeout ← dev.waitFor (opBase + xhciOpUsbsts) notReady 1000000
  pure (if resetTimeout = 0 ∨ cnrTimeout = 0 then .resetTimeout else .ready)

/-- `xhci_init` from the version on. -/
def startController (base : UInt64) (turns : Nat) : StateT S Option (List UsbMessage) := do
  let capReg ← dev.readReg base
  let claimed ← claimOwnership dev base turns
  let cap ← dev.readReg base
  let outcome ← resetController dev pause (base + (cap &&& 0xFF).toUInt8.toUInt64)
  pure (.version (capReg >>> 16).toUInt16 :: (claimed ++ [.resetting, outcome]))

/-- What `xhci_init` prints about BAR0. -/
def barMessages (cfg : ConfigSpace) : List UsbMessage :=
  .initializing :: if pcieReadConfig cfg 0x10 &&& 0x6 = 0x4 then
    [.bar64 (UInt64.ofNat (barAddress cfg 0))] else []

/-- `xhci_init`: what it prints, and the page tables. -/
def xhciInit (cfg : ConfigSpace) (mmu : Mmu) (turns : Nat) :
    StateT S Option (List UInt8 × Mmu) := do
  let (base, mmu) ← StateT.lift (ioremap mmu (barAddress cfg 0) 0x4000)
  if base = 0 then
    pure ((barMessages cfg ++ [UsbMessage.ioremapFailed]).flatMap UsbMessage.bytes, mmu)
  else
    let messages ← startController dev pause (UInt64.ofNat base) turns
    pure ((barMessages cfg ++ messages).flatMap UsbMessage.bytes, mmu)

end Driver

/-! ## The controller -/

/-- The Run/Stop bit, whether the controller has halted, whether it resets, whether it is not ready,
and its two semaphores. -/
structure Xhc where
  running : Bool
  halted : Bool
  resetting : Bool
  notReady : Bool
  biosOwned : Bool
  osOwned : Bool

/-- What the controller and the BIOS do by themselves. -/
structure Xhc.Later (g g' : Xhc) : Prop where
  running : g'.running = g.running
  halted : g.halted = true → g'.halted = true
  resetting : g'.resetting = true → g.resetting = true
  notReady : g'.notReady = true → g.notReady = true
  biosOwned : g'.biosOwned = true → g.biosOwned = true
  osOwned : g'.osOwned = g.osOwned

namespace Xhc

theorem Later.refl (g : Xhc) : g.Later g := ⟨rfl, id, id, id, id, rfl⟩

theorem Later.trans {g g' g'' : Xhc} (h : g.Later g') (h' : g'.Later g'') : g.Later g'' :=
  ⟨h'.running.trans h.running, h'.halted ∘ h.halted, h.resetting ∘ h'.resetting,
    h.notReady ∘ h'.notReady, h.biosOwned ∘ h'.biosOwned, h'.osOwned.trans h.osOwned⟩

end Xhc

namespace XhciRegs

variable (regs : XhciRegs) (base : UInt64)

/-- Where the list of extended capabilities starts. -/
def extHead : UInt64 := base + (regs.extOffset base).toUInt64

/-- The walk over the extended capabilities comes to a header. -/
def Visited (extPtr : UInt64) : Prop :=
  regs.extOffset base ≠ 0 ∧ ReflTransGen (Hop (regs.extNext base)) (regs.extHead base) extPtr

/-- Where the operational registers start. -/
def opBase : UInt64 := base + (regs.regs base &&& 0xFF).toUInt8.toUInt64

end XhciRegs

/-- What `view` shows of the states of a device is a controller with its registers at `base`. Those
that the driver only reads are `regs`, and its Legacy Support register is at `ctrl`. Only a
controller that is ready takes commands, and only one that has halted can be reset. -/
structure XhciDevice {S : Type} (dev : Mmio.Device UInt64 UInt32 S) (pause : S → S)
    (view : S → Xhc) (regs : XhciRegs) (base ctrl : UInt64) : Prop where
  read_only : ∀ s addr, addr = base ∨ addr = base + xhciCapHccparams1 ∨
    (addr ≠ 0 ∧ regs.Visited base addr) →
    ∃ t, dev.read s addr = some (regs.regs addr, t) ∧ (view s).Later (view t)
  legacy : ∀ extPtr, extPtr ≠ 0 → regs.Visited base extPtr →
    regs.capId extPtr = xhciExtCapLegacy → extPtr + 4 = ctrl
  ctrl_read : ∀ s, ∃ v t, dev.read s ctrl = some (v, t) ∧ (view s).Later (view t) ∧
    biosOwns v = (view t).biosOwned
  ctrl_write : ∀ s v, ∃ t g, dev.write s ctrl v = some t ∧ (view s).Later g ∧
    view t = { g with biosOwned := biosOwns v, osOwned := v &&& usbOsOwned ≠ 0 }
  cmd_read : ∀ s, ∃ v t, dev.read s (regs.opBase base + xhciOpUsbcmd) = some (v, t) ∧
    (view s).Later (view t) ∧ inReset v = (view t).resetting
  cmd_stop : ∀ s v, (view s).resetting = false → (view s).notReady = false →
    v &&& 1 = 0 → inReset v = false → ∃ t g,
      dev.write s (regs.opBase base + xhciOpUsbcmd) v = some t ∧ (view s).Later g ∧
      view t = { g with running := false }
  cmd_reset : ∀ s v, (view s).resetting = false → (view s).notReady = false →
    (view s).running = false → (view s).halted = true → inReset v = true → ∃ t g,
      dev.write s (regs.opBase base + xhciOpUsbcmd) v = some t ∧ (view s).Later g ∧
      view t = { g with resetting := true, notReady := true }
  sts_read : ∀ s, ∃ v t, dev.read s (regs.opBase base + xhciOpUsbsts) = some (v, t) ∧
    (view s).Later (view t) ∧ notReady v = (view t).notReady
  paused : ∀ s, (view s).Later (view (pause s))

/-- A controller that was told to stop has halted by the end of the pause. -/
def HaltsIn {S : Type} (pause : S → S) (view : S → Xhc) : Prop :=
  ∀ s, (view s).running = false → (view (pause s)).halted = true

/-! ## What the messages say -/

/-- What is true of a controller when the driver prints these messages about the ownership: nothing,
or that the BIOS gave it up, or that the BIOS did not in a million reads. -/
inductive Claimed {S : Type} (dev : Mmio.Device UInt64 UInt32 S) (ctrl : UInt64)
    (HasLegacy : Prop) (g : Xhc) : List UsbMessage → Prop where
  | absent : ¬ HasLegacy → Claimed dev ctrl HasLegacy g []
  | released : HasLegacy → g.osOwned = true → g.biosOwned = false →
      Claimed dev ctrl HasLegacy g [.legacyFound, .released]
  | late {u u' : S} : HasLegacy → g.osOwned = true → dev.Busy ctrl biosOwns 1000000 u u' →
      Claimed dev ctrl HasLegacy g [.legacyFound, .releaseTimeout]

/-- What is true of a controller when the driver prints this message about the reset: it is over, or
the controller was seen in it, or not ready, in a million reads. -/
inductive ResetDone {S : Type} (dev : Mmio.Device UInt64 UInt32 S) (opBase : UInt64) (g : Xhc) :
    UsbMessage → Prop where
  | ready : g.resetting = false → g.notReady = false → ResetDone dev opBase g .ready
  | late {u u' : S} : dev.Busy (opBase + xhciOpUsbcmd) inReset 1000000 u u' ∨
      dev.Busy (opBase + xhciOpUsbsts) notReady 1000000 u u' →
      ResetDone dev opBase g .resetTimeout

/-- A Legacy Support capability is reached from a header. -/
def XhciRegs.LegacyFrom (regs : XhciRegs) (base extPtr : UInt64) : Prop :=
  ∃ q, ReflTransGen (Hop (regs.extNext base)) extPtr q ∧ q ≠ 0 ∧ regs.capId q = xhciExtCapLegacy

/-- The walk comes to a Legacy Support capability. -/
def XhciRegs.HasLegacy (regs : XhciRegs) (base : UInt64) : Prop :=
  regs.extOffset base ≠ 0 ∧ regs.LegacyFrom base (regs.extHead base)

/-- The controller takes commands. -/
structure Xhc.Awake (g : Xhc) : Prop where
  resetting : g.resetting = false
  notReady : g.notReady = false

namespace Xhc

variable {g g' : Xhc}

theorem Later.awake (h : g.Later g') (hg : g.Awake) : g'.Awake :=
  ⟨Bool.eq_false_of_not_eq_true fun hreset ↦
    Bool.false_ne_true (hg.resetting.symm.trans (h.resetting hreset)),
  Bool.eq_false_of_not_eq_true fun hwait ↦
    Bool.false_ne_true (hg.notReady.symm.trans (h.notReady hwait))⟩

theorem Later.not_biosOwned (h : g.Later g') (hg : g.biosOwned = false) : g'.biosOwned = false :=
  Bool.eq_false_of_not_eq_true fun hbios ↦ Bool.false_ne_true (hg.symm.trans (h.biosOwned hbios))

end Xhc

section Proofs

variable {S : Type} {dev : Mmio.Device UInt64 UInt32 S} {pause : S → S} {view : S → Xhc}
  {regs : XhciRegs} {base ctrl : UInt64} {s t : S} {g g' : Xhc}

/-- What was true of the ownership stays true. -/
theorem Claimed.mono {HasLegacy : Prop} {messages : List UsbMessage}
    (h : Claimed dev ctrl HasLegacy g messages) (hos : g.osOwned = true → g'.osOwned = true)
    (hbios : g.biosOwned = false → g'.biosOwned = false) :
    Claimed dev ctrl HasLegacy g' messages := by
  cases h with
  | absent hno => exact .absent hno
  | released hlegacy hos' hbios' => exact .released hlegacy (hos hos') (hbios hbios')
  | late hlegacy hos' hall => exact .late hlegacy (hos hos') hall

/-- A wait for one of the three bits. -/
theorem wp_waitForBit {r : UInt64} {busy : UInt32 → Bool} {bit : Xhc → Bool} {timeout : Nat}
    (hread : ∀ s, ∃ v t, dev.read s r = some (v, t) ∧ (view s).Later (view t) ∧
      busy v = bit (view t)) :
    wp (dev.waitFor r busy timeout) (fun left t ↦ (view s).Later (view t) ∧
      (left = 0 ∧ dev.Busy r busy timeout s t ∨ left ≠ 0 ∧ bit (view t) = false)) s := by
  have hkeeps : ∀ u, (view s).Later (view u) →
      ∃ v t, dev.read u r = some (v, t) ∧ (view s).Later (view t) := by
    intro u hu
    obtain ⟨v, t, hv, hlater, -⟩ := hread u
    exact ⟨v, t, hv, hu.trans hlater⟩
  refine wp_mono (Mmio.Device.wp_waitFor _ hkeeps (.refl _)) fun left t ht ↦ ?_
  obtain ⟨hlater, hend⟩ := ht
  refine ⟨hlater, hend.imp_right fun hdone ↦ ?_⟩
  obtain ⟨hleft, u, v, hv, hidle⟩ := hdone
  obtain ⟨v', t', hv', -, hbit⟩ := hread u
  obtain ⟨rfl, rfl⟩ := Prod.mk.inj (Option.some.inj (hv.symm.trans hv'))
  exact ⟨hleft, hbit.symm.trans hidle⟩

/-- Reading a register, changing it and writing it back. -/
theorem wp_modifyReg {r : UInt64} {f : UInt32 → UInt32} {post : Unit → S → Prop} {v : UInt32}
    {u t : S} (hread : dev.read s r = some (v, u)) (hwrite : dev.write u r (f v) = some t)
    (hpost : post () t) : wp (dev.modifyReg r f) post s := by
  have hrun : (dev.modifyReg r f).run s = some ((), t) := by
    rw [Mmio.Device.modifyReg, Mmio.Device.run_readReg_bind hread]
    exact Mmio.Device.run_writeReg hwrite
  exact (wp_of_run hrun).mpr hpost

theorem or_and_right_self (v mask : UInt32) : (v ||| mask) &&& mask = mask := by
  apply UInt32.toBitVec_inj.mp
  ext i hi
  simp +contextual

/-- The request sets the one semaphore and waits for the other. -/
theorem XhciDevice.wp_requestOwnership (h : XhciDevice dev pause view regs base ctrl)
    {HasLegacy : Prop} (hlegacy : HasLegacy) {extPtr : UInt64} (haddr : extPtr + 4 = ctrl)
    (hs : (view s).Awake) : wp (requestOwnership dev extPtr) (fun messages t ↦
      (view t).Awake ∧ Claimed dev ctrl HasLegacy (view t) messages) s := by
  obtain ⟨v, u, hread, hlater, -⟩ := h.ctrl_read s
  obtain ⟨t, g, hwrite, hlater', hview⟩ := h.ctrl_write u (v ||| usbOsOwned)
  rw [requestOwnership, wp_bind, haddr]
  refine wp_modifyReg hread hwrite ?_
  have hg := (hlater.trans hlater').awake hs
  have ht : (view t).Awake := hview ▸ ⟨hg.resetting, hg.notReady⟩
  have hos : (view t).osOwned = true := by
    rw [hview]
    show decide _ = true
    rw [or_and_right_self]
    rfl
  rw [wp_bind]
  refine wp_mono (wp_waitForBit h.ctrl_read) fun left w hw ↦ ?_
  obtain ⟨hlater'', hend⟩ := hw
  rw [wp_pure]
  refine ⟨hlater''.awake ht, ?_⟩
  have hos' : (view w).osOwned = true := hlater''.osOwned.trans hos
  rcases hend with ⟨rfl, hall⟩ | ⟨hleft, hbios⟩
  · exact .late hlegacy hos' hall
  · rw [if_neg hleft]
    exact .released hlegacy hos' hbios

/-- The loop, from a header that the walk comes to. -/
theorem XhciDevice.wp_ownershipLoop (h : XhciDevice dev pause view regs base ctrl) (turns : Nat)
    {extPtr : UInt64} (hvisited : regs.Visited base extPtr)
    (hends : (regs.claimLoop base turns extPtr).isSome) (hs : (view s).Awake) :
    wp (ownershipLoop dev base turns extPtr) (fun messages t ↦
      (view t).Awake ∧ Claimed dev ctrl (regs.LegacyFrom base extPtr) (view t) messages) s := by
  induction turns generalizing extPtr s with
  | zero => cases hends
  | succ turns ih =>
      -- where the walk stops there is nothing but this header
      have hstops : regs.extNext base extPtr = none → ∀ q,
          ReflTransGen (Hop (regs.extNext base)) extPtr q → q = extPtr := by
        intro hnone q hreach
        rcases hreach.cases_head with rfl | ⟨p, hhop, -⟩
        · rfl
        · cases hnone.symm.trans hhop
      rw [ownershipLoop]
      by_cases hzero : extPtr = 0
      · rw [if_pos hzero, wp_pure]
        refine ⟨hs, .absent ?_⟩
        rintro ⟨q, hreach, hlive, -⟩
        exact hlive ((hstops (if_pos (.inl hzero)) q hreach).trans hzero)
      obtain ⟨t, hread, hlater⟩ := h.read_only s extPtr (.inr (.inr ⟨hzero, hvisited⟩))
      rw [if_neg hzero, wp_bind]
      refine (wp_of_run (x := dev.readReg _) hread).mpr ?_
      have ht := hlater.awake hs
      show wp (if regs.capId extPtr = xhciExtCapLegacy then _ else if regs.nextPtr extPtr = 0 then _
        else ownershipLoop dev base turns (base + ((regs.nextPtr extPtr).toUInt64 <<< 2))) _ t
      by_cases hlegacy : regs.capId extPtr = xhciExtCapLegacy
      · rw [if_pos hlegacy]
        exact h.wp_requestOwnership ⟨extPtr, .refl, hzero, hlegacy⟩
          (h.legacy extPtr hzero hvisited hlegacy) ht
      rw [if_neg hlegacy]
      by_cases hlast : regs.nextPtr extPtr = 0
      · rw [if_pos hlast, wp_pure]
        refine ⟨ht, .absent ?_⟩
        rintro ⟨q, hreach, -, hq⟩
        rw [hstops (if_pos (.inr (.inr hlast))) q hreach] at hq
        exact hlegacy hq
      · rw [if_neg hlast]
        have hhop : regs.extNext base extPtr =
            some (base + ((regs.nextPtr extPtr).toUInt64 <<< 2)) :=
          if_neg (by simp only [hzero, hlegacy, hlast, or_self, not_false_eq_true])
        rw [XhciRegs.claimLoop, if_neg hzero, if_neg hlegacy, if_neg hlast,
          Option.isSome_map] at hends
        refine wp_mono (ih ⟨hvisited.1, hvisited.2.tail hhop⟩ hends ht) fun messages u hu ↦ ?_
        refine ⟨hu.1, ?_⟩
        have hiff : regs.LegacyFrom base (base + ((regs.nextPtr extPtr).toUInt64 <<< 2)) ↔
            regs.LegacyFrom base extPtr := by
          constructor
          · rintro ⟨q, hreach, hq⟩
            exact ⟨q, hreach.head hhop, hq⟩
          · rintro ⟨q, hreach, hlive, hq⟩
            rcases hreach.cases_head with rfl | ⟨p, hp, hrest⟩
            · exact absurd hq hlegacy
            · obtain rfl := Option.some.inj (hhop.symm.trans hp)
              exact ⟨q, hrest, hlive, hq⟩
        exact propext hiff ▸ hu.2

/-- `xhci_claim_ownership`. -/
theorem XhciDevice.wp_claimOwnership (h : XhciDevice dev pause view regs base ctrl) {turns : Nat}
    (hends : (regs.xhciClaimOwnership base turns).isSome) (hs : (view s).Awake) :
    wp (claimOwnership dev base turns) (fun messages t ↦
      (view t).Awake ∧ Claimed dev ctrl (regs.HasLegacy base) (view t) messages) s := by
  obtain ⟨t, hread, hlater⟩ := h.read_only s (base + xhciCapHccparams1) (.inr (.inl rfl))
  rw [claimOwnership, wp_bind]
  refine (wp_of_run (x := dev.readReg _) hread).mpr ?_
  have ht := hlater.awake hs
  show wp (if regs.extOffset base = 0 then _ else ownershipLoop dev base turns _) _ t
  by_cases hnone : regs.extOffset base = 0
  · rw [if_pos hnone, wp_pure]
    exact ⟨ht, .absent fun hlegacy ↦ hlegacy.1 hnone⟩
  · rw [if_neg hnone]
    rw [XhciRegs.xhciClaimOwnership, if_neg hnone, Option.isSome_map] at hends
    refine wp_mono (h.wp_ownershipLoop turns ⟨hnone, .refl⟩ hends ht) fun messages u hu ↦ ?_
    have hiff : regs.LegacyFrom base (regs.extHead base) ↔ regs.HasLegacy base :=
      (and_iff_right hnone).symm
    exact ⟨hu.1, propext hiff ▸ hu.2⟩

/-- The controller is stopped, and reset once it has halted. The semaphores stay as they are, but
for what the BIOS does. -/
theorem XhciDevice.wp_resetController (h : XhciDevice dev pause view regs base ctrl)
    (hhalts : HaltsIn pause view) (hs : (view s).Awake) :
    wp (resetController dev pause (regs.opBase base)) (fun outcome t ↦
      (view t).running = false ∧ (view t).osOwned = (view s).osOwned ∧
      ((view s).biosOwned = false → (view t).biosOwned = false) ∧
      ResetDone dev (regs.opBase base) (view t) outcome) s := by
  rw [resetController, wp_bind]
  -- stop
  obtain ⟨v₁, u₁, hread₁, hlater₁, hbit₁⟩ := h.cmd_read s
  have hu₁ := hlater₁.awake hs
  have hstop : (v₁ &&& ~~~1) &&& 1 = 0 := by
    rw [UInt32.and_assoc]
    exact UInt32.and_zero
  have hcmd : inReset (v₁ &&& ~~~1) = false := by
    rw [inReset, UInt32.and_assoc]
    exact hbit₁.trans hu₁.resetting
  obtain ⟨t₁, g₁, hwrite₁, hlater₁', hview₁⟩ :=
    h.cmd_stop u₁ _ hu₁.resetting hu₁.notReady hstop hcmd
  refine wp_modifyReg hread₁ hwrite₁ ?_
  have hg₁ := hlater₁'.awake hu₁
  have ht₁ : (view t₁).Awake := hview₁ ▸ ⟨hg₁.resetting, hg₁.notReady⟩
  have hrun₁ : (view t₁).running = false := by rw [hview₁]
  -- halt
  have hlater₂ := h.paused t₁
  rw [wp_bind, wp_modify, wp_bind]
  -- reset
  obtain ⟨v₃, u₃, hread₃, hlater₃, -⟩ := h.cmd_read (pause t₁)
  have hquiet := hlater₂.trans hlater₃
  have hu₃ := hquiet.awake ht₁
  have hreset : inReset (v₃ ||| (1 : UInt32) <<< 1) = true := by
    rw [inReset, or_and_right_self]
    rfl
  obtain ⟨t₃, g₃, hwrite₃, hlater₃', hview₃⟩ := h.cmd_reset u₃ _ hu₃.resetting hu₃.notReady
    (hquiet.running.trans hrun₁) (hlater₃.halted (hhalts t₁ hrun₁)) hreset
  refine wp_modifyReg hread₃ hwrite₃ ?_
  -- the two waits
  rw [wp_bind]
  refine wp_mono (wp_waitForBit h.cmd_read) fun left₄ t₄ h₄ ↦ ?_
  obtain ⟨hlater₄, hend₄⟩ := h₄
  rw [wp_bind]
  refine wp_mono (wp_waitForBit h.sts_read) fun left₅ t₅ h₅ ↦ ?_
  obtain ⟨hlater₅, hend₅⟩ := h₅
  have hwaits := hlater₄.trans hlater₅
  have hbefore := hquiet.trans hlater₃'
  rw [wp_pure]
  refine ⟨?_, ?_, fun hbios ↦ hwaits.not_biosOwned ?_, ?_⟩
  · rw [hwaits.running, hview₃]
    exact hbefore.running.trans hrun₁
  · rw [hwaits.osOwned, hview₃]
    refine hbefore.osOwned.trans ?_
    rw [hview₁]
    exact (hlater₁.trans hlater₁').osOwned
  · rw [hview₃]
    refine hbefore.not_biosOwned ?_
    rw [hview₁]
    exact (hlater₁.trans hlater₁').not_biosOwned hbios
  · rcases hend₄ with ⟨rfl, hall⟩ | ⟨hleft₄, hdone⟩
    · rw [if_pos (.inl rfl)]
      exact .late (.inl hall)
    rcases hend₅ with ⟨rfl, hall⟩ | ⟨hleft₅, hready⟩
    · rw [if_pos (.inr rfl)]
      exact .late (.inr hall)
    · rw [if_neg (not_or.mpr ⟨hleft₄, hleft₅⟩)]
      refine .ready (Bool.eq_false_of_not_eq_true fun hbusy ↦ ?_) hready
      exact Bool.false_ne_true (hdone.symm.trans (hlater₅.resetting hbusy))

/-- `xhci_init` from the version on. -/
theorem XhciDevice.wp_startController (h : XhciDevice dev pause view regs base ctrl)
    (hhalts : HaltsIn pause view) {turns : Nat} (hends : (regs.xhciClaimOwnership base turns).isSome) (hs : (view s).Awake) :
    wp (startController dev pause base turns) (fun messages t ↦ ∃ claimed outcome,
      messages = .version (regs.regs base >>> 16).toUInt16 :: (claimed ++ [.resetting, outcome]) ∧
      (view t).running = false ∧ Claimed dev ctrl (regs.HasLegacy base) (view t) claimed ∧
      ResetDone dev (regs.opBase base) (view t) outcome) s := by
  obtain ⟨t₁, hread₁, hlater₁⟩ := h.read_only s base (.inl rfl)
  rw [startController, wp_bind]
  refine (wp_of_run (x := dev.readReg _) hread₁).mpr ?_
  rw [wp_bind]
  refine wp_mono (h.wp_claimOwnership hends (hlater₁.awake hs)) fun claimed t₂ h₂ ↦ ?_
  obtain ⟨ht₂, hclaimed⟩ := h₂
  obtain ⟨t₃, hread₃, hlater₃⟩ := h.read_only t₂ base (.inl rfl)
  rw [wp_bind]
  refine (wp_of_run (x := dev.readReg _) hread₃).mpr ?_
  rw [wp_bind]
  refine wp_mono (h.wp_resetController hhalts (hlater₃.awake ht₂)) fun outcome t ht ↦ ?_
  obtain ⟨hrunning, hos, hbios, hdone⟩ := ht
  rw [wp_pure]
  refine ⟨claimed, outcome, rfl, hrunning, hclaimed.mono (fun hown ↦ ?_) fun hfree ↦ ?_, hdone⟩
  · rw [hos, hlater₃.osOwned]
    exact hown
  · exact hbios (hlater₃.not_biosOwned hfree)

/-- A value that is there, and what comes after it. -/
theorem run_lift_bind {α β : Type} {o : Option α} {a : α} {f : α → StateT S Option β}
    (h : o = some a) : (StateT.lift o >>= f).run s = (f a).run s := by
  rw [h]
  rfl

/-- `xhci_init` once the registers are mapped. -/
theorem xhciInit_mapped {cfg : ConfigSpace} {mmu mmu' : Mmu} {addr turns : Nat}
    {messages : List UsbMessage} (hmap : ioremap mmu (barAddress cfg 0) 0x4000 = some (addr, mmu'))
    (haddr : addr ≠ 0)
    (hrun : (startController dev pause (UInt64.ofNat addr) turns).run s = some (messages, t)) :
    (xhciInit dev pause cfg mmu turns).run s =
      some (((barMessages cfg ++ messages).flatMap UsbMessage.bytes, mmu'), t) := by
  rw [xhciInit, run_lift_bind hmap]
  dsimp only
  rw [if_neg haddr, run_bind_of_run hrun]
  rfl

end Proofs

/-- For every controller that is ready when `xhci_init` maps its registers, if it halts in the pause
and the walk over its capabilities ends: `xhci_init` returns with the controller stopped. It prints that the BIOS gave up
the ownership only if it did and the system has it, and that the controller is ready only if it is.
When it prints otherwise, the controller or the BIOS took a million reads. It prints nothing of the
ownership if and only if the walk comes to no Legacy Support capability. -/
theorem usb_report_true {S : Type} (dev : Mmio.Device UInt64 UInt32 S) (pause : S → S)
    (view : S → Xhc) (regs : XhciRegs) (ctrl : UInt64) (cfg : ConfigSpace) (mmu mmu' : Mmu)
    (base : Nat) (hmap : ioremap mmu (barAddress cfg 0) 0x4000 = some (base, mmu'))
    (hbase : base ≠ 0) (h : XhciDevice dev pause view regs (UInt64.ofNat base) ctrl)
    (hhalts : HaltsIn pause view) (turns : Nat)
    (hends : (regs.xhciClaimOwnership (UInt64.ofNat base) turns).isSome) (s : S)
    (hs : (view s).Awake) :
    ∃ claimed outcome t, (xhciInit dev pause cfg mmu turns).run s =
      some (((barMessages cfg ++
        .version (regs.regs (UInt64.ofNat base) >>> 16).toUInt16 ::
          (claimed ++ [.resetting, outcome])).flatMap UsbMessage.bytes, mmu'), t) ∧
      (view t).running = false ∧
      Claimed dev ctrl (regs.HasLegacy (UInt64.ofNat base)) (view t) claimed ∧
      ResetDone dev (regs.opBase (UInt64.ofNat base)) (view t) outcome := by
  obtain ⟨_, t, hrun, claimed, outcome, rfl, hend⟩ := h.wp_startController hhalts hends hs
  exact ⟨claimed, outcome, t, xhciInit_mapped hmap hbase hrun, hend⟩

/-- A controller at `0x80000000`, 32 bytes of capability registers long, with a Legacy Support
capability 256 bytes from its start. -/
def XhciRegs.legacyOnly : XhciRegs :=
  .sample [(0x80000000, 0x01000020), (0x80000010, 0x00400000), (0x80000100, 0x1)]

/-- It has done what it was told by the time of the next access. -/
def Xhc.prompt : Mmio.Device UInt64 UInt32 Xhc where
  read g addr :=
    if addr = 0x80000020 then
      some ((if g.running then 1 else 0), { g with resetting := false })
    else if addr = 0x80000024 then some (0, { g with notReady := false })
    else if addr = 0x80000104 then
      some ((if g.osOwned then usbOsOwned else if g.biosOwned then usbBiosOwned else 0),
        { g with biosOwned := g.biosOwned && !g.osOwned })
    else some (XhciRegs.legacyOnly.regs addr, g)
  write g addr v :=
    if addr = 0x80000020 then
      some (if inReset v then { g with resetting := true, notReady := true }
        else { g with running := v &&& 1 ≠ 0 })
    else if addr = 0x80000104 then
      some { g with biosOwned := biosOwns v, osOwned := v &&& usbOsOwned ≠ 0 }
    else none

/-- A controller that stops when told to has halted after the pause. -/
def Xhc.halt (g : Xhc) : Xhc := { g with halted := g.halted || !g.running }

/-- Its walk comes to one header. -/
theorem XhciRegs.legacyOnly_visited {extPtr : UInt64}
    (h : XhciRegs.legacyOnly.Visited 0x80000000 extPtr) : extPtr = 0x80000100 := by
  have hlast : XhciRegs.legacyOnly.extNext 0x80000000 0x80000100 = none := by decide
  rcases ReflTransGen.cases_head h.2 with rfl | ⟨q, hhop, -⟩
  · rfl
  · cases hlast.symm.trans hhop

theorem Xhc.prompt_device :
    XhciDevice Xhc.prompt Xhc.halt id .legacyOnly 0x80000000 0x80000104 where
  read_only g addr haddr := by
    have hother : addr = 0x80000000 ∨ addr = 0x80000010 ∨ addr = 0x80000100 :=
      haddr.imp_right (Or.imp_right fun h ↦ XhciRegs.legacyOnly_visited h.2)
    refine ⟨g, ?_, .refl g⟩
    rcases hother with rfl | rfl | rfl <;> rfl
  legacy extPtr _ hvisited _ := by
    rw [XhciRegs.legacyOnly_visited hvisited]
    rfl
  ctrl_read g := by
    refine ⟨_, _, rfl, ⟨rfl, id, id, id, ?_, rfl⟩, ?_⟩
    · exact fun h ↦ (Bool.and_eq_true_iff.mp h).1
    · cases hos : g.osOwned <;> cases hbios : g.biosOwned <;> rfl
  ctrl_write g v := ⟨_, g, rfl, .refl g, rfl⟩
  cmd_read g := by
    refine ⟨_, _, rfl, ⟨rfl, id, nofun, id, id, rfl⟩, ?_⟩
    cases hrunning : g.running <;> rfl
  cmd_stop g v _ _ hstop hcmd := by
    refine ⟨_, g, rfl, .refl g, ?_⟩
    show (if inReset v then _ else _) = _
    rw [hcmd, hstop]
    rfl
  cmd_reset g v _ _ _ _ hcmd := by
    refine ⟨_, g, rfl, .refl g, ?_⟩
    show (if inReset v then _ else _) = _
    rw [hcmd]
    rfl
  sts_read g := ⟨_, _, rfl, ⟨rfl, id, id, nofun, id, rfl⟩, rfl⟩
  paused g := ⟨rfl, fun h ↦ Bool.or_eq_true_iff.mpr (.inl h), id, id, id, rfl⟩

theorem Xhc.prompt_halts : HaltsIn Xhc.halt id := fun _ h ↦
  Bool.or_eq_true_iff.mpr (.inr (congrArg (!·) h))

/-- Its configuration space, as far as `xhci_init` reads it. -/
def ConfigSpace.legacyOnly : ConfigSpace := fun reg ↦ if reg = 0x10 then 0x80000000 else 0

theorem usb_report_true_prompt : ∃ out t, (xhciInit Xhc.prompt Xhc.halt .legacyOnly
    ⟨⟨fun _ ↦ 0, fun _ ↦ 0, fun _ ↦ 0, fun _ ↦ 0, fun _ _ ↦ 0⟩, vmallocStart⟩ 3).run
      ⟨true, false, false, false, true, false⟩ =
        some (out, t) ∧ t.running = false := by
  obtain ⟨⟨base, mmu'⟩, hmap, hbase⟩ := Option.map_eq_some_iff.mp
    (by decide +kernel : (ioremap
      ⟨⟨fun _ ↦ 0, fun _ ↦ 0, fun _ ↦ 0, fun _ ↦ 0, fun _ _ ↦ 0⟩, vmallocStart⟩
      (barAddress .legacyOnly 0) 0x4000).map Prod.fst = some 0x80000000)
  obtain rfl : base = 0x80000000 := hbase
  obtain ⟨claimed, outcome, t, hrun, hrunning, -⟩ := usb_report_true Xhc.prompt Xhc.halt id
    .legacyOnly 0x80000104 _ _ mmu' 0x80000000 hmap (by decide) Xhc.prompt_device
    Xhc.prompt_halts 3 (by decide +kernel) ⟨true, false, false, false, true, false⟩ ⟨rfl, rfl⟩
  exact ⟨_, t, hrun, hrunning⟩

end Aether.Drivers
