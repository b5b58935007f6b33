import Aether.Drivers.VirtioPci
import Aether.Kernel.Ioremap

/-!
# The banks of a virtio device

What the pointers of `struct virtio_pci_device` lead to after `virtio_pci_cap_lookup`. A bank that
is set shows, register by register, the window of a BAR that one of the capabilities in the list
names for it, and a bank is missing only if no capability of its type could be mapped.
-/

namespace Aether.Drivers

open Kernel Chains Relation

/-! ## Capabilities -/

section Capability

variable (cfg : ConfigSpace) (capPtr : UInt8)

/-- `cap_id` of the capability at `capPtr`. -/
def capId : UInt8 := (pcieReadConfig cfg capPtr.toNat &&& 0xFF).toUInt8

/-- `type`. -/
def capType : UInt8 := ((pcieReadConfig cfg capPtr.toNat >>> 24) &&& 0xFF).toUInt8

/-- `bar`. -/
def capBar : UInt8 := (pcieReadConfig cfg (capPtr.toNat + 4) &&& 0xFF).toUInt8

/-- The physical address that the capability names. -/
def capPhys : Nat :=
  (barAddress cfg (capBar cfg capPtr) + (pcieReadConfig cfg (capPtr.toNat + 8)).toNat) % 2 ^ 64

/-- `length`. -/
def capLength : Nat := (pcieReadConfig cfg (capPtr.toNat + 12)).toNat

/-- A vendor-specific capability that names a window of a BAR with an address. -/
def CapWindow : Prop := capId cfg capPtr = 0x09 ∧ barAddress cfg (capBar cfg capPtr) ≠ 0

instance : Decidable (CapWindow cfg capPtr) := inferInstanceAs (Decidable (_ ∧ _))

/-- A visit maps the window, if there is one, and stores where it is. -/
theorem capVisit_eq (banks : VirtioPciBanks) (mmu : Mmu) : capVisit cfg banks mmu capPtr =
    if CapWindow cfg capPtr then
      (ioremap mmu (capPhys cfg capPtr) (capLength cfg capPtr)).map fun r ↦
        (if r.1 = 0 then banks else storeBank cfg banks (capType cfg capPtr) capPtr r.1, r.2)
    else some (banks, mmu) := by
  have hvisit : capVisit cfg banks mmu capPtr =
      if capId cfg capPtr = 0x09 then
        if barAddress cfg (capBar cfg capPtr) = 0 then some (banks, mmu)
        else (ioremap mmu (capPhys cfg capPtr) (capLength cfg capPtr)).map fun r ↦
          (if r.1 = 0 then banks else storeBank cfg banks (capType cfg capPtr) capPtr r.1, r.2)
      else some (banks, mmu) := rfl
  rw [hvisit]
  by_cases hid : capId cfg capPtr = 0x09
  · by_cases haddr : barAddress cfg (capBar cfg capPtr) = 0
    · rw [if_pos hid, if_pos haddr, if_neg fun h ↦ h.2 haddr]
    · rw [if_pos hid, if_neg haddr, if_pos ⟨hid, haddr⟩]
  · rw [if_neg hid, if_neg fun h ↦ hid h.1]

end Capability

/-- The banks that capabilities name. -/
inductive BankType where
  | common
  | notify
  | isr
  | device
  deriving DecidableEq

/-- The value of `type` for a bank. -/
def BankType.code : BankType → UInt8
  | common => virtioPciCapCommonCfg
  | notify => virtioPciCapNotifyCfg
  | isr => virtioPciCapIsrCfg
  | device => virtioPciCapDeviceCfg

/-- The pointer to a bank. -/
def VirtioPciBanks.bank (banks : VirtioPciBanks) : BankType → Nat
  | .common => banks.common
  | .notify => banks.notifyBase
  | .isr => banks.isr
  | .device => banks.device

/-- No bank is set. -/
def VirtioPciBanks.none : VirtioPciBanks := ⟨0, 0, 0, 0, 0⟩

/-- A pointer is stored for the bank that the capability is about. -/
theorem bank_storeBank (cfg : ConfigSpace) (banks : VirtioPciBanks) (type capPtr : UInt8)
    (virt : Nat) (t : BankType) : (storeBank cfg banks type capPtr virt).bank t =
      if type = t.code then virt else banks.bank t := by
  unfold storeBank
  split
  · rename_i h
    subst h
    cases t <;> rfl
  split
  · rename_i h
    subst h
    cases t <;> rfl
  split
  · rename_i h
    subst h
    cases t <;> rfl
  split
  · rename_i h
    subst h
    cases t <;> rfl
  · rename_i hcommon hdevice hisr hnotify
    refine (if_neg ?_).symm
    cases t <;> assumption

/-- With the notify bank goes its multiplier. -/
theorem multiplier_storeBank (cfg : ConfigSpace) (banks : VirtioPciBanks) (type capPtr : UInt8)
    (virt : Nat) : (storeBank cfg banks type capPtr virt).notifyOffMultiplier =
      if type = virtioPciCapNotifyCfg then pcieReadConfig cfg (capPtr.toNat + 16)
      else banks.notifyOffMultiplier := by
  unfold storeBank
  split
  · rename_i h
    subst h
    rfl
  split
  · rename_i h
    subst h
    rfl
  split
  · rename_i h
    subst h
    rfl
  split <;> rfl

/-! ## Room in the dynamic region -/

/-- What is left of the dynamic region holds the pages of a window. -/
def HasRoom (m : Mmu) (physAddr size : Nat) : Prop :=
  size ≠ 0 ∧ m.vmallocPtr + pageCeil (physAddr % 4096 + size) ≤ vmallocMax

section Room

variable {m m' : Mmu} {physAddr size virt : Nat}

/-- The room only shrinks. -/
theorem HasRoom.mono (h : HasRoom m' physAddr size) (hle : m.vmallocPtr ≤ m'.vmallocPtr) :
    HasRoom m physAddr size :=
  ⟨h.1, (Nat.add_le_add_right hle _).trans h.2⟩

/-- `vmalloc_ptr` does not move down. -/
theorem vmallocPtr_le_of_ioremap (h : m.Bounded) (hsize : size < 2 ^ 32)
    (hphys : physAddr + size ≤ 2 ^ 48) (hcall : ioremap m physAddr size = some (virt, m')) :
    m.vmallocPtr ≤ m'.vmallocPtr := by
  rcases h.ioremap_cases hsize hphys with hnull | ⟨n, kpt, -, -, -, -, -, hgrant⟩
  · cases hcall.symm.trans hnull
    exact le_rfl
  · cases hcall.symm.trans hgrant
    exact Nat.le_add_right ..

/-- Where there is room, `ioremap` succeeds. -/
theorem ioremap_ne_null (h : m.Bounded) (hsize : size < 2 ^ 32) (hroom : HasRoom m physAddr size)
    (hcall : ioremap m physAddr size = some (virt, m')) : virt ≠ 0 := by
  obtain ⟨hne, hfits⟩ := hroom
  have hstart : 0x80000000 ≤ m.vmallocPtr := h.low
  have hend : m.vmallocPtr ≤ 0x80800000 := h.high
  have hoffset : physAddr % 4096 < 4096 := Nat.mod_lt _ (by decide)
  obtain ⟨n, hceil, -, hhigh⟩ := pageCeil_spec (x := physAddr % 4096 + size) (by omega)
  have hreserve : vmalloc m (pageCeil ((physAddr % 4096 + size) % 2 ^ 64)) =
      (m.vmallocPtr, { m with vmallocPtr := m.vmallocPtr + 4096 * n }) := by
    have hmax : vmallocMax = 0x80800000 := by decide
    rw [Nat.mod_eq_of_lt (by omega), hceil]
    rw [hceil] at hfits
    unfold vmalloc
    dsimp only
    rw [pageCeil_pages (by omega), Nat.mod_eq_of_lt (by omega), if_neg (by omega)]
  unfold ioremap at hcall
  rw [if_neg hne] at hcall
  dsimp only [pageSize] at hcall
  rw [hreserve] at hcall
  dsimp only at hcall
  rw [if_neg (by omega)] at hcall
  obtain ⟨kpt, -, heq⟩ := Option.map_eq_some_iff.mp hcall
  cases heq
  omega

end Room

/-! ## The walk -/

/-- The capability at `capPtr` names the window that `virt` shows. -/
structure Shows (cfg : ConfigSpace) (s : Mappings) (t : BankType) (capPtr : UInt8) (virt : Nat) :
    Prop where
  window : CapWindow cfg capPtr
  type : capType cfg capPtr = t.code
  granted : ⟨virt, capPhys cfg capPtr, capLength cfg capPtr⟩ ∈ s.granted

/-- The banks after visits to capabilities. A bank that is set shows the window that one of them
names, with the multiplier that goes with it; for one that is not there was no room. -/
structure BanksOf (cfg : ConfigSpace) (visited : List UInt8) (s : Mappings)
    (banks : VirtioPciBanks) : Prop where
  set : ∀ t, banks.bank t ≠ 0 → ∃ capPtr ∈ visited, Shows cfg s t capPtr (banks.bank t) ∧
    (t = .notify → banks.notifyOffMultiplier = pcieReadConfig cfg (capPtr.toNat + 16))
  missing : ∀ t, banks.bank t = 0 → ∀ capPtr ∈ visited, CapWindow cfg capPtr →
    capType cfg capPtr = t.code → ¬ HasRoom s.mmu (capPhys cfg capPtr) (capLength cfg capPtr)

section Walk

variable {cfg : ConfigSpace} {visited : List UInt8} {s s' : Mappings} {banks : VirtioPciBanks}
  {a : KptAddress}

/-- Later calls of `ioremap` do not take windows away or make room. -/
theorem BanksOf.mono (h : BanksOf cfg visited s banks) (hgranted : s.granted ⊆ s'.granted)
    (hptr : s.mmu.vmallocPtr ≤ s'.mmu.vmallocPtr) : BanksOf cfg visited s' banks := by
  refine ⟨fun t ht ↦ ?_, fun t ht capPtr hmem hwindow htype hroom ↦ ?_⟩
  · obtain ⟨capPtr, hmem, hshows, hnotify⟩ := h.set t ht
    exact ⟨capPtr, hmem, ⟨hshows.window, hshows.type, hgranted hshows.granted⟩, hnotify⟩
  · exact h.missing t ht capPtr hmem hwindow htype (hroom.mono hptr)

/-- A capability that names no window, or whose window does not fit, changes nothing. -/
theorem BanksOf.skip (h : BanksOf cfg visited s banks) {capPtr : UInt8}
    (hskip : CapWindow cfg capPtr → ¬ HasRoom s.mmu (capPhys cfg capPtr) (capLength cfg capPtr)) :
    BanksOf cfg (visited ++ [capPtr]) s banks := by
  refine ⟨fun t ht ↦ ?_, fun t ht p hmem hwindow htype ↦ ?_⟩
  · obtain ⟨p, hmem, hrest⟩ := h.set t ht
    exact ⟨p, List.mem_append_left _ hmem, hrest⟩
  · rcases List.mem_append.mp hmem with hold | hnew
    · exact h.missing t ht p hold hwindow htype
    · obtain rfl := List.mem_singleton.mp hnew
      exact hskip hwindow

/-- A capability whose window was mapped sets its bank. -/
theorem BanksOf.store (h : BanksOf cfg visited s banks) {capPtr : UInt8} {virt : Nat}
    (hne : virt ≠ 0) (hwindow : CapWindow cfg capPtr)
    (hgranted : ⟨virt, capPhys cfg capPtr, capLength cfg capPtr⟩ ∈ s.granted) :
    BanksOf cfg (visited ++ [capPtr]) s
      (storeBank cfg banks (capType cfg capPtr) capPtr virt) := by
  refine ⟨fun t ht ↦ ?_, fun t ht p hmem hp htype ↦ ?_⟩
  · rw [bank_storeBank] at ht ⊢
    rw [multiplier_storeBank]
    by_cases htype : capType cfg capPtr = t.code
    · rw [if_pos htype]
      refine ⟨capPtr, List.mem_append_right _ (List.mem_singleton_self _),
        ⟨hwindow, htype, hgranted⟩, fun hnotify ↦ ?_⟩
      subst hnotify
      exact if_pos htype
    · rw [if_neg htype] at ht ⊢
      obtain ⟨p, hmem, hshows, hnotify⟩ := h.set t ht
      refine ⟨p, List.mem_append_left _ hmem, hshows, fun hnot ↦ ?_⟩
      subst hnot
      exact (if_neg htype).trans (hnotify rfl)
  · rw [bank_storeBank] at ht
    by_cases hset : capType cfg capPtr = t.code
    · exact absurd ((if_pos hset).symm.trans ht) hne
    · rw [if_neg hset] at ht
      rcases List.mem_append.mp hmem with hold | hnew
      · exact h.missing t ht p hold hp htype
      · obtain rfl := List.mem_singleton.mp hnew
        exact absurd htype hset

/-- The windows that the capabilities name lie in the physical address space. -/
def InPhysicalSpace (cfg : ConfigSpace) : Prop :=
  ∀ capPtr, CapWindow cfg capPtr → capPhys cfg capPtr + capLength cfg capPtr ≤ 2 ^ 48

/-- A visit to a capability. -/
theorem BanksOf.visit (h : BanksOf cfg visited s banks) (hs : s.Sound a)
    (hphys : InPhysicalSpace cfg) {capPtr : UInt8} {banks' : VirtioPciBanks} {mmu : Mmu}
    (hvisit : capVisit cfg banks s.mmu capPtr = some (banks', mmu)) :
    ∃ s', ReflTransGen (Mappings.Step Mmu.Fits) s s' ∧ s'.mmu = mmu ∧ s.granted ⊆ s'.granted ∧
      BanksOf cfg (visited ++ [capPtr]) s' banks' := by
  rw [capVisit_eq] at hvisit
  by_cases hwindow : CapWindow cfg capPtr
  · rw [if_pos hwindow] at hvisit
    obtain ⟨⟨virt, mmu₁⟩, hcall, heq⟩ := Option.map_eq_some_iff.mp hvisit
    have hsize : capLength cfg capPtr < 2 ^ 32 := UInt32.toNat_lt _
    have hbound := hphys capPtr hwindow
    have hptr := vmallocPtr_le_of_ioremap hs.bounded hsize hbound hcall
    have hstep := @Mappings.Step.ioremap Mmu.Fits _ _ _ _ _ hsize hbound hcall
    obtain ⟨rfl, rfl⟩ := Prod.mk.inj heq
    refine ⟨_, .single hstep, rfl, ?_⟩
    by_cases hnull : virt = 0
    · rw [if_pos hnull, if_pos hnull]
      refine ⟨List.Subset.refl _, (h.skip fun _ hroom ↦ ?_).mono (List.Subset.refl _) hptr⟩
      exact ioremap_ne_null hs.bounded hsize hroom hcall hnull
    · rw [if_neg hnull, if_neg hnull]
      have hmoved : BanksOf cfg visited
          ⟨mmu₁, ⟨virt, capPhys cfg capPtr, capLength cfg capPtr⟩ :: s.granted⟩ banks :=
        h.mono (List.subset_cons_self _ _) hptr
      exact ⟨List.subset_cons_self _ _, hmoved.store hnull hwindow List.mem_cons_self⟩
  · rw [if_neg hwindow] at hvisit
    cases hvisit
    exact ⟨s, .refl, rfl, List.Subset.refl _, h.skip fun hw ↦ absurd hw hwindow⟩

/-- The loop of `virtio_pci_cap_lookup` visits the capabilities of the list. -/
theorem BanksOf.loop (h : BanksOf cfg visited s banks) {board : Board}
    (hs : Mappings.Reaches Mmu.Fits board a s) (hphys : InPhysicalSpace cfg) {turns : Nat}
    {capPtr : UInt8} {banks' : VirtioPciBanks} {mmu : Mmu}
    (hrun : capLoop cfg turns capPtr banks s.mmu = some (banks', mmu)) :
    ∃ s' list, visits (capNext cfg) turns capPtr = some list ∧
      Mappings.Reaches Mmu.Fits board a s' ∧ s'.mmu = mmu ∧ s.granted ⊆ s'.granted ∧
      BanksOf cfg (visited ++ list.dropLast) s' banks' := by
  induction turns generalizing visited s banks capPtr with
  | zero => cases hrun
  | succ turns ih =>
      by_cases hlive : capPtr ≠ 0 ∧ capPtr < 0xFF
      · have hnext : capNext cfg capPtr = some (capNextPtr cfg capPtr) := if_pos hlive
        rw [capLoop, if_pos hlive] at hrun
        obtain ⟨⟨banks₁, mmu₁⟩, hvisit, hrest⟩ := Option.bind_eq_some_iff.mp hrun
        obtain ⟨s₁, hsteps, rfl, hsub, hbanks⟩ := h.visit hs.sound hphys hvisit
        obtain ⟨s', list, hlist, hreaches, hmmu, hsub', hbanks'⟩ :=
          ih hbanks (hs.steps hsteps) hrest
        refine ⟨s', capPtr :: list, ?_, hreaches, hmmu,
          fun r hr ↦ hsub' (hsub hr), ?_⟩
        · rw [visits_hop hnext, hlist, Option.map_some]
        · have hne := visits_ne_nil hlist
          rw [List.dropLast_cons_of_ne_nil hne, List.append_cons]
          exact hbanks'
      · have hnext : capNext cfg capPtr = none := if_neg hlive
        rw [capLoop, if_neg hlive] at hrun
        cases hrun
        refine ⟨s, [capPtr], visits_stop hnext turns, hs, rfl, List.Subset.refl _, ?_⟩
        rw [List.dropLast_singleton, List.append_nil]
        exact h

end Walk

/-- After `virtio_pci_cap_lookup`, at any time in a run, a bank that is set shows the window that a
capability of its type in the list names, register by register. One is missing only if none of the
capabilities of its type names a window that there is still room for. What was mapped before stays
mapped. -/
theorem banks_show (board : Board) (a : KptAddress) (s : Mappings)
    (h : Mappings.Reaches Mmu.Fits board a s) (cfg : ConfigSpace) (hphys : InPhysicalSpace cfg)
    (turns : Nat) (banks : VirtioPciBanks) (mmu : Mmu)
    (hrun : virtioPciCapLookup cfg turns .none s.mmu = some (banks, mmu)) :
    ∃ list, visits (capNext cfg) turns (capHead cfg) = some list ∧
      (∀ t, banks.bank t ≠ 0 → ∃ capPtr ∈ list.dropLast,
        CapWindow cfg capPtr ∧ capType cfg capPtr = t.code ∧
        (∀ k < capLength cfg capPtr,
          walk a mmu.kpt (banks.bank t + k) = some ⟨capPhys cfg capPtr + k, mtAttrDevice⟩) ∧
        (t = .notify → banks.notifyOffMultiplier = pcieReadConfig cfg (capPtr.toNat + 16))) ∧
      (∀ t, banks.bank t = 0 → ∀ capPtr ∈ list.dropLast, CapWindow cfg capPtr →
        capType cfg capPtr = t.code → ¬ HasRoom mmu (capPhys cfg capPtr) (capLength cfg capPtr)) ∧
      ∀ r ∈ s.granted, ∀ k < r.size,
        walk a mmu.kpt (r.virt + k) = some ⟨r.phys + k, mtAttrDevice⟩ := by
  have hnone : BanksOf cfg [] s .none := by
    refine ⟨fun t ht ↦ absurd ?_ ht, fun _ _ _ hmem ↦ absurd hmem List.not_mem_nil⟩
    cases t <;> rfl
  obtain ⟨s', list, hlist, hreaches, rfl, hsub, hbanks⟩ := hnone.loop h hphys hrun
  have hsound := hreaches.sound
  refine ⟨list, hlist, fun t ht ↦ ?_, hbanks.missing, fun r hr k hk ↦ hsound.walk_eq (hsub hr) hk⟩
  obtain ⟨capPtr, hmem, hshows, hnotify⟩ := hbanks.set t ht
  exact ⟨capPtr, hmem, hshows.window, hshows.type, fun k hk ↦ hsound.walk_eq hshows.granted hk,
    hnotify⟩

/-- A function whose only capability names the common bank, at 0x1000 of a BAR of 64 bits. -/
def commonOnly : ConfigSpace := fun reg ↦
  if reg = 0x20 then 0x1000000C
  else if reg = 0x34 then 0x40
  else if reg = 0x40 then 0x01000009
  else if reg = 0x44 then 4
  else if reg = 0x48 then 0x1000
  else if reg = 0x4C then 0x38
  else 0

theorem commonOnly_inPhysicalSpace : InPhysicalSpace commonOnly := by
  have hall : ∀ i : Fin 256, CapWindow commonOnly (UInt8.ofNat i.val) →
      capPhys commonOnly (UInt8.ofNat i.val) + capLength commonOnly (UInt8.ofNat i.val) ≤
        2 ^ 48 := by
    decide +kernel
  intro capPtr
  have hptr := hall ⟨capPtr.toNat, capPtr.toNat_lt⟩
  rwa [UInt8.ofNat_toNat] at hptr

/-- Its status register is found at offset 0x14 of the bank. -/
theorem banks_show_status : ∃ banks mmu,
    virtioPciCapLookup commonOnly 2 .none (.boot .virt .sample) = some (banks, mmu) ∧
      walk .sample mmu.kpt (banks.common + 0x14) = some ⟨0x10001014, mtAttrDevice⟩ := by
  obtain ⟨⟨banks, mmu⟩, hrun, hcommon⟩ := (Option.any_eq_true
    (fun r : VirtioPciBanks × Mmu ↦ decide (r.1.common ≠ 0))
    (virtioPciCapLookup commonOnly 2 .none (.boot .virt .sample))).mp (by decide +kernel)
  refine ⟨banks, mmu, hrun, ?_⟩
  obtain ⟨list, hlist, hset, -, -⟩ := banks_show .virt .sample ⟨.boot .virt .sample, []⟩ (.init rfl)
    commonOnly commonOnly_inPhysicalSpace 2 banks mmu hrun
  have hvisits : visits (capNext commonOnly) 2 (capHead commonOnly) = some [0x40, 0] := by
    decide +kernel
  cases hvisits.symm.trans hlist
  obtain ⟨capPtr, hmem, -, -, hwalk, -⟩ := hset .common (of_decide_eq_true hcommon)
  obtain rfl := List.mem_singleton.mp hmem
  exact hwalk 0x14 (by decide +kernel)

end Aether.Drivers
