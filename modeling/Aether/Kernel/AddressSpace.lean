import Aether.Kernel.Ioremap

/-!
# The kernel's address space

What the tables of `mmu_init` and `ioremap` make of every virtual address. `Mappings.translate` is
the map that the kernel lives in: the first gigabyte and RAM are where they are physically, a window
of RAM shows the PCI configuration space, and the dynamic region shows what `ioremap` was asked for.
`address_space` says that the walk over the tables computes it after any calls.
-/

namespace Aether.Kernel

open Transition

/-! ## The map -/

/-- `MT_ATTR_NORMAL_NC`. -/
def mtAttrNormalNc : Nat := 0x44

/-- `MT_ATTR_NORMAL_WB`. -/
def mtAttrNormalWb : Nat := 0xFF

/-- The address lies in the window of the configuration space. -/
def Board.InEcam (board : Board) (va : Nat) : Prop :=
  board.pcieExtCfgData ≤ va ∧ va < board.pcieExtCfgData + 0x08000000

instance (board : Board) (va : Nat) : Decidable (board.InEcam va) :=
  inferInstanceAs (Decidable (_ ∧ _))

/-- What an address outside the dynamic region is translated to. The descriptors of peripherals have
the bit `0x4` set, which selects the second entry of `mair_el1`. -/
def Board.fixed (board : Board) (va : Nat) : Option Translation :=
  if va < 0x40000000 then some ⟨va, mtAttrNormalNc⟩
  else if va < 0x80000000 then
    if board.InEcam va then
      some ⟨board.pciePhysBase + (va - board.pcieExtCfgData), mtAttrNormalNc⟩
    else some ⟨va, mtAttrNormalWb⟩
  else none

/-- The address lies on a page of the region. -/
def Mapping.Covers (r : Mapping) (va : Nat) : Prop :=
  r.virt / 4096 ≤ va / 4096 ∧ va / 4096 ≤ (r.virt + r.size - 1) / 4096

instance (r : Mapping) (va : Nat) : Decidable (r.Covers va) := inferInstanceAs (Decidable (_ ∧ _))

instance (va : Nat) : Decidable (InPool va) := inferInstanceAs (Decidable (_ ∧ _))

/-- The frames around what was asked for, shown on the pages of the region. -/
def Mapping.translate (r : Mapping) (va : Nat) : Translation :=
  ⟨pageFloor r.phys + (va - pageFloor r.virt), mtAttrDevice⟩

/-- What the kernel's addresses stand for. -/
def Mappings.translate (s : Mappings) (board : Board) (va : Nat) : Option Translation :=
  if InPool va then (s.granted.find? fun r ↦ r.Covers va).map fun r ↦ r.translate va
  else board.fixed va

/-! ## Walks -/

/-- Every access is allowed to a block whose access flag is set. -/
theorem leaf_block {p low va : Nat} (hp : p % 2 ^ 21 = 0) (hbound : p < 2 ^ 48) (hlow : low < 4096)
    (haccess : low / 2 ^ 10 % 2 = 1) :
    leaf (p + low) (2 ^ 21) va = some ⟨p + va % 2 ^ 21, mairEl1 / 256 ^ (low / 4 % 8) % 256⟩ := by
  have hflag : (p + low) / 2 ^ 10 % 2 = 1 := by omega
  have hframe : (p + low) % 2 ^ 48 / 2 ^ 21 * 2 ^ 21 = p := by omega
  have hindex : (p + low) / 4 % 8 = low / 4 % 8 := by omega
  rw [leaf, if_pos hflag, hframe, hindex]

section Walks

variable {kpt : KernelPt} {a : KptAddress} {va : Nat}

theorem KernelPt.word_l2Periph (kpt : KernelPt) {i : Nat} (hi : i < 512) :
    kpt.word (1 * 4096 + 8 * i) = kpt.l2Periph i := by
  rw [word, show (1 * 4096 + 8 * i) / 4096 = 1 by omega,
    show (1 * 4096 + 8 * i) % 4096 / 8 = i by omega]

theorem KernelPt.word_l2Ram (kpt : KernelPt) {i : Nat} (hi : i < 512) :
    kpt.word (2 * 4096 + 8 * i) = kpt.l2Ram i := by
  rw [word, show (2 * 4096 + 8 * i) / 4096 = 2 by omega,
    show (2 * 4096 + 8 * i) % 4096 / 8 = i by omega]

/-- Without a descriptor at the first level there is no translation. -/
theorem walk_of_l1_zero (h : kpt.l1 (va / 2 ^ 30 % 512) = 0) : walk a kpt va = none := by
  have hindex : va / 2 ^ 30 % 512 < 512 := Nat.mod_lt _ (by decide)
  have hroot := kpt.descriptor_table a (t := 0) (by decide) hindex
  rw [kpt.word_l1 hindex, h, Nat.zero_mul, Nat.add_zero] at hroot
  rw [walk, hroot]
  split <;> rfl

/-- The rest of the walk, from a descriptor of the second level. -/
def walkFrom (a : KptAddress) (kpt : KernelPt) (d2 va : Nat) : Option Translation :=
  if d2 % 4 = 3 then do
    let d3 ← kpt.descriptor a (nextTable d2) (va / 2 ^ 12 % 512)
    if d3 % 4 = 3 then leaf d3 (2 ^ 12) va else none
  else if d2 % 4 = 1 then leaf d2 (2 ^ 21) va
  else none

/-- The walk goes on at the table that the first level links to. -/
theorem walk_of_l1_link {t : Nat} (ht : t < 8) (hva : va < 2 ^ 39)
    (h : kpt.l1 (va / 2 ^ 30 % 512) = (a.base + t * 4096) ||| 0x3) :
    walk a kpt va = walkFrom a kpt (kpt.word (t * 4096 + 8 * (va / 2 ^ 21 % 512))) va := by
  have haligned := a.aligned
  have hbound := a.bound
  have hindex : va / 2 ^ 30 % 512 < 512 := Nat.mod_lt _ (by decide)
  have hindex' : va / 2 ^ 21 % 512 < 512 := Nat.mod_lt _ (by decide)
  have hroot := kpt.descriptor_table a (t := 0) (by decide) hindex
  rw [kpt.word_l1 hindex, h, Nat.zero_mul, Nat.add_zero] at hroot
  obtain ⟨hlink, hnext⟩ := nextTable_link (a.base + t * 4096) (by omega) (by omega)
  rw [walk, if_pos hva, hroot]
  show (if ((a.base + t * 4096) ||| 3) % 4 = 3 then _ else _) = _
  rw [if_pos hlink, hnext, kpt.descriptor_table a ht hindex']
  rfl

/-- A block ends the walk. -/
theorem walkFrom_block {p low : Nat} (hp : p % 2 ^ 21 = 0) (hbound : p < 2 ^ 48)
    (hlow : low < 4096) (haccess : low / 2 ^ 10 % 2 = 1) (hblock : low % 4 = 1) :
    walkFrom a kpt (p + low) va =
      some ⟨p + va % 2 ^ 21, mairEl1 / 256 ^ (low / 4 % 8) % 256⟩ := by
  have htype : (p + low) % 4 = 1 := by omega
  rw [walkFrom, if_neg (by omega), if_pos htype, leaf_block hp hbound hlow haccess]

/-- So does a missing descriptor. -/
theorem walkFrom_zero : walkFrom a kpt 0 va = none := rfl

/-- On a page of the dynamic region without a descriptor there is no translation. -/
theorem KernelPt.Linked.walk_unmapped (h : kpt.Linked a) (hva : InPool va)
    (hpage : kpt.page va = 0) : walk a kpt va = none := by
  have haligned := a.aligned
  have hbound := a.bound
  have hrange := inPool_iff.mp hva
  have hl2 := hva.l2Idx_lt
  have hl3 : va / 2 ^ 12 % 512 < 512 := Nat.mod_lt _ (by decide)
  have hl1 : va / 2 ^ 30 % 512 = 2 := by omega
  obtain ⟨hlink, hnext⟩ := nextTable_link (a.l3Pool (va / 2 ^ 21 % 512))
    (by rw [KptAddress.l3Pool]; omega) (by rw [KptAddress.l3Pool]; omega)
  have hpool := kpt.descriptor_table a (t := 4 + va / 2 ^ 21 % 512) (by omega) hl3
  rw [kpt.word_l3Pool hl3] at hpool
  rw [walk_of_l1_link (t := 3) (by decide) (by omega) (by rw [hl1]; exact h.l1),
    kpt.word_l2Dynamic (by omega), h.l2Dynamic _ hl2, walkFrom, if_pos hlink, hnext]
  show (kpt.descriptor a (a.base + (4 + va / 2 ^ 21 % 512) * 4096) _ >>= _) = _
  rw [hpool]
  show (if kpt.page va % 4 = 3 then _ else _) = _
  rw [hpage]
  rfl

end Walks

/-! ## The fixed part -/

/-- Only entries of `l3_pool` have changed since `mmu_init`. -/
def KernelPt.Fixed (kpt : KernelPt) (board : Board) (a : KptAddress) : Prop :=
  ∃ pool, kpt = { mmuInit board a with l3Pool := pool }

section Fixed

variable {board : Board} {a : KptAddress} {kpt kpt' : KernelPt} {va : Nat}

theorem KernelPt.Fixed.setPage (h : kpt.Fixed board a) (l2Idx l3Idx d : Nat) :
    (kpt.setPage l2Idx l3Idx d).Fixed board a := by
  obtain ⟨pool, rfl⟩ := h
  exact ⟨_, rfl⟩

/-- The loop of `mmu_map_region` writes to `l3_pool` only. -/
theorem KernelPt.Fixed.mapLoop {size flags turns v p mapped : Nat} (h : kpt.Fixed board a)
    (hrun : mapLoop size flags turns kpt v p mapped = some kpt') : kpt'.Fixed board a := by
  induction turns generalizing kpt v p mapped with
  | zero => cases hrun
  | succ turns ih =>
      rw [Kernel.mapLoop] at hrun
      split at hrun
      · refine ih ?_ hrun
        split
        · exact h.setPage _ _ _
        · exact h
      · cases hrun
        exact h

/-- `ioremap` does, whatever it is asked for. -/
theorem KernelPt.Fixed.ioremap {m m' : Mmu} {physAddr size virt : Nat} (h : m.kpt.Fixed board a)
    (hcall : ioremap m physAddr size = some (virt, m')) : m'.kpt.Fixed board a := by
  unfold Kernel.ioremap at hcall
  split at hcall
  · cases hcall
    exact h
  · have hreserve (n : Nat) : (vmalloc m n).2.kpt = m.kpt := by
      unfold vmalloc
      dsimp only
      split <;> rfl
    dsimp only at hcall
    split at hcall
    · cases hcall
      rw [hreserve]
      exact h
    · obtain ⟨kpt, hmap, heq⟩ := Option.map_eq_some_iff.mp hcall
      cases heq
      rw [hreserve] at hmap
      exact h.mapLoop hmap

/-- The descriptors of the first gigabyte. -/
theorem mmuInit_l2Periph (i : Nat) : (mmuInit board a).l2Periph i = i * 2 ^ 21 + 0x405 := by
  show (i <<< 21) ||| 0x405 ||| (0 <<< 2) = _
  rw [Nat.zero_shiftLeft, Nat.or_zero, Nat.shiftLeft_eq, or_low (by omega) (by decide)]

/-- The descriptors of RAM and of the window in it. -/
theorem mmuInit_l2Ram (i : Nat) : (mmuInit board a).l2Ram i =
    if board.InEcam (0x40000000 + i * 2 ^ 21) then
      board.pciePhysBase + (0x40000000 + i * 2 ^ 21 - board.pcieExtCfgData) + 0x405
    else 0x40000000 + i * 2 ^ 21 + 0x409 := by
  have hbase : board.pciePhysBase % 4096 = 0 ∧ board.pcieExtCfgData % 4096 = 0 := by
    cases board <;> decide
  show (if board.pcieExtCfgData ≤ 0x40000000 + i <<< 21 ∧
    0x40000000 + i <<< 21 < board.pcieExtCfgData + 0x08000000 then
      (board.pciePhysBase + (0x40000000 + i <<< 21 - board.pcieExtCfgData)) ||| 0x405 ||| (0 <<< 2)
    else (0x40000000 + i <<< 21) ||| 0x401 ||| (2 <<< 2)) = _
  rw [Nat.shiftLeft_eq]
  refine if_congr Iff.rfl ?_ ?_
  · rw [Nat.zero_shiftLeft, Nat.or_zero, or_low (by omega) (by decide)]
  · rw [Nat.or_assoc, show (0x401 ||| 2 <<< 2 : Nat) = 0x409 by decide,
      or_low (by omega) (by decide)]

/-- Outside the dynamic region the walk ends as `mmu_init` has set it up. -/
theorem KernelPt.Fixed.walk_eq (h : kpt.Fixed board a) (hva : va < 2 ^ 39) (hpool : ¬ InPool va) :
    walk a kpt va = board.fixed va := by
  have hout : ¬ (0x80000000 ≤ va ∧ va < 0x80800000) := hpool
  have hindex : va / 2 ^ 21 % 512 < 512 := Nat.mod_lt _ (by decide)
  obtain ⟨pool, rfl⟩ := h
  unfold Board.fixed
  by_cases hperiph : va < 0x40000000
  · rw [if_pos hperiph, walk_of_l1_link (t := 1) (by decide) hva
      (by rw [show va / 2 ^ 30 % 512 = 0 by omega]; rw [Nat.one_mul]; rfl),
      KernelPt.word_l2Periph _ hindex]
    show walkFrom a _ ((mmuInit board a).l2Periph _) va = _
    rw [mmuInit_l2Periph, walkFrom_block (by omega) (by omega) (by decide) (by decide) (by decide),
      show va / 2 ^ 21 % 512 * 2 ^ 21 + va % 2 ^ 21 = va by omega]
    rfl
  by_cases hram : va < 0x80000000
  · rw [if_neg hperiph, if_pos hram, walk_of_l1_link (t := 2) (by decide) hva
      (by rw [show va / 2 ^ 30 % 512 = 1 by omega]; rfl), KernelPt.word_l2Ram _ hindex]
    show walkFrom a _ ((mmuInit board a).l2Ram _) va = _
    rw [mmuInit_l2Ram]
    have hblock : 0x40000000 + va / 2 ^ 21 % 512 * 2 ^ 21 = va / 2 ^ 21 * 2 ^ 21 := by omega
    -- a block lies in the window as a whole or not at all
    have hwindow : board.InEcam (va / 2 ^ 21 * 2 ^ 21) ↔ board.InEcam va := by
      cases board <;> simp only [Board.InEcam, Board.pcieExtCfgData] <;> omega
    rw [hblock]
    by_cases hecam : board.InEcam va
    · rw [if_pos (hwindow.mpr hecam), if_pos hecam]
      cases board with
      | rpi4 =>
          have hlow : 0x600000000 ≤ va := hecam.1
          omega
      | virt =>
          have hlow : 0x70000000 ≤ va := hecam.1
          have hhigh : va < 0x78000000 := hecam.2
          show walkFrom a _ (0x3f000000 + (va / 2 ^ 21 * 2 ^ 21 - 0x70000000) + 0x405) va =
            some ⟨0x3f000000 + (va - 0x70000000), mtAttrNormalNc⟩
          rw [walkFrom_block (by omega) (by omega) (by decide) (by decide) (by decide),
            show 0x3f000000 + (va / 2 ^ 21 * 2 ^ 21 - 0x70000000) + va % 2 ^ 21 =
              0x3f000000 + (va - 0x70000000) by omega]
          rfl
    · rw [if_neg (fun h ↦ hecam (hwindow.mp h)), if_neg hecam,
        walkFrom_block (by omega) (by omega) (by decide) (by decide) (by decide),
        show va / 2 ^ 21 * 2 ^ 21 + va % 2 ^ 21 = va by omega]
      rfl
  rw [if_neg hperiph, if_neg hram]
  by_cases hdynamic : va / 2 ^ 30 = 2
  · -- the rest of the third gigabyte has no tables
    have hbeyond : ¬ va / 2 ^ 21 % 512 < 4 := by omega
    rw [walk_of_l1_link (t := 3) (by decide) hva
      (by rw [show va / 2 ^ 30 % 512 = 2 by omega]; rfl), KernelPt.word_l2Dynamic _ hindex]
    show walkFrom a _ (if va / 2 ^ 21 % 512 < 4 then _ else 0) va = _
    rw [if_neg hbeyond, walkFrom_zero]
  · refine walk_of_l1_zero ?_
    have hl1 : va / 2 ^ 30 % 512 ≠ 0 ∧ va / 2 ^ 30 % 512 ≠ 1 ∧ va / 2 ^ 30 % 512 ≠ 2 := by omega
    show (if va / 2 ^ 30 % 512 = 0 then _ else _) = 0
    rw [if_neg hl1.1, if_neg hl1.2.1, if_neg hl1.2.2]

end Fixed

/-! ## Runs -/

namespace Mappings

/-- The pages of the dynamic region that no region touches are not mapped. -/
structure Exact (s : Mappings) (board : Board) (a : KptAddress) : Prop where
  sound : s.Sound a
  fixed : s.mmu.kpt.Fixed board a
  unmapped : ∀ va, InPool va → (∀ r ∈ s.granted, ¬ r.Covers va) → s.mmu.kpt.page va = 0

variable {s s' : Mappings} {board : Board} {a : KptAddress}

/-- A call of `ioremap` that succeeds maps the pages of the new region and no others. -/
theorem Exact.ioremap (h : s.Exact board a) {physAddr size virt : Nat} {mmu : Mmu}
    (hsize : size < 2 ^ 32) (hphys : physAddr + size ≤ 2 ^ 48)
    (hcall : Kernel.ioremap s.mmu physAddr size = some (virt, mmu)) :
    Exact ⟨mmu, if virt = 0 then s.granted else ⟨virt, physAddr, size⟩ :: s.granted⟩ board a := by
  refine ⟨h.sound.ioremap hsize hphys hcall, h.fixed.ioremap hcall, fun va hva hclear ↦ ?_⟩
  rcases h.sound.bounded.ioremap_cases hsize hphys with
    hnull | ⟨n, kpt, hpos, -, hhigh, -, hmaps, hgrant⟩
  · cases hcall.symm.trans hnull
    exact h.unmapped va hva hclear
  · cases hcall.symm.trans hgrant
    have haligned := h.sound.bounded.aligned
    have hstart : 0x80000000 ≤ s.mmu.vmallocPtr := h.sound.bounded.low
    have hne : s.mmu.vmallocPtr + physAddr % 4096 ≠ 0 := by omega
    dsimp only at hclear
    rw [if_neg hne, List.forall_mem_cons] at hclear
    obtain ⟨hnew, hold⟩ := hclear
    have hbeside : va < s.mmu.vmallocPtr ∨ s.mmu.vmallocPtr + 4096 * n ≤ va := by
      by_contra hinside
      exact hnew ⟨by dsimp only; omega, by dsimp only; omega⟩
    exact (hmaps.outside va hva hbeside).trans (h.unmapped va hva hold)

/-- In every run exactly the pages of the regions are mapped. -/
theorem Reaches.exact (h : Reaches Mmu.Fits board a s) : s.Exact board a := by
  refine Reachable.invariant (fun s ↦ s.Exact board a) ?_ ?_ h
  · intro s hs
    subst hs
    exact ⟨sound_boot board a, ⟨_, rfl⟩, fun _ _ _ ↦ rfl⟩
  · intro s s' hs hstep
    cases hstep with
    | ioremap hsize hphys hcall => exact hs.ioremap hsize hphys hcall
    | @vmalloc size _ hfits =>
        have hsame : (Kernel.vmalloc s.mmu size).2.kpt = s.mmu.kpt := by
          rcases vmalloc_cases hfits with hnull | ⟨-, hcall⟩
          · rw [hnull]
          · rw [hcall]
        refine ⟨hs.sound.vmalloc hfits, ?_, ?_⟩
        · dsimp only
          rw [hsame]
          exact hs.fixed
        · dsimp only
          rw [hsame]
          exact hs.unmapped

/-- A page of a region shows the frame beside those that were asked for. -/
theorem Sound.walk_covered (h : s.Sound a) {r : Mapping} (hr : r ∈ s.granted) {va : Nat}
    (hva : r.Covers va) : walk a s.mmu.kpt va = some (r.translate va) := by
  obtain ⟨hpos, hlow, hhigh⟩ := h.below r hr
  obtain ⟨hoffset, hbound, hpages⟩ := h.mapped r hr
  obtain ⟨hfirst, hlast⟩ := hva
  have haligned := h.bounded.aligned
  have hstart : 0x80000000 ≤ r.virt := hlow
  have hend : s.mmu.vmallocPtr ≤ 0x80800000 := h.bounded.high
  have hpool : InPool va := inPool_iff.mpr (by omega)
  -- some byte that was asked for lies on the same page
  obtain ⟨k, hk, hpage⟩ : ∃ k < r.size, (r.virt + k) / 4096 = va / 4096 := by
    by_cases hpart : va / 4096 = r.virt / 4096
    · exact ⟨0, hpos, hpart.symm⟩
    · exact ⟨va / 4096 * 4096 - r.virt, by omega, by omega⟩
  have hfloor : pageFloor (r.phys + k) % 4096 = 0 := Nat.mul_mod_left ..
  have hentry : s.mmu.kpt.page va = pageFloor (r.phys + k) + 0x403 := by
    rw [← pageDescriptor_device hfloor, ← hpages k hk, KernelPt.page, KernelPt.page,
      show va / 2 ^ 21 % 512 = (r.virt + k) / 2 ^ 21 % 512 by omega,
      show va / 2 ^ 12 % 512 = (r.virt + k) / 2 ^ 12 % 512 by omega]
  have hle : pageFloor (r.phys + k) ≤ r.phys + k := Nat.div_mul_le_self ..
  rw [h.linked.walk_page hpool (by omega), hentry, leaf_device hfloor (by omega)]
  have hframe : pageFloor (r.phys + k) + va % 4096 =
      pageFloor r.phys + (va - pageFloor r.virt) := by
    unfold pageFloor
    omega
  rw [hframe, Mapping.translate]

end Mappings

/-- After any calls of `ioremap` and of `vmalloc` that do not wrap, the walk over the tables takes
every virtual address of 39 bits to what the map says, and to nothing where the map has nothing. -/
theorem address_space (board : Board) (a : KptAddress) (s : Mappings)
    (h : Mappings.Reaches Mmu.Fits board a s) (va : Nat) (hva : va < 2 ^ 39) :
    walk a s.mmu.kpt va = s.translate board va := by
  obtain ⟨hsound, hfixed, hunmapped⟩ := h.exact
  unfold Mappings.translate
  by_cases hpool : InPool va
  · rw [if_pos hpool]
    cases hfind : s.granted.find? fun r ↦ decide (r.Covers va) with
    | none =>
        have hclear : ∀ r ∈ s.granted, ¬ r.Covers va := fun r hr hcovers ↦
          List.find?_eq_none.mp hfind r hr (decide_eq_true hcovers)
        exact hsound.linked.walk_unmapped hpool (hunmapped va hpool hclear)
    | some r =>
        have hcovers := List.find?_some hfind
        exact hsound.walk_covered (List.mem_of_find?_eq_some hfind) (of_decide_eq_true hcovers)
  · rw [if_neg hpool]
    exact hfixed.walk_eq hva hpool

/-- Tables at the start of RAM. -/
def KptAddress.ramStart : KptAddress := ⟨0x40080000, by decide, by decide⟩

/-- After `mmu_init` the window shows the configuration space of the second device. -/
theorem address_space_window :
    walk .ramStart (Mmu.boot .virt .ramStart).kpt 0x70008010 = some ⟨0x3f008010, mtAttrNormalNc⟩ :=
  (address_space .virt .ramStart ⟨.boot .virt .ramStart, []⟩ (.init rfl) 0x70008010
    (by decide)).trans (by decide)

end Aether.Kernel
