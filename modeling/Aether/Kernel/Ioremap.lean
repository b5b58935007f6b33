import Aether.Kernel.Mmu
import Aether.Lib.Transition
import Mathlib.Data.Set.Lattice
import Mathlib.Order.CompletePartialOrder

/-!
# What `ioremap` maps

Calls of `ioremap` and `vmalloc` in any order after `mmu_init`. As long as no `vmalloc` wraps around
the end of the address space, every region that `ioremap` returned stays mapped to the device memory
that it was asked for, and no two of them share a page.
-/

namespace Aether.Kernel

open Transition

/-! ## Descriptors -/

/-- Bits below a page boundary are added. -/
theorem or_low {x y : Nat} (hx : x % 4096 = 0) (hy : y < 4096) : x ||| y = x + y := by
  obtain ⟨q, rfl⟩ := Nat.dvd_of_mod_eq_zero hx
  exact (Nat.two_pow_add_eq_or_of_lt (i := 12) hy q).symm

/-- The descriptor of a device page. -/
theorem pageDescriptor_device {p : Nat} (hp : p % 4096 = 0) :
    pageDescriptor p protDevicePage = p + 0x403 := by
  rw [pageDescriptor, Nat.or_assoc, Nat.or_assoc,
    show protDevicePage ||| (1 <<< 10 ||| 0x3) = 0x403 by decide, or_low hp (by decide)]

/-- A device page translates to the bytes of its frame. -/
theorem leaf_device {p va : Nat} (hp : p % 4096 = 0) (hbound : p < 2 ^ 48) :
    leaf (p + 0x403) (2 ^ 12) va = some ⟨p + va % 4096, mtAttrDevice⟩ := by
  have haccess : (p + 0x403) / 2 ^ 10 % 2 = 1 := by omega
  have hframe : (p + 0x403) % 2 ^ 48 / 2 ^ 12 * 2 ^ 12 = p := by omega
  have hindex : (p + 0x403) / 4 % 8 = 0 := by omega
  rw [leaf, if_pos haccess, hframe, hindex]
  rfl

/-- A link to a table. -/
theorem nextTable_link (table : Nat) (ht : table % 4096 = 0) (hbound : table < 2 ^ 48) :
    (table ||| 0x3) % 4 = 3 ∧ nextTable (table ||| 0x3) = table := by
  rw [or_low ht (by decide), nextTable]
  omega

/-! ## The tables of the dynamic region -/

/-- The address is in the region that `vmalloc` hands out. -/
def InPool (va : Nat) : Prop := vmallocStart ≤ va ∧ va < vmallocMax

/-- The entry of `l3_pool` for an address of the region. -/
def KernelPt.page (kpt : KernelPt) (va : Nat) : Nat :=
  kpt.l3Pool (va / 2 ^ 21 % 512) (va / 2 ^ 12 % 512)

/-- The tables above `l3_pool` lead to it. -/
structure KernelPt.Linked (kpt : KernelPt) (a : KptAddress) : Prop where
  l1 : kpt.l1 2 = a.l2Dynamic ||| 0x3
  l2Dynamic : ∀ i < 4, kpt.l2Dynamic i = a.l3Pool i ||| 0x3

section Tables

variable {kpt : KernelPt} {a : KptAddress} {va : Nat}

theorem inPool_iff : InPool va ↔ 0x80000000 ≤ va ∧ va < 0x80800000 := .rfl

/-- The region has four tables of its own. -/
theorem InPool.l2Idx_lt (h : InPool va) : va / 2 ^ 21 % 512 < 4 := by
  have hva := inPool_iff.mp h
  omega

/-- Its pages have entries of their own. -/
theorem InPool.page_inj {va' : Nat} (h : InPool va) (h' : InPool va')
    (hl2 : va / 2 ^ 21 % 512 = va' / 2 ^ 21 % 512) (hl3 : va / 2 ^ 12 % 512 = va' / 2 ^ 12 % 512) :
    va / 4096 = va' / 4096 := by
  have hva := inPool_iff.mp h
  have hva' := inPool_iff.mp h'
  omega

/-- The descriptors of the table with the given number are read from the structure. -/
theorem KernelPt.descriptor_table (kpt : KernelPt) (a : KptAddress) {t i : Nat} (ht : t < 8)
    (hi : i < 512) :
    kpt.descriptor a (a.base + t * 4096) i = some (kpt.word (t * 4096 + 8 * i)) := by
  rw [descriptor, if_pos (by omega), Nat.add_assoc, Nat.add_sub_cancel_left]

theorem KernelPt.word_l1 (kpt : KernelPt) {i : Nat} (hi : i < 512) :
    kpt.word (0 * 4096 + 8 * i) = kpt.l1 i := by
  rw [word, show (0 * 4096 + 8 * i) / 4096 = 0 by omega,
    show (0 * 4096 + 8 * i) % 4096 / 8 = i by omega]

theorem KernelPt.word_l2Dynamic (kpt : KernelPt) {i : Nat} (hi : i < 512) :
    kpt.word (3 * 4096 + 8 * i) = kpt.l2Dynamic i := by
  rw [word, show (3 * 4096 + 8 * i) / 4096 = 3 by omega,
    show (3 * 4096 + 8 * i) % 4096 / 8 = i by omega]

theorem KernelPt.word_l3Pool (kpt : KernelPt) {n i : Nat} (hi : i < 512) :
    kpt.word ((4 + n) * 4096 + 8 * i) = kpt.l3Pool n i := by
  rw [word, show ((4 + n) * 4096 + 8 * i) / 4096 = n + 4 by omega,
    show ((4 + n) * 4096 + 8 * i) % 4096 / 8 = i by omega]

/-- The walk for an address of the region ends at its entry of `l3_pool`. -/
theorem KernelPt.Linked.walk_page (h : kpt.Linked a) (hva : InPool va)
    (hpage : kpt.page va % 4 = 3) : walk a kpt va = leaf (kpt.page va) (2 ^ 12) va := by
  have hl2 := hva.l2Idx_lt
  have haligned := a.aligned
  have hbound := a.bound
  have hrange := inPool_iff.mp hva
  have hl1 : va / 2 ^ 30 % 512 = 2 := by omega
  have hl3 : va / 2 ^ 12 % 512 < 512 := Nat.mod_lt _ (by decide)
  have hroot := kpt.descriptor_table a (t := 0) (i := 2) (by decide) (by decide)
  rw [kpt.word_l1 (by decide), h.l1, Nat.zero_mul, Nat.add_zero] at hroot
  obtain ⟨hlink, hnext⟩ := nextTable_link a.l2Dynamic
    (by rw [KptAddress.l2Dynamic]; omega) (by rw [KptAddress.l2Dynamic]; omega)
  have hdynamic := kpt.descriptor_table a (t := 3) (i := va / 2 ^ 21 % 512) (by decide) (by omega)
  rw [kpt.word_l2Dynamic (by omega), h.l2Dynamic _ hl2] at hdynamic
  obtain ⟨hlink', hnext'⟩ := nextTable_link (a.l3Pool (va / 2 ^ 21 % 512))
    (by rw [KptAddress.l3Pool]; omega) (by rw [KptAddress.l3Pool]; omega)
  have hpool := kpt.descriptor_table a (t := 4 + va / 2 ^ 21 % 512) (by omega) hl3
  rw [kpt.word_l3Pool hl3] at hpool
  rw [walk, if_pos (by omega), hl1, hroot]
  show (if (a.l2Dynamic ||| 3) % 4 = 3 then _ else _) = _
  rw [if_pos hlink, hnext]
  show (kpt.descriptor a (a.base + 3 * 4096) _ >>= _) = _
  rw [hdynamic]
  show (if (a.l3Pool _ ||| 3) % 4 = 3 then _ else _) = _
  rw [if_pos hlink', hnext']
  show (kpt.descriptor a (a.base + (4 + va / 2 ^ 21 % 512) * 4096) _ >>= _) = _
  rw [hpool]
  show (if kpt.page va % 4 = 3 then _ else _) = _
  rw [if_pos hpage]
  rfl

/-- An assignment to an entry of the pool. -/
theorem KernelPt.page_setPage (kpt : KernelPt) (l2Idx l3Idx d va : Nat) :
    (kpt.setPage l2Idx l3Idx d).page va =
      if va / 2 ^ 21 % 512 = l2Idx ∧ va / 2 ^ 12 % 512 = l3Idx then d else kpt.page va := by
  unfold page setPage
  dsimp only
  by_cases hl2 : va / 2 ^ 21 % 512 = l2Idx
  · rw [hl2, Function.update_self, Function.update_apply]
    by_cases hl3 : va / 2 ^ 12 % 512 = l3Idx
    · rw [if_pos hl3, if_pos ⟨rfl, hl3⟩]
    · rw [if_neg hl3, if_neg fun heq ↦ hl3 heq.2]
  · rw [Function.update_of_ne hl2, if_neg fun heq ↦ hl2 heq.1]

/-- The tables stay linked. -/
theorem KernelPt.Linked.setPage (h : kpt.Linked a) (l2Idx l3Idx d : Nat) :
    (kpt.setPage l2Idx l3Idx d).Linked a :=
  ⟨h.l1, h.l2Dynamic⟩

/-! ## Mapping a region -/

/-- The tables `kpt'` are the tables `kpt` with `n` pages from `v` mapped to the frames from `p`. -/
structure KernelPt.Maps (kpt kpt' : KernelPt) (v p n flags : Nat) : Prop where
  linked : ∀ a, kpt.Linked a → kpt'.Linked a
  inside : ∀ va, v ≤ va → va < v + 4096 * n →
    kpt'.page va = pageDescriptor (p + (va - v) / 4096 * 4096) flags
  outside : ∀ va, InPool va → va < v ∨ v + 4096 * n ≤ va → kpt'.page va = kpt.page va

/-- Mapping one page and then the rest maps all. -/
theorem KernelPt.Maps.cons {kpt' : KernelPt} {v p n flags : Nat} (hv : v % 4096 = 0)
    (hlow : vmallocStart ≤ v) (hhigh : v + 4096 * (n + 1) ≤ vmallocMax)
    (h : (kpt.setPage (v / 2 ^ 21 % 512) (v / 2 ^ 12 % 512) (pageDescriptor p flags)).Maps kpt'
      (v + 4096) (p + 4096) n flags) : kpt.Maps kpt' v p (n + 1) flags := by
  have hfirst : InPool v := ⟨hlow, by omega⟩
  refine ⟨fun a hlinked ↦ h.linked a (hlinked.setPage ..), fun va hva hva' ↦ ?_,
    fun va hpool hva ↦ ?_⟩
  · rcases Nat.lt_or_ge va (v + 4096) with hpage | hrest
    · -- the first page: the rest does not touch its entry
      have hsame : va / 4096 = v / 4096 := by omega
      rw [h.outside va ⟨hlow.trans hva, by omega⟩ (.inl hpage), page_setPage, if_pos (by omega),
        show (va - v) / 4096 = 0 by omega, Nat.zero_mul, Nat.add_zero]
    · rw [h.inside va hrest (by omega)]
      congr 1
      omega
  · rw [h.outside va hpool (by omega), page_setPage, if_neg fun heq ↦ ?_]
    have := hpool.page_inj hfirst heq.1 heq.2
    omega

/-- The loop of `mmu_map_region` ends and maps page by page. -/
theorem mapLoop_maps {size flags : Nat} (hbound : size ≤ 2 ^ 48) (n : Nat) {turns mapped : Nat}
    {kpt : KernelPt} {v p : Nat} (hturns : n < turns) (hsize : size = mapped + 4096 * n)
    (hv : v % 4096 = 0) (hlow : vmallocStart ≤ v) (hhigh : v + 4096 * n ≤ vmallocMax)
    (hphys : p + 4096 * n ≤ 2 ^ 48) :
    ∃ kpt', mapLoop size flags turns kpt v p mapped = some kpt' ∧ kpt.Maps kpt' v p n flags := by
  induction n generalizing turns mapped kpt v p with
  | zero =>
      obtain ⟨turns, rfl⟩ : ∃ m, turns = m + 1 := ⟨turns - 1, by omega⟩
      refine ⟨kpt, by rw [mapLoop, if_neg (by omega)], fun _ h ↦ h, fun va _ _ ↦ by omega,
        fun _ _ _ ↦ rfl⟩
  | succ n ih =>
      obtain ⟨turns, rfl⟩ : ∃ m, turns = m + 1 := ⟨turns - 1, by omega⟩
      have hpool : InPool v := ⟨hlow, by omega⟩
      have hrange := inPool_iff.mp hpool
      obtain ⟨kpt', hrun, hmaps⟩ := @ih turns (mapped + 4096)
        (kpt.setPage (v / 2 ^ 21 % 512) (v / 2 ^ 12 % 512) (pageDescriptor p flags))
        (v + 4096) (p + 4096) (by omega) (by omega) (by omega)
        (hlow.trans (Nat.le_add_right ..)) (by omega) (by omega)
      refine ⟨kpt', ?_, hmaps.cons hv hlow hhigh⟩
      rw [mapLoop, if_pos (by omega)]
      dsimp only
      rw [if_pos hpool.l2Idx_lt, Nat.mod_eq_of_lt (show v + 4096 < 2 ^ 64 by omega),
        Nat.mod_eq_of_lt (show p + 4096 < 2 ^ 64 by omega),
        Nat.mod_eq_of_lt (show mapped + 4096 < 2 ^ 64 by omega)]
      exact hrun

end Tables

/-! ## The allocator -/

/-- Rounding up to pages, when the sum does not wrap. -/
theorem pageCeil_spec {x : Nat} (h : x + 4095 < 2 ^ 64) :
    ∃ n, pageCeil x = 4096 * n ∧ x ≤ 4096 * n ∧ 4096 * n < x + 4096 := by
  refine ⟨(x + 4095) / 4096, ?_, by omega, by omega⟩
  rw [pageCeil, pageFloor, pageSize, Nat.mod_eq_of_lt h, Nat.mul_comm]

/-- Whole pages stay as they are. -/
theorem pageCeil_pages {n : Nat} (h : 4096 * n + 4095 < 2 ^ 64) :
    pageCeil (4096 * n) = 4096 * n := by
  obtain ⟨k, heq, hlow, hhigh⟩ := pageCeil_spec h
  omega

/-- The sum that `vmalloc` compares with the end of the region does not wrap. -/
def Mmu.Fits (m : Mmu) (size : Nat) : Prop := m.vmallocPtr + pageCeil size < 2 ^ 64

/-- `vmalloc_ptr` is a page boundary of the region. -/
structure Mmu.Bounded (m : Mmu) : Prop where
  aligned : m.vmallocPtr % 4096 = 0
  low : vmallocStart ≤ m.vmallocPtr
  high : m.vmallocPtr ≤ vmallocMax

section Allocator

variable {m : Mmu} {size physAddr : Nat}

/-- `vmalloc` fails, or hands out what lies above `vmalloc_ptr`. -/
theorem vmalloc_cases (hfits : m.Fits size) : vmalloc m size = (0, m) ∨
    m.vmallocPtr + pageCeil size ≤ vmallocMax ∧
      vmalloc m size = (m.vmallocPtr, { m with vmallocPtr := m.vmallocPtr + pageCeil size }) := by
  unfold vmalloc
  dsimp only
  rw [Nat.mod_eq_of_lt hfits]
  split
  · exact .inl rfl
  · rename_i hroom
    exact .inr ⟨Nat.not_lt.mp hroom, rfl⟩

/-- `vmalloc_ptr` stays in the region. -/
theorem Mmu.Bounded.vmalloc (h : m.Bounded) (hfits : m.Fits size) :
    (Kernel.vmalloc m size).2.Bounded := by
  rcases vmalloc_cases hfits with hnull | ⟨hroom, hcall⟩
  · rw [hnull]
    exact h
  · rw [hcall]
    refine ⟨?_, h.low.trans (Nat.le_add_right ..), hroom⟩
    have := h.aligned
    rw [pageCeil, pageFloor]
    dsimp only
    omega

/-- `ioremap` returns `NULL` and changes nothing, or returns the first free page and maps the frames
around what was asked for to it and the pages that follow. -/
theorem Mmu.Bounded.ioremap_cases (h : m.Bounded) (hsize : size < 2 ^ 32)
    (hphys : physAddr + size ≤ 2 ^ 48) : ioremap m physAddr size = some (0, m) ∨
      ∃ n kpt, 0 < size ∧ physAddr % 4096 + size ≤ 4096 * n ∧
        4096 * n < physAddr % 4096 + size + 4096 ∧ m.vmallocPtr + 4096 * n ≤ vmallocMax ∧
        m.kpt.Maps kpt m.vmallocPtr (pageFloor physAddr) n protDevicePage ∧
        ioremap m physAddr size =
          some (m.vmallocPtr + physAddr % 4096, ⟨kpt, m.vmallocPtr + 4096 * n⟩) := by
  have hoffset : physAddr % pageSize < 4096 := Nat.mod_lt _ (by decide)
  have hstart : 0x80000000 ≤ m.vmallocPtr := h.low
  have hend : m.vmallocPtr ≤ 0x80800000 := h.high
  obtain ⟨n, hceil, hlow, hhigh⟩ := pageCeil_spec (x := physAddr % pageSize + size) (by omega)
  have hfits : m.Fits (4096 * n) := by
    rw [Mmu.Fits, pageCeil_pages (by omega)]
    omega
  unfold ioremap
  split
  · exact .inl rfl
  · rename_i hne
    dsimp only
    rw [Nat.mod_eq_of_lt (show physAddr % pageSize + size < 2 ^ 64 by omega), hceil]
    -- the pool has too little left, or it advances by the pages of the window
    rcases vmalloc_cases hfits with hnull | ⟨hroom, hcall⟩
    · rw [hnull]
      exact .inl rfl
    · rw [pageCeil_pages (by omega)] at hroom hcall
      have hframes : pageFloor (pageFloor physAddr) = pageFloor physAddr := by
        unfold pageFloor
        omega
      have htop : pageFloor physAddr + 4096 * n ≤ 2 ^ 48 := by
        unfold pageFloor
        unfold pageSize at hlow hhigh
        omega
      obtain ⟨kpt, hrun, hmaps⟩ := @mapLoop_maps (4096 * n) protDevicePage (by omega) n
        (4096 * n / 4096 + 2) 0 m.kpt _ (pageFloor physAddr) (by omega) (by omega) h.aligned h.low
        hroom htop
      refine .inr ⟨n, kpt, Nat.pos_of_ne_zero hne, hlow, hhigh, hroom, hmaps, ?_⟩
      rw [hcall]
      dsimp only
      rw [if_neg (by omega), mmuMapRegion, hframes, hrun, Option.map_some,
        Nat.mod_eq_of_lt (by omega), pageSize]

end Allocator

/-! ## Runs -/

/-- A region that `ioremap` returned, and what was asked for. -/
structure Mapping where
  virt : Nat
  phys : Nat
  size : Nat

/-- The pages that the region touches. -/
def Mapping.pages (r : Mapping) : Set Nat :=
  { q | r.virt / 4096 ≤ q ∧ q ≤ (r.virt + r.size - 1) / 4096 }

/-- The tables, `vmalloc_ptr` and the regions that `ioremap` has returned, most recent first. -/
structure Mappings where
  mmu : Mmu
  granted : List Mapping

namespace Mappings

/-- One call of `ioremap` or `vmalloc`, the latter with a size that `fits`. -/
inductive Step (fits : Mmu → Nat → Prop) : Mappings → Mappings → Prop where
  | ioremap {s : Mappings} {physAddr size virt : Nat} {mmu : Mmu} :
      size < 2 ^ 32 → physAddr + size ≤ 2 ^ 48 →
      Kernel.ioremap s.mmu physAddr size = some (virt, mmu) →
      Step fits s ⟨mmu, if virt = 0 then s.granted else ⟨virt, physAddr, size⟩ :: s.granted⟩
  | vmalloc {s : Mappings} {size : Nat} :
      size < 2 ^ 64 → fits s.mmu size → Step fits s ⟨(Kernel.vmalloc s.mmu size).2, s.granted⟩

/-- A call of `ioremap` that succeeds. -/
theorem Step.granted {fits : Mmu → Nat → Prop} {s : Mappings} {physAddr size virt : Nat} {mmu : Mmu}
    (hsize : size < 2 ^ 32) (hphys : physAddr + size ≤ 2 ^ 48)
    (hcall : Kernel.ioremap s.mmu physAddr size = some (virt, mmu)) (hne : virt ≠ 0) :
    Step fits s ⟨mmu, ⟨virt, physAddr, size⟩ :: s.granted⟩ := by
  have hstep : Step fits s ⟨mmu, if virt = 0 then s.granted else _⟩ := .ioremap hsize hphys hcall
  rwa [if_neg hne] at hstep

/-- The states that runs reach from `mmu_init`. -/
abbrev Reaches (fits : Mmu → Nat → Prop) (board : Board) (a : KptAddress) : Mappings → Prop :=
  Reachable (· = ⟨.boot board a, []⟩) (Step fits)

end Mappings

/-- The entries of the pool map the region to the frames that were asked for. -/
structure Mapping.Mapped (r : Mapping) (kpt : KernelPt) : Prop where
  offset : r.virt % 4096 = r.phys % 4096
  bound : r.phys + r.size ≤ 2 ^ 48
  page : ∀ k < r.size,
    kpt.page (r.virt + k) = pageDescriptor (pageFloor (r.phys + k)) protDevicePage

/-- The region lies between the start of the virtual space and `top`. -/
structure Mapping.Below (r : Mapping) (top : Nat) : Prop where
  size_pos : 0 < r.size
  low : vmallocStart ≤ r.virt
  high : r.virt + r.size ≤ top

/-- A region stays where it is when `vmalloc_ptr` moves up. -/
theorem Mapping.Below.mono {r : Mapping} {top top' : Nat} (h : r.Below top)
    (htop : top ≤ top') : r.Below top' :=
  ⟨h.size_pos, h.low, h.high.trans htop⟩

namespace Mappings

/-- What holds in every run: the tables are linked, the regions are mapped, lie below `vmalloc_ptr`
and share no page. -/
structure Sound (s : Mappings) (a : KptAddress) : Prop where
  linked : s.mmu.kpt.Linked a
  bounded : s.mmu.Bounded
  mapped : ∀ r ∈ s.granted, r.Mapped s.mmu.kpt
  below : ∀ r ∈ s.granted, r.Below s.mmu.vmallocPtr
  disjoint : s.granted.Pairwise fun r r' ↦ Disjoint r.pages r'.pages

variable {s s' : Mappings} {a : KptAddress}

/-- A mapped region translates to what was asked for. -/
theorem Sound.walk_eq (h : s.Sound a) {r : Mapping} (hr : r ∈ s.granted) {k : Nat}
    (hk : k < r.size) : walk a s.mmu.kpt (r.virt + k) = some ⟨r.phys + k, mtAttrDevice⟩ := by
  obtain ⟨hoffset, hbound, hpages⟩ := h.mapped r hr
  obtain ⟨-, hlow, hhigh⟩ := h.below r hr
  have hfloor : pageFloor (r.phys + k) % 4096 = 0 := Nat.mul_mod_left ..
  have hle : pageFloor (r.phys + k) ≤ r.phys + k := Nat.div_mul_le_self ..
  have hpage := hpages k hk
  rw [pageDescriptor_device hfloor] at hpage
  have hpool : InPool (r.virt + k) :=
    ⟨hlow.trans (Nat.le_add_right ..), Nat.lt_of_lt_of_le (by omega) h.bounded.high⟩
  rw [h.linked.walk_page hpool (by omega), hpage, leaf_device hfloor (by omega)]
  congr 2
  unfold pageFloor
  omega

/-- Nothing but `vmalloc_ptr` moved, and it moved up. -/
theorem Sound.reserve (h : s.Sound a) {ptr : Nat} (hup : s.mmu.vmallocPtr ≤ ptr)
    (hbounded : Mmu.Bounded { s.mmu with vmallocPtr := ptr }) :
    Sound ⟨{ s.mmu with vmallocPtr := ptr }, s.granted⟩ a :=
  ⟨h.linked, hbounded, h.mapped, fun r hr ↦ (h.below r hr).mono hup, h.disjoint⟩

/-- A new region is mapped above `vmalloc_ptr`, and the others keep their entries. -/
theorem Sound.grant (h : s.Sound a) {physAddr size n : Nat} {kpt : KernelPt} (hpos : 0 < size)
    (hphys : physAddr + size ≤ 2 ^ 48) (hlow : physAddr % 4096 + size ≤ 4096 * n)
    (hroom : s.mmu.vmallocPtr + 4096 * n ≤ vmallocMax)
    (hmaps : s.mmu.kpt.Maps kpt s.mmu.vmallocPtr (pageFloor physAddr) n protDevicePage) :
    Sound ⟨⟨kpt, s.mmu.vmallocPtr + 4096 * n⟩,
      ⟨s.mmu.vmallocPtr + physAddr % 4096, physAddr, size⟩ :: s.granted⟩ a := by
  have haligned := h.bounded.aligned
  have hstart := h.bounded.low
  refine ⟨hmaps.linked a h.linked, ⟨by dsimp only; omega, by dsimp only; omega, hroom⟩, ?_, ?_, ?_⟩
  · intro r hr
    rcases List.mem_cons.mp hr with rfl | hr
    · refine ⟨by dsimp only; omega, hphys, fun k hk ↦ ?_⟩
      dsimp only at hk ⊢
      have hframe : pageFloor physAddr + (s.mmu.vmallocPtr + physAddr % 4096 + k -
          s.mmu.vmallocPtr) / 4096 * 4096 = pageFloor (physAddr + k) := by
        unfold pageFloor
        omega
      rw [hmaps.inside _ (by omega) (by omega), hframe]
    · obtain ⟨hoffset, hbound, hpages⟩ := h.mapped r hr
      obtain ⟨-, hvirt, htop⟩ := h.below r hr
      refine ⟨hoffset, hbound, fun k hk ↦ ?_⟩
      have hpool : InPool (r.virt + k) :=
        ⟨hvirt.trans (Nat.le_add_right ..), Nat.lt_of_lt_of_le (by omega) h.bounded.high⟩
      exact (hmaps.outside _ hpool (.inl (by omega))).trans (hpages k hk)
  · intro r hr
    rcases List.mem_cons.mp hr with rfl | hr
    · exact ⟨hpos, hstart.trans (Nat.le_add_right ..), by dsimp only; omega⟩
    · exact (h.below r hr).mono (Nat.le_add_right ..)
  · refine List.pairwise_cons.mpr ⟨fun r hr ↦ ?_, h.disjoint⟩
    obtain ⟨hsize, hvirt, htop⟩ := h.below r hr
    refine Set.disjoint_left.mpr fun q hq hq' ↦ ?_
    -- the pages of the new window begin where those of the others have ended
    have hfirst : s.mmu.vmallocPtr / 4096 ≤ q := by
      have : (s.mmu.vmallocPtr + physAddr % 4096) / 4096 ≤ q := hq.1
      omega
    have hlast : q ≤ (r.virt + r.size - 1) / 4096 := hq'.2
    omega

/-- A call of `ioremap` keeps everything sound. -/
theorem Sound.ioremap (h : s.Sound a) {physAddr size virt : Nat} {mmu : Mmu}
    (hsize : size < 2 ^ 32) (hphys : physAddr + size ≤ 2 ^ 48)
    (hcall : Kernel.ioremap s.mmu physAddr size = some (virt, mmu)) :
    Sound ⟨mmu, if virt = 0 then s.granted else ⟨virt, physAddr, size⟩ :: s.granted⟩ a := by
  rcases h.bounded.ioremap_cases hsize hphys with
    hnull | ⟨n, kpt, hpos, hlow, -, hroom, hmaps, hgrant⟩
  · cases hcall.symm.trans hnull
    rw [if_pos rfl]
    exact h
  · cases hcall.symm.trans hgrant
    have hne : s.mmu.vmallocPtr + physAddr % 4096 ≠ 0 := by
      have hstart : 0x80000000 ≤ s.mmu.vmallocPtr := h.bounded.low
      omega
    rw [if_neg hne]
    exact h.grant hpos hphys hlow hroom hmaps

/-- A call of `vmalloc` that does not wrap does. -/
theorem Sound.vmalloc (h : s.Sound a) {size : Nat} (hfits : s.mmu.Fits size) :
    Sound ⟨(Kernel.vmalloc s.mmu size).2, s.granted⟩ a := by
  have hbounded := h.bounded.vmalloc hfits
  rcases vmalloc_cases hfits with hnull | ⟨-, hcall⟩
  · rw [hnull]
    exact h
  · rw [hcall] at hbounded ⊢
    exact h.reserve (Nat.le_add_right ..) hbounded

/-- After `mmu_init` there is no region. -/
theorem sound_boot (board : Board) (a : KptAddress) : Sound ⟨.boot board a, []⟩ a where
  linked := ⟨rfl, fun i hi ↦ if_pos hi⟩
  bounded := ⟨show vmallocStart % 4096 = 0 by decide, le_rfl,
    show vmallocStart ≤ vmallocMax by decide⟩
  mapped := by simp
  below := by simp
  disjoint := .nil

/-- Runs whose `vmalloc` calls do not wrap are sound. -/
theorem Reaches.sound {board : Board} (h : Reaches Mmu.Fits board a s) : s.Sound a := by
  refine Reachable.invariant (fun s ↦ Sound s a) ?_ ?_ h
  · intro s hs
    subst hs
    exact sound_boot board a
  · intro s s' hs hstep
    cases hstep with
    | ioremap hsize hphys hcall => exact hs.ioremap hsize hphys hcall
    | vmalloc _ hfits => exact hs.vmalloc hfits

end Mappings

/-- In every run whose `vmalloc` calls do not wrap: each region that `ioremap` returned is mapped to
the device memory that was asked for, no two of them share a page, their pages lie in the virtual
space, and the next call of `ioremap` returns, with nothing changed when it returns `NULL`. -/
theorem ioremap_keeps_mapping (board : Board) (a : KptAddress) (s : Mappings)
    (h : Mappings.Reaches Mmu.Fits board a s) :
    (∀ r ∈ s.granted, ∀ k < r.size,
      walk a s.mmu.kpt (r.virt + k) = some ⟨r.phys + k, mtAttrDevice⟩) ∧
    (s.granted.Pairwise fun r r' ↦ Disjoint r.pages r'.pages) ∧
    (∀ r ∈ s.granted, ∀ q ∈ r.pages, vmallocStart ≤ q * 4096 ∧ (q + 1) * 4096 ≤ vmallocMax) ∧
    ∀ physAddr size, size < 2 ^ 32 → physAddr + size ≤ 2 ^ 48 →
      ∃ virt mmu, ioremap s.mmu physAddr size = some (virt, mmu) ∧ (virt = 0 → mmu = s.mmu) := by
  have hs := h.sound
  refine ⟨fun r hr k hk ↦ hs.walk_eq hr hk, hs.disjoint, fun r hr q hq ↦ ?_, ?_⟩
  · obtain ⟨hpos, hlow, hhigh⟩ := hs.below r hr
    obtain ⟨hfirst, hlast⟩ := hq
    obtain ⟨haligned, -, htop⟩ := hs.bounded
    have hstart : vmallocStart % 4096 = 0 := by decide
    omega
  · intro physAddr size hsize hphys
    rcases hs.bounded.ioremap_cases hsize hphys with hnull | ⟨n, kpt, -, -, -, -, -, hgrant⟩
    · exact ⟨0, s.mmu, hnull, fun _ ↦ rfl⟩
    · have hstart : 0x80000000 ≤ s.mmu.vmallocPtr := hs.bounded.low
      exact ⟨_, _, hgrant, fun hzero ↦ by omega⟩

/-- Tables somewhere in RAM. -/
def KptAddress.sample : KptAddress := ⟨0x40200000, by decide, by decide⟩

/-- A region of two bytes across a page boundary is mapped to two frames. -/
theorem ioremap_keeps_mapping_straddle : ∃ s, Mappings.Reaches Mmu.Fits .virt .sample s ∧
    s.granted = [⟨0x80000FFF, 0x10000FFF, 2⟩] ∧
    walk .sample s.mmu.kpt 0x80001000 = some ⟨0x10001000, mtAttrDevice⟩ := by
  obtain ⟨⟨virt, mmu⟩, hcall, hvirt⟩ := (Option.any_eq_true
    (fun r : Nat × Mmu ↦ decide (r.1 = 0x80000FFF))
    (ioremap (.boot .virt .sample) 0x10000FFF 2)).mp (by decide +kernel)
  obtain rfl : virt = 0x80000FFF := of_decide_eq_true hvirt
  have hstep : Mappings.Step Mmu.Fits ⟨.boot .virt .sample, []⟩
      ⟨mmu, [⟨0x80000FFF, 0x10000FFF, 2⟩]⟩ :=
    .granted (by decide) (by decide) hcall (by decide)
  have hreaches : Mappings.Reaches Mmu.Fits .virt .sample
      ⟨mmu, [⟨0x80000FFF, 0x10000FFF, 2⟩]⟩ := .step (.init rfl) hstep
  obtain ⟨hwalk, -⟩ := ioremap_keeps_mapping .virt .sample _ hreaches
  refine ⟨_, hreaches, rfl, ?_⟩
  exact hwalk ⟨0x80000FFF, 0x10000FFF, 2⟩ (List.mem_singleton_self _) 1 (by decide)

/-- A page is mapped, some space is reserved, and another page is mapped. -/
theorem Mappings.reaches_reserve {board : Board} {a : KptAddress} {p p' virt virt' size : Nat}
    {mmu mmu' : Mmu} (hp : p + 4096 ≤ 2 ^ 48) (hp' : p' + 4096 ≤ 2 ^ 48) (hsize : size < 2 ^ 64)
    (hcall : ioremap (.boot board a) p 4096 = some (virt, mmu)) (hne : virt ≠ 0)
    (hcall' : ioremap (vmalloc mmu size).2 p' 4096 = some (virt', mmu')) (hne' : virt' ≠ 0) :
    Reaches (fun _ _ ↦ True) board a ⟨mmu', [⟨virt', p', 4096⟩, ⟨virt, p, 4096⟩]⟩ := by
  have hfirst : Step (fun _ _ ↦ True) ⟨.boot board a, []⟩ ⟨mmu, [⟨virt, p, 4096⟩]⟩ :=
    .granted (by decide) hp hcall hne
  have hreserve : Step (fun _ _ ↦ True) ⟨mmu, [⟨virt, p, 4096⟩]⟩
      ⟨(vmalloc mmu size).2, [⟨virt, p, 4096⟩]⟩ := .vmalloc hsize trivial
  have hsecond : Step (fun _ _ ↦ True) ⟨(vmalloc mmu size).2, [⟨virt, p, 4096⟩]⟩
      ⟨mmu', [⟨virt', p', 4096⟩, ⟨virt, p, 4096⟩]⟩ := .granted (by decide) hp' hcall' hne'
  exact .step (.step (.step (.init rfl) hfirst) hreserve) hsecond

/-- A reservation that wraps moves `vmalloc_ptr` down, and the next region takes the pages of the
one before. -/
theorem vmalloc_rewinds : ∃ s, Mappings.Reaches (fun _ _ ↦ True) .virt .sample s ∧
    s.granted = [⟨0x80000000, 0x20000000, 4096⟩, ⟨0x80000000, 0x10000000, 4096⟩] ∧
    walk .sample s.mmu.kpt 0x80000000 = some ⟨0x20000000, mtAttrDevice⟩ ∧
    ¬ ∀ r ∈ s.granted, ∀ k < r.size,
      walk .sample s.mmu.kpt (r.virt + k) = some ⟨r.phys + k, mtAttrDevice⟩ := by
  obtain ⟨⟨virt, mmu⟩, hcall, hP⟩ := (Option.any_eq_true
    (fun r : Nat × Mmu ↦ decide (r.1 = 0x80000000) &&
      (ioremap (vmalloc r.2 (2 ^ 64 - 4096)).2 0x20000000 4096).any fun r' : Nat × Mmu ↦
        decide (r'.1 = 0x80000000 ∧
          walk .sample r'.2.kpt 0x80000000 = some ⟨0x20000000, mtAttrDevice⟩))
    (ioremap (.boot .virt .sample) 0x10000000 4096)).mp (by decide +kernel)
  obtain ⟨hvirt, hrest⟩ := Bool.and_eq_true_iff.mp hP
  obtain rfl : virt = 0x80000000 := of_decide_eq_true hvirt
  obtain ⟨⟨virt', mmu'⟩, hcall', hP'⟩ := (Option.any_eq_true _ _).mp hrest
  obtain ⟨rfl, hwalk⟩ := of_decide_eq_true hP'
  dsimp only at hcall' hwalk
  refine ⟨_, Mappings.reaches_reserve (by decide) (by decide) (by decide) hcall (by decide) hcall'
    (by decide), rfl, hwalk, fun hall ↦ ?_⟩
  have hmapped := hall ⟨0x80000000, 0x10000000, 4096⟩ (by simp) 0 (by decide)
  cases hmapped.symm.trans hwalk

end Aether.Kernel
