import Mathlib.Logic.Function.Basic
import Mathlib.Data.Nat.Bitwise

/-!
# Address translation

`mmu_init` and `mmu_map_region` of `mmu.c`, `vmalloc` and `ioremap` of `memory.c`, and the walk that
the MMU makes over the tables. The tables lie in one structure in RAM. Addresses and descriptors are
natural numbers, with `uint64_t` arithmetic explicit modulo `2 ^ 64`.
-/

namespace Aether.Kernel

/-! ## The tables -/

/-- `PAGE_SIZE`. -/
def pageSize : Nat := 4096

/-- `kernel_pt_t`. -/
structure KernelPt where
  l1 : Nat → Nat
  l2Periph : Nat → Nat
  l2Ram : Nat → Nat
  l2Dynamic : Nat → Nat
  l3Pool : Nat → Nat → Nat

/-- The address of `kpt`, which is aligned to a page, in physical memory. -/
structure KptAddress where
  base : Nat
  aligned : base % 4096 = 0
  bound : base + 8 * 4096 ≤ 2 ^ 48

/-- The address of `l2_periph`. -/
def KptAddress.l2Periph (a : KptAddress) : Nat := a.base + 4096

/-- The address of `l2_ram`. -/
def KptAddress.l2Ram (a : KptAddress) : Nat := a.base + 2 * 4096

/-- The address of `l2_dynamic`. -/
def KptAddress.l2Dynamic (a : KptAddress) : Nat := a.base + 3 * 4096

/-- The address of `l3_pool[i]`. -/
def KptAddress.l3Pool (a : KptAddress) (i : Nat) : Nat := a.base + (4 + i) * 4096

/-- The boards that `config.h` knows. -/
inductive Board where
  | virt
  | rpi4
  deriving DecidableEq

/-- `PCIE_PHYS_BASE`. -/
def Board.pciePhysBase : Board → Nat
  | virt => 0x3f000000
  | rpi4 => 0x600000000

/-- `PCIE_EXT_CFG_DATA`. -/
def Board.pcieExtCfgData : Board → Nat
  | virt => 0x70000000
  | rpi4 => 0x600000000

/-- The tables that `mmu_init` builds. -/
def mmuInit (board : Board) (a : KptAddress) : KernelPt where
  l1 i :=
    if i = 0 then a.l2Periph ||| 0x3
    else if i = 1 then a.l2Ram ||| 0x3
    else if i = 2 then a.l2Dynamic ||| 0x3
    else 0
  l2Periph i := (i <<< 21) ||| 0x405 ||| (0 <<< 2)
  l2Ram i :=
    let virtualAddr := 0x40000000 + (i <<< 21)
    -- the window of the configuration space lies elsewhere physically
    if board.pcieExtCfgData ≤ virtualAddr ∧ virtualAddr < board.pcieExtCfgData + 0x08000000 then
      (board.pciePhysBase + (virtualAddr - board.pcieExtCfgData)) ||| 0x405 ||| (0 <<< 2)
    else virtualAddr ||| 0x401 ||| (2 <<< 2)
  l2Dynamic i := if i < 4 then a.l3Pool i ||| 0x3 else 0
  l3Pool _ _ := 0

/-! ## The walk -/

/-- The value that `mmu_init` puts into `mair_el1`. -/
def mairEl1 : Nat := 0xFF4400

/-- `MT_ATTR_DEVICE_nGnRnE`. -/
def mtAttrDevice : Nat := 0x00

/-- A physical address and the attributes of the memory there. -/
structure Translation where
  pa : Nat
  attr : Nat
  deriving DecidableEq

/-- The word at byte `off` of the structure. -/
def KernelPt.word (kpt : KernelPt) (off : Nat) : Nat :=
  let i := off % 4096 / 8
  match off / 4096 with
  | 0 => kpt.l1 i
  | 1 => kpt.l2Periph i
  | 2 => kpt.l2Ram i
  | 3 => kpt.l2Dynamic i
  | n + 4 => kpt.l3Pool n i

/-- The `i`-th descriptor of the table at a physical address, when it lies in the structure. -/
def KernelPt.descriptor (kpt : KernelPt) (a : KptAddress) (table i : Nat) : Option Nat :=
  if a.base ≤ table + 8 * i ∧ table + 8 * i + 8 ≤ a.base + 8 * 4096 then
    some (kpt.word (table + 8 * i - a.base))
  else none

/-- The table that a descriptor points to: its bits 47 to 12. -/
def nextTable (d : Nat) : Nat := d / 2 ^ 12 % 2 ^ 36 * 2 ^ 12

/-- What a descriptor of a region of `size` bytes translates an address in it to. An access to a
region whose access flag is clear faults. -/
def leaf (d size va : Nat) : Option Translation :=
  if d / 2 ^ 10 % 2 = 1 then
    some ⟨d % 2 ^ 48 / size * size + va % size, mairEl1 / 256 ^ (d / 4 % 8) % 256⟩
  else none

/-- The walk for a virtual address of 39 bits with pages of 4 KB, from the table in `ttbr0_el1`. The
40 bits that `tcr_el1` allows to a physical address are not checked. -/
def walk (a : KptAddress) (kpt : KernelPt) (va : Nat) : Option Translation := do
  if va < 2 ^ 39 then
    let d1 ← kpt.descriptor a a.base (va / 2 ^ 30 % 512)
    if d1 % 4 = 3 then
      let d2 ← kpt.descriptor a (nextTable d1) (va / 2 ^ 21 % 512)
      if d2 % 4 = 3 then
        let d3 ← kpt.descriptor a (nextTable d2) (va / 2 ^ 12 % 512)
        if d3 % 4 = 3 then leaf d3 (2 ^ 12) va
        else none
      else if d2 % 4 = 1 then leaf d2 (2 ^ 21) va
      else none
    else if d1 % 4 = 1 then leaf d1 (2 ^ 30) va
    else none
  else none

/-! ## Mapping -/

/-- `x & PAGE_MASK`. -/
def pageFloor (x : Nat) : Nat := x / 4096 * 4096

/-- `(x + PAGE_SIZE - 1) & PAGE_MASK`. -/
def pageCeil (x : Nat) : Nat := pageFloor ((x + (pageSize - 1)) % 2 ^ 64)

/-- `PROT_DEVICE_PAGE`. -/
def protDevicePage : Nat := 0x3 ||| (0 <<< 2) ||| (1 <<< 10)

/-- The descriptor that `mmu_map_region` writes. -/
def pageDescriptor (pAddr flags : Nat) : Nat := pAddr ||| flags ||| (1 <<< 10) ||| 0x3

/-- An assignment to an entry of `l3_pool`. -/
def KernelPt.setPage (kpt : KernelPt) (l2Idx l3Idx d : Nat) : KernelPt :=
  { kpt with
    l3Pool := Function.update kpt.l3Pool l2Idx (Function.update (kpt.l3Pool l2Idx) l3Idx d) }

/-- The loop of `mmu_map_region`. The result is `none` when it outlasts its turns. -/
def mapLoop (size flags : Nat) : Nat → KernelPt → Nat → Nat → Nat → Option KernelPt
  | 0, _, _, _, _ => none
  | turns + 1, kpt, vAddr, pAddr, mapped =>
      if mapped < size then
        let l2Idx := vAddr / 2 ^ 21 % 512
        let l3Idx := vAddr / 2 ^ 12 % 512
        let kpt := if l2Idx < 4 then kpt.setPage l2Idx l3Idx (pageDescriptor pAddr flags) else kpt
        mapLoop size flags turns kpt ((vAddr + 4096) % 2 ^ 64) ((pAddr + 4096) % 2 ^ 64)
          ((mapped + 4096) % 2 ^ 64)
      else some kpt

/-- `mmu_map_region`. -/
def mmuMapRegion (kpt : KernelPt) (va pa size flags : Nat) : Option KernelPt :=
  mapLoop size flags (size / 4096 + 2) kpt va (pageFloor pa) 0

/-! ## Virtual space -/

/-- `VMALLOC_START`. -/
def vmallocStart : Nat := 0x80000000

/-- `VMALLOC_MAX`. -/
def vmallocMax : Nat := vmallocStart + 4 * 2 * 1024 * 1024

/-- The tables and `vmalloc_ptr`. -/
structure Mmu where
  kpt : KernelPt
  vmallocPtr : Nat

/-- The state after `mmu_init`. -/
def Mmu.boot (board : Board) (a : KptAddress) : Mmu := ⟨mmuInit board a, vmallocStart⟩

/-- `vmalloc`: the address that it returns, `0` for `NULL`, and the state after it. -/
def vmalloc (m : Mmu) (size : Nat) : Nat × Mmu :=
  let size := pageCeil size
  if (m.vmallocPtr + size) % 2 ^ 64 > vmallocMax then (0, m)
  else (m.vmallocPtr, { m with vmallocPtr := (m.vmallocPtr + size) % 2 ^ 64 })

/-- `ioremap`. The outer `none` is a call that does not return. -/
def ioremap (m : Mmu) (physAddr size : Nat) : Option (Nat × Mmu) :=
  if size = 0 then some (0, m)
  else
    let physPage := pageFloor physAddr
    let offset := physAddr % pageSize
    let mapSize := pageCeil ((offset + size) % 2 ^ 64)
    let (virtPage, m) := vmalloc m mapSize
    if virtPage = 0 then some (0, m)
    else
      (mmuMapRegion m.kpt virtPage physPage mapSize protDevicePage).map fun kpt ↦
        ((virtPage + offset) % 2 ^ 64, { m with kpt := kpt })

end Aether.Kernel
