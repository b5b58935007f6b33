import Aether.Drivers.VirtioPci
import Aether.Kernel.AddressSpace

/-!
# Access to the configuration space

`pcie_read_config` and `pcie_write_config` with the addresses that they use, which the MMU
translates. `config_access` says which registers they reach: on the `virt` board those of the
function that was asked for, as long as its bus is one of the first 128.
-/

namespace Aether.Drivers

open Kernel

/-- `offset` in `pcie_read_config` and `pcie_write_config`. -/
def ecamOffset (bus dev func reg : UInt32) : UInt32 :=
  ((bus &&& 0xFF) <<< 20) ||| ((dev &&& 0x1F) <<< 15) ||| ((func &&& 0x07) <<< 12) |||
    (reg &&& 0xFFC)

/-- `addr`. -/
def configAddress (board : Board) (bus dev func reg : UInt32) : Nat :=
  (board.pcieExtCfgData + (ecamOffset bus dev func reg).toNat) % 2 ^ 64

/-- `pcie_read_config`, where `mmio` is what reads of physical addresses return. The result is
`none` when the access faults. -/
def pcieReadConfigAt (board : Board) (translate : Nat → Option Translation) (mmio : Nat → UInt32)
    (bus dev func reg : UInt32) : Option UInt32 := do
  let t ← translate (configAddress board bus dev func reg)
  let val := mmio t.pa
  let byteOffset := reg &&& 0x3
  pure (if byteOffset = 0 then val else val >>> (byteOffset * 8))

/-- `pcie_write_config`: the physical address that is written. -/
def pcieWriteConfigAt (board : Board) (translate : Nat → Option Translation)
    (bus dev func reg : UInt32) : Option Nat :=
  (translate (configAddress board bus dev func reg)).map Translation.pa

/-- The configuration space of a function: 4 KiB in the order of buses, devices and functions. -/
def functionSpace (base : Nat) (mmio : Nat → UInt32) (bus dev func : UInt32) : ConfigSpace :=
  fun reg ↦
    mmio (base + ((bus.toNat % 256 * 32 + dev.toNat % 32) * 8 + func.toNat % 8) * 4096 + reg)

/-! ## The offset -/

/-- The fields of the offset do not overlap. -/
theorem toNat_ecamOffset (bus dev func reg : UInt32) : (ecamOffset bus dev func reg).toNat =
    ((bus.toNat % 256 * 32 + dev.toNat % 32) * 8 + func.toNat % 8) * 4096 +
      (reg.toNat &&& 0xFFC) := by
  have hbus : (bus.toNat &&& 255) = bus.toNat % 256 := Nat.and_two_pow_sub_one_eq_mod _ 8
  have hdev : (dev.toNat &&& 31) = dev.toNat % 32 := Nat.and_two_pow_sub_one_eq_mod _ 5
  have hfunc : (func.toNat &&& 7) = func.toNat % 8 := Nat.and_two_pow_sub_one_eq_mod _ 3
  have hreg : (reg.toNat &&& 0xFFC) < 2 ^ 12 := Nat.lt_of_le_of_lt Nat.and_le_right (by decide)
  have hlow := Nat.two_pow_add_eq_or_of_lt hreg (func.toNat % 8)
  have hmid := Nat.two_pow_add_eq_or_of_lt (i := 15) (b := 2 ^ 12 * (func.toNat % 8) +
    (reg.toNat &&& 0xFFC)) (by omega) (dev.toNat % 32)
  have hhigh := Nat.two_pow_add_eq_or_of_lt (i := 20) (b := 2 ^ 15 * (dev.toNat % 32) +
    (2 ^ 12 * (func.toNat % 8) + (reg.toNat &&& 0xFFC))) (by omega) (bus.toNat % 256)
  have hwrap {x n k : Nat} (hx : x < n) (hn : n * 2 ^ k ≤ 2 ^ 32) :
      x * 2 ^ k % 2 ^ 32 = 2 ^ k * x := by
    rw [Nat.mod_eq_of_lt, Nat.mul_comm]
    exact Nat.lt_of_lt_of_le (Nat.mul_lt_mul_of_pos_right hx (Nat.two_pow_pos k)) hn
  rw [ecamOffset]
  simp only [UInt32.toNat_or, UInt32.toNat_shiftLeft, UInt32.toNat_and, UInt32.reduceToNat, hbus,
    hdev, hfunc, Nat.shiftLeft_eq, Nat.reduceMod]
  rw [hwrap (n := 256) (Nat.mod_lt _ (by decide)) (by decide),
    hwrap (n := 32) (Nat.mod_lt _ (by decide)) (by decide),
    hwrap (n := 8) (Nat.mod_lt _ (by decide)) (by decide), Nat.or_assoc, Nat.or_assoc, ← hlow,
    ← hmid, ← hhigh]
  omega

/-- The offset lies in the first 256 MiB, and in the window when the bus is one of the first 128. -/
theorem ecamOffset_lt (bus dev func reg : UInt32) :
    (ecamOffset bus dev func reg).toNat < 2 ^ 28 ∧
      ((ecamOffset bus dev func reg).toNat < 0x08000000 ↔ bus.toNat % 256 < 128) := by
  have hreg : (reg.toNat &&& 0xFFC) < 2 ^ 12 := Nat.lt_of_le_of_lt Nat.and_le_right (by decide)
  rw [toNat_ecamOffset]
  omega

/-! ## Where accesses end up -/

variable {a : KptAddress} {s : Mappings}

/-- The translation of the address that an access uses. -/
def Board.configTarget (board : Board) (bus dev func reg : UInt32) : Option Translation :=
  match board with
  | .rpi4 => none
  | .virt =>
      if bus.toNat % 256 < 128 then
        some ⟨0x3f000000 + (ecamOffset bus dev func reg).toNat, mtAttrNormalNc⟩
      else some ⟨0x70000000 + (ecamOffset bus dev func reg).toNat, mtAttrNormalWb⟩

/-- The walk for the address of a register. -/
theorem walk_configAddress {board : Board} (h : Mappings.Reaches Mmu.Fits board a s)
    (bus dev func reg : UInt32) : walk a s.mmu.kpt (configAddress board bus dev func reg) =
      Board.configTarget board bus dev func reg := by
  obtain ⟨hlt, hwindow⟩ := ecamOffset_lt bus dev func reg
  cases board with
  | rpi4 =>
      have haddr : configAddress .rpi4 bus dev func reg =
          0x600000000 + (ecamOffset bus dev func reg).toNat := Nat.mod_eq_of_lt (by
        show 0x600000000 + _ < _
        omega)
      have hpool : ¬ InPool (0x600000000 + (ecamOffset bus dev func reg).toNat) := by
        rw [inPool_iff]
        omega
      rw [haddr, h.exact.fixed.walk_eq (by omega) hpool, Board.fixed, if_neg (by omega),
        if_neg (by omega)]
      rfl
  | virt =>
      have haddr : configAddress .virt bus dev func reg =
          0x70000000 + (ecamOffset bus dev func reg).toNat := Nat.mod_eq_of_lt (by
        show 0x70000000 + _ < _
        omega)
      have hpool : ¬ InPool (0x70000000 + (ecamOffset bus dev func reg).toNat) := by
        rw [inPool_iff]
        omega
      have hecam : Board.InEcam .virt (0x70000000 + (ecamOffset bus dev func reg).toNat) ↔
          bus.toNat % 256 < 128 := by
        rw [← hwindow]
        show 0x70000000 ≤ _ ∧ _ < 0x70000000 + 0x08000000 ↔ _
        omega
      rw [haddr, h.exact.fixed.walk_eq (by omega) hpool, Board.fixed, if_neg (by omega),
        if_pos (by omega)]
      refine if_congr hecam ?_ rfl
      show some (Translation.mk (0x3f000000 + (0x70000000 + _ - 0x70000000)) _) = _
      rw [Nat.add_sub_cancel_left]

/-- Where the function's registers are read: in its configuration space, or, on a bus that the
window does not show, in RAM. -/
def configBase (bus : UInt32) : Nat := if bus.toNat % 256 < 128 then 0x3f000000 else 0x70000000

/-- The target of an access on the `virt` board. -/
theorem configTarget_pa (bus dev func reg : UInt32) :
    (Board.configTarget .virt bus dev func reg).map Translation.pa =
      some (configBase bus + (ecamOffset bus dev func reg).toNat) := by
  rw [Board.configTarget, configBase]
  split <;> rfl

/-- The bytes of the register that a read skips. -/
theorem toNat_byteOffset (reg : UInt32) : (reg &&& 0x3).toNat = reg.toNat &&& 0x3 :=
  UInt32.toNat_and _ _

/-- The function and the word of its configuration space that an access is about. -/
def configRegister (bus dev func reg : UInt32) : Nat × Nat × Nat × Nat :=
  (bus.toNat % 256, dev.toNat % 32, func.toNat % 8, reg.toNat &&& 0xFFC)

/-- Registers of different functions are at different addresses. -/
theorem ecamOffset_inj {bus dev func reg bus' dev' func' reg' : UInt32} :
    ecamOffset bus dev func reg = ecamOffset bus' dev' func' reg' ↔
      configRegister bus dev func reg = configRegister bus' dev' func' reg' := by
  have hreg : (reg.toNat &&& 0xFFC) < 2 ^ 12 := Nat.lt_of_le_of_lt Nat.and_le_right (by decide)
  have hreg' : (reg'.toNat &&& 0xFFC) < 2 ^ 12 := Nat.lt_of_le_of_lt Nat.and_le_right (by decide)
  simp only [← UInt32.toNat_inj, toNat_ecamOffset, configRegister, Prod.mk.injEq]
  omega

/-- On the `virt` board a read returns what the register of that function holds, as long as the bus
is one of the first 128, a write goes to that register, and no other access does. On the other buses
both go to RAM. On the `rpi4` board, whose configuration space `mmu_init` does not map, both fault.
-/
theorem config_access (board : Board) (a : KptAddress) (s : Mappings)
    (h : Mappings.Reaches Mmu.Fits board a s) (mmio : Nat → UInt32) (bus dev func reg : UInt32) :
    pcieReadConfigAt board (walk a s.mmu.kpt) mmio bus dev func reg =
      (if board = .virt then
        some (pcieReadConfig (functionSpace (configBase bus) mmio bus dev func) reg.toNat)
      else none) ∧
    pcieWriteConfigAt board (walk a s.mmu.kpt) bus dev func reg =
      (if board = .virt then some (configBase bus + (ecamOffset bus dev func reg).toNat)
      else none) ∧
    ∀ bus' dev' func' reg', bus.toNat % 256 < 128 → bus'.toNat % 256 < 128 →
      (configBase bus + (ecamOffset bus dev func reg).toNat =
        configBase bus' + (ecamOffset bus' dev' func' reg').toNat ↔
          configRegister bus dev func reg = configRegister bus' dev' func' reg') := by
  unfold pcieReadConfigAt pcieWriteConfigAt
  rw [walk_configAddress h]
  refine ⟨?_, ?_, fun bus' dev' func' reg' hbus hbus' ↦ ?_⟩
  · cases board with
    | rpi4 => rfl
    | virt =>
        obtain ⟨t, htarget, hpa⟩ := Option.map_eq_some_iff.mp (configTarget_pa bus dev func reg)
        rw [toNat_ecamOffset, ← Nat.add_assoc] at hpa
        rw [htarget, if_pos rfl]
        show some (if reg &&& 0x3 = 0 then mmio t.pa else mmio t.pa >>> ((reg &&& 0x3) * 8)) = _
        rw [hpa, pcieReadConfig, functionSpace]
        refine congrArg some (if_congr ?_ rfl ?_)
        · rw [← UInt32.toNat_inj, toNat_byteOffset]
          rfl
        · rfl
  · cases board with
    | rpi4 => rfl
    | virt => exact configTarget_pa bus dev func reg
  · rw [← ecamOffset_inj, ← UInt32.toNat_inj, configBase, configBase, if_pos hbus, if_pos hbus']
    exact Nat.add_left_cancel_iff

/-- The second device's first BAR. -/
theorem config_access_bar :
    pcieWriteConfigAt .virt (walk .ramStart (Mmu.boot .virt .ramStart).kpt) 0 1 0 0x10 =
      some 0x3f008010 :=
  (config_access .virt .ramStart ⟨.boot .virt .ramStart, []⟩ (.init rfl) (fun _ ↦ 0) 0 1 0
    0x10).2.1.trans (by decide)

end Aether.Drivers
