import Aether.Drivers.Pcie

/-!
# The windows of PCI devices

Where the memory BARs decode after `pcie_init`. The pool of addresses advances by 1 MiB whatever the
size of a BAR. `pci_windows_apart_iff` says for which devices on the bus the windows are aligned and
do not overlap all the same.
-/

namespace Aether.Drivers

/-! ## BARs -/

/-- The kinds of BARs. -/
inductive BarKind where
  | io
  | mem32
  | mem64
  deriving DecidableEq

/-- A BAR of a device: its first register, its kind, and the logarithm of its size. -/
structure Bar where
  slot : Nat
  kind : BarKind
  logSize : Nat
  deriving DecidableEq

/-- The number of addresses that it decodes. -/
def Bar.size (b : Bar) : Nat := 2 ^ b.logSize

/-- It decodes memory. -/
def Bar.IsMemory (b : Bar) : Prop := b.kind ≠ .io

/-- The register is one of its one or two. -/
def Bar.Occupies (b : Bar) (slot : Nat) : Prop :=
  slot = b.slot ∨ b.kind = .mem64 ∧ slot = b.slot + 1

instance (b : Bar) : Decidable b.IsMemory := inferInstanceAs (Decidable (_ ≠ _))

instance (b : Bar) (slot : Nat) : Decidable (b.Occupies slot) :=
  inferInstanceAs (Decidable (_ ∨ _))

/-- The registers of a memory BAR: which kind it is, and that the address bits below its size cannot
be written. -/
structure Bar.Wired (b : Bar) (f : PciFunction) : Prop where
  large : 4 ≤ b.logSize
  wide : f.cfg (0x10 + b.slot * 4) &&& 0x6 = 0x4 ↔ b.kind = .mem64
  low : ∀ i < 32, (f.writable (0x10 + b.slot * 4)).toNat.testBit i = decide (b.logSize ≤ i)
  high : b.kind = .mem64 → ∀ i < 32,
    (f.writable (0x10 + (b.slot + 1) * 4)).toNat.testBit i = decide (b.logSize ≤ 32 + i)

/-- The devices on bus 0, with the BARs of each. -/
structure Population where
  bus : Bus
  bars : Nat → List Bar
  fits : ∀ dev, ∀ b ∈ bars dev, ∀ slot, b.Occupies slot → slot < 6
  wired : ∀ dev, ∀ b ∈ bars dev, b.IsMemory → b.Wired (bus dev)
  apart : ∀ dev, ∀ b ∈ bars dev, ∀ b' ∈ bars dev, b ≠ b' →
    ∀ slot, b.Occupies slot → ¬ b'.Occupies slot

/-- The window starts at the address in the registers. -/
def Bar.base (b : Bar) (f : PciFunction) : Nat := barAddress f.cfg (UInt8.ofNat b.slot)

/-- The device answers at the address. -/
def Bar.Decodes (b : Bar) (f : PciFunction) (x : Nat) : Prop :=
  b.base f ≤ x ∧ x < b.base f + b.size

/-! ## What should hold after the enumeration -/

section Properties

variable {S : Type}

/-- Every address that was written to a BAR is aligned to its size. -/
def Population.Aligned (pop : Population) (s : Pcie S) : Prop :=
  ∀ dev slot addr, (dev, slot, addr) ∈ s.assigned →
    ∀ b ∈ pop.bars dev, b.Occupies slot → b.size ∣ addr.toNat

/-- An address of the pool was written to the BAR. -/
def Pcie.Assigns (s : Pcie S) (dev : Nat) (b : Bar) : Prop :=
  ∃ addr, (dev, b.slot, addr) ∈ s.assigned

/-- No address is in the windows of two memory BARs that were assigned addresses. -/
def Population.WindowsApart (pop : Population) (s : Pcie S) : Prop :=
  ∀ dev dev', ∀ b ∈ pop.bars dev, ∀ b' ∈ pop.bars dev', b.IsMemory → b'.IsMemory →
    (dev, b) ≠ (dev', b') → s.Assigns dev b → s.Assigns dev' b' →
      ∀ x, ¬ (b.Decodes (s.bus dev) x ∧ b'.Decodes (s.bus dev') x)

end Properties

/-! ## When it does -/

namespace Population

variable (pop : Population)

/-- The registers that the enumeration takes for BARs without an address, in the order of the
scan. -/
def zeroed : List (Nat × Nat) := zeroedRegisters pop.bus 32

/-- The upper half of the address of a BAR: that of a zeroed register is an address of the pool. -/
def upper (dev : Nat) (b : Bar) : UInt32 :=
  if b.kind = .mem64 then
    if (dev, b.slot + 1) ∈ pop.zeroed then
      poolAddress (pop.zeroed.idxOf (dev, b.slot + 1))
    else (pop.bus dev).cfg (0x10 + (b.slot + 1) * 4)
  else 0

/-- Counted from 0, the `i`-th zeroed register belongs to a BAR whose size divides `256 + i` MiB. If
it is the first register of a memory BAR, the size is at most `j - i` MiB whenever the `j`-th comes
later and is the first of another memory BAR with the same upper half. -/
structure PoolFits : Prop where
  sizes : ∀ i dev slot, pop.zeroed[i]? = some (dev, slot) →
    ∀ b ∈ pop.bars dev, b.Occupies slot → b.size ∣ 0x10000000 + i * 0x100000
  gaps : ∀ i j dev dev', i < j → ∀ b ∈ pop.bars dev, ∀ b' ∈ pop.bars dev',
    b.IsMemory → b'.IsMemory → pop.zeroed[i]? = some (dev, b.slot) →
      pop.zeroed[j]? = some (dev', b'.slot) → pop.upper dev b = pop.upper dev' b' →
        b.size ≤ (j - i) * 0x100000

end Population

/-! ## The registers -/

/-- The registers are distinct. -/
theorem zeroedRegisters_nodup (bus : Bus) (n : Nat) : (zeroedRegisters bus n).Nodup := by
  induction n with
  | zero => exact List.nodup_nil
  | succ n ih =>
      rw [zeroedRegisters_succ, List.nodup_append']
      refine ⟨ih, ?_, fun r hr hmem ↦ ?_⟩
      · refine List.Nodup.map (Prod.mk_right_injective n) ?_
        unfold PciFunction.zeroedBars
        split
        · exact List.nodup_range.filter _
        · exact List.nodup_nil
      · obtain ⟨slot, -, rfl⟩ := List.mem_map.mp hmem
        exact (lt_of_mem_zeroedRegisters hr).ne rfl

/-- Each device has at most six. -/
theorem length_zeroedRegisters_le (bus : Bus) (n : Nat) :
    (zeroedRegisters bus n).length ≤ 6 * n := by
  induction n with
  | zero => exact le_rfl
  | succ n ih =>
      have hbars : (bus n).zeroedBars.length ≤ 6 := by
        unfold PciFunction.zeroedBars
        split
        · exact List.length_filter_le _ _
        · exact Nat.zero_le _
      rw [zeroedRegisters_succ, List.length_append, List.length_map]
      omega

/-- The pool does not wrap. -/
theorem toNat_poolAddress {i : Nat} (hi : i < 192) :
    (poolAddress i).toNat = 0x10000000 + i * 0x100000 := by
  unfold poolAddress
  rw [UInt32.toNat_add, UInt32.toNat_mul, UInt32.toNat_ofNat']
  simp only [UInt32.reduceToNat]
  omega

/-- Writing an aligned address to the first register of a memory BAR without one. -/
theorem write_address {v m addr : UInt32} {k : Nat} (hk : 4 ≤ k) (hv : v &&& 0xFFFFFFF0 = 0)
    (hm : ∀ i < 32, m.toNat.testBit i = decide (k ≤ i)) (haddr : 2 ^ k ∣ addr.toNat) :
    ((v &&& ~~~m) ||| (addr &&& m)) &&& 0xFFFFFFF0 = addr ∧
      ((v &&& ~~~m) ||| (addr &&& m)) &&& 0x6 = v &&& 0x6 := by
  have hbits : ∀ i < 32, m.toBitVec.getLsbD i = decide (k ≤ i) := hm
  have haligned : ∀ i < k, addr.toBitVec.getLsbD i = false := by
    intro i hi
    obtain ⟨q, hq⟩ := haddr
    show addr.toNat.testBit i = false
    rw [hq, Nat.testBit_two_pow_mul, decide_eq_false (by omega), Bool.false_and]
  have hmask : ∀ i < 32, (0xFFFFFFF0 : UInt32).toBitVec.getLsbD i = decide (4 ≤ i) := by decide
  have hflags : ∀ i < 32, (0x6 : UInt32).toBitVec.getLsbD i = decide (i = 1 ∨ i = 2) := by decide
  have hzero : ∀ i < 32, 4 ≤ i → v.toBitVec.getLsbD i = false := by
    intro i hi hlarge
    have hbit := congrArg (fun w : UInt32 ↦ w.toBitVec.getLsbD i) hv
    simp only [UInt32.toBitVec_and, BitVec.getLsbD_and, hmask i hi, decide_eq_true hlarge,
      Bool.and_true] at hbit
    rw [hbit]
    exact BitVec.getLsbD_zero
  -- bit by bit: the address has no bit below `k`, the register none above the flags
  constructor
  · refine UInt32.toBitVec_inj.mp (BitVec.eq_of_getLsbD_eq fun i hi ↦ ?_)
    simp only [UInt32.toBitVec_and, UInt32.toBitVec_or, UInt32.toBitVec_not, BitVec.getLsbD_and,
      BitVec.getLsbD_or, BitVec.getLsbD_not, hbits i hi, hmask i hi, decide_eq_true hi]
    by_cases hlarge : 4 ≤ i
    · rw [hzero i hi hlarge]
      by_cases hki : k ≤ i
      · simp [hlarge, hki]
      · simp [hki, haligned i (by omega)]
    · simp [hlarge, haligned i (by omega)]
  · refine UInt32.toBitVec_inj.mp (BitVec.eq_of_getLsbD_eq fun i hi ↦ ?_)
    simp only [UInt32.toBitVec_and, UInt32.toBitVec_or, UInt32.toBitVec_not, BitVec.getLsbD_and,
      BitVec.getLsbD_or, BitVec.getLsbD_not, hbits i hi, hflags i hi, decide_eq_true hi]
    by_cases hflag : i = 1 ∨ i = 2
    · have hki : ¬ k ≤ i := by omega
      simp [hki]
    · simp [hflag]

/-- A register of which every bit can be written holds what was written. -/
theorem write_whole {v m val : UInt32} (hm : ∀ i < 32, m.toNat.testBit i = true) :
    (v &&& ~~~m) ||| (val &&& m) = val := by
  have hbits : ∀ i < 32, m.toBitVec.getLsbD i = true := hm
  refine UInt32.toBitVec_inj.mp (BitVec.eq_of_getLsbD_eq fun i hi ↦ ?_)
  simp [hbits i hi]

/-! ## The windows -/

section Windows

variable {S : Type} {pop : Population} {s : Pcie S} {i dev slot : Nat} {b : Bar}

/-- A zeroed register that the scan comes to. -/
theorem Population.zeroed_of_getElem? (h : pop.zeroed[i]? = some (dev, slot)) :
    slot < 6 ∧ (pop.bus dev).Zeroed slot ∧ i < 192 := by
  obtain ⟨hi, -⟩ := List.getElem?_eq_some_iff.mp h
  have hlength : pop.zeroed.length ≤ 6 * 32 := length_zeroedRegisters_le pop.bus 32
  obtain ⟨_, -, hmem⟩ := List.mem_flatMap.mp (List.mem_of_getElem? h)
  obtain ⟨_, hslot, heq⟩ := List.mem_map.mp hmem
  cases heq
  unfold PciFunction.zeroedBars at hslot
  split at hslot
  · obtain ⟨hrange, hzeroed⟩ := List.mem_filter.mp hslot
    exact ⟨List.mem_range.mp hrange, of_decide_eq_true hzeroed, by omega⟩
  · cases hslot

theorem Population.idxOf_zeroed (h : pop.zeroed[i]? = some (dev, slot)) :
    pop.zeroed.idxOf (dev, slot) = i := by
  obtain ⟨hi, hget⟩ := List.getElem?_eq_some_iff.mp h
  rw [← hget]
  exact (zeroedRegisters_nodup pop.bus 32).idxOf_getElem i hi

/-- The addresses of the pool are written in the order of the scan. -/
theorem Pcie.Visited.mem_assigned (h : s.Visited pop.bus 32) {addr : UInt32} :
    (dev, slot, addr) ∈ s.assigned ↔
      ∃ i : Nat, pop.zeroed[i]? = some (dev, slot) ∧ addr = poolAddress i := by
  rw [h.enumerated.assigned, List.mem_map]
  constructor
  · rintro ⟨⟨r, i⟩, hmem, heq⟩
    cases heq
    exact ⟨i, List.mem_zipIdx_iff_getElem?.mp hmem, rfl⟩
  · rintro ⟨i, hget, rfl⟩
    exact ⟨((dev, slot), i), List.mem_zipIdx_iff_getElem?.mpr hget, rfl⟩

theorem Pcie.Visited.assigns_iff (h : s.Visited pop.bus 32) :
    s.Assigns dev b ↔ ∃ i : Nat, pop.zeroed[i]? = some (dev, b.slot) := by
  constructor
  · rintro ⟨addr, hmem⟩
    obtain ⟨i, hget, -⟩ := h.mem_assigned.mp hmem
    exact ⟨i, hget⟩
  · rintro ⟨i, hget⟩
    exact ⟨_, h.mem_assigned.mpr ⟨i, hget, rfl⟩⟩

/-- What a zeroed register holds at the end. -/
theorem Pcie.Visited.cfg_zeroed (h : s.Visited pop.bus 32)
    (hget : pop.zeroed[i]? = some (dev, slot)) : (s.bus dev).cfg (0x10 + slot * 4) =
      (pop.bus dev).written (0x10 + slot * 4) (poolAddress i) := by
  have hmem : (dev, slot) ∈ zeroedRegisters pop.bus 32 := List.mem_of_getElem? hget
  have hidx : (zeroedRegisters pop.bus 32).idxOf (dev, slot) = i := Population.idxOf_zeroed hget
  rw [h.enumerated.bar dev slot (Population.zeroed_of_getElem? hget).1, if_pos hmem, hidx]

/-- The addresses are aligned if the sizes fit. -/
theorem Pcie.Visited.aligned_iff (h : s.Visited pop.bus 32) : pop.Aligned s ↔
    ∀ i dev slot, pop.zeroed[i]? = some (dev, slot) →
      ∀ b ∈ pop.bars dev, b.Occupies slot → b.size ∣ 0x10000000 + i * 0x100000 := by
  constructor
  · intro haligned i dev slot hget b hb hslot
    have hdvd := haligned dev slot _ (h.mem_assigned.mpr ⟨i, hget, rfl⟩) b hb hslot
    rwa [toNat_poolAddress (Population.zeroed_of_getElem? hget).2.2] at hdvd
  · intro hsizes dev slot addr hmem b hb hslot
    obtain ⟨i, hget, rfl⟩ := h.mem_assigned.mp hmem
    rw [toNat_poolAddress (Population.zeroed_of_getElem? hget).2.2]
    exact hsizes i dev slot hget b hb hslot

/-- A size that divides an address of the pool is less than 4 GiB. -/
theorem Bar.logSize_lt (hi : i < 192) (hdvd : b.size ∣ 0x10000000 + i * 0x100000) :
    b.logSize < 32 := by
  have hle : 2 ^ b.logSize ≤ 0x10000000 + i * 0x100000 := Nat.le_of_dvd (by omega) hdvd
  exact (Nat.pow_lt_pow_iff_right (by decide)).mp (show 2 ^ b.logSize < 2 ^ 32 by omega)

/-- The upper half of the address of a memory BAR at the end. -/
theorem Pcie.Visited.cfg_upper (h : s.Visited pop.bus 32) (hb : b ∈ pop.bars dev)
    (hwide : b.kind = .mem64) (hsize : b.logSize < 32) :
    (s.bus dev).cfg (0x10 + (b.slot + 1) * 4) = pop.upper dev b := by
  have hslot : b.slot + 1 < 6 := pop.fits dev b hb _ (.inr ⟨hwide, rfl⟩)
  have hmemory : b.IsMemory := by simp [Bar.IsMemory, hwide]
  rw [Population.upper, if_pos hwide]
  by_cases hmem : (dev, b.slot + 1) ∈ pop.zeroed
  · obtain ⟨j, hget⟩ := List.mem_iff_getElem?.mp hmem
    rw [if_pos hmem, h.cfg_zeroed hget, Population.idxOf_zeroed hget]
    refine write_whole fun k hk ↦ ?_
    rw [(pop.wired dev b hb hmemory).high hwide k hk]
    exact decide_eq_true (by omega)
  · rw [if_neg hmem, h.enumerated.bar dev _ hslot]
    exact if_neg hmem

/-- The window of a memory BAR that was assigned an address is there, in the 4 GiB of its upper
half. -/
theorem Pcie.Visited.base_eq (h : s.Visited pop.bus 32) (hb : b ∈ pop.bars dev)
    (hmemory : b.IsMemory) (hget : pop.zeroed[i]? = some (dev, b.slot))
    (hdvd : b.size ∣ 0x10000000 + i * 0x100000) :
    b.base (s.bus dev) = (pop.upper dev b).toNat * 2 ^ 32 + (0x10000000 + i * 0x100000) := by
  obtain ⟨hslot, ⟨-, hclear⟩, hi⟩ := Population.zeroed_of_getElem? hget
  have hwired := pop.wired dev b hb hmemory
  have haddr := toNat_poolAddress hi
  have haligned : 2 ^ b.logSize ∣ (poolAddress i).toNat := haddr ▸ hdvd
  rw [pcieReadConfig_bar _ hslot] at hclear
  obtain ⟨hlow, hflags⟩ := write_address hwired.large hclear hwired.low haligned
  have hwritten := h.cfg_zeroed hget
  rw [PciFunction.written] at hwritten
  rw [← hwritten] at hlow hflags
  have hbar : (UInt8.ofNat b.slot).toNat = b.slot :=
    UInt8.toNat_ofNat_of_lt' (by rw [UInt8.size]; omega)
  unfold Bar.base barAddress
  dsimp only
  rw [hbar, pcieReadConfig_bar _ hslot, hlow, hflags, haddr]
  by_cases hwide : b.kind = .mem64
  · have hslot' : b.slot + 1 < 6 := pop.fits dev b hb _ (.inr ⟨hwide, rfl⟩)
    rw [if_pos (hwired.wide.mpr hwide),
      show 0x10 + b.slot * 4 + 4 = 0x10 + (b.slot + 1) * 4 by omega, pcieReadConfig_bar _ hslot',
      h.cfg_upper hb hwide (Bar.logSize_lt hi hdvd), Nat.lor_comm,
      ← Nat.shiftLeft_add_eq_or_of_lt (by omega), Nat.shiftLeft_eq]
  · rw [if_neg (mt hwired.wide.mp hwide), Population.upper, if_neg hwide, UInt32.toNat_zero,
      Nat.zero_mul, Nat.zero_add]

/-- A window ends inside the 4 GiB of its upper half. -/
theorem Bar.window_le (hi : i < 192) (hdvd : b.size ∣ 0x10000000 + i * 0x100000) :
    0x10000000 + i * 0x100000 + b.size ≤ 2 ^ 32 := by
  have hpow : b.size ∣ 2 ^ 32 := Nat.pow_dvd_pow 2 (logSize_lt hi hdvd).le
  have hle := Nat.le_of_dvd (by omega) (Nat.dvd_sub hpow hdvd)
  omega

/-- Two windows, the second assigned later, are apart exactly when the first ends before the second
or they have different upper halves. -/
theorem Pcie.Visited.apart_iff (h : s.Visited pop.bus 32) {j dev' : Nat} {b' : Bar} (hij : i < j)
    (hb : b ∈ pop.bars dev) (hb' : b' ∈ pop.bars dev') (hmemory : b.IsMemory)
    (hmemory' : b'.IsMemory) (hget : pop.zeroed[i]? = some (dev, b.slot))
    (hget' : pop.zeroed[j]? = some (dev', b'.slot)) (hdvd : b.size ∣ 0x10000000 + i * 0x100000)
    (hdvd' : b'.size ∣ 0x10000000 + j * 0x100000) :
    (∀ x, ¬ (b.Decodes (s.bus dev) x ∧ b'.Decodes (s.bus dev') x)) ↔
      (pop.upper dev b = pop.upper dev' b' → b.size ≤ (j - i) * 0x100000) := by
  have hend := Bar.window_le (Population.zeroed_of_getElem? hget).2.2 hdvd
  have hend' := Bar.window_le (Population.zeroed_of_getElem? hget').2.2 hdvd'
  have hsize' : 0 < b'.size := Nat.two_pow_pos _
  unfold Bar.Decodes
  rw [h.base_eq hb hmemory hget hdvd, h.base_eq hb' hmemory' hget' hdvd', ← UInt32.toNat_inj]
  constructor
  · intro hapart hupper
    by_contra hlarge
    exact hapart ((pop.upper dev' b').toNat * 2 ^ 32 + (0x10000000 + j * 0x100000)) (by omega)
  · intro hgap x hboth
    by_cases hupper : (pop.upper dev b).toNat = (pop.upper dev' b').toNat
    · have := hgap hupper
      omega
    · omega

/-- BARs with the same first register are the same. -/
theorem Population.bar_eq {dev' : Nat} {b' : Bar} (hb : b ∈ pop.bars dev) (hb' : b' ∈ pop.bars dev')
    (hget : pop.zeroed[i]? = some (dev, b.slot)) (hget' : pop.zeroed[i]? = some (dev', b'.slot)) :
    (dev, b) = (dev', b') := by
  have heq := Option.some.inj (hget.symm.trans hget')
  obtain rfl : dev = dev' := congrArg Prod.fst heq
  have hslot : b.slot = b'.slot := congrArg Prod.snd heq
  by_contra hne
  have hbars : b ≠ b' := fun hsame ↦ hne (by rw [hsame])
  exact pop.apart dev b hb b' hb' hbars b.slot (.inl rfl) (.inl hslot)

/-- The addresses are aligned and the windows apart exactly for a population that fits the pool. -/
theorem Pcie.Visited.fits_iff (h : s.Visited pop.bus 32) :
    pop.Aligned s ∧ pop.WindowsApart s ↔ pop.PoolFits := by
  rw [h.aligned_iff]
  constructor
  · rintro ⟨hsizes, hapart⟩
    refine ⟨hsizes, fun i j dev dev' hij b hb b' hb' hmemory hmemory' hget hget' ↦ ?_⟩
    refine (h.apart_iff hij hb hb' hmemory hmemory' hget hget' (hsizes i dev _ hget b hb (.inl rfl))
      (hsizes j dev' _ hget' b' hb' (.inl rfl))).mp ?_
    refine hapart dev dev' b hb b' hb' hmemory hmemory' (fun heq ↦ ?_)
      (h.assigns_iff.mpr ⟨i, hget⟩) (h.assigns_iff.mpr ⟨j, hget'⟩)
    cases heq
    exact hij.ne ((Population.idxOf_zeroed hget).symm.trans (Population.idxOf_zeroed hget'))
  · intro hfits
    refine ⟨hfits.sizes, fun dev dev' b hb b' hb' hmemory hmemory' hne hassigned hassigned' x ↦ ?_⟩
    obtain ⟨i, hget⟩ := h.assigns_iff.mp hassigned
    obtain ⟨j, hget'⟩ := h.assigns_iff.mp hassigned'
    have hdvd := hfits.sizes i dev _ hget b hb (.inl rfl)
    have hdvd' := hfits.sizes j dev' _ hget' b' hb' (.inl rfl)
    rcases lt_trichotomy i j with hij | rfl | hji
    · exact (h.apart_iff hij hb hb' hmemory hmemory' hget hget' hdvd hdvd').mpr
        (hfits.gaps i j dev dev' hij b hb b' hb' hmemory hmemory' hget hget') x
    · exact absurd (Population.bar_eq hb hb' hget hget') hne
    · rw [and_comm]
      exact (h.apart_iff hji hb' hb hmemory' hmemory hget' hget hdvd' hdvd).mpr
        (hfits.gaps j i dev' dev hji b' hb' b hb hmemory' hmemory hget' hget) x

end Windows

/-- For every population of bus 0: after `pcie_init` every address that was written to a BAR is
aligned to its size and the windows of memory BARs that were assigned addresses do not overlap if
and only if the sizes fit the steps of the pool. -/
theorem pci_windows_apart_iff {S : Type} (pop : Population) (init : DriverInit S) (host : S)
    (s : Pcie S) (h : pcieInit init (.boot pop.bus host) = some s) :
    pop.Aligned s ∧ pop.WindowsApart s ↔ pop.PoolFits :=
  (visited_pcieInit h).fits_iff

/-! ## Samples -/

/-- A network device alone on the bus, with two memory BARs of 64 bits that have no addresses yet.
Writes change the bits `mask` of the first, the other decodes 16 KiB. -/
def sampleBus (mask : UInt32) : Bus := fun dev ↦
  if dev = 0 then
    ⟨fun offset ↦ ([(0x00, 0x10001AF4), (0x08, 0x02000000), (0x10, 0xC), (0x20, 0xC)].lookup
        offset).getD 0,
      fun offset ↦ ([(0x10, mask), (0x14, 0xFFFFFFFF), (0x20, 0xFFFFC000),
        (0x24, 0xFFFFFFFF)].lookup offset).getD 0⟩
  else ⟨fun _ ↦ 0xFFFFFFFF, fun _ ↦ 0⟩

/-- The BARs of the network device. -/
def sampleBars (logSize dev : Nat) : List Bar :=
  if dev = 0 then [⟨0, .mem64, logSize⟩, ⟨4, .mem64, 14⟩] else []

/-- The bus with a first BAR of the given size. -/
def Population.sample (logSize : Nat) (mask : UInt32) (hlarge : 4 ≤ logSize)
    (hsmall : logSize ≤ 32) (hmask : ∀ i < 32, mask.toNat.testBit i = decide (logSize ≤ i)) :
    Population where
  bus := sampleBus mask
  bars := sampleBars logSize
  fits dev b hb slot hslot := by
    unfold sampleBars at hb
    split at hb
    · simp only [List.mem_cons, List.not_mem_nil, or_false] at hb
      rcases hb with rfl | rfl <;> simp only [Bar.Occupies] at hslot <;> omega
    · cases hb
  wired dev b hb _ := by
    unfold sampleBars at hb
    split at hb
    · rename_i hdev
      simp only [List.mem_cons, List.not_mem_nil, or_false] at hb
      have hwide : (0xC : UInt32) &&& 0x6 = 0x4 ↔ BarKind.mem64 = .mem64 := by decide
      have hwhole : ∀ i < 32, (0xFFFFFFFF : UInt32).toNat.testBit i = true := by decide
      rw [hdev]
      rcases hb with rfl | rfl
      · refine ⟨hlarge, hwide, hmask, fun _ i hi ↦ ?_⟩
        rw [decide_eq_true (show logSize ≤ 32 + i by omega)]
        exact hwhole i hi
      · refine ⟨by decide, hwide, ?_, fun _ i hi ↦ ?_⟩
        · show ∀ i < 32, (0xFFFFC000 : UInt32).toNat.testBit i = decide (14 ≤ i)
          decide
        · rw [decide_eq_true (show 14 ≤ 32 + i by omega)]
          exact hwhole i hi
    · cases hb
  apart dev b hb b' hb' hne slot hslot hslot' := by
    unfold sampleBars at hb hb'
    split at hb
    · rename_i hdev
      rw [if_pos hdev] at hb'
      simp only [List.mem_cons, List.not_mem_nil, or_false] at hb hb'
      rcases hb with rfl | rfl <;> rcases hb' with rfl | rfl <;>
        simp only [Bar.Occupies] at hslot hslot' <;> first | exact hne rfl | omega
    · cases hb

/-- The bus with a first BAR of 1 MiB. -/
def Population.small : Population := .sample 20 0xFFF00000 (by decide) (by decide) (by decide)

/-- The bus with a first BAR of 2 MiB. -/
def Population.large : Population := .sample 21 0xFFE00000 (by decide) (by decide) (by decide)

/-- The enumeration of a bus with drivers that do nothing. -/
theorem Population.exists_pcieInit (pop : Population) :
    ∃ s, pcieInit (fun _ _ _ host ↦ some host) (.boot pop.bus ()) = some s :=
  Option.isSome_iff_exists.mp (pcieInit_returns (fun _ _ _ _ ↦ rfl) _)

/-- The first registers of two BARs are zeroed. -/
theorem getElem?_pair {i dev slot : Nat}
    (h : [((0 : Nat), (0 : Nat)), (0, 4)][i]? = some (dev, slot)) :
    i = 0 ∧ dev = 0 ∧ slot = 0 ∨ i = 1 ∧ dev = 0 ∧ slot = 4 := by
  obtain _ | _ | i := i
  · cases h
    exact .inl ⟨rfl, rfl, rfl⟩
  · cases h
    exact .inr ⟨rfl, rfl, rfl⟩
  · cases h

/-- BARs of 1 MiB and 16 KiB fit. -/
theorem Population.small_fits : Population.small.PoolFits := by
  have hzeroed : Population.small.zeroed = [(0, 0), (0, 4)] := by decide +kernel
  constructor
  · intro i dev slot hget
    rw [hzeroed] at hget
    rcases getElem?_pair hget with ⟨rfl, rfl, rfl⟩ | ⟨rfl, rfl, rfl⟩ <;> decide
  · intro i j dev dev' hij b hb b' hb' _ _ hget hget' _
    rw [hzeroed] at hget hget'
    rcases getElem?_pair hget with ⟨rfl, rfl, hslot⟩ | ⟨rfl, rfl, hslot⟩
    · rcases getElem?_pair hget' with ⟨rfl, rfl, -⟩ | ⟨rfl, rfl, -⟩
      · omega
      · have hsizes : ∀ b ∈ Population.small.bars 0, b.slot = 0 → b.size ≤ (1 - 0) * 0x100000 := by
          decide
        exact hsizes b hb hslot
    · rcases getElem?_pair hget' with ⟨rfl, rfl, -⟩ | ⟨rfl, rfl, -⟩ <;> omega

/-- They are assigned windows that do not overlap. -/
theorem pci_windows_apart_iff_small : ∃ s,
    pcieInit (fun _ _ _ host ↦ some host) (.boot Population.small.bus ()) = some s ∧
      Population.small.Aligned s ∧ Population.small.WindowsApart s := by
  obtain ⟨s, hs⟩ := Population.small.exists_pcieInit
  exact ⟨s, hs, (pci_windows_apart_iff Population.small _ () s hs).mpr Population.small_fits⟩

/-- The second of two BARs is put into the window of the first, of 2 MiB. -/
theorem pci_windows_overlap : ∃ s,
    pcieInit (fun _ _ _ host ↦ some host) (.boot Population.large.bus ()) = some s ∧
      Population.large.Aligned s ∧ ¬ Population.large.WindowsApart s := by
  obtain ⟨s, hs⟩ := Population.large.exists_pcieInit
  have hzeroed : Population.large.zeroed = [(0, 0), (0, 4)] := by decide +kernel
  have hvisited := visited_pcieInit hs
  have haligned : Population.large.Aligned s := by
    refine hvisited.aligned_iff.mpr fun i dev slot hget ↦ ?_
    rw [hzeroed] at hget
    rcases getElem?_pair hget with ⟨rfl, rfl, rfl⟩ | ⟨rfl, rfl, rfl⟩ <;> decide
  refine ⟨s, hs, haligned, fun hapart ↦ ?_⟩
  have hfits := hvisited.fits_iff.mp ⟨haligned, hapart⟩
  have hgap := hfits.gaps 0 1 0 0 (by decide) ⟨0, .mem64, 21⟩ (by decide) ⟨4, .mem64, 14⟩
    (by decide) (by decide) (by decide) (by rw [hzeroed]; rfl) (by rw [hzeroed]; rfl)
    (by decide +kernel)
  exact absurd hgap (by decide)

end Aether.Drivers
