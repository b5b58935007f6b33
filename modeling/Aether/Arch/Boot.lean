import Aether.Lib.AArch64

/-!
# The way to `kernel_main`

`boot.S`: the first core drops to EL1 if it starts above it, lets the kernel use the vector
registers, takes the stack of the linker script and clears the BSS. `boot_reaches_kernel` says what
`kernel_main` finds, and `other_cores_hang` that no other core ever gets there.
-/

namespace Aether.Arch

open ByteMemory AArch64

/-! ## The code -/

/-- From `_start`: only the first core goes on. -/
def findCore (master : UInt64) : List Instr := [
  .mrs 0 .mpidrEl1,
  .andImm 0 0 0xFF,
  .cbz 0 master]

/-- `hang`. -/
def hangLoop (hang : UInt64) : List Instr := [
  .wfe,
  .b hang]

/-- From `master`: the current level. -/
def checkLevel (setupFpu : UInt64) : List Instr := [
  .mrs 0 .currentEl,
  .andImm 0 0 0b1100,
  .lsrImm 0 0 2,
  .cmpImm 0 2,
  .bNe setupFpu]

/-- The transition from EL2 to EL1. -/
def dropLevel (setupFpu : UInt64) : List Instr := [
  .mrs 0 .cnthctlEl2,
  .orrImm 0 0 3,
  .msr .cnthctlEl2 0,
  .msrZero .cntvoffEl2,
  .mov 0 ((1 : UInt64) <<< 31),
  .orrImm 0 0 ((1 : UInt64) <<< 1),
  .msr .hcrEl2 0,
  .mov 0 0x3c5,
  .msr .spsrEl2 0,
  .mov 0 setupFpu,
  .msr .elrEl2 0,
  .eret]

/-- From `setup_fpu` to the loop that clears the BSS. -/
def setupStack (stackTop bssStart bssSize : UInt64) : List Instr := [
  .mov 0 ((3 : UInt64) <<< 20),
  .msr .cpacrEl1 0,
  .isb,
  .mov 0 stackTop,
  .bicImm 0 0 0xF,
  .movToSp 0,
  .mov 0 bssStart,
  .mov 1 bssSize]

/-- `setup_bss`. -/
def clearBss (setupBss jumpToMain : UInt64) : List Instr := [
  .cbz 1 jumpToMain,
  .strZeroPost 0 8,
  .subsImm 1 1 1,
  .bNe setupBss]

/-- `jump_to_main`. -/
def callMain (kernelMain hang : UInt64) : List Instr := [
  .bl kernelMain,
  .b hang]

/-- `boot.S` in memory, with the symbols of the linker script. -/
structure Boot (code : Code) where
  start : UInt64
  bssStart : UInt64
  bssEnd : UInt64
  kernelMain : UInt64
  aligned : bssStart.toNat % 16 = 0 ∧ bssEnd.toNat % 16 = 0
  ordered : bssStart ≤ bssEnd
  fits : bssEnd.toNat + 0x4000 < 2 ^ 64
  findCore : Loaded code start (findCore (start + 20))
  hang : Loaded code (start + 12) (hangLoop (start + 12))
  checkLevel : Loaded code (start + 20) (checkLevel (start + 88))
  dropLevel : Loaded code (start + 40) (dropLevel (start + 88))
  setupStack : Loaded code (start + 88)
    (setupStack (bssEnd + 0x4000) bssStart ((bssEnd - bssStart) >>> 3))
  clearBss : Loaded code (start + 120) (clearBss (start + 120) (start + 136))
  callMain : Loaded code (start + 136) (callMain kernelMain (start + 12))

/-- The file at an address, for a BSS of 32 bytes. -/
def bootImage : Code := .ofBlocks [(0x40080000,
  Arch.findCore 0x40080014 ++ hangLoop 0x4008000c ++ Arch.checkLevel 0x40080058 ++
  Arch.dropLevel 0x40080058 ++ Arch.setupStack 0x400a4020 0x400a0000 4 ++
  Arch.clearBss 0x40080078 0x40080088 ++ Arch.callMain 0x40081000 0x4008000c)]

/-- The parts of the file there. -/
def bootImage.boot : Boot bootImage where
  start := 0x40080000
  bssStart := 0x400a0000
  bssEnd := 0x400a0020
  kernelMain := 0x40081000
  aligned := by decide
  ordered := by decide
  fits := by decide
  findCore := by decide +kernel
  hang := by decide +kernel
  checkLevel := by decide +kernel
  dropLevel := by decide +kernel
  setupStack := by decide +kernel
  clearBss := by decide +kernel
  callMain := by decide +kernel

/-- A core at EL2 that starts at the file. -/
def resetCpu (core : UInt64) : Cpu where
  x := fun _ ↦ 7
  sp := 0
  pc := 0x40080000
  pstate := ⟨false, false, false, false, true, true, true, true, 2, true⟩
  sys := fun _ ↦ core
  mem := fun _ ↦ 0xAA

section Boot

variable {code : Code} {s : Cpu}

/-! ## The loop -/

/-- All is the same but for the flags, the general registers, and the memory from `lo` to `hi`,
which is zero. -/
structure Cleared (lo hi : Nat) (s s' : Cpu) : Prop where
  sp : s'.sp = s.sp
  sys : s'.sys = s.sys
  pstate : ∃ n z c v, s'.pstate = { s.pstate with n := n, z := z, c := c, v := v }
  mem : ∀ a, s'.mem a = if lo ≤ a ∧ a < hi then 0 else s.mem a

/-- A word of zeros. -/
theorem store_zero (n : Nat) (m : Memory) (a b : Nat) :
    store n m a 0 b = if a ≤ b ∧ b < a + n then 0 else m b := by
  have hbytes : leBytes n 0 = List.replicate n 0 := by
    induction n with
    | zero => rfl
    | succ n ih => rw [leBytes, Nat.zero_div, ih]; rfl
  rw [store, hbytes, writeBytes, List.length_replicate]
  split
  · rw [List.getD_replicate]
    omega
  · rfl

/-- One word, and the rest of them. -/
theorem Cleared.trans {lo mid hi : Nat} {s₁ s₂ s₃ : Cpu} (h : Cleared lo mid s₁ s₂)
    (h' : Cleared mid hi s₂ s₃) (hlo : lo ≤ mid) (hhi : mid ≤ hi) : Cleared lo hi s₁ s₃ := by
  obtain ⟨n, z, c, v, hp⟩ := h.pstate
  obtain ⟨n', z', c', v', hp'⟩ := h'.pstate
  refine ⟨h'.sp.trans h.sp, h'.sys.trans h.sys, ⟨n', z', c', v', ?_⟩, fun a ↦ ?_⟩
  · rw [hp', hp]
  · rw [h'.mem, h.mem]
    by_cases hmid : mid ≤ a ∧ a < hi
    · rw [if_pos hmid, if_pos ⟨hlo.trans hmid.1, hmid.2⟩]
    · rw [if_neg hmid]
      by_cases hlow : lo ≤ a ∧ a < mid
      · rw [if_pos hlow, if_pos ⟨hlow.1, hlow.2.trans_le hhi⟩]
      · rw [if_neg hlow, if_neg (by omega)]

/-- `setup_bss` clears as many words as its counter says. -/
theorem clearBss_steps {setupBss jumpToMain : UInt64} {n : Nat}
    (hcode : Loaded code setupBss (clearBss setupBss jumpToMain))
    (hjump : setupBss + 16 = jumpToMain) (hpc : s.pc = setupBss) (hcount : (s.x 1).toNat = n)
    (hroom : (s.x 0).toNat + 8 * n < 2 ^ 64) : ∃ s', Steps code s s' ∧ s'.pc = jumpToMain ∧
    Cleared (s.x 0).toNat ((s.x 0).toNat + 8 * n) s s' := by
  obtain ⟨htest, hstore, hcountdown, hagain, -⟩ := hcode
  induction n generalizing s with
  | zero =>
      have hzero : s.x 1 = 0 := UInt64.toNat_inj.mp hcount
      refine ⟨{ s with pc := jumpToMain }, Steps.single (hpc ▸ htest) (by rw [exec, if_pos hzero]),
        rfl, rfl, rfl, ⟨_, _, _, _, rfl⟩, fun a ↦ ?_⟩
      rw [if_neg (by omega)]
  | succ n ih =>
      have hnonzero : s.x 1 ≠ 0 := fun h ↦ by simp [h] at hcount
      let s₁ : Cpu := s.next
      let s₂ : Cpu := { (s₁.setX 0 (s.x 0 + 8)).next with mem := store 8 s.mem (s.x 0).toNat 0 }
      let s₃ : Cpu := ((s₂.setFlags (s.x 1) 1).setX 1 (s.x 1 - 1)).next
      have hskip : exec s (.cbz 1 jumpToMain) = some s₁ := by
        rw [exec, if_neg hnonzero]
      have hcounter : exec s₂ (.subsImm 1 1 1) = some s₃ := by
        have hx : s₂.x 1 = s.x 1 := s₁.setX_of_ne 1 0 (s.x 0 + 8) (by decide)
        rw [exec, hx]
      have hx₀ : s₃.x 0 = s.x 0 + 8 :=
        ((s₂.setFlags (s.x 1) 1).setX_of_ne 0 1 (s.x 1 - 1) (by decide)).trans
          (s₁.setX_self 0 (s.x 0 + 8))
      have hx₁ : s₃.x 1 = s.x 1 - 1 := (s₂.setFlags (s.x 1) 1).setX_self 1 (s.x 1 - 1)
      have hword : Steps code s s₃ := by
        rw [← hpc] at htest hstore hcountdown
        exact .cons (t := s₁) htest hskip (.cons (t := s₂) hstore rfl
          (Steps.single hcountdown hcounter))
      have hflag : s₃.pstate.z = decide (s.x 1 - 1 = 0) := rfl
      have hcleared : ∀ pc, Cleared (s.x 0).toNat ((s.x 0).toNat + 8) s { s₃ with pc := pc } :=
        fun pc ↦ ⟨rfl, rfl, ⟨_, _, _, _, rfl⟩, store_zero 8 s.mem (s.x 0).toNat⟩
      have hpc₃ : s₃.pc = setupBss + 4 + 4 + 4 := by
        rw [← hpc]
        rfl
      have hnext : (s₃.x 1).toNat = n := by
        rw [hx₁, UInt64.toNat_sub_of_le _ _ (UInt64.le_iff_toNat_le.mpr (by rw [hcount]; simp)),
          hcount]
        simp
      have haddr : (s₃.x 0).toNat = (s.x 0).toNat + 8 := by
        rw [hx₀, UInt64.toNat_add]
        exact Nat.mod_eq_of_lt (by simp only [UInt64.reduceToNat]; omega)
      by_cases hdone : s.x 1 - 1 = 0
      · -- the counter is zero, and the branch falls through
        have hlast : n = 0 := by
          rw [← hnext, hx₁, hdone]
          rfl
        subst hlast
        refine ⟨{ s₃ with pc := jumpToMain }, hword.trans (Steps.single (hpc₃ ▸ hagain) ?_), rfl,
          hcleared jumpToMain⟩
        rw [exec, hflag, if_pos (decide_eq_true hdone), Cpu.next, hpc₃, ← hjump]
        congr 2
        grind
      · have hloop : Steps code s₃ { s₃ with pc := setupBss } := by
          refine Steps.single (hpc₃ ▸ hagain) ?_
          rw [exec, hflag, if_neg (by simpa using hdone)]
        obtain ⟨s', hsteps, hend, hrest⟩ := ih (s := { s₃ with pc := setupBss }) rfl hnext
          (by dsimp only; omega)
        refine ⟨s', hword.trans (hloop.trans hsteps), hend, ?_⟩
        dsimp only at hrest
        rw [haddr] at hrest
        have hall := (hcleared setupBss).trans hrest (by omega) (by omega)
        rwa [show (s.x 0).toNat + 8 + 8 * n = (s.x 0).toNat + 8 * (n + 1) by omega] at hall

/-! ## The straight pieces -/

/-- The part before the loop: the vector registers, the stack, and the bounds of the loop. -/
theorem setupStack_exec (hown : s.OwnStack) (stackTop bssStart bssSize : UInt64) : ∃ pc,
    execAll (setupStack stackTop bssStart bssSize) s = some
      { s with pc := pc, x := Function.update (Function.update s.x 0 bssStart) 1 bssSize,
               sp := stackTop &&& ~~~0xF,
               sys := Function.update s.sys .cpacrEl1 ((3 : UInt64) <<< 20) } := by
  have hlevel : SysReg.cpacrEl1.level ≤ s.pstate.el := hown.1.ge
  have hown' : ∀ x pc sys, Cpu.OwnStack { s with x := x, pc := pc, sys := sys } := fun _ _ _ ↦ hown
  refine ⟨s.pc + 4 + 4 + 4 + 4 + 4 + 4 + 4 + 4, ?_⟩
  simp only [setupStack, execAll, exec, Cpu.setX, Cpu.setSys, Cpu.next, hlevel, hown', if_true,
    Option.bind_some, Function.update_self, Function.update_idem]

/-- The code behind `master` goes on with the transition at EL2, and else with the rest. -/
theorem checkLevel_steps {master setupFpu : UInt64}
    (hcode : Loaded code master (checkLevel setupFpu)) (hpc : s.pc = master)
    (hlevel : 1 ≤ s.pstate.el) : ∃ x n z c v, Steps code s
      { s with pc := if s.pstate.el = 2 then master + 20 else setupFpu, x := x,
               pstate := { s.pstate with n := n, z := z, c := c, v := v } } := by
  have hvalue : ∀ e : Fin 4, (UInt64.ofNat (e.val * 4) &&& 0b1100) >>> 2 = UInt64.ofNat e.val := by
    decide
  have htwo : ∀ e : Fin 4, UInt64.ofNat e.val - 2 = 0 ↔ e = 2 := by
    decide
  let s₁ : Cpu := (s.setX 0 (s.readSys .currentEl)).next
  let s₂ : Cpu := (s₁.setX 0 (s₁.x 0 &&& 0b1100)).next
  let s₃ : Cpu := (s₂.setX 0 (s₂.x 0 >>> 2)).next
  let s₄ : Cpu := (s₃.setFlags (s₃.x 0) 2).next
  obtain ⟨h₁, h₂, h₃, h₄, h₅, -⟩ := hcode
  rw [← hpc] at h₁ h₂ h₃ h₄ h₅
  have hx : s₃.x 0 = UInt64.ofNat s.pstate.el.val := by
    rw [← hvalue]
    simp [s₃, s₂, s₁, Cpu.next, Cpu.readSys]
  have hflag : s₄.pstate.z = decide (s.pstate.el = 2) := by
    show decide (s₃.x 0 - 2 = 0) = _
    rw [hx]
    exact decide_eq_decide.mpr (htwo _)
  have hpc₄ : s₄.pc + 4 = master + 20 := by
    show s.pc + 4 + 4 + 4 + 4 + 4 = _
    rw [hpc]
    grind
  have hbranch : exec s₄ (.bNe setupFpu) =
      some { s₄ with pc := if s.pstate.el = 2 then master + 20 else setupFpu } := by
    rw [exec, hflag]
    by_cases hel : s.pstate.el = 2
    · rw [if_pos (decide_eq_true hel), if_pos hel, Cpu.next, hpc₄]
    · rw [if_neg (by simpa using hel), if_neg hel]
  exact ⟨s₄.x, s₄.pstate.n, s₄.pstate.z, s₄.pstate.c, s₄.pstate.v,
    .cons (t := s₁) h₁ (if_pos hlevel) (.cons (t := s₂) h₂ rfl (.cons (t := s₃) h₃ rfl
      (.cons (t := s₄) h₄ rfl (Steps.single h₅ hbranch))))⟩

/-- The transition leaves EL2 for EL1 on its own stack with all interrupts masked, and lets EL1 use
the physical timer. -/
theorem dropLevel_steps {setupFpu : UInt64} (hcode : Loaded code s.pc (dropLevel setupFpu))
    (hel : s.pstate.el = 2) : ∃ s', Steps code s s' ∧ s'.pc = setupFpu ∧ s'.mem = s.mem ∧
    s'.pstate = ⟨false, false, false, false, true, true, true, true, 1, true⟩ ∧
    s'.sys .cnthctlEl2 = s.sys .cnthctlEl2 ||| 3 ∧ s'.sys .cntvoffEl2 = 0 ∧
    ∀ reg : SysReg, reg.level = 1 → s'.sys reg = s.sys reg := by
  have hsplit : dropLevel setupFpu = (dropLevel setupFpu).take 11 ++ [.eret] := rfl
  rw [hsplit] at hcode
  let sys : SysReg → UInt64 := Function.update (Function.update (Function.update (Function.update
    (Function.update s.sys .cnthctlEl2 (s.sys .cnthctlEl2 ||| 3)) .cntvoffEl2 0) .hcrEl2
      ((1 : UInt64) <<< 31 ||| (1 : UInt64) <<< 1)) .spsrEl2 0x3c5) .elrEl2 setupFpu
  have hlevel : ∀ reg : SysReg, reg.level ≤ s.pstate.el := by
    rw [hel]
    intro reg
    cases reg <;> decide
  have hexec : ∃ pc, execAll ((dropLevel setupFpu).take 11) s =
      some { s with pc := pc, x := Function.update s.x 0 setupFpu, sys := sys } := by
    refine ⟨s.pc + 4 + 4 + 4 + 4 + 4 + 4 + 4 + 4 + 4 + 4 + 4, ?_⟩
    simp only [dropLevel, List.take, execAll, exec, Cpu.setX, Cpu.setSys, Cpu.next, Cpu.readSys,
      hlevel, if_true, Option.bind_some, Function.update_self, Function.update_idem]
    rfl
  obtain ⟨pc, hexec⟩ := hexec
  obtain ⟨hsteps, hpc⟩ := steps_straight hcode.append_left (List.all_eq_true.mp rfl) hexec
  refine ⟨{ s with pc := setupFpu, x := Function.update s.x 0 setupFpu, sys := sys, pstate :=
    ⟨false, false, false, false, true, true, true, true, 1, true⟩ },
    hsteps.trans (Steps.single (hpc ▸ hcode.append_right).1 ?_), rfl, rfl, rfl, ?_, ?_, ?_⟩
  · have hspsr : sys .spsrEl2 = 0x3c5 := by
      simp [sys]
    have hhcr : sys .hcrEl2 &&& ((1 : UInt64) <<< 31) ≠ 0 := by
      simp only [sys, ne_eq, reduceCtorEq, not_false_eq_true, Function.update_of_ne,
        Function.update_self]
      decide
    have helr : sys .elrEl2 = setupFpu := by
      simp [sys]
    have hsaved : Pstate.ofSpsr 0x3c5 =
        ⟨false, false, false, false, true, true, true, true, 1, true⟩ := by
      decide
    rw [exec, Cpu.eret, if_pos hel]
    dsimp only
    rw [hspsr, hsaved, helr, if_pos ⟨by decide, fun _ ↦ hhcr⟩]
  · simp [sys]
  · simp [sys]
  · intro reg hreg
    cases reg with
    | cnthctlEl2 | cntvoffEl2 | hcrEl2 | spsrEl2 | elrEl2 => cases hreg
    | _ => rfl

/-! ## Both kinds of core -/

/-- What `kernel_main` finds: EL1 and its own stack, which starts where the linker script says; the
vector registers usable; the BSS zero and the rest of memory as it was; and a return address behind
which the core hangs. From EL2, all interrupts are masked and the physical timer is in reach. -/
structure KernelEntered (b : Boot code) (s s' : Cpu) : Prop where
  pc : s'.pc = b.kernelMain
  own : s'.OwnStack
  sp : s'.sp.toNat = b.bssEnd.toNat + 0x4000
  fpu : s'.sys .cpacrEl1 = (3 : UInt64) <<< 20
  mem : ∀ a, s'.mem a =
    if b.bssStart.toNat ≤ a ∧ a < b.bssEnd.toNat then 0 else s.mem a
  back : code (s'.x 30) = some (.b (b.start + 12))
  masked : s.pstate.el = 2 → s'.pstate.d ∧ s'.pstate.a ∧ s'.pstate.i ∧ s'.pstate.f
  timer : s.pstate.el = 2 →
    s'.sys .cnthctlEl2 = s.sys .cnthctlEl2 ||| 3 ∧ s'.sys .cntvoffEl2 = 0

/-- The alignment of the stack changes nothing. -/
theorem and_not_fifteen {w : UInt64} (h : w.toNat % 16 = 0) : w &&& ~~~0xF = w := by
  have hmask : ∀ i < 64, (~~~(0xF : UInt64)).toBitVec.getLsbD i = decide (4 ≤ i) := by decide
  refine UInt64.toBitVec_inj.mp (BitVec.eq_of_getLsbD_eq fun i hi ↦ ?_)
  rw [UInt64.toBitVec_and, BitVec.getLsbD_and, hmask i hi]
  by_cases hlow : 4 ≤ i
  · rw [decide_eq_true hlow, Bool.and_true]
  · obtain ⟨q, hq⟩ := Nat.dvd_of_mod_eq_zero h
    have hbit : w.toBitVec.getLsbD i = false := by
      rw [BitVec.getLsbD, UInt64.toNat_toBitVec, hq, show (16 : Nat) = 2 ^ 4 from rfl,
        Nat.testBit_two_pow_mul, decide_eq_false hlow, Bool.false_and]
    rw [hbit, Bool.false_and]

/-- The symbol `stack_top`. -/
theorem Boot.toNat_stackTop (b : Boot code) :
    ((b.bssEnd + 0x4000) &&& ~~~0xF).toNat = b.bssEnd.toNat + 0x4000 := by
  have hfits := b.fits
  have haligned := b.aligned
  have htop : (b.bssEnd + 0x4000).toNat = b.bssEnd.toNat + 0x4000 := by
    rw [UInt64.toNat_add]
    exact Nat.mod_eq_of_lt (by simpa using hfits)
  rw [and_not_fifteen (by omega), htop]

/-- The symbol `__bss_size`, in words. -/
theorem Boot.toNat_bssSize (b : Boot code) :
    8 * ((b.bssEnd - b.bssStart) >>> 3).toNat = b.bssEnd.toNat - b.bssStart.toNat := by
  have haligned := b.aligned
  rw [UInt64.toNat_shiftRight, UInt64.toNat_sub_of_le _ _ b.ordered]
  show 8 * ((b.bssEnd.toNat - b.bssStart.toNat) >>> 3) = _
  rw [Nat.shiftRight_eq_div_pow]
  omega

/-- From `setup_fpu` on. -/
theorem setupFpu_steps (b : Boot code) (hpc : s.pc = b.start + 88) (hown : s.OwnStack) :
    ∃ s', Steps code s s' ∧ s'.pc = b.kernelMain ∧ s'.x 30 = b.start + 140 ∧
    s'.sp.toNat = b.bssEnd.toNat + 0x4000 ∧
    s'.sys = Function.update s.sys .cpacrEl1 ((3 : UInt64) <<< 20) ∧
    (∃ n z c v, s'.pstate = { s.pstate with n := n, z := z, c := c, v := v }) ∧
    ∀ a, s'.mem a = if b.bssStart.toNat ≤ a ∧ a < b.bssEnd.toNat then 0 else s.mem a := by
  have hsize := b.toNat_bssSize
  have hfits := b.fits
  have hordered : b.bssStart.toNat ≤ b.bssEnd.toNat := b.ordered
  obtain ⟨pc, hexec⟩ := setupStack_exec hown (b.bssEnd + 0x4000) b.bssStart
    ((b.bssEnd - b.bssStart) >>> 3)
  let s₁ : Cpu :=
    { s with pc := pc, x := Function.update (Function.update s.x 0 b.bssStart) 1
               ((b.bssEnd - b.bssStart) >>> 3),
             sp := (b.bssEnd + 0x4000) &&& ~~~0xF,
             sys := Function.update s.sys .cpacrEl1 ((3 : UInt64) <<< 20) }
  have hcode : Loaded code s.pc (setupStack (b.bssEnd + 0x4000) b.bssStart
      ((b.bssEnd - b.bssStart) >>> 3)) := by
    rw [hpc]
    exact b.setupStack
  have hstraight : ∀ i ∈ setupStack (b.bssEnd + 0x4000) b.bssStart
      ((b.bssEnd - b.bssStart) >>> 3), i.isStraight = true :=
    List.all_eq_true.mp rfl
  obtain ⟨hstack, hend⟩ := steps_straight hcode hstraight (show execAll _ s = some s₁ from hexec)
  have hpc₁ : s₁.pc = b.start + 120 := by
    rw [hend, hpc, setupStack]
    show b.start + 88 + 32 = b.start + 120
    grind
  have hx₀ : s₁.x 0 = b.bssStart := by
    simp [s₁]
  have hx₁ : s₁.x 1 = (b.bssEnd - b.bssStart) >>> 3 := by
    simp [s₁]
  obtain ⟨s₂, hloop, hpc₂, hcleared⟩ := clearBss_steps b.clearBss (by grind) hpc₁ rfl
    (by rw [hx₀, hx₁]; omega)
  rw [hx₀, hx₁, hsize, Nat.add_sub_cancel' hordered] at hcleared
  let s₃ : Cpu := { s₂.setX 30 (s₂.pc + 4) with pc := b.kernelMain }
  have hcall : Steps code s₂ s₃ := Steps.single (hpc₂ ▸ b.callMain.1) rfl
  have hback : s₃.x 30 = b.start + 140 := by
    show (s₂.setX 30 (s₂.pc + 4)).x 30 = _
    rw [Cpu.setX_self, hpc₂]
    grind
  refine ⟨s₃, hstack.trans (hloop.trans hcall), rfl, hback, ?_, hcleared.sys, hcleared.pstate,
    hcleared.mem⟩
  show s₂.sp.toNat = _
  rw [hcleared.sp]
  exact b.toNat_stackTop

/-- The first core goes on at `master`, and any other one at `hang`. -/
theorem findCore_steps (b : Boot code) (hpc : s.pc = b.start) (hlevel : 1 ≤ s.pstate.el) :
    ∃ x, Steps code s
      { s with
        x := x
        pc := if s.sys .mpidrEl1 &&& 0xFF = 0 then b.start + 20 else b.start + 12 } := by
  obtain ⟨h₁, h₂, h₃, -⟩ := b.findCore
  rw [← hpc] at h₁ h₂ h₃
  let s₁ : Cpu := (s.setX 0 (s.readSys .mpidrEl1)).next
  let s₂ : Cpu := (s₁.setX 0 (s₁.x 0 &&& 0xFF)).next
  have hx : s₂.x 0 = s.sys .mpidrEl1 &&& 0xFF := by
    simp [s₂, s₁, Cpu.next, Cpu.readSys]
  have hpc₂ : s₂.pc + 4 = b.start + 12 := by
    show s.pc + 4 + 4 + 4 = _
    rw [hpc]
    grind
  have hbranch : exec s₂ (.cbz 0 (s.pc + 20)) = some
      { s₂ with
        pc := if s.sys .mpidrEl1 &&& 0xFF = 0 then b.start + 20 else b.start + 12 } := by
    rw [exec, hx, hpc]
    split
    · rfl
    · rw [Cpu.next, hpc₂]
  exact ⟨s₂.x, .cons (t := s₁) h₁ (if_pos hlevel) (.cons (t := s₂) h₂ rfl
    (Steps.single h₃ hbranch))⟩

/-- The first core, started at EL2 or at EL1, gets to `kernel_main`. -/
theorem boot_reaches_kernel (b : Boot code) (hpc : s.pc = b.start)
    (hcore : s.sys .mpidrEl1 &&& 0xFF = 0) (hlevel : s.pstate.el = 2 ∨ s.OwnStack) :
    ∃ s', Steps code s s' ∧ KernelEntered b s s' := by
  have hone : 1 ≤ s.pstate.el := by
    rcases hlevel with h | h
    · rw [h]
      decide
    · exact h.1.ge
  have hhang : b.start + 140 = b.start + 136 + 4 := by
    grind
  obtain ⟨x₁, hfind⟩ := findCore_steps b hpc hone
  rw [if_pos hcore] at hfind
  obtain ⟨x₂, n, z, c, v, hcheck⟩ := checkLevel_steps
    (s := { s with x := x₁, pc := b.start + 20 }) b.checkLevel rfl hone
  rcases hlevel with hel | hown
  · dsimp only at hcheck
    rw [if_pos hel] at hcheck
    let s₂ : Cpu := { s with
      x := x₂, pc := b.start + 20 + 20, pstate := { s.pstate with n := n, z := z, c := c, v := v } }
    have hcode : Loaded code s₂.pc (dropLevel (b.start + 88)) := by
      have htwenty : s₂.pc = b.start + 40 := by
        show b.start + 20 + 20 = b.start + 40
        grind
      rw [htwenty]
      exact b.dropLevel
    obtain ⟨s₃, hdrop, hpc₃, hmem₃, hpstate₃, hcnthctl, hcntvoff, -⟩ := dropLevel_steps hcode hel
    have hown₃ : s₃.OwnStack := by
      rw [Cpu.OwnStack, hpstate₃]
      decide
    obtain ⟨s', hsetup, hmain, hlr, hsp, hsys, ⟨n', z', c', v', hp⟩, hmem⟩ :=
      setupFpu_steps b hpc₃ hown₃
    refine ⟨s', hfind.trans (hcheck.trans (hdrop.trans hsetup)), hmain, ?_, hsp, ?_, ?_, ?_, ?_, ?_⟩
    · rw [Cpu.OwnStack, hp, hpstate₃]
      exact ⟨rfl, rfl⟩
    · rw [hsys, Function.update_self]
    · exact hmem₃ ▸ hmem
    · rw [hlr, hhang]
      exact b.callMain.2.1
    · intro _
      rw [hp, hpstate₃]
      exact ⟨rfl, rfl, rfl, rfl⟩
    · intro _
      rw [hsys, Function.update_of_ne (by decide), Function.update_of_ne (by decide)]
      exact ⟨hcnthctl, hcntvoff⟩
  · have hel : s.pstate.el ≠ 2 := by
      rw [hown.1]
      decide
    dsimp only at hcheck
    rw [if_neg hel] at hcheck
    obtain ⟨s', hsetup, hmain, hlr, hsp, hsys, ⟨n', z', c', v', hp⟩, hmem⟩ := setupFpu_steps
      (s := { s with x := x₂, pc := b.start + 88, pstate := { s.pstate with
        n := n, z := z, c := c, v := v } }) b rfl hown
    refine ⟨s', hfind.trans (hcheck.trans hsetup), hmain, ?_, hsp, ?_, hmem, ?_,
      fun h ↦ absurd h hel, fun h ↦ absurd h hel⟩
    · rw [Cpu.OwnStack, hp]
      exact hown
    · rw [hsys, Function.update_self]
    · rw [hlr, hhang]
      exact b.callMain.2.1

theorem boot_reaches_kernel_first : ∃ s', Steps bootImage (resetCpu 0) s' ∧ s'.pc = 0x40081000 ∧
    s'.mem 0x400a001f = 0 ∧ s'.mem 0x400a0020 = 0xAA :=
  let ⟨s', hsteps, hentered⟩ := boot_reaches_kernel (s := resetCpu 0) bootImage.boot rfl (by decide)
    (.inl rfl)
  ⟨s', hsteps, hentered.pc, (hentered.mem _).trans (by decide +kernel),
    (hentered.mem _).trans (by decide +kernel)⟩

/-- A core on its way to `hang`, or there: nothing changed but its program counter and its general
registers. -/
structure Parked (b : Boot code) (s t : Cpu) : Prop where
  mem : t.mem = s.mem
  sys : t.sys = s.sys
  sp : t.sp = s.sp
  pstate : t.pstate = s.pstate
  place : t.pc = b.start ∨ (t.pc = b.start + 4 ∧ t.x 0 = s.sys .mpidrEl1) ∨
    (t.pc = b.start + 4 + 4 ∧ t.x 0 = s.sys .mpidrEl1 &&& 0xFF) ∨ t.pc = b.start + 12 ∨
    t.pc = b.start + 12 + 4

/-- The instruction there leads on to `hang`, or around in it. -/
theorem Parked.step {t t' : Cpu} {b : Boot code} (h : Parked b s t)
    (hcore : s.sys .mpidrEl1 &&& 0xFF ≠ 0) (hlevel : 1 ≤ s.pstate.el)
    (hstep : AArch64.step code t = some t') : Parked b s t' := by
  obtain ⟨hmem, hsys, hsp, hpstate, hplace⟩ := h
  have hreach : SysReg.mpidrEl1.level ≤ t.pstate.el := hpstate ▸ hlevel
  obtain ⟨hmrs, hand, hcbz, -⟩ := b.findCore
  obtain ⟨hwait, hagain, -⟩ := b.hang
  rw [AArch64.step] at hstep
  rcases hplace with hpc | ⟨hpc, hx⟩ | ⟨hpc, hx⟩ | hpc | hpc
  · rw [hpc, hmrs, Option.bind_some, exec, if_pos hreach] at hstep
    cases hstep
    refine ⟨hmem, hsys, hsp, hpstate, .inr (.inl ⟨congrArg (· + 4) hpc, ?_⟩)⟩
    exact (t.setX_self 0 (t.sys .mpidrEl1)).trans (congrFun hsys _)
  · rw [hpc, hand] at hstep
    cases hstep
    refine ⟨hmem, hsys, hsp, hpstate, .inr (.inr (.inl ⟨congrArg (· + 4) hpc, ?_⟩))⟩
    exact (t.setX_self 0 (t.x 0 &&& 0xFF)).trans (congrArg (· &&& 0xFF) hx)
  · -- the core is not the first one, so the branch falls through
    rw [hpc, hcbz, Option.bind_some, exec, hx, if_neg hcore] at hstep
    cases hstep
    refine ⟨hmem, hsys, hsp, hpstate, .inr (.inr (.inr (.inl ?_)))⟩
    show t.pc + 4 = _
    rw [hpc]
    grind
  · rw [hpc, hwait] at hstep
    cases hstep
    exact ⟨hmem, hsys, hsp, hpstate, .inr (.inr (.inr (.inr (congrArg (· + 4) hpc))))⟩
  · rw [hpc, hagain] at hstep
    cases hstep
    exact ⟨hmem, hsys, hsp, hpstate, .inr (.inr (.inr (.inl rfl)))⟩

/-- Every other core gets to `hang` and stays there, and no state that it is ever in has another
memory, system register or stack pointer. -/
theorem other_cores_hang (b : Boot code) (hpc : s.pc = b.start)
    (hcore : s.sys .mpidrEl1 &&& 0xFF ≠ 0) (hlevel : 1 ≤ s.pstate.el) :
    (∃ hung : Cpu, Steps code s hung ∧ hung.pc = b.start + 12 ∧ ∀ s', Steps code hung s' →
      (s' = hung ∨ s' = { hung with pc := hung.pc + 4 }) ∧ (step code s').isSome) ∧
    ∀ t, Steps code s t → t.mem = s.mem ∧ t.sys = s.sys ∧ t.sp = s.sp := by
  constructor
  · obtain ⟨x, hsteps⟩ := findCore_steps b hpc hlevel
    rw [if_neg hcore] at hsteps
    exact ⟨_, hsteps, rfl, fun s' hs' ↦ steps_wait b.hang.1 b.hang.2.1 hs'⟩
  · intro t ht
    have hparked : Parked b s t := by
      induction ht with
      | refl => exact ⟨rfl, rfl, rfl, rfl, .inl hpc⟩
      | tail _ hstep ih => exact ih.step hcore hlevel hstep
    exact ⟨hparked.mem, hparked.sys, hparked.sp⟩

theorem other_cores_hang_second : ∃ hung : Cpu,
    Steps bootImage (resetCpu 1) hung ∧ hung.pc = 0x4008000c ∧ hung.sp = (resetCpu 1).sp :=
  let ⟨⟨hung, hsteps, hpc, _⟩, hsame⟩ := other_cores_hang (s := resetCpu 1) bootImage.boot rfl
    (by decide) (by decide)
  ⟨hung, hsteps, hpc, (hsame hung hsteps).2.2⟩

end Boot

end Aether.Arch
