import Aether.Lib.ByteMemory
import Mathlib.Data.UInt
import Mathlib.Logic.Relation

/-!
# A little AArch64

The instructions that start-up code and exception vectors are made of: moves and immediate
arithmetic, loads and stores through a register or the stack pointer, branches, system registers,
and the return from an exception. `Steps` is execution from the code in memory, `Loaded` says that
code is there, and `steps_straight` runs a straight piece of it.
-/

namespace AArch64

open ByteMemory

/-! ## The machine -/

/-- For the numbers of the general registers. -/
scoped instance neZero_registers : NeZero 31 := ⟨by decide⟩

/-- For the exception levels. -/
scoped instance neZero_levels : NeZero 4 := ⟨by decide⟩

/-- The system registers. -/
inductive SysReg where
  | mpidrEl1
  | currentEl
  | cnthctlEl2
  | cntvoffEl2
  | hcrEl2
  | spsrEl2
  | elrEl2
  | cpacrEl1
  | vbarEl1
  | esrEl1
  | farEl1
  | elrEl1
  | spsrEl1
  deriving DecidableEq

/-- The lowest exception level that may access a system register. -/
def SysReg.level : SysReg → Fin 4
  | .cnthctlEl2 | .cntvoffEl2 | .hcrEl2 | .spsrEl2 | .elrEl2 => 2
  | _ => 1

/-- The process state: the condition flags, the interrupt masks, the exception level and the bit
that selects the stack pointer of that level. -/
structure Pstate where
  n : Bool
  z : Bool
  c : Bool
  v : Bool
  d : Bool
  a : Bool
  i : Bool
  f : Bool
  el : Fin 4
  spSel : Bool
  deriving DecidableEq

/-- The state of a core. `sp` is the stack pointer of EL1, and no other one is modelled. -/
structure Cpu where
  x : Fin 31 → UInt64
  sp : UInt64
  pc : UInt64
  pstate : Pstate
  sys : SysReg → UInt64
  mem : Memory

/-- The layout of a saved process state. -/
def Pstate.toSpsr (p : Pstate) : UInt64 := UInt64.ofNat
  (p.n.toNat * 2 ^ 31 + p.z.toNat * 2 ^ 30 + p.c.toNat * 2 ^ 29 + p.v.toNat * 2 ^ 28 +
    p.d.toNat * 2 ^ 9 + p.a.toNat * 2 ^ 8 + p.i.toNat * 2 ^ 7 + p.f.toNat * 2 ^ 6 +
    p.el.val * 2 ^ 2 + p.spSel.toNat)

/-- The process state that is saved in a word. -/
def Pstate.ofSpsr (w : UInt64) : Pstate where
  n := w.toNat / 2 ^ 31 % 2 = 1
  z := w.toNat / 2 ^ 30 % 2 = 1
  c := w.toNat / 2 ^ 29 % 2 = 1
  v := w.toNat / 2 ^ 28 % 2 = 1
  d := w.toNat / 2 ^ 9 % 2 = 1
  a := w.toNat / 2 ^ 8 % 2 = 1
  i := w.toNat / 2 ^ 7 % 2 = 1
  f := w.toNat / 2 ^ 6 % 2 = 1
  el := Fin.ofNat 4 (w.toNat / 2 ^ 2)
  spSel := w.toNat % 2 = 1

/-- A process state is restored as it was saved. -/
theorem Pstate.ofSpsr_toSpsr (p : Pstate) : ofSpsr p.toSpsr = p := by
  obtain ⟨n, z, c, v, d, a, i, f, el, spSel⟩ := p
  have hel := el.isLt
  have hbit : ∀ b : Bool, b.toNat ≤ 1 := Bool.toNat_le
  have hone : ∀ b : Bool, decide (b.toNat = 1) = b := by decide
  have hn := hbit n
  have hz := hbit z
  have hc := hbit c
  have hv := hbit v
  have hd := hbit d
  have ha := hbit a
  have hi := hbit i
  have hf := hbit f
  have hs := hbit spSel
  generalize hw : toSpsr ⟨n, z, c, v, d, a, i, f, el, spSel⟩ = w
  have hword : w.toNat = n.toNat * 2 ^ 31 + z.toNat * 2 ^ 30 + c.toNat * 2 ^ 29 + v.toNat * 2 ^ 28 +
      d.toNat * 2 ^ 9 + a.toNat * 2 ^ 8 + i.toNat * 2 ^ 7 + f.toNat * 2 ^ 6 + el.val * 2 ^ 2 +
      spSel.toNat := by
    rw [← hw, toSpsr, UInt64.toNat_ofNat_of_lt']
    dsimp only [UInt64.size]
    omega
  rw [ofSpsr]
  congr 1
  · rw [show w.toNat / 2 ^ 31 % 2 = n.toNat by omega, hone]
  · rw [show w.toNat / 2 ^ 30 % 2 = z.toNat by omega, hone]
  · rw [show w.toNat / 2 ^ 29 % 2 = c.toNat by omega, hone]
  · rw [show w.toNat / 2 ^ 28 % 2 = v.toNat by omega, hone]
  · rw [show w.toNat / 2 ^ 9 % 2 = d.toNat by omega, hone]
  · rw [show w.toNat / 2 ^ 8 % 2 = a.toNat by omega, hone]
  · rw [show w.toNat / 2 ^ 7 % 2 = i.toNat by omega, hone]
  · rw [show w.toNat / 2 ^ 6 % 2 = f.toNat by omega, hone]
  · refine Fin.ext ?_
    show w.toNat / 2 ^ 2 % 4 = el.val
    omega
  · rw [show w.toNat % 2 = spSel.toNat by omega, hone]

/-! ## Instructions -/

/-- An instruction. `mov` stands for every instruction that loads a constant, also `adr` and
`ldr =`. Targets of branches are addresses. -/
inductive Instr where
  | mov (d : Fin 31) (v : UInt64)
  | andImm (d n : Fin 31) (v : UInt64)
  | orrImm (d n : Fin 31) (v : UInt64)
  | bicImm (d n : Fin 31) (v : UInt64)
  | lsrImm (d n : Fin 31) (v : UInt64)
  | cmpImm (n : Fin 31) (v : UInt64)
  | subsImm (d n : Fin 31) (v : UInt64)
  | movFromSp (d : Fin 31)
  | movToSp (n : Fin 31)
  | addSp (v : UInt64)
  | subSp (v : UInt64)
  | stpSp (r s : Fin 31) (off : UInt64)
  | strSp (r : Fin 31) (off : UInt64)
  | ldpSp (r s : Fin 31) (off : UInt64)
  | ldrSp (r : Fin 31) (off : UInt64)
  | strZeroPost (n : Fin 31) (off : UInt64)
  | strWord (r n : Fin 31)
  | mrs (d : Fin 31) (reg : SysReg)
  | msr (reg : SysReg) (n : Fin 31)
  | msrZero (reg : SysReg)
  | isb
  | wfe
  | b (target : UInt64)
  | bNe (target : UInt64)
  | cbz (n : Fin 31) (target : UInt64)
  | bl (target : UInt64)
  | ret
  | eret
  deriving DecidableEq

namespace Cpu

/-- The next instruction. -/
def next (s : Cpu) : Cpu := { s with pc := s.pc + 4 }

/-- A general register is set. -/
def setX (s : Cpu) (d : Fin 31) (v : UInt64) : Cpu := { s with x := Function.update s.x d v }

@[simp] theorem setX_self (s : Cpu) (d : Fin 31) (v : UInt64) : (s.setX d v).x d = v := by
  simp [setX]

theorem setX_of_ne (s : Cpu) (r d : Fin 31) (v : UInt64) (h : r ≠ d) :
    (s.setX d v).x r = s.x r := by
  simp [setX, h]

/-- A system register is set. -/
def setSys (s : Cpu) (reg : SysReg) (v : UInt64) : Cpu :=
  { s with sys := Function.update s.sys reg v }

/-- What a system register reads as. -/
def readSys (s : Cpu) : SysReg → UInt64
  | .currentEl => UInt64.ofNat (s.pstate.el.val * 4)
  | reg => s.sys reg

/-- The stack pointer of EL1 is the one that is selected. -/
def OwnStack (s : Cpu) : Prop := s.pstate.el = 1 ∧ s.pstate.spSel = true

instance (s : Cpu) : Decidable s.OwnStack := inferInstanceAs (Decidable (_ ∧ _))

/-- The flags of a subtraction. -/
def setFlags (s : Cpu) (a b : UInt64) : Cpu :=
  let r := a - b
  { s with
    pstate := { s.pstate with
      n := r >>> 63 = 1
      z := r = 0
      c := b ≤ a
      v := ((a ^^^ b) &&& (a ^^^ r)) >>> 63 = 1 } }

/-- An access through the stack pointer, which has to be aligned. -/
def stack (s : Cpu) (f : Nat → Cpu) (off : UInt64) : Option Cpu :=
  if s.OwnStack ∧ s.sp.toNat % 16 = 0 then some (f (s.sp + off).toNat) else none

/-- The return from an exception to a level below or the same one. Only a hypervisor that runs its
guest in AArch64 returns to EL1. -/
def eret (s : Cpu) : Option Cpu :=
  if s.pstate.el = 2 then
    let p := Pstate.ofSpsr (s.sys .spsrEl2)
    if p.el ≤ 2 ∧ (p.el = 1 → s.sys .hcrEl2 &&& ((1 : UInt64) <<< 31) ≠ 0) then
      some { s with pc := s.sys .elrEl2, pstate := p }
    else none
  else if s.pstate.el = 1 then
    let p := Pstate.ofSpsr (s.sys .spsrEl1)
    if p.el ≤ 1 then some { s with pc := s.sys .elrEl1, pstate := p } else none
  else none

end Cpu

/-- One instruction. -/
def exec (s : Cpu) : Instr → Option Cpu
  | .mov d v => some (s.setX d v).next
  | .andImm d n v => some (s.setX d (s.x n &&& v)).next
  | .orrImm d n v => some (s.setX d (s.x n ||| v)).next
  | .bicImm d n v => some (s.setX d (s.x n &&& ~~~v)).next
  | .lsrImm d n v => some (s.setX d (s.x n >>> v)).next
  | .cmpImm n v => some (s.setFlags (s.x n) v).next
  | .subsImm d n v => some ((s.setFlags (s.x n) v).setX d (s.x n - v)).next
  | .movFromSp d => if s.OwnStack then some (s.setX d s.sp).next else none
  | .movToSp n => if s.OwnStack then some { s.next with sp := s.x n } else none
  | .addSp v => if s.OwnStack then some { s.next with sp := s.sp + v } else none
  | .subSp v => if s.OwnStack then some { s.next with sp := s.sp - v } else none
  | .stpSp r t off => s.stack (fun a ↦
      { s.next with mem := store 8 (store 8 s.mem a (s.x r).toNat) (a + 8) (s.x t).toNat }) off
  | .strSp r off => s.stack (fun a ↦ { s.next with mem := store 8 s.mem a (s.x r).toNat }) off
  | .ldpSp r t off => s.stack (fun a ↦
      ((s.setX r (.ofNat (load 8 s.mem a))).setX t (.ofNat (load 8 s.mem (a + 8)))).next) off
  | .ldrSp r off => s.stack (fun a ↦ (s.setX r (.ofNat (load 8 s.mem a))).next) off
  | .strZeroPost n off =>
      some { (s.setX n (s.x n + off)).next with mem := store 8 s.mem (s.x n).toNat 0 }
  | .strWord r n => some { s.next with mem := store 4 s.mem (s.x n).toNat (s.x r).toNat }
  | .mrs d reg =>
      if reg.level ≤ s.pstate.el then some (s.setX d (s.readSys reg)).next else none
  | .msr reg n => if reg.level ≤ s.pstate.el then some (s.setSys reg (s.x n)).next else none
  | .msrZero reg => if reg.level ≤ s.pstate.el then some (s.setSys reg 0).next else none
  | .isb => some s.next
  | .wfe => some s.next
  | .b target => some { s with pc := target }
  | .bNe target => some (if s.pstate.z then s.next else { s with pc := target })
  | .cbz n target => some (if s.x n = 0 then { s with pc := target } else s.next)
  | .bl target => some { s.setX 30 (s.pc + 4) with pc := target }
  | .ret => some { s with pc := s.x 30 }
  | .eret => s.eret

/-- An exception is taken from EL1 to EL1 on its own stack: the vector is at the given offset, and
the syndrome and the fault address say what happened. -/
def Cpu.takeException (s : Cpu) (offset syndrome fault : UInt64) : Cpu :=
  { s with
    pc := s.sys .vbarEl1 + offset
    sys := Function.update (Function.update (Function.update (Function.update s.sys
      .esrEl1 syndrome) .farEl1 fault) .elrEl1 s.pc) .spsrEl1 s.pstate.toSpsr
    pstate := { s.pstate with d := true, a := true, i := true, f := true, spSel := true } }

/-! ## Execution -/

/-- What is at each address. -/
abbrev Code := UInt64 → Option Instr

/-- One step. -/
def step (code : Code) (s : Cpu) : Option Cpu := (code s.pc).bind (exec s)

/-- Any number of steps. -/
abbrev Steps (code : Code) : Cpu → Cpu → Prop :=
  Relation.ReflTransGen fun s s' ↦ step code s = some s'

/-- The instructions are at the address, one after the other. -/
def Loaded (code : Code) : UInt64 → List Instr → Prop
  | _, [] => True
  | a, i :: is => code a = some i ∧ Loaded code (a + 4) is

instance (code : Code) : ∀ (a : UInt64) (is : List Instr), Decidable (Loaded code a is)
  | _, [] => inferInstanceAs (Decidable True)
  | a, i :: is =>
      let _ : Decidable (Loaded code (a + 4) is) := instDecidableLoaded code (a + 4) is
      inferInstanceAs (Decidable (code a = some i ∧ Loaded code (a + 4) is))

/-- Blocks of code, each at its address. -/
def Code.ofBlocks (blocks : List (UInt64 × List Instr)) : Code := fun a ↦
  blocks.findSome? fun (base, is) ↦
    if (a - base).toNat % 4 = 0 then is[(a - base).toNat / 4]? else none

/-- Instructions one after the other. -/
def execAll : List Instr → Cpu → Option Cpu
  | [], s => some s
  | i :: is, s => (exec s i).bind (execAll is)

/-- The instruction goes on to the one behind it. -/
def Instr.isStraight : Instr → Bool
  | .b .. | .bNe .. | .cbz .. | .bl .. | .ret | .eret => false
  | _ => true

section Execution

variable {code : Code} {s s' s'' : Cpu} {i : Instr} {is : List Instr} {a : UInt64}

theorem Steps.single (hcode : code s.pc = some i) (h : exec s i = some s') : Steps code s s' := by
  refine Relation.ReflTransGen.single ?_
  rw [step, hcode]
  exact h

/-- An instruction, and what comes after it. -/
theorem Steps.cons {t : Cpu} (hcode : code s.pc = some i) (h : exec s i = some t)
    (hrest : Steps code t s') : Steps code s s' :=
  (Steps.single hcode h).trans hrest

/-- A straight instruction goes on. -/
theorem exec_pc (hi : i.isStraight = true) (h : exec s i = some s') : s'.pc = s.pc + 4 := by
  cases i with
  | b | bNe | cbz | bl | ret | eret => cases hi
  | stpSp | strSp | ldpSp | ldrSp | movFromSp | movToSp | addSp | subSp | mrs | msr | msrZero =>
      simp only [exec, Cpu.stack, Option.ite_none_right_eq_some, Option.some.injEq] at h
      obtain ⟨-, rfl⟩ := h
      rfl
  | _ =>
      cases h
      rfl

/-- Straight code runs from one end to the other. -/
theorem steps_straight (hcode : Loaded code s.pc is) (hstraight : ∀ i ∈ is, i.isStraight = true)
    (h : execAll is s = some s') : Steps code s s' ∧ s'.pc = s.pc + 4 * UInt64.ofNat is.length := by
  induction is generalizing s with
  | nil =>
      cases h
      exact ⟨.refl, by simp⟩
  | cons i is ih =>
      obtain ⟨s₁, hfirst, hrest⟩ := Option.bind_eq_some_iff.mp h
      have hpc := exec_pc (hstraight i List.mem_cons_self) hfirst
      obtain ⟨hsteps, hend⟩ := ih (hpc ▸ hcode.2)
        (fun j hj ↦ hstraight j (List.mem_cons_of_mem i hj)) hrest
      refine ⟨.cons hcode.1 hfirst hsteps, ?_⟩
      rw [hend, hpc, List.length_cons, UInt64.ofNat_add, show UInt64.ofNat 1 = 1 from rfl]
      grind

/-- What is loaded behind a piece of code. -/
theorem Loaded.append_right {js : List Instr} (h : Loaded code a (is ++ js)) :
    Loaded code (a + 4 * UInt64.ofNat is.length) js := by
  induction is generalizing a with
  | nil => simpa using h
  | cons i is ih =>
      have hrest := ih h.2
      rw [List.length_cons, UInt64.ofNat_add, show UInt64.ofNat 1 = 1 from rfl]
      have hsum : a + 4 * (UInt64.ofNat is.length + 1) = a + 4 + 4 * UInt64.ofNat is.length := by
        grind
      rwa [hsum]

theorem Loaded.append_left {js : List Instr} (h : Loaded code a (is ++ js)) : Loaded code a is := by
  induction is generalizing a with
  | nil => trivial
  | cons i is ih => exact ⟨h.1, ih h.2⟩

/-- A core that waits in a loop stays there. -/
theorem steps_wait (hwait : code s.pc = some .wfe) (hagain : code (s.pc + 4) = some (.b s.pc))
    (h : Steps code s s') :
    (s' = s ∨ s' = { s with pc := s.pc + 4 }) ∧ (step code s').isSome := by
  have hfirst : step code s = some { s with pc := s.pc + 4 } := by
    rw [step, hwait]
    rfl
  have hsecond : step code { s with pc := s.pc + 4 } = some s := by
    rw [step, show code (s.pc + 4) = some (.b s.pc) from hagain]
    rfl
  have hcases : s' = s ∨ s' = { s with pc := s.pc + 4 } := by
    induction h with
    | refl => exact .inl rfl
    | tail _ hstep ih =>
        rcases ih with rfl | rfl
        · exact .inr (Option.some_inj.mp (hstep.symm.trans hfirst))
        · exact .inl (Option.some_inj.mp (hstep.symm.trans hsecond))
  refine ⟨hcases, ?_⟩
  rcases hcases with rfl | rfl
  · rw [hfirst]
    rfl
  · rw [hsecond]
    rfl

theorem execAll_append (is js : List Instr) (s : Cpu) :
    execAll (is ++ js) s = (execAll is s).bind (execAll js) := by
  induction is generalizing s with
  | nil => rfl
  | cons i is ih =>
      rw [List.cons_append, execAll, execAll, Option.bind_assoc]
      exact congrArg _ (funext ih)

end Execution

/-! ## Frames of registers -/

/-- The first `2 * n` registers are saved on the stack, two at a time. -/
def savePairs : (n : Nat) → n ≤ 15 → List Instr
  | 0, _ => []
  | n + 1, h => savePairs n (Nat.le_of_succ_le h) ++
      [.stpSp ⟨2 * n, by omega⟩ ⟨2 * n + 1, by omega⟩ (UInt64.ofNat (16 * n))]

/-- They are loaded again, the last ones first. -/
def restorePairs : (n : Nat) → n ≤ 15 → List Instr
  | 0, _ => []
  | n + 1, h => .ldpSp ⟨2 * n, by omega⟩ ⟨2 * n + 1, by omega⟩ (UInt64.ofNat (16 * n)) ::
      restorePairs n (Nat.le_of_succ_le h)

section Frames

variable {s : Cpu}

/-- An offset into a frame of 256 bytes. -/
theorem toNat_sp_add (h : s.sp.toNat + 256 ≤ 2 ^ 64) {n : Nat} (hn : n < 256) :
    (s.sp + UInt64.ofNat n).toNat = s.sp.toNat + n := by
  rw [UInt64.toNat_add, UInt64.toNat_ofNat_of_lt' (by dsimp only [UInt64.size]; omega)]
  exact Nat.mod_eq_of_lt (by omega)

/-- A register that is stored as a word is loaded as it was. -/
theorem load_store_reg (m : Memory) (a : Nat) (v : UInt64) :
    load 8 (store 8 m a v.toNat) a = v.toNat := by
  rw [load_store_same]
  exact Nat.mod_eq_of_lt v.toNat_lt

/-- Saving pairs of registers. -/
theorem execAll_savePairs (hown : s.OwnStack) (halign : s.sp.toNat % 16 = 0)
    (hroom : s.sp.toNat + 256 ≤ 2 ^ 64) {n : Nat} (hn : n ≤ 15) : ∃ pc mem,
    execAll (savePairs n hn) s = some { s with pc := pc, mem := mem } ∧
    (∀ r : Fin 31, r.val < 2 * n → load 8 mem (s.sp.toNat + 8 * r) = (s.x r).toNat) ∧
    ∀ a, a < s.sp.toNat ∨ s.sp.toNat + 16 * n ≤ a → mem a = s.mem a := by
  induction n with
  | zero => exact ⟨s.pc, s.mem, rfl, fun r hr ↦ absurd hr (Nat.not_lt_zero _), fun _ _ ↦ rfl⟩
  | succ n ih =>
      obtain ⟨pc, mem, hexec, hsaved, hframe⟩ := ih (Nat.le_of_succ_le hn)
      have haddr := toNat_sp_add (s := s) hroom (n := 16 * n) (by omega)
      have hlo : 2 * n < 31 := by omega
      have hhi : 2 * n + 1 < 31 := by omega
      refine ⟨pc + 4, store 8 (store 8 mem (s.sp.toNat + 16 * n) (s.x ⟨2 * n, hlo⟩).toNat)
        (s.sp.toNat + 16 * n + 8) (s.x ⟨2 * n + 1, hhi⟩).toNat, ?_, fun r hr ↦ ?_, ?_⟩
      · rw [savePairs, execAll_append, hexec]
        show (exec { s with pc := pc, mem := mem } _).bind _ = _
        have hown' : Cpu.OwnStack { s with pc := pc, mem := mem } := hown
        simp only [exec, Cpu.stack, hown', halign, and_true, if_true, Option.bind_some, execAll,
          Cpu.next, haddr]
      · rcases Nat.lt_or_ge r.val (2 * n) with hold | hnew
        · rw [load_store_outside _ _ _ _ _ _ (by omega), load_store_outside _ _ _ _ _ _ (by omega),
            hsaved r hold]
        · rcases Nat.lt_or_ge r.val (2 * n + 1) with hfirst | hsecond
          · obtain rfl : r = ⟨2 * n, hlo⟩ := Fin.ext (by show r.val = 2 * n; omega)
            rw [load_store_outside _ _ _ _ _ _ (by dsimp only; omega),
              show s.sp.toNat + 8 * (2 * n) = s.sp.toNat + 16 * n by omega, load_store_reg]
          · obtain rfl : r = ⟨2 * n + 1, hhi⟩ :=
              Fin.ext (by show r.val = 2 * n + 1; omega)
            rw [show s.sp.toNat + 8 * (2 * n + 1) = s.sp.toNat + 16 * n + 8 by omega,
              load_store_reg]
      · intro a ha
        have hout : ∀ (m : Memory) (b v : Nat), a < b ∨ b + 8 ≤ a → store 8 m b v a = m a :=
          fun m b v hab ↦ writeBytes_outside m b (leBytes 8 v) a (by simpa using hab)
        rw [hout _ _ _ (by omega), hout _ _ _ (by omega), hframe a (by omega)]

/-- Loading pairs of registers. -/
theorem execAll_restorePairs (hown : s.OwnStack) (halign : s.sp.toNat % 16 = 0)
    (hroom : s.sp.toNat + 256 ≤ 2 ^ 64) {n : Nat} (hn : n ≤ 15) : ∃ pc x,
    execAll (restorePairs n hn) s = some { s with pc := pc, x := x } ∧
    ∀ r : Fin 31, x r =
      if r.val < 2 * n then UInt64.ofNat (load 8 s.mem (s.sp.toNat + 8 * r)) else s.x r := by
  induction n generalizing s with
  | zero => exact ⟨s.pc, s.x, rfl, fun r ↦ (if_neg (Nat.not_lt_zero _)).symm⟩
  | succ n ih =>
      have haddr := toNat_sp_add (s := s) hroom (n := 16 * n) (by omega)
      have hlo : 2 * n < 31 := by omega
      have hhi : 2 * n + 1 < 31 := by omega
      let s₁ : Cpu := ((s.setX ⟨2 * n, hlo⟩ (.ofNat (load 8 s.mem (s.sp.toNat + 16 * n)))).setX
        ⟨2 * n + 1, hhi⟩ (.ofNat (load 8 s.mem (s.sp.toNat + 16 * n + 8)))).next
      obtain ⟨pc, x, hexec, hx⟩ := ih (s := s₁) hown halign hroom (Nat.le_of_succ_le hn)
      refine ⟨pc, x, ?_, fun r ↦ ?_⟩
      · rw [restorePairs, execAll]
        simp only [exec, Cpu.stack, hown, halign, and_true, if_true, Option.bind_some, haddr]
        exact hexec
      · rw [hx r]
        by_cases hold : r.val < 2 * n
        · rw [if_pos hold, if_pos (by omega)]
          rfl
        · rw [if_neg hold]
          by_cases hfirst : r.val = 2 * n
          · obtain rfl : r = ⟨2 * n, hlo⟩ := Fin.ext hfirst
            rw [if_pos (by dsimp only; omega)]
            have hne : (⟨2 * n, hlo⟩ : Fin 31) ≠ ⟨2 * n + 1, hhi⟩ := by
              simp
            show Function.update _ _ _ _ = _
            rw [Function.update_of_ne hne]
            show Function.update _ _ _ _ = _
            rw [Function.update_self, show s.sp.toNat + 8 * (2 * n) = s.sp.toNat + 16 * n by omega]
          · by_cases hsecond : r.val = 2 * n + 1
            · obtain rfl : r = ⟨2 * n + 1, hhi⟩ := Fin.ext hsecond
              rw [if_pos (by dsimp only; omega)]
              show Function.update _ _ _ _ = _
              rw [Function.update_self,
                show s.sp.toNat + 8 * (2 * n + 1) = s.sp.toNat + 16 * n + 8 by omega]
            · rw [if_neg (by omega)]
              show Function.update _ _ _ _ = _
              rw [Function.update_of_ne fun heq ↦ hsecond (congrArg Fin.val heq)]
              show Function.update _ _ _ _ = _
              rw [Function.update_of_ne fun heq ↦ hfirst (congrArg Fin.val heq)]

end Frames

end AArch64
