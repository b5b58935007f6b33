import Aether.Lib.AArch64

/-!
# The exception vectors

`vectors.S`: the vector table, and what the two vectors that lead anywhere do around the call of
their handler. `exception_transparent` says that a handler finds the registers in its trap frame and
that the interrupted code finds everything as it was; `invalid_vectors_hang` that the other fourteen
vectors never come back.
-/

namespace Aether.Arch

open ByteMemory AArch64

/-! ## The code -/

/-- The macro `kernel_entry`. -/
def kernelEntry : List Instr := [
  .subSp 256,
  .stpSp 0 1 (16 * 0),
  .stpSp 2 3 (16 * 1),
  .stpSp 4 5 (16 * 2),
  .stpSp 6 7 (16 * 3),
  .stpSp 8 9 (16 * 4),
  .stpSp 10 11 (16 * 5),
  .stpSp 12 13 (16 * 6),
  .stpSp 14 15 (16 * 7),
  .stpSp 16 17 (16 * 8),
  .stpSp 18 19 (16 * 9),
  .stpSp 20 21 (16 * 10),
  .stpSp 22 23 (16 * 11),
  .stpSp 24 25 (16 * 12),
  .stpSp 26 27 (16 * 13),
  .stpSp 28 29 (16 * 14),
  .strSp 30 (16 * 15)]

/-- The macro `kernel_exit`. -/
def kernelExit : List Instr := [
  .ldrSp 30 (16 * 15),
  .ldpSp 28 29 (16 * 14),
  .ldpSp 26 27 (16 * 13),
  .ldpSp 24 25 (16 * 12),
  .ldpSp 22 23 (16 * 11),
  .ldpSp 20 21 (16 * 10),
  .ldpSp 18 19 (16 * 9),
  .ldpSp 16 17 (16 * 8),
  .ldpSp 14 15 (16 * 7),
  .ldpSp 12 13 (16 * 6),
  .ldpSp 10 11 (16 * 5),
  .ldpSp 8 9 (16 * 4),
  .ldpSp 6 7 (16 * 3),
  .ldpSp 4 5 (16 * 2),
  .ldpSp 2 3 (16 * 1),
  .ldpSp 0 1 (16 * 0),
  .addSp 256,
  .eret]

/-- What is between the two: the arguments of the handler, and its call. -/
def callHandler (handler : UInt64) : List Instr := [
  .mrs 0 .esrEl1,
  .mrs 1 .elrEl1,
  .mrs 2 .farEl1,
  .movFromSp 3,
  .bl handler]

/-- `sync_el1h` and `irq_el1h`, which differ in the handler. -/
def el1h (handler : UInt64) : List Instr := kernelEntry ++ (callHandler handler ++ kernelExit)

/-- `invalid_exception_handler`, for a UART at the given address and the loop at `loop`. -/
def invalidExceptionHandler (uart loop : UInt64) : List Instr := [
  .mov 4 uart,
  .mov 5 69,
  .strWord 5 4,
  .wfe,
  .b loop]

/-- `exceptions_init`, for a vector table at the given address. -/
def exceptionsInit (table : UInt64) : List Instr := [
  .mov 0 table,
  .msr .vbarEl1 0,
  .isb,
  .ret]

/-- The section `.vectors` in memory, and the handlers that it calls. -/
structure Vectors (code : Code) where
  init : UInt64
  table : UInt64
  syncEl1h : UInt64
  irqEl1h : UInt64
  invalid : UInt64
  uart : UInt64
  handleSyncException : UInt64
  handleIrqException : UInt64
  exceptionsInit : Loaded code init (exceptionsInit table)
  ventry : ∀ k < 16, code (table + 128 * UInt64.ofNat k) =
    some (.b (if k = 4 then syncEl1h else if k = 5 then irqEl1h else invalid))
  sync : Loaded code syncEl1h (el1h handleSyncException)
  irq : Loaded code irqEl1h (el1h handleIrqException)
  invalidHandler : Loaded code invalid (invalidExceptionHandler uart (invalid + 12))

/-- The section at an address, without its handlers. -/
def vectorsImage : Code := .ofBlocks (
  (0x40080000, exceptionsInit 0x40080800) ::
  (List.range 16).map (fun k ↦ (0x40080800 + 128 * UInt64.ofNat k,
    [.b (if k = 4 then 0x40081000 else if k = 5 then 0x400810a0 else 0x40081140)])) ++
  [(0x40081000, el1h 0x40090000), (0x400810a0, el1h 0x40091000),
    (0x40081140, invalidExceptionHandler 0x09000000 0x4008114c)])

/-- The parts of the section there. -/
def vectorsImage.vectors : Vectors vectorsImage where
  init := 0x40080000
  table := 0x40080800
  syncEl1h := 0x40081000
  irqEl1h := 0x400810a0
  invalid := 0x40081140
  uart := 0x09000000
  handleSyncException := 0x40090000
  handleIrqException := 0x40091000
  exceptionsInit := by decide +kernel
  ventry := by decide +kernel
  sync := by decide +kernel
  irq := by decide +kernel
  invalidHandler := by decide +kernel

/-- The kernel at EL1, about to execute the instruction at `pc`, with the section as its vectors. -/
def kernelCpu (pc : UInt64) : Cpu where
  x := fun _ ↦ 0
  sp := 0x40100000
  pc := pc
  pstate := ⟨false, false, false, false, false, false, false, false, 1, true⟩
  sys := fun _ ↦ 0x40080800
  mem := fun _ ↦ 0

/-! ## Around the handler -/

section Frame

variable {code : Code} {s : Cpu}

/-- The registers are in the trap frame, and nothing else in memory is touched. -/
structure TrapFrame (s s' : Cpu) : Prop where
  sp : s'.sp.toNat = s.sp.toNat - 256
  registers : ∀ r : Fin 31, load 8 s'.mem (s'.sp.toNat + 8 * r) = (s.x r).toNat
  outside : ∀ a, a < s'.sp.toNat ∨ s.sp.toNat ≤ a → s'.mem a = s.mem a

/-- The entry makes a trap frame below the stack pointer. -/
theorem kernelEntry_exec (hown : s.OwnStack) (halign : s.sp.toNat % 16 = 0)
    (hroom : 256 ≤ s.sp.toNat) : ∃ pc mem,
    execAll kernelEntry s = some { s with sp := s.sp - 256, pc := pc, mem := mem } ∧
    TrapFrame s { s with sp := s.sp - 256, pc := pc, mem := mem } := by
  have hlt := s.sp.toNat_lt
  have hsp : (s.sp - 256).toNat = s.sp.toNat - 256 :=
    UInt64.toNat_sub_of_le _ _ (UInt64.le_iff_toNat_le.mpr hroom)
  let s₁ : Cpu := { s.next with sp := s.sp - 256 }
  have hsp₁ : s₁.sp.toNat = s.sp.toNat - 256 := hsp
  have halign₁ : s₁.sp.toNat % 16 = 0 := by omega
  have hroom₁ : s₁.sp.toNat + 256 ≤ 2 ^ 64 := by omega
  obtain ⟨pc, mem, hexec, hsaved, houtside⟩ :=
    execAll_savePairs (s := s₁) hown halign₁ hroom₁ (n := 15) le_rfl
  have haddr := toNat_sp_add hroom₁ (n := 240) (by decide)
  have hcode : kernelEntry = .subSp 256 :: (savePairs 15 le_rfl ++ [.strSp 30 (.ofNat 240)]) := rfl
  have hfirst : exec s (.subSp 256) = some s₁ := if_pos hown
  have hlast : exec { s₁ with pc := pc, mem := mem } (.strSp 30 (.ofNat 240)) = some
      { s₁ with pc := pc + 4, mem := store 8 mem (s₁.sp.toNat + 240) (s.x 30).toNat } := by
    have hown₁ : Cpu.OwnStack { s₁ with pc := pc, mem := mem } := hown
    simp only [exec, Cpu.stack, hown₁, halign₁, and_true, if_true, haddr]
    rfl
  refine ⟨pc + 4, store 8 mem (s₁.sp.toNat + 240) (s.x 30).toNat, ?_, ?_⟩
  · rw [hcode, execAll, hfirst, Option.bind_some, execAll_append, hexec, Option.bind_some, execAll,
      hlast]
    rfl
  · refine ⟨hsp, fun r ↦ ?_, fun a ha ↦ ?_⟩
    · show load 8 (store 8 mem (s₁.sp.toNat + 240) (s.x 30).toNat) (s₁.sp.toNat + 8 * r) = _
      rcases Nat.lt_or_ge r.val 30 with hpair | hlr
      · rw [load_store_outside _ _ _ _ _ _ (by omega), hsaved r hpair]
        rfl
      · obtain rfl : r = 30 := Fin.ext (by show r.val = 30; omega)
        exact load_store_reg _ _ _
    · have hout : a < s₁.sp.toNat + 240 ∨ s₁.sp.toNat + 240 + 8 ≤ a := by
        change a < s₁.sp.toNat ∨ s.sp.toNat ≤ a at ha
        omega
      show store 8 mem (s₁.sp.toNat + 240) (s.x 30).toNat a = s.mem a
      rw [store, writeBytes_outside _ _ _ _ (by simpa using hout)]
      refine houtside a ?_
      change a < s₁.sp.toNat ∨ s.sp.toNat ≤ a at ha
      omega

/-- Behind the entry the handler is called with the syndrome, the address of the interrupted
instruction, the fault address and the trap frame. -/
theorem el1h_calls {handler : UInt64} (hcode : Loaded code s.pc (el1h handler))
    (hown : s.OwnStack) (halign : s.sp.toNat % 16 = 0) (hroom : 256 ≤ s.sp.toNat) : ∃ called : Cpu,
    Steps code s called ∧ called.pc = handler ∧ called.x 0 = s.sys .esrEl1 ∧
    called.x 1 = s.sys .elrEl1 ∧ called.x 2 = s.sys .farEl1 ∧ called.x 3 = called.sp ∧
    called.sys = s.sys ∧ called.pstate = s.pstate ∧ TrapFrame s called ∧
    Loaded code (called.x 30) kernelExit := by
  obtain ⟨pc, mem, hexec, hframe⟩ := kernelEntry_exec hown halign hroom
  generalize hs₁ : { s with sp := s.sp - 256, pc := pc, mem := mem } = s₁ at hexec hframe
  have hentry : Loaded code s.pc kernelEntry := hcode.append_left
  obtain ⟨hsteps, hpc⟩ := steps_straight hentry (by decide) hexec
  have hcall : Loaded code s₁.pc (callHandler handler ++ kernelExit) := hpc ▸ hcode.append_right
  -- the four arguments
  let s₂ : Cpu := (s₁.setX 0 (s₁.sys .esrEl1)).next
  let s₃ : Cpu := (s₂.setX 1 (s₁.sys .elrEl1)).next
  let s₄ : Cpu := (s₃.setX 2 (s₁.sys .farEl1)).next
  let s₅ : Cpu := (s₄.setX 3 s₁.sp).next
  let called : Cpu := { s₅.setX 30 (s₅.pc + 4) with pc := handler }
  obtain ⟨h₁, h₂, h₃, h₄, h₅, hexit⟩ := hcall
  have hpstate : s₁.pstate = s.pstate := by rw [← hs₁]
  have hown₁ : s₁.OwnStack := by
    rw [Cpu.OwnStack, hpstate]
    exact hown
  have hlevel : (1 : Fin 4) ≤ s₁.pstate.el := hown₁.1.ge
  have harguments : Steps code s₁ called :=
    .cons (t := s₂) h₁ (if_pos hlevel) (.cons (t := s₃) h₂ (if_pos hlevel)
      (.cons (t := s₄) h₃ (if_pos hlevel) (.cons (t := s₅) h₄ (if_pos hown₁) (.single h₅ rfl))))
  have hsys : s₁.sys = s.sys := by rw [← hs₁]
  refine ⟨called, hsteps.trans harguments, rfl, ?_, ?_, ?_, rfl, hsys, hpstate, ?_, hexit⟩
  · rw [← hsys]
    rfl
  · rw [← hsys]
    rfl
  · rw [← hsys]
    rfl
  · exact ⟨hframe.sp, hframe.registers, hframe.outside⟩

/-- A handler came back to its caller: at the same exception level and with the same stack pointer,
and without a change of the trap frame or of the registers that the exception is returned from. -/
structure Returned (called back : Cpu) : Prop where
  pc : back.pc = called.x 30
  sp : back.sp = called.sp
  own : back.OwnStack
  elr : back.sys .elrEl1 = called.sys .elrEl1
  spsr : back.sys .spsrEl1 = called.sys .spsrEl1
  frame : Agree called.sp.toNat 248 called.mem back.mem

/-- The exit loads the registers from the trap frame and returns from the exception. -/
theorem kernelExit_steps {back : Cpu} {x : Fin 31 → UInt64} {p : Pstate}
    (hcode : Loaded code back.pc kernelExit) (hown : back.OwnStack)
    (halign : back.sp.toNat % 16 = 0) (hroom : back.sp.toNat + 256 < 2 ^ 64)
    (hregisters : ∀ r : Fin 31, load 8 back.mem (back.sp.toNat + 8 * r) = (x r).toNat)
    (hspsr : back.sys .spsrEl1 = p.toSpsr) (hp : p.el ≤ 1) :
    Steps code back
      { back with x := x, sp := back.sp + 256, pc := back.sys .elrEl1, pstate := p } := by
  have haddr := toNat_sp_add hroom.le (n := 240) (by decide)
  let s₁ : Cpu := (back.setX 30 (.ofNat (load 8 back.mem (back.sp.toNat + 240)))).next
  have hfirst : exec back (.ldrSp 30 (.ofNat 240)) = some s₁ := by
    simp only [exec, Cpu.stack, hown, halign, and_true, if_true, haddr]
    rfl
  obtain ⟨pc, x', hexec, hx⟩ := execAll_restorePairs (s := s₁) hown halign hroom.le (n := 15) le_rfl
  have hsame : x' = x := by
    funext r
    rw [hx r]
    split
    · rw [show s₁.mem = back.mem from rfl, show s₁.sp = back.sp from rfl, hregisters r,
        UInt64.ofNat_toNat]
    · obtain rfl : r = 30 := Fin.ext (by show r.val = 30; omega)
      have hlr : s₁.x 30 = UInt64.ofNat (load 8 back.mem (back.sp.toNat + 240)) :=
        Function.update_self 30 _ back.x
      have hword : x 30 = UInt64.ofNat (load 8 back.mem (back.sp.toNat + 240)) := by
        rw [← UInt64.ofNat_toNat (x := x 30), ← hregisters 30]
        rfl
      rw [hlr, hword]
  subst hsame
  -- all but the return are straight
  let s₂ : Cpu := { s₁ with pc := pc, x := x' }
  let s₃ : Cpu := { s₂.next with sp := back.sp + 256 }
  have hsplit : kernelExit =
      (.ldrSp 30 (.ofNat 240) :: (restorePairs 15 le_rfl ++ [.addSp 256])) ++ [.eret] := rfl
  rw [hsplit] at hcode
  have hstraight : execAll (.ldrSp 30 (.ofNat 240) :: (restorePairs 15 le_rfl ++ [.addSp 256]))
      back = some s₃ := by
    rw [execAll, hfirst, Option.bind_some, execAll_append, hexec, Option.bind_some, execAll]
    exact (congrArg (Option.bind · (execAll [])) (if_pos hown)).trans rfl
  obtain ⟨hsteps, hpc⟩ := steps_straight hcode.append_left (by decide) hstraight
  refine hsteps.trans (Steps.single (hpc ▸ hcode.append_right).1 ?_)
  show s₃.eret = _
  rw [Cpu.eret, show s₃.pstate = back.pstate from rfl, hown.1, if_neg (by decide), if_pos rfl,
    show s₃.sys = back.sys from rfl, hspsr, Pstate.ofSpsr_toSpsr, if_pos hp]
  rfl

end Frame

/-! ## The vectors -/

/-- The exceptions that the kernel handles. -/
inductive Exception where
  | sync
  | irq
  deriving DecidableEq

/-- The offset of its vector, for an exception that is taken from EL1 on the stack of EL1. -/
def Exception.offset : Exception → UInt64
  | .sync => 0x200
  | .irq => 0x280

section Vectors

variable {code : Code} {s s' : Cpu}

/-- The handler that is called for an exception. -/
def Vectors.handler (v : Vectors code) : Exception → UInt64
  | .sync => v.handleSyncException
  | .irq => v.handleIrqException

/-- `exceptions_init` returns to its caller and leaves the table as the vectors. -/
theorem exceptionsInit_steps (v : Vectors code) (hpc : s.pc = v.init)
    (hlevel : 1 ≤ s.pstate.el) : Steps code s
    { s with pc := s.x 30, x := Function.update s.x 0 v.table,
             sys := Function.update s.sys .vbarEl1 v.table } := by
  obtain ⟨h₁, h₂, h₃, h₄, -⟩ := v.exceptionsInit
  rw [← hpc] at h₁ h₂ h₃ h₄
  have hlr : Function.update s.x 0 v.table 30 = s.x 30 := Function.update_of_ne (by decide) ..
  have hzero : Function.update s.x 0 v.table 0 = v.table := Function.update_self ..
  refine .cons h₁ rfl (.cons h₂ (if_pos hlevel) (.cons h₃ rfl (Steps.single h₄ ?_)))
  rw [← hlr]
  nth_rewrite 3 [← hzero]
  rfl

/-- The kernel runs at EL1 on its own stack, with the table as the vectors and with room for a trap
frame. -/
structure Interruptible (v : Vectors code) (s : Cpu) : Prop where
  vbar : s.sys .vbarEl1 = v.table
  own : s.OwnStack
  align : s.sp.toNat % 16 = 0
  room : 256 ≤ s.sp.toNat

/-- The vector of an exception leads to the code around its handler. -/
theorem vector_steps (v : Vectors code) (e : Exception) (hpc : s.pc = v.table + e.offset) :
    ∃ pc, Steps code s { s with pc := pc } ∧ Loaded code pc (el1h (v.handler e)) := by
  cases e with
  | sync =>
      refine ⟨v.syncEl1h, Steps.single (i := .b v.syncEl1h) ?_ rfl, v.sync⟩
      rw [hpc]
      exact v.ventry 4 (by decide)
  | irq =>
      refine ⟨v.irqEl1h, Steps.single (i := .b v.irqEl1h) ?_ rfl, v.irq⟩
      rw [hpc]
      exact v.ventry 5 (by decide)

/-- An exception calls its handler with the syndrome, the address of the interrupted instruction,
the fault address and the trap frame. -/
theorem takeException_steps (v : Vectors code) (e : Exception) (hs : Interruptible v s)
    (syndrome fault : UInt64) : ∃ called : Cpu,
    Steps code (s.takeException e.offset syndrome fault) called ∧ called.pc = v.handler e ∧
    called.x 0 = syndrome ∧ called.x 1 = s.pc ∧ called.x 2 = fault ∧ called.x 3 = called.sp ∧
    called.sys .elrEl1 = s.pc ∧ called.sys .spsrEl1 = s.pstate.toSpsr ∧ TrapFrame s called ∧
    Loaded code (called.x 30) kernelExit := by
  have hvector : (s.takeException e.offset syndrome fault).pc = v.table + e.offset := by
    rw [← hs.vbar]
    rfl
  obtain ⟨pc, hsteps, hcode⟩ := vector_steps v e hvector
  let taken : Cpu := { s.takeException e.offset syndrome fault with pc := pc }
  obtain ⟨called, hcalls, hpc, h₀, h₁, h₂, h₃, hsys, -, hframe, hexit⟩ :=
    el1h_calls (s := taken) hcode ⟨hs.own.1, rfl⟩ hs.align hs.room
  refine ⟨called, hsteps.trans hcalls, hpc, h₀, h₁, h₂, h₃, ?_, ?_,
    ⟨hframe.sp, hframe.registers, hframe.outside⟩, hexit⟩
  · rw [hsys]
    rfl
  · rw [hsys]
    rfl

/-- An exception calls its handler with the syndrome, the address of the interrupted instruction,
the fault address and the registers in a trap frame, and touches no memory but this frame. Whenever
the handler returns, the interrupted code goes on with all its registers, its stack pointer and its
process state as they were. -/
theorem exception_transparent (v : Vectors code) (e : Exception) (hs : Interruptible v s)
    (syndrome fault : UInt64) : ∃ called : Cpu,
    Steps code (s.takeException e.offset syndrome fault) called ∧ called.pc = v.handler e ∧
    called.x 0 = syndrome ∧ called.x 1 = s.pc ∧ called.x 2 = fault ∧ called.x 3 = called.sp ∧
    TrapFrame s called ∧
    ∀ back, Returned called back →
      Steps code back { back with x := s.x, sp := s.sp, pc := s.pc, pstate := s.pstate } := by
  obtain ⟨called, hsteps, hpc, h₀, h₁, h₂, h₃, helr, hspsr, hframe, hexit⟩ :=
    takeException_steps v e hs syndrome fault
  refine ⟨called, hsteps, hpc, h₀, h₁, h₂, h₃, hframe, fun back hback ↦ ?_⟩
  have hlt := s.sp.toNat_lt
  have hroom := hs.room
  have halign := hs.align
  have hsp : back.sp.toNat = s.sp.toNat - 256 := by
    rw [hback.sp, hframe.sp]
  have hregisters : ∀ r : Fin 31, load 8 back.mem (back.sp.toNat + 8 * r) = (s.x r).toNat :=
    fun r ↦ by
      rw [← hframe.registers r, hback.sp]
      exact (hback.frame.mono (by omega) (by omega)).load
  have hreturn := kernelExit_steps (x := s.x) (p := s.pstate) (hback.pc ▸ hexit) hback.own
    (by omega) (by omega) hregisters (hback.spsr.trans hspsr) hs.own.1.le
  have htop : back.sp + 256 = s.sp := by
    refine UInt64.toNat_inj.mp ?_
    rw [UInt64.toNat_add, hsp]
    show (s.sp.toNat - 256 + 256) % 2 ^ 64 = s.sp.toNat
    omega
  rw [htop, hback.elr, helr] at hreturn
  exact hreturn

/-- An interrupt right after `exceptions_init` returned. -/
theorem exception_transparent_irq : ∃ ready called : Cpu,
    Steps vectorsImage
      { kernelCpu 0x40080000 with x := fun _ ↦ 0x40085000, sys := fun _ ↦ 0 } ready ∧
    Steps vectorsImage (ready.takeException 0x280 0 0) called ∧
    called.pc = 0x40091000 ∧ called.x 1 = 0x40085000 := by
  let cold : Cpu := { kernelCpu 0x40080000 with x := fun _ ↦ 0x40085000, sys := fun _ ↦ 0 }
  let ready : Cpu := { cold with
    pc := cold.x 30, x := Function.update cold.x 0 0x40080800,
    sys := Function.update cold.sys .vbarEl1 0x40080800 }
  have hready : Steps vectorsImage cold ready :=
    exceptionsInit_steps vectorsImage.vectors rfl (by decide)
  obtain ⟨called, hsteps, hpc, -, helr, -⟩ := exception_transparent vectorsImage.vectors .irq
    (s := ready) ⟨rfl, by decide, by decide, by decide⟩ 0 0
  exact ⟨ready, called, hready, hsteps, hpc, helr⟩

/-- The other vectors put an `E` into the register of the UART and never leave the loop behind it:
no more than the program counter ever changes. -/
theorem invalid_vectors_hang (v : Vectors code) {k : Nat} (hk : k < 16) (hsync : k ≠ 4)
    (hirq : k ≠ 5) (hpc : s.pc = v.table + 128 * UInt64.ofNat k) : ∃ stuck : Cpu,
    Steps code s stuck ∧ stuck.mem = store 4 s.mem v.uart.toNat 69 ∧ stuck.sys = s.sys ∧
    stuck.sp = s.sp ∧ ∀ s', Steps code stuck s' →
      (s' = stuck ∨ s' = { stuck with pc := stuck.pc + 4 }) ∧ (step code s').isSome := by
  have hvector := v.ventry k hk
  rw [if_neg hsync, if_neg hirq, ← hpc] at hvector
  obtain ⟨h₁, h₂, h₃, h₄, h₅, -⟩ := v.invalidHandler
  let stuck : Cpu := { s with
    pc := v.invalid + 12, x := Function.update (Function.update s.x 4 v.uart) 5 69,
    mem := store 4 s.mem v.uart.toNat 69 }
  have htwelve : v.invalid + 4 + 4 + 4 = v.invalid + 12 := by
    grind
  rw [htwelve] at h₄ h₅
  refine ⟨stuck, ?_, rfl, rfl, rfl, fun s' hs' ↦ steps_wait h₄ h₅ hs'⟩
  let s₁ : Cpu := { s with pc := v.invalid }
  let s₂ : Cpu := (s₁.setX 4 v.uart).next
  let s₃ : Cpu := (s₂.setX 5 69).next
  refine .cons (t := s₁) hvector rfl (.cons (t := s₂) h₁ rfl (.cons (t := s₃) h₂ rfl
    (Steps.single h₃ ?_)))
  have huart : s₃.x 4 = v.uart := by
    simp [s₃, s₂, s₁, Cpu.setX, Cpu.next]
  have hletter : s₃.x 5 = 69 := s₂.setX_self 5 69
  have hpc₃ : s₃.pc + 4 = v.invalid + 12 := htwelve
  rw [exec, huart, hletter, Cpu.next, hpc₃]
  rfl

theorem invalid_vectors_hang_first : ∃ stuck : Cpu,
    Steps vectorsImage (kernelCpu 0x40080800) stuck ∧ stuck.sp = 0x40100000 :=
  let ⟨stuck, hsteps, _, _, hsp, _⟩ := invalid_vectors_hang vectorsImage.vectors (k := 0)
    (by decide) (by decide) (by decide) (s := kernelCpu 0x40080800) (by decide +kernel)
  ⟨stuck, hsteps, hsp⟩

end Vectors

end Aether.Arch
