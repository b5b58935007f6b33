import Aether.Arch.Vectors
import Aether.Drivers.Uart

/-!
# The report of a synchronous exception

`exception.c`: what `handle_sync_exception` prints before it stops, from the trap frame that the
vector leaves. `report_determines` says that the report of a fault tells where it happened and what
was in each register.
-/

namespace Aether.Kernel

open Ascii ByteMemory AArch64 Aether.Drivers Aether.Arch

/-! ## The report -/

/-- The text for an exception class, and for a data abort the one for its status code. -/
def conditionText (ec iss : UInt32) : List UInt8 :=
  if ec = 0x00 then uartPuts (text "Unknown/Undefined Instruction")
  else if ec = 0x21 then uartPuts (text "Instruction Abort (Lower EL)")
  else if ec = 0x25 then
    uartPuts (text "Data Abort (EL1)") ++
    (if iss &&& 0x3F = 0x05 then uartPuts (text " [Translation Fault Level 1]") else []) ++
    (if iss &&& 0x3F = 0x06 then uartPuts (text " [Translation Fault Level 2]") else []) ++
    if iss &&& 0x3F = 0x0F then uartPuts (text " [Permission Fault Level 3]") else []
  else if ec = 0x3C then uartPuts (text "Breakpoint")
  else uartPuts (text "Other Syndrome: ") ++ uartPutHex ec.toUInt64

/-- One turn of the loop over the registers. -/
def registerText (i : Fin 31) (v : UInt64) : Option (List UInt8) := do
  let number ← uartPutInt (UInt32.ofNat i)
  pure (uartPuts (text "x") ++ (if i.val < 10 then uartPuts (text "0") else []) ++ number ++
    uartPuts (text ": ") ++ uartPutHex v ++
    if (i.val + 1) % 2 = 0 then uartPuts (text "\r\n") else uartPuts (text "    "))

/-- `handle_sync_exception`: what it prints before its endless loop. -/
def handleSyncException (esr elr far : UInt64) (frame : Fin 31 → UInt64) :
    Option (List UInt8) := do
  let ec := ((esr >>> 26) &&& 0x3F).toUInt32
  let iss := (esr &&& 0xFFFFFF).toUInt32
  let registers ← (List.finRange 31).mapM fun i ↦ registerText i (frame i)
  pure (uartPuts (text "\r\n--- [!!!] KERNEL PANIC: SYNCHRONOUS ABORT [!!!] ---\r\n") ++
    uartPuts (text "Condition: ") ++ conditionText ec iss ++
    uartPuts (text "\r\nESR_EL1: ") ++ uartPutHex esr ++
    uartPuts (text "\r\nFAR_EL1: ") ++ uartPutHex far ++
    uartPuts (text "\r\nELR_EL1: ") ++ uartPutHex elr ++
    uartPuts (text "\r\n") ++
    uartPuts (text "\r\n--- General Purpose Registers ---\r\n") ++
    registers.flatten ++
    uartPuts (text "\r\n\r\nLR (x30): ") ++ uartPutHex (frame 30) ++
    uartPuts (text "\r\n--------------------------------------------------\r\n"))

/-! ## Reading it back -/

section Report

variable {esr esr' elr elr' far far' : UInt64} {frame frame' : Fin 31 → UInt64}
variable {out : List UInt8}

/-- What goes around the digits of a register. -/
theorem registerText_eq (i : Fin 31) : ∃ before behind, ∀ v,
    registerText i v = some (before ++ (uartPutHex v ++ behind)) := by
  refine ⟨uartPuts (text "x") ++ (if i.val < 10 then uartPuts (text "0") else []) ++
    decimal (UInt32.ofNat i).toNat ++ uartPuts (text ": "),
    if (i.val + 1) % 2 = 0 then uartPuts (text "\r\n") else uartPuts (text "    "), fun v ↦ ?_⟩
  rw [registerText, uartPutInt_eq]
  simp only [List.append_assoc]
  rfl

/-- The pieces of two texts that are cut in the same places are the same. -/
theorem flatMap_pieces {α β γ : Type*} {l : List α} {f : α → β → List γ} {g g' : α → β}
    (hlength : ∀ a b b', (f a b).length = (f a b').length)
    (h : l.flatMap (fun a ↦ f a (g a)) = l.flatMap fun a ↦ f a (g' a)) :
    ∀ a ∈ l, f a (g a) = f a (g' a) := by
  induction l with
  | nil => exact fun a ha ↦ absurd ha List.not_mem_nil
  | cons b l ih =>
      rw [List.flatMap_cons, List.flatMap_cons] at h
      obtain ⟨hhead, htail⟩ := List.append_inj h (hlength b (g b) (g' b))
      intro a ha
      rcases List.mem_cons.mp ha with rfl | ha
      · exact hhead
      · exact ih htail a ha

/-- The part of the report that is laid out the same for all exceptions. -/
theorem handleSyncException_eq : ∃ (label : Fin 31 → List UInt8) (ending : Fin 31 → List UInt8)
    (a b c d e f : List UInt8), ∀ esr elr far frame, ∃ condition,
    handleSyncException esr elr far frame = some (condition ++ (a ++ (uartPutHex esr ++ (b ++
      (uartPutHex far ++ (c ++ (uartPutHex elr ++ (d ++
      ((List.finRange 31).flatMap (fun i ↦ label i ++ (uartPutHex (frame i) ++ ending i)) ++
      (e ++ (uartPutHex (frame 30) ++ f))))))))))) := by
  choose label ending hregister using registerText_eq
  refine ⟨label, ending, uartPuts (text "\r\nESR_EL1: "), uartPuts (text "\r\nFAR_EL1: "),
    uartPuts (text "\r\nELR_EL1: "),
    uartPuts (text "\r\n") ++ uartPuts (text "\r\n--- General Purpose Registers ---\r\n"),
    uartPuts (text "\r\n\r\nLR (x30): "),
    uartPuts (text "\r\n--------------------------------------------------\r\n"),
    fun esr elr far frame ↦ ?_⟩
  refine ⟨uartPuts (text "\r\n--- [!!!] KERNEL PANIC: SYNCHRONOUS ABORT [!!!] ---\r\n") ++
    uartPuts (text "Condition: ") ++
    conditionText ((esr >>> 26) &&& 0x3F).toUInt32 (esr &&& 0xFFFFFF).toUInt32, ?_⟩
  have hregisters : (List.finRange 31).mapM (fun i ↦ registerText i (frame i)) =
      some ((List.finRange 31).map fun i ↦ label i ++ (uartPutHex (frame i) ++ ending i)) := by
    rw [funext fun i ↦ hregister i (frame i)]
    exact List.mapM_pure
  rw [handleSyncException, hregisters, List.flatMap_def]
  simp only [List.append_assoc]
  rfl

/-- The report tells the syndrome, both addresses and all registers. -/
theorem handleSyncException_injective
    (h : handleSyncException esr elr far frame = handleSyncException esr' elr' far' frame') :
    esr = esr' ∧ elr = elr' ∧ far = far' ∧ frame = frame' := by
  obtain ⟨label, ending, a, b, c, d, e, f, hreport⟩ := handleSyncException_eq
  obtain ⟨condition, hcondition⟩ := hreport esr elr far frame
  obtain ⟨condition', hcondition'⟩ := hreport esr' elr' far' frame'
  rw [hcondition, hcondition'] at h
  have hregisters : ∀ (g g' : Fin 31 → UInt64),
      ((List.finRange 31).flatMap fun i ↦ label i ++ (uartPutHex (g i) ++ ending i)).length =
        ((List.finRange 31).flatMap fun i ↦ label i ++ (uartPutHex (g' i) ++ ending i)).length :=
    fun g g' ↦ by simp only [List.length_flatMap, List.length_append, length_uartPutHex]
  -- behind the condition everything has its place
  have htail := List.append_inj_right' (Option.some_inj.mp h) (by
    simp only [List.length_append, length_uartPutHex, hregisters frame frame'])
  obtain ⟨hesr, htail⟩ := List.append_inj (List.append_cancel_left htail) rfl
  obtain ⟨hfar, htail⟩ := List.append_inj (List.append_cancel_left htail) rfl
  obtain ⟨helr, htail⟩ := List.append_inj (List.append_cancel_left htail) rfl
  have hframe := (List.append_inj (List.append_cancel_left htail) (hregisters frame frame')).1
  refine ⟨uartPutHex_injective hesr, uartPutHex_injective helr, uartPutHex_injective hfar, ?_⟩
  funext i
  have hpiece := flatMap_pieces (f := fun i v ↦ label i ++ (uartPutHex v ++ ending i))
    (fun i v v' ↦ by simp only [List.length_append, length_uartPutHex]) hframe i
    (List.mem_finRange i)
  exact uartPutHex_injective (List.append_cancel_right (List.append_cancel_left hpiece))

/-- The report comes to an end: every number of a register fits. -/
theorem handleSyncException_isSome (esr elr far : UInt64) (frame : Fin 31 → UInt64) :
    ∃ report, handleSyncException esr elr far frame = some report := by
  obtain ⟨_, _, _, _, _, _, _, _, hreport⟩ := handleSyncException_eq
  obtain ⟨_, hreport⟩ := hreport esr elr far frame
  exact ⟨_, hreport⟩

end Report

/-! ## The fault of the machine -/

section Fault

variable {code : Code} {s : Cpu}

/-- A synchronous exception of the kernel leads to its handler, and what the handler prints for its
arguments tells the syndrome, the fault address, the instruction at fault and all the registers
there: no other fault has the same report. -/
theorem report_determines (v : Vectors code) (hs : Interruptible v s) (syndrome fault : UInt64) :
    ∃ (called : Cpu) (report : List UInt8),
    Steps code (s.takeException Exception.sync.offset syndrome fault) called ∧
    called.pc = v.handleSyncException ∧
    handleSyncException (called.x 0) (called.x 1) (called.x 2) (fun r ↦
      UInt64.ofNat (load 8 called.mem ((called.x 3).toNat + 8 * r))) = some report ∧
    ∀ (s' : Cpu) (syndrome' fault' : UInt64),
      handleSyncException syndrome' s'.pc fault' s'.x = some report →
      syndrome' = syndrome ∧ fault' = fault ∧ s'.pc = s.pc ∧ s'.x = s.x := by
  obtain ⟨called, hsteps, hpc, h₀, h₁, h₂, h₃, -, -, hframe, -⟩ :=
    takeException_steps v .sync hs syndrome fault
  have hregisters : (fun r : Fin 31 ↦
      UInt64.ofNat (load 8 called.mem ((called.x 3).toNat + 8 * r))) = s.x := by
    funext r
    rw [h₃, hframe.registers r, UInt64.ofNat_toNat]
  obtain ⟨report, hreport⟩ := handleSyncException_isSome syndrome s.pc fault s.x
  refine ⟨called, report, hsteps, hpc, ?_, fun s' syndrome' fault' hsame ↦ ?_⟩
  · rw [h₀, h₁, h₂, hregisters, hreport]
  · obtain ⟨hsyndrome, hpc', hfault, hx⟩ :=
      handleSyncException_injective (hsame.trans hreport.symm)
    exact ⟨hsyndrome, hfault, hpc', hx⟩

theorem report_determines_abort : ∃ (called : Cpu) (report : List UInt8),
    Steps vectorsImage ((kernelCpu 0x40085000).takeException 0x200 0x96000005 8) called ∧
    ∀ s' : Cpu, handleSyncException 0x96000005 s'.pc 8 s'.x = some report → s'.pc = 0x40085000 :=
  let ⟨called, report, hsteps, _, _, hunique⟩ := report_determines vectorsImage.vectors
    (s := kernelCpu 0x40085000) ⟨rfl, by decide, by decide, by decide⟩ 0x96000005 8
  ⟨called, report, hsteps, fun s' hs' ↦ (hunique s' 0x96000005 8 hs').2.2.1⟩

end Fault

end Aether.Kernel
