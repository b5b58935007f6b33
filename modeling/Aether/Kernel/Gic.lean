import Aether.Kernel.Interrupts
import Aether.Lib.Mmio
import Mathlib.Tactic.IntervalCases

/-!
# The interrupt controller

`gic_init` on the `virt` board, register by register, on any device. `Gicv3` is what the driver may
rely on: a distributor, the redistributors of the cores one behind the other, and the interface of
the core that runs. Controllers differ in the bits that can be written, so that these are a
parameter. `timer_signalled` says whose interrupt the driver lets through.
-/

namespace Aether.Kernel

open Program

/-! ## The driver -/

/-- A register by its address and its width in bytes, or a system register. -/
inductive GicRegister where
  | mem (addr : UInt64) (width : Nat)
  | iccSreEl1
  | iccPmrEl1
  | iccIgrpen1El1
  deriving DecidableEq

/-- `GIC_DIST_BASE`. -/
def gicDistBase : UInt64 := 0x08000000

section Driver

variable {S : Type} (dev : Mmio.Device GicRegister UInt64 S)

/-- A register of 32 bits is read and written. -/
def modify32 (addr : UInt64) (f : UInt32 → UInt32) : StateT S Option Unit :=
  dev.modifyReg (.mem addr 4) fun v ↦ (f v.toUInt32).toUInt64

/-- The search for the redistributor of the core in `gic_init`. -/
def redistLoop (aff : UInt32) : Nat → UInt64 → StateT S Option UInt64
  | 0, _ => fun _ ↦ none
  | turns + 1, redistBase => do
      let typer ← dev.readReg (.mem (redistBase + 0x08) 8)
      if typer >>> 32 = aff.toUInt64 then pure redistBase
      else if typer &&& (1 : UInt64) <<< 4 ≠ 0 then pure redistBase
      else redistLoop aff turns (redistBase + 0x20000)

/-- The timer's interrupt in `gic_init`: group, priority, trigger, and enabled. -/
def timerConfig (sgiBase : UInt64) : StateT S Option Unit := do
  modify32 dev (sgiBase + 0x080) (· ||| (1 : UInt32) <<< timerIrqId)
  modify32 dev (sgiBase + 0x088) (· &&& ~~~((1 : UInt32) <<< timerIrqId))
  dev.writeReg (.mem (sgiBase + 0x400 + timerIrqId.toUInt64) 1) 0xA0
  modify32 dev (sgiBase + 0xC04) (· ||| (2 : UInt32) <<< (timerIrqId % 16 * 2))
  dev.writeReg (.mem (sgiBase + 0x100) 4) ((1 : UInt32) <<< timerIrqId).toUInt64

/-- The interface of the core in `gic_init`. -/
def cpuInterface : StateT S Option Unit := do
  dev.modifyReg .iccSreEl1 (· ||| 0x7)
  dev.writeReg .iccPmrEl1 0xFF
  dev.writeReg .iccIgrpen1El1 1

/-- `gic_init`, where `mpidr` is what `mpidr_el1` reads as. -/
def gicInit (turns : Nat) (mpidr : UInt64) : StateT S Option Unit := do
  dev.writeReg (.mem gicDistBase 4) ((1 : UInt64) <<< 4 ||| (1 : UInt64) <<< 5 |||
    (1 : UInt64) <<< 0 ||| (1 : UInt64) <<< 1)
  let aff := (mpidr &&& 0xFFFFFF).toUInt32
  let redistBase ← redistLoop dev aff turns (gicDistBase + 0xA0000)
  let waker := redistBase + 0x14
  modify32 dev waker (· &&& ~~~((1 : UInt32) <<< 1))
  dev.spin (.mem waker 4) (fun v ↦ v &&& (1 : UInt64) <<< 2 ≠ 0) turns
  timerConfig dev (redistBase + 0x10000)
  cpuInterface dev

end Driver

/-! ## What a controller is -/

/-- What a redistributor holds for its core: whether it sleeps, and for each private interrupt a
bit for its group, one for the group's modifier and one for enabled, two bits for the trigger of the
numbers from 16 on, and a priority. -/
structure Redistributor where
  sleep : Bool
  group : UInt32
  modifier : UInt32
  enabled : UInt32
  config : UInt32
  priority : Nat → UInt8

/-- The controller as the core that runs can see it. -/
structure Gic where
  ctlr : UInt32
  frames : Nat → Redistributor
  sre : UInt64
  pmr : UInt64
  igrpen1 : UInt64

/-- One redistributor is changed. -/
def Gic.setFrame (g : Gic) (i : Nat) (r : Redistributor) : Gic :=
  { g with frames := Function.update g.frames i r }

@[simp] theorem Gic.setFrame_frames (g : Gic) (i : Nat) (r : Redistributor) :
    (g.setFrame i r).frames i = r := Function.update_self ..

@[simp] theorem Gic.setFrame_setFrame (g : Gic) (i : Nat) (r r' : Redistributor) :
    (g.setFrame i r).setFrame i r' = g.setFrame i r' := by
  simp [Gic.setFrame]

/-- Where the registers of a redistributor start. -/
def frameBase (i : Nat) : UInt64 := gicDistBase + 0xA0000 + 0x20000 * UInt64.ofNat i

/-- The bits of the registers that a write changes. -/
structure Writable where
  ctlr : UInt32
  group : UInt32
  modifier : UInt32
  enabled : UInt32
  config : UInt32
  priority : UInt8
  sre : UInt64
  pmr : UInt64

/-- What a register of 32 bits holds after a write. -/
def merge (writable held v : UInt32) : UInt32 := (held &&& ~~~writable) ||| (v &&& writable)

/-- What a register of 64 bits holds after a write. -/
def merge64 (writable held v : UInt64) : UInt64 := (held &&& ~~~writable) ||| (v &&& writable)

/-- What `view` shows of the states of a device is a controller with redistributors that identify
themselves by `typer`. One that is told not to sleep takes any number of reads to wake up. Bits that
cannot be written keep what they hold, which is zero for priorities, and for the modifier of the
timer's interrupt. The interface of the core is there once its system registers are in use, which
may be so from the start. -/
structure Gicv3 {S : Type} (dev : Mmio.Device GicRegister UInt64 S) (view : S → Gic)
    (count : Nat) (typer : Nat → UInt64) (w : Writable) : Prop where
  ctlr : dev.Writes view (.mem gicDistBase 4) fun v g ↦
    { g with ctlr := merge w.ctlr g.ctlr v.toUInt32 }
  typer : ∀ i < count, dev.Reads view (.mem (frameBase i + 0x08) 8) fun _ ↦ typer i
  waker : ∀ i < count, ∀ s, ∃ v t, dev.read s (.mem (frameBase i + 0x14) 4) = some (v, t) ∧
    view t = view s
  sleep : ∀ i < count, dev.Writes view (.mem (frameBase i + 0x14) 4) fun v g ↦
    g.setFrame i { g.frames i with sleep := v &&& 2 ≠ 0 }
  wakes : ∀ i < count, ∀ s, ((view s).frames i).sleep = false → ∃ n t,
    dev.Idle (.mem (frameBase i + 0x14) 4) (fun v ↦ v &&& (1 : UInt64) <<< 2 ≠ 0) n s t ∧
      view t = view s
  group_read : ∀ i < count, dev.Reads view (.mem (frameBase i + 0x10000 + 0x080) 4) fun g ↦
    (g.frames i).group.toUInt64
  group : ∀ i < count, dev.Writes view (.mem (frameBase i + 0x10000 + 0x080) 4) fun v g ↦
    g.setFrame i { g.frames i with group := merge w.group (g.frames i).group v.toUInt32 }
  modifier_read : ∀ i < count, dev.Reads view (.mem (frameBase i + 0x10000 + 0x088) 4) fun g ↦
    (g.frames i).modifier.toUInt64
  modifier : ∀ i < count, dev.Writes view (.mem (frameBase i + 0x10000 + 0x088) 4) fun v g ↦
    g.setFrame i { g.frames i with
      modifier := merge w.modifier (g.frames i).modifier v.toUInt32 }
  modifier_clear : ∀ i < count, ∀ s, w.modifier.toNat.testBit 30 ∨
    ¬ ((view s).frames i).modifier.toNat.testBit 30
  priority : ∀ i < count, ∀ k < 32,
    dev.Writes view (.mem (frameBase i + 0x10000 + 0x400 + UInt64.ofNat k) 1) fun v g ↦
      g.setFrame i { g.frames i with
        priority := Function.update (g.frames i).priority k (v.toUInt8 &&& w.priority) }
  config_read : ∀ i < count, dev.Reads view (.mem (frameBase i + 0x10000 + 0xC04) 4) fun g ↦
    (g.frames i).config.toUInt64
  config : ∀ i < count, dev.Writes view (.mem (frameBase i + 0x10000 + 0xC04) 4) fun v g ↦
    g.setFrame i { g.frames i with config := merge w.config (g.frames i).config v.toUInt32 }
  enable : ∀ i < count, dev.Writes view (.mem (frameBase i + 0x10000 + 0x100) 4) fun v g ↦
    g.setFrame i { g.frames i with
      enabled := (g.frames i).enabled ||| (v.toUInt32 &&& w.enabled) }
  sre_read : dev.Reads view .iccSreEl1 Gic.sre
  sre : dev.Writes view .iccSreEl1 fun v g ↦ { g with sre := merge64 w.sre g.sre v }
  sre_set : ∀ s, w.sre.toNat.testBit 0 ∨ (view s).sre.toNat.testBit 0
  pmr : ∀ s v, (view s).sre.toNat.testBit 0 → ∃ t, dev.write s .iccPmrEl1 v = some t ∧
    view t = { view s with pmr := v &&& w.pmr }
  igrpen1 : ∀ s v, (view s).sre.toNat.testBit 0 → ∃ t, dev.write s .iccIgrpen1El1 v = some t ∧
    view t = { view s with igrpen1 := v &&& 1 }

/-- What has to be there for the timer's interrupt: Group 1 and the interrupt can be enabled, the
interrupt can be put into Group 1, and priorities have four bits at least. -/
structure Writable.Suffices (w : Writable) : Prop where
  ctlr : w.ctlr.toNat.testBit 1
  group : w.group.toNat.testBit 30
  enabled : w.enabled.toNat.testBit 30
  priority : 0xF0 &&& w.priority = 0xF0
  pmr : 0xF0 &&& w.pmr = 0xF0

/-- The controller lets a private interrupt through to the core of a redistributor: the distributor
and the core let Group 1 through, the redistributor is awake, and the interrupt is in Group 1, is
enabled and has a priority above the mask. -/
structure Gic.Signals (g : Gic) (i id : Nat) : Prop where
  distributor : g.ctlr.toNat.testBit 1
  core : g.igrpen1.toNat.testBit 0
  awake : (g.frames i).sleep = false
  group : (g.frames i).group.toNat.testBit id
  modifier : ¬ (g.frames i).modifier.toNat.testBit id
  enabled : (g.frames i).enabled.toNat.testBit id
  priority : ((g.frames i).priority id).toNat < g.pmr.toNat

/-- Two redistributors hold the same for an interrupt. -/
structure Redistributor.SameFor (r r' : Redistributor) (id : Nat) : Prop where
  group : r.group.toNat.testBit id = r'.group.toNat.testBit id
  modifier : r.modifier.toNat.testBit id = r'.modifier.toNat.testBit id
  enabled : r.enabled.toNat.testBit id = r'.enabled.toNat.testBit id
  priority : r.priority id = r'.priority id
  trigger : ∀ b < 2, 16 ≤ id →
    r.config.toNat.testBit (2 * (id - 16) + b) = r'.config.toNat.testBit (2 * (id - 16) + b)

/-! ## The search -/

/-- The search ends at a redistributor. -/
def Stops (typer : Nat → UInt64) (aff : UInt32) (i : Nat) : Prop :=
  typer i >>> 32 = aff.toUInt64 ∨ typer i &&& (1 : UInt64) <<< 4 ≠ 0

instance (typer : Nat → UInt64) (aff : UInt32) (i : Nat) : Decidable (Stops typer aff i) :=
  inferInstanceAs (Decidable (_ ∨ _))

theorem frameBase_succ (i : Nat) : frameBase (i + 1) = frameBase i + 0x20000 := by
  rw [frameBase, frameBase, UInt64.ofNat_add]
  grind

section Init

variable {S : Type} {dev : Mmio.Device GicRegister UInt64 S} {view : S → Gic} {count : Nat}
  {typer : Nat → UInt64} {w : Writable} {s : S}

/-- The search reads one redistributor after the other up to the one where it ends. -/
theorem Gicv3.redistLoop_run (h : Gicv3 dev view count typer w) {aff : UInt32} {i j : Nat}
    (hij : i ≤ j) (hj : j < count) (hstop : Stops typer aff j)
    (hbefore : ∀ k, i ≤ k → k < j → ¬ Stops typer aff k) (s : S) : ∃ t, view t = view s ∧
      ∀ turns, j - i < turns → (redistLoop dev aff turns (frameBase i)).run s =
        some (frameBase j, t) := by
  induction hdistance : j - i generalizing i s with
  | zero =>
      obtain rfl : i = j := by omega
      obtain ⟨t, hread, hview⟩ := h.typer i hj s
      refine ⟨t, hview, fun turns hturns ↦ ?_⟩
      obtain ⟨turns, rfl⟩ := Nat.exists_eq_succ_of_ne_zero (Nat.ne_zero_of_lt hturns)
      rw [redistLoop, Mmio.Device.run_readReg_bind hread]
      rcases hstop with hown | hlast
      · rw [if_pos hown]
        rfl
      · rw [if_pos hlast, ite_self]
        rfl
  | succ n ih =>
      obtain ⟨t, hread, hview⟩ := h.typer i (by omega) s
      obtain ⟨u, hu, hrest⟩ := ih (i := i + 1) (by omega) (fun k hk ↦ hbefore k (by omega)) t
        (by omega)
      refine ⟨u, hu.trans hview, fun turns hturns ↦ ?_⟩
      obtain ⟨turns, rfl⟩ := Nat.exists_eq_succ_of_ne_zero (Nat.ne_zero_of_lt hturns)
      obtain ⟨hother, hmore⟩ := not_or.mp (hbefore i le_rfl (by omega))
      rw [redistLoop, Mmio.Device.run_readReg_bind hread, if_neg hother, if_neg hmore,
        ← frameBase_succ]
      exact hrest turns (by omega)

/-! ## The registers -/

theorem wp_modify32 {addr : UInt64} {get : Gic → UInt32} {set : UInt64 → Gic → Gic}
    {f : UInt32 → UInt32} {post : Unit → S → Prop}
    (h : dev.Reads view (.mem addr 4) fun g ↦ (get g).toUInt64)
    (h' : dev.Writes view (.mem addr 4) set)
    (hpost : ∀ t, view t = set (f (get (view s))).toUInt64 (view s) → post () t) :
    wp (modify32 dev addr f) post s := by
  refine h.wp_modifyReg h' fun t ht ↦ hpost t ?_
  rwa [UInt32.toUInt32_toUInt64] at ht

/-- What `gic_init` makes of a redistributor. -/
def Redistributor.programmed (r : Redistributor) (w : Writable) : Redistributor where
  sleep := false
  group := merge w.group r.group (r.group ||| (1 : UInt32) <<< timerIrqId)
  modifier := merge w.modifier r.modifier (r.modifier &&& ~~~((1 : UInt32) <<< timerIrqId))
  enabled := r.enabled ||| ((1 : UInt32) <<< timerIrqId &&& w.enabled)
  config := merge w.config r.config (r.config ||| (2 : UInt32) <<< 28)
  priority := Function.update r.priority 30 (0xA0 &&& w.priority)

/-- The redistributor is told to wake up. -/
theorem wakeMask (v : UInt32) :
    (v &&& ~~~((1 : UInt32) <<< 1)).toUInt64 &&& 2 = 0 := by
  have hmask : (~~~((1 : UInt32) <<< 1)) &&& 2 = 0 := by decide
  show (v &&& ~~~((1 : UInt32) <<< 1)).toUInt64 &&& (2 : UInt32).toUInt64 = 0
  rw [← UInt32.toUInt64_and, UInt32.and_assoc, hmask, UInt32.and_zero]
  rfl

/-- The timer's interrupt is configured. -/
theorem Gicv3.wp_timerConfig (h : Gicv3 dev view count typer w) {j : Nat} (hj : j < count) :
    wp (timerConfig dev (frameBase j + 0x10000)) (fun _ t ↦ view t =
      (view s).setFrame j { ((view s).frames j).programmed w with
        sleep := ((view s).frames j).sleep }) s := by
  rw [timerConfig, wp_bind]
  refine wp_modify32 (h.group_read j hj) (h.group j hj) fun t₁ h₁ ↦ ?_
  rw [wp_bind]
  refine wp_modify32 (h.modifier_read j hj) (h.modifier j hj) fun t₂ h₂ ↦ ?_
  rw [wp_bind]
  refine (h.priority j hj 30 (by decide)).wp fun t₃ h₃ ↦ ?_
  rw [wp_bind]
  refine wp_modify32 (h.config_read j hj) (h.config j hj) fun t₄ h₄ ↦ ?_
  refine (h.enable j hj).wp fun t₅ h₅ ↦ ?_
  simp only [UInt32.toUInt32_toUInt64] at h₁ h₂ h₃ h₄ h₅
  rw [h₅, h₄, h₃, h₂, h₁]
  simp only [Gic.setFrame_frames, Gic.setFrame_setFrame]
  rfl

/-- The system registers are in use. -/
theorem testBit_merge64 {writable held : UInt64}
    (h : writable.toNat.testBit 0 ∨ held.toNat.testBit 0) :
    (merge64 writable held (held ||| 0x7)).toNat.testBit 0 := by
  have hnot : (~~~writable).toNat.testBit 0 = !writable.toNat.testBit 0 := by
    show (~~~writable).toBitVec.getLsbD 0 = !writable.toBitVec.getLsbD 0
    rw [UInt64.toBitVec_not, BitVec.getLsbD_not]
    rfl
  rw [merge64, UInt64.toNat_or, UInt64.toNat_and, UInt64.toNat_and, UInt64.toNat_or,
    Nat.testBit_or, Nat.testBit_and, Nat.testBit_and, Nat.testBit_or, hnot]
  rcases h with h | h
  · rw [h]
    simp
  · rw [h]
    cases writable.toNat.testBit 0 <;> rfl

/-- The core lets Group 1 through. -/
theorem Gicv3.wp_cpuInterface (h : Gicv3 dev view count typer w) :
    wp (cpuInterface dev) (fun _ t ↦ view t = { view s with
      sre := merge64 w.sre (view s).sre ((view s).sre ||| 0x7), pmr := 0xFF &&& w.pmr
      igrpen1 := 1 }) s := by
  rw [cpuInterface, wp_bind]
  refine h.sre_read.wp_modifyReg h.sre fun t₁ h₁ ↦ ?_
  have hused : (view t₁).sre.toNat.testBit 0 := by
    rw [h₁]
    exact testBit_merge64 (h.sre_set s)
  obtain ⟨t₂, hmask, h₂⟩ := h.pmr t₁ 0xFF hused
  obtain ⟨t₃, hgroup, h₃⟩ := h.igrpen1 t₂ 1 (by rwa [h₂])
  rw [wp_bind]
  refine (wp_of_run (Mmio.Device.run_writeReg hmask)).mpr ?_
  refine (wp_of_run (Mmio.Device.run_writeReg hgroup)).mpr ?_
  rw [h₃, h₂, h₁]
  rfl

/-- `gic_init` returns, whatever the controller held. -/
theorem Gicv3.gicInit_run (h : Gicv3 dev view count typer w) {mpidr : UInt64} {j : Nat}
    (hj : j < count) (hstop : Stops typer (mpidr &&& 0xFFFFFF).toUInt32 j)
    (hbefore : ∀ k < j, ¬ Stops typer (mpidr &&& 0xFFFFFF).toUInt32 k) (s : S) :
    ∃ n t, view t = ⟨merge w.ctlr (view s).ctlr 0x33, Function.update (view s).frames j
        (((view s).frames j).programmed w), merge64 w.sre (view s).sre ((view s).sre ||| 0x7),
          0xFF &&& w.pmr, 1⟩ ∧
      ∀ turns, n < turns → (gicInit dev turns mpidr).run s = some ((), t) := by
  obtain ⟨s₁, hctlr, hview₁⟩ := h.ctlr s 0x33
  obtain ⟨s₂, hview₂, hsearch⟩ := h.redistLoop_run (Nat.zero_le j) hj hstop
    (fun k _ ↦ hbefore k) s₁
  -- the redistributor is told to wake up, and does
  obtain ⟨v, s₃, hwaker, hview₃⟩ := h.waker j hj s₂
  obtain ⟨s₄, hsleep, hview₄⟩ := h.sleep j hj s₃ (v.toUInt32 &&& ~~~((1 : UInt32) <<< 1)).toUInt64
  dsimp only at hview₄
  rw [wakeMask] at hview₄
  obtain ⟨n, s₅, hidle, hview₅⟩ := h.wakes j hj s₄ (by rw [hview₄]; simp)
  obtain ⟨_, s₆, htimer, hview₆⟩ := h.wp_timerConfig hj (s := s₅)
  obtain ⟨_, s₇, hcore, hview₇⟩ := h.wp_cpuInterface (s := s₆)
  refine ⟨max j n, s₇, ?_, fun turns hturns ↦ ?_⟩
  · rw [hview₇, hview₆, hview₅, hview₄, hview₃, hview₂, hview₁]
    simp only [Gic.setFrame_frames, Gic.setFrame_setFrame]
    rfl
  · have hdistributor : (dev.writeReg (.mem gicDistBase 4) 0x33).run s = some ((), s₁) :=
      Mmio.Device.run_writeReg hctlr
    have hmodify : (modify32 dev (frameBase j + 0x14) (· &&& ~~~((1 : UInt32) <<< 1))).run s₂ =
        some ((), s₄) := by
      rw [modify32, Mmio.Device.modifyReg, Mmio.Device.run_readReg_bind hwaker]
      exact Mmio.Device.run_writeReg hsleep
    have hspin := hidle.spin_run (show _ < turns by omega)
    have hstart := hsearch turns (by omega)
    rw [gicInit]
    refine (run_bind_of_run hdistributor).trans ((run_bind_of_run hstart).trans ?_)
    exact (run_bind_of_run hmodify).trans ((run_bind_of_run hspin).trans
      ((run_bind_of_run htimer).trans hcore))

end Init

/-! ## Bits -/

section Bits

variable {writable held v word : UInt32} {w : Writable} {id : Nat}

theorem testBit_eq (word : UInt32) (k : Nat) : word.toNat.testBit k = word.toBitVec.getLsbD k := rfl

/-- A bit is written if it can be. -/
theorem testBit_merge (hid : id < 32) : (merge writable held v).toNat.testBit id =
    if writable.toNat.testBit id then v.toNat.testBit id else held.toNat.testBit id := by
  have hnot : (~~~writable).toNat.testBit id = !writable.toNat.testBit id := by
    rw [testBit_eq, UInt32.toBitVec_not, BitVec.getLsbD_not, decide_eq_true hid, Bool.true_and,
      testBit_eq]
  rw [merge, UInt32.toNat_or, UInt32.toNat_and, UInt32.toNat_and, Nat.testBit_or, Nat.testBit_and,
    Nat.testBit_and, hnot]
  cases writable.toNat.testBit id <;> simp

/-- A bit that is written as it is stays so. -/
theorem testBit_merge_same (hid : id < 32) (hsame : v.toNat.testBit id = held.toNat.testBit id) :
    (merge writable held v).toNat.testBit id = held.toNat.testBit id := by
  rw [testBit_merge hid, hsame, ite_self]

/-- One bit is set. -/
theorem testBit_or_timer :
    (word ||| (1 : UInt32) <<< timerIrqId).toNat.testBit id =
      (word.toNat.testBit id || decide (30 = id)) := by
  have hbit : ((1 : UInt32) <<< timerIrqId).toNat = 2 ^ 30 := rfl
  rw [UInt32.toNat_or, Nat.testBit_or, hbit, Nat.testBit_two_pow]

/-- One bit is cleared. -/
theorem testBit_and_not_timer (hid : id < 32) :
    (word &&& ~~~((1 : UInt32) <<< timerIrqId)).toNat.testBit id =
      (word.toNat.testBit id && !decide (30 = id)) := by
  have hbit : ((1 : UInt32) <<< timerIrqId).toNat = 2 ^ 30 := rfl
  rw [UInt32.toNat_and, Nat.testBit_and, testBit_eq (~~~_), UInt32.toBitVec_not, BitVec.getLsbD_not,
    ← testBit_eq, hbit, Nat.testBit_two_pow, decide_eq_true hid, Bool.true_and]

/-- One bit is enabled, if it is there. -/
theorem testBit_enable : (held ||| ((1 : UInt32) <<< timerIrqId &&& writable)).toNat.testBit id =
    (held.toNat.testBit id || (decide (30 = id) && writable.toNat.testBit id)) := by
  have hbit : ((1 : UInt32) <<< timerIrqId).toNat = 2 ^ 30 := rfl
  rw [UInt32.toNat_or, Nat.testBit_or, UInt32.toNat_and, Nat.testBit_and, hbit,
    Nat.testBit_two_pow]

/-- One trigger bit is set. -/
theorem testBit_or_trigger : (word ||| (2 : UInt32) <<< 28).toNat.testBit id =
    (word.toNat.testBit id || decide (29 = id)) := by
  have hbit : ((2 : UInt32) <<< 28).toNat = 2 ^ 29 := rfl
  rw [UInt32.toNat_or, Nat.testBit_or, hbit, Nat.testBit_two_pow]

/-- Nothing changes for the other interrupts. -/
theorem Redistributor.programmed_sameFor (r : Redistributor) (w : Writable) (hid : id < 32)
    (hne : id ≠ 30) : (r.programmed w).SameFor r id := by
  have hother : decide (30 = id) = false := decide_eq_false fun heq ↦ hne heq.symm
  constructor
  · refine testBit_merge_same hid ?_
    rw [testBit_or_timer, hother, Bool.or_false]
  · refine testBit_merge_same hid ?_
    rw [testBit_and_not_timer hid, hother, Bool.not_false, Bool.and_true]
  · rw [Redistributor.programmed, testBit_enable, hother, Bool.false_and, Bool.or_false]
  · exact Function.update_of_ne hne _ _
  · intro b hb hlow
    have hpair : decide (29 = 2 * (id - 16) + b) = false := decide_eq_false (by omega)
    refine testBit_merge_same (by omega) ?_
    rw [testBit_or_trigger, hpair, Bool.or_false]

/-- Four bits of a priority are enough for that of the timer's interrupt to be above the mask. -/
theorem Writable.Suffices.priority_lt (hw : w.Suffices) :
    (0xA0 &&& w.priority).toNat < (0xFF &&& w.pmr).toNat := by
  have hpriority : 0xA0 &&& w.priority = 0xA0 := by
    have hbits : (0xA0 : UInt8) = 0xA0 &&& 0xF0 := rfl
    rw [hbits, UInt8.and_assoc, hw.priority]
  have hmask : (0xFF &&& w.pmr) &&& 0xF0 = 0xF0 := by
    have hbits : (0xFF : UInt64) &&& 0xF0 = 0xF0 := rfl
    rw [UInt64.and_assoc, UInt64.and_comm w.pmr, ← UInt64.and_assoc, hbits, hw.pmr]
  rw [hpriority]
  have hle : ((0xFF &&& w.pmr) &&& 0xF0).toNat ≤ (0xFF &&& w.pmr).toNat := by
    rw [UInt64.toNat_and]
    exact Nat.and_le_left
  rw [hmask] at hle
  exact Nat.lt_of_lt_of_le (by decide) hle

end Bits

/-! ## Whose interrupt it is -/

/-- What the redistributor of a core shows of `mpidr_el1`: the four levels of affinity. -/
def coreAffinity (mpidr : UInt64) : UInt64 :=
  ((mpidr >>> 32) &&& 0xFF) <<< 24 ||| (mpidr &&& 0xFFFFFF)

theorem toNat_coreAffinity (mpidr : UInt64) : (coreAffinity mpidr).toNat =
    2 ^ 24 * ((mpidr >>> 32) &&& 0xFF).toNat + (mpidr &&& 0xFFFFFF).toNat := by
  have hhigh : ((mpidr >>> 32) &&& 0xFF).toNat < 2 ^ 8 :=
    Nat.lt_of_le_of_lt (UInt64.toNat_and .. ▸ Nat.and_le_right) (by decide)
  have hlow : (mpidr &&& 0xFFFFFF).toNat < 2 ^ 24 :=
    Nat.lt_of_le_of_lt (UInt64.toNat_and .. ▸ Nat.and_le_right) (by decide)
  have hshift : (24 : UInt64).toNat % 64 = 24 := rfl
  rw [coreAffinity, UInt64.toNat_or, UInt64.toNat_shiftLeft, hshift, Nat.shiftLeft_eq,
    Nat.mod_eq_of_lt (by omega), Nat.mul_comm, Nat.two_pow_add_eq_or_of_lt hlow]

/-- The driver compares three of them. -/
theorem coreAffinity_eq_iff (mpidr : UInt64) :
    coreAffinity mpidr = (mpidr &&& 0xFFFFFF).toUInt32.toUInt64 ↔ (mpidr >>> 32) &&& 0xFF = 0 := by
  have hlow : (mpidr &&& 0xFFFFFF).toNat < 2 ^ 24 :=
    Nat.lt_of_le_of_lt (UInt64.toNat_and .. ▸ Nat.and_le_right) (by decide)
  rw [← UInt64.toNat_inj, ← UInt64.toNat_inj, toNat_coreAffinity, UInt32.toNat_toUInt64,
    UInt64.toNat_toUInt32, Nat.mod_eq_of_lt (by omega)]
  show _ ↔ _ = 0
  omega

/-- Where the redistributors of the controller end with the one that says so, one of them is the
core's own, and the bits that the timer's interrupt needs can be written: `gic_init` returns, lets the timer's interrupt through at one redistributor, and changes
nothing for other interrupts there and nothing of the others. It is the core's own exactly if the
highest level of affinity is zero, or it is the last one and none before it has the other levels. -/
theorem timer_signalled {S : Type} (dev : Mmio.Device GicRegister UInt64 S) (view : S → Gic)
    (count : Nat) (typer : Nat → UInt64) (w : Writable) (h : Gicv3 dev view count typer w)
    (hw : w.Suffices)
    (hlast : ∀ i < count, typer i &&& (1 : UInt64) <<< 4 ≠ 0 ↔ i + 1 = count) (mpidr : UInt64)
    (k : Nat) (hk : k < count) (hown : ∀ i < count, typer i >>> 32 = coreAffinity mpidr ↔ i = k)
    (s : S) : ∃ j < count, ∃ n t,
      (∀ turns, n < turns → (gicInit dev turns mpidr).run s = some ((), t)) ∧
      (view t).Signals j 30 ∧
      (w.config.toNat.testBit 29 → ((view t).frames j).config.toNat.testBit 29) ∧
      (∀ i, i ≠ j → (view t).frames i = (view s).frames i) ∧
      (∀ id < 32, id ≠ 30 → ((view t).frames j).SameFor ((view s).frames j) id) ∧
      (j = k ↔ (mpidr >>> 32) &&& 0xFF = 0 ∨ k + 1 = count ∧
        ∀ i < k, typer i >>> 32 ≠ (mpidr &&& 0xFFFFFF).toUInt32.toUInt64) := by
  have hends : ∃ j, j < count ∧ Stops typer (mpidr &&& 0xFFFFFF).toUInt32 j :=
    ⟨count - 1, by omega, .inr ((hlast (count - 1) (by omega)).mpr (by omega))⟩
  classical
  obtain ⟨hj, hstop⟩ := Nat.find_spec hends
  have hbefore : ∀ i < Nat.find hends, ¬ Stops typer (mpidr &&& 0xFFFFFF).toUInt32 i :=
    fun i hi hstops ↦ Nat.find_min hends hi ⟨by omega, hstops⟩
  generalize Nat.find hends = j at hj hstop hbefore
  obtain ⟨n, t, hview, hrun⟩ := h.gicInit_run hj hstop hbefore s
  have hframe : (view t).frames j = ((view s).frames j).programmed w := by
    rw [hview]
    exact Function.update_self ..
  refine ⟨j, hj, n, t, hrun, ?_, fun hfree ↦ ?_, fun i hi ↦ ?_, fun id hid hne ↦ ?_, ?_⟩
  · refine ⟨?_, ?_, ?_, ?_, ?_, ?_, ?_⟩
    · rw [hview, testBit_merge (by decide), if_pos hw.ctlr]
      decide
    · have hcore : (view t).igrpen1 = 1 := by rw [hview]
      rw [hcore]
      decide
    · rw [hframe]
      rfl
    · rw [hframe, Redistributor.programmed, testBit_merge (by decide), if_pos hw.group,
        testBit_or_timer, decide_eq_true rfl, Bool.or_true]
    · rw [hframe, Redistributor.programmed, testBit_merge (by decide)]
      by_cases hwritable : w.modifier.toNat.testBit 30
      · rw [if_pos hwritable, testBit_and_not_timer (by decide), decide_eq_true rfl,
          Bool.not_true, Bool.and_false]
        exact Bool.false_ne_true
      · rw [if_neg hwritable]
        exact (h.modifier_clear j hj s).resolve_left hwritable
    · rw [hframe, Redistributor.programmed, testBit_enable, hw.enabled, decide_eq_true rfl,
        Bool.true_and, Bool.or_true]
    · have hpriority : ((view t).frames j).priority 30 = 0xA0 &&& w.priority := by
        rw [hframe]
        exact Function.update_self (30 : Nat) (0xA0 &&& w.priority) ((view s).frames j).priority
      rw [hpriority, hview]
      exact hw.priority_lt
  · rw [hframe, Redistributor.programmed, testBit_merge (by decide), if_pos hfree,
      testBit_or_trigger, decide_eq_true rfl, Bool.or_true]
  · rw [hview]
    exact Function.update_of_ne hi _ _
  · rw [hframe]
    exact Redistributor.programmed_sameFor _ w hid hne
  · rw [← coreAffinity_eq_iff]
    constructor
    · rintro rfl
      by_cases hthree : coreAffinity mpidr = (mpidr &&& 0xFFFFFF).toUInt32.toUInt64
      · exact .inl hthree
      · refine .inr ⟨?_, fun i hi heq ↦ hbefore i hi (.inl heq)⟩
        rcases hstop with hsame | hend
        · exact absurd (((hown j hj).mpr rfl).symm.trans hsame) hthree
        · exact (hlast j hj).mp hend
    · intro hcase
      have hstopOwn : Stops typer (mpidr &&& 0xFFFFFF).toUInt32 k := by
        rcases hcase with hthree | ⟨hend, -⟩
        · exact .inl (((hown k hk).mpr rfl).trans hthree)
        · exact .inr ((hlast k hk).mpr hend)
      have hle : j ≤ k := not_lt.mp fun hlt ↦ hbefore k hlt hstopOwn
      rcases hstop with hsame | hend
      · rcases hcase with hthree | ⟨-, hnone⟩
        · exact (hown j hj).mp (hsame.trans hthree.symm)
        · exact hle.antisymm (not_lt.mp fun hlt ↦ hnone j hlt hsame)
      · have hcount := (hlast j hj).mp hend
        omega

/-- How the redistributors of two cores identify themselves. -/
def twoCores (i : Nat) : UInt64 := if i = 0 then 0 else 0x100000010

/-- What can be written in a controller with one security state: nothing of the modifiers, nothing
of the use of the system registers, and the triggers of half of the interrupts. -/
def oneState : Writable where
  ctlr := 0x3
  group := 0xFFFFFFFF
  modifier := 0
  enabled := 0xFFFFFFFF
  config := 0xFFFF0000
  priority := 0xFF
  sre := 0
  pmr := 0xFF

/-- A controller for two cores that wake up at once. -/
def Gic.twoCores : Mmio.Device GicRegister UInt64 Gic where
  read g
    | .iccSreEl1 => some (7, g)
    | .iccPmrEl1 => some (g.pmr, g)
    | .iccIgrpen1El1 => some (g.igrpen1, g)
    | .mem addr _ =>
        let distance := addr.toNat - 0x080A0000
        let i := distance / 0x20000
        let r := g.frames i
        match distance % 0x20000 with
        | 0x08 => some (Kernel.twoCores i, g)
        | 0x14 => some (if r.sleep then 6 else 0, g)
        | 0x10080 => some (r.group.toUInt64, g)
        | 0x10088 => some (0, g)
        | 0x10C04 => some (r.config.toUInt64, g)
        | _ => none
  write g
    | .iccSreEl1, _ => some g
    | .iccPmrEl1, v => some { g with pmr := v &&& 0xFF }
    | .iccIgrpen1El1, v => some { g with igrpen1 := v &&& 1 }
    | .mem addr width, v =>
        if addr = gicDistBase then some { g with ctlr := merge 0x3 g.ctlr v.toUInt32 }
        else
          let distance := addr.toNat - 0x080A0000
          let i := distance / 0x20000
          let r := g.frames i
          match distance % 0x20000 with
          | 0x14 => some (g.setFrame i { r with sleep := v &&& 2 ≠ 0 })
          | 0x10080 => some (g.setFrame i
              { r with group := merge 0xFFFFFFFF r.group v.toUInt32 })
          | 0x10088 => some g
          | 0x10C04 => some (g.setFrame i
              { r with config := merge 0xFFFF0000 r.config v.toUInt32 })
          | 0x10100 => some (g.setFrame i
              { r with enabled := r.enabled ||| (v.toUInt32 &&& 0xFFFFFFFF) })
          | offset =>
              if width = 1 then some (g.setFrame i { r with
                priority := Function.update r.priority (offset - 0x10400) (v.toUInt8 &&& 0xFF) })
              else none

/-- What it shows of a redistributor: no modifiers. -/
def Redistributor.shown (r : Redistributor) : Redistributor := { r with modifier := 0 }

/-- What it shows of itself: the system registers are in use. -/
def Gic.shown (g : Gic) : Gic := { g with sre := 7, frames := fun i ↦ (g.frames i).shown }

theorem Gic.shown_setFrame (g : Gic) (i : Nat) (r : Redistributor) :
    (g.setFrame i r).shown = g.shown.setFrame i r.shown := by
  unfold shown setFrame
  congr 1
  funext k
  exact Function.apply_update (fun _ ↦ Redistributor.shown) g.frames i r k

theorem Gic.setFrame_self (g : Gic) (i : Nat) : g.setFrame i (g.frames i) = g := by
  unfold setFrame
  rw [Function.update_eq_self]

theorem Gic.twoCores_gicv3 : Gicv3 Gic.twoCores Gic.shown 2 Kernel.twoCores oneState where
  ctlr _ _ := ⟨_, rfl, rfl⟩
  typer i hi := by interval_cases i <;> exact fun _ ↦ ⟨_, rfl, rfl⟩
  waker i hi g := ⟨if (g.frames i).sleep then 6 else 0, g, by interval_cases i <;> rfl, rfl⟩
  sleep i hi := by interval_cases i <;> exact fun _ _ ↦ ⟨_, rfl, Gic.shown_setFrame ..⟩
  wakes i hi g hawake := by
    have hvalue : (if (g.frames i).sleep then (6 : UInt64) else 0) = 0 := by
      rw [show (g.frames i).sleep = false from hawake]
      rfl
    refine ⟨0, g, .now (v := if (g.frames i).sleep then 6 else 0) ?_ ?_, rfl⟩
    · interval_cases i <;> rfl
    · rw [hvalue]
      rfl
  group_read i hi := by interval_cases i <;> exact fun _ ↦ ⟨_, rfl, rfl⟩
  group i hi := by interval_cases i <;> exact fun _ _ ↦ ⟨_, rfl, Gic.shown_setFrame ..⟩
  modifier_read i hi := by interval_cases i <;> exact fun _ ↦ ⟨_, rfl, rfl⟩
  modifier i hi := by
    have hzero : ∀ v : UInt32, merge 0 0 v = 0 := fun v ↦ by simp [merge]
    intro g v
    refine ⟨g, ?_, ?_⟩
    · interval_cases i <;> rfl
    show g.shown = g.shown.setFrame i { g.shown.frames i with modifier := merge 0 0 v.toUInt32 }
    rw [hzero]
    exact (g.shown.setFrame_self i).symm
  modifier_clear i hi g := .inr (by
    show ¬ (0 : UInt32).toNat.testBit 30
    decide)
  priority i hi k hk g v := by
    refine ⟨g.setFrame i { g.frames i with
      priority := Function.update (g.frames i).priority k (v.toUInt8 &&& 0xFF) }, ?_,
      g.shown_setFrame ..⟩
    interval_cases i <;> interval_cases k <;> rfl
  config_read i hi := by interval_cases i <;> exact fun _ ↦ ⟨_, rfl, rfl⟩
  config i hi := by interval_cases i <;> exact fun _ _ ↦ ⟨_, rfl, Gic.shown_setFrame ..⟩
  enable i hi := by interval_cases i <;> exact fun _ _ ↦ ⟨_, rfl, Gic.shown_setFrame ..⟩
  sre_read _ := ⟨_, rfl, rfl⟩
  sre g v := by
    refine ⟨g, rfl, ?_⟩
    have hsame : merge64 0 7 v = 7 := by simp [merge64]
    show g.shown = { g.shown with sre := merge64 0 7 v }
    rw [hsame]
    rfl
  sre_set _ := .inr (show (7 : UInt64).toNat.testBit 0 by decide)
  pmr _ _ _ := ⟨_, rfl, rfl⟩
  igrpen1 _ _ _ := ⟨_, rfl, rfl⟩

/-- The second of the cores. -/
theorem timer_signalled_second : ∃ n t, (∀ turns, n < turns →
    (gicInit Gic.twoCores turns 0x80000001).run
      ⟨0, fun _ ↦ ⟨true, 0, 0, 0, 0, fun _ ↦ 0⟩, 0, 0, 0⟩ = some ((), t)) ∧
    t.shown.Signals 1 30 := by
  obtain ⟨j, -, n, t, hrun, hsignals, -, -, -, hown⟩ := timer_signalled Gic.twoCores Gic.shown 2
    Kernel.twoCores oneState Gic.twoCores_gicv3
    ⟨by decide, by decide, by decide, by decide, by decide⟩ (by decide) 0x80000001 1 (by decide)
    (by decide) ⟨0, fun _ ↦ ⟨true, 0, 0, 0, 0, fun _ ↦ 0⟩, 0, 0, 0⟩
  obtain rfl := hown.mpr (.inl (by decide))
  exact ⟨n, t, hrun, hsignals⟩

end Aether.Kernel
