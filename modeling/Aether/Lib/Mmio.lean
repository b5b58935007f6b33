import Aether.Lib.Wp

/-!
# Drivers and the registers of devices

A device is what accesses to its registers do, one after the other. Whatever it does by itself
happens within the next access, so that a statement about all devices is one about all timings. What
a driver may rely on is said of a `view` of the device's states: `Reads` and `Writes` describe a
register, `Idle` and `Busy` a wait.
-/

namespace Mmio

open Program

variable {R V S G : Type}

/-- What a device does: the value that a read returns, and the state after an access. An access to
something that is no register faults. -/
structure Device (R V S : Type) where
  read : S → R → Option (V × S)
  write : S → R → V → Option S

namespace Device

/-! ## Programs -/

section Programs

variable (dev : Device R V S) (r : R)

/-- Read a register. -/
def readReg : StateT S Option V := fun s ↦ dev.read s r

/-- Write a register. -/
def writeReg (v : V) : StateT S Option Unit := fun s ↦ (dev.write s r v).map fun t ↦ ((), t)

/-- Read a register and write what `f` makes of it. -/
def modifyReg (f : V → V) : StateT S Option Unit := do
  let v ← dev.readReg r
  dev.writeReg r (f v)

/-- Read a register for as long as it is busy. The result is `none` when that outlasts the turns. -/
def spin (busy : V → Bool) : Nat → StateT S Option Unit
  | 0 => fun _ ↦ none
  | turns + 1 => do
      let v ← dev.readReg r
      if busy v then spin busy turns else pure ()

/-- Read a register until it is not busy, as often as the timeout says. The result is what is left
of the timeout. -/
def waitFor (busy : V → Bool) : Nat → StateT S Option Nat
  | 0 => pure 0
  | timeout + 1 => do
      let v ← dev.readReg r
      if busy v then waitFor busy timeout else pure (timeout + 1)

end Programs

/-! ## Waits -/

/-- The first `n` reads find the register busy and the next one does not. It leads to the last
state. -/
inductive Idle (dev : Device R V S) (r : R) (busy : V → Bool) : Nat → S → S → Prop where
  | now {s t : S} {v : V} : dev.read s r = some (v, t) → busy v = false → Idle dev r busy 0 s t
  | later {n : Nat} {s s' t : S} {v : V} : dev.read s r = some (v, s') → busy v = true →
      Idle dev r busy n s' t → Idle dev r busy (n + 1) s t

/-- `n` reads find the register busy. -/
inductive Busy (dev : Device R V S) (r : R) (busy : V → Bool) : Nat → S → S → Prop where
  | none {s : S} : Busy dev r busy 0 s s
  | later {n : Nat} {s s' t : S} {v : V} : dev.read s r = some (v, s') → busy v = true →
      Busy dev r busy n s' t → Busy dev r busy (n + 1) s t

section Waits

variable {dev : Device R V S} {r : R} {busy : V → Bool} {n turns timeout : Nat} {s t : S}

theorem run_readReg_bind {α : Type} {f : V → StateT S Option α} {v : V}
    (h : dev.read s r = some (v, t)) : (dev.readReg r >>= f).run s = (f v).run t :=
  run_bind_of_run h

theorem run_writeReg {v : V} (h : dev.write s r v = some t) :
    (dev.writeReg r v).run s = some ((), t) := by
  show (dev.write s r v).map _ = _
  rw [h]
  rfl

/-- A loop ends after the reads that find the register busy. -/
theorem Idle.spin_run (h : dev.Idle r busy n s t) (hturns : n < turns) :
    (dev.spin r busy turns).run s = some ((), t) := by
  induction h generalizing turns with
  | now hread hbusy =>
      obtain ⟨turns, rfl⟩ := Nat.exists_eq_succ_of_ne_zero (Nat.ne_zero_of_lt hturns)
      rw [spin, run_readReg_bind hread, hbusy]
      rfl
  | later hread hbusy _ ih =>
      obtain ⟨turns, rfl⟩ := Nat.exists_eq_succ_of_ne_zero (Nat.ne_zero_of_lt hturns)
      rw [spin, run_readReg_bind hread, hbusy, if_pos rfl]
      exact ih (Nat.lt_of_succ_lt_succ hturns)

/-- In time, a wait ends with what is left. -/
theorem Idle.waitFor_run (h : dev.Idle r busy n s t) (htimeout : n < timeout) :
    (dev.waitFor r busy timeout).run s = some (timeout - n, t) := by
  induction h generalizing timeout with
  | now hread hbusy =>
      obtain ⟨timeout, rfl⟩ := Nat.exists_eq_succ_of_ne_zero (Nat.ne_zero_of_lt htimeout)
      rw [waitFor, run_readReg_bind hread, hbusy]
      rfl
  | @later n _ _ _ _ hread hbusy _ ih =>
      obtain ⟨timeout, rfl⟩ := Nat.exists_eq_succ_of_ne_zero (Nat.ne_zero_of_lt htimeout)
      rw [waitFor, run_readReg_bind hread, hbusy, if_pos rfl, Nat.succ_eq_add_one,
        Nat.add_sub_add_right]
      exact ih (Nat.lt_of_succ_lt_succ htimeout)

/-- Late, nothing is left. -/
theorem Busy.waitFor_run (h : dev.Busy r busy timeout s t) :
    (dev.waitFor r busy timeout).run s = some (0, t) := by
  induction h with
  | none => rfl
  | later hread hbusy _ ih =>
      rw [waitFor, run_readReg_bind hread, hbusy, if_pos rfl]
      exact ih

/-- A register that can be read is not busy any more at one of the next reads, or busy at all. -/
theorem idle_or_busy (P : S → Prop) (hread : ∀ s, P s → ∃ v t, dev.read s r = some (v, t) ∧ P t)
    (timeout : Nat) (hs : P s) :
    (∃ n < timeout, ∃ t, dev.Idle r busy n s t ∧ P t) ∨ ∃ t, dev.Busy r busy timeout s t ∧ P t := by
  induction timeout generalizing s with
  | zero => exact .inr ⟨s, .none, hs⟩
  | succ timeout ih =>
      obtain ⟨v, t, hv, ht⟩ := hread s hs
      cases hbusy : busy v with
      | false => exact .inl ⟨0, Nat.succ_pos _, t, .now hv hbusy, ht⟩
      | true =>
          rcases ih ht with ⟨n, hn, u, hidle, hu⟩ | ⟨u, hall, hu⟩
          · exact .inl ⟨n + 1, Nat.succ_lt_succ hn, u, .later hv hbusy hidle, hu⟩
          · exact .inr ⟨u, .later hv hbusy hall, hu⟩

/-- The last read of a wait that ends in time. -/
theorem Idle.exists_read (h : dev.Idle r busy n s t) :
    ∃ u v, dev.read u r = some (v, t) ∧ busy v = false := by
  induction h with
  | now hread hbusy => exact ⟨_, _, hread, hbusy⟩
  | later _ _ _ ih => exact ih

/-- A wait for a register that can be read keeps what reads keep. Nothing is left if and only if all
reads found it busy; otherwise the last one did not. -/
theorem wp_waitFor (P : S → Prop) (hread : ∀ s, P s → ∃ v t, dev.read s r = some (v, t) ∧ P t)
    (hs : P s) : wp (dev.waitFor r busy timeout)
      (fun left t ↦ P t ∧ (left = 0 ∧ dev.Busy r busy timeout s t ∨
        left ≠ 0 ∧ ∃ u v, dev.read u r = some (v, t) ∧ busy v = false)) s := by
  rcases idle_or_busy P hread timeout hs with ⟨n, hn, t, hidle, ht⟩ | ⟨t, hall, ht⟩
  · exact (wp_of_run (hidle.waitFor_run hn)).mpr
      ⟨ht, .inr ⟨Nat.sub_ne_zero_of_lt hn, hidle.exists_read⟩⟩
  · exact (wp_of_run hall.waitFor_run).mpr ⟨ht, .inl ⟨rfl, hall⟩⟩

end Waits

/-! ## What is known of a register -/

/-- A read of the register returns what the view shows, and changes nothing of it. -/
def Reads (dev : Device R V S) (view : S → G) (r : R) (get : G → V) : Prop :=
  ∀ s, ∃ t, dev.read s r = some (get (view s), t) ∧ view t = view s

/-- A write of the register changes the view. -/
def Writes (dev : Device R V S) (view : S → G) (r : R) (set : V → G → G) : Prop :=
  ∀ s v, ∃ t, dev.write s r v = some t ∧ view t = set v (view s)

section Registers

variable {dev : Device R V S} {view : S → G} {r : R} {get : G → V} {set : V → G → G} {s : S}

theorem Reads.wp {post : V → S → Prop} (h : dev.Reads view r get)
    (hpost : ∀ t, view t = view s → post (get (view s)) t) : wp (dev.readReg r) post s := by
  obtain ⟨t, hread, hview⟩ := h s
  exact (wp_of_run (x := dev.readReg r) hread).mpr (hpost t hview)

theorem Writes.wp {post : Unit → S → Prop} {v : V} (h : dev.Writes view r set)
    (hpost : ∀ t, view t = set v (view s) → post () t) : wp (dev.writeReg r v) post s := by
  obtain ⟨t, hwrite, hview⟩ := h s v
  exact (wp_of_run (run_writeReg hwrite)).mpr (hpost t hview)

/-- Both together. -/
theorem Reads.wp_modifyReg {post : Unit → S → Prop} {f : V → V} (h : dev.Reads view r get)
    (h' : dev.Writes view r set)
    (hpost : ∀ t, view t = set (f (get (view s))) (view s) → post () t) :
    Program.wp (dev.modifyReg r f) post s := by
  rw [modifyReg, wp_bind]
  refine h.wp fun t hview ↦ h'.wp fun u hu ↦ hpost u ?_
  rw [hu, hview]

end Registers

end Device

end Mmio
