import Aether.Drivers.Uart
import Aether.Lib.Mmio

/-!
# The serial line

The functions of `uart.c` that touch the device, on any PL011 with a line of any speed and a user
who types at any time. `console_exact` says that what the kernel prints goes out byte by byte, and
that it reads what the device took in: nothing is lost, doubled or out of order. Some devices drop
what their FIFOs hold when `uart_init` enables them, so that the account starts after it.
-/

namespace Aether.Drivers

open Program

/-! ## The driver -/

/-- The registers of the device. -/
inductive UartRegister where
  | dr
  | fr
  | ibrd
  | fbrd
  | lcrh
  | cr
  | imsc
  | icr
  deriving DecidableEq

/-- What the kernel does with the console: it prints a byte or a text, or looks for a key. -/
inductive ConsoleOp where
  | put (c : UInt8)
  | puts (str : List UInt8)
  | key
  deriving DecidableEq

section Driver

variable {S : Type} (dev : Mmio.Device UartRegister UInt32 S)

/-- `uart_init` on the `virt` board. -/
def uartInit : StateT S Option Unit := do
  dev.writeReg .cr 0x0
  dev.writeReg .imsc 0x0
  dev.writeReg .icr 0x7FF
  dev.writeReg .ibrd 26
  dev.writeReg .fbrd 3
  dev.writeReg .lcrh ((1 : UInt32) <<< 4 ||| (3 : UInt32) <<< 5)
  dev.writeReg .cr ((1 : UInt32) <<< 9 ||| (1 : UInt32) <<< 8 ||| 1)

/-- `uart_is_writable` returns zero for this value of the flag register. -/
def txFull (fr : UInt32) : Bool := fr &&& (1 : UInt32) <<< 5 ≠ 0

/-- `uart_is_empty` does not return zero for this value of the flag register. -/
def rxEmpty (fr : UInt32) : Bool := fr &&& (1 : UInt32) <<< 4 ≠ 0

/-- `uart_putc`. -/
def uartPutc (turns : Nat) (c : UInt8) : StateT S Option Unit := do
  dev.spin .fr txFull turns
  dev.writeReg .dr c.toUInt32

/-- A carriage return goes before a line feed. -/
def carriageReturn (turns : Nat) (c : UInt8) : StateT S Option Unit :=
  if c = 10 then uartPutc dev turns 13 else pure ()

/-- The accesses of `uart_puts`. -/
def putString (turns : Nat) : List UInt8 → StateT S Option Unit
  | [] => pure ()
  | c :: str => do
      carriageReturn dev turns c
      uartPutc dev turns c
      putString turns str

/-- `uart_getc`. -/
def uartGetc (turns : Nat) : StateT S Option UInt8 := do
  dev.spin .fr rxEmpty turns
  let v ← dev.readReg .dr
  pure (v &&& 0xFF).toUInt8

/-- The main loop looks for a key. -/
def pollKey (turns : Nat) : StateT S Option (Option UInt8) := do
  let fr ← dev.readReg .fr
  if rxEmpty fr then pure none
  else
    let c ← uartGetc dev turns
    pure (some c)

/-- The keys that the kernel gets when it does one thing after the other. -/
def consoleRun (turns : Nat) : List ConsoleOp → StateT S Option (List UInt8)
  | [] => pure []
  | .put c :: ops => do
      uartPutc dev turns c
      consoleRun turns ops
  | .puts str :: ops => do
      putString dev turns str
      consoleRun turns ops
  | .key :: ops => do
      let c ← pollKey dev turns
      let cs ← consoleRun turns ops
      pure (c.toList ++ cs)

end Driver

/-- What is printed. -/
def ConsoleOp.printed : ConsoleOp → List UInt8
  | .put c => [c]
  | .puts str => uartPuts str
  | .key => []

/-! ## The device -/

/-- The control registers, the two FIFOs, what went out on the line, and what was taken in from it.
-/
structure Pl011 where
  control : UInt32
  lineControl : UInt32
  tx : List UInt8
  line : List UInt8
  rx : List UInt8
  accepted : List UInt8

namespace Pl011

/-- The bytes that the TX FIFO holds, one unless the FIFOs are enabled. -/
def capacity (depth : Nat) (g : Pl011) : Nat := if g.lineControl &&& 0x10 ≠ 0 then depth else 1

/-- The transmitter is on. -/
def Transmits (g : Pl011) : Prop := g.control &&& 0x101 = 0x101

/-- What the device does by itself: bytes go out from the front of the one FIFO, others come in at
the end of the other. -/
structure Later (g g' : Pl011) : Prop where
  control : g'.control = g.control
  lineControl : g'.lineControl = g.lineControl
  sent : ∃ k, g'.line = g.line ++ g.tx.take k ∧ g'.tx = g.tx.drop k
  received : ∃ new, g'.accepted = g.accepted ++ new ∧ g'.rx = g.rx ++ new

theorem Later.refl (g : Pl011) : g.Later g :=
  ⟨rfl, rfl, ⟨0, by simp, rfl⟩, [], by simp, by simp⟩

theorem Later.trans {g g' g'' : Pl011} (h : g.Later g') (h' : g'.Later g'') : g.Later g'' := by
  obtain ⟨k, hline, htx⟩ := h.sent
  obtain ⟨k', hline', htx'⟩ := h'.sent
  obtain ⟨new, haccepted, hrx⟩ := h.received
  obtain ⟨new', haccepted', hrx'⟩ := h'.received
  refine ⟨h'.control.trans h.control, h'.lineControl.trans h.lineControl, ⟨k + k', ?_, ?_⟩,
    new ++ new', ?_, ?_⟩
  · rw [hline', hline, htx, List.append_assoc, ← List.take_add]
  · rw [htx', htx, List.drop_drop]
  · rw [haccepted', haccepted, List.append_assoc]
  · rw [hrx', hrx, List.append_assoc]

/-- What was printed stays the same. -/
theorem Later.out {g g' : Pl011} (h : g.Later g') : g'.line ++ g'.tx = g.line ++ g.tx := by
  obtain ⟨k, hline, htx⟩ := h.sent
  rw [hline, htx, List.append_assoc, List.take_append_drop]

theorem Later.length_tx {g g' : Pl011} (h : g.Later g') : g'.tx.length ≤ g.tx.length := by
  obtain ⟨k, -, htx⟩ := h.sent
  rw [htx, List.length_drop]
  exact Nat.sub_le ..

end Pl011

/-- What `view` shows of the states of a device is a PL011 whose TX FIFO is `depth` bytes deep. A
byte that does not fit into the FIFO is lost. A transmitter that is on makes room in the end. Unless
the device `keeps` what the FIFOs hold when they are enabled, it may drop that. -/
structure Pl011Device {S : Type} (dev : Mmio.Device UartRegister UInt32 S) (view : S → Pl011)
    (depth : Nat) (keeps : Prop) : Prop where
  fr : ∀ s, ∃ v t, dev.read s .fr = some (v, t) ∧ (view s).Later (view t) ∧
    (txFull v = true ↔ (view t).tx.length = (view t).capacity depth) ∧
    (rxEmpty v = true ↔ (view t).rx = [])
  dr_write : ∀ s v, ∃ t g, dev.write s .dr v = some t ∧ (view s).Later g ∧
    view t = if g.tx.length < g.capacity depth then { g with tx := g.tx ++ [v.toUInt8] } else g
  dr_read : ∀ s, ∃ v t g, dev.read s .dr = some (v, t) ∧ (view s).Later g ∧
    view t = { g with rx := g.rx.tail } ∧ ∀ b ∈ g.rx.head?, (v &&& 0xFF).toUInt8 = b
  cr : ∀ s v, ∃ t g, dev.write s .cr v = some t ∧ (view s).Later g ∧
    view t = { g with control := v }
  lcrh : ∀ s v, v &&& 0x10 ≠ 0 → ∃ t g, dev.write s .lcrh v = some t ∧ (view s).Later g ∧
    (view t = { g with lineControl := v } ∨
      ¬ keeps ∧ view t = { g with lineControl := v, tx := [], rx := [] })
  other : ∀ s r v, r = .ibrd ∨ r = .fbrd ∨ r = .imsc ∨ r = .icr → ∃ t, dev.write s r v = some t ∧
    (view s).Later (view t)
  drains : ∀ s, (view s).Transmits → ∃ n t, dev.Idle .fr txFull n s t

/-! ## One operation -/

/-- The device works, and its FIFO is not over its depth. -/
structure Pl011.Ready (depth : Nat) (g : Pl011) : Prop where
  transmits : g.Transmits
  fifo : g.capacity depth = depth
  room : g.tx.length ≤ depth

/-- Since `g`, `out` was printed and `keys` were read. -/
structure Pl011.Kept (g g' : Pl011) (out keys : List UInt8) : Prop where
  out : g'.line ++ g'.tx = g.line ++ g.tx ++ out
  keys : ∃ new, g'.accepted = g.accepted ++ new ∧ keys ++ g'.rx = g.rx ++ new

namespace Pl011

variable {g g' g'' : Pl011} {depth : Nat} {out out' keys keys' : List UInt8}

theorem Later.ready (h : g.Later g') (hg : g.Ready depth) : g'.Ready depth := by
  refine ⟨?_, ?_, h.length_tx.trans hg.room⟩
  · rw [Transmits, h.control]
    exact hg.transmits
  · rw [capacity, h.lineControl]
    exact hg.fifo

theorem Later.kept (h : g.Later g') : g.Kept g' [] [] :=
  ⟨h.out.trans (List.append_nil _).symm, h.received⟩

theorem Kept.trans (h : g.Kept g' out keys) (h' : g'.Kept g'' out' keys') :
    g.Kept g'' (out ++ out') (keys ++ keys') := by
  obtain ⟨new, haccepted, hrx⟩ := h.keys
  obtain ⟨new', haccepted', hrx'⟩ := h'.keys
  refine ⟨?_, new ++ new', ?_, ?_⟩
  · rw [h'.out, h.out, List.append_assoc _ out]
  · rw [haccepted', haccepted, List.append_assoc]
  · rw [List.append_assoc, hrx', ← List.append_assoc, hrx, List.append_assoc]

end Pl011

section Operations

variable {S : Type} {dev : Mmio.Device UartRegister UInt32 S} {view : S → Pl011} {depth n : Nat}
  {keeps : Prop} {s t : S}

/-- While the driver waits for room, bytes go out and come in; then there is room. -/
theorem Pl011Device.room (h : Pl011Device dev view depth keeps) (hidle : dev.Idle .fr txFull n s t) :
    (view s).Later (view t) ∧ (view t).tx.length ≠ (view t).capacity depth := by
  induction hidle with
  | @now s t v hread hfree =>
      obtain ⟨v', t', hread', hlater, hfull, -⟩ := h.fr s
      obtain ⟨rfl, rfl⟩ := Prod.mk.inj (Option.some.inj (hread.symm.trans hread'))
      exact ⟨hlater, fun heq ↦ Bool.false_ne_true (hfree.symm.trans (hfull.mpr heq))⟩
  | @later n s s' t v hread _ _ ih =>
      obtain ⟨v', t', hread', hlater, -⟩ := h.fr s
      obtain ⟨-, rfl⟩ := Prod.mk.inj (Option.some.inj (hread.symm.trans hread'))
      exact ⟨hlater.trans ih.1, ih.2⟩

/-- `uart_putc` returns and prints its byte. -/
theorem Pl011Device.uartPutc_run (h : Pl011Device dev view depth keeps) (hs : (view s).Ready depth)
    (c : UInt8) : ∃ n t, (∀ turns, n < turns → (uartPutc dev turns c).run s = some ((), t)) ∧
      (view t).Ready depth ∧ (view s).Kept (view t) [c] [] := by
  obtain ⟨n, s₁, hidle⟩ := h.drains s hs.transmits
  obtain ⟨hlater, hfree⟩ := h.room hidle
  obtain ⟨t, g, hwrite, hlater', hview⟩ := h.dr_write s₁ c.toUInt32
  have hready := (hlater.trans hlater').ready hs
  have hroom : g.tx.length < g.capacity depth := by
    have hready₁ := hlater.ready hs
    have hshrinks := hlater'.length_tx
    have hroom₁ := hready₁.room
    rw [hready₁.fifo] at hfree
    rw [hready.fifo]
    omega
  have hbyte : c.toUInt32.toUInt8 = c := UInt8.toUInt8_toUInt32 c
  rw [if_pos hroom, hbyte] at hview
  refine ⟨n, t, fun turns hturns ↦ ?_, ?_, ?_⟩
  · exact (run_bind_of_run (hidle.spin_run hturns)).trans (Mmio.Device.run_writeReg hwrite)
  · rw [hview]
    refine ⟨hready.transmits, hready.fifo, ?_⟩
    rw [List.length_append, List.length_singleton]
    exact hready.fifo ▸ hroom
  · obtain ⟨hout, hkeys⟩ := (hlater.trans hlater').kept
    rw [hview]
    refine ⟨?_, hkeys⟩
    rw [← List.append_assoc, hout, List.append_nil]

theorem Pl011Device.carriageReturn_run (h : Pl011Device dev view depth keeps)
    (hs : (view s).Ready depth) (c : UInt8) : ∃ n t,
    (∀ turns, n < turns → (carriageReturn dev turns c).run s = some ((), t)) ∧
      (view t).Ready depth ∧ (view s).Kept (view t) (if c = 10 then [13] else []) [] := by
  unfold carriageReturn
  by_cases hnewline : c = 10
  · simp only [if_pos hnewline]
    exact h.uartPutc_run hs 13
  · simp only [if_neg hnewline]
    exact ⟨0, s, fun _ _ ↦ rfl, hs, (Pl011.Later.refl _).kept⟩

/-- `uart_puts` returns and prints its text. -/
theorem Pl011Device.putString_run (h : Pl011Device dev view depth keeps) (hs : (view s).Ready depth)
    (str : List UInt8) : ∃ n t, (∀ turns, n < turns → (putString dev turns str).run s =
      some ((), t)) ∧ (view t).Ready depth ∧ (view s).Kept (view t) (uartPuts str) [] := by
  induction str generalizing s with
  | nil => exact ⟨0, s, fun _ _ ↦ rfl, hs, (Pl011.Later.refl _).kept⟩
  | cons c str ih =>
      obtain ⟨n₁, s₁, hreturn, hready₁, hkept₁⟩ := h.carriageReturn_run hs c
      obtain ⟨n₂, s₂, hput, hready₂, hkept₂⟩ := h.uartPutc_run hready₁ c
      obtain ⟨n₃, t, hrest, hready, hkept⟩ := ih hready₂
      refine ⟨max n₁ (max n₂ n₃), t, fun turns hturns ↦ ?_, hready, ?_⟩
      · exact (run_bind_of_run (hreturn turns (by omega))).trans
          ((run_bind_of_run (hput turns (by omega))).trans (hrest turns (by omega)))
      · have hall := hkept₁.trans (hkept₂.trans hkept)
        have htext : (if c = 10 then [13] else []) ++ ([c] ++ uartPuts str) =
            uartPuts (c :: str) := by
          rw [uartPuts, uartPuts, List.flatMap_cons]
          split <;> rfl
        rw [htext] at hall
        exact hall

/-- Looking for a key returns, with the oldest byte of the FIFO if there is one. -/
theorem Pl011Device.pollKey_run (h : Pl011Device dev view depth keeps) (hs : (view s).Ready depth) :
    ∃ t c, (∀ turns, 0 < turns → (pollKey dev turns).run s = some (c, t)) ∧
      (view t).Ready depth ∧ (view s).Kept (view t) [] c.toList := by
  obtain ⟨v, s₁, hread, hlater, -, hempty⟩ := h.fr s
  cases hkey : rxEmpty v with
  | true =>
      refine ⟨s₁, none, fun turns _ ↦ ?_, hlater.ready hs, hlater.kept⟩
      rw [pollKey, Mmio.Device.run_readReg_bind hread, hkey]
      rfl
  | false =>
      -- the byte is still there when `uart_getc` looks again, and when it reads
      have hsome : (view s₁).rx ≠ [] := fun heq ↦
        Bool.false_ne_true (hkey.symm.trans (hempty.mpr heq))
      obtain ⟨v₂, s₂, hread₂, hlater₂, -, hempty₂⟩ := h.fr s₁
      have hsome₂ : (view s₂).rx ≠ [] := by
        obtain ⟨new, -, hrx⟩ := hlater₂.received
        rw [hrx]
        exact List.append_ne_nil_of_left_ne_nil hsome new
      have hkey₂ : rxEmpty v₂ = false :=
        Bool.eq_false_of_not_eq_true fun heq ↦ hsome₂ (hempty₂.mp heq)
      obtain ⟨v₃, t, g, hread₃, hlater₃, hview, hbyte⟩ := h.dr_read s₂
      have hsome₃ : g.rx ≠ [] := by
        obtain ⟨new, -, hrx⟩ := hlater₃.received
        rw [hrx]
        exact List.append_ne_nil_of_left_ne_nil hsome₂ new
      obtain ⟨b, rest, hrx⟩ := List.exists_cons_of_ne_nil hsome₃
      have hb : (v₃ &&& 0xFF).toUInt8 = b := hbyte b (by rw [hrx]; rfl)
      have hall := hlater.trans (hlater₂.trans hlater₃)
      have hready := hall.ready hs
      refine ⟨t, some b, fun turns hturns ↦ ?_, ?_, ?_⟩
      · have hgetc : (uartGetc dev turns).run s₁ = some (b, t) := by
          have hidle : dev.Idle .fr rxEmpty 0 s₁ s₂ := .now hread₂ hkey₂
          rw [uartGetc, run_bind_of_run (hidle.spin_run hturns),
            Mmio.Device.run_readReg_bind hread₃, hb]
          rfl
        rw [pollKey, Mmio.Device.run_readReg_bind hread, hkey]
        exact (run_bind_of_run hgetc).trans rfl
      · rw [hview]
        exact ⟨hready.transmits, hready.fifo, hready.room⟩
      · obtain ⟨hout, new, haccepted, hkeys⟩ := hall.kept
        rw [hview]
        refine ⟨hout, new, haccepted, ?_⟩
        rw [← hkeys, hrx]
        rfl

/-- One thing after the other. -/
theorem Pl011Device.consoleRun_run (h : Pl011Device dev view depth keeps) (hs : (view s).Ready depth)
    (ops : List ConsoleOp) : ∃ n t keys,
    (∀ turns, n < turns → (consoleRun dev turns ops).run s = some (keys, t)) ∧
      (view t).Ready depth ∧ (view s).Kept (view t) (ops.flatMap ConsoleOp.printed) keys := by
  induction ops generalizing s with
  | nil => exact ⟨0, s, [], fun _ _ ↦ rfl, hs, (Pl011.Later.refl _).kept⟩
  | cons op ops ih =>
      cases op with
      | put c =>
          obtain ⟨n₁, s₁, hput, hready₁, hkept₁⟩ := h.uartPutc_run hs c
          obtain ⟨n₂, t, keys, hrest, hready, hkept⟩ := ih hready₁
          refine ⟨max n₁ n₂, t, keys, fun turns hturns ↦ ?_, hready, hkept₁.trans hkept⟩
          exact (run_bind_of_run (hput turns (by omega))).trans (hrest turns (by omega))
      | puts str =>
          obtain ⟨n₁, s₁, hput, hready₁, hkept₁⟩ := h.putString_run hs str
          obtain ⟨n₂, t, keys, hrest, hready, hkept⟩ := ih hready₁
          refine ⟨max n₁ n₂, t, keys, fun turns hturns ↦ ?_, hready, hkept₁.trans hkept⟩
          exact (run_bind_of_run (hput turns (by omega))).trans (hrest turns (by omega))
      | key =>
          obtain ⟨s₁, c, hpoll, hready₁, hkept₁⟩ := h.pollKey_run hs
          obtain ⟨n, t, keys, hrest, hready, hkept⟩ := ih hready₁
          refine ⟨n, t, c.toList ++ keys, fun turns hturns ↦ ?_, hready, hkept₁.trans hkept⟩
          exact (run_bind_of_run (hpoll turns (by omega))).trans
            ((run_bind_of_run (hrest turns hturns)).trans rfl)

/-- `uart_init` returns with the device ready. What was in the FIFOs stays there, if the device keeps
it. -/
theorem Pl011Device.uartInit_run (h : Pl011Device dev view depth keeps)
    (hroom : (view s).tx.length ≤ depth) : ∃ t, (uartInit dev).run s = some ((), t) ∧
      (view t).Ready depth ∧ (keeps → (view s).Kept (view t) [] []) := by
  obtain ⟨s₁, g₁, hwrite₁, hlater₁, hview₁⟩ := h.cr s 0
  obtain ⟨s₂, hwrite₂, hlater₂⟩ := h.other s₁ .imsc 0 (by simp)
  obtain ⟨s₃, hwrite₃, hlater₃⟩ := h.other s₂ .icr 0x7FF (by simp)
  obtain ⟨s₄, hwrite₄, hlater₄⟩ := h.other s₃ .ibrd 26 (by simp)
  obtain ⟨s₅, hwrite₅, hlater₅⟩ := h.other s₄ .fbrd 3 (by simp)
  obtain ⟨s₆, g₆, hwrite₆, hlater₆, hview₆⟩ :=
    h.lcrh s₅ ((1 : UInt32) <<< 4 ||| (3 : UInt32) <<< 5) (by decide)
  obtain ⟨t, g, hwrite, hlater, hview⟩ := h.cr s₆ ((1 : UInt32) <<< 9 ||| (1 : UInt32) <<< 8 ||| 1)
  have hmiddle := hlater₂.trans (hlater₃.trans (hlater₄.trans (hlater₅.trans hlater₆)))
  -- whether the FIFOs were emptied or not, they are enabled and hold no more than before
  have henabled : (view s₆).lineControl = (1 : UInt32) <<< 4 ||| (3 : UInt32) <<< 5 ∧
      (view s₆).tx.length ≤ g₆.tx.length := by
    rcases hview₆ with hview₆ | ⟨-, hview₆⟩
    · rw [hview₆]
      exact ⟨rfl, le_rfl⟩
    · rw [hview₆]
      exact ⟨rfl, Nat.zero_le _⟩
  refine ⟨t, ?_, ⟨?_, ?_, ?_⟩, fun hkeeps ↦ ?_⟩
  · exact (run_bind_of_run (Mmio.Device.run_writeReg hwrite₁)).trans <|
      (run_bind_of_run (Mmio.Device.run_writeReg hwrite₂)).trans <|
      (run_bind_of_run (Mmio.Device.run_writeReg hwrite₃)).trans <|
      (run_bind_of_run (Mmio.Device.run_writeReg hwrite₄)).trans <|
      (run_bind_of_run (Mmio.Device.run_writeReg hwrite₅)).trans <|
      (run_bind_of_run (Mmio.Device.run_writeReg hwrite₆)).trans (Mmio.Device.run_writeReg hwrite)
  · rw [hview]
    exact (by decide : ((1 : UInt32) <<< 9 ||| (1 : UInt32) <<< 8 ||| 1) &&& 0x101 = 0x101)
  · rw [Pl011.capacity, hview]
    dsimp only
    rw [hlater.lineControl, henabled.1]
    exact if_pos (by decide : ((1 : UInt32) <<< 4 ||| (3 : UInt32) <<< 5) &&& 0x10 ≠ 0)
  · have h₁ := hlater₁.length_tx
    have h₂ := hmiddle.length_tx
    have h₃ := hlater.length_tx
    rw [hview₁] at h₂
    rw [hview]
    exact h₃.trans (henabled.2.trans (h₂.trans (h₁.trans hroom)))
  · have hview₆ := hview₆.resolve_right fun hdrop ↦ hdrop.1 hkeeps
    have hset : ∀ (g : Pl011) (control lineControl : UInt32),
        g.Kept { g with control := control, lineControl := lineControl } [] [] :=
      fun g _ _ ↦ ⟨(List.append_nil _).symm, [], (List.append_nil _).symm, by simp⟩
    have hall := hlater₁.kept.trans ((hset g₁ 0 g₁.lineControl).trans (hview₁ ▸ hmiddle.kept))
    have hend := (hset g₆ g₆.control ((1 : UInt32) <<< 4 ||| (3 : UInt32) <<< 5)).trans
      ((hview₆ ▸ hlater.kept).trans
        (hset g ((1 : UInt32) <<< 9 ||| (1 : UInt32) <<< 8 ||| 1) g.lineControl))
    rw [hview]
    exact hall.trans hend

end Operations

/-- Whatever the kernel prints and reads after `uart_init`, at whatever pace the line and the user
go: all of it returns, the line and the FIFO behind it get exactly what is printed, in order, and
what the kernel reads and what is still in the FIFO in the end are exactly what was there and the
bytes that were taken in since. If the device keeps what the FIFOs hold when they are enabled,
`uart_init` loses and adds nothing either. -/
theorem console_exact {S : Type} (dev : Mmio.Device UartRegister UInt32 S) (view : S → Pl011)
    (depth : Nat) (keeps : Prop) (h : Pl011Device dev view depth keeps) (s : S)
    (hroom : (view s).tx.length ≤ depth) (ops : List ConsoleOp) : ∃ s₁ n t keys,
    (uartInit dev).run s = some ((), s₁) ∧
    (∀ turns, n < turns →
      (uartInit dev >>= fun _ ↦ consoleRun dev turns ops).run s = some (keys, t)) ∧
    (view t).line ++ (view t).tx =
      (view s₁).line ++ (view s₁).tx ++ ops.flatMap ConsoleOp.printed ∧
    (view t).tx.length ≤ depth ∧
    (∃ new, (view t).accepted = (view s₁).accepted ++ new ∧
      keys ++ (view t).rx = (view s₁).rx ++ new) ∧
    (keeps → (view s₁).line ++ (view s₁).tx = (view s).line ++ (view s).tx ∧
      ∃ new, (view s₁).accepted = (view s).accepted ++ new ∧
        (view s₁).rx = (view s).rx ++ new) := by
  obtain ⟨s₁, hinit, hready₁, hkept₁⟩ := h.uartInit_run hroom
  obtain ⟨n, t, keys, hrun, hready, hkept⟩ := h.consoleRun_run hready₁ ops
  refine ⟨s₁, n, t, keys, hinit, fun turns hturns ↦ ?_, hkept.out, hready.room, hkept.keys,
    fun hkeeps ↦ ?_⟩
  · exact (run_bind_of_run hinit).trans (hrun turns hturns)
  · obtain ⟨hout, hkeys⟩ := hkept₁ hkeeps
    rw [List.append_nil] at hout
    exact ⟨hout, hkeys⟩

/-- A PL011 that sends a byte whenever its flags are read. -/
def Pl011.eager : Mmio.Device UartRegister UInt32 Pl011 where
  read g
    | .fr =>
        let g := { g with line := g.line ++ g.tx.take 1, tx := g.tx.drop 1 }
        some ((if g.tx.length = g.capacity 16 then 0x20 else 0) |||
          (if g.rx = [] then 0x10 else 0), g)
    | .dr => some ((g.rx.headD 0).toUInt32, { g with rx := g.rx.tail })
    | _ => none
  write g
    | .dr, v => some
        (if g.tx.length < g.capacity 16 then { g with tx := g.tx ++ [v.toUInt8] } else g)
    | .cr, v => some { g with control := v }
    | .lcrh, v => some { g with lineControl := v }
    | _, _ => some g

theorem flags_eq (p q : Prop) [Decidable p] [Decidable q] :
    (txFull ((if p then 0x20 else 0) ||| (if q then 0x10 else 0)) = true ↔ p) ∧
      (rxEmpty ((if p then 0x20 else 0) ||| (if q then 0x10 else 0)) = true ↔ q) := by
  by_cases hp : p <;> by_cases hq : q <;>
    simp only [hp, hq, if_true, if_false, iff_true, iff_false] <;> decide

theorem Pl011.eager_device : Pl011Device Pl011.eager id 16 True where
  fr g := ⟨_, _, rfl, ⟨rfl, rfl, ⟨1, rfl, rfl⟩, [], (List.append_nil _).symm,
    (List.append_nil _).symm⟩, flags_eq _ _⟩
  dr_write g v := ⟨_, g, rfl, .refl g, rfl⟩
  dr_read g := by
    refine ⟨_, _, g, rfl, .refl g, rfl, fun b hb ↦ ?_⟩
    obtain ⟨rest, hrx⟩ := List.head?_eq_some_iff.mp hb
    rw [hrx, List.headD_cons, UInt32.toUInt8_and, UInt8.toUInt8_toUInt32]
    exact UInt8.and_neg_one
  cr g v := ⟨_, g, rfl, .refl g, rfl⟩
  lcrh g v _ := ⟨_, g, rfl, .refl g, .inl rfl⟩
  other g r v hr := by
    refine ⟨g, ?_, .refl g⟩
    rcases hr with rfl | rfl | rfl | rfl <;> rfl
  drains g _ := by
    let once (g : Pl011) : Pl011 := { g with line := g.line ++ g.tx.take 1, tx := g.tx.drop 1 }
    by_cases hfull : (once g).tx.length = (once g).capacity 16
    · refine ⟨1, once (once g), .later rfl ((flags_eq _ _).1.mpr hfull) (.now rfl ?_)⟩
      refine Bool.eq_false_of_not_eq_true fun hbusy ↦ ?_
      have hagain : (once (once g)).tx.length = (once g).capacity 16 := (flags_eq _ _).1.mp hbusy
      have hshrinks : (once (once g)).tx.length = (once g).tx.length - 1 := List.length_drop ..
      have hpos : 0 < (once g).capacity 16 := by
        unfold capacity
        split <;> decide
      omega
    · refine ⟨0, once g, .now rfl (Bool.eq_false_of_not_eq_true fun hbusy ↦ ?_)⟩
      exact hfull ((flags_eq _ _).1.mp hbusy)

theorem console_exact_line : ∃ n t keys, (∀ turns, n < turns →
    (uartInit Pl011.eager >>= fun _ ↦ consoleRun Pl011.eager turns [.puts [97, 10], .key]).run
      ⟨0, 0, [], [], [0x1B], [0x1B]⟩ = some (keys, t)) ∧ t.line ++ t.tx = [97, 13, 10] := by
  obtain ⟨s₁, n, t, keys, -, hrun, hout, -, -, hkept⟩ := console_exact Pl011.eager id 16 True
    Pl011.eager_device ⟨0, 0, [], [], [0x1B], [0x1B]⟩ (by decide) [.puts [97, 10], .key]
  have hstart : s₁.line ++ s₁.tx = [] := (hkept trivial).1
  rw [id, id, hstart] at hout
  exact ⟨n, t, keys, hrun, hout⟩

end Aether.Drivers
