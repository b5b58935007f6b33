import Aether.Ethernet.Ipv6
import Aether.Ethernet.Node
import Aether.Kernel.KeyValues

/-!
# The network dashboard

`portal_render_net_dashboard`, and the three functions that print a counter as a decimal.
`uart_put_int` is declared with a parameter of 64 bits and defined with one of 32, so that what it
prints of a counter is the decimal of the low half.
-/

namespace Aether.Kernel

open ByteMemory Ascii Common Drivers Ethernet

/-- The variables of the portal that the dashboard shows. -/
structure Portal where
  portalActive : Bool
  linkStatus : UInt8
  mac : Mac

/-- A call of `uart_put_int` as `utils.h` declares it. The function takes its argument from the low
half of the register. -/
def callUartPutInt (n : UInt64) : Option (List UInt8) := uartPutInt n.toUInt32

/-- A line with a counter. -/
def counterLine (label : String) (n : UInt64) (ending : String) : Option (List UInt8) := do
  let digits ← callUartPutInt n
  pure (uartPuts (text label) ++ digits ++ uartPuts (text ending))

/-- The traffic statistics of the dashboard. -/
def trafficStats (stats : NetStats) : Option (List UInt8) := do
  let rx ← counterLine " - RX Frames:        " stats.rxPackets "\n"
  let tx ← counterLine " - TX Frames:        " stats.txPackets "\n"
  let dropped ← counterLine " - Collisions/Drops: " stats.droppedPackets "\n"
  let buffers ← counterLine " - Mem Buffers:      " stats.bufferUsage "\n\n"
  pure (uartPuts (text "[TRAFFIC STATS]\n") ++ rx ++ tx ++ dropped ++ buffers)

/-- The loop over the TCBs: what it prints, and the number of established connections. It prints the
state of the next TCB, which behind the last one is read through a null pointer. -/
def connectionLoop (m : Memory) : Nat → Nat → UInt32 → Option (List UInt8 × UInt32)
  | 0, _, _ => none
  | turns + 1, cur, active =>
      if cur ≠ 0 then do
        let active := if load 4 m (cur + 12) = 3 then active + 1 else active
        let cur := load 8 m (cur + 32)
        let line ← counterLine " - Debug State: " (UInt64.ofNat (load 4 m (cur + 12))) "\n"
        let (lines, active) ← connectionLoop m turns cur active
        pure (line ++ lines, active)
      else some ([], active)

/-- The loop over the bytes of the hardware address. -/
def macText (mac : Mac) : List UInt8 :=
  (List.range 6).flatMap fun i ↦
    uartPutHexByte (mac.bytes.getD i 0) ++ if i < 5 then [58] else []

/-- `portal_render_net_dashboard`: what it prints. -/
def portalRenderNetDashboard (turns : Nat) (portal : Portal) (localIpv6 : Ipv6Addr) (σ : Node) :
    Option (List UInt8) :=
  if portal.portalActive then do
    let ipv4 ← uartPrintIp σ.aetherIp
    let ipv6 ← printIpv6 localIpv6
    let traffic ← trafficStats σ.netStats
    let (states, active) ← connectionLoop σ.heap.mem turns σ.tcpTcbList 0
    let connections ← counterLine " - Active Connections: " active.toUInt64 "\n"
    pure (uartPuts (text "\x1b[H") ++
      uartPuts (text "#################################################\n") ++
      uartPuts (text "#           AETHER NETWORK DASHBOARD            #\n") ++
      uartPuts (text "#################################################\n\n") ++
      uartPuts (text "[LINK LAYER]\n") ++
      uartPuts (text " - Interface: eth0 (VirtIO-Net-PCI)\n") ++
      uartPuts (text " - Status:    ") ++
      uartPuts (text (if portal.linkStatus ≠ 0 then "UP\n" else "DOWN\n")) ++
      uartPuts (text " - MAC:       ") ++ macText portal.mac ++ uartPuts (text "\n\n") ++
      uartPuts (text "[NETWORK LAYER]\n") ++
      uartPuts (text " - IPv4 Addr: ") ++ ipv4 ++ uartPuts (text "\n") ++
      uartPuts (text " - IPv6 Addr: ") ++ ipv6 ++ uartPuts (text "\n\n") ++
      traffic ++
      uartPuts (text "[TRANSPORT LAYER]\n") ++
      uartPuts (text " - TCP Listener: Port 80 (HTTP)\n") ++
      states ++ connections ++
      uartPuts (text "\n-------------------------------------------------\n") ++
      uartPuts (text " [ESC] Main Portal  |  [ENTER] Refresh\n"))
  else some []

/-! ## What is shown of a counter -/

theorem callUartPutInt_eq (n : UInt64) :
    callUartPutInt n = some (decimal (n.toNat % 2 ^ 32)) := by
  rw [callUartPutInt, uartPutInt_eq, UInt64.toNat_toUInt32]

theorem counterLine_eq (label : String) (n : UInt64) (ending : String) :
    counterLine label n ending = some (uartPuts (text label) ++ decimal (n.toNat % 2 ^ 32) ++
      uartPuts (text ending)) := by
  rw [counterLine, callUartPutInt_eq]
  rfl

/-- The traffic statistics with the low halves of the counters. -/
def trafficText (stats : NetStats) : List UInt8 :=
  uartPuts (text "[TRAFFIC STATS]\n") ++
    (uartPuts (text " - RX Frames:        ") ++ decimal (stats.rxPackets.toNat % 2 ^ 32) ++
      uartPuts (text "\n")) ++
    (uartPuts (text " - TX Frames:        ") ++ decimal (stats.txPackets.toNat % 2 ^ 32) ++
      uartPuts (text "\n")) ++
    (uartPuts (text " - Collisions/Drops: ") ++ decimal (stats.droppedPackets.toNat % 2 ^ 32) ++
      uartPuts (text "\n")) ++
    (uartPuts (text " - Mem Buffers:      ") ++ decimal (stats.bufferUsage.toNat % 2 ^ 32) ++
      uartPuts (text "\n\n"))

theorem trafficStats_eq (stats : NetStats) : trafficStats stats = some (trafficText stats) := by
  simp only [trafficStats, counterLine_eq, Option.bind_eq_bind, Option.bind_some]
  rfl

/-! ## Agreement -/

/-- What the printers owe for a counter: the canonical decimal, and no store past the end of an
array of digits. -/
structure PrintersAgree (n : UInt64) : Prop where
  uart : callUartPutInt n = some (decimal n.toNat)
  dashboard : ∀ label ending, counterLine label n ending =
    some (uartPuts (text label) ++ decimal n.toNat ++ uartPuts (text ending))
  ltoa : ∀ str m, ltoa n str m =
    some (str + (decimal n.toNat).length, writeBytes m str (decimal n.toNat ++ [0]))
  keyValue : ∀ (str : Nat) (s key : CString) (m : Memory), str ≠ 0 → StringAt m str s.chars →
    ∃ turns, strAppendKvInt turns str (some key) n m = some (writeBytes m (str + s.chars.length)
      (text "\"" ++ key.chars ++ text "\":" ++ decimal n.toNat ++ text "," ++ [0]))

/-- The printers agree on a counter if and only if it has no more than 32 bits. -/
theorem printers_agree_iff (n : UInt64) : PrintersAgree n ↔ n.toNat < 2 ^ 32 := by
  constructor
  · intro h
    have hdigits : decimal (n.toNat % 2 ^ 32) = decimal n.toNat :=
      Option.some.inj ((callUartPutInt_eq n).symm.trans h.uart)
    have hlow := congrArg number hdigits
    rw [number_decimal, number_decimal] at hlow
    exact hlow ▸ Nat.mod_lt _ (by decide)
  · intro h
    have hlow : n.toNat % 2 ^ 32 = n.toNat := Nat.mod_eq_of_lt h
    refine ⟨?_, fun label ending ↦ ?_, ltoa_eq n, fun str s key m hstr hs ↦ ?_⟩
    · rw [callUartPutInt_eq, hlow]
    · rw [counterLine_eq, hlow]
    · exact strAppendKvInt_eq hstr hs key n

/-- The counter after `2 ^ 32` packets is shown as zero. -/
theorem printers_disagree :
    callUartPutInt 4294967296 = some (text "0") ∧ decimal 4294967296 = text "4294967296" ∧
      ¬ PrintersAgree 4294967296 := by
  have hshown : callUartPutInt 4294967296 = some (text "0") := by decide +kernel
  have hdecimal : decimal 4294967296 = text "4294967296" := by decide +kernel
  refine ⟨hshown, hdecimal, fun h ↦ ?_⟩
  have hsame := Option.some.inj (hshown.symm.trans h.uart)
  exact absurd (hsame.trans hdecimal) (by decide)

end Aether.Kernel
