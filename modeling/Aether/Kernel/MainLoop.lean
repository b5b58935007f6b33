import Aether.Ethernet.Connections
import Aether.Ethernet.ReceiveRuns
import Aether.Kernel.Console
import Aether.Kernel.HeapLimits
import Aether.Kernel.Portal

/-!
# The main loop

The loop of `kernel_main` as a machine that goes from point to point, with timer interrupts, the
network device and a user at the console coming in anywhere between two points. `MainLoop.Step` is
one step of all of them. The invariants say that the loop never gets stuck, what its two counts of
the established connections are, how often it refreshes, and what is on the screen.
-/

namespace Aether.Kernel

open ByteMemory Ascii Common Program Transition Drivers Ethernet

/-! ## Counting connections -/

/-- The loop of `health_update_tcp_stats`. -/
def countLoop (m : Memory) : Nat → Nat → UInt32 → Option UInt32
  | 0, _, _ => none
  | turns + 1, cur, count =>
      if cur ≠ 0 then
        countLoop m turns (load 8 m (cur + 32))
          (if load 4 m (cur + 12) = 3 then count + 1 else count)
      else some count

/-- `health_update_tcp_stats`. -/
def healthUpdateTcpStats : Action Unit := do
  let σ ← get
  match countLoop σ.heap.mem (maxBlocks + 1) σ.tcpTcbList 0 with
  | none => fault
  | some count => set { σ with netStats := { σ.netStats with tcpActive := count.toUInt64 } }

/-! ## The loop -/

/-- `local_ipv6`. -/
def localIpv6 : Ipv6Addr where
  bytes := [0xFE, 0x80, 0, 0, 0, 0, 0, 0, 0x52, 0x54, 0x00, 0xFF, 0xFE, 0x12, 0x34, 0x56]
  length := rfl

/-- The parts of a turn. -/
inductive Point where
  | refresh
  | input
  | poll
  | reap
  | health
  deriving DecidableEq

/-- The order of the parts. -/
def Point.next : Point → Point
  | .refresh => .input
  | .input => .poll
  | .poll => .reap
  | .reap => .health
  | .health => .refresh

/-- The variables of the loop and of what it calls, and the device's reading of the available ring
of the RX queue. `screen` is what the loop and its renderers have printed since the screen was
cleared last, without the lines that the network code prints about frames on its own. The rest is
for the record: `ticks` counts the timer interrupts, `refreshTick` those before the last refresh,
and `refreshes` the refreshes, with those that find nothing to draw. -/
structure MainLoop where
  point : Point
  node : Node
  device : AvailReader
  console : Console
  uptimeMs : UInt64
  lastRefresh : UInt64
  lastMode : Option KernelMode
  portal : Portal
  heapCurrentPtr : Nat
  heapUsageKb : UInt32
  screen : List UInt8
  ticks : Nat
  refreshTick : Nat
  refreshes : Nat

/-- `portal_render_confirm_prompt`, after it cleared the screen. -/
def portalRenderConfirmPrompt : List UInt8 :=
  uartPuts (text "#########################################\n") ++
  uartPuts (text "#       CONFIRM SYSTEM SHUTDOWN?        #\n") ++
  uartPuts (text "#    [ENTER] Confirm | [ESC] Cancel     #\n") ++
  uartPuts (text "#########################################\n")

/-- What the loop prints when the debug console is selected. -/
def debugBanner : List UInt8 :=
  uartPuts (text "===========================================\r\n") ++
  uartPuts (text "           AETHER DEBUG CONSOLE            \r\n") ++
  uartPuts (text "===========================================\r\n\r\n")

/-- `portal_render_terminal`, after it cleared the screen. -/
def portalRenderTerminal (portal : Portal) (heapUsageKb : UInt32) : Option (List UInt8) :=
  if portal.portalActive then do
    let used ← uartPutInt heapUsageKb
    pure (uartPuts (text "===========================================\n") ++
      uartPuts (text "         AETHER WebOS :: Portal            \n") ++
      uartPuts (text "===========================================\n") ++
      uartPuts (text "[STATUS]  System Online\n") ++
      uartPuts (text "[MEMORY]  Used: ") ++ used ++ uartPuts (text " KB\n") ++
      uartPuts (text "[NETWORK] ") ++
      uartPuts (text (if portal.linkStatus ≠ 0 then "UP\n" else "DOWN\n")) ++
      uartPuts (text "-------------------------------------------\n") ++
      uartPuts (text "Aether Ready.\n"))
  else some []

namespace Console

/-- The loop goes back to its top with this byte, and does not poll. -/
def continues (s : Console) (c : UInt8) : Bool :=
  c = 0x1B ||
    if s.escState = 1 then c = 0x5B || c = 0x4F
    else s.escState = 20 || (s.escState = 2 && (isDigit c || c = 0x7E))

/-- The screen is cleared with this byte. -/
def clears (s : Console) (c : UInt8) : Bool :=
  c ≠ 0x1B && ((s.escState = 20 && c = 0x50) ||
    (s.escState = 2 && c = 0x7E && (s.num = 18 || s.num = 21)))

end Console

namespace MainLoop

/-- `portal_refresh_state`, as far as a renderer reads what it stores. The registers of a device
with a configuration structure hold `mac`. -/
def portalRefreshState (mac : Mac) (s : MainLoop) : MainLoop :=
  { s with
    heapUsageKb := UInt32.ofNat (Monitored.getHeapUsage ⟨s.node.heap, s.heapCurrentPtr, []⟩ / 1024)
    portal :=
      if s.node.globalVnetDev.isSome then { s.portal with linkStatus := 1, mac := mac }
      else { s.portal with linkStatus := 0 } }

/-- The dashboard as it is now. -/
def dashboard (s : MainLoop) : Option (List UInt8) :=
  portalRenderNetDashboard (maxBlocks + 1) s.portal localIpv6 s.node

/-- What the renderers leave on the screen. A new mode is drawn on a cleared screen. -/
def render (s : MainLoop) : Option (List UInt8) :=
  if s.lastMode ≠ some s.console.currentMode then
    match s.console.currentMode with
    | .confirmShutdown => some portalRenderConfirmPrompt
    | .netStats => s.dashboard
    | .debug => some debugBanner
    | .portal => portalRenderTerminal s.portal s.heapUsageKb
  else
    match s.console.currentMode with
    | .netStats => s.dashboard.map (s.screen ++ ·)
    | _ => some s.screen

/-- The refresh. -/
def refresh (mac : Mac) (s : MainLoop) : Option MainLoop :=
  if 100 ≤ s.uptimeMs - s.lastRefresh then
    let s := s.portalRefreshState mac
    s.render.map fun screen ↦
      { s with
        point := .input
        lastMode := some s.console.currentMode
        screen := screen
        lastRefresh := s.uptimeMs
        refreshTick := s.ticks
        refreshes := s.refreshes + 1 }
  else some { s with point := .input }

/-- The loop reads a byte. -/
def key (c : UInt8) (s : MainLoop) : MainLoop :=
  { s with
    console := s.console.input c
    screen := if s.console.clears c then [] else s.screen
    point := if s.console.continues c then .refresh else .poll }

/-- The loop goes on with what an action of the node leaves. -/
def act (x : Action Unit) (next : Point) (s : MainLoop) : Option MainLoop :=
  (x.run s.node).map fun r ↦ { s with node := r.2, point := next }

/-- From one point to the next, `none` where that takes for ever. `received` is the byte in the
receive FIFO, if there is one. -/
def cpu (mac : Mac) (received : Option UInt8) (s : MainLoop) : Option MainLoop :=
  match s.point with
  | .refresh => s.refresh mac
  | .input =>
      match received with
      | none => some { s with point := .poll }
      | some c => some (s.key c)
  | .poll =>
      if s.node.globalVnetDev.isSome then s.act virtioNetPoll .reap
      else some { s with point := .health }
  | .reap => s.act netTxReaper .health
  | .health => s.act healthUpdateTcpStats .refresh

/-- The timer interrupt. -/
def tick (s : MainLoop) : MainLoop := { s with uptimeMs := s.uptimeMs + 10, ticks := s.ticks + 1 }

/-- One step of the loop, of the timer or of the device. The device takes receive buffers from the
available ring and completes them in any order, and completes what is outstanding on the TX queue. -/
inductive Step : MainLoop → MainLoop → Prop where
  | cpu {s s' : MainLoop} (mac : Mac) (received : Option UInt8) :
      s.cpu mac received = some s' → Step s s'
  | tick {s : MainLoop} : Step s s.tick
  | fetch {s : MainLoop} : s.device.lastAvailIdx ≠ s.node.rxQueue.availIdx →
      Step s { s with device := s.device.fetch s.node.rxQueue }
  | fill {s : MainLoop} {id : UInt16} (len : UInt32) (rx : Memory) : id ∈ s.device.fetched →
      Step s { s with
        node := { s.node with rxQueue := deviceComplete s.node.rxQueue id len, rxBuffers := rx }
        device := s.device.finish id }
  | complete {s : MainLoop} {id : UInt16} (len : UInt32) : id ∈ s.node.txQueue.published →
      Step s { s with node := { s.node with
        txQueue := deviceComplete s.node.txQueue id len } }

/-- Before the loop, after `portal_start`. -/
def boot (σ : Node) (mac : Mac) : MainLoop where
  point := .refresh
  node := σ
  device := {}
  console := .boot
  uptimeMs := 0
  lastRefresh := 0
  lastMode := none
  portal := ⟨true, 0, mac⟩
  heapCurrentPtr := heapStart
  heapUsageKb := 0
  screen := []
  ticks := 0
  refreshTick := 0
  refreshes := 0

/-- `current_state` has six zeros for the hardware address at first. -/
theorem length_noMac : (List.replicate 6 (0 : UInt8)).length = 6 := rfl

/-- The states before the loop with a device as `c` says. -/
def Starts (c : Setup) (s : MainLoop) : Prop :=
  ∃ σ, c.Starts σ ∧ s = boot σ ⟨List.replicate 6 0, length_noMac⟩

/-- The states of the loop. -/
abbrev Reaches (c : Setup) : MainLoop → Prop := Reachable (Starts c) Step

end MainLoop

/-! ## Walking the list -/

/-- A line for the state of a TCB. -/
def stateLine (state : Nat) : List UInt8 :=
  uartPuts (text " - Debug State: ") ++ decimal state ++ uartPuts (text "\n")

/-- The states that the dashboard prints: each one is read from the next TCB, and the last one at
address 12. -/
def shiftedStates (m : Memory) : List Conn → List Nat
  | [] => []
  | _ :: rest => rest.map (fun conn ↦ conn.state.toWord.toNat) ++ [load 4 m 12]

/-- The number of established connections. -/
def established (conns : List Conn) : Nat := conns.countP fun conn ↦ conn.state = .established

/-- Both loops count the same. -/
theorem countLoop_eq (m : Memory) (turns cur : Nat) (count : UInt32) :
    countLoop m turns cur count = (connectionLoop m turns cur count).map Prod.snd := by
  induction turns generalizing cur count with
  | zero => rfl
  | succ turns ih =>
      rw [countLoop, connectionLoop]
      by_cases hcur : cur ≠ 0
      · rw [if_pos hcur, if_pos hcur, ih]
        dsimp only
        rw [counterLine_eq]
        cases connectionLoop m turns (load 8 m (cur + 32))
          (if load 4 m (cur + 12) = 3 then count + 1 else count) with
        | none => rfl
        | some _ => rfl
      · rw [if_neg hcur, if_neg hcur]
        rfl

/-- What the loops read of a TCB. -/
theorem load_tcb {m : Memory} {ptr next : Nat} {conn : Conn} (hnext : next < 2 ^ 64)
    (hread : readBytes m ptr sizeofTcb = (Tcb.mk conn next).bytes) :
    load 4 m (ptr + 12) = conn.state.toWord.toNat ∧ load 8 m (ptr + 32) = next := by
  have hword : word (leBytes 8 next) 0 8 = next := by
    have := word_leBytes_append 8 next []
    rwa [List.append_nil, Nat.mod_eq_of_lt (by exact hnext)] at this
  constructor
  · rw [load_eq_word m ptr (show 12 + 4 ≤ sizeofTcb by decide), hread]
    simp only [Tcb.bytes, word_append, length_leBytes, Nat.reduceLeDiff, Nat.reduceSub]
    rw [word_leBytes_append, Nat.mod_eq_of_lt (by exact UInt32.toNat_lt _)]
  · rw [load_eq_word m ptr (show 32 + 8 ≤ sizeofTcb by decide), hread]
    simp only [Tcb.bytes, word_append, length_leBytes, Nat.reduceLeDiff, Nat.reduceSub, hword]

/-- The state of a TCB is established if its word says so. -/
theorem toWord_eq_three (state : TcpState) : state.toWord.toNat = 3 ↔ state = .established := by
  cases state <;> decide

/-- The state printed for a TCB is the one that the link leads to. -/
theorem shiftedStates_cons {m : Memory} {next : Nat} {rest : List TcbBlock}
    (h : Linked m next rest) (conn : Conn) : shiftedStates m (conn :: rest.map (·.conn)) =
      load 4 m (next + 12) :: shiftedStates m (rest.map (·.conn)) := by
  cases rest with
  | nil =>
      obtain rfl : next = 0 := h
      rfl
  | cons b rest =>
      obtain ⟨rfl, _, hnext, hread, -⟩ := h
      rw [(load_tcb hnext hread).1]
      rfl

/-- The loop of the dashboard prints the shifted states and counts the established connections. -/
theorem connectionLoop_eq {m : Memory} {head turns : Nat} {tcbs : List TcbBlock}
    (h : Linked m head tcbs) (hne : ∀ b ∈ tcbs, b.ptr ≠ 0) (hturns : tcbs.length < turns)
    (active : UInt32) : connectionLoop m turns head active =
      some ((shiftedStates m (tcbs.map (·.conn))).flatMap stateLine,
        active + UInt32.ofNat (established (tcbs.map (·.conn)))) := by
  obtain ⟨turns, rfl⟩ : ∃ n, turns = n + 1 := ⟨turns - 1, by omega⟩
  induction tcbs generalizing head turns active with
  | nil =>
      rw [show head = 0 from h, connectionLoop, if_neg (not_not.mpr rfl)]
      exact congrArg (fun n ↦ some ([], n)) (UInt32.add_zero active).symm
  | cons b rest ih =>
      obtain ⟨rfl, next, hnext, hread, hrest⟩ := h
      obtain ⟨hstate, hlink⟩ := load_tcb hnext hread
      obtain ⟨turns, rfl⟩ : ∃ n, turns = n + 1 :=
        ⟨turns - 1, by rw [List.length_cons] at hturns; omega⟩
      have hrec := ih hrest (fun c hc ↦ hne c (List.mem_cons_of_mem b hc))
        (if b.conn.state = .established then active + 1 else active) turns
        (by rw [List.length_cons] at hturns; omega)
      have hline : counterLine " - Debug State: " (UInt64.ofNat (load 4 m (next + 12))) "\n" =
          some (stateLine (load 4 m (next + 12))) := by
        have hlt : load 4 m (next + 12) < 2 ^ 32 := by
          have := leNat_lt (readBytes m (next + 12) 4)
          rwa [length_readBytes] at this
        rw [counterLine_eq, UInt64.toNat_ofNat_of_lt' (hlt.trans (by decide)), Nat.mod_eq_of_lt hlt]
        rfl
      rw [connectionLoop, if_pos (hne b List.mem_cons_self)]
      dsimp only
      rw [hstate, hlink, hline, if_congr (toWord_eq_three b.conn.state) rfl rfl, hrec,
        List.map_cons, shiftedStates_cons hrest, List.flatMap_cons]
      have hcount : (if b.conn.state = .established then active + 1 else active) +
          UInt32.ofNat (established (rest.map (·.conn))) =
          active + UInt32.ofNat (established (b.conn :: rest.map (·.conn))) := by
        unfold established
        by_cases hest : b.conn.state = .established
        · rw [if_pos hest, List.countP_cons_of_pos (by simp [hest]), UInt32.ofNat_add]
          grind
        · rw [if_neg hest, List.countP_cons_of_neg (by simp [hest])]
      rw [← hcount]
      rfl

/-! ## The node of a reachable state -/

/-- The connections of a node. -/
def conns (σ : Node) : List Conn := (σ.connections.getD []).map Prod.snd

theorem conns_eq {σ : Node} {L : Ledger} (h : L.Holds σ []) : conns σ = L.tcbs.map (·.conn) := by
  rw [conns, h.connections_eq]
  simp [Node.server, Function.comp_def]

/-- What the dashboard prints about the connections. -/
theorem connectionLoop_holds {σ : Node} {L : Ledger} (h : L.Holds σ []) :
    connectionLoop σ.heap.mem (maxBlocks + 1) σ.tcpTcbList 0 =
      some ((shiftedStates σ.heap.mem (conns σ)).flatMap stateLine,
        UInt32.ofNat (established (conns σ))) := by
  rw [connectionLoop_eq h.linked (fun _ hb ↦ h.tcb_ne_zero hb) h.length_tcbs, UInt32.zero_add,
    conns_eq h]

/-- The health check returns, and stores the number of established connections. -/
theorem healthUpdateTcpStats_run {σ : Node} {L : Ledger} (h : L.Holds σ []) :
    healthUpdateTcpStats.run σ = some ((), { σ with
      netStats := { σ.netStats with
        tcpActive := (UInt32.ofNat (established (conns σ))).toUInt64 } }) := by
  rw [healthUpdateTcpStats, run_get_bind, countLoop_eq, connectionLoop_holds h]
  rfl

namespace MainLoop

variable {c : Setup} {s s' : MainLoop}

/-- The counter of established connections is up to date. -/
def Counted (s : MainLoop) : Prop :=
  s.node.netStats.tcpActive = (UInt32.ofNat (established (conns s.node))).toUInt64

/-- What holds at every point. From a poll to the next health check the counter may be stale. -/
structure Sound (c : Setup) (s : MainLoop) : Prop where
  node : ∃ L, c.Sound s.node L
  stocked : s.node.RxStocked
  tied : s.device.Tied s.node.rxQueue
  size : s.node.rxQueue.size = c.rxSize
  active : s.portal.portalActive = true
  usage : s.heapCurrentPtr = heapStart ∧ s.heapUsageKb = 0
  counted : s.point ≠ .reap → s.point ≠ .health → s.Counted

/-- What is printed below the traffic statistics. -/
def transportText (s : MainLoop) : List UInt8 :=
  uartPuts (text "[TRANSPORT LAYER]\n") ++
    uartPuts (text " - TCP Listener: Port 80 (HTTP)\n") ++
    (shiftedStates s.node.heap.mem (conns s.node)).flatMap stateLine ++
    (uartPuts (text " - Active Connections: ") ++ decimal (established (conns s.node)) ++
      uartPuts (text "\n")) ++
    uartPuts (text "\n-------------------------------------------------\n") ++
    uartPuts (text " [ESC] Main Portal  |  [ENTER] Refresh\n")

/-- There are too few connections to wrap a counter. -/
theorem established_lt {σ : Node} {L : Ledger} (h : L.Holds σ []) :
    established (conns σ) < 2 ^ 32 := by
  have hlength := h.length_tcbs
  have hle : established (conns σ) ≤ L.tcbs.length := by
    have hmap : (L.tcbs.map (·.conn)).length = L.tcbs.length := List.length_map ..
    rw [conns_eq h, ← hmap]
    exact List.countP_le_length
  have hblocks : maxBlocks + 1 ≤ 2 ^ 32 := by decide
  omega

/-- The dashboard can be drawn, and ends with what it says about the connections. -/
theorem dashboard_eq {L : Ledger} (h : L.Holds s.node []) (hactive : s.portal.portalActive = true) :
    ∃ top, s.dashboard = some (top ++ trafficText s.node.netStats ++ s.transportText) := by
  obtain ⟨ipv6, hipv6, -⟩ := printIpv6_denotes localIpv6
  have hcount : (UInt32.ofNat (established (conns s.node))).toUInt64.toNat % 2 ^ 32 =
      established (conns s.node) := by
    rw [UInt32.toNat_toUInt64, UInt32.toNat_ofNat_of_lt' (established_lt h),
      Nat.mod_eq_of_lt (established_lt h)]
  rw [dashboard, portalRenderNetDashboard, if_pos hactive]
  simp only [uartPrintIp, uartPutInt_eq, hipv6, trafficStats_eq, connectionLoop_holds h,
    counterLine_eq, hcount, Option.bind_eq_bind, Option.bind_some, Option.pure_def]
  have hgroup : ∀ u v w x y z t : List UInt8,
      u ++ v ++ w ++ x ++ y ++ z ++ t = u ++ (v ++ w ++ x ++ y ++ z ++ t) := by simp
  exact ⟨_, congrArg some (hgroup _ _ _ _ _ _ _)⟩

/-- The screen of the portal, which shows no use of the heap. -/
theorem portalRenderTerminal_eq {portal : Portal} (hactive : portal.portalActive = true) :
    ∃ out, portalRenderTerminal portal 0 = some out := by
  rw [portalRenderTerminal, if_pos hactive, uartPutInt_eq]
  exact ⟨_, rfl⟩

/-- The variable that is shown is never assigned to. -/
theorem portalRefreshState_usage (h : s.heapCurrentPtr = heapStart) (mac : Mac) :
    (s.portalRefreshState mac).heapUsageKb = 0 := by
  show UInt32.ofNat ((s.heapCurrentPtr + 2 ^ 64 - heapStart) % 2 ^ 64 / 1024) = 0
  rw [h, Nat.add_sub_cancel_left, Nat.mod_self]
  rfl

theorem portalRefreshState_active (mac : Mac) :
    (s.portalRefreshState mac).portal.portalActive = s.portal.portalActive := by
  rw [portalRefreshState]
  dsimp only
  split <;> rfl

/-- Whatever is to be drawn can be drawn. -/
theorem render_eq {L : Ledger} (h : L.Holds s.node []) (hactive : s.portal.portalActive = true)
    (husage : s.heapUsageKb = 0) : ∃ out, s.render = some out := by
  obtain ⟨top, hdashboard⟩ := dashboard_eq h hactive
  obtain ⟨terminal, hterminal⟩ := portalRenderTerminal_eq hactive
  rw [render]
  split
  · cases s.console.currentMode with
    | portal => exact ⟨terminal, husage ▸ hterminal⟩
    | confirmShutdown => exact ⟨_, rfl⟩
    | netStats => exact ⟨_, hdashboard⟩
    | debug => exact ⟨_, rfl⟩
  · cases s.console.currentMode with
    | portal => exact ⟨_, rfl⟩
    | confirmShutdown => exact ⟨_, rfl⟩
    | netStats => exact ⟨_, congrArg (Option.map (s.screen ++ ·)) hdashboard⟩
    | debug => exact ⟨_, rfl⟩

/-- The refresh returns. -/
theorem Sound.refresh (h : s.Sound c) (hpoint : s.point = .refresh) (mac : Mac) :
    ∃ s', s.refresh mac = some s' ∧ s'.Sound c ∧ s'.point = .input := by
  obtain ⟨L, hL⟩ := h.node
  have hcounted : s.Counted := h.counted (by simp [hpoint]) (by simp [hpoint])
  rw [MainLoop.refresh]
  split
  · have hactive := (portalRefreshState_active (s := s) mac).trans h.active
    have husage := portalRefreshState_usage h.usage.1 mac
    obtain ⟨out, hout⟩ := render_eq (s := s.portalRefreshState mac) hL.holds hactive husage
    dsimp only
    rw [hout]
    exact ⟨_, rfl, ⟨⟨L, hL⟩, h.stocked, h.tied, h.size, hactive, ⟨h.usage.1, husage⟩,
      fun _ _ ↦ hcounted⟩, rfl⟩
  · exact ⟨_, rfl, ⟨⟨L, hL⟩, h.stocked, h.tied, h.size, h.active, h.usage, fun _ _ ↦ hcounted⟩, rfl⟩

/-- A byte changes neither the node nor the portal. -/
theorem Sound.key (h : s.Sound c) (hpoint : s.point = .input) (byte : UInt8) :
    (s.key byte).Sound c :=
  ⟨h.node, h.stocked, h.tied, h.size, h.active, h.usage,
    fun _ _ ↦ h.counted (by simp [hpoint]) (by simp [hpoint])⟩

/-- A step of the node keeps what holds of it. -/
theorem Sound.node_step (h : s.Sound c) (hsize : c.rxSize.toNat ≤ rxQueueSize) {σ' : Node}
    (hstep : s.node.RxStep σ') :
    (∃ L, c.Sound σ' L) ∧ σ'.RxStocked ∧ σ'.rxQueue.size = c.rxSize := by
  obtain ⟨L, hL⟩ := h.node
  obtain ⟨hstocked, hsame⟩ := hstep.stocked hL.holds h.stocked (h.size ▸ hsize)
  exact ⟨hL.step hstep.toStep, hstocked, hsame.trans h.size⟩

/-- Polling returns. -/
theorem Sound.poll (h : s.Sound c) (hsize : c.rxSize.toNat ≤ rxQueueSize)
    (hdvd : c.rxSize.toNat ∣ 2 ^ 16) :
    ∃ s', s.act virtioNetPoll .reap = some s' ∧ s'.Sound c ∧ s'.point = .reap := by
  obtain ⟨L, hL⟩ := h.node
  obtain ⟨σ', hrun⟩ : ∃ σ', virtioNetPoll.run s.node = some ((), σ') := by
    cases hunpopped : s.node.rxQueue.unpopped with
    | nil => exact ⟨_, virtioNetPoll_idle hunpopped⟩
    | cons id rest =>
        obtain ⟨_, _, _, σ', -, -, -, -, -, hpoll, -⟩ :=
          virtioNetPoll_completed hL.holds h.stocked (h.size ▸ hsize) hunpopped
        exact ⟨σ', hpoll⟩
  obtain ⟨hnode, hstocked, hsame⟩ := h.node_step hsize (.poll hrun)
  have htied : s.device.Tied σ'.rxQueue := Receiver.tied_poll (s := ⟨s.node, s.device⟩) hL.holds
    h.tied h.stocked (h.size ▸ hsize) (h.size ▸ hdvd) hrun
  rw [act, hrun]
  exact ⟨_, rfl, ⟨hnode, hstocked, htied, hsame, h.active, h.usage,
    fun hreap ↦ absurd rfl hreap⟩, rfl⟩

/-- Reaping returns. -/
theorem Sound.reap (h : s.Sound c) (hsize : c.rxSize.toNat ≤ rxQueueSize) :
    ∃ s', s.act netTxReaper .health = some s' ∧ s'.Sound c ∧ s'.point = .health := by
  obtain ⟨L, hL⟩ := h.node
  obtain ⟨_, σ', hrun, -⟩ := netTxReaper_spec hL.holds
  obtain ⟨hnode, hstocked, hsame⟩ := h.node_step hsize (.reap hrun)
  have htied : s.device.Tied σ'.rxQueue := by
    rw [netTxReaper_rxQueue hL.holds hrun]
    exact h.tied
  rw [act, hrun]
  exact ⟨_, rfl, ⟨hnode, hstocked, htied, hsame, h.active, h.usage,
    fun _ hhealth ↦ absurd rfl hhealth⟩, rfl⟩

/-- The health check returns, and brings the counter up to date. -/
theorem Sound.health (h : s.Sound c) :
    ∃ s', s.act healthUpdateTcpStats .refresh = some s' ∧ s'.Sound c ∧ s'.point = .refresh := by
  obtain ⟨L, hL⟩ := h.node
  rw [act, healthUpdateTcpStats_run hL.holds]
  refine ⟨_, rfl, ⟨⟨L, ?_, hL.ip, hL.run⟩, h.stocked, h.tied, h.size, h.active, h.usage,
    fun _ _ ↦ rfl⟩, rfl⟩
  exact hL.holds.outside _ s.node.rxQueue s.node.rxBuffers s.node.arpCache

/-- The loop gets from every point to the next, and without a byte to read stays in its order. -/
theorem Sound.cpu (h : s.Sound c) (hsize : c.rxSize.toNat ≤ rxQueueSize)
    (hdvd : c.rxSize.toNat ∣ 2 ^ 16) (mac : Mac) (received : Option UInt8) :
    ∃ s', s.cpu mac received = some s' ∧ s'.Sound c ∧
      (received = none → s'.point = s.point.next) := by
  cases hpoint : s.point with
  | refresh =>
      obtain ⟨s', hrefresh, hs', hnext⟩ := h.refresh hpoint mac
      simp only [MainLoop.cpu, hpoint]
      exact ⟨s', hrefresh, hs', fun _ ↦ hnext⟩
  | input =>
      simp only [MainLoop.cpu, hpoint]
      cases received with
      | none =>
          exact ⟨_, rfl, ⟨h.node, h.stocked, h.tied, h.size, h.active, h.usage,
            fun _ _ ↦ h.counted (by simp [hpoint]) (by simp [hpoint])⟩, fun _ ↦ rfl⟩
      | some byte => exact ⟨_, rfl, h.key hpoint byte, fun hnone ↦ by cases hnone⟩
  | poll =>
      simp only [MainLoop.cpu, hpoint]
      obtain ⟨L, hL⟩ := h.node
      rw [hL.holds.dev, if_pos Option.isSome_some]
      obtain ⟨s', hpoll, hs', hnext⟩ := h.poll hsize hdvd
      exact ⟨s', hpoll, hs', fun _ ↦ hnext⟩
  | reap =>
      simp only [MainLoop.cpu, hpoint]
      obtain ⟨s', hreap, hs', hnext⟩ := h.reap hsize
      exact ⟨s', hreap, hs', fun _ ↦ hnext⟩
  | health =>
      simp only [MainLoop.cpu, hpoint]
      obtain ⟨s', hhealth, hs', hnext⟩ := h.health
      exact ⟨s', hhealth, hs', fun _ ↦ hnext⟩

/-- Every step keeps what holds at every point. -/
theorem Sound.step (h : s.Sound c) (hsize : c.rxSize.toNat ≤ rxQueueSize)
    (hdvd : c.rxSize.toNat ∣ 2 ^ 16) (hstep : Step s s') : s'.Sound c := by
  cases hstep with
  | cpu mac received hcpu =>
      obtain ⟨t, ht, hsound, -⟩ := h.cpu hsize hdvd mac received
      cases hcpu.symm.trans ht
      exact hsound
  | tick => exact ⟨h.node, h.stocked, h.tied, h.size, h.active, h.usage, h.counted⟩
  | fetch hne =>
      exact ⟨h.node, h.stocked, h.tied.fetch hne, h.size, h.active, h.usage, h.counted⟩
  | fill len rx hid =>
      have hpublished := h.tied.mem hid
      have hfree := h.stocked.slotFree (h.size ▸ hdvd) hpublished
      obtain ⟨hnode, hstocked, hsame⟩ := h.node_step hsize (.fill len rx hpublished hfree)
      exact ⟨hnode, hstocked, h.tied.complete hid len, hsame, h.active, h.usage, h.counted⟩
  | complete len hid =>
      obtain ⟨hnode, hstocked, hsame⟩ := h.node_step hsize (.complete len hid)
      exact ⟨hnode, hstocked, h.tied, hsame, h.active, h.usage, h.counted⟩

/-- It holds before the loop. -/
theorem Starts.sound (h : Starts c s) : s.Sound c := by
  obtain ⟨σ, hstarts, rfl⟩ := h
  obtain ⟨hstocked, hsize, -, -, hstats⟩ := hstarts.stocked
  obtain ⟨⟨L, hL, hserver⟩, -⟩ := wp_run (initialise_spec c) hstarts
  have htied : AvailReader.Tied {} σ.rxQueue := (Receiver.sound_start (s := ⟨σ, {}⟩) hstarts rfl).tied
  refine ⟨⟨L, hL⟩, hstocked, htied, hsize, rfl, ⟨rfl, rfl⟩, fun _ _ ↦ ?_⟩
  have hnone : conns σ = [] := by
    have hconns := congrArg Server.conns hserver
    rw [conns, hL.holds.connections_eq, hconns]
    rfl
  show σ.netStats.tcpActive = (UInt32.ofNat (established (conns σ))).toUInt64
  rw [hnone, hstats]
  rfl

theorem Reaches.sound (h : Reaches c s) (hsize : c.rxSize.toNat ≤ rxQueueSize)
    (hdvd : c.rxSize.toNat ∣ 2 ^ 16) : s.Sound c :=
  h.invariant (·.Sound c) (fun _ hstarts ↦ hstarts.sound) fun _ _ hsound hstep ↦
    hsound.step hsize hdvd hstep

/-! ## What a step does -/

/-- The loop after a refresh. -/
def drawn (mac : Mac) (screen : List UInt8) (s : MainLoop) : MainLoop :=
  { s.portalRefreshState mac with
    point := .input
    lastMode := some s.console.currentMode
    screen := screen
    lastRefresh := s.uptimeMs
    refreshTick := s.ticks
    refreshes := s.refreshes + 1 }

/-- No refresh, and no tick. -/
structure SameDrawing (s s' : MainLoop) : Prop where
  uptimeMs : s'.uptimeMs = s.uptimeMs
  lastRefresh : s'.lastRefresh = s.lastRefresh
  lastMode : s'.lastMode = s.lastMode
  heapCurrentPtr : s'.heapCurrentPtr = s.heapCurrentPtr
  active : s'.portal.portalActive = s.portal.portalActive
  ticks : s'.ticks = s.ticks
  refreshTick : s'.refreshTick = s.refreshTick
  refreshes : s'.refreshes = s.refreshes

/-- What a byte does to the console and the screen, if there is one. -/
def Reads (received : Option UInt8) (s s' : MainLoop) : Prop :=
  match received with
  | none => s'.console = s.console ∧ s'.screen = s.screen
  | some byte => s'.console = s.console.input byte ∧
      s'.screen = if s.console.clears byte then [] else s.screen

/-- What goes on with the node does not concern the drawing. -/
theorem act_cases {x : Action Unit} {next : Point} (h : s.act x next = some s') :
    s.SameDrawing s' ∧ s.Reads none s' := by
  obtain ⟨r, -, rfl⟩ := Option.map_eq_some_iff.mp h
  exact ⟨⟨rfl, rfl, rfl, rfl, rfl, rfl, rfl, rfl⟩, rfl, rfl⟩

/-- The loop refreshes, or reads a byte at most. -/
theorem cpu_cases {mac : Mac} {received : Option UInt8} (h : s.cpu mac received = some s') :
    (s.point = .refresh ∧ 100 ≤ s.uptimeMs - s.lastRefresh ∧ ∃ screen,
      (s.portalRefreshState mac).render = some screen ∧ s' = s.drawn mac screen) ∨
    (¬ (s.point = .refresh ∧ 100 ≤ s.uptimeMs - s.lastRefresh) ∧ s.SameDrawing s' ∧
      ∃ read, s.Reads read s') := by
  cases hpoint : s.point with
  | refresh =>
      simp only [MainLoop.cpu, hpoint, MainLoop.refresh] at h
      split at h
      · rename_i hdue
        obtain ⟨screen, hscreen, rfl⟩ := Option.map_eq_some_iff.mp h
        exact .inl ⟨rfl, hdue, screen, hscreen, rfl⟩
      · rename_i hdue
        cases h
        exact .inr ⟨fun hboth ↦ hdue hboth.2, ⟨rfl, rfl, rfl, rfl, rfl, rfl, rfl, rfl⟩, none, rfl,
          rfl⟩
  | input =>
      refine .inr ⟨fun hboth ↦ absurd hboth.1 (by decide), ?_⟩
      simp only [MainLoop.cpu, hpoint] at h
      cases received with
      | none =>
          cases h
          exact ⟨⟨rfl, rfl, rfl, rfl, rfl, rfl, rfl, rfl⟩, none, rfl, rfl⟩
      | some byte =>
          cases h
          exact ⟨⟨rfl, rfl, rfl, rfl, rfl, rfl, rfl, rfl⟩, some byte, rfl, rfl⟩
  | poll =>
      refine .inr ⟨fun hboth ↦ absurd hboth.1 (by decide), ?_⟩
      simp only [MainLoop.cpu, hpoint] at h
      split at h
      · exact (act_cases h).imp id fun hread ↦ ⟨none, hread⟩
      · cases h
        exact ⟨⟨rfl, rfl, rfl, rfl, rfl, rfl, rfl, rfl⟩, none, rfl, rfl⟩
  | reap =>
      refine .inr ⟨fun hboth ↦ absurd hboth.1 (by decide), ?_⟩
      simp only [MainLoop.cpu, hpoint] at h
      exact (act_cases h).imp id fun hread ↦ ⟨none, hread⟩
  | health =>
      refine .inr ⟨fun hboth ↦ absurd hboth.1 (by decide), ?_⟩
      simp only [MainLoop.cpu, hpoint] at h
      exact (act_cases h).imp id fun hread ↦ ⟨none, hread⟩

/-- A step is a refresh that is due, a tick, or one that reads a byte at most. -/
theorem Step.cases (h : Step s s') :
    (100 ≤ s.uptimeMs - s.lastRefresh ∧ ∃ mac screen,
      (s.portalRefreshState mac).render = some screen ∧ s' = s.drawn mac screen) ∨
    s' = s.tick ∨ (s.SameDrawing s' ∧ ∃ read, s.Reads read s') := by
  cases h with
  | cpu mac received hcpu =>
      rcases cpu_cases hcpu with ⟨-, hdue, hdrawn⟩ | ⟨-, hsame, hread⟩
      · exact .inl ⟨hdue, mac, hdrawn⟩
      · exact .inr (.inr ⟨hsame, hread⟩)
  | tick => exact .inr (.inl rfl)
  | fetch hne => exact .inr (.inr ⟨⟨rfl, rfl, rfl, rfl, rfl, rfl, rfl, rfl⟩, none, rfl, rfl⟩)
  | fill len rx hid =>
      exact .inr (.inr ⟨⟨rfl, rfl, rfl, rfl, rfl, rfl, rfl, rfl⟩, none, rfl, rfl⟩)
  | complete len hid =>
      exact .inr (.inr ⟨⟨rfl, rfl, rfl, rfl, rfl, rfl, rfl, rfl⟩, none, rfl, rfl⟩)

/-! ## Turns -/

/-- Without a byte to read the loop gets to its next point, and refreshes if that is due. -/
theorem Sound.advance (h : s.Sound c) (hsize : c.rxSize.toNat ≤ rxQueueSize)
    (hdvd : c.rxSize.toNat ∣ 2 ^ 16) (mac : Mac) :
    ∃ t, Step s t ∧ t.Sound c ∧ t.point = s.point.next ∧ t.refreshes = s.refreshes +
      if s.point = .refresh ∧ 100 ≤ s.uptimeMs - s.lastRefresh then 1 else 0 := by
  obtain ⟨t, hcpu, hsound, hnext⟩ := h.cpu hsize hdvd mac none
  refine ⟨t, .cpu mac none hcpu, hsound, hnext rfl, ?_⟩
  rcases cpu_cases hcpu with ⟨hpoint, hdue, _, -, rfl⟩ | ⟨hdue, hsame, -⟩
  · rw [if_pos ⟨hpoint, hdue⟩]
    rfl
  · rw [if_neg hdue]
    exact hsame.refreshes

/-- A turn without a byte comes back to the top of the loop. -/
theorem Sound.turn (h : s.Sound c) (hsize : c.rxSize.toNat ≤ rxQueueSize)
    (hdvd : c.rxSize.toNat ∣ 2 ^ 16) (hpoint : s.point = .refresh) (mac : Mac) :
    ∃ t, Relation.ReflTransGen Step s t ∧ t.point = .refresh ∧ t.refreshes = s.refreshes +
      if 100 ≤ s.uptimeMs - s.lastRefresh then 1 else 0 := by
  obtain ⟨t₁, hstep₁, hs₁, hpoint₁, hcount₁⟩ := h.advance hsize hdvd mac
  obtain ⟨t₂, hstep₂, hs₂, hpoint₂, hcount₂⟩ := hs₁.advance hsize hdvd mac
  obtain ⟨t₃, hstep₃, hs₃, hpoint₃, hcount₃⟩ := hs₂.advance hsize hdvd mac
  obtain ⟨t₄, hstep₄, hs₄, hpoint₄, hcount₄⟩ := hs₃.advance hsize hdvd mac
  obtain ⟨t₅, hstep₅, -, hpoint₅, hcount₅⟩ := hs₄.advance hsize hdvd mac
  simp only [hpoint, Point.next] at hpoint₁
  simp only [hpoint₁, Point.next] at hpoint₂
  simp only [hpoint₂, Point.next] at hpoint₃
  simp only [hpoint₃, Point.next] at hpoint₄
  simp only [hpoint₄, Point.next] at hpoint₅
  refine ⟨t₅, .tail (.tail (.tail (.tail (.single hstep₁) hstep₂) hstep₃) hstep₄) hstep₅, hpoint₅, ?_⟩
  simp only [hcount₅, hpoint₄, hcount₄, hpoint₃, hcount₃, hpoint₂, hcount₂, hpoint₁, hcount₁,
    hpoint, reduceCtorEq, false_and, true_and, if_false, Nat.add_zero]

/-- The sample setup starts the loop. -/
theorem sample_starts : ∃ s, Starts .sample s ∧ s.point = .refresh ∧ s.uptimeMs = 0 ∧
    s.lastRefresh = 0 ∧ s.console = .boot ∧ s.refreshes = 0 := by
  have hexec : (Setup.exec Setup.sample []).isSome = true := by decide +kernel
  obtain ⟨σ, hσ⟩ := Option.isSome_iff_exists.mp hexec
  exact ⟨_, ⟨σ, Setup.exec_nil hσ, rfl⟩, rfl, rfl, rfl, rfl, rfl⟩

/-- The timer can interrupt the loop any number of times. -/
theorem ticks_run (s : MainLoop) (n : Nat) : ∃ t, Relation.ReflTransGen Step s t ∧
    t.point = s.point ∧ t.uptimeMs = s.uptimeMs + UInt64.ofNat (10 * n) ∧
    t.lastRefresh = s.lastRefresh ∧ t.console = s.console ∧ t.refreshes = s.refreshes := by
  induction n with
  | zero => exact ⟨s, .refl, rfl, (UInt64.add_zero _).symm, rfl, rfl, rfl⟩
  | succ n ih =>
      obtain ⟨t, hrun, hpoint, huptime, hlast, hconsole, hrefreshes⟩ := ih
      refine ⟨t.tick, hrun.tail .tick, hpoint, ?_, hlast, hconsole, hrefreshes⟩
      show t.uptimeMs + 10 = _
      rw [huptime, Nat.mul_succ, UInt64.ofNat_add, UInt64.add_assoc]
      rfl

/-- For every RX queue whose size is a power of two up to 256, and every interleaving of the parts of
a turn with the timer, the device and a user: the RX descriptors are paired with their buffers, the
loop gets from the point where it is to the next, the counter of established connections is right at
the top of the loop, and the dashboard can be drawn. It ends with the number of established
connections, above which the state of each TCB but the first stands in the line of the one before
it, and the word at address 12 in the last line. -/
theorem main_loop_runs (c : Setup) (hsize : c.rxSize.toNat ≤ rxQueueSize)
    (hdvd : c.rxSize.toNat ∣ 2 ^ 16) (s : MainLoop) (h : Reaches c s) :
    s.node.InOrder ∧ Receiver.Paired c.rxSize.toNat ⟨s.node, s.device⟩ ∧
    (∀ mac received, ∃ s', s.cpu mac received = some s') ∧
    (s.point = .refresh →
      s.node.netStats.tcpActive.toNat = established (conns s.node)) ∧
    ∃ top, s.dashboard = some (top ++ trafficText s.node.netStats ++ s.transportText) := by
  have hs := h.sound hsize hdvd
  obtain ⟨L, hL⟩ := hs.node
  refine ⟨⟨L, hL.holds⟩, ?_, fun mac received ↦ ?_, fun hpoint ↦ ?_, ?_⟩
  · rw [← hs.size] at hsize hdvd ⊢
    exact Receiver.paired (s := ⟨s.node, s.device⟩) hL.holds hs.tied hs.stocked hsize hdvd
  · obtain ⟨s', hcpu, -⟩ := hs.cpu hsize hdvd mac received
    exact ⟨s', hcpu⟩
  · have hcounted : s.Counted := hs.counted (by simp [hpoint]) (by simp [hpoint])
    rw [hcounted, UInt32.toNat_toUInt64, UInt32.toNat_ofNat_of_lt' (established_lt hL.holds)]
  · exact dashboard_eq hL.holds hs.active

/-- After a hundred milliseconds and a turn with a refresh. -/
theorem main_loop_runs_turn : ∃ s, Reaches .sample s ∧ s.refreshes = 1 ∧
    s.node.netStats.tcpActive.toNat = established (conns s.node) := by
  obtain ⟨s₀, hstarts, hpoint₀, huptime₀, hlast₀, -, hrefreshes₀⟩ := sample_starts
  obtain ⟨s₁, hticks, hpoint₁, huptime₁, hlast₁, -, hrefreshes₁⟩ := ticks_run s₀ 10
  have hreaches₁ : Reaches .sample s₁ := Reachable.steps (.init hstarts) hticks
  obtain ⟨s, hturn, hpoint, hrefreshes⟩ := (hreaches₁.sound (by decide) (by decide)).turn
    (by decide) (by decide) (hpoint₁.trans hpoint₀) gatewayMac
  have hreaches : Reaches .sample s := Reachable.steps hreaches₁ hturn
  obtain ⟨-, -, -, hcounted, -⟩ :=
    main_loop_runs .sample (by decide) (by decide) s hreaches
  refine ⟨s, hreaches, ?_, hcounted hpoint⟩
  rw [hrefreshes, huptime₁, huptime₀, hlast₁, hlast₀, hrefreshes₁, hrefreshes₀]
  rfl

/-! ## How often the loop refreshes -/

/-- The clock and the time of the last refresh are what is recorded. -/
structure Timed (s : MainLoop) : Prop where
  uptime : s.uptimeMs = UInt64.ofNat (10 * s.ticks)
  last : s.lastRefresh = UInt64.ofNat (10 * s.refreshTick)
  past : s.refreshTick ≤ s.ticks

/-- The loop refreshes if and only if 100 ms have passed, as far as 64 bits show it. -/
theorem Timed.elapsed (h : s.Timed) :
    100 ≤ s.uptimeMs - s.lastRefresh ↔ 100 ≤ 10 * (s.ticks - s.refreshTick) % 2 ^ 64 := by
  have hpast := h.past
  have hsub : s.uptimeMs - s.lastRefresh = UInt64.ofNat (10 * (s.ticks - s.refreshTick)) := by
    have hsum : 10 * s.ticks = 10 * (s.ticks - s.refreshTick) + 10 * s.refreshTick := by omega
    rw [h.uptime, h.last, hsum, UInt64.ofNat_add, UInt64.add_sub_cancel]
  rw [hsub, UInt64.le_iff_toNat_le, UInt64.toNat_ofNat']
  rfl

/-- The times stay what is recorded. -/
theorem Timed.step (h : s.Timed) (hstep : Step s s') : s'.Timed := by
  rcases hstep.cases with ⟨-, _, _, -, rfl⟩ | rfl | ⟨hsame, -⟩
  · exact ⟨h.uptime, h.uptime, le_rfl⟩
  · refine ⟨?_, h.last, h.past.trans (Nat.le_succ _)⟩
    show s.uptimeMs + 10 = UInt64.ofNat (10 * (s.ticks + 1))
    rw [h.uptime, Nat.mul_succ, UInt64.ofNat_add]
    rfl
  · refine ⟨?_, ?_, ?_⟩
    · rw [hsame.uptimeMs, hsame.ticks, h.uptime]
    · rw [hsame.lastRefresh, hsame.refreshTick, h.last]
    · rw [hsame.refreshTick, hsame.ticks]
      exact h.past

theorem Reaches.timed (h : Reaches c s) : s.Timed :=
  h.invariant Timed (fun _ hstarts ↦ by
    obtain ⟨σ, -, rfl⟩ := hstarts
    exact ⟨rfl, rfl, le_rfl⟩) fun _ _ htimed hstep ↦ htimed.step hstep

/-- Since `s`: the first refresh may have been made at once, and each further one took 100 ms. -/
structure Paced (s s' : MainLoop) : Prop where
  timed : s'.Timed
  ticks : s.ticks ≤ s'.ticks
  refreshes : s'.refreshes = s.refreshes ∨ s.refreshes < s'.refreshes ∧ s.ticks ≤ s'.refreshTick ∧
    100 * (s'.refreshes - s.refreshes - 1) ≤ 10 * (s'.refreshTick - s.ticks)

theorem Paced.step {t : MainLoop} (h : s.Paced t) (hstep : Step t s') : s.Paced s' := by
  have htimed := h.timed.step hstep
  have hticks := h.ticks
  have hpast := h.timed.past
  rcases hstep.cases with ⟨hdue, _, _, -, rfl⟩ | rfl | ⟨hsame, -⟩
  · refine ⟨htimed, hticks, .inr ?_⟩
    have hlate := (h.timed.elapsed.mp hdue).trans (Nat.mod_le _ _)
    show s.refreshes < t.refreshes + 1 ∧ s.ticks ≤ t.ticks ∧
      100 * (t.refreshes + 1 - s.refreshes - 1) ≤ 10 * (t.ticks - s.ticks)
    rcases h.refreshes with hfirst | ⟨hmore, hlast, hpaced⟩
    · omega
    · omega
  · exact ⟨htimed, hticks.trans (Nat.le_succ _), h.refreshes⟩
  · refine ⟨htimed, hsame.ticks ▸ hticks, ?_⟩
    rw [hsame.refreshes, hsame.refreshTick]
    exact h.refreshes

/-- In every stretch of every run the loop refreshes at most once, and once more for each 100 ms that
pass. At its top it refreshes if 100 ms have passed since it did so last, as far as the 64 bits of
the clock show it, and else not. -/
theorem refresh_rate (c : Setup) (s s' : MainLoop) (h : Reaches c s)
    (hrun : Relation.ReflTransGen Step s s') :
    s.refreshes ≤ s'.refreshes ∧
    100 * (s'.refreshes - s.refreshes) ≤ 10 * (s'.ticks - s.ticks) + 100 ∧
    (s.point = .refresh → ∀ mac received t, s.cpu mac received = some t →
      t.refreshes = s.refreshes + if 100 ≤ 10 * (s.ticks - s.refreshTick) % 2 ^ 64 then 1 else 0) := by
  have hpaced : s.Paced s' := by
    induction hrun with
    | refl => exact ⟨h.timed, le_rfl, .inl rfl⟩
    | tail _ hstep ih => exact ih.step hstep
  have hpast := hpaced.timed.past
  have hticks := hpaced.ticks
  refine ⟨?_, ?_, fun hpoint mac received t hcpu ↦ ?_⟩
  · rcases hpaced.refreshes with hsame | ⟨hmore, -⟩ <;> omega
  · rcases hpaced.refreshes with hsame | ⟨hmore, hlast, hbound⟩ <;> omega
  · rcases cpu_cases hcpu with ⟨-, hdue, _, -, rfl⟩ | ⟨hdue, hsame, -⟩
    · rw [if_pos (h.timed.elapsed.mp hdue)]
      rfl
    · rw [if_neg fun hlate ↦ hdue ⟨hpoint, h.timed.elapsed.mpr hlate⟩]
      exact hsame.refreshes

/-- The first refresh, 100 ms after the start. -/
theorem refresh_rate_first : ∃ s t mac, Reaches .sample s ∧ s.refreshes = 0 ∧
    s.cpu mac none = some t ∧ t.refreshes = 1 := by
  obtain ⟨s₀, hstarts, hpoint₀, huptime₀, hlast₀, -, hrefreshes₀⟩ := sample_starts
  obtain ⟨s, hrun, hpoint, huptime, hlast, -, hrefreshes⟩ := ticks_run s₀ 10
  have hreaches : Reaches .sample s := Reachable.steps (.init hstarts) hrun
  obtain ⟨t, hcpu, -⟩ := (hreaches.sound (by decide) (by decide)).cpu (by decide) (by decide)
    gatewayMac none
  obtain ⟨-, -, hcount⟩ := refresh_rate .sample s s hreaches .refl
  have hdue : 100 ≤ 10 * (s.ticks - s.refreshTick) % 2 ^ 64 := by
    refine hreaches.timed.elapsed.mp ?_
    rw [huptime, huptime₀, hlast, hlast₀]
    decide
  refine ⟨s, t, gatewayMac, hreaches, hrefreshes.trans hrefreshes₀, hcpu, ?_⟩
  rw [hcount (hpoint.trans hpoint₀) gatewayMac none t hcpu, if_pos hdue, hrefreshes, hrefreshes₀]

/-! ## What is on the screen -/

/-- A byte that does not clear the screen does not select a mode. -/
theorem input_mode {t : Console} {byte : UInt8} (h : t.clears byte = false) :
    (t.input byte).currentMode = t.currentMode := by
  unfold Console.clears at h
  unfold Console.input
  split
  · rfl
  · rename_i hescape
    rw [decide_eq_true hescape, Bool.true_and, Bool.or_eq_false_iff] at h
    split
    · split
      · rfl
      split
      · rfl
      · rfl
    split
    · rename_i hstate
      have hletter : byte ≠ 0x50 := by simpa [hstate] using h.1
      exact if_neg hletter
    split
    · rename_i hstate
      split
      · rfl
      split
      · rename_i htilde
        have hnum : t.num ≠ 18 ∧ t.num ≠ 21 := by simpa [hstate, htilde] using h.2
        show Console.numMode t.num t.currentMode = t.currentMode
        rw [Console.numMode, if_neg hnum.1, if_neg hnum.2]
      · rfl
    · rfl

/-- What the screen shows of each mode. -/
def Displays (c : Setup) (screen : List UInt8) : KernelMode → Prop
  | .portal => ∃ portal : Portal, portal.portalActive = true ∧
      portalRenderTerminal portal 0 = some screen
  | .confirmShutdown => screen = portalRenderConfirmPrompt
  | .netStats => ∃ drawn : List (List UInt8), screen = drawn.flatten ∧ ∀ out ∈ drawn,
      ∃ t mac, Reaches c t ∧ (t.portalRefreshState mac).dashboard = some out
  | .debug => screen = debugBanner

/-- The screen is blank, or shows the mode that was drawn last. A mode that is yet to be drawn has a
blank screen. -/
structure Shown (c : Setup) (s : MainLoop) : Prop where
  usage : s.heapCurrentPtr = heapStart
  active : s.portal.portalActive = true
  pending : s.lastMode ≠ some s.console.currentMode → s.screen = []
  drawn : ∀ mode, s.lastMode = some mode → s.screen = [] ∨ Displays c s.screen mode

/-- A refresh leaves the screen of its mode, or leaves a blank screen blank. -/
theorem Shown.render (h : s.Shown c) (hreaches : Reaches c s) {mac : Mac} {screen : List UInt8}
    (hrender : (s.portalRefreshState mac).render = some screen) :
    screen = [] ∨ Displays c screen s.console.currentMode := by
  have hactive := (portalRefreshState_active (s := s) mac).trans h.active
  have husage := portalRefreshState_usage h.usage mac
  rw [MainLoop.render] at hrender
  split at hrender
  · -- a new mode
    refine .inr ?_
    change (match s.console.currentMode with
      | .confirmShutdown => some portalRenderConfirmPrompt
      | .netStats => (s.portalRefreshState mac).dashboard
      | .debug => some debugBanner
      | .portal => portalRenderTerminal (s.portalRefreshState mac).portal
        (s.portalRefreshState mac).heapUsageKb) = some screen at hrender
    cases hmode : s.console.currentMode with
    | portal =>
        rw [hmode, husage] at hrender
        exact ⟨_, hactive, hrender⟩
    | confirmShutdown =>
        rw [hmode] at hrender
        exact (Option.some.inj hrender).symm
    | netStats =>
        rw [hmode] at hrender
        refine ⟨[screen], by simp, fun out hout ↦ ?_⟩
        rw [List.mem_singleton.mp hout]
        exact ⟨s, mac, hreaches, hrender⟩
    | debug =>
        rw [hmode] at hrender
        exact (Option.some.inj hrender).symm
  · rename_i hsame
    have hdrawn := h.drawn s.console.currentMode (not_not.mp hsame)
    change (match s.console.currentMode with
      | .netStats => (s.portalRefreshState mac).dashboard.map (s.screen ++ ·)
      | _ => some s.screen) = some screen at hrender
    cases hmode : s.console.currentMode with
    | netStats =>
        rw [hmode] at hrender hdrawn
        obtain ⟨out, hout, rfl⟩ := Option.map_eq_some_iff.mp hrender
        obtain ⟨before, hbefore, hall⟩ : Displays c s.screen .netStats :=
          hdrawn.elim (fun hblank ↦ ⟨[], hblank, nofun⟩) id
        refine .inr ⟨before ++ [out], by simp [hbefore], fun o ho ↦ ?_⟩
        rcases List.mem_append.mp ho with hold | hnew
        · exact hall o hold
        · rw [List.mem_singleton.mp hnew]
          exact ⟨s, mac, hreaches, hout⟩
    | portal | confirmShutdown | debug =>
        rw [hmode] at hrender hdrawn
        cases hrender
        exact hdrawn

theorem Shown.step (h : s.Shown c) (hreaches : Reaches c s) (hstep : Step s s') : s'.Shown c := by
  rcases hstep.cases with ⟨-, mac, screen, hrender, rfl⟩ | rfl | ⟨hsame, read, hread⟩
  · refine ⟨h.usage, (portalRefreshState_active mac).trans h.active, fun hne ↦ absurd rfl hne, ?_⟩
    intro mode hmode
    obtain rfl := Option.some.inj hmode
    exact h.render hreaches hrender
  · exact ⟨h.usage, h.active, h.pending, h.drawn⟩
  · have husage := hsame.heapCurrentPtr.trans h.usage
    have hactive := hsame.active.trans h.active
    cases read with
    | none =>
        obtain ⟨hconsole, hscreen⟩ := hread
        refine ⟨husage, hactive, ?_, ?_⟩
        · rw [hsame.lastMode, hconsole, hscreen]
          exact h.pending
        · rw [hsame.lastMode, hscreen]
          exact h.drawn
    | some byte =>
        obtain ⟨hconsole, hscreen⟩ := hread
        cases hclears : s.console.clears byte with
        | true =>
            rw [hclears, if_pos rfl] at hscreen
            exact ⟨husage, hactive, fun _ ↦ hscreen, fun _ _ ↦ .inl hscreen⟩
        | false =>
            rw [hclears, if_neg Bool.false_ne_true] at hscreen
            refine ⟨husage, hactive, ?_, ?_⟩
            · rw [hsame.lastMode, hconsole, hscreen, input_mode hclears]
              exact h.pending
            · rw [hsame.lastMode, hscreen]
              exact h.drawn

theorem Reaches.shown (h : Reaches c s) : s.Shown c := by
  induction h with
  | init hstarts =>
      obtain ⟨σ, -, rfl⟩ := hstarts
      exact ⟨rfl, rfl, fun _ ↦ rfl, nofun⟩
  | step hreaches hstep ih => exact ih.step hreaches hstep

/-- In every state of every run what the loop and its renderers printed since the screen was cleared
is nothing, or the mode that was drawn last: the portal with 0 KB used, whatever is on the heap, the
prompt, the banner, or dashboards one below the other. Of a mode that is selected and not drawn yet
nothing is printed. -/
theorem screen_shows (c : Setup) (s : MainLoop) (h : Reaches c s) :
    (s.lastMode ≠ some s.console.currentMode → s.screen = []) ∧
    ∀ mode, s.lastMode = some mode → s.screen = [] ∨ Displays c s.screen mode :=
  ⟨h.shown.pending, h.shown.drawn⟩

/-- After the first refresh the portal is on the screen. -/
theorem screen_shows_portal : ∃ s, Reaches .sample s ∧ s.lastMode = some .portal ∧
    (s.screen = [] ∨ Displays .sample s.screen .portal) := by
  obtain ⟨s₀, hstarts, hpoint₀, huptime₀, hlast₀, hconsole₀, -⟩ := sample_starts
  obtain ⟨s₁, hticks, hpoint₁, huptime₁, hlast₁, hconsole₁, -⟩ := ticks_run s₀ 10
  have hreaches₁ : Reaches .sample s₁ := Reachable.steps (.init hstarts) hticks
  obtain ⟨s, hcpu, -⟩ := (hreaches₁.sound (by decide) (by decide)).cpu (by decide) (by decide)
    gatewayMac none
  have hreaches : Reaches .sample s := hreaches₁.step (.cpu gatewayMac none hcpu)
  have hdue : 100 ≤ s₁.uptimeMs - s₁.lastRefresh := by
    rw [huptime₁, huptime₀, hlast₁, hlast₀]
    decide
  have hmode : s.lastMode = some .portal := by
    rcases cpu_cases hcpu with ⟨-, -, screen, -, rfl⟩ | ⟨hnot, -⟩
    · show some s₁.console.currentMode = some .portal
      rw [hconsole₁, hconsole₀]
      rfl
    · exact absurd ⟨hpoint₁.trans hpoint₀, hdue⟩ hnot
  exact ⟨s, hreaches, hmode, (screen_shows .sample s hreaches).2 .portal hmode⟩

/-- A screen of one mode that stays blank. -/
def Blank (mode : KernelMode) (s : MainLoop) : Prop :=
  s.screen = [] ∧ s.lastMode = some mode

/-- Nothing but the dashboard is drawn twice. -/
theorem Blank.step {mode : KernelMode} (h : s.Blank mode) (hmode : s.console.currentMode = mode)
    (hne : mode ≠ .netStats) (hstep : Step s s') : s'.Blank mode := by
  obtain ⟨hblank, hlast⟩ := h
  rcases hstep.cases with ⟨-, mac, screen, hrender, rfl⟩ | rfl | ⟨hsame, read, hread⟩
  · refine ⟨?_, congrArg some hmode⟩
    have hdrawn : ¬ (s.portalRefreshState mac).lastMode ≠
        some (s.portalRefreshState mac).console.currentMode := by
      show ¬ s.lastMode ≠ some s.console.currentMode
      rw [hlast, hmode]
      exact not_not.mpr rfl
    rw [MainLoop.render, if_neg hdrawn] at hrender
    change (match s.console.currentMode with
      | .netStats => (s.portalRefreshState mac).dashboard.map (s.screen ++ ·)
      | _ => some s.screen) = some screen at hrender
    rw [hmode] at hrender
    cases mode with
    | netStats => exact absurd rfl hne
    | portal | confirmShutdown | debug =>
        cases hrender
        exact hblank
  · exact ⟨hblank, hlast⟩
  · refine ⟨?_, hsame.lastMode.trans hlast⟩
    cases read with
    | none => exact hread.2.trans hblank
    | some byte =>
        rw [hread.2, hblank]
        exact ite_self _

/-- The key of the screen that is shown clears it, and unless that is the dashboard the loop and its
renderers print nothing more in any run for as long as the mode stays. -/
theorem key_blanks_screen (s : MainLoop) (byte : UInt8)
    (hdrawn : s.lastMode = some s.console.currentMode) (hkey : s.console.clears byte = true)
    (hne : s.console.currentMode ≠ .netStats) (s' : MainLoop)
    (hrun : Relation.ReflTransGen
      (fun t t' ↦ Step t t' ∧ t.console.currentMode = s.console.currentMode) (s.key byte) s') :
    s'.screen = [] := by
  have hblank : s'.Blank s.console.currentMode := by
    induction hrun with
    | refl => exact ⟨if_pos hkey, hdrawn⟩
    | tail _ hstep ih => exact ih.step hstep.2 hne hstep.1
  exact hblank.1

/-- The key for the prompt is pressed while the prompt is shown. -/
theorem key_blanks_screen_prompt : ∃ s : MainLoop, s.screen = portalRenderConfirmPrompt ∧
    s.console.clears 0x7E = true ∧ (s.key 0x7E).tick.screen = [] := by
  refine ⟨{ boot (.boot (fun _ ↦ 0) (fun _ ↦ 0) gatewayMac 0x0A00020F 7000) gatewayMac with
      lastMode := some .confirmShutdown
      console := ⟨2, 18, .confirmShutdown⟩
      screen := portalRenderConfirmPrompt }, rfl, rfl, ?_⟩
  exact key_blanks_screen _ 0x7E rfl rfl KernelMode.noConfusion _ (.single ⟨.tick, rfl⟩)

end MainLoop

end Aether.Kernel
