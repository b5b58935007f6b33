import Aether.Ethernet.ReceiveSpec
import Aether.Lib.Transition

/-!
# Runs of a node

A node starts with `initialise` over RAM of any content. From then on received data arrives,
transmissions complete, and the reaper runs, in any order. `Reaches.sound` is the invariant of all
runs: the ledger accounts for every heap block, and the server behind the node made a run of its
own.
-/

namespace Aether.Ethernet

open ByteMemory Kernel Drivers Common Program Transition

/-- What a node is started with: what RAM and the receive buffers contain, its addresses, the
start value of `tcp_global_isn`, the queue sizes that the device reports and where the rings
are. -/
structure Setup where
  ram : Memory
  rx : Memory
  mac : Mac
  ip : UInt32
  isn : UInt32
  rxSize : UInt16
  rxSize_ne_zero : rxSize ≠ 0
  txLogSize : Nat
  txLogSize_le : txLogSize ≤ 15
  rxRingMem : Nat
  txRingMem : Nat

/-- A power of two up to 32768 as a queue size. -/
theorem toNat_powSize {k : Nat} (hk : k ≤ 15) : (UInt16.ofNat (2 ^ k)).toNat = 2 ^ k := by
  have hpow : 2 ^ k ≤ 2 ^ 15 := Nat.pow_le_pow_right (by decide) hk
  exact UInt16.toNat_ofNat_of_lt' (by rw [UInt16.size]; omega)

theorem powSize_ne_zero {k : Nat} (hk : k ≤ 15) : UInt16.ofNat (2 ^ k) ≠ 0 := by
  intro hzero
  have hpow := toNat_powSize hk
  rw [hzero] at hpow
  exact (Nat.two_pow_pos k).ne hpow

/-- The TX queue has descriptors. -/
theorem Setup.txSize_ne_zero (c : Setup) : UInt16.ofNat (2 ^ c.txLogSize) ≠ 0 :=
  powSize_ne_zero c.txLogSize_le

/-- The node after device initialisation. -/
def Setup.Starts (c : Setup) (σ : Node) : Prop :=
  (initialise c.rxSize (UInt16.ofNat (2 ^ c.txLogSize)) c.rxRingMem c.txRingMem).run
    (Node.boot c.ram c.rx c.mac c.ip c.isn) = some ((), σ)

/-- One step of a node and its device. The device writes received data and completes receive
buffers as it likes; it completes only descriptors that are outstanding on the TX queue. -/
inductive Node.Step : Node → Node → Prop where
  | receive {σ : Node} (rxQueue : Virtqueue) (rx : Memory) :
      Step σ { σ with rxQueue := rxQueue, rxBuffers := rx }
  | poll {σ σ' : Node} : virtioNetPoll.run σ = some ((), σ') → Step σ σ'
  | frame {σ σ' : Node} {data : Nat} {len : UInt32} :
      (ethernetHandlePacket data len).run σ = some ((), σ') → Step σ σ'
  | segment {σ σ' : Node} {segment : Nat} {len : UInt16} {srcIp : UInt32} :
      (tcpInputProcess segment len srcIp σ.aetherIp).run σ = some ((), σ') → Step σ σ'
  | complete {σ : Node} {id : UInt16} (len : UInt32) : id ∈ σ.txQueue.published →
      Step σ { σ with txQueue := deviceComplete σ.txQueue id len }
  | reap {σ σ' : Node} : netTxReaper.run σ = some ((), σ') → Step σ σ'

/-- The states that runs reach. -/
abbrev Setup.Reaches (c : Setup) : Node → Prop := Reachable c.Starts Node.Step

/-- The server at the start. -/
def Setup.server (c : Setup) : Server := ⟨[], c.isn, []⟩

/-- The ledger accounts for the node, and its server made a run. -/
structure Setup.Sound (c : Setup) (σ : Node) (L : Ledger) : Prop where
  holds : L.Holds σ []
  ip : σ.aetherIp = c.ip
  run : Server.Run c.ip c.server (σ.server L)

/-! ## Initialisation -/

/-- Filling the RX queue changes nothing else. -/
theorem prefillLoop_run (i count : Nat) (σ : Node) : ∃ rxQueue stats,
    (prefillLoop i count).run σ = some ((), { σ with rxQueue := rxQueue, netStats := stats }) := by
  induction count generalizing i σ with
  | zero => exact ⟨_, _, rfl⟩
  | succ count ih =>
      obtain ⟨rxQueue, stats, hrun⟩ := ih (i + 1) { σ with
        rxQueue := virtqueuePushAvailable
          (virtqueueAddDescriptor σ.rxQueue σ.netStats (i * rxBufSize) (UInt32.ofNat rxBufSize)
            virtqDescFWrite).2.1
          (virtqueueAddDescriptor σ.rxQueue σ.netStats (i * rxBufSize) (UInt32.ofNat rxBufSize)
            virtqDescFWrite).1
        netStats := (virtqueueAddDescriptor σ.rxQueue σ.netStats (i * rxBufSize)
          (UInt32.ofNat rxBufSize) virtqDescFWrite).2.2 }
      exact ⟨rxQueue, stats, hrun⟩

/-- At boot there is memory for the device structure. -/
theorem kmalloc_boot (ram : Memory) :
    (kmalloc (Heap.boot ram) sizeofVirtioPciDevice).map Prod.fst = some (heapStart + 24) := by
  simp [kmalloc, findFree, Heap.boot, alignSize, sizeofVirtioPciDevice, heapStart, heapEnd,
    heapSize, sizeofMemHeader]

/-- The queue set-up changes the queues, the counters and the device's queue pointers. -/
theorem virtioNetSetupQueues_run {rxSize txSize : UInt16} (hrx : rxSize ≠ 0) (htx : txSize ≠ 0)
    (rxRingMem txRingMem : Nat) (σ : Node) : ∃ rxQueue stats,
    (virtioNetSetupQueues rxSize txSize rxRingMem txRingMem).run σ = some ((), { σ with
      rxQueue := rxQueue
      netStats := stats
      txQueue := virtqueueInit σ.txQueue txSize 1 txRingMem
      globalVnetDev := σ.globalVnetDev.map fun dev ↦ ⟨dev.ptr, true, true⟩ }) := by
  obtain ⟨rxQueue, stats, hrun⟩ := prefillLoop_run 0 rxSize.toNat { σ with
    rxQueue := virtqueueInit σ.rxQueue rxSize 0 rxRingMem
    globalVnetDev := σ.globalVnetDev.map fun dev ↦ { dev with rxVq := true } }
  refine ⟨rxQueue, stats, ?_⟩
  suffices h : wp (virtioNetSetupQueues rxSize txSize rxRingMem txRingMem) (fun _ σ' ↦ σ' = { σ with
      rxQueue := rxQueue
      netStats := stats
      txQueue := virtqueueInit σ.txQueue txSize 1 txRingMem
      globalVnetDev := σ.globalVnetDev.map fun dev ↦ ⟨dev.ptr, true, true⟩ }) σ by
    obtain ⟨_, _, hrun, rfl⟩ := h
    exact hrun
  rw [virtioNetSetupQueues, if_neg hrx, wp_bind, wp_modify, wp_bind, wp_of_run hrun, if_neg htx,
    wp_modify, Option.map_map]
  rfl

/-- Initialisation returns, and the device structure is the only block. -/
theorem initialise_spec (c : Setup) :
    wp (initialise c.rxSize (UInt16.ofNat (2 ^ c.txLogSize)) c.rxRingMem c.txRingMem)
      (fun _ σ ↦ (∃ L, c.Sound σ L ∧ σ.server L = c.server) ∧
        σ.txQueue = virtqueueInit .zeroed (UInt16.ofNat (2 ^ c.txLogSize)) 1 c.txRingMem)
      (Node.boot c.ram c.rx c.mac c.ip c.isn) := by
  have hboot : Owns (Heap.boot c.ram) [] := ⟨[], WellFormed.boot c.ram, .refl _⟩
  have hsize : sizeofVirtioPciDevice < 2 ^ 32 := by decide
  obtain ⟨p, heap, hcall, hcase⟩ := hboot.kmalloc hsize
  -- the device structure is the first block of the heap
  obtain rfl : p = heapStart + 24 := by
    have := kmalloc_boot c.ram
    rw [hcall] at this
    simpa using this
  obtain ⟨cap, -, howns, -⟩ := hcase.resolve_left fun h ↦ absurd h.1 (by decide)
  have hne : heapStart + 24 ≠ 0 := by decide
  have hkmalloc : (callKmalloc sizeofVirtioPciDevice).run
      (Node.boot c.ram c.rx c.mac c.ip c.isn) =
        some (heapStart + 24, { Node.boot c.ram c.rx c.mac c.ip c.isn with heap := heap }) := by
    simp [callKmalloc, Node.boot, hcall]
  rw [initialise, wp_bind, virtioPciInit, wp_bind, wp_of_run hkmalloc, if_neg hne, wp_modify]
  obtain ⟨rxQueue, stats, hrun⟩ := virtioNetSetupQueues_run c.rxSize_ne_zero c.txSize_ne_zero
    c.rxRingMem c.txRingMem { Node.boot c.ram c.rx c.mac c.ip c.isn with
      heap := heap
      globalVnetDev := some ⟨heapStart + 24, load 8 heap.mem (heapStart + 24 + 56) ≠ 0,
        load 8 heap.mem (heapStart + 24 + 64) ≠ 0⟩ }
  refine (wp_of_run hrun).mpr
    ⟨⟨⟨⟨heapStart + 24, cap⟩, [], [], []⟩, ⟨?_, rfl, .refl⟩, rfl⟩, rfl⟩
  exact {
    owns := howns
    linked := rfl
    room := by simp
    live := rfl
    dev := rfl
    tx := Virtqueue.balanced_init c.txLogSize_le 1 c.txRingMem
    outstanding := by
      show List.Perm [] ([] ++ Virtqueue.pendingIds (virtqueueInit _ _ _ _))
      rw [List.nil_append, Node.boot, Virtqueue.pendingIds_init]
    buffers := by simp
    leaks := rfl }

/-- A poll that returns popped no receipt, or one for a buffer that exists. -/
theorem virtioNetPoll_id {σ σ' : Node} (hrun : virtioNetPoll.run σ = some ((), σ'))
    {receipt : UInt16 × UInt32}
    (hreceipt : receipt ∈ (virtqueuePopUsed σ.rxQueue σ.netStats).1) :
    receipt.1.toNat < rxQueueSize := by
  by_contra hlarge
  have hwp : wp virtioNetPoll (fun _ _ ↦ True) σ := ⟨_, _, hrun, trivial⟩
  simp only [virtioNetPoll, wp_bind, wp_get, wp_set, Option.mem_def.mp hreceipt,
    if_pos (Nat.le_of_not_lt hlarge)] at hwp
  obtain ⟨_, _, hfault, _⟩ := hwp
  cases hfault

/-- Every step keeps the node sound. -/
theorem Setup.Sound.step {c : Setup} {σ σ' : Node} {L : Ledger} (h : c.Sound σ L)
    (hstep : Node.Step σ σ') : ∃ L', c.Sound σ' L' := by
  have hrefines : ∀ x : Action Unit, Refines x (Server.Run σ.aetherIp) L σ →
      x.run σ = some ((), σ') → ∃ L', c.Sound σ' L' := fun x hx hrun ↦ by
    obtain ⟨L', hL', haddresses, hserver⟩ := wp_run hx hrun
    rw [h.ip] at hserver
    exact ⟨L', hL', haddresses.ip.trans h.ip, h.run.trans hserver⟩
  cases hstep with
  | receive rxQueue rx =>
      exact ⟨L, h.holds.outside σ.netStats rxQueue rx σ.arpCache, h.ip, h.run⟩
  | poll hrun =>
      refine hrefines virtioNetPoll (virtioNetPoll_spec h.holds fun receipt hreceipt ↦ ?_) hrun
      exact virtioNetPoll_id hrun hreceipt
  | frame hrun => exact hrefines _ (ethernetHandlePacket_spec h.holds _ _) hrun
  | segment hrun => exact hrefines _ (tcpInputProcess_spec h.holds _ _ _ _) hrun
  | complete len hid => exact ⟨L, h.holds.complete hid len, h.ip, h.run⟩
  | reap hrun =>
      obtain ⟨L', hL', hsame, htransmits, -, -⟩ := wp_run (netTxReaper_spec h.holds) hrun
      refine ⟨L', hL', htransmits.addresses.ip.trans h.ip, ?_⟩
      rw [htransmits.server hsame]
      exact h.run

/-- Every reachable node is sound. -/
theorem Setup.Reaches.sound {c : Setup} {σ : Node} (h : c.Reaches σ) : ∃ L, c.Sound σ L := by
  refine h.invariant (fun σ ↦ ∃ L, c.Sound σ L) (fun σ hstarts ↦ ?_) fun σ σ' hsound hstep ↦ ?_
  · obtain ⟨⟨L, hL, -⟩, -⟩ := wp_run (initialise_spec c) hstarts
    exact ⟨L, hL⟩
  · obtain ⟨L, hL⟩ := hsound
    exact hL.step hstep

/-! ## Executing runs -/

/-- An input to a running node: a segment that arrives, a completed transmission, or the timer
that calls the reaper. -/
inductive Input where
  | segment (srcIp : UInt32) (bytes : List UInt8)
  | complete (id : UInt16) (len : UInt32)
  | reap

/-- The node after an input. -/
def Node.input (σ : Node) : Input → Option Node
  | .segment srcIp bytes =>
      let received := { σ with rxBuffers := writeBytes σ.rxBuffers 0 bytes }
      ((tcpInputProcess 0 (UInt16.ofNat bytes.length) srcIp received.aetherIp).run received).map
        Prod.snd
  | .complete id len =>
      if id ∈ σ.txQueue.published then some { σ with txQueue := deviceComplete σ.txQueue id len }
      else none
  | .reap => (netTxReaper.run σ).map Prod.snd

/-- The node after initialisation and then the given inputs. -/
def Setup.exec (c : Setup) (inputs : List Input) : Option Node := do
  let (_, σ) ← (initialise c.rxSize (UInt16.ofNat (2 ^ c.txLogSize)) c.rxRingMem c.txRingMem).run
    (Node.boot c.ram c.rx c.mac c.ip c.isn)
  inputs.foldlM Node.input σ

/-- An input is one or two steps. -/
theorem Node.input_reaches {c : Setup} {σ σ' : Node} {i : Input} (h : c.Reaches σ)
    (hinput : σ.input i = some σ') : c.Reaches σ' := by
  cases i with
  | segment srcIp bytes =>
      obtain ⟨⟨_, _⟩, hrun, rfl⟩ := Option.map_eq_some_iff.mp hinput
      exact (h.step (.receive σ.rxQueue _)).step (.segment hrun)
  | complete id len =>
      simp only [input, Option.ite_none_right_eq_some, Option.some.injEq] at hinput
      obtain ⟨hid, rfl⟩ := hinput
      exact h.step (.complete len hid)
  | reap =>
      obtain ⟨⟨_, _⟩, hrun, rfl⟩ := Option.map_eq_some_iff.mp hinput
      exact h.step (.reap hrun)

/-- Execution follows a run. -/
theorem Setup.exec_reaches {c : Setup} {inputs : List Input} {σ : Node}
    (h : c.exec inputs = some σ) : c.Reaches σ := by
  obtain ⟨⟨_, σ₀⟩, hstart, hinputs⟩ := Option.bind_eq_some_iff.mp h
  have hreaches : c.Reaches σ₀ := .init hstart
  clear hstart h
  induction inputs generalizing σ₀ with
  | nil =>
      cases hinputs
      exact hreaches
  | cons i inputs ih =>
      obtain ⟨σ₁, hinput, hrest⟩ := Option.bind_eq_some_iff.mp hinputs
      exact ih σ₁ hrest (Node.input_reaches hreaches hinput)

/-- Execution without inputs is initialisation. -/
theorem Setup.exec_nil {c : Setup} {σ : Node} (h : c.exec [] = some σ) : c.Starts σ := by
  obtain ⟨⟨_, σ₀⟩, hstart, hinputs⟩ := Option.bind_eq_some_iff.mp h
  cases hinputs
  exact hstart

/-- Execution goes on from the state after initialisation. -/
theorem Setup.exec_starts {c : Setup} {σ : Node} (h : c.Starts σ) (inputs : List Input) :
    c.exec inputs = inputs.foldlM Node.input σ := by
  have hstart : (initialise c.rxSize (UInt16.ofNat (2 ^ c.txLogSize)) c.rxRingMem c.txRingMem).run
      (Node.boot c.ram c.rx c.mac c.ip c.isn) = some ((), σ) := h
  rw [exec, hstart]
  rfl

/-- What execution finds is a property of a reachable state. -/
theorem Setup.exec_any (c : Setup) (inputs : List Input) (P : Node → Bool)
    (h : (c.exec inputs).any P = true) :
    ∃ σ, c.exec inputs = some σ ∧ c.Reaches σ ∧ P σ = true := by
  obtain ⟨σ, hexec, hP⟩ := (Option.any_eq_true P (c.exec inputs)).mp h
  exact ⟨σ, hexec, exec_reaches hexec, hP⟩

/-- A node at 10.0.2.15 over zeroed RAM, with eight TX descriptors. -/
def Setup.sample : Setup where
  ram := fun _ ↦ 0
  rx := fun _ ↦ 0
  mac := gatewayMac
  ip := 0x0A00020F
  isn := 7000
  rxSize := 1
  rxSize_ne_zero := by decide
  txLogSize := 3
  txLogSize_le := by decide
  rxRingMem := 0
  txRingMem := 4096

/-- Its peer at 10.0.2.2, about to send from port 5555 with the given numbers. -/
def Conn.samplePeer (seq ack : UInt32) : Conn where
  localIp := 0x0A000202
  remoteIp := 0x0A00020F
  localPort := 5555
  remotePort := 80
  state := .established
  sndUna := seq
  sndNxt := seq
  rcvNxt := ack
  rcvWnd := tcpDefaultWindow
  sndWnd := tcpDefaultWindow

/-- The arrival of a segment from another port of the peer. -/
def Input.fromPort (port : UInt16) (seq ack : UInt32) (flags : UInt8) (payload : List UInt8) :
    Input :=
  .segment 0x0A000202 (tcpSegment { Conn.samplePeer seq ack with localPort := port } flags payload)

/-- The arrival of a segment from the peer. -/
def Input.fromPeer (seq ack : UInt32) (flags : UInt8) (payload : List UInt8) : Input :=
  .segment 0x0A000202 (tcpSegment (.samplePeer seq ack) flags payload)

end Aether.Ethernet
