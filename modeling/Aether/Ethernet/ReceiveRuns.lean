import Aether.Ethernet.Accounts
import Aether.Ethernet.NodeRuns

/-!
# The receive buffers of a running node

`virtio_net_poll` in its three parts, and runs in which the device takes receive buffers from the
available ring and fills them in any order. Between two polls every RX descriptor describes the
buffer with its number, and a poll hands the buffer that it parsed in again under the same id, as
long as the ring indices wrap where the ring does.
-/

namespace Aether.Ethernet

open ByteMemory Kernel Drivers Common Program Transition

/-! ## The parts of a poll -/

/-- The call of `virtqueue_pop_used` in `virtio_net_poll`. -/
def popRx : Action (Option (UInt16 × UInt32)) := do
  let σ ← get
  let (receipt, vq, stats) := virtqueuePopUsed σ.rxQueue σ.netStats
  set { σ with rxQueue := vq, netStats := stats }
  pure receipt

/-- `eth_len` in `virtio_net_poll`. -/
def ethLen (len : UInt32) : UInt32 :=
  if len > sizeofVirtioNetHdr then len - sizeofVirtioNetHdr else 0

/-- What `virtio_net_poll` does with the receive buffer that the device filled. -/
def parseBuffer (id : UInt16) (len : UInt32) : Action Unit := do
  let ethFrame := id.toNat * rxBufSize + 12
  if ethLen len ≠ 0 then
    modify fun σ ↦
      { σ with netStats := { σ.netStats with rxPackets := σ.netStats.rxPackets + 1 } }
    note (.received (← readRx ethFrame (ethLen len).toNat))
    ethernetHandlePacket ethFrame (ethLen len)

/-- The label `refill` of `virtio_net_poll`. -/
def refillBuffer (id : UInt16) : Action Unit := do
  let newId ← addRxDescriptor (id.toNat * rxBufSize)
  pushRxAvailable newId

/-- `virtio_net_poll` after its call of `virtqueue_pop_used`. -/
def pollCompleted : Option (UInt16 × UInt32) → Action Unit
  | none => pure ()
  | some (id, len) =>
      if rxQueueSize ≤ id.toNat then fault
      else do
        parseBuffer id len
        refillBuffer id

/-- These are the parts of `virtio_net_poll`. -/
theorem virtioNetPoll_parts : virtioNetPoll = popRx >>= pollCompleted := by
  simp only [virtioNetPoll, popRx, bind_assoc]
  refine bind_congr fun σ ↦ bind_congr fun _ ↦ ?_
  rw [pure_bind]
  cases (virtqueuePopUsed σ.rxQueue σ.netStats).1 with
  | none => rfl
  | some receipt =>
      obtain ⟨id, len⟩ := receipt
      show (if _ then _ else _) = if _ then _ else _
      refine if_congr .rfl rfl ?_
      rw [show (if len > sizeofVirtioNetHdr then len - sizeofVirtioNetHdr else 0) = ethLen len
        from rfl]
      simp only [parseBuffer, refillBuffer]
      split
      · simp only [bind_assoc]
      · simp only [pure_bind]

/-! ## Filling the RX queue -/

/-- The address of the receive buffer with the given number. -/
def rxBuffer (i : Nat) : Nat := i * rxBufSize

/-- The RX queue is full of receive buffers. -/
def Node.RxStocked (σ : Node) : Prop :=
  σ.rxQueue.Stocked rxBuffer (UInt32.ofNat rxBufSize) virtqDescFWrite

/-- A receive buffer is given a descriptor and published. -/
theorem refill_run {σ : Node} {addr : Nat} {id : UInt16} {added : Virtqueue} {stats : NetStats}
    (hadd : virtqueueAddDescriptor σ.rxQueue σ.netStats addr (UInt32.ofNat rxBufSize)
      virtqDescFWrite = (id, added, stats)) :
    (addRxDescriptor addr >>= pushRxAvailable).run σ =
      some ((), { σ with rxQueue := virtqueuePushAvailable added id, netStats := stats }) := by
  have hcall : (addRxDescriptor addr).run σ =
      some (id, { σ with rxQueue := added, netStats := stats }) := by
    rw [addRxDescriptor, run_get_bind, hadd]
    rfl
  rw [run_bind_of_run hcall]
  rfl

/-- What taking and publishing descriptors leaves alone, filling the RX queue leaves alone. -/
theorem keeps_prefillLoop {α : Type} (part : Virtqueue → α)
    (htake : ∀ vq addr len flags, part (Virtqueue.take vq addr len flags) = part vq)
    (hpush : ∀ vq head, part (virtqueuePushAvailable vq head) = part vq) (i count : Nat) :
    Keeps (fun σ σ' : Node ↦ part σ'.rxQueue = part σ.rxQueue) (prefillLoop i count) := by
  have htrans : ∀ σ₁ σ₂ σ₃ : Node, part σ₂.rxQueue = part σ₁.rxQueue →
      part σ₃.rxQueue = part σ₂.rxQueue → part σ₃.rxQueue = part σ₁.rxQueue :=
    fun _ _ _ h h' ↦ h'.trans h
  induction count generalizing i with
  | zero =>
      intro σ _ σ' hrun
      cases hrun
      rfl
  | succ count ih =>
      refine Keeps.bind htrans ?_ fun id ↦ Keeps.bind htrans ?_ fun _ ↦ ih (i + 1)
      · intro σ id σ' hrun
        cases hrun
        exact Virtqueue.part_add part htake σ.rxQueue σ.netStats _ _ _
      · exact Keeps.modify fun σ ↦ hpush σ.rxQueue id

/-- The loop of `virtio_net_setup_queues` fills the queue, and counts its descriptors. -/
theorem prefillLoop_fills {k count : Nat} {σ : Node}
    (h : σ.rxQueue.Filling rxBuffer (UInt32.ofNat rxBufSize) virtqDescFWrite k)
    (hcount : k + count = σ.rxQueue.size.toNat) : ∃ rxQueue : Virtqueue,
    rxQueue.Filling rxBuffer (UInt32.ofNat rxBufSize) virtqDescFWrite rxQueue.size.toNat ∧
    rxQueue.size = σ.rxQueue.size ∧
    (prefillLoop k count).run σ = some ((), { σ with
      rxQueue := rxQueue
      netStats := { σ.netStats with
        bufferUsage := σ.netStats.bufferUsage + UInt64.ofNat count } }) := by
  induction count generalizing k σ with
  | zero =>
      obtain rfl : k = σ.rxQueue.size.toNat := hcount
      refine ⟨σ.rxQueue, h, rfl, ?_⟩
      rw [prefillLoop, show UInt64.ofNat 0 = 0 from rfl, UInt64.add_zero]
      rfl
  | succ count ih =>
      obtain ⟨added, hadd, hfilling, hsize⟩ := h.step (by omega) σ.netStats
      obtain ⟨rxQueue, hfull, hsize', hrest⟩ := ih (σ := { σ with
          rxQueue := virtqueuePushAvailable added (UInt16.ofNat k)
          netStats := { σ.netStats with bufferUsage := σ.netStats.bufferUsage + 1 } }) hfilling
        (by rw [hsize]; omega)
      have hcounted : σ.netStats.bufferUsage + 1 + UInt64.ofNat count =
          σ.netStats.bufferUsage + UInt64.ofNat (count + 1) := by
        rw [UInt64.ofNat_add, show UInt64.ofNat 1 = 1 from rfl]
        grind
      refine ⟨rxQueue, hfull, hsize'.trans hsize, ?_⟩
      have hrefill := refill_run hadd
      rw [rxBuffer] at hrefill
      rw [hcounted] at hrest
      rw [prefillLoop, ← bind_assoc, run_bind_of_run hrefill, hrest]

/-- Finding the device changes neither the queues nor the counters. -/
theorem virtioPciInit_changes {σ σ' : Node} (hrun : virtioPciInit.run σ = some ((), σ')) :
    ∃ heap log dev, σ' = { σ with heap := heap, log := log, globalVnetDev := dev } := by
  obtain ⟨vdev, σ₁, hcall, hrest⟩ := run_bind_eq_some.mp hrun
  obtain ⟨heap, log, rfl⟩ := callKmalloc_changes hcall
  split at hrest
  · cases hrest
    exact ⟨heap, log, σ.globalVnetDev, rfl⟩
  · cases hrest
    exact ⟨heap, log, _, rfl⟩

/-- After the set-up every descriptor of the RX queue is published and the queue has number 0, and
its descriptors are all that is counted. -/
theorem Setup.Starts.filled {c : Setup} {σ : Node} (h : c.Starts σ) :
    σ.rxQueue.Filling rxBuffer (UInt32.ofNat rxBufSize) virtqDescFWrite σ.rxQueue.size.toNat ∧
      σ.rxQueue.size = c.rxSize ∧ σ.rxQueue.queueIndex = 0 ∧
      σ.txQueue = virtqueueInit .zeroed (UInt16.ofNat (2 ^ c.txLogSize)) 1 c.txRingMem ∧
      σ.netStats = { ({} : NetStats) with bufferUsage := UInt64.ofNat c.rxSize.toNat } := by
  obtain ⟨_, σ₁, hinit, hsetup⟩ := run_bind_eq_some.mp h
  obtain ⟨heap, log, dev, rfl⟩ := virtioPciInit_changes hinit
  have hcount : 0 + c.rxSize.toNat =
      (virtqueueInit .zeroed c.rxSize 0 c.rxRingMem).size.toNat := Nat.zero_add _
  obtain ⟨rxQueue, hfull, hsize, hprefill⟩ := prefillLoop_fills
    (σ := { Node.boot c.ram c.rx c.mac c.ip c.isn with
      heap := heap
      log := log
      rxQueue := virtqueueInit .zeroed c.rxSize 0 c.rxRingMem
      globalVnetDev := dev.map fun dev : VirtioPciDevice ↦ { dev with rxVq := true } })
    (Virtqueue.filling_init _ _ _ _ _ _) hcount
  rw [virtioNetSetupQueues, if_neg c.rxSize_ne_zero, run_modify_bind] at hsetup
  obtain ⟨_, σ₂, hfill, htx⟩ := run_bind_eq_some.mp hsetup
  cases hprefill.symm.trans hfill
  rw [if_neg c.txSize_ne_zero] at htx
  cases htx
  have hindex := keeps_prefillLoop Virtqueue.queueIndex (fun _ _ _ _ ↦ rfl)
    (fun _ _ ↦ rfl) _ _ _ _ _ hprefill
  refine ⟨hfull, hsize, hindex, rfl, ?_⟩
  show ({ ({} : NetStats) with bufferUsage := 0 + UInt64.ofNat c.rxSize.toNat } : NetStats) = _
  rw [UInt64.zero_add]

/-- So the queue is full. -/
theorem Setup.Starts.stocked {c : Setup} {σ : Node} (h : c.Starts σ) :
    σ.RxStocked ∧ σ.rxQueue.size = c.rxSize ∧ σ.rxQueue.queueIndex = 0 ∧
      σ.txQueue = virtqueueInit .zeroed (UInt16.ofNat (2 ^ c.txLogSize)) 1 c.txRingMem ∧
      σ.netStats = { ({} : NetStats) with bufferUsage := UInt64.ofNat c.rxSize.toNat } :=
  ⟨h.filled.1.stocked, h.filled.2⟩

/-! ## One poll -/

/-- The node when `virtio_net_poll` calls `ethernet_handle_packet`. -/
def Node.counted (σ : Node) (id : UInt16) (len : UInt32) : Node :=
  { σ with
    netStats := { σ.netStats with rxPackets := σ.netStats.rxPackets + 1 }
    log :=
      .received (readBytes σ.rxBuffers (id.toNat * rxBufSize + 12) (ethLen len).toNat) :: σ.log }

/-- A frame is handled, no frame is skipped. -/
theorem parseBuffer_run (σ : Node) (id : UInt16) (len : UInt32) : (parseBuffer id len).run σ =
    if ethLen len ≠ 0 then
      (ethernetHandlePacket (id.toNat * rxBufSize + 12) (ethLen len)).run (σ.counted id len)
    else some ((), σ) := by
  unfold parseBuffer
  split
  · rfl
  · rfl

/-- Parsing a buffer does not touch the RX queue. -/
theorem parseBuffer_rxQueue {σ σ' : Node} {id : UInt16} {len : UInt32}
    (hrun : (parseBuffer id len).run σ = some ((), σ')) : σ'.rxQueue = σ.rxQueue := by
  rw [parseBuffer_run] at hrun
  split at hrun
  · exact (accounted_ethernetHandlePacket _ _ _ _ _ hrun).rxQueue
  · cases hrun
    rfl

section Poll

variable {σ : Node} {L : Ledger}

/-- With nothing completed a poll does nothing. -/
theorem virtioNetPoll_idle (hnone : σ.rxQueue.unpopped = []) :
    virtioNetPoll.run σ = some ((), σ) := by
  have hpop : popRx.run σ = some (none, σ) := by
    rw [popRx, run_get_bind, Virtqueue.popUsed_of_no_unpopped hnone]
    rfl
  rw [virtioNetPoll_parts, run_bind_of_run hpop]
  rfl

/-- A completed buffer is popped, parsed and handed in again. -/
theorem virtioNetPoll_completed (h : L.Holds σ []) (hstocked : σ.RxStocked)
    (hsize : σ.rxQueue.size.toNat ≤ rxQueueSize) {id : UInt16} {rest : List UInt16}
    (hunpopped : σ.rxQueue.unpopped = id :: rest) : ∃ len σ₁ σ₂ σ',
      popRx.run σ = some (some (id, len), σ₁) ∧ σ₁.rxQueue = σ.rxQueue.recycle id ∧
      (parseBuffer id len).run σ₁ = some ((), σ₂) ∧ σ₂.rxQueue = σ₁.rxQueue ∧
      (refillBuffer id).run σ₂ = some ((), σ') ∧ virtioNetPoll.run σ = some ((), σ') ∧
      σ'.RxStocked ∧ σ'.rxQueue.size = σ.rxQueue.size ∧
      σ'.rxQueue.published = σ.rxQueue.published ++ [id] ∧ σ'.rxQueue.unpopped = rest ∧
      σ'.rxQueue.availIdx = (virtqueuePushAvailable σ.rxQueue id).availIdx ∧
      σ'.rxQueue.availRing = (virtqueuePushAvailable σ.rxQueue id).availRing := by
  obtain ⟨⟨len, hcall⟩, -⟩ := Virtqueue.popUsed_of_unpopped hunpopped σ.netStats
  have hid : id.toNat < σ.rxQueue.size.toNat := hstocked.lt_size (by simp [hunpopped])
  have hpop : popRx.run σ = some (some (id, len), { σ with
      rxQueue := σ.rxQueue.recycle id
      netStats := popStats σ.rxQueue.queueIndex σ.netStats }) := by
    rw [popRx, run_get_bind, hcall]
    rfl
  generalize hpopped : { σ with
      rxQueue := σ.rxQueue.recycle id
      netStats := popStats σ.rxQueue.queueIndex σ.netStats } = σ₁ at hpop
  have hqueue : σ₁.rxQueue = σ.rxQueue.recycle id := by rw [← hpopped]
  have hholds : L.Holds σ₁ [] := by
    rw [← hpopped]
    exact h.outside _ _ σ.rxBuffers σ.arpCache
  -- whatever is in the buffer, the stack returns from it
  obtain ⟨σ₂, hparse⟩ : ∃ σ₂, (parseBuffer id len).run σ₁ = some ((), σ₂) := by
    rw [parseBuffer_run]
    split
    · have hcounted : L.Holds (σ₁.counted id len) [] :=
        (hholds.outside { σ₁.netStats with rxPackets := σ₁.netStats.rxPackets + 1 } σ₁.rxQueue
          σ₁.rxBuffers σ₁.arpCache).record (e := .received _) rfl
      obtain ⟨_, σ₂, hrun, -⟩ := ethernetHandlePacket_spec hcounted
        (id.toNat * rxBufSize + 12) (ethLen len)
      exact ⟨σ₂, hrun⟩
    · exact ⟨σ₁, rfl⟩
  -- and leaves the receive queue alone
  have hsame := parseBuffer_rxQueue hparse
  obtain ⟨added, hadd, hstocked', hsize', hpublished, hleft, hidx, hring⟩ :=
    hstocked.refill hunpopped σ₂.netStats
  rw [← hqueue, ← hsame] at hadd
  have hrefill := refill_run hadd
  refine ⟨len, σ₁, σ₂, _, hpop, hqueue, hparse, hsame, hrefill, ?_, hstocked', hsize', hpublished,
    hleft, hidx, hring⟩
  rw [virtioNetPoll_parts, run_bind_of_run hpop, pollCompleted, if_neg (by omega),
    run_bind_of_run hparse]
  exact hrefill

end Poll

/-! ## Runs -/

/-- One step of a node and a device that completes receive buffers in any order. It completes only
buffers that are published, and leaves completions alone that the driver has not popped. -/
inductive Node.RxStep : Node → Node → Prop where
  | fill {σ : Node} {id : UInt16} (len : UInt32) (rx : Memory) :
      id ∈ σ.rxQueue.published → σ.rxQueue.SlotFree →
      RxStep σ { σ with rxQueue := deviceComplete σ.rxQueue id len, rxBuffers := rx }
  | poll {σ σ' : Node} : virtioNetPoll.run σ = some ((), σ') → RxStep σ σ'
  | complete {σ : Node} {id : UInt16} (len : UInt32) : id ∈ σ.txQueue.published →
      RxStep σ { σ with txQueue := deviceComplete σ.txQueue id len }
  | reap {σ σ' : Node} : netTxReaper.run σ = some ((), σ') → RxStep σ σ'

/-- These are steps of a node. -/
theorem Node.RxStep.toStep {σ σ' : Node} (h : σ.RxStep σ') : Node.Step σ σ' := by
  cases h with
  | fill len rx hid hfree => exact .receive _ rx
  | poll hrun => exact .poll hrun
  | complete len hid => exact .complete len hid
  | reap hrun => exact .reap hrun

/-- The states that these runs reach. -/
abbrev Setup.RxReaches (c : Setup) : Node → Prop := Reachable c.Starts Node.RxStep

/-- They are states of a running node. -/
theorem Setup.RxReaches.reaches {c : Setup} {σ : Node} (h : c.RxReaches σ) : c.Reaches σ := by
  induction h with
  | init hstarts => exact .init hstarts
  | step _ hstep ih => exact ih.step hstep.toStep

/-- The reaper does not touch the RX queue. -/
theorem netTxReaper_rxQueue {σ σ' : Node} {L : Ledger} (h : L.Holds σ [])
    (hrun : netTxReaper.run σ = some ((), σ')) : σ'.rxQueue = σ.rxQueue := by
  obtain ⟨_, -, -, htransmits, -⟩ := wp_run (netTxReaper_spec h) hrun
  obtain ⟨heap, stats, txQueue, rfl⟩ := htransmits
  rfl

/-- Every step keeps the RX queue full. -/
theorem Node.RxStep.stocked {σ σ' : Node} {L : Ledger} (hstep : σ.RxStep σ') (h : L.Holds σ [])
    (hstocked : σ.RxStocked) (hsize : σ.rxQueue.size.toNat ≤ rxQueueSize) :
    σ'.RxStocked ∧ σ'.rxQueue.size = σ.rxQueue.size := by
  cases hstep with
  | fill len rx hid hfree => exact ⟨hstocked.complete hid hfree len, rfl⟩
  | poll hrun =>
      cases hunpopped : σ.rxQueue.unpopped with
      | nil =>
          cases hrun.symm.trans (virtioNetPoll_idle hunpopped)
          exact ⟨hstocked, rfl⟩
      | cons id rest =>
          obtain ⟨_, _, _, τ, -, -, -, -, -, hpoll, hstocked', hsize', -⟩ :=
            virtioNetPoll_completed h hstocked hsize hunpopped
          cases hrun.symm.trans hpoll
          exact ⟨hstocked', hsize'⟩
  | complete len hid => exact ⟨hstocked, rfl⟩
  | reap hrun =>
      have hqueue := netTxReaper_rxQueue h hrun
      unfold Node.RxStocked
      rw [hqueue]
      exact ⟨hstocked, rfl⟩

/-- In every run the RX queue is full, and has the size that the device reported. -/
theorem Setup.RxReaches.stocked {c : Setup} {σ : Node} (h : c.RxReaches σ)
    (hsize : c.rxSize.toNat ≤ rxQueueSize) : σ.RxStocked ∧ σ.rxQueue.size = c.rxSize := by
  induction h with
  | init hstarts =>
      obtain ⟨hstocked, hqueue, -⟩ := hstarts.stocked
      exact ⟨hstocked, hqueue⟩
  | step hreaches hstep ih =>
      obtain ⟨hstocked, hqueue⟩ := ih
      obtain ⟨L, hsound⟩ := (RxReaches.reaches hreaches).sound
      obtain ⟨hstocked', hqueue'⟩ := hstep.stocked hsound.holds hstocked (hqueue ▸ hsize)
      exact ⟨hstocked', hqueue'.trans hqueue⟩

/-! ## A device that goes by the available ring -/

/-- A node and its network device, which knows of the receive buffers what the available ring says. -/
structure Receiver where
  node : Node
  device : AvailReader := {}

namespace Receiver

/-- The ids of receive buffers that are published: the device took them from the available ring and
has not completed them, or it has yet to read them there. -/
def published (s : Receiver) : List UInt16 := s.device.outstanding s.node.rxQueue

/-- One step of a node and its device. The device reads the available ring of the RX queue up to
`avail.idx`, and completes what it took from there in any order and with any contents. On the TX
queue it completes what is outstanding. -/
inductive Step : Receiver → Receiver → Prop where
  | fetch {s : Receiver} : s.device.lastAvailIdx ≠ s.node.rxQueue.availIdx →
      Step s { s with device := s.device.fetch s.node.rxQueue }
  | fill {s : Receiver} {id : UInt16} (len : UInt32) (rx : Memory) : id ∈ s.device.fetched →
      Step s {
        node := { s.node with rxQueue := deviceComplete s.node.rxQueue id len, rxBuffers := rx }
        device := s.device.finish id }
  | poll {s : Receiver} {σ' : Node} : virtioNetPoll.run s.node = some ((), σ') →
      Step s { s with node := σ' }
  | complete {s : Receiver} {id : UInt16} (len : UInt32) : id ∈ s.node.txQueue.published →
      Step s { s with node := { s.node with txQueue := deviceComplete s.node.txQueue id len } }
  | reap {s : Receiver} {σ' : Node} : netTxReaper.run s.node = some ((), σ') →
      Step s { s with node := σ' }

end Receiver

/-- The states that these runs reach. -/
abbrev Setup.Receives (c : Setup) : Receiver → Prop :=
  Reachable (fun s ↦ c.Starts s.node ∧ s.device = {}) Receiver.Step

namespace Receiver

variable {c : Setup} {s s' : Receiver}

/-- The node is in a state of its own runs. -/
theorem reaches (h : c.Receives s) : c.Reaches s.node := by
  induction h with
  | init hstarts => exact .init hstarts.1
  | step _ hstep ih =>
      cases hstep with
      | fetch hne => exact ih
      | fill len rx hid => exact ih.step (.receive _ rx)
      | poll hrun => exact ih.step (.poll hrun)
      | complete len hid => exact ih.step (.complete len hid)
      | reap hrun => exact ih.step (.reap hrun)

/-- What a poll does that pops `id`: it parses the buffer with that number while it is not
published, and publishes the same buffer again under the same id. -/
structure PollsBuffer (s : Receiver) (id : UInt16) (len : UInt32) (popped parsed σ' : Node) :
    Prop where
  pop : popRx.run s.node = some (some (id, len), popped)
  unpublished : id ∉ s.device.outstanding popped.rxQueue
  parse : (parseBuffer id len).run popped = some ((), parsed)
  untouched : parsed.rxQueue = popped.rxQueue
  refill : (refillBuffer id).run parsed = some ((), σ')
  poll : virtioNetPoll.run s.node = some ((), σ')
  published : s.device.outstanding σ'.rxQueue = s.published ++ [id]
  addr : (σ'.rxQueue.desc id.toNat).addr = rxBuffer id.toNat

/-- Between two polls no RX descriptor is free, every descriptor describes the whole buffer with its
number for writing, and its id is published or in the used ring, exactly once. The device finds a
slot for what it completes next. A poll that pops an id parses that buffer and publishes it again,
any other poll does nothing. -/
structure Paired (n : Nat) (s : Receiver) : Prop where
  size : s.node.rxQueue.size.toNat = n
  numFree : s.node.rxQueue.numFree = 0
  desc : ∀ i < n, (s.node.rxQueue.desc i).addr = rxBuffer i ∧
    (s.node.rxQueue.desc i).len = UInt32.ofNat rxBufSize ∧
    (s.node.rxQueue.desc i).flags = virtqDescFWrite
  partition : ((s.published ++ s.node.rxQueue.unpopped).map UInt16.toNat).Perm (List.range n)
  slotFree : ∀ id ∈ s.device.fetched, s.node.rxQueue.SlotFree
  polls : ∀ id rest, s.node.rxQueue.unpopped = id :: rest →
    ∃ len popped parsed σ', s.PollsBuffer id len popped parsed σ'
  idle : s.node.rxQueue.unpopped = [] → virtioNetPoll.run s.node = some ((), s.node)

/-- The run is one in which only published buffers are completed, and the device knows which these
are. -/
structure Sound (c : Setup) (s : Receiver) : Prop where
  reaches : c.RxReaches s.node
  tied : s.device.Tied s.node.rxQueue

/-- After the set-up the ring says that every buffer is published. -/
theorem sound_start (hstarts : c.Starts s.node) (hdevice : s.device = {}) : s.Sound c := by
  refine ⟨.init hstarts, ?_⟩
  have hfilled := hstarts.filled.1
  rw [hdevice]
  exact .of_eq (hfilled.published.trans hfilled.unfetched.symm)

section Full

variable {L : Ledger}

/-- A queue that is not full of published buffers has room in its available ring for one more. -/
theorem published_push (htied : s.device.Tied s.node.rxQueue) (hstocked : s.node.RxStocked)
    (hdvd : s.node.rxQueue.size.toNat ∣ 2 ^ 16) {id : UInt16} {rest : List UInt16}
    (hunpopped : s.node.rxQueue.unpopped = id :: rest) {vq : Virtqueue}
    (hsize : vq.size = s.node.rxQueue.size)
    (hidx : vq.availIdx = (virtqueuePushAvailable s.node.rxQueue id).availIdx)
    (hring : vq.availRing = (virtqueuePushAvailable s.node.rxQueue id).availRing) :
    s.device.outstanding vq = s.published ++ [id] := by
  have hlength := hstocked.length_eq
  rw [hunpopped, List.length_cons, htied.length_eq] at hlength
  have hroom : (s.device.outstanding s.node.rxQueue).length < s.node.rxQueue.size.toNat := by
    omega
  have hsame : vq.size = (virtqueuePushAvailable s.node.rxQueue id).size := hsize
  rw [AvailReader.outstanding_congr hsame hidx hring]
  exact AvailReader.outstanding_push hdvd hroom id

/-- A poll keeps the device up to date. -/
theorem tied_poll (hL : L.Holds s.node []) (htied : s.device.Tied s.node.rxQueue)
    (hstocked : s.node.RxStocked) (hsize : s.node.rxQueue.size.toNat ≤ rxQueueSize)
    (hdvd : s.node.rxQueue.size.toNat ∣ 2 ^ 16) {σ' : Node}
    (hrun : virtioNetPoll.run s.node = some ((), σ')) : s.device.Tied σ'.rxQueue := by
  cases hunpopped : s.node.rxQueue.unpopped with
  | nil =>
      cases hrun.symm.trans (virtioNetPoll_idle hunpopped)
      exact htied
  | cons id rest =>
      obtain ⟨_, _, _, τ, -, -, -, -, -, hpoll, -, hsize', hpublished, -, hidx, hring⟩ :=
        virtioNetPoll_completed hL hstocked hsize hunpopped
      cases hrun.symm.trans hpoll
      unfold AvailReader.Tied
      rw [hpublished, published_push htied hstocked hdvd hunpopped hsize' hidx hring]
      exact htied.append_right _

/-- With the device up to date the descriptors are paired with their buffers. -/
theorem paired (hL : L.Holds s.node []) (htied : s.device.Tied s.node.rxQueue)
    (hstocked : s.node.RxStocked) (hsize : s.node.rxQueue.size.toNat ≤ rxQueueSize)
    (hdvd : s.node.rxQueue.size.toNat ∣ 2 ^ 16) : s.Paired s.node.rxQueue.size.toNat := by
  refine ⟨rfl, hstocked.numFree, hstocked.desc, ?_, fun id hid ↦ ?_, fun id rest hunpopped ↦ ?_,
    virtioNetPoll_idle⟩
  · exact ((htied.symm.append_right _).map _).trans hstocked.partition
  · exact hstocked.slotFree hdvd (htied.mem hid)
  · obtain ⟨len, popped, parsed, σ', hpop, hrecycle, hparse, hsame, hrefill, hpoll, hstocked',
      hsize', -, -, hidx, hring⟩ := virtioNetPoll_completed hL hstocked hsize hunpopped
    have hid : id ∉ s.node.rxQueue.published := by
      intro hmem
      have hnodup := hstocked.nodup
      rw [hunpopped] at hnodup
      exact (List.nodup_append.mp hnodup).2.2 id hmem id (by simp) rfl
    have hlt : id.toNat < σ'.rxQueue.size.toNat := by
      rw [hsize']
      exact hstocked.lt_size (by simp [hunpopped])
    refine ⟨len, popped, parsed, σ', hpop, ?_, hparse, hsame, hrefill, hpoll, ?_,
      (hstocked'.desc _ hlt).1⟩
    · have hpopped : s.device.outstanding popped.rxQueue = s.published := by
        rw [hrecycle]
        rfl
      rw [hpopped]
      exact fun hmem ↦ hid (htied.mem_iff.mpr hmem)
    · exact published_push htied hstocked hdvd hunpopped hsize' hidx hring

end Full

/-- Where the size divides the number of ring indices, every step keeps the device up to date. -/
theorem Sound.step (h : s.Sound c) (hsize : c.rxSize.toNat ≤ rxQueueSize)
    (hdvd : c.rxSize.toNat ∣ 2 ^ 16) (hstep : Step s s') : s'.Sound c := by
  obtain ⟨hstocked, hqueue⟩ := h.reaches.stocked hsize
  obtain ⟨L, hL⟩ := h.reaches.reaches.sound
  rw [← hqueue] at hdvd
  cases hstep with
  | fetch hne => exact ⟨h.reaches, h.tied.fetch hne⟩
  | fill len rx hid =>
      have hpublished := h.tied.mem hid
      have hfree := hstocked.slotFree hdvd hpublished
      exact ⟨h.reaches.step (.fill len rx hpublished hfree), h.tied.complete hid len⟩
  | poll hrun =>
      exact ⟨h.reaches.step (.poll hrun),
        tied_poll hL.holds h.tied hstocked (hqueue ▸ hsize) hdvd hrun⟩
  | complete len hid => exact ⟨h.reaches.step (.complete len hid), h.tied⟩
  | reap hrun =>
      refine ⟨h.reaches.step (.reap hrun), ?_⟩
      unfold AvailReader.Tied
      rw [netTxReaper_rxQueue hL.holds hrun]
      exact h.tied

/-! ## A size that does not divide the number of indices -/

/-- The device fills one buffer after the other, and has read the available ring up to index `a`. As
long as no index wraps, the slots of the ring hold the ids in order. -/
structure Cycled (c : Setup) (a : Nat) (ring : Nat → UInt16) (s : Receiver) : Prop where
  receives : c.Receives s
  stocked : s.node.RxStocked
  size : s.node.rxQueue.size = c.rxSize
  waiting : s.node.rxQueue.unpopped = []
  device : s.device = ⟨UInt16.ofNat a, []⟩
  availIdx : s.node.rxQueue.availIdx = UInt16.ofNat (a + c.rxSize.toNat)
  availRing : s.node.rxQueue.availRing = ring

/-- The device takes a buffer, fills it, and the driver parses it and hands it in again. -/
theorem Cycled.next {a : Nat} {ring : Nat → UInt16} (h : s.Cycled c a ring)
    (hsize : c.rxSize.toNat ≤ rxQueueSize) (ha : a < 2 ^ 16)
    (hlt : (ring (a % c.rxSize.toNat)).toNat < c.rxSize.toNat) :
    ∃ t : Receiver, t.Cycled c (a + 1) (Function.update ring
      ((a + c.rxSize.toNat) % 2 ^ 16 % c.rxSize.toNat) (ring (a % c.rxSize.toNat))) := by
  obtain ⟨hreceives, hstocked, hqueue, hwaiting, hdevice, hidx, hring⟩ := h
  have hmax : c.rxSize.toNat ≤ 256 := hsize
  have htoNat : (UInt16.ofNat a).toNat = a := UInt16.toNat_ofNat_of_lt' ha
  generalize hid : ring (a % c.rxSize.toNat) = id at hlt ⊢
  -- there is something to read
  have hne : s.device.lastAvailIdx ≠ s.node.rxQueue.availIdx := by
    intro heq
    rw [hdevice, hidx] at heq
    have hsame := congrArg UInt16.toNat heq
    rw [htoNat, UInt16.toNat_ofNat'] at hsame
    omega
  have hnext : s.device.next s.node.rxQueue = id := by
    rw [AvailReader.next, hdevice, hqueue, hring, htoNat, hid]
  have hfetched : s.device.fetch s.node.rxQueue = ⟨UInt16.ofNat (a + 1), [id]⟩ := by
    rw [AvailReader.fetch, hnext, hdevice, UInt16.ofNat_add]
    rfl
  -- every descriptor is published, so the device may complete this one
  have hpublished : id ∈ s.node.rxQueue.published := by
    have hpartition := hstocked.partition
    rw [hwaiting, List.append_nil, hqueue] at hpartition
    obtain ⟨id', hmem, heq⟩ := List.mem_map.mp (hpartition.mem_iff.mpr (List.mem_range.mpr hlt))
    exact UInt16.toNat_inj.mp heq ▸ hmem
  have hfree : s.node.rxQueue.SlotFree := by
    have hnone : s.node.rxQueue.unpoppedSlots = [] := List.map_eq_nil_iff.mp hwaiting
    rw [Virtqueue.SlotFree, hnone]
    exact List.not_mem_nil
  let filled : Receiver :=
    { node := { s.node with rxQueue := deviceComplete s.node.rxQueue id 76 }
      device := ⟨UInt16.ofNat (a + 1), []⟩ }
  have hfilled : c.Receives filled := by
    have hmem : id ∈ (s.device.fetch s.node.rxQueue).fetched := by
      rw [hfetched]
      exact List.mem_singleton_self id
    have hfill := (hreceives.step (.fetch hne)).step (.fill 76 s.node.rxBuffers hmem)
    rw [hfetched, AvailReader.finish, List.erase_cons_head] at hfill
    exact hfill
  have hcompleted : filled.node.rxQueue.unpopped = [id] := by
    have hpush := Virtqueue.unpopped_complete hfree (by rw [hwaiting]; decide) id 76
    rwa [hwaiting] at hpush
  obtain ⟨L, hL⟩ := (reaches hfilled).sound
  obtain ⟨_, _, _, σ', -, -, -, -, -, hpoll, hstocked', hsize', -, hwaiting', hidx', hring'⟩ :=
    virtioNetPoll_completed hL.holds (hstocked.complete hpublished hfree 76)
      (show s.node.rxQueue.size.toNat ≤ _ from hqueue ▸ hsize) hcompleted
  refine ⟨_, hfilled.step (.poll hpoll), hstocked', hsize'.trans hqueue, hwaiting', rfl, ?_, ?_⟩
  · refine hidx'.trans ?_
    show s.node.rxQueue.availIdx + 1 = _
    rw [hidx, Nat.add_right_comm, UInt16.ofNat_add (a + _) 1]
    rfl
  · refine hring'.trans ?_
    show Function.update s.node.rxQueue.availRing
      (s.node.rxQueue.availIdx.toNat % s.node.rxQueue.size.toNat) id = _
    rw [hring, hidx, hqueue, UInt16.toNat_ofNat']

/-- Until an index wraps, the device can go on so. -/
theorem cycles (hsize : c.rxSize.toNat ≤ rxQueueSize) (a : Nat) (ha : a + c.rxSize.toNat ≤ 2 ^ 16) :
    ∃ (s : Receiver) (ring : Nat → UInt16), s.Cycled c a ring ∧
      ∀ i < c.rxSize.toNat, ring i = UInt16.ofNat i := by
  induction a with
  | zero =>
      obtain ⟨_, σ, hstarts, -⟩ := initialise_spec c
      have hstarts : c.Starts σ := hstarts
      obtain ⟨hfilled, hqueue, -⟩ := hstarts.filled
      refine ⟨⟨σ, {}⟩, σ.rxQueue.availRing, ⟨.init ⟨hstarts, rfl⟩, hfilled.stocked, hqueue,
        hfilled.unpopped, rfl, ?_, rfl⟩, fun i hi ↦ hfilled.availRing i (hqueue ▸ hi)⟩
      rw [Nat.zero_add, ← hqueue]
      exact hfilled.availIdx
  | succ a ih =>
      obtain ⟨s, ring, hcycled, hring⟩ := ih (by omega)
      have hpos : 0 < c.rxSize.toNat :=
        Nat.pos_of_ne_zero fun hzero ↦ c.rxSize_ne_zero (UInt16.toNat_inj.mp hzero)
      have hslot := Nat.mod_lt a hpos
      have hid : (ring (a % c.rxSize.toNat)).toNat = a % c.rxSize.toNat := by
        rw [hring _ hslot]
        exact UInt16.toNat_ofNat_of_lt' (by rw [UInt16.size]; omega)
      obtain ⟨t, ht⟩ := hcycled.next hsize (by omega) (by rwa [hid])
      refine ⟨t, _, ht, fun i hi ↦ ?_⟩
      -- the id comes back to the slot that it was read from
      rw [Nat.mod_eq_of_lt (show a + c.rxSize.toNat < 2 ^ 16 by omega), Nat.add_mod_right]
      by_cases heq : i = a % c.rxSize.toNat
      · rw [heq, Function.update_self, hring _ hslot]
      · rw [Function.update_of_ne heq, hring i hi]

/-- When `avail.idx` is 0 again, the next id is written over the one in slot 0, which the device has
yet to read: from then on no one has id 0. -/
theorem loses_id (hsize : c.rxSize.toNat ≤ rxQueueSize) (hndvd : ¬ c.rxSize.toNat ∣ 2 ^ 16) :
    ∃ s, c.Receives s ∧ 0 ∉ s.published ++ s.node.rxQueue.unpopped := by
  have hmax : c.rxSize.toNat ≤ 256 := hsize
  have hpos : 0 < c.rxSize.toNat :=
    Nat.pos_of_ne_zero fun hzero ↦ c.rxSize_ne_zero (UInt16.toNat_inj.mp hzero)
  obtain ⟨s, ring, hcycled, hring⟩ :=
    cycles hsize (2 ^ 16 - c.rxSize.toNat) (by omega)
  generalize hlast : 2 ^ 16 - c.rxSize.toNat = last at hcycled
  have hsum : last + c.rxSize.toNat = 2 ^ 16 := by omega
  have hslot := Nat.mod_lt last hpos
  have hid : (ring (last % c.rxSize.toNat)).toNat = last % c.rxSize.toNat := by
    rw [hring _ hslot]
    exact UInt16.toNat_ofNat_of_lt' (by rw [UInt16.size]; omega)
  have hne : last % c.rxSize.toNat ≠ 0 := fun hzero ↦ hndvd <| by
    rw [← hsum]
    exact Nat.dvd_add (Nat.dvd_of_mod_eq_zero hzero) (Nat.dvd_refl _)
  obtain ⟨t, ht⟩ := hcycled.next hsize (by omega) (by rwa [hid])
  refine ⟨t, ht.receives, fun hmem ↦ ?_⟩
  rw [published, AvailReader.outstanding, ht.waiting, ht.device, List.nil_append, List.append_nil,
    Virtqueue.unfetched, ht.size, ht.availRing, hsum, Nat.mod_self, Nat.zero_mod] at hmem
  obtain ⟨slot, hmem, hzero⟩ := List.mem_map.mp hmem
  have hlt := IndexedLists.lt_of_mem_slots hpos hmem
  by_cases heq : slot = 0
  · rw [heq, Function.update_self] at hzero
    rw [hzero] at hid
    exact hne hid.symm
  · rw [Function.update_of_ne heq, hring slot hlt] at hzero
    have hslotNat : (UInt16.ofNat slot).toNat = slot :=
      UInt16.toNat_ofNat_of_lt' (by rw [UInt16.size]; omega)
    rw [hzero] at hslotNat
    exact heq hslotNat.symm

/-- Then the descriptors are not all there. -/
theorem Paired.zero_mem {n : Nat} (hn : 0 < n) (h : s.Paired n) :
    0 ∈ s.published ++ s.node.rxQueue.unpopped := by
  obtain ⟨id, hmem, hzero⟩ := List.mem_map.mp (h.partition.mem_iff.mpr (List.mem_range.mpr hn))
  have hid : id = 0 := UInt16.toNat_inj.mp hzero
  exact hid ▸ hmem

end Receiver

/-- For every RX queue of at most 256 descriptors: in every run with a device that goes by the
available ring, whatever it completes in whatever order, the descriptors stay paired with their
buffers, exactly if the size of the queue divides the number of ring indices. -/
theorem rx_descriptors_paired (c : Setup) (hsize : c.rxSize.toNat ≤ rxQueueSize) :
    (∀ s, c.Receives s → s.Paired c.rxSize.toNat) ↔ c.rxSize.toNat ∣ 2 ^ 16 := by
  constructor
  · intro hpaired
    by_contra hndvd
    obtain ⟨s, hreceives, hlost⟩ := Receiver.loses_id hsize hndvd
    have hpos : 0 < c.rxSize.toNat :=
      Nat.pos_of_ne_zero fun hzero ↦ c.rxSize_ne_zero (UInt16.toNat_inj.mp hzero)
    exact hlost ((hpaired s hreceives).zero_mem hpos)
  · intro hdvd s hreceives
    have hsound : s.Sound c := hreceives.invariant (·.Sound c)
      (fun t hstarts ↦ Receiver.sound_start hstarts.1 hstarts.2)
      fun _ _ h hstep ↦ h.step hsize hdvd hstep
    obtain ⟨hstocked, hqueue⟩ := hsound.reaches.stocked hsize
    obtain ⟨L, hL⟩ := (Receiver.reaches hreceives).sound
    have hpaired := Receiver.paired hL.holds hsound.tied hstocked
    rw [hqueue] at hpaired
    exact hpaired hsize hdvd

/-- A queue of four buffers, after the first was filled, polled and handed in again. -/
theorem rx_descriptors_paired_four : ∃ s : Receiver,
    Setup.Receives { Setup.sample with rxSize := 4, rxSize_ne_zero := by decide } s ∧
    s.node.rxQueue.availIdx = 5 ∧ s.device.lastAvailIdx = 1 ∧ s.Paired 4 := by
  obtain ⟨s, _, hcycled, -⟩ := Receiver.cycles
    (c := { Setup.sample with rxSize := 4, rxSize_ne_zero := by decide }) (by decide) 1 (by decide)
  refine ⟨s, hcycled.receives, hcycled.availIdx, ?_, ?_⟩
  · rw [hcycled.device]
    rfl
  · exact (rx_descriptors_paired { Setup.sample with rxSize := 4, rxSize_ne_zero := by decide }
      (by decide)).mpr (by decide) s hcycled.receives

/-- A queue of three buffers: after the wrap of `avail.idx` the device never gets the first one. -/
theorem rx_descriptors_lost_three : ∃ s : Receiver,
    Setup.Receives { Setup.sample with rxSize := 3, rxSize_ne_zero := by decide } s ∧
    0 ∉ s.published ++ s.node.rxQueue.unpopped ∧ ¬ s.Paired 3 := by
  obtain ⟨s, hreceives, hlost⟩ := Receiver.loses_id
    (c := { Setup.sample with rxSize := 3, rxSize_ne_zero := by decide }) (by decide) (by decide)
  exact ⟨s, hreceives, hlost, fun hpaired ↦ hlost (hpaired.zero_mem (by decide))⟩

end Aether.Ethernet
