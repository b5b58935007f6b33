import Aether.Ethernet.Tcp

/-!
# Reception

`arp_handle`, `ipv4_handle`, `ethernet_handle_packet`, `virtio_net_poll`, and the set-up of the
device and its queues. Text printed on the UART is left out.
-/

namespace Aether.Ethernet

open ByteMemory Kernel Drivers Common

/-! ## ARP -/

/-- `arp_cache_insert`: the first entry that is free or has the address is overwritten. -/
def arpCacheInsert (ip : UInt32) (mac : Mac) : List ArpEntry → List ArpEntry
  | [] => []
  | entry :: rest =>
      if entry.ip = 0 ∨ entry.ip = ip then ⟨ip, mac⟩ :: rest
      else entry :: arpCacheInsert ip mac rest

/-- The reply that `arp_handle` builds. -/
def arpReply (aetherMac : Mac) (aetherIp : UInt32) (arp : ArpPacket) : ArpPacket where
  htype := htons 0x0001
  ptype := htons 0x0800
  hlen := 6
  plen := 4
  opcode := htons 2
  senderMac := aetherMac
  senderIp := htonl aetherIp
  targetMac := arp.senderMac
  targetIp := arp.senderIp

/-- `arp_handle`. -/
def arpHandle (data : Nat) (len : UInt32) : Action Unit := do
  if len < 28 then pure ()
  else
    let arp := ArpPacket.ofBytes (← readRx data 28)
    if htons arp.htype ≠ 0x0001 then pure ()
    else if htons arp.ptype ≠ 0x0800 then pure ()
    else
      -- the sender is remembered, whatever the packet is about
      modify fun σ ↦
        { σ with arpCache := arpCacheInsert (htonl arp.senderIp) arp.senderMac σ.arpCache }
      if htons arp.opcode ≠ 1 then pure ()
      else
        let σ ← get
        if htonl arp.targetIp ≠ σ.aetherIp then pure ()
        else
          let reply := arpReply σ.aetherMac σ.aetherIp arp
          ethernetSend arp.senderMac ethTypeArp (.stack reply.bytes) 28

/-! ## IPv4 -/

/-- The reasons for which `ipv4_handle` drops a packet. -/
inductive Ipv4Drop where
  | tooShort
  | badVersion
  | truncatedHeader
  | badChecksum
  | badLength
  | notForUs
  deriving DecidableEq

/-- What `ipv4_handle` knows of an accepted packet: the addresses in host order, the protocol, and
where its payload is. -/
structure Ipv4Packet where
  srcIp : UInt32
  dstIp : UInt32
  protocol : UInt8
  payload : Nat
  payloadLen : UInt32
  deriving DecidableEq

/-- The checks of `ipv4_handle`. The checksum is computed over the header with its checksum field
zeroed in place; the field is restored before the comparison. -/
def ipv4Decode (data : Nat) (len : UInt32) : Action (Except Ipv4Drop Ipv4Packet) := do
  if len < 20 then pure (.error .tooShort)
  else
    let ip := Ipv4Header.ofBytes (← readRx data 20)
    let version := ip.versionIhl >>> 4
    let ihl := ip.versionIhl &&& 0x0F
    if version ≠ 4 ∨ ihl < 5 then pure (.error .badVersion)
    else
      let headerLen := ihl.toUInt32 * 4
      if len < headerLen then pure (.error .truncatedHeader)
      else
        let originalChecksum := ip.checksum
        -- the checksum is that of the header with a zero in its field, which is put back afterwards
        writeRx (data + 10) (leBytes 2 0)
        let computed := ipv4Checksum (← readRx data headerLen.toNat)
        writeRx (data + 10) (leBytes 2 originalChecksum.toNat)
        if computed ≠ originalChecksum then pure (.error .badChecksum)
        else
          let totalLen := (ntohs ip.totalLen).toUInt32
          if totalLen < headerLen ∨ len < totalLen then pure (.error .badLength)
          else
            let srcIp := ntohl ip.srcIp
            let dstIp := ntohl ip.destIp
            if dstIp ≠ (← get).aetherIp then pure (.error .notForUs)
            else pure (.ok ⟨srcIp, dstIp, ip.protocol, data + headerLen.toNat,
              totalLen - headerLen⟩)

/-- `ipv4_handle`. UDP and ICMP packets are only printed. -/
def ipv4Handle (data : Nat) (len : UInt32) : Action Unit := do
  match ← ipv4Decode data len with
  | .error .badChecksum =>
      modify fun σ ↦ { σ with netStats := healthReportChecksumError σ.netStats }
  | .error _ => pure ()
  | .ok packet =>
      if packet.protocol = ipProtoTcp then
        tcpInputProcess packet.payload packet.payloadLen.toUInt16 packet.srcIp packet.dstIp
      else pure ()

/-! ## Ethernet -/

/-- `ethernet_handle_packet`. IPv6 packets are only printed. -/
def ethernetHandlePacket (data : Nat) (len : UInt32) : Action Unit := do
  if len < 14 then pure ()
  else
    let eth := EthHeader.ofBytes (← readRx data 14)
    let type := htons eth.ethertype
    if type = ethTypeArp then arpHandle (data + 14) (len - 14)
    else if type = ethTypeIpv4 then ipv4Handle (data + 14) (len - 14)
    else pure ()

/-! ## The device -/

/-- `RX_BUF_SIZE`. -/
def rxBufSize : Nat := 2048

/-- `RX_QUEUE_SIZE`, the number of receive buffers. -/
def rxQueueSize : Nat := 256

/-- `VIRTQ_DESC_F_WRITE`. -/
def virtqDescFWrite : UInt16 := 2

/-- A call of `virtqueue_add_descriptor` on the RX queue, for the buffer at `addr`. -/
def addRxDescriptor (addr : Nat) : Action UInt16 := do
  let σ ← get
  let (head, vq, stats) := virtqueueAddDescriptor σ.rxQueue σ.netStats addr
    (UInt32.ofNat rxBufSize) virtqDescFWrite
  set { σ with rxQueue := vq, netStats := stats }
  pure head

/-- A call of `virtqueue_push_available` on the RX queue. -/
def pushRxAvailable (head : UInt16) : Action Unit :=
  modify fun σ ↦ { σ with rxQueue := virtqueuePushAvailable σ.rxQueue head }

/-- `virtio_net_poll`. A completed id that names no receive buffer is undefined behaviour. -/
def virtioNetPoll : Action Unit := do
  let σ ← get
  let (receipt, vq, stats) := virtqueuePopUsed σ.rxQueue σ.netStats
  set { σ with rxQueue := vq, netStats := stats }
  match receipt with
  | none => pure ()
  | some (id, len) =>
      -- there are `rxQueueSize` buffers, and the identifier is used as it comes from the device
      if rxQueueSize ≤ id.toNat then fault
      else
        let fullBuffer := id.toNat * rxBufSize
        let ethFrame := fullBuffer + 12
        let ethLen := if len > sizeofVirtioNetHdr then len - sizeofVirtioNetHdr else 0
        if ethLen ≠ 0 then
          modify fun σ ↦
            { σ with netStats := { σ.netStats with rxPackets := σ.netStats.rxPackets + 1 } }
          note (.received (← readRx ethFrame ethLen.toNat))
          ethernetHandlePacket ethFrame ethLen
        -- the buffer goes back to the device in any case
        let newId ← addRxDescriptor fullBuffer
        pushRxAvailable newId

/-- The loop of `virtio_net_setup_queues` that fills the RX queue, from descriptor `i` on. -/
def prefillLoop : Nat → Nat → Action Unit
  | _, 0 => pure ()
  | i, count + 1 => do
      let id ← addRxDescriptor (i * rxBufSize)
      pushRxAvailable id
      prefillLoop (i + 1) count

/-- `virtio_net_setup_queues`, for the queue sizes that the device reports and ring memory at the
given addresses. -/
def virtioNetSetupQueues (rxSize txSize : UInt16) (rxRingMem txRingMem : Nat) : Action Unit := do
  if rxSize = 0 then pure ()
  else
    modify fun σ ↦ { σ with
      rxQueue := virtqueueInit σ.rxQueue rxSize 0 rxRingMem
      globalVnetDev := σ.globalVnetDev.map fun dev ↦ { dev with rxVq := true } }
    prefillLoop 0 rxSize.toNat
    if txSize = 0 then pure ()
    else modify fun σ ↦ { σ with
      txQueue := virtqueueInit σ.txQueue txSize 1 txRingMem
      globalVnetDev := σ.globalVnetDev.map fun dev ↦ { dev with txVq := true } }

/-- `sizeof(struct virtio_pci_device)`. -/
def sizeofVirtioPciDevice : Nat := 72

/-- `virtio_pci_init` on a device whose capabilities are all there. It does not initialise the
queue pointers, at offsets 56 and 64 of the structure. -/
def virtioPciInit : Action Unit := do
  let vdev ← callKmalloc sizeofVirtioPciDevice
  if vdev = 0 then pure ()
  else modify fun σ ↦ { σ with
    globalVnetDev := some
      ⟨vdev, load 8 σ.heap.mem (vdev + 56) ≠ 0, load 8 σ.heap.mem (vdev + 64) ≠ 0⟩ }

/-- A node before any driver ran, over RAM of any content. -/
def Node.boot (ram rx : Memory) (mac : Mac) (ip isn : UInt32) : Node where
  heap := Heap.boot ram
  netStats := {}
  globalVnetDev := none
  rxQueue := .zeroed
  txQueue := .zeroed
  rxBuffers := rx
  aetherMac := mac
  aetherIp := ip
  arpCache := List.replicate 4 ⟨0, ⟨List.replicate 6 0, rfl⟩⟩
  tcpTcbList := 0
  tcpGlobalIsn := isn
  liveTcbs := []
  log := []

/-- Device initialisation. -/
def initialise (rxSize txSize : UInt16) (rxRingMem txRingMem : Nat) : Action Unit := do
  virtioPciInit
  virtioNetSetupQueues rxSize txSize rxRingMem txRingMem

end Aether.Ethernet
