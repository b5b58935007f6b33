import Aether.Ethernet.Checksum
import Aether.Ethernet.Node

/-!
# Transmission

`ethernet_send`, `ipv4_send` and `net_tx_reaper`. Each sender copies its payload into a block of
its own. A payload pointer is a heap address or the bytes of a local variable of the caller.
-/

namespace Aether.Ethernet

open ByteMemory Kernel Drivers Common

/-- A pointer to a payload. -/
inductive Pointer where
  | heap (addr : Nat)
  | stack (bytes : List UInt8)

/-- The `n` bytes behind a pointer. -/
def readPointer : Pointer → Nat → Action (List UInt8)
  | .heap addr, n => readHeap addr n
  | .stack bytes, n => pure (bytes.take n)

/-- `sizeof(struct virtio_net_hdr)`. -/
def sizeofVirtioNetHdr : UInt32 := 10

/-- `ETH_TYPE_IPV4`. -/
def ethTypeIpv4 : UInt16 := 0x0800

/-- `ETH_TYPE_ARP`. -/
def ethTypeArp : UInt16 := 0x0806

/-- A call of `virtqueue_add_descriptor` on the TX queue. -/
def addTxDescriptor (addr : Nat) (len : UInt32) : Action UInt16 := do
  let σ ← get
  let (head, vq, stats) := virtqueueAddDescriptor σ.txQueue σ.netStats addr len 0
  set { σ with txQueue := vq, netStats := stats }
  pure head

/-- A call of `virtqueue_push_available` on the TX queue. -/
def pushTxAvailable (head : UInt16) : Action Unit :=
  modify fun σ ↦ { σ with txQueue := virtqueuePushAvailable σ.txQueue head }

/-- `ethernet_send`. -/
def ethernetSend (destMac : Mac) (ethertype : UInt16) (payload : Pointer) (len : UInt32) :
    Action Unit := do
  let σ ← get
  if σ.globalVnetDev.any (·.txVq) then
    let totalLen := sizeofVirtioNetHdr + 14 + len
    let buffer ← callKmalloc totalLen.toNat
    if buffer = 0 then pure ()
    else
      writeHeap buffer (List.replicate 10 0)
      writeHeap (buffer + 10) (EthHeader.mk destMac σ.aetherMac (htons ethertype)).bytes
      writeHeap (buffer + 24) (← readPointer payload len.toNat)
      let frame ← readHeap buffer totalLen.toNat
      -- whether there is room in the ring is found out only now
      note (if (← get).txQueue.numFree = 0 then .ringFull else .transmitted frame)
      let head ← addTxDescriptor buffer totalLen
      pushTxAvailable head
  else pure ()

/-- `gateway_mac`. -/
def gatewayMac : Mac := ⟨[0x52, 0x54, 0x00, 0x12, 0x34, 0x56], rfl⟩

/-- The header that `ipv4_send` builds, before its checksum is known. -/
def ipv4Header (srcIp dstIp : UInt32) (protocol : UInt8) (totalLen : UInt32) : Ipv4Header where
  versionIhl := 0x45
  tos := 0
  totalLen := htons totalLen.toUInt16
  id := htons 1
  flagsFragment := htons 0
  ttl := 64
  protocol := protocol
  checksum := 0
  srcIp := htonl srcIp
  destIp := htonl dstIp

/-- `ipv4_send`. -/
def ipv4Send (dstIp : UInt32) (protocol : UInt8) (payload : Pointer) (payloadLen : UInt32) :
    Action Unit := do
  let σ ← get
  if σ.globalVnetDev.isNone then pure ()
  else
    let totalLen := 20 + payloadLen
    let pkt ← callKmalloc totalLen.toNat
    if pkt = 0 then pure ()
    else
      writeHeap pkt (List.replicate totalLen.toNat 0)
      writeHeap pkt (ipv4Header σ.aetherIp dstIp protocol totalLen).bytes
      -- the header has been written with a zero in the field
      let checksum := ipv4Checksum (← readHeap pkt 20)
      writeHeap (pkt + 10) (leBytes 2 checksum.toNat)
      writeHeap (pkt + 20) (← readPointer payload payloadLen.toNat)
      ethernetSend gatewayMac ethTypeIpv4 (.heap pkt) totalLen
      callKfree pkt

/-- The loop of `net_tx_reaper`. It ends when the used ring is drained, which takes fewer turns
than a 16-bit index has values. -/
def reapLoop : Nat → Action Unit
  | 0 => fault
  | turns + 1 => do
      let σ ← get
      let (receipt, vq, stats) := virtqueuePopUsed σ.txQueue σ.netStats
      set { σ with txQueue := vq, netStats := stats }
      match receipt with
      | none => pure ()
      | some (descId, _) =>
          let bufferToFree := (vq.desc descId.toNat).addr
          if bufferToFree ≠ 0 then callKfree bufferToFree
          modify fun σ ↦ { σ with
            netStats := { σ.netStats with
              bufferUsage :=
                if σ.netStats.bufferUsage > 0 then σ.netStats.bufferUsage - 1
                else σ.netStats.bufferUsage
              txPackets := σ.netStats.txPackets + 1 } }
          reapLoop turns

/-- `net_tx_reaper`. -/
def netTxReaper : Action Unit := reapLoop 65536

end Aether.Ethernet
