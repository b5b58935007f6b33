import Aether.Common.ByteOrder
import Aether.Lib.ByteFields
import Mathlib.Data.List.TakeDrop

/-!
# Packed headers

The headers that the stack lays over byte buffers. Each structure holds the fields as the code
loads and stores them, in memory order; `bytes` is the structure in memory and `ofBytes` reads it
back. Conversion between host and network order is the code's business.
-/

namespace Aether.Ethernet

open ByteMemory Common

/-- A hardware address, `uint8_t[6]`. -/
structure Mac where
  bytes : List UInt8
  length : bytes.length = 6
  deriving DecidableEq

/-- The hardware address at offset `i` of a byte string. -/
def Mac.ofBytes (bs : List UInt8) (i : Nat) : Mac :=
  ⟨(bs.drop i).takeD 6 0, List.takeD_length 6 _ 0⟩

attribute [simp] Mac.length

@[simp] theorem Mac.ofBytes_head (mac : Mac) (ys : List UInt8) :
    Mac.ofBytes (mac.bytes ++ ys) 0 = mac := by
  rw [Mac.mk.injEq]
  exact List.takeD_left' mac.length

@[simp] theorem Mac.ofBytes_append {xs ys : List UInt8} {i : Nat} (h : xs.length ≤ i) :
    Mac.ofBytes (xs ++ ys) i = Mac.ofBytes ys (i - xs.length) := by
  simp only [Mac.ofBytes, List.drop_append, List.drop_eq_nil_of_le h, List.nil_append]

/-! ## Ethernet -/

/-- `struct eth_header`. -/
structure EthHeader where
  destMac : Mac
  srcMac : Mac
  ethertype : UInt16
  deriving DecidableEq

/-- The header in memory. -/
def EthHeader.bytes (eth : EthHeader) : List UInt8 :=
  eth.destMac.bytes ++ (eth.srcMac.bytes ++ leBytes 2 eth.ethertype.toNat)

/-- The header at the start of a byte string. -/
def EthHeader.ofBytes (bs : List UInt8) : EthHeader :=
  ⟨Mac.ofBytes bs 0, Mac.ofBytes bs 6, u16 bs 12⟩

@[simp] theorem EthHeader.length_bytes (eth : EthHeader) : eth.bytes.length = 14 := by
  simp [EthHeader.bytes]

@[simp] theorem EthHeader.ofBytes_bytes (eth : EthHeader) (ys : List UInt8) :
    EthHeader.ofBytes (eth.bytes ++ ys) = eth := by
  simp [EthHeader.ofBytes, EthHeader.bytes]

/-! ## ARP -/

/-- `struct arp_packet`. -/
structure ArpPacket where
  htype : UInt16
  ptype : UInt16
  hlen : UInt8
  plen : UInt8
  opcode : UInt16
  senderMac : Mac
  senderIp : UInt32
  targetMac : Mac
  targetIp : UInt32
  deriving DecidableEq

/-- The packet in memory. -/
def ArpPacket.bytes (arp : ArpPacket) : List UInt8 :=
  leBytes 2 arp.htype.toNat ++ (leBytes 2 arp.ptype.toNat ++ (leBytes 1 arp.hlen.toNat ++
    (leBytes 1 arp.plen.toNat ++ (leBytes 2 arp.opcode.toNat ++ (arp.senderMac.bytes ++
      (leBytes 4 arp.senderIp.toNat ++ (arp.targetMac.bytes ++ leBytes 4 arp.targetIp.toNat)))))))

/-- The packet at the start of a byte string. -/
def ArpPacket.ofBytes (bs : List UInt8) : ArpPacket where
  htype := u16 bs 0
  ptype := u16 bs 2
  hlen := u8 bs 4
  plen := u8 bs 5
  opcode := u16 bs 6
  senderMac := Mac.ofBytes bs 8
  senderIp := u32 bs 14
  targetMac := Mac.ofBytes bs 18
  targetIp := u32 bs 24

@[simp] theorem ArpPacket.length_bytes (arp : ArpPacket) : arp.bytes.length = 28 := by
  simp [ArpPacket.bytes]

/-! ## IPv4 -/

/-- `struct ipv4_header`. -/
structure Ipv4Header where
  versionIhl : UInt8
  tos : UInt8
  totalLen : UInt16
  id : UInt16
  flagsFragment : UInt16
  ttl : UInt8
  protocol : UInt8
  checksum : UInt16
  srcIp : UInt32
  destIp : UInt32
  deriving DecidableEq

/-- The header in memory. -/
def Ipv4Header.bytes (ip : Ipv4Header) : List UInt8 :=
  leBytes 1 ip.versionIhl.toNat ++ (leBytes 1 ip.tos.toNat ++ (leBytes 2 ip.totalLen.toNat ++
    (leBytes 2 ip.id.toNat ++ (leBytes 2 ip.flagsFragment.toNat ++ (leBytes 1 ip.ttl.toNat ++
      (leBytes 1 ip.protocol.toNat ++ (leBytes 2 ip.checksum.toNat ++
        (leBytes 4 ip.srcIp.toNat ++ leBytes 4 ip.destIp.toNat))))))))

/-- The header at the start of a byte string. -/
def Ipv4Header.ofBytes (bs : List UInt8) : Ipv4Header where
  versionIhl := u8 bs 0
  tos := u8 bs 1
  totalLen := u16 bs 2
  id := u16 bs 4
  flagsFragment := u16 bs 6
  ttl := u8 bs 8
  protocol := u8 bs 9
  checksum := u16 bs 10
  srcIp := u32 bs 12
  destIp := u32 bs 16

@[simp] theorem Ipv4Header.length_bytes (ip : Ipv4Header) : ip.bytes.length = 20 := by
  simp [Ipv4Header.bytes]

/-- The fields before the checksum. -/
def Ipv4Header.prologue (ip : Ipv4Header) : List UInt8 :=
  leBytes 1 ip.versionIhl.toNat ++ (leBytes 1 ip.tos.toNat ++ (leBytes 2 ip.totalLen.toNat ++
    (leBytes 2 ip.id.toNat ++ (leBytes 2 ip.flagsFragment.toNat ++ (leBytes 1 ip.ttl.toNat ++
      leBytes 1 ip.protocol.toNat)))))

@[simp] theorem Ipv4Header.length_prologue (ip : Ipv4Header) : ip.prologue.length = 10 := by
  simp [prologue]

/-- The header around its checksum. -/
theorem Ipv4Header.bytes_split (ip : Ipv4Header) (checksum : UInt16) :
    { ip with checksum := checksum }.bytes =
      ip.prologue ++ (leBytes 2 checksum.toNat ++
        (leBytes 4 ip.srcIp.toNat ++ leBytes 4 ip.destIp.toNat)) := by
  simp only [bytes, prologue, List.append_assoc]

@[simp] theorem Ipv4Header.ofBytes_bytes (ip : Ipv4Header) (ys : List UInt8) :
    Ipv4Header.ofBytes (ip.bytes ++ ys) = ip := by
  simp [Ipv4Header.ofBytes, Ipv4Header.bytes]

/-! ## TCP -/

/-- `tcp_hdr_t`. -/
structure TcpHdr where
  srcPort : UInt16
  dstPort : UInt16
  seq : UInt32
  ack : UInt32
  offsetReserved : UInt8
  flags : UInt8
  window : UInt16
  checksum : UInt16
  urgentPtr : UInt16
  deriving DecidableEq

/-- `sizeof(tcp_hdr_t)`. -/
def sizeofTcpHdr : Nat := 20

/-- The header in memory. -/
def TcpHdr.bytes (hdr : TcpHdr) : List UInt8 :=
  leBytes 2 hdr.srcPort.toNat ++ (leBytes 2 hdr.dstPort.toNat ++ (leBytes 4 hdr.seq.toNat ++
    (leBytes 4 hdr.ack.toNat ++ (leBytes 1 hdr.offsetReserved.toNat ++
      (leBytes 1 hdr.flags.toNat ++ (leBytes 2 hdr.window.toNat ++
        (leBytes 2 hdr.checksum.toNat ++ leBytes 2 hdr.urgentPtr.toNat)))))))

/-- The header at the start of a byte string. -/
def TcpHdr.ofBytes (bs : List UInt8) : TcpHdr where
  srcPort := u16 bs 0
  dstPort := u16 bs 2
  seq := u32 bs 4
  ack := u32 bs 8
  offsetReserved := u8 bs 12
  flags := u8 bs 13
  window := u16 bs 14
  checksum := u16 bs 16
  urgentPtr := u16 bs 18

@[simp] theorem TcpHdr.length_bytes (hdr : TcpHdr) : hdr.bytes.length = 20 := by
  simp [TcpHdr.bytes]

/-- The fields before the checksum. -/
def TcpHdr.prologue (hdr : TcpHdr) : List UInt8 :=
  leBytes 2 hdr.srcPort.toNat ++ (leBytes 2 hdr.dstPort.toNat ++ (leBytes 4 hdr.seq.toNat ++
    (leBytes 4 hdr.ack.toNat ++ (leBytes 1 hdr.offsetReserved.toNat ++
      (leBytes 1 hdr.flags.toNat ++ leBytes 2 hdr.window.toNat)))))

@[simp] theorem TcpHdr.length_prologue (hdr : TcpHdr) : hdr.prologue.length = 16 := by
  simp [prologue]

/-- A segment around its checksum. -/
theorem TcpHdr.bytes_split (hdr : TcpHdr) (checksum : UInt16) (payload : List UInt8) :
    { hdr with checksum := checksum }.bytes ++ payload =
      hdr.prologue ++ (leBytes 2 checksum.toNat ++ (leBytes 2 hdr.urgentPtr.toNat ++ payload)) := by
  simp only [bytes, prologue, List.append_assoc]

@[simp] theorem TcpHdr.ofBytes_bytes (hdr : TcpHdr) (ys : List UInt8) :
    TcpHdr.ofBytes (hdr.bytes ++ ys) = hdr := by
  simp [TcpHdr.ofBytes, TcpHdr.bytes]

/-- A received segment as the code sees it after converting the header to host order. -/
structure Segment where
  srcPort : UInt16
  dstPort : UInt16
  seq : UInt32
  ack : UInt32
  flags : UInt8
  payload : List UInt8
  deriving DecidableEq

/-- The first step of `tcp_input_process`: the header fields in host order and the payload after
`header_len` bytes, `none` when the header is too short or does not fit. -/
def Segment.parse (segment : List UInt8) : Option Segment :=
  if segment.length < sizeofTcpHdr then none
  else
    let hdr := TcpHdr.ofBytes segment
    let headerLen : UInt8 := (hdr.offsetReserved >>> 4) * 4
    if headerLen < 20 ∨ segment.length < headerLen.toNat then none
    else some {
      srcPort := ntohs hdr.srcPort
      dstPort := ntohs hdr.dstPort
      seq := ntohl hdr.seq
      ack := ntohl hdr.ack
      flags := hdr.flags
      payload := segment.drop headerLen.toNat }

end Aether.Ethernet
