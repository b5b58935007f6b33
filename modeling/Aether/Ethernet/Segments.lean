import Aether.Ethernet.Server

/-!
# Segments on the wire

The segment that a connection sends reads back as the connection's ports, numbers, flags and
payload, and the receiver's checksum test accepts it.
-/

namespace Aether.Ethernet

open ByteMemory Common OnesComplement

/-! ## Reading a segment -/

/-- A header of five words without options is followed by the payload. -/
theorem Segment.parse_bytes (hdr : TcpHdr) (payload : List UInt8)
    (hoffset : hdr.offsetReserved = (5 : UInt8) <<< 4) :
    Segment.parse (hdr.bytes ++ payload) = some {
      srcPort := ntohs hdr.srcPort
      dstPort := ntohs hdr.dstPort
      seq := ntohl hdr.seq
      ack := ntohl hdr.ack
      flags := hdr.flags
      payload := payload } := by
  have hlen : ¬ (hdr.bytes ++ payload).length < sizeofTcpHdr := by
    simp [sizeofTcpHdr]
  have hheader : ((5 : UInt8) <<< 4 >>> 4) * 4 = 20 := rfl
  have hfits : ¬ ((20 : UInt8) < 20 ∨ (hdr.bytes ++ payload).length < (20 : UInt8).toNat) := by
    simp
  have hdrop : (hdr.bytes ++ payload).drop (20 : UInt8).toNat = payload :=
    List.drop_left' (TcpHdr.length_bytes hdr)
  simp only [Segment.parse, hlen, ↓reduceIte, TcpHdr.ofBytes_bytes, hoffset, hheader, hfits, hdrop]

/-- A sent segment reads back as what its connection put into it. -/
theorem Segment.parse_tcpSegment (c : Conn) (flags : UInt8) (payload : List UInt8) :
    Segment.parse (tcpSegment c flags payload) =
      some ⟨c.localPort, c.remotePort, c.sndNxt, c.rcvNxt, flags, payload⟩ := by
  rw [tcpSegment, Segment.parse_bytes _ _ rfl]
  simp only [Conn.header, ntohs_htons, ntohl_htonl]

/-! ## The checksum of a segment -/

/-- The checksum field adds its value to the words of a segment. -/
theorem TcpHdr.sum_leWords (hdr : TcpHdr) (checksum : UInt16) (payload : List UInt8) :
    (leWords ({ hdr with checksum := checksum }.bytes ++ payload)).sum =
      (leWords ({ hdr with checksum := 0 }.bytes ++ payload)).sum + checksum.toNat := by
  have hwords : ∀ s : UInt16, (leWords ({ hdr with checksum := s }.bytes ++ payload)).sum =
      (leWords hdr.prologue).sum + (s.toNat +
        (leWords (leBytes 2 hdr.urgentPtr.toNat ++ payload)).sum) := fun s ↦ by
    rw [bytes_split, leWords_append (by simp), leWords_append (by simp),
      leWords_leBytes s.toNat_lt, List.sum_append, List.sum_append, List.sum_singleton]
  rw [hwords checksum, hwords 0, UInt16.toNat_zero]
  omega

/-- A header that stores its checksum makes the sum of its segment a multiple of `65535`. -/
theorem dvd_tcpWordSum (srcIp dstIp : UInt32) (hdr : TcpHdr) (payload : List UInt8)
    (hhdr : hdr.checksum = 0) (hlen : payload.length ≤ 65515) :
    65535 ∣ tcpWordSum srcIp dstIp ({ hdr with
      checksum := tcpComputeChecksum srcIp dstIp (hdr.bytes ++ payload) }.bytes ++ payload) := by
  have hzero : hdr = { hdr with checksum := 0 } := by rw [← hhdr]
  have hbound : (hdr.bytes ++ payload).length < 65536 := by
    rw [List.length_append, TcpHdr.length_bytes]
    omega
  have hsum := hdr.sum_leWords (tcpComputeChecksum srcIp dstIp (hdr.bytes ++ payload)) payload
  rw [← hzero, toNat_tcpComputeChecksum srcIp dstIp hbound] at hsum
  have hdvd := dvd_add_complement (tcpWordSum srcIp dstIp (hdr.bytes ++ payload))
  simp only [tcpWordSum, List.length_append, TcpHdr.length_bytes] at hsum hdvd ⊢
  rw [hsum]
  omega

/-- The receiver accepts a sent segment. -/
theorem tcpValidateChecksum_tcpSegment (c : Conn) (flags : UInt8) (payload : List UInt8)
    (hlen : payload.length ≤ 65515) :
    tcpValidateChecksum c.localIp c.remoteIp (tcpSegment c flags payload) = true := by
  rw [tcpValidateChecksum_iff _ _ (by simp [tcpSegment]; omega)]
  exact dvd_tcpWordSum c.localIp c.remoteIp (c.header flags) payload rfl hlen

/-! ## Resets -/

/-- A reset reads back as what was put into it. -/
theorem Segment.parse_rstSegment (srcIp dstIp : UInt32) (srcPort dstPort : UInt16)
    (seq ack : UInt32) : Segment.parse (rstSegment srcIp dstIp srcPort dstPort seq ack) =
      some ⟨srcPort, dstPort, seq, ack, tcpFlagRst ||| tcpFlagAck, []⟩ := by
  have hparse := Segment.parse_bytes { rstHeader srcPort dstPort seq ack with
    checksum := tcpComputeChecksum srcIp dstIp (rstHeader srcPort dstPort seq ack).bytes } [] rfl
  rw [List.append_nil] at hparse
  rw [rstSegment, hparse]
  simp only [rstHeader, ntohs_htons, ntohl_htonl]

/-- The receiver accepts a reset. -/
theorem tcpValidateChecksum_rstSegment (srcIp dstIp : UInt32) (srcPort dstPort : UInt16)
    (seq ack : UInt32) :
    tcpValidateChecksum srcIp dstIp (rstSegment srcIp dstIp srcPort dstPort seq ack) = true := by
  have hdvd := dvd_tcpWordSum srcIp dstIp (rstHeader srcPort dstPort seq ack) [] rfl
    (Nat.zero_le _)
  simp only [List.append_nil] at hdvd
  rw [tcpValidateChecksum_iff _ _ (by simp [rstSegment])]
  exact hdvd

end Aether.Ethernet
