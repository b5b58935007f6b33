import Aether.Ethernet.Connections
import Aether.Ethernet.Segments

/-!
# From one node to another

A frame that one node builds for a segment, in the receive buffers of the node it is addressed to,
makes exactly that segment arrive there: the three decoders invert the three encoders.
-/

namespace Aether.Ethernet

open ByteMemory Kernel Drivers Common Program

/-! ## The IPv4 layer -/

/-- Zeroing the checksum of a header in memory. -/
theorem zeroChecksum_bytes (ip : Ipv4Header) :
    zeroChecksum ip.bytes = { ip with checksum := 0 }.bytes := by
  have hself := ip.bytes_split ip.checksum
  rw [show { ip with checksum := ip.checksum } = ip from rfl] at hself
  have htake : ip.bytes.take 10 = ip.prologue := by
    rw [hself]
    exact List.take_left' ip.length_prologue
  have hdrop : ip.bytes.drop 12 = leBytes 4 ip.srcIp.toNat ++ leBytes 4 ip.destIp.toNat := by
    rw [hself, ← List.append_assoc]
    exact List.drop_left' (by simp)
  rw [zeroChecksum, htake, hdrop, ip.bytes_split 0, UInt16.toNat_zero]

/-- `ipv4_handle` accepts a packet that `ipv4_send` built for it. -/
theorem ipv4Verdict_sent {srcIp dstIp : UInt32} {protocol : UInt8} {n : Nat} (hn : n ≤ 65515)
    {rx : Memory} {data : Nat}
    (hrx : readBytes rx data 20 =
      (ipv4HeaderSent srcIp dstIp protocol (20 + UInt32.ofNat n)).bytes) :
    ipv4Verdict dstIp rx data (20 + UInt32.ofNat n) =
      .ok ⟨srcIp, dstIp, protocol, data + 20, UInt32.ofNat n⟩ := by
  have hofBytes := Ipv4Header.ofBytes_bytes
    (ipv4HeaderSent srcIp dstIp protocol (20 + UInt32.ofNat n)) []
  rw [List.append_nil] at hofBytes
  have hlen : (20 + UInt32.ofNat n).toNat = 20 + n := by
    rw [UInt32.toNat_add, UInt32.toNat_ofNat_of_lt' (by rw [UInt32.size]; omega)]
    exact Nat.mod_eq_of_lt (by simp only [UInt32.reduceToNat]; omega)
  have hlong : ¬ 20 + UInt32.ofNat n < 20 := by
    rw [UInt32.lt_iff_toNat_lt, hlen]
    simp
  have htotal : (20 + UInt32.ofNat n).toUInt16.toUInt32 = 20 + UInt32.ofNat n := by
    rw [← UInt32.toNat_inj, UInt16.toNat_toUInt32, UInt32.toNat_toUInt16, hlen]
    exact Nat.mod_eq_of_lt (by omega)
  have hheader : (ipv4HeaderSent srcIp dstIp protocol (20 + UInt32.ofNat n)).headerLen = 20 := by
    change ((0x45 : UInt8) &&& 0x0F).toUInt32 * 4 = 20
    decide
  have hversion : ¬ ((0x45 : UInt8) >>> 4 ≠ 4 ∨ (0x45 : UInt8) &&& 0x0F < 5) := by decide
  have hpayload : 20 + UInt32.ofNat n - 20 = UInt32.ofNat n := by
    rw [UInt32.add_comm, UInt32.add_sub_cancel]
  have hchecksum : ipv4Checksum (zeroChecksum
      (ipv4HeaderSent srcIp dstIp protocol (20 + UInt32.ofNat n)).bytes) =
      (ipv4HeaderSent srcIp dstIp protocol (20 + UInt32.ofNat n)).checksum := by
    rw [zeroChecksum_bytes]
    rfl
  simp only [ipv4Verdict, hrx, hofBytes, hheader, UInt32.reduceToNat, hchecksum, ne_eq,
    not_true_eq_false, hlong, ↓reduceIte]
  simp only [ipv4HeaderSent, ipv4Header, hversion, ntohs_htons, ntohl_htonl, htotal, hlong,
    UInt32.lt_irrefl, or_self, not_true_eq_false, ↓reduceIte, hpayload]

/-! ## The whole stack -/

/-- The bytes of a segment's frame behind the virtio header. -/
theorem drop_tcpFrame (σ : Node) (c : Conn) (flags : UInt8) (payload : List UInt8) :
    (σ.tcpFrame c flags payload).drop 10 =
      (EthHeader.mk gatewayMac σ.aetherMac (htons ethTypeIpv4)).bytes ++
        ((ipv4HeaderSent σ.aetherIp c.remoteIp ipProtoTcp
          (20 + UInt32.ofNat (20 + payload.length))).bytes ++ tcpSegment c flags payload) := by
  rw [Node.tcpFrame, ethernetFrame, ipv4Packet, length_tcpSegment]
  exact List.drop_left' (List.length_replicate ..)

theorem length_tcpFrame (σ : Node) (c : Conn) (flags : UInt8) (payload : List UInt8) :
    (σ.tcpFrame c flags payload).length = 64 + payload.length := by
  rw [Node.tcpFrame, length_ethernetFrame, length_ipv4Packet, length_tcpSegment]
  omega

theorem run_readRx_bind {α : Type} (a n : Nat) (f : List UInt8 → Action α) (τ : Node) :
    (readRx a n >>= f).run τ = (f (readBytes τ.rxBuffers a n)).run τ :=
  rfl

/-- A segment's frame, received by the node it is addressed to, makes the segment arrive. -/
theorem ethernetHandlePacket_tcpFrame {σ τ : Node} {c : Conn} {flags : UInt8}
    {payload : List UInt8} (hlocal : c.localIp = σ.aetherIp) (hτ : τ.aetherIp = c.remoteIp)
    (hlen : payload.length ≤ 65495) {data : Nat}
    (hrx : readBytes τ.rxBuffers data (54 + payload.length) =
      (σ.tcpFrame c flags payload).drop 10) :
    (ethernetHandlePacket data (UInt32.ofNat (54 + payload.length))).run τ =
      (segmentArrives ⟨c.localPort, c.remotePort, c.sndNxt, c.rcvNxt, flags, payload⟩
        c.localIp c.remoteIp).run τ := by
  let eth := EthHeader.mk gatewayMac σ.aetherMac (htons ethTypeIpv4)
  let ip := ipv4HeaderSent σ.aetherIp c.remoteIp ipProtoTcp
    (20 + UInt32.ofNat (20 + payload.length))
  rw [drop_tcpFrame] at hrx
  have heth : eth.bytes.length = 14 := EthHeader.length_bytes eth
  have hip : ip.bytes.length = 20 := Ipv4Header.length_bytes ip
  have hframe : readBytes τ.rxBuffers data (eth.bytes.length + (40 + payload.length)) =
      eth.bytes ++ (ip.bytes ++ tcpSegment c flags payload) := by
    rw [heth, ← hrx]
    congr 1
    omega
  obtain ⟨hrxEth, hpacket⟩ := readBytes_append hframe
  have hpacket : readBytes τ.rxBuffers (data + 14) (ip.bytes.length + (20 + payload.length)) =
      ip.bytes ++ tcpSegment c flags payload := by
    rw [hip, ← hpacket, heth]
    congr 1
    omega
  obtain ⟨hrxIp, hrxSeg⟩ := readBytes_append hpacket
  rw [heth] at hrxEth
  rw [hip] at hrxIp hrxSeg
  have hofBytes := EthHeader.ofBytes_bytes eth []
  rw [List.append_nil] at hofBytes
  -- the headers are read back as they were written
  have hverdict := ipv4Verdict_sent (n := 20 + payload.length) (by omega) hrxIp
  have hn : (UInt32.ofNat (54 + payload.length)).toNat = 54 + payload.length :=
    UInt32.toNat_ofNat_of_lt' (by rw [UInt32.size]; omega)
  have hlong : ¬ UInt32.ofNat (54 + payload.length) < 14 := by
    rw [UInt32.lt_iff_toNat_lt, hn]
    simp only [UInt32.reduceToNat]
    omega
  have hn' : (UInt32.ofNat (20 + payload.length)).toNat = 20 + payload.length :=
    UInt32.toNat_ofNat_of_lt' (by rw [UInt32.size]; omega)
  have hsub : UInt32.ofNat (54 + payload.length) - 14 =
      20 + UInt32.ofNat (20 + payload.length) := by
    rw [← UInt32.toNat_inj, UInt32.toNat_sub_of_le _ _ (UInt32.not_lt.mp hlong), hn,
      UInt32.toNat_add, hn']
    simp only [UInt32.reduceToNat]
    omega
  have hrxSeg' : readBytes τ.rxBuffers (data + 14 + 20)
      (UInt32.ofNat (20 + payload.length)).toUInt16.toNat = tcpSegment c flags payload := by
    rw [UInt32.toNat_toUInt16, hn', Nat.mod_eq_of_lt (by omega), hrxSeg]
  have htype : htons eth.ethertype = ethTypeIpv4 := by
    change htons (htons ethTypeIpv4) = ethTypeIpv4
    decide
  rw [ethernetHandlePacket, if_neg hlong, run_readRx_bind, hrxEth, hofBytes]
  dsimp only
  rw [htype, if_neg (by decide), if_pos rfl, ipv4Handle, StateT.run_bind, ipv4Decode_run, hτ,
    hsub, hverdict]
  dsimp only [Option.bind_eq_bind, Option.bind_some]
  rw [if_pos rfl, tcpInputProcess, run_readRx_bind, hrxSeg', Segment.parse_tcpSegment]
  dsimp only
  rw [← hlocal, tcpValidateChecksum_tcpSegment c flags payload (by omega), if_pos rfl]

/-- For every TCB of a node in order, whatever its contents, `tcp_send_segment` returns, and what
it transmits, if memory and the ring allow, is a frame which at any node with the TCB's remote
address passes all checks and reaches the TCB lookup with the TCB's addresses, ports and numbers
and with the flags and payload that were sent. -/
theorem tcp_stack_roundtrip {σ : Node} (hσ : σ.InOrder) {conns : List (Nat × Conn)}
    (hconns : σ.connections = some conns) {p : Nat} {c : Conn} (hc : (p, c) ∈ conns)
    (hlocal : c.localIp = σ.aetherIp) (flags : UInt8) (payload : List UInt8)
    (hlen : payload.length ≤ 65495) :
    ∃ σ' events, (tcpSendSegment p flags payload).run σ = some ((), σ') ∧
      σ'.log = events ++ σ.log ∧
      (.noMemory ∈ events ∨ .ringFull ∈ events ∨ ∃ frame, .transmitted frame ∈ events) ∧
      ∀ frame, .transmitted frame ∈ events → ∀ (τ : Node) (data : Nat),
        τ.aetherIp = c.remoteIp →
        readBytes τ.rxBuffers data (frame.length - 10) = frame.drop 10 →
        (ethernetHandlePacket data (UInt32.ofNat (frame.length - 10))).run τ =
          (segmentArrives ⟨c.localPort, c.remotePort, c.sndNxt, c.rcvNxt, flags, payload⟩
            c.localIp c.remoteIp).run τ := by
  obtain ⟨L, hL⟩ := hσ
  obtain rfl : (σ.server L).conns = conns := by
    rw [hL.connections_eq] at hconns
    exact Option.some.inj hconns
  obtain ⟨_, σ', hrun, L', -, -, hserver⟩ :=
    tcpSendSegment_spec hL hc flags payload (hlen.trans (by omega))
  rcases hserver with hserver | ⟨e, he, hserver⟩
  · exact ⟨σ', [.noMemory], hrun, congrArg Server.log hserver, .inl (by simp), by simp⟩
  · refine ⟨σ', [e, .handed p c (tcpSegment c flags payload)], hrun, congrArg Server.log hserver,
      ?_, ?_⟩
    · rcases he with rfl | rfl | rfl
      · exact .inl (by simp)
      · exact .inr (.inl (by simp))
      · exact .inr (.inr ⟨_, List.mem_cons_self⟩)
    · intro frame hframe τ data hτ hrx
      -- the frame that was sent is the only one in the events
      obtain rfl : frame = σ.tcpFrame c flags payload := by
        simp only [List.mem_cons, reduceCtorEq, List.not_mem_nil, or_self, or_false] at hframe
        rcases he with rfl | rfl | rfl
        · cases hframe
        · cases hframe
        · cases hframe
          rfl
      have hlength : (σ.tcpFrame c flags payload).length - 10 = 54 + payload.length := by
        rw [length_tcpFrame]
        omega
      rw [hlength] at hrx ⊢
      exact ethernetHandlePacket_tcpFrame hlocal hτ hlen hrx

/-- The acknowledgement that a node can send after a SYN arrived reaches the lookup of its peer. -/
theorem tcp_stack_roundtrip_syn : ∃ σ p c σ' events, Setup.sample.Reaches σ ∧
    σ.connections = some [(p, c)] ∧ (tcpSendSegment p tcpFlagAck []).run σ = some ((), σ') ∧
    σ'.log = events ++ σ.log ∧
    ∀ frame, .transmitted frame ∈ events → ∀ (τ : Node) (data : Nat), τ.aetherIp = c.remoteIp →
      readBytes τ.rxBuffers data (frame.length - 10) = frame.drop 10 →
      (ethernetHandlePacket data (UInt32.ofNat (frame.length - 10))).run τ =
        (segmentArrives ⟨c.localPort, c.remotePort, c.sndNxt, c.rcvNxt, tcpFlagAck, []⟩
          c.localIp c.remoteIp).run τ := by
  obtain ⟨σ, -, hreaches, hany⟩ := Setup.exec_any .sample [.fromPeer 100 0 tcpFlagSyn []]
    (fun σ ↦ σ.connections.any fun conns ↦
      conns.length == 1 && conns.all fun e ↦ e.2.localIp == σ.aetherIp)
    (by decide +kernel)
  cases hconns : σ.connections with
  | none => simp [hconns] at hany
  | some conns =>
      rw [hconns, Option.any_some, Bool.and_eq_true, beq_iff_eq] at hany
      obtain ⟨⟨p, c⟩, rfl⟩ := List.length_eq_one_iff.mp hany.1
      have hlocal : c.localIp = σ.aetherIp := by simpa using hany.2
      obtain ⟨σ', events, hrun, hlog, -, hframes⟩ := tcp_stack_roundtrip hreaches.inOrder hconns
        List.mem_cons_self hlocal tcpFlagAck [] (Nat.zero_le _)
      exact ⟨σ, p, c, σ', events, hreaches, hconns, hrun, hlog, hframes⟩

end Aether.Ethernet
