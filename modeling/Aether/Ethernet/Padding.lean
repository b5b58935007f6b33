import Aether.Ethernet.Acceptance
import Aether.Ethernet.Closure
import Aether.Lib.Effects

/-!
# Bytes after the packet

What the stack does with an IPv4 frame does not depend on the bytes behind the packet, be they
padding of the frame or left over in the receive buffer: a frame and the same frame with more bytes
behind it lead to states that differ in the received bytes at most.
-/

namespace Aether.Ethernet

open ByteMemory Kernel Drivers Common Program Transition

/-- The node with other received bytes. -/
def Node.withRx (rx : Memory) (σ : Node) : Node := { σ with rxBuffers := rx }

/-! ## What does not look at the received bytes -/

/-- The received bytes make no difference to the action. -/
def IgnoresRx {α : Type} (x : Action α) : Prop := ∀ rx, Commutes (Node.withRx rx) x

theorem ignoresRx_callKmalloc (size : Nat) : IgnoresRx (callKmalloc size) := by
  intro rx σ
  rw [callKmalloc_run, callKmalloc_run, show (σ.withRx rx).heap = σ.heap from rfl]
  cases kmalloc σ.heap size with
  | none => rfl
  | some r => rfl

/-- Nothing that the stack does with a segment looks at them. -/
theorem closed_ignoresRx : Closed @IgnoresRx where
  pure a := fun _ ↦ .pure a
  fault := fun _ ↦ .fail fun _ ↦ rfl
  bind hx hf := fun rx ↦ (hx rx).bind fun a ↦ hf a rx
  reads hf h := fun rx ↦ .reads (fun σ ↦ hf σ rx) fun σ ↦ h σ rx
  assign hf _ _ _ _ := fun rx ↦ .modify fun σ ↦ hf σ rx
  callKmalloc := ignoresRx_callKmalloc
  addTxDescriptor _ _ := fun _ _ ↦ rfl
  pushTxAvailable _ := fun _ ↦ .modify fun _ ↦ rfl

/-! ## Two receive buffers with the same packet -/

section Packets

variable {rx rx' : Memory} {data : Nat} {len len' : UInt32}

/-- The checks come to the same verdict when the packet fits both lengths. -/
theorem ipv4Verdict_padded (aetherIp : UInt32) (hsame : Agree data len.toNat rx rx')
    (hlen : len ≤ len') (hlong : 20 ≤ len.toNat)
    (hheader : (Ipv4Header.ofBytes (readBytes rx data 20)).headerLen ≤ len)
    (htotal : (ntohs (Ipv4Header.ofBytes (readBytes rx data 20)).totalLen).toUInt32 ≤ len) :
    ipv4Verdict aetherIp rx' data len' = ipv4Verdict aetherIp rx data len := by
  have hfirst : readBytes rx' data 20 = readBytes rx data 20 :=
    (hsame.mono (by omega) (by omega)).readBytes
  have hbytes : readBytes rx' data (Ipv4Header.ofBytes (readBytes rx data 20)).headerLen.toNat =
      readBytes rx data (Ipv4Header.ofBytes (readBytes rx data 20)).headerLen.toNat := by
    rw [UInt32.le_iff_toNat_le] at hheader
    exact (hsame.mono (by omega) (by omega)).readBytes
  have hheader' := UInt32.le_trans hheader hlen
  have htotal' := UInt32.le_trans htotal hlen
  have hshort : ¬ len < 20 := by
    rw [UInt32.lt_iff_toNat_lt]
    exact Nat.not_lt.mpr hlong
  have hshort' : ¬ len' < 20 := fun h ↦ hshort (UInt32.lt_of_le_of_lt hlen h)
  unfold ipv4Verdict
  simp only [hfirst, hbytes, if_neg hshort, if_neg hshort', if_neg (UInt32.not_lt.mpr hheader),
    if_neg (UInt32.not_lt.mpr hheader'), UInt32.not_lt.mpr htotal, UInt32.not_lt.mpr htotal',
    or_false]

/-- A segment inside the part that is the same is treated alike. -/
theorem tcpInputProcess_padded (σ : Node) {segment : Nat} {n : UInt16} {srcIp dstIp : UInt32}
    (hsame : Agree segment n.toNat rx rx') :
    (tcpInputProcess segment n srcIp dstIp).run (σ.withRx rx') =
      ((tcpInputProcess segment n srcIp dstIp).run (σ.withRx rx)).map
        fun r ↦ (r.1, r.2.withRx rx') := by
  have hrun := tcpInputProcess_run (σ.withRx rx) segment n srcIp dstIp
  have hrun' := tcpInputProcess_run (σ.withRx rx') segment n srcIp dstIp
  rw [show (σ.withRx rx').rxBuffers = rx' from rfl, hsame.readBytes] at hrun'
  rw [show (σ.withRx rx).rxBuffers = rx from rfl] at hrun
  cases haccept : acceptSegment srcIp dstIp (readBytes rx segment n.toNat) with
  | none =>
      rw [haccept] at hrun hrun'
      rw [hrun, hrun']
      rfl
  | some seg =>
      rw [haccept] at hrun hrun'
      rw [hrun, hrun']
      exact closed_ignoresRx.segmentArrives seg srcIp dstIp rx' (σ.withRx rx)

/-- A packet that fits both lengths is treated alike. -/
theorem ipv4Handle_padded (σ : Node) (hsame : Agree data len.toNat rx rx') (hlen : len ≤ len')
    (hlong : 20 ≤ len.toNat)
    (hheader : (Ipv4Header.ofBytes (readBytes rx data 20)).headerLen ≤ len)
    (htotal : (ntohs (Ipv4Header.ofBytes (readBytes rx data 20)).totalLen).toUInt32 ≤ len) :
    (ipv4Handle data len').run (σ.withRx rx') =
      ((ipv4Handle data len).run (σ.withRx rx)).map fun r ↦ (r.1, r.2.withRx rx') := by
  have hverdict := ipv4Verdict_padded σ.aetherIp hsame hlen hlong hheader htotal
  unfold ipv4Handle
  rw [run_bind_of_run (ipv4Decode_run (σ.withRx rx') data len'),
    run_bind_of_run (ipv4Decode_run (σ.withRx rx) data len)]
  rw [show ipv4Verdict (σ.withRx rx').aetherIp (σ.withRx rx').rxBuffers data len' =
    ipv4Verdict (σ.withRx rx).aetherIp (σ.withRx rx).rxBuffers data len from hverdict]
  cases hcase : ipv4Verdict (σ.withRx rx).aetherIp (σ.withRx rx).rxBuffers data len with
  | error e => cases e <;> rfl
  | ok packet =>
      obtain ⟨ip, horder, -, -, -, hpayload, hpayloadLen⟩ := ipv4Verdict_ok hcase
      have hfits := horder.packetFits
      have hpacket := horder.packetLong
      dsimp only
      split
      · refine tcpInputProcess_padded σ (hsame.mono (by omega) ?_)
        rw [hpayload, hpayloadLen]
        omega
      · rfl

end Packets

/-! ## Frames with trailing bytes -/

/-- The frame holds an IPv4 packet completely. -/
structure HoldsPacket (f : List UInt8) : Prop where
  type : htons (EthHeader.ofBytes (f.take 14)).ethertype = ethTypeIpv4
  long : 14 + 20 ≤ f.length
  total : 14 + (ntohs (Ipv4Header.ofBytes ((f.drop 14).take 20)).totalLen).toNat ≤ f.length
  header : 14 + (Ipv4Header.ofBytes ((f.drop 14).take 20)).headerLen.toNat ≤ f.length

/-- An IPv4 frame goes to `ipv4_handle`. -/
theorem ethernetHandlePacket_ipv4 (σ : Node) {data : Nat} {len : UInt32} (hlong : 14 ≤ len.toNat)
    (htype : etherType σ.rxBuffers data = ethTypeIpv4) :
    (ethernetHandlePacket data len).run σ = (ipv4Handle (data + 14) (len - 14)).run σ := by
  have hshort : ¬ len < 14 := by
    rw [UInt32.lt_iff_toNat_lt]
    exact Nat.not_lt.mpr hlong
  rw [ethernetHandlePacket, if_neg hshort]
  show (if etherType σ.rxBuffers data = ethTypeArp then arpHandle (data + 14) (len - 14)
    else if etherType σ.rxBuffers data = ethTypeIpv4 then ipv4Handle (data + 14) (len - 14)
    else pure () : Action Unit).run σ = _
  rw [htype, if_neg (by decide), if_pos rfl]

/-- Two buffers with the frame in front coincide there. -/
theorem agree_of_frames {rx rx' : Memory} {data : Nat} {f s : List UInt8}
    (hf : readBytes rx data f.length = f) (hfs : readBytes rx' data (f ++ s).length = f ++ s) :
    Agree data f.length rx rx' := by
  intro i hi
  have hlonger : i < (f ++ s).length := by
    rw [List.length_append]
    omega
  rw [← getD_readBytes rx data f.length i hi, hf, ← getD_readBytes rx' data _ i hlonger, hfs,
    List.getD_append _ _ _ _ hi]

/-- In every reachable state, a frame that holds an IPv4 packet and the same frame with any bytes
behind it, received at the same place, are both handled, and lead to states that differ in the
received bytes at most. -/
theorem trailing_bytes_ignored (c : Setup) (σ : Node) (h : c.Reaches σ) (rx rx' : Memory)
    (data : Nat) (f s : List UInt8) (hlen : (f ++ s).length < 2 ^ 32)
    (hf : readBytes rx data f.length = f) (hfs : readBytes rx' data (f ++ s).length = f ++ s)
    (hpacket : HoldsPacket f) :
    ∃ σ₁ σ₂, (ethernetHandlePacket data (UInt32.ofNat f.length)).run (σ.withRx rx) = some ((), σ₁) ∧
      (ethernetHandlePacket data (UInt32.ofNat (f ++ s).length)).run (σ.withRx rx') =
        some ((), σ₂) ∧ σ₂ = σ₁.withRx σ₂.rxBuffers := by
  obtain ⟨L, hs⟩ := h.sound
  have hlong := hpacket.long
  rw [List.length_append] at hlen
  have hshorter : (UInt32.ofNat f.length).toNat = f.length :=
    UInt32.toNat_ofNat_of_lt' (by rw [UInt32.size]; omega)
  have hlonger : (UInt32.ofNat (f ++ s).length).toNat = f.length + s.length := by
    rw [UInt32.toNat_ofNat_of_lt' (by rw [UInt32.size, List.length_append]; omega),
      List.length_append]
  have hsame := agree_of_frames hf hfs
  -- The packet starts behind the Ethernet header, in both buffers.
  have hpayload : ∀ n : UInt32, 14 ≤ n.toNat → (n - 14).toNat = n.toNat - 14 := by
    intro n hn
    refine toNat_payloadLen ?_
    rw [UInt32.lt_iff_toNat_lt]
    exact Nat.not_lt.mpr hn
  have hshorter' := hpayload (UInt32.ofNat f.length) (by omega)
  have hlonger' := hpayload (UInt32.ofNat (f ++ s).length) (by omega)
  have hheader : readBytes rx (data + 14) 20 = (f.drop 14).take 20 := by
    rw [← hf, drop_readBytes rx data (by omega), take_readBytes rx (data + 14) (by omega)]
  have htype : etherType rx data = ethTypeIpv4 := by
    rw [etherType, ← take_readBytes rx data (show 14 ≤ f.length by omega), hf]
    exact hpacket.type
  have htype' : etherType rx' data = ethTypeIpv4 := by
    rw [etherType, (hsame.mono le_rfl (by omega) : Agree data 14 rx rx').readBytes]
    exact htype
  have hpadded : (ipv4Handle (data + 14) (UInt32.ofNat (f ++ s).length - 14)).run (σ.withRx rx') =
      ((ipv4Handle (data + 14) (UInt32.ofNat f.length - 14)).run (σ.withRx rx)).map
        fun r ↦ (r.1, r.2.withRx rx') := ipv4Handle_padded σ
    (hsame.mono (by omega) (by omega))
    (UInt32.le_iff_toNat_le.mpr (by omega)) (by omega)
    (UInt32.le_iff_toNat_le.mpr (by
      rw [hheader]
      have := hpacket.header
      omega))
    (UInt32.le_iff_toNat_le.mpr (by
      rw [hheader, UInt16.toNat_toUInt32]
      have := hpacket.total
      omega))
  obtain ⟨_, σ₁, hrun, -⟩ := ethernetHandlePacket_spec
    (hs.holds.outside σ.netStats σ.rxQueue rx σ.arpCache) data (UInt32.ofNat f.length)
  have hrun₁ : (ethernetHandlePacket data (UInt32.ofNat f.length)).run (σ.withRx rx) =
      some ((), σ₁) := hrun
  refine ⟨σ₁, σ₁.withRx rx', hrun₁, ?_, rfl⟩
  rw [ethernetHandlePacket_ipv4 (σ.withRx rx) (by omega) htype] at hrun₁
  rw [ethernetHandlePacket_ipv4 (σ.withRx rx') (by omega) htype', hpadded, hrun₁]
  rfl

/-- The frame with which the peer of the sample node opens its connection. -/
def synFrame : List UInt8 :=
  (EthHeader.mk gatewayMac gatewayMac (htons ethTypeIpv4)).bytes ++
    ipv4Packet 0x0A000202 0x0A00020F ipProtoTcp (tcpSegment (.samplePeer 100 0) tcpFlagSyn [])

/-- Six bytes of padding behind it make no difference. -/
theorem trailing_bytes_ignored_syn : ∃ σ σ₁ σ₂, Setup.sample.Reaches σ ∧
    (ethernetHandlePacket 0 54).run (σ.withRx (writeBytes σ.rxBuffers 0 synFrame)) =
      some ((), σ₁) ∧
    (ethernetHandlePacket 0 60).run
      (σ.withRx (writeBytes σ.rxBuffers 0 (synFrame ++ [1, 2, 3, 4, 5, 6]))) = some ((), σ₂) ∧
    σ₂ = σ₁.withRx σ₂.rxBuffers := by
  obtain ⟨σ, -, hreaches, -⟩ := Setup.exec_any .sample [] (fun _ : Node ↦ true) (by decide +kernel)
  have hlong : synFrame.length = 54 := by decide +kernel
  have hpacket : HoldsPacket synFrame := by
    constructor
    · decide +kernel
    · rw [hlong]
      decide
    · decide +kernel
    · decide +kernel
  obtain ⟨σ₁, σ₂, hrun₁, hrun₂, hsame⟩ := trailing_bytes_ignored .sample σ hreaches _ _ 0 synFrame
    [1, 2, 3, 4, 5, 6] (by rw [List.length_append, hlong]; decide)
    (read_write_same σ.rxBuffers 0 synFrame)
    (read_write_same σ.rxBuffers 0 (synFrame ++ [1, 2, 3, 4, 5, 6])) hpacket
  rw [hlong] at hrun₁
  rw [List.length_append, hlong] at hrun₂
  exact ⟨σ, σ₁, σ₂, hreaches, hrun₁, hrun₂, hsame⟩

end Aether.Ethernet
