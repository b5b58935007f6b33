import Aether.Ethernet.Receive
import Aether.Ethernet.TcpSpec

/-!
# Reception

What `ipv4_handle` checks, as a function of the received bytes, and what each receive handler does
to the server. A received frame makes at most one segment arrive or one ARP reply leave.
-/

namespace Aether.Ethernet

open ByteMemory Kernel Drivers Common Program

/-! ## The checks of `ipv4_handle` -/

/-- A header with its checksum field zeroed. -/
def zeroChecksum (header : List UInt8) : List UInt8 :=
  header.take 10 ++ (leBytes 2 0 ++ header.drop 12)

/-- The bytes of the header length that a header announces. -/
def Ipv4Header.headerLen (ip : Ipv4Header) : UInt32 := (ip.versionIhl &&& 0x0F).toUInt32 * 4

/-- The outcome of the checks of `ipv4_handle` on the `len` bytes at `data` of `rx`. -/
def ipv4Verdict (aetherIp : UInt32) (rx : Memory) (data : Nat) (len : UInt32) :
    Except Ipv4Drop Ipv4Packet :=
  if len < 20 then .error .tooShort
  else
    let ip := Ipv4Header.ofBytes (readBytes rx data 20)
    if ip.versionIhl >>> 4 ≠ 4 ∨ ip.versionIhl &&& 0x0F < 5 then .error .badVersion
    else if len < ip.headerLen then .error .truncatedHeader
    else if ipv4Checksum (zeroChecksum (readBytes rx data ip.headerLen.toNat)) ≠ ip.checksum then
      .error .badChecksum
    else if (ntohs ip.totalLen).toUInt32 < ip.headerLen ∨ len < (ntohs ip.totalLen).toUInt32 then
      .error .badLength
    else if ntohl ip.destIp ≠ aetherIp then .error .notForUs
    else .ok ⟨ntohl ip.srcIp, ntohl ip.destIp, ip.protocol, data + ip.headerLen.toNat,
      (ntohs ip.totalLen).toUInt32 - ip.headerLen⟩

/-- A header of at least five words has at least twenty bytes. -/
theorem Ipv4Header.headerLen_ge {ip : Ipv4Header} (h : ¬ ip.versionIhl &&& 0x0F < 5) :
    20 ≤ ip.headerLen.toNat := by
  rw [UInt8.lt_iff_toNat_lt] at h
  have hlt : (ip.versionIhl &&& 0x0F).toNat < 2 ^ 8 := UInt8.toNat_lt _
  rw [headerLen, UInt32.toNat_mul, UInt8.toNat_toUInt32]
  simp only [UInt32.reduceToNat, UInt8.reduceToNat] at *
  omega

theorem Ipv4Header.headerLen_le (ip : Ipv4Header) : ip.headerLen.toNat ≤ 60 := by
  have hlow : (ip.versionIhl &&& 0x0F).toNat ≤ 15 := by
    rw [UInt8.toNat_and]
    exact Nat.and_le_right
  rw [headerLen, UInt32.toNat_mul, UInt8.toNat_toUInt32]
  simp only [UInt32.reduceToNat]
  omega

/-- Zeroing the checksum field in place. -/
theorem readBytes_zeroed (rx : Memory) (data : Nat) {n : Nat} (hn : 12 ≤ n) :
    readBytes (writeBytes rx (data + 10) (leBytes 2 0)) data n =
      zeroChecksum (readBytes rx data n) := by
  obtain ⟨k, rfl⟩ : ∃ k, n = 10 + (2 + k) := ⟨n - 12, by omega⟩
  have hfield := read_write_same rx (data + 10) (leBytes 2 0)
  rw [length_leBytes] at hfield
  rw [zeroChecksum, take_readBytes rx data (by omega), drop_readBytes rx data (by omega),
    readBytes_add, readBytes_add, hfield, read_write_outside _ _ _ _ _ (.inl le_rfl),
    read_write_outside _ _ _ _ _ (.inr (by simp))]
  congr 3
  omega

/-- Storing the checksum back restores the buffer. -/
theorem restore_checksum (rx : Memory) (data : Nat) :
    writeBytes (writeBytes rx (data + 10) (leBytes 2 0)) (data + 10)
      (leBytes 2 (Ipv4Header.ofBytes (readBytes rx data 20)).checksum.toNat) = rx := by
  have hfield : leBytes 2 (Ipv4Header.ofBytes (readBytes rx data 20)).checksum.toNat =
      readBytes rx (data + 10) 2 := by
    rw [Ipv4Header.ofBytes, leBytes_u16 (by simp), drop_readBytes rx data (by omega),
      take_readBytes rx (data + 10) (by omega)]
  rw [writeBytes_over _ _ (by simp), hfield, write_read_same]

/-- `ipv4_handle` checks its packet and leaves the buffer as it was. -/
theorem ipv4Decode_run (σ : Node) (data : Nat) (len : UInt32) :
    (ipv4Decode data len).run σ =
      some (ipv4Verdict σ.aetherIp σ.rxBuffers data len, σ) := by
  suffices h : wp (ipv4Decode data len) (fun verdict σ' ↦
      verdict = ipv4Verdict σ.aetherIp σ.rxBuffers data len ∧ σ' = σ) σ by
    obtain ⟨_, _, hrun, rfl, rfl⟩ := h
    exact hrun
  unfold ipv4Decode ipv4Verdict
  refine wp_ite_eq (fun _ ↦ by simp) fun _ ↦ ?_
  simp only [wp_bind, wp_readRx]
  refine wp_ite_eq (fun _ ↦ by simp) fun hversion ↦ ?_
  have hge := Ipv4Header.headerLen_ge fun h ↦ hversion (.inr h)
  have hzeroed := readBytes_zeroed σ.rxBuffers data ((show 12 ≤ 20 by omega).trans hge)
  simp only [Ipv4Header.headerLen] at hzeroed ⊢
  refine wp_ite_eq (fun _ ↦ by simp) fun _ ↦ ?_
  simp only [wp_bind, wp_writeRx, wp_readRx, hzeroed, restore_checksum]
  refine wp_ite_eq (fun _ ↦ by simp) fun _ ↦ ?_
  refine wp_ite_eq (fun _ ↦ by simp) fun _ ↦ ?_
  simp only [wp_bind, wp_get]
  exact wp_ite_eq (fun _ ↦ by simp) fun _ ↦ by simp

/-- An accepted packet is addressed to this node. -/
theorem ipv4Verdict_dstIp {aetherIp : UInt32} {rx : Memory} {data : Nat} {len : UInt32}
    {packet : Ipv4Packet} (h : ipv4Verdict aetherIp rx data len = .ok packet) :
    packet.dstIp = aetherIp := by
  simp only [ipv4Verdict] at h
  grind

/-! ## The receive handlers -/

section Handlers

variable {L : Ledger} {σ : Node}

/-- `ethernet_send` is a step of the layers below the server. -/
theorem ethernetSend_refines (h : L.Holds σ []) (destMac : Mac) (ethertype : UInt16)
    (bytes : List UInt8) (hlen : bytes.length + 24 < 2 ^ 32) (ip : UInt32) :
    Refines (ethernetSend destMac ethertype (.stack bytes) (UInt32.ofNat bytes.length))
      (Server.Run ip) L σ := by
  refine wp_mono (ethernetSend_spec h destMac ethertype (.stack bytes) bytes rfl hlen) ?_
  rintro _ σ' ⟨L', e, hL', hsame, htransmits, he⟩
  refine ⟨L', hL', htransmits.addresses, ?_⟩
  rw [htransmits.server hsame]
  exact .single (.record _ (.inl he.isTransport))

/-- `arp_handle` sends at most one reply. -/
theorem arpHandle_spec (h : L.Holds σ []) (data : Nat) (len : UInt32) (ip : UInt32) :
    Refines (arpHandle data len) (Server.Run ip) L σ := by
  unfold Refines arpHandle
  split
  · exact Refines.idle h ip
  · rw [wp_bind, wp_readRx]
    dsimp only
    split
    · exact Refines.idle h ip
    · split
      · exact Refines.idle h ip
      · rw [wp_bind, wp_modify]
        have hcached := h.outside σ.netStats σ.rxQueue σ.rxBuffers (arpCacheInsert
          (htonl (ArpPacket.ofBytes (readBytes σ.rxBuffers data 28)).senderIp)
          (ArpPacket.ofBytes (readBytes σ.rxBuffers data 28)).senderMac σ.arpCache)
        split
        · exact (Refines.idle hcached ip).after ⟨rfl, rfl⟩ rfl
        · rw [wp_bind, wp_get]
          dsimp only
          split
          · exact (Refines.idle hcached ip).after ⟨rfl, rfl⟩ rfl
          · have hsend := fun destMac (reply : ArpPacket) ↦ ethernetSend_refines hcached destMac
              ethTypeArp reply.bytes (by rw [ArpPacket.length_bytes]; omega) ip
            simp only [ArpPacket.length_bytes] at hsend
            exact (hsend _ _).after ⟨rfl, rfl⟩ rfl

/-- `ipv4_handle` lets at most one segment arrive. -/
theorem ipv4Handle_spec (h : L.Holds σ []) (data : Nat) (len : UInt32) :
    Refines (ipv4Handle data len) (Server.Run σ.aetherIp) L σ := by
  rw [Refines, ipv4Handle, wp_bind, wp_of_run (ipv4Decode_run σ data len)]
  cases hverdict : ipv4Verdict σ.aetherIp σ.rxBuffers data len with
  | error e =>
      cases e with
      | badChecksum =>
          have hcounted := h.outside (healthReportChecksumError σ.netStats) σ.rxQueue σ.rxBuffers
            σ.arpCache
          exact (Refines.idle hcounted σ.aetherIp).after ⟨rfl, rfl⟩ rfl
      | tooShort | badVersion | truncatedHeader | badLength | notForUs =>
          exact Refines.idle h σ.aetherIp
  | ok packet =>
      have hdst := ipv4Verdict_dstIp hverdict
      dsimp only
      split
      · rw [← hdst]
        exact tcpInputProcess_spec h _ _ _ _
      · exact Refines.idle h σ.aetherIp

/-- A received frame is a run of the server. -/
theorem ethernetHandlePacket_spec (h : L.Holds σ []) (data : Nat) (len : UInt32) :
    Refines (ethernetHandlePacket data len) (Server.Run σ.aetherIp) L σ := by
  unfold Refines ethernetHandlePacket
  split
  · exact Refines.idle h σ.aetherIp
  · rw [wp_bind, wp_readRx]
    dsimp only
    split
    · exact arpHandle_spec h _ _ σ.aetherIp
    · split
      · exact ipv4Handle_spec h _ _
      · exact Refines.idle h σ.aetherIp

/-- The RX queue takes its buffer back. -/
theorem refill_spec (h : L.Holds σ []) (fullBuffer : Nat) (ip : UInt32) :
    Refines (do
      let newId ← addRxDescriptor fullBuffer
      pushRxAvailable newId) (Server.Run ip) L σ := by
  have hrefilled := fun stats vq ↦ h.outside stats vq σ.rxBuffers σ.arpCache
  exact (Refines.idle (hrefilled _ _) ip).after ⟨rfl, rfl⟩ rfl

/-- `virtio_net_poll` handles one frame, as long as the device completes only buffers that
exist. -/
theorem virtioNetPoll_spec (h : L.Holds σ [])
    (hid : ∀ receipt ∈ (virtqueuePopUsed σ.rxQueue σ.netStats).1,
      receipt.1.toNat < rxQueueSize) :
    Refines virtioNetPoll (Server.Run σ.aetherIp) L σ := by
  have hpopped := fun stats vq ↦ h.outside stats vq σ.rxBuffers σ.arpCache
  unfold Refines virtioNetPoll
  simp only [wp_bind, wp_get, wp_set]
  cases hreceipt : (virtqueuePopUsed σ.rxQueue σ.netStats).1 with
  | none => exact (Refines.idle (hpopped _ _) σ.aetherIp).after ⟨rfl, rfl⟩ rfl
  | some receipt =>
      obtain ⟨id, len⟩ := receipt
      have hbuffer : ¬ rxQueueSize ≤ id.toNat := Nat.not_le.mpr (hid (id, len) hreceipt)
      dsimp only
      rw [if_neg hbuffer]
      generalize (if len > sizeofVirtioNetHdr then len - sizeofVirtioNetHdr else 0) = ethLen
      split
      · rw [wp_bind, wp_modify, wp_bind, wp_readRx]
        refine Refines.after ?_ ⟨rfl, rfl⟩ rfl
        refine (Refines.afterNote ?_).mono fun s' hrun ↦ .head (.record _ (.inr ⟨_, rfl⟩)) hrun
        refine Refines.seq (ethernetHandlePacket_spec ?_ _ _)
          (fun L' σ' hL' _ ↦ refill_spec hL' _ σ.aetherIp) fun _ _ h h' ↦ h.trans h'
        exact (hpopped _ _).record rfl
      · exact (refill_spec (hpopped _ _) _ σ.aetherIp).after ⟨rfl, rfl⟩ rfl

end Handlers

end Aether.Ethernet
