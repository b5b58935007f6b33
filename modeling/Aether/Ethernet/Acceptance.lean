import Aether.Ethernet.NodeRuns

/-!
# What is accepted

All the checks that the receive handlers make before they act, as one function of the received
bytes: `accept` says what a frame asks of the node, if anything. A frame that is not accepted
changes nothing but health counters, and an accepted one does what its request says.
-/

namespace Aether.Ethernet

open ByteMemory Kernel Drivers Common Program

/-! ## Requests -/

/-- What a received frame can ask of the node. -/
inductive Request where
  /-- Learn the sender of an ARP packet and answer it. -/
  | arp (packet : ArpPacket)
  /-- Process a segment whose header and checksum are in order. -/
  | segment (srcIp dstIp : UInt32) (seg : Segment)
  deriving DecidableEq

/-- The checks of `tcp_input_process`. -/
def acceptSegment (srcIp dstIp : UInt32) (bytes : List UInt8) : Option Segment :=
  match Segment.parse bytes with
  | none => none
  | some seg => if tcpValidateChecksum srcIp dstIp bytes then some seg else none

/-- The checks of `ipv4_handle` and the handler behind it. -/
def acceptIpv4 (aetherIp : UInt32) (rx : Memory) (data : Nat) (len : UInt32) : Option Request :=
  match ipv4Verdict aetherIp rx data len with
  | .error _ => none
  | .ok packet =>
      if packet.protocol = ipProtoTcp then
        (acceptSegment packet.srcIp packet.dstIp
          (readBytes rx packet.payload packet.payloadLen.toUInt16.toNat)).map
            (.segment packet.srcIp packet.dstIp)
      else none

/-- The checks of `arp_handle`. -/
def acceptArp (rx : Memory) (data : Nat) (len : UInt32) : Option Request :=
  if len < 28 then none
  else
    let arp := ArpPacket.ofBytes (readBytes rx data 28)
    if htons arp.htype ≠ 0x0001 then none
    else if htons arp.ptype ≠ 0x0800 then none
    else some (.arp arp)

/-- The EtherType of the frame at `data`. -/
def etherType (rx : Memory) (data : Nat) : UInt16 :=
  htons (EthHeader.ofBytes (readBytes rx data 14)).ethertype

/-- What the `len` bytes at `data` ask of a node with address `aetherIp`. -/
def accept (aetherIp : UInt32) (rx : Memory) (data : Nat) (len : UInt32) : Option Request :=
  if len < 14 then none
  else if etherType rx data = ethTypeArp then acceptArp rx (data + 14) (len - 14)
  else if etherType rx data = ethTypeIpv4 then acceptIpv4 aetherIp rx (data + 14) (len - 14)
  else none

/-- What `arp_handle` does with a packet that passes its checks. -/
def arpArrives (arp : ArpPacket) : Action Unit := do
  modify fun σ ↦
    { σ with arpCache := arpCacheInsert (htonl arp.senderIp) arp.senderMac σ.arpCache }
  if htons arp.opcode ≠ 1 then pure ()
  else
    let σ ← get
    if htonl arp.targetIp ≠ σ.aetherIp then pure ()
    else
      let reply := arpReply σ.aetherMac σ.aetherIp arp
      ethernetSend arp.senderMac ethTypeArp (.stack reply.bytes) 28

/-- What the handlers do for a request. -/
def Request.serve : Request → Action Unit
  | .arp packet => arpArrives packet
  | .segment srcIp dstIp seg => segmentArrives seg srcIp dstIp

/-! ## The handlers serve what is accepted -/

/-- A frame that is not accepted moves at most the health counters. -/
def NothingDone (σ : Node) (x : Action Unit) : Prop :=
  ∃ stats, (stats = σ.netStats ∨ stats = healthReportChecksumError σ.netStats) ∧
    x.run σ = some ((), { σ with netStats := stats })

/-- The action serves the request, and without one does nothing. -/
def Serves (σ : Node) (x : Action Unit) : Option Request → Prop
  | none => NothingDone σ x
  | some request => x.run σ = request.serve.run σ

section Handlers

variable (σ : Node)

/-- Only what the action does matters. -/
theorem Serves.congr {σ : Node} {x y : Action Unit} {request : Option Request}
    (hy : Serves σ y request) (h : x.run σ = y.run σ) : Serves σ x request := by
  unfold Serves NothingDone at hy ⊢
  rwa [h]

theorem serves_pure : Serves σ (pure ()) none := ⟨σ.netStats, .inl rfl, rfl⟩

/-- `tcp_input_process` does what the segment asks for if it is accepted, and nothing otherwise. -/
theorem tcpInputProcess_run (segment : Nat) (len : UInt16) (srcIp dstIp : UInt32) :
    (tcpInputProcess segment len srcIp dstIp).run σ =
      match acceptSegment srcIp dstIp (readBytes σ.rxBuffers segment len.toNat) with
      | none => some ((), σ)
      | some seg => (segmentArrives seg srcIp dstIp).run σ := by
  have hread : (readRx segment len.toNat).run σ =
      some (readBytes σ.rxBuffers segment len.toNat, σ) := rfl
  rw [tcpInputProcess, run_bind_of_run hread, acceptSegment]
  cases Segment.parse (readBytes σ.rxBuffers segment len.toNat) with
  | none => rfl
  | some seg =>
      dsimp only
      split <;> rfl

theorem tcpInputProcess_serves (segment : Nat) (len : UInt16) (srcIp dstIp : UInt32) :
    Serves σ (tcpInputProcess segment len srcIp dstIp)
      ((acceptSegment srcIp dstIp (readBytes σ.rxBuffers segment len.toNat)).map
        (.segment srcIp dstIp)) := by
  have hrun := tcpInputProcess_run σ segment len srcIp dstIp
  cases haccept : acceptSegment srcIp dstIp (readBytes σ.rxBuffers segment len.toNat) with
  | none =>
      rw [haccept] at hrun
      exact ⟨σ.netStats, .inl rfl, hrun⟩
  | some seg =>
      rw [haccept] at hrun
      exact hrun

theorem ipv4Handle_serves (data : Nat) (len : UInt32) :
    Serves σ (ipv4Handle data len) (acceptIpv4 σ.aetherIp σ.rxBuffers data len) := by
  unfold ipv4Handle acceptIpv4
  refine Serves.congr ?_ (run_bind_of_run (ipv4Decode_run σ data len))
  cases ipv4Verdict σ.aetherIp σ.rxBuffers data len with
  | error e =>
      cases e with
      | badChecksum => exact ⟨_, .inr rfl, rfl⟩
      | tooShort | badVersion | truncatedHeader | badLength | notForUs => exact serves_pure σ
  | ok packet =>
      dsimp only
      split
      · exact tcpInputProcess_serves σ _ _ _ _
      · exact serves_pure σ

theorem arpHandle_serves (data : Nat) (len : UInt32) :
    Serves σ (arpHandle data len) (acceptArp σ.rxBuffers data len) := by
  unfold acceptArp arpHandle
  split
  · exact serves_pure σ
  · have hrun : (do
        let arp := ArpPacket.ofBytes (← readRx data 28)
        if htons arp.htype ≠ 0x0001 then pure ()
        else if htons arp.ptype ≠ 0x0800 then pure ()
        else arpArrives arp : Action Unit).run σ =
      (let arp := ArpPacket.ofBytes (readBytes σ.rxBuffers data 28)
        if htons arp.htype ≠ 0x0001 then pure ()
        else if htons arp.ptype ≠ 0x0800 then pure ()
        else arpArrives arp : Action Unit).run σ := rfl
    refine Serves.congr ?_ hrun
    dsimp only
    split
    · exact serves_pure σ
    · split
      · exact serves_pure σ
      · show StateT.run _ σ = _
        rfl

/-- `ethernet_handle_packet` serves the request of the frame, and without one changes at most the
health counters. -/
theorem ethernetHandlePacket_serves (data : Nat) (len : UInt32) :
    Serves σ (ethernetHandlePacket data len) (accept σ.aetherIp σ.rxBuffers data len) := by
  unfold accept ethernetHandlePacket
  split
  · exact serves_pure σ
  · have hrun : (do
        let eth := EthHeader.ofBytes (← readRx data 14)
        let type := htons eth.ethertype
        if type = ethTypeArp then arpHandle (data + 14) (len - 14)
        else if type = ethTypeIpv4 then ipv4Handle (data + 14) (len - 14)
        else pure () : Action Unit).run σ =
      (if etherType σ.rxBuffers data = ethTypeArp then arpHandle (data + 14) (len - 14)
        else if etherType σ.rxBuffers data = ethTypeIpv4 then ipv4Handle (data + 14) (len - 14)
        else pure () : Action Unit).run σ := rfl
    refine Serves.congr ?_ hrun
    split
    · exact arpHandle_serves σ _ _
    · split
      · exact ipv4Handle_serves σ _ _
      · exact serves_pure σ

end Handlers

/-! ## Steps by what they serve -/

/-- What the completed receive buffer that `virtio_net_poll` pops next asks for. -/
def Node.polled (σ : Node) : Option Request :=
  (virtqueuePopUsed σ.rxQueue σ.netStats).1.bind fun receipt ↦
    if receipt.2 > sizeofVirtioNetHdr then
      accept σ.aetherIp σ.rxBuffers (receipt.1.toNat * rxBufSize + 12)
        (receipt.2 - sizeofVirtioNetHdr)
    else none

/-- A step of a node together with what it serves. -/
inductive Node.StepOn : Option Request → Node → Node → Prop where
  | receive {σ : Node} (rxQueue : Virtqueue) (rx : Memory) :
      StepOn none σ { σ with rxQueue := rxQueue, rxBuffers := rx }
  | poll {σ σ' : Node} : virtioNetPoll.run σ = some ((), σ') → StepOn σ.polled σ σ'
  | frame {σ σ' : Node} {data : Nat} {len : UInt32} :
      (ethernetHandlePacket data len).run σ = some ((), σ') →
      StepOn (accept σ.aetherIp σ.rxBuffers data len) σ σ'
  | segment {σ σ' : Node} {segment : Nat} {len : UInt16} {srcIp : UInt32} :
      (tcpInputProcess segment len srcIp σ.aetherIp).run σ = some ((), σ') →
      StepOn ((acceptSegment srcIp σ.aetherIp (readBytes σ.rxBuffers segment len.toNat)).map
        (.segment srcIp σ.aetherIp)) σ σ'
  | complete {σ : Node} {id : UInt16} (len : UInt32) : id ∈ σ.txQueue.published →
      StepOn none σ { σ with txQueue := deviceComplete σ.txQueue id len }
  | reap {σ σ' : Node} : netTxReaper.run σ = some ((), σ') → StepOn none σ σ'

/-- Every step serves something, or nothing. -/
theorem Node.step_iff {σ σ' : Node} : Node.Step σ σ' ↔ ∃ request, Node.StepOn request σ σ' := by
  constructor
  · intro h
    cases h with
    | receive rxQueue rx => exact ⟨none, .receive rxQueue rx⟩
    | poll hrun => exact ⟨_, .poll hrun⟩
    | frame hrun => exact ⟨_, .frame hrun⟩
    | segment hrun => exact ⟨_, .segment hrun⟩
    | complete len hid => exact ⟨none, .complete len hid⟩
    | reap hrun => exact ⟨none, .reap hrun⟩
  · rintro ⟨request, h⟩
    cases h with
    | receive rxQueue rx => exact .receive rxQueue rx
    | poll hrun => exact .poll hrun
    | frame hrun => exact .frame hrun
    | segment hrun => exact .segment hrun
    | complete len hid => exact .complete len hid
    | reap hrun => exact .reap hrun

/-- On the way from `σ` to `σ'` nothing moved but the receive queue, the counters and the record of
received frames. -/
def Node.Received (σ σ' : Node) : Prop :=
  ∃ rxQueue rx stats new, σ' =
      { σ with rxQueue := rxQueue, rxBuffers := rx, netStats := stats, log := new ++ σ.log } ∧
    ∀ e ∈ new, ∃ frame, e = .received frame

/-- The step serves its request between two moves of the receiving side, or makes one such move. -/
inductive Node.Serving : Option Request → Node → Node → Prop where
  | nothing {σ σ' : Node} : σ.Received σ' → Serving none σ σ'
  | request {request : Request} {σ σ₁ σ₂ σ' : Node} :
      σ.Received σ₁ → request.serve.run σ₁ = some ((), σ₂) → σ₂.Received σ' →
      Serving (some request) σ σ'

section Serving

variable {σ σ' : Node} {request : Option Request}

theorem Node.Received.refl (σ : Node) : σ.Received σ := ⟨_, _, _, [], rfl, by simp⟩

theorem Node.Received.trans {σ'' : Node} (h : σ.Received σ') (h' : σ'.Received σ'') :
    σ.Received σ'' := by
  obtain ⟨_, _, _, new, rfl, hnew⟩ := h
  obtain ⟨rxQueue, rx, stats, new', rfl, hnew'⟩ := h'
  refine ⟨rxQueue, rx, stats, new' ++ new, ?_, List.forall_mem_append.mpr ⟨hnew', hnew⟩⟩
  rw [List.append_assoc]

/-- An action that serves a request, run right away. -/
theorem Serves.serving {x : Action Unit} (hserves : Serves σ x request)
    (hrun : x.run σ = some ((), σ')) : Node.Serving request σ σ' := by
  cases request with
  | none =>
      obtain ⟨stats, -, hquiet⟩ := hserves
      cases hquiet.symm.trans hrun
      exact .nothing ⟨_, _, _, [], rfl, by simp⟩
  | some request =>
      have hserved : x.run σ = request.serve.run σ := hserves
      rw [hserved] at hrun
      exact .request (.refl σ) hrun (.refl σ')

/-- More moves of the receiving side do not matter afterwards. -/
theorem Node.Serving.after {σ'' : Node} (h : Node.Serving request σ σ') (h' : σ'.Received σ'') :
    Node.Serving request σ σ'' := by
  cases h with
  | nothing hreceived => exact .nothing (hreceived.trans h')
  | request hbefore hrun hreceived => exact .request hbefore hrun (hreceived.trans h')

theorem Node.Serving.before {σ₀ : Node} (h : Node.Serving request σ σ') (h' : σ₀.Received σ) :
    Node.Serving request σ₀ σ' := by
  cases h with
  | nothing hreceived => exact .nothing (h'.trans hreceived)
  | request hbefore hrun hreceived => exact .request (h'.trans hbefore) hrun hreceived

/-- The RX queue takes its buffer back. -/
theorem refill_received {fullBuffer : Nat} (hrun : (do
      let newId ← addRxDescriptor fullBuffer
      pushRxAvailable newId : Action Unit).run σ = some ((), σ')) : σ.Received σ' := by
  cases hrun
  exact ⟨_, _, _, [], rfl, by simp⟩

/-- A poll serves what the popped buffer asks for. -/
theorem virtioNetPoll_serving (hrun : virtioNetPoll.run σ = some ((), σ')) :
    Node.Serving σ.polled σ σ' := by
  unfold virtioNetPoll at hrun
  rw [run_get_bind] at hrun
  unfold Node.polled
  cases hreceipt : (virtqueuePopUsed σ.rxQueue σ.netStats).1 with
  | none =>
      simp only [hreceipt] at hrun
      cases hrun
      exact .nothing ⟨_, _, _, [], rfl, by simp⟩
  | some receipt =>
      obtain ⟨id, len⟩ := receipt
      simp only [hreceipt] at hrun
      rw [Option.bind_some]
      obtain ⟨_, σ₀, hset, hrun⟩ := run_bind_eq_some.mp hrun
      cases hset
      split at hrun
      · cases hrun
      -- a buffer with no more than the device header holds no frame
      · by_cases hlen : len > sizeofVirtioNetHdr
        · have hne : len - sizeofVirtioNetHdr ≠ 0 := by
            intro hzero
            rw [gt_iff_lt, UInt32.lt_iff_toNat_lt] at hlen
            have := congrArg UInt32.toNat hzero
            rw [UInt32.toNat_sub_of_le _ _ (UInt32.le_iff_toNat_le.mpr hlen.le)] at this
            simp only [UInt32.reduceToNat] at this
            omega
          rw [if_pos hlen, if_pos hne, run_modify_bind] at hrun
          obtain ⟨_, _, hread, hrun⟩ := run_bind_eq_some.mp hrun
          cases hread
          obtain ⟨_, _, hnote, hrun⟩ := run_bind_eq_some.mp hrun
          cases hnote
          obtain ⟨_, σ₁, hhandle, hrun⟩ := run_bind_eq_some.mp hrun
          rw [if_pos hlen]
          have hserving := (ethernetHandlePacket_serves _ _ _).serving hhandle
          exact (hserving.after (refill_received hrun)).before ⟨_, _, _, [_], rfl, by simp⟩
        · rw [if_neg hlen, if_neg (not_not.mpr rfl)] at hrun
          rw [if_neg hlen]
          have hpopped : σ.Received { σ with
              rxQueue := (virtqueuePopUsed σ.rxQueue σ.netStats).2.1
              netStats := (virtqueuePopUsed σ.rxQueue σ.netStats).2.2 } :=
            ⟨_, _, _, [], rfl, by simp⟩
          exact .nothing (hpopped.trans (refill_received hrun))

/-- A step serves its request, or the device and the reaper move the transmit queue on. -/
theorem Node.StepOn.serving (h : Node.StepOn request σ σ') : Node.Serving request σ σ' ∨
    (∃ id len, id ∈ σ.txQueue.published ∧
      σ' = { σ with txQueue := deviceComplete σ.txQueue id len }) ∨
    netTxReaper.run σ = some ((), σ') := by
  cases h with
  | receive rxQueue rx => exact .inl (.nothing ⟨rxQueue, rx, _, [], rfl, by simp⟩)
  | poll hrun => exact .inl (virtioNetPoll_serving hrun)
  | frame hrun => exact .inl ((ethernetHandlePacket_serves σ _ _).serving hrun)
  | segment hrun => exact .inl ((tcpInputProcess_serves σ _ _ _ _).serving hrun)
  | complete len hid => exact .inr (.inl ⟨_, len, hid, rfl⟩)
  | reap hrun => exact .inr (.inr hrun)

end Serving

/-! ## Rejected input -/

/-- The ARP packet in the frame at `data`. -/
def arpAt (rx : Memory) (data : Nat) : ArpPacket := .ofBytes (readBytes rx (data + 14) 28)

/-- The IPv4 header in the frame at `data`. -/
def ipv4At (rx : Memory) (data : Nat) : Ipv4Header := .ofBytes (readBytes rx (data + 14) 20)

/-- The length that an IPv4 header announces for its packet. -/
def Ipv4Header.packetLen (ip : Ipv4Header) : Nat := (ntohs ip.totalLen).toNat

/-- The TCP segment in the frame at `data`, as its IPv4 header delimits it. -/
def segmentAt (rx : Memory) (data : Nat) : List UInt8 :=
  readBytes rx (data + 14 + (ipv4At rx data).headerLen.toNat)
    ((ipv4At rx data).packetLen - (ipv4At rx data).headerLen.toNat)

/-- The `len` bytes at `data` fail a check that a handler makes before it acts. -/
inductive Rejected (aetherIp : UInt32) (rx : Memory) (data : Nat) (len : UInt32) : Prop where
  | shortFrame : len.toNat < 14 → Rejected aetherIp rx data len
  | unhandledType : etherType rx data ≠ ethTypeArp → etherType rx data ≠ ethTypeIpv4 →
      Rejected aetherIp rx data len
  | shortArp : etherType rx data = ethTypeArp → len.toNat < 14 + 28 → Rejected aetherIp rx data len
  | arpHardware : etherType rx data = ethTypeArp → htons (arpAt rx data).htype ≠ 0x0001 →
      Rejected aetherIp rx data len
  | arpProtocol : etherType rx data = ethTypeArp → htons (arpAt rx data).ptype ≠ 0x0800 →
      Rejected aetherIp rx data len
  | shortIpv4 : etherType rx data = ethTypeIpv4 → len.toNat < 14 + 20 →
      Rejected aetherIp rx data len
  | version : etherType rx data = ethTypeIpv4 → (ipv4At rx data).versionIhl >>> 4 ≠ 4 →
      Rejected aetherIp rx data len
  | shortHeader : etherType rx data = ethTypeIpv4 → (ipv4At rx data).versionIhl &&& 0x0F < 5 →
      Rejected aetherIp rx data len
  | truncatedHeader : etherType rx data = ethTypeIpv4 →
      len.toNat < 14 + (ipv4At rx data).headerLen.toNat → Rejected aetherIp rx data len
  | headerChecksum : etherType rx data = ethTypeIpv4 →
      ipv4Checksum (zeroChecksum (readBytes rx (data + 14) (ipv4At rx data).headerLen.toNat)) ≠
        (ipv4At rx data).checksum → Rejected aetherIp rx data len
  | shortPacket : etherType rx data = ethTypeIpv4 →
      (ipv4At rx data).packetLen < (ipv4At rx data).headerLen.toNat → Rejected aetherIp rx data len
  | truncatedPacket : etherType rx data = ethTypeIpv4 →
      len.toNat < 14 + (ipv4At rx data).packetLen → Rejected aetherIp rx data len
  | destination : etherType rx data = ethTypeIpv4 → ntohl (ipv4At rx data).destIp ≠ aetherIp →
      Rejected aetherIp rx data len
  | protocol : etherType rx data = ethTypeIpv4 → (ipv4At rx data).protocol ≠ ipProtoTcp →
      Rejected aetherIp rx data len
  | tcpHeader : etherType rx data = ethTypeIpv4 → Segment.parse (segmentAt rx data) = none →
      Rejected aetherIp rx data len
  | tcpChecksum : etherType rx data = ethTypeIpv4 →
      tcpValidateChecksum (ntohl (ipv4At rx data).srcIp) (ntohl (ipv4At rx data).destIp)
        (segmentAt rx data) = false → Rejected aetherIp rx data len

/-- The `len` bytes at `data` are a packet that passes the checks of `ipv4_handle`. -/
structure Ipv4InOrder (aetherIp : UInt32) (rx : Memory) (data : Nat) (len : UInt32)
    (ip : Ipv4Header) : Prop where
  header : ip = .ofBytes (readBytes rx data 20)
  long : 20 ≤ len.toNat
  version : ip.versionIhl >>> 4 = 4
  words : ¬ ip.versionIhl &&& 0x0F < 5
  headerFits : ip.headerLen.toNat ≤ len.toNat
  checksum : ipv4Checksum (zeroChecksum (readBytes rx data ip.headerLen.toNat)) = ip.checksum
  packetLong : ip.headerLen.toNat ≤ ip.packetLen
  packetFits : ip.packetLen ≤ len.toNat
  destination : ntohl ip.destIp = aetherIp

/-- The `len` bytes at `data` pass every check on the way to the request. -/
inductive Accepted (aetherIp : UInt32) (rx : Memory) (data : Nat) (len : UInt32) :
    Request → Prop where
  | arp : etherType rx data = ethTypeArp → 14 + 28 ≤ len.toNat →
      htons (arpAt rx data).htype = 0x0001 → htons (arpAt rx data).ptype = 0x0800 →
      Accepted aetherIp rx data len (.arp (arpAt rx data))
  | segment {seg : Segment} : etherType rx data = ethTypeIpv4 → 14 ≤ len.toNat →
      Ipv4InOrder aetherIp rx (data + 14) (len - 14) (ipv4At rx data) →
      (ipv4At rx data).protocol = ipProtoTcp → Segment.parse (segmentAt rx data) = some seg →
      tcpValidateChecksum (ntohl (ipv4At rx data).srcIp) (ntohl (ipv4At rx data).destIp)
        (segmentAt rx data) = true →
      Accepted aetherIp rx data len
        (.segment (ntohl (ipv4At rx data).srcIp) (ntohl (ipv4At rx data).destIp) seg)

section Rejection

variable {aetherIp : UInt32} {rx : Memory} {data : Nat} {len : UInt32}

/-- A verdict is favourable when its check passes and what follows is. -/
theorem check_eq_ok {ε α : Type} {c : Prop} [Decidable c] {e : ε} {x : Except ε α} {a : α} :
    (if c then .error e else x) = .ok a ↔ ¬ c ∧ x = .ok a := by
  split <;> simp_all

/-- An accepted packet is in order, and its payload is what its header delimits. -/
theorem ipv4Verdict_ok {packet : Ipv4Packet} (h : ipv4Verdict aetherIp rx data len = .ok packet) :
    ∃ ip, Ipv4InOrder aetherIp rx data len ip ∧ packet.srcIp = ntohl ip.srcIp ∧
      packet.dstIp = ntohl ip.destIp ∧ packet.protocol = ip.protocol ∧
      packet.payload = data + ip.headerLen.toNat ∧
      packet.payloadLen.toUInt16.toNat = ip.packetLen - ip.headerLen.toNat := by
  simp only [ipv4Verdict, check_eq_ok, Except.ok.injEq, ne_eq, not_or, not_not,
    UInt32.not_lt, UInt32.le_iff_toNat_le, UInt16.toNat_toUInt32] at h
  obtain ⟨hlong, ⟨hversion, hwords⟩, hheader, hchecksum, ⟨hpacket, hfits⟩, hdest, rfl⟩ := h
  refine ⟨_, ⟨rfl, hlong, hversion, hwords, hheader, hchecksum, hpacket, hfits, hdest⟩, rfl, rfl,
    rfl, rfl, ?_⟩
  have htotal := (ntohs (Ipv4Header.ofBytes (readBytes rx data 20)).totalLen).toNat_lt
  rw [UInt32.toNat_toUInt16, UInt32.toNat_sub_of_le _ _ (UInt32.le_iff_toNat_le.mpr ?_)]
  · rw [UInt16.toNat_toUInt32, Ipv4Header.packetLen]
    omega
  · rwa [UInt16.toNat_toUInt32]

/-- What remains of a frame after its Ethernet header. -/
theorem toNat_payloadLen (h : ¬ len < 14) : (len - 14).toNat = len.toNat - 14 := by
  rw [UInt32.lt_iff_toNat_lt] at h
  exact UInt32.toNat_sub_of_le _ _ (UInt32.le_iff_toNat_le.mpr (Nat.le_of_not_lt h))

theorem acceptSegment_eq_some {srcIp dstIp : UInt32} {bytes : List UInt8} {seg : Segment} :
    acceptSegment srcIp dstIp bytes = some seg ↔
      Segment.parse bytes = some seg ∧ tcpValidateChecksum srcIp dstIp bytes = true := by
  unfold acceptSegment
  cases Segment.parse bytes with
  | none => simp
  | some seg' => by_cases h : tcpValidateChecksum srcIp dstIp bytes = true <;> simp [h]

/-- A frame that asks for something passed all checks. -/
theorem accept_eq_some {request : Request} (h : accept aetherIp rx data len = some request) :
    Accepted aetherIp rx data len request := by
  unfold accept at h
  split at h
  · cases h
  · rename_i hframe
    have hlen := toNat_payloadLen hframe
    have hlong : 14 ≤ len.toNat := by
      rw [UInt32.not_lt, UInt32.le_iff_toNat_le] at hframe
      exact hframe
    split at h
    · rename_i htype
      unfold acceptArp at h
      split at h
      · cases h
      · rename_i harp
        rw [UInt32.not_lt, UInt32.le_iff_toNat_le, hlen] at harp
        have hlong' : 28 ≤ len.toNat - 14 := harp
        dsimp only at h
        split at h
        · cases h
        · rename_i hhardware
          split at h
          · cases h
          · rename_i hprotocol
            cases h
            exact .arp htype (by omega) (not_not.mp hhardware) (not_not.mp hprotocol)
    · split at h
      · rename_i htype
        unfold acceptIpv4 at h
        split at h
        · cases h
        · rename_i packet hverdict
          obtain ⟨ip, horder, hsrc, hdst, hproto, hpayload, hpayloadLen⟩ := ipv4Verdict_ok hverdict
          obtain rfl : ip = ipv4At rx data := horder.header
          split at h
          · rename_i htcp
            obtain ⟨seg, hseg, rfl⟩ := Option.map_eq_some_iff.mp h
            rw [hsrc, hdst, hpayload, hpayloadLen] at hseg
            obtain ⟨hparse, hvalid⟩ := acceptSegment_eq_some.mp hseg
            rw [hsrc, hdst]
            exact .segment htype hlong horder (hproto ▸ htcp) hparse hvalid
          · cases h
      · cases h

/-- A rejected frame asks for nothing. -/
theorem Rejected.accept_eq_none (h : Rejected aetherIp rx data len) :
    accept aetherIp rx data len = none := by
  by_contra hne
  obtain ⟨request, hsome⟩ := Option.ne_none_iff_exists'.mp hne
  cases accept_eq_some hsome with
  | arp htype hlong hhardware hprotocol =>
      cases h with
      | shortFrame hshort => omega
      | unhandledType harp => exact harp htype
      | shortArp _ hshort => omega
      | arpHardware _ hwrong => exact hwrong hhardware
      | arpProtocol _ hwrong => exact hwrong hprotocol
      | _ hipv4 => exact absurd (htype.symm.trans hipv4) (by decide)
  | segment htype hlong horder hprotocol hparse hvalid =>
      have hnotArp : etherType rx data ≠ ethTypeArp := by
        rw [htype]
        decide
      have hframe : ¬ len < 14 := by
        rw [UInt32.lt_iff_toNat_lt]
        exact Nat.not_lt.mpr hlong
      have hlen := toNat_payloadLen hframe
      have hfits := horder.packetFits
      have hheader := horder.headerFits
      have hwhole := horder.long
      rw [hlen] at hfits hheader hwhole
      cases h with
      | shortFrame hshort => omega
      | unhandledType _ hipv4 => exact hipv4 htype
      | shortArp harp | arpHardware harp | arpProtocol harp => exact hnotArp harp
      | shortIpv4 _ hshort => omega
      | version _ hwrong => exact hwrong horder.version
      | shortHeader _ hwrong => exact horder.words hwrong
      | truncatedHeader _ hshort => omega
      | headerChecksum _ hwrong => exact hwrong horder.checksum
      | shortPacket _ hshort => exact absurd horder.packetLong (Nat.not_le.mpr hshort)
      | truncatedPacket _ hshort => omega
      | destination _ hwrong => exact hwrong horder.destination
      | protocol _ hwrong => exact hwrong hprotocol
      | tcpHeader _ hnone => simp [hparse] at hnone
      | tcpChecksum _ hinvalid => simp [hvalid] at hinvalid

end Rejection

/-- Input that fails a check which is made before anything is done changes nothing but the health
counters: not the TCBs, not the heap, not the queues, and not the buffer itself. -/
theorem rejected_input_ignored (σ : Node) (data : Nat) (len : UInt32)
    (h : Rejected σ.aetherIp σ.rxBuffers data len) :
    ∃ stats, (stats = σ.netStats ∨ stats = healthReportChecksumError σ.netStats) ∧
      (ethernetHandlePacket data len).run σ = some ((), { σ with netStats := stats }) := by
  have hserves := ethernetHandlePacket_serves σ data len
  rw [h.accept_eq_none] at hserves
  exact hserves

/-- A frame at the start of the receive buffers of a node that was just switched on. -/
def Node.bootWith (frame : List UInt8) : Node :=
  .boot (fun _ ↦ 0) (writeBytes (fun _ ↦ 0) 0 frame) gatewayMac 0x0A00020F 7000

/-- An IPv4 header without a checksum is ignored. -/
theorem rejected_input_ignored_sample :
    let σ := Node.bootWith (List.replicate 12 0 ++ [0x08, 0x00, 0x45] ++ List.replicate 19 0)
    ∃ stats, (stats = σ.netStats ∨ stats = healthReportChecksumError σ.netStats) ∧
      (ethernetHandlePacket 0 34).run σ = some ((), { σ with netStats := stats }) :=
  rejected_input_ignored _ 0 34 (.headerChecksum (by decide +kernel) (by decide +kernel))

end Aether.Ethernet
