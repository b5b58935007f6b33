import Aether.Ethernet.Acceptance
import Aether.Ethernet.Connections

/-!
# What the handlers read of a frame

The receive handlers once more, for a frame that ends at `fin`: every access to received data goes
through a check that it ends there too, and is undefined behaviour otherwise. The printed bytes are
read as well. `ethernetHandlePacket_run` says when the accesses are all inside, and that the
handlers then do what they do without the checks.
-/

namespace Aether.Ethernet

open ByteMemory Kernel Drivers Common Program Transition

namespace Bounded

/-! ## Accesses -/

/-- Read `n` bytes of the frame. -/
def readRx (fin a n : Nat) : Action (List UInt8) :=
  if a + n ≤ fin then Ethernet.readRx a n else fault

/-- Write into the frame. -/
def writeRx (fin a : Nat) (bs : List UInt8) : Action Unit :=
  if a + bs.length ≤ fin then Ethernet.writeRx a bs else fault

/-! ## The handlers -/

/-- `socket_dispatch`, which prints the first three bytes of the payload at `payload`. -/
def socketDispatch (fin tcb payload : Nat) (bytes : List UInt8) : Action Unit := do
  let _ ← readRx fin payload 1
  let _ ← readRx fin (payload + 1) 1
  let _ ← readRx fin (payload + 2) 1
  Ethernet.socketDispatch tcb bytes

/-- The case `TCP_STATE_ESTABLISHED` of `tcp_input_process`, the payload being at `payload`. -/
def establishedInput (fin tcb payload : Nat) (seg : Segment) : Action Unit := do
  let payloadLen := UInt16.ofNat seg.payload.length
  if payloadLen > 0 ∧ seg.seq = (← readTcb tcb).rcvNxt then
    updateTcb tcb fun t ↦ { t with rcvNxt := t.rcvNxt + payloadLen.toUInt32 }
    socketDispatch fin tcb payload seg.payload
    tcpSendAck tcb
  if seg.flags &&& tcpFlagFin ≠ 0 then
    updateTcb tcb fun t ↦ { t with rcvNxt := seg.seq + 1 }
    tcpSendAck tcb
    updateTcb tcb fun t ↦ { t with state := .closeWait }
    tcpClose tcb

/-- The `switch` of `tcp_input_process`. The other cases read nothing. -/
def stateMachine (fin tcb payload : Nat) (seg : Segment) : Action Unit := do
  match (← readTcb tcb).state with
  | .established => establishedInput fin tcb payload seg
  | _ => Ethernet.stateMachine tcb seg

/-- What `tcp_input_process` does with a segment whose header and checksum are in order. -/
def segmentArrives (fin payload : Nat) (seg : Segment) (srcIp dstIp : UInt32) : Action Unit := do
  let tcb ← tcpFindTcb srcIp seg.srcPort dstIp seg.dstPort
  if tcb = 0 then Ethernet.segmentArrives seg srcIp dstIp
  else
    note (.lookup srcIp dstIp seg (some (tcb, (← readTcb tcb).toConn)))
    stateMachine fin tcb payload seg

/-- `tcp_input_process`. The checksum runs over the whole segment. -/
def tcpInputProcess (fin segment : Nat) (len : UInt16) (srcIp dstIp : UInt32) : Action Unit := do
  if len.toNat < sizeofTcpHdr then pure ()
  else
    let hdr := TcpHdr.ofBytes (← readRx fin segment sizeofTcpHdr)
    let headerLen : UInt8 := (hdr.offsetReserved >>> 4) * 4
    if headerLen < 20 ∨ len.toNat < headerLen.toNat then pure ()
    else
      let bytes ← readRx fin segment len.toNat
      if tcpValidateChecksum srcIp dstIp bytes then
        segmentArrives fin (segment + headerLen.toNat) {
          srcPort := ntohs hdr.srcPort
          dstPort := ntohs hdr.dstPort
          seq := ntohl hdr.seq
          ack := ntohl hdr.ack
          flags := hdr.flags
          payload := bytes.drop headerLen.toNat } srcIp dstIp
      else pure ()

/-- `arp_handle`. -/
def arpHandle (fin data : Nat) (len : UInt32) : Action Unit := do
  if len < 28 then pure ()
  else
    let arp := ArpPacket.ofBytes (← readRx fin data 28)
    if htons arp.htype ≠ 0x0001 then pure ()
    else if htons arp.ptype ≠ 0x0800 then pure ()
    else arpArrives arp

/-- The checks of `ipv4_handle`. The checksum runs over the header, options included. -/
def ipv4Decode (fin data : Nat) (len : UInt32) : Action (Except Ipv4Drop Ipv4Packet) := do
  if len < 20 then pure (.error .tooShort)
  else
    let ip := Ipv4Header.ofBytes (← readRx fin data 20)
    let version := ip.versionIhl >>> 4
    let ihl := ip.versionIhl &&& 0x0F
    if version ≠ 4 ∨ ihl < 5 then pure (.error .badVersion)
    else
      let headerLen := ihl.toUInt32 * 4
      if len < headerLen then pure (.error .truncatedHeader)
      else
        let originalChecksum := ip.checksum
        writeRx fin (data + 10) (leBytes 2 0)
        let computed := ipv4Checksum (← readRx fin data headerLen.toNat)
        writeRx fin (data + 10) (leBytes 2 originalChecksum.toNat)
        if computed ≠ originalChecksum then pure (.error .badChecksum)
        else
          let totalLen := (ntohs ip.totalLen).toUInt32
          if totalLen < headerLen ∨ len < totalLen then pure (.error .badLength)
          else
            let srcIp := ntohl ip.srcIp
            let dstIp := ntohl ip.destIp
            if dstIp ≠ (← get).aetherIp then pure (.error .notForUs)
            else pure (.ok ⟨srcIp, dstIp, ip.protocol, data + headerLen.toNat,
              totalLen - headerLen⟩)

/-- `ipv4_handle`. -/
def ipv4Handle (fin data : Nat) (len : UInt32) : Action Unit := do
  match ← ipv4Decode fin data len with
  | .error .badChecksum =>
      modify fun σ ↦ { σ with netStats := healthReportChecksumError σ.netStats }
  | .error _ => pure ()
  | .ok packet =>
      if packet.protocol = ipProtoTcp then
        tcpInputProcess fin packet.payload packet.payloadLen.toUInt16 packet.srcIp packet.dstIp
      else pure ()

/-- `ipv6_handle`, which prints the source address and the next header of a packet of version 6. -/
def ipv6Handle (fin data : Nat) (len : UInt32) : Action Unit := do
  if len < 40 then pure ()
  else
    let vtf := htonl (u32 (← readRx fin data 4) 0)
    if vtf >>> 28 &&& 0xF ≠ 6 then pure ()
    else
      let _ ← readRx fin (data + 8) 16
      let _ ← readRx fin (data + 6) 1

/-- `ethernet_handle_packet`, for a frame of `len` bytes at `data`. -/
def ethernetHandlePacket (data : Nat) (len : UInt32) : Action Unit := do
  let fin := data + len.toNat
  if len < 14 then pure ()
  else
    let type := htons (u16 (← readRx fin (data + 12) 2) 0)
    if type = ethTypeArp then arpHandle fin (data + 14) (len - 14)
    else if type = ethTypeIpv4 then ipv4Handle fin (data + 14) (len - 14)
    else if type = 0x86DD then ipv6Handle fin (data + 14) (len - 14)
    else pure ()

/-! ## Accesses inside the frame -/

section Accesses

variable {fin : Nat} {σ : Node}

theorem readRx_inside {a n : Nat} (h : a + n ≤ fin) : readRx fin a n = Ethernet.readRx a n :=
  if_pos h

theorem writeRx_inside {a : Nat} {bs : List UInt8} (h : a + bs.length ≤ fin) :
    writeRx fin a bs = Ethernet.writeRx a bs :=
  if_pos h

/-- After a read that is inside comes what follows. -/
theorem readRx_bind {α : Type} {a n : Nat} (h : a + n ≤ fin) (f : List UInt8 → Action α) :
    (readRx fin a n >>= f).run σ = (f (readBytes σ.rxBuffers a n)).run σ := by
  rw [readRx_inside h]
  rfl

/-- After one that is not comes nothing. -/
theorem readRx_bind_past {α : Type} {a n : Nat} (h : fin < a + n) (f : List UInt8 → Action α) :
    (readRx fin a n >>= f).run σ = none := by
  rw [readRx, if_neg (Nat.not_le.mpr h)]
  rfl

/-- The header of a longer segment. -/
theorem hdr_of_segment (rx : Memory) (a : Nat) {n : Nat} (h : 20 ≤ n) :
    TcpHdr.ofBytes (readBytes rx a 20) = TcpHdr.ofBytes (readBytes rx a n) := by
  have hword : ∀ i k : Nat, i + k ≤ 20 →
      word (readBytes rx a 20) i k = word (readBytes rx a n) i k := fun i k hik ↦ by
    rw [← load_eq_word rx a hik, ← load_eq_word rx a (hik.trans h)]
  simp only [TcpHdr.ofBytes, u8, u16, u32, hword _ _ (show 0 + 2 ≤ 20 by decide),
    hword _ _ (show 2 + 2 ≤ 20 by decide), hword _ _ (show 4 + 4 ≤ 20 by decide),
    hword _ _ (show 8 + 4 ≤ 20 by decide), hword _ _ (show 12 + 1 ≤ 20 by decide),
    hword _ _ (show 13 + 1 ≤ 20 by decide), hword _ _ (show 14 + 2 ≤ 20 by decide),
    hword _ _ (show 16 + 2 ≤ 20 by decide), hword _ _ (show 18 + 2 ≤ 20 by decide)]

end Accesses

/-! ## Payloads that are shorter than what is printed -/

section Payloads

variable {fin payload p : Nat} {c : Conn} {seg : Segment} {srcIp dstIp : UInt32} {σ : Node}
  {L : Ledger}

/-- A payload of three bytes, or with other bytes behind it, is printed. -/
theorem socketDispatch_inside (h : payload + 3 ≤ fin) (bytes : List UInt8) :
    socketDispatch fin p payload bytes = Ethernet.socketDispatch p bytes := by
  funext σ
  show (socketDispatch fin p payload bytes).run σ = _
  rw [socketDispatch, readRx_bind (by omega), readRx_bind (by omega), readRx_bind (by omega)]
  rfl

/-- A shorter one at the end of the frame is not. -/
theorem socketDispatch_past (h : fin < payload + 3) (bytes : List UInt8) :
    (socketDispatch fin p payload bytes).run σ = none := by
  rw [socketDispatch]
  by_cases hfirst : payload + 1 ≤ fin
  · rw [readRx_bind hfirst]
    by_cases hsecond : payload + 1 + 1 ≤ fin
    · rw [readRx_bind hsecond, readRx_bind_past (by omega)]
    · rw [readRx_bind_past (Nat.not_le.mp hsecond)]
  · rw [readRx_bind_past (Nat.not_le.mp hfirst)]

/-- The established connection `found` is handed the payload at `payload`, and the frame ends within
three bytes from there. -/
def Prints (fin payload : Nat) (seg : Segment) (found : Option (Nat × Conn)) : Prop :=
  fin < payload + 3 ∧ ∃ p c, found = some (p, c) ∧ c.state = .established ∧ c.Expects seg

/-- Nothing else in the `switch` reads received data. -/
theorem stateMachine_inside (h : L.Holds σ []) (hc : (p, c) ∈ (σ.server L).conns)
    (hinside : ¬ Prints fin payload seg (some (p, c))) :
    (stateMachine fin p payload seg).run σ = (Ethernet.stateMachine p seg).run σ := by
  obtain ⟨next, -, hrun⟩ := h.readConn hc
  rw [stateMachine, run_bind_of_run hrun]
  dsimp only
  split
  · rename_i hstate
    rw [Ethernet.stateMachine, run_bind_of_run hrun]
    dsimp only
    rw [hstate]
    dsimp only
    by_cases hexpects : c.Expects seg
    · have hfits : payload + 3 ≤ fin := by
        by_contra hpast
        exact hinside ⟨Nat.not_le.mp hpast, p, c, rfl, hstate, hexpects⟩
      simp only [establishedInput, socketDispatch_inside hfits, Ethernet.establishedInput]
    · rw [establishedInput, Ethernet.establishedInput, run_bind_of_run hrun, run_bind_of_run hrun]
      dsimp only
      rw [if_neg (show ¬ (UInt16.ofNat seg.payload.length > 0 ∧ seg.seq = c.rcvNxt) from hexpects),
        if_neg (show ¬ (UInt16.ofNat seg.payload.length > 0 ∧ seg.seq = c.rcvNxt) from hexpects)]
  · rfl

/-- Printing past the end is undefined behaviour. -/
theorem stateMachine_past (h : L.Holds σ []) (hc : (p, c) ∈ (σ.server L).conns)
    (hprints : Prints fin payload seg (some (p, c))) :
    (stateMachine fin p payload seg).run σ = none := by
  obtain ⟨hpast, _, _, heq, hstate, hexpects⟩ := hprints
  cases heq
  obtain ⟨next, -, hrun⟩ := h.readConn hc
  obtain ⟨_, σ₁, hupdate, -⟩ := updateTcb_run h hc
    (f := fun t ↦ { t with rcvNxt := t.rcvNxt + (UInt16.ofNat seg.payload.length).toUInt32 })
    (g := fun c ↦ { c with rcvNxt := c.rcvNxt + (UInt16.ofNat seg.payload.length).toUInt32 })
    fun _ _ ↦ rfl
  rw [stateMachine, run_bind_of_run hrun]
  dsimp only
  rw [hstate]
  dsimp only
  rw [establishedInput, run_bind_of_run hrun]
  dsimp only
  rw [if_pos (show UInt16.ofNat seg.payload.length > 0 ∧ seg.seq = c.rcvNxt from hexpects),
    run_bind_of_run hupdate, StateT.run_bind, socketDispatch_past hpast]
  rfl

/-- A segment that is not printed past the end is handled as without checks. -/
theorem segmentArrives_inside (h : L.Holds σ [])
    (hinside : ¬ Prints fin payload seg ((σ.server L).find srcIp seg.srcPort dstIp seg.dstPort)) :
    (segmentArrives fin payload seg srcIp dstIp).run σ =
      (Ethernet.segmentArrives seg srcIp dstIp).run σ := by
  have hrun := tcpFindTcb_run h srcIp seg.srcPort dstIp seg.dstPort
  rw [segmentArrives]
  cases hfind : (σ.server L).find srcIp seg.srcPort dstIp seg.dstPort with
  | none =>
      rw [hfind, Option.elim_none] at hrun
      rw [run_bind_of_run hrun, if_pos rfl]
  | some found =>
      obtain ⟨p, c⟩ := found
      have hc : (p, c) ∈ (σ.server L).conns := List.mem_of_find?_eq_some hfind
      have hnoted := h.record (e := .lookup srcIp dstIp seg (some (p, c))) rfl
      obtain ⟨next, -, hread⟩ := h.readConn hc
      rw [hfind] at hinside
      rw [Ethernet.segmentArrives_some h hfind, ← stateMachine_inside hnoted hc hinside]
      rw [hfind, Option.elim_some] at hrun
      rw [run_bind_of_run hrun, if_neg (h.conn_ne_zero hc), run_bind_of_run hread]
      rfl

/-- One that is printed past the end is undefined behaviour. -/
theorem segmentArrives_past (h : L.Holds σ [])
    (hprints : Prints fin payload seg ((σ.server L).find srcIp seg.srcPort dstIp seg.dstPort)) :
    (segmentArrives fin payload seg srcIp dstIp).run σ = none := by
  obtain ⟨-, p, c, hfind, -⟩ := id hprints
  have hc : (p, c) ∈ (σ.server L).conns := List.mem_of_find?_eq_some hfind
  have hnoted := h.record (e := .lookup srcIp dstIp seg (some (p, c))) rfl
  have hrun := tcpFindTcb_run h srcIp seg.srcPort dstIp seg.dstPort
  obtain ⟨next, -, hread⟩ := h.readConn hc
  rw [hfind] at hprints
  rw [hfind, Option.elim_some] at hrun
  rw [segmentArrives, run_bind_of_run hrun, if_neg (h.conn_ne_zero hc), run_bind_of_run hread]
  exact stateMachine_past hnoted hc hprints

/-- The header, the checksum and the payload of a segment inside the frame are inside. -/
theorem tcpInputProcess_run {segment : Nat} {len : UInt16} (hfits : segment + len.toNat ≤ fin) :
    (tcpInputProcess fin segment len srcIp dstIp).run σ =
      match acceptSegment srcIp dstIp (readBytes σ.rxBuffers segment len.toNat) with
      | none => some ((), σ)
      | some seg => (segmentArrives fin (segment + (len.toNat - seg.payload.length)) seg
          srcIp dstIp).run σ := by
  unfold tcpInputProcess acceptSegment Segment.parse
  rw [length_readBytes]
  by_cases hshort : len.toNat < sizeofTcpHdr
  · rw [if_pos hshort, if_pos hshort]
    rfl
  · have hlong : 20 ≤ len.toNat := Nat.le_of_not_lt hshort
    rw [if_neg hshort, if_neg hshort, readRx_bind (by rw [sizeofTcpHdr]; omega), sizeofTcpHdr,
      hdr_of_segment σ.rxBuffers segment hlong]
    generalize hhdr : TcpHdr.ofBytes (readBytes σ.rxBuffers segment len.toNat) = hdr
    dsimp only
    split
    · rfl
    · rename_i hheader
      rw [readRx_bind hfits]
      dsimp only
      split
      · congr 2
        simp only [List.length_drop, length_readBytes]
        omega
      · rfl

end Payloads

/-! ## The layers above -/

section Layers

variable {fin data : Nat} {len : UInt32} {σ : Node}

/-- `arp_handle` stays inside the packet. -/
theorem arpHandle_inside (hfits : data + len.toNat ≤ fin) :
    (arpHandle fin data len).run σ = (Ethernet.arpHandle data len).run σ := by
  unfold arpHandle Ethernet.arpHandle
  split
  · rfl
  · rename_i hlong
    have hlong : 28 ≤ len.toNat := by
      rw [UInt32.not_lt, UInt32.le_iff_toNat_le] at hlong
      exact hlong
    rw [readRx_inside (by omega)]
    rfl

/-- The checks of `ipv4_handle` stay inside the packet, whatever its header announces. -/
theorem ipv4Decode_inside (hfits : data + len.toNat ≤ fin) :
    ipv4Decode fin data len = Ethernet.ipv4Decode data len := by
  unfold ipv4Decode Ethernet.ipv4Decode
  split
  · rfl
  · rename_i hlong
    have hlong : 20 ≤ len.toNat := by
      rw [UInt32.not_lt, UInt32.le_iff_toNat_le] at hlong
      exact hlong
    rw [readRx_inside (by omega)]
    refine bind_congr fun header ↦ ?_
    dsimp only
    split
    · rfl
    · split
      · rfl
      · rename_i hheader
        rw [UInt32.not_lt, UInt32.le_iff_toNat_le] at hheader
        have hfield : ∀ x : Nat, data + 10 + (leBytes 2 x).length ≤ fin := fun x ↦ by
          rw [length_leBytes]
          omega
        rw [writeRx_inside (hfield 0), writeRx_inside (hfield _), readRx_inside (by omega)]

/-- `ipv6_handle` stays inside the packet and changes nothing. -/
theorem ipv6Handle_inside (hfits : data + len.toNat ≤ fin) :
    (ipv6Handle fin data len).run σ = some ((), σ) := by
  unfold ipv6Handle
  split
  · rfl
  · rename_i hlong
    have hlong : 40 ≤ len.toNat := by
      rw [UInt32.not_lt, UInt32.le_iff_toNat_le] at hlong
      exact hlong
    rw [readRx_bind (by omega)]
    dsimp only
    split
    · rfl
    · rw [readRx_bind (by omega), readRx_bind (by omega)]
      rfl

/-- The accepted segment of the packet at `data` is handed to `socket_dispatch`, which prints past
the end. -/
def Ipv4Prints (σ : Node) (conns : List (Nat × Conn)) (fin data : Nat) (len : UInt32) : Prop :=
  ∃ srcIp dstIp seg, acceptIpv4 σ.aetherIp σ.rxBuffers data len = some (.segment srcIp dstIp seg) ∧
    Prints fin (data + ((Ipv4Header.ofBytes (readBytes σ.rxBuffers data 20)).packetLen -
      seg.payload.length)) seg
      (conns.find? fun e ↦ e.2.Matches srcIp seg.srcPort dstIp seg.dstPort)

variable {L : Ledger}

/-- A packet is handled as without checks, or printed past the end. -/
theorem ipv4Handle_run (h : L.Holds σ []) (hfits : data + len.toNat ≤ fin) :
    (Ipv4Prints σ (σ.server L).conns fin data len → (ipv4Handle fin data len).run σ = none) ∧
    (¬ Ipv4Prints σ (σ.server L).conns fin data len →
      (ipv4Handle fin data len).run σ = (Ethernet.ipv4Handle data len).run σ) := by
  unfold Ipv4Prints acceptIpv4 ipv4Handle
  rw [ipv4Decode_inside hfits, run_bind_of_run (ipv4Decode_run σ data len), Ethernet.ipv4Handle,
    run_bind_of_run (ipv4Decode_run σ data len)]
  cases hverdict : ipv4Verdict σ.aetherIp σ.rxBuffers data len with
  | error e =>
      refine ⟨fun hprints ↦ ?_, fun _ ↦ by cases e <;> rfl⟩
      obtain ⟨_, _, _, hnone, -⟩ := hprints
      cases hnone
  | ok packet =>
      obtain ⟨ip, horder, -, -, -, hpayload, hlen⟩ := ipv4Verdict_ok hverdict
      obtain rfl := horder.header
      have hheader := horder.packetLong
      have hpacket := horder.packetFits
      dsimp only
      split
      · have hsegment : packet.payload + packet.payloadLen.toUInt16.toNat ≤ fin := by omega
        rw [tcpInputProcess_run hsegment, Ethernet.tcpInputProcess_run]
        cases haccept : acceptSegment packet.srcIp packet.dstIp
            (readBytes σ.rxBuffers packet.payload packet.payloadLen.toUInt16.toNat) with
        | none =>
            refine ⟨fun hprints ↦ ?_, fun _ ↦ rfl⟩
            obtain ⟨_, _, _, hnone, -⟩ := hprints
            cases hnone
        | some seg =>
            have hwithin := Segment.parse_length (acceptSegment_eq_some.mp haccept).1
            rw [length_readBytes] at hwithin
            -- the payload is at the end of the packet
            have hpointer : packet.payload +
                (packet.payloadLen.toUInt16.toNat - seg.payload.length) =
                data + ((Ipv4Header.ofBytes (readBytes σ.rxBuffers data 20)).packetLen -
                  seg.payload.length) := by
              omega
            dsimp only
            rw [hpointer]
            constructor
            · intro hprints
              obtain ⟨_, _, _, heq, hpast⟩ := hprints
              cases heq
              exact segmentArrives_past h hpast
            · intro hinside
              exact segmentArrives_inside h fun hpast ↦ hinside ⟨_, _, _, rfl, hpast⟩
      · refine ⟨fun hprints ↦ ?_, fun _ ↦ rfl⟩
        obtain ⟨_, _, _, hnone, -⟩ := hprints
        cases hnone

end Layers

end Bounded

/-! ## The frame as a whole -/

/-- Every access of the handlers to the `len` bytes at `data` is inside them. -/
def Node.ReadsInside (σ : Node) (data : Nat) (len : UInt32) : Prop :=
  ∃ σ', (Bounded.ethernetHandlePacket data len).run σ = some ((), σ')

/-- The frame carries the payload that an established connection expects, and the payload and the
bytes behind the packet are fewer than three. -/
def Node.PrintsPast (σ : Node) (data : Nat) (len : UInt32) : Prop :=
  ∃ srcIp dstIp seg conns p c,
    accept σ.aetherIp σ.rxBuffers data len = some (.segment srcIp dstIp seg) ∧
    σ.connections = some conns ∧
    (conns.find? fun e ↦ e.2.Matches srcIp seg.srcPort dstIp seg.dstPort) = some (p, c) ∧
    c.state = .established ∧ c.Expects seg ∧
    len.toNat + seg.payload.length < 14 + (ipv4At σ.rxBuffers data).packetLen + 3

section Frames

variable {σ : Node} {L : Ledger} {data : Nat} {len : UInt32}

/-- What an accepted segment's frame has room for. -/
theorem accept_payload {srcIp dstIp : UInt32} {seg : Segment}
    (h : accept σ.aetherIp σ.rxBuffers data len = some (.segment srcIp dstIp seg)) :
    seg.payload.length ≤ (ipv4At σ.rxBuffers data).packetLen ∧
      14 + (ipv4At σ.rxBuffers data).packetLen ≤ len.toNat := by
  cases accept_eq_some h with
  | segment _ hlong horder _ hparse =>
      have hframe : ¬ len < 14 := by
        rw [UInt32.lt_iff_toNat_lt]
        exact Nat.not_lt.mpr hlong
      have hfits := horder.packetFits
      have hwithin := Segment.parse_length hparse
      rw [segmentAt, length_readBytes] at hwithin
      rw [toNat_payloadLen hframe] at hfits
      exact ⟨hwithin.trans (Nat.sub_le _ _), by omega⟩

/-- Only payloads of one or two bytes are printed past the end. -/
theorem Node.PrintsPast.payload (h : σ.PrintsPast data len) : ∃ srcIp dstIp seg,
    accept σ.aetherIp σ.rxBuffers data len = some (.segment srcIp dstIp seg) ∧
    0 < seg.payload.length ∧ seg.payload.length < 3 := by
  obtain ⟨srcIp, dstIp, seg, _, _, _, haccept, -, -, -, hexpects, hpast⟩ := h
  have hfits := (accept_payload haccept).2
  refine ⟨srcIp, dstIp, seg, haccept, ?_, by omega⟩
  by_contra hempty
  have hnil : seg.payload.length = 0 := Nat.eq_zero_of_not_pos hempty
  have hpositive := hexpects.1
  rw [hnil] at hpositive
  exact absurd hpositive (by decide)

/-- A frame with a packet prints past its end when the packet does. -/
theorem Ledger.Holds.printsPast_iff (h : L.Holds σ [])
    (haccept : accept σ.aetherIp σ.rxBuffers data len =
      acceptIpv4 σ.aetherIp σ.rxBuffers (data + 14) (len - 14)) :
    σ.PrintsPast data len ↔ Bounded.Ipv4Prints σ (σ.server L).conns (data + len.toNat)
      (data + 14) (len - 14) := by
  have hpointer : ∀ seg : Segment, seg.payload.length ≤ (ipv4At σ.rxBuffers data).packetLen →
      (data + len.toNat <
          data + 14 + ((ipv4At σ.rxBuffers data).packetLen - seg.payload.length) + 3 ↔
        len.toNat + seg.payload.length < 14 + (ipv4At σ.rxBuffers data).packetLen + 3) := by
    intro seg hwithin
    omega
  constructor
  · intro hprints
    obtain ⟨srcIp, dstIp, seg, conns, p, c, hrequest, hconns, hfind, hstate, hexpects, hpast⟩ :=
      hprints
    cases h.connections_eq.symm.trans hconns
    have hwithin := (accept_payload hrequest).1
    exact ⟨srcIp, dstIp, seg, haccept ▸ hrequest, (hpointer seg hwithin).mpr hpast, p, c, hfind,
      hstate, hexpects⟩
  · intro hprints
    obtain ⟨srcIp, dstIp, seg, hrequest, hpast, p, c, hfind, hstate, hexpects⟩ := hprints
    rw [← haccept] at hrequest
    have hwithin := (accept_payload hrequest).1
    exact ⟨srcIp, dstIp, seg, _, p, c, hrequest, h.connections_eq, hfind, hstate, hexpects,
      (hpointer seg hwithin).mp hpast⟩

/-- The handlers print past the end, or do with all checks what they do without. -/
theorem Bounded.ethernetHandlePacket_run (h : L.Holds σ []) :
    (σ.PrintsPast data len → (ethernetHandlePacket data len).run σ = none) ∧
    (¬ σ.PrintsPast data len →
      (ethernetHandlePacket data len).run σ = (Ethernet.ethernetHandlePacket data len).run σ) := by
  by_cases hshort : len < 14
  · have hnone : accept σ.aetherIp σ.rxBuffers data len = none := if_pos hshort
    refine ⟨fun hprints ↦ ?_, fun _ ↦ ?_⟩
    · obtain ⟨_, _, _, _, _, _, haccept, -⟩ := hprints
      cases hnone.symm.trans haccept
    · rw [ethernetHandlePacket, Ethernet.ethernetHandlePacket, if_pos hshort, if_pos hshort]
  · have hlen := toNat_payloadLen hshort
    have hlong : 14 ≤ len.toNat := by
      rw [UInt32.not_lt, UInt32.le_iff_toNat_le] at hshort
      exact hshort
    have hfits : data + 14 + (len - 14).toNat ≤ data + len.toNat := by omega
    have htype : htons (u16 (readBytes σ.rxBuffers (data + 12) 2) 0) =
        etherType σ.rxBuffers data := by
      rw [etherType, EthHeader.ofBytes, u16, u16, ← load_eq_word _ _ (show 0 + 2 ≤ 2 by decide),
        ← load_eq_word _ _ (show 12 + 2 ≤ 14 by decide)]
    have hrun : (Ethernet.ethernetHandlePacket data len).run σ =
        (if etherType σ.rxBuffers data = ethTypeArp then Ethernet.arpHandle (data + 14) (len - 14)
          else if etherType σ.rxBuffers data = ethTypeIpv4 then
            Ethernet.ipv4Handle (data + 14) (len - 14)
          else pure () : Action Unit).run σ := by
      rw [Ethernet.ethernetHandlePacket, if_neg hshort]
      rfl
    rw [hrun, ethernetHandlePacket]
    dsimp only
    rw [if_neg hshort, readRx_bind (by omega), htype]
    -- only an IPv4 packet can reach the handler that prints
    by_cases harp : etherType σ.rxBuffers data = ethTypeArp
    · rw [if_pos harp, if_pos harp, arpHandle_inside hfits]
      refine ⟨fun hprints ↦ ?_, fun _ ↦ rfl⟩
      obtain ⟨_, _, _, _, _, _, haccept, -⟩ := hprints
      cases accept_eq_some haccept with
      | segment hipv4 => exact absurd (harp.symm.trans hipv4) (by decide)
    · rw [if_neg harp, if_neg harp]
      by_cases hipv4 : etherType σ.rxBuffers data = ethTypeIpv4
      · rw [if_pos hipv4, if_pos hipv4]
        have haccept : accept σ.aetherIp σ.rxBuffers data len =
            acceptIpv4 σ.aetherIp σ.rxBuffers (data + 14) (len - 14) := by
          rw [accept, if_neg hshort, if_neg harp, if_pos hipv4]
        rw [h.printsPast_iff haccept]
        exact ipv4Handle_run h hfits
      · rw [if_neg hipv4, if_neg hipv4]
        refine ⟨fun hprints ↦ ?_, fun _ ↦ ?_⟩
        · obtain ⟨_, _, _, _, _, _, haccept, -⟩ := hprints
          cases accept_eq_some haccept with
          | segment hipv4' => exact absurd hipv4' hipv4
        · split
          · exact ipv6Handle_inside hfits
          · rfl

end Frames

/-- The handlers stay inside a frame exactly when it carries no payload of one or two bytes to an
established connection that expects it, or enough bytes follow the packet. -/
theorem reads_inside_iff (c : Setup) (σ : Node) (h : c.Reaches σ) (data : Nat) (len : UInt32) :
    σ.ReadsInside data len ↔ ¬ σ.PrintsPast data len := by
  obtain ⟨L, hs⟩ := h.sound
  obtain ⟨hpast, hinside⟩ := Bounded.ethernetHandlePacket_run hs.holds
  constructor
  · intro hreads hprints
    obtain ⟨σ', hrun⟩ := hreads
    cases hrun.symm.trans (hpast hprints)
  · intro hprints
    obtain ⟨_, σ', hrun, -⟩ := ethernetHandlePacket_spec hs.holds data len
    exact ⟨σ', (hinside hprints).trans hrun⟩

/-- A frame for the sample node with a payload from its peer. -/
def dataFrame (payload : List UInt8) : List UInt8 :=
  (EthHeader.mk gatewayMac gatewayMac (htons ethTypeIpv4)).bytes ++
    ipv4Packet 0x0A000202 0x0A00020F ipProtoTcp
      (tcpSegment (.samplePeer 101 7001) (tcpFlagPsh ||| tcpFlagAck) payload)

/-- The sample node with a connection from the peer, at which the frame arrived. -/
def Node.withData (σ : Node) (payload : List UInt8) : Node :=
  { σ with rxBuffers := writeBytes σ.rxBuffers 0 (dataFrame payload) }

/-- A payload of three bytes is read inside its frame. -/
theorem reads_inside_iff_get : ∃ σ, Setup.sample.Reaches σ ∧
    accept σ.aetherIp σ.rxBuffers 0 57 ≠ none ∧ σ.ReadsInside 0 57 := by
  obtain ⟨σ₀, -, hreaches₀, hP⟩ := Setup.exec_any .sample
    [.fromPeer 100 0 tcpFlagSyn [], .fromPeer 101 7001 tcpFlagAck []]
    (fun σ : Node ↦ decide (accept σ.aetherIp (σ.withData (cString "GET")).rxBuffers 0 57 =
      some (.segment 0x0A000202 0x0A00020F
        ⟨5555, 80, 101, 7001, tcpFlagPsh ||| tcpFlagAck, cString "GET"⟩)))
    (by decide +kernel)
  have haccept := of_decide_eq_true hP
  have hreaches : Setup.sample.Reaches (σ₀.withData (cString "GET")) :=
    hreaches₀.step (.receive σ₀.rxQueue _)
  refine ⟨_, hreaches, fun hnone ↦ ?_,
    (reads_inside_iff .sample _ hreaches 0 57).mpr fun hprints ↦ ?_⟩
  · cases haccept.symm.trans hnone
  · obtain ⟨_, _, seg, haccept', -, hshort⟩ := hprints.payload
    cases haccept.symm.trans haccept'
    exact absurd hshort (by decide)

/-- A payload of one byte at the end of its frame is not. -/
theorem reads_past_one_byte : ∃ σ, Setup.sample.Reaches σ ∧ ¬ σ.ReadsInside 0 55 := by
  obtain ⟨σ₀, -, hreaches₀, hP⟩ := Setup.exec_any .sample
    [.fromPeer 100 0 tcpFlagSyn [], .fromPeer 101 7001 tcpFlagAck []]
    (fun σ : Node ↦ ((Bounded.ethernetHandlePacket 0 55).run (σ.withData [0x47])).isNone)
    (by decide +kernel)
  refine ⟨σ₀.withData [0x47], hreaches₀.step (.receive σ₀.rxQueue _), ?_⟩
  intro hreads
  obtain ⟨σ', hrun⟩ := hreads
  rw [hrun] at hP
  cases hP

end Aether.Ethernet
