import Aether.Ethernet.TcbList

/-!
# The TCP layer implements the server

Each function of the TCP layer performs the acts that `Server` describes it by; together they make
`segmentArrives` refine `Server.Receives`.
-/

namespace Aether.Ethernet

open ByteMemory Kernel Drivers Common Program

/-! ## Output -/

section Output

variable {L : Ledger} {σ : Node} {p : Nat} {c : Conn}

@[simp] theorem length_tcpSegment (c : Conn) (flags : UInt8) (payload : List UInt8) :
    (tcpSegment c flags payload).length = 20 + payload.length := by
  simp [tcpSegment]

/-- The segment in its buffer, before its checksum is known. -/
theorem write_header (mem : Memory) (a : Nat) (hdr : TcpHdr) (payload : List UInt8) :
    writeBytes (writeBytes mem a hdr.bytes) (a + 20) payload =
      writeBytes mem a (hdr.bytes ++ payload) := by
  have := writeBytes_append mem a hdr.bytes payload
  rwa [TcpHdr.length_bytes] at this

/-- The header's checksum field can be stored on its own. -/
theorem TcpHdr.write_checksum (mem : Memory) (a : Nat) (hdr : TcpHdr) (payload : List UInt8)
    (checksum : UInt16) :
    writeBytes (writeBytes mem a (hdr.bytes ++ payload)) (a + 16) (leBytes 2 checksum.toNat) =
      writeBytes mem a ({ hdr with checksum := checksum }.bytes ++ payload) := by
  have hself := hdr.bytes_split hdr.checksum payload
  rw [show { hdr with checksum := hdr.checksum } = hdr from rfl] at hself
  have hpatch := writeBytes_patch mem a hdr.prologue (leBytes 2 hdr.checksum.toNat)
    (leBytes 2 checksum.toNat) (leBytes 2 hdr.urgentPtr.toNat ++ payload) (by simp)
  rwa [← hself, ← hdr.bytes_split, length_prologue] at hpatch

/-- A segment reads back as it was written. -/
theorem TcpHdr.read_segment (mem : Memory) (a : Nat) (hdr : TcpHdr) (payload : List UInt8) :
    readBytes (writeBytes mem a (hdr.bytes ++ payload)) a (20 + payload.length) =
      hdr.bytes ++ payload := by
  have := read_write_same mem a (hdr.bytes ++ payload)
  rwa [List.length_append, length_bytes] at this

/-- The length of a segment fits its 16-bit field. -/
theorem toNat_segmentLen {payload : List UInt8} (h : payload.length ≤ 65515) :
    (20 + UInt16.ofNat payload.length).toNat = 20 + payload.length := by
  have hpayload : (UInt16.ofNat payload.length).toNat = payload.length :=
    UInt16.toNat_ofNat_of_lt' (by rw [UInt16.size]; omega)
  rw [UInt16.toNat_add, hpayload]
  exact Nat.mod_eq_of_lt (by simp only [UInt16.reduceToNat]; omega)

/-- The length that is passed on is the segment's. -/
theorem toUInt32_segmentLen {payload : List UInt8} (h : payload.length ≤ 65515) (c : Conn)
    (flags : UInt8) : (20 + UInt16.ofNat payload.length).toUInt32 =
      UInt32.ofNat (tcpSegment c flags payload).length := by
  rw [← UInt32.toNat_inj, UInt16.toNat_toUInt32, toNat_segmentLen h, length_tcpSegment,
    UInt32.toNat_ofNat_of_lt' (by rw [UInt32.size]; omega)]

/-- The event that a transmission of any frame records is a transport event. -/
theorem Event.Sends.isTransport {frame : List UInt8} {e : Event} (h : e.Sends frame) :
    e.IsTransport := by
  rcases h with rfl | rfl | rfl <;> trivial

/-- The frame that carries a connection's segment. -/
def Node.tcpFrame (σ : Node) (c : Conn) (flags : UInt8) (payload : List UInt8) : List UInt8 :=
  ethernetFrame σ.aetherMac gatewayMac ethTypeIpv4
    (ipv4Packet σ.aetherIp c.remoteIp ipProtoTcp (tcpSegment c flags payload))

/-- Moving a connection's sequence number on, in one or two assignments. -/
theorem advance_run (h : L.Holds σ []) (hc : (p, c) ∈ (σ.server L).conns) (flags : UInt8)
    (payload : List UInt8) : ∃ (L' : Ledger) (σ' : Node), (do
      if flags &&& (tcpFlagSyn ||| tcpFlagFin) ≠ 0 then
        updateTcb p fun t ↦ { t with sndNxt := t.sndNxt + 1 }
      updateTcb p fun t ↦
        { t with sndNxt := t.sndNxt + (UInt16.ofNat payload.length).toUInt32 }
      : Action Unit).run σ = some ((), σ') ∧ L'.Holds σ' [] ∧ σ.SameAddresses σ' ∧
      σ'.server L' = (σ.server L).update p (Conn.advance flags payload) ∧
      σ.heap.SameBlocks σ'.heap := by
  let g : Conn → Conn := fun c ↦
    { c with sndNxt := c.sndNxt + (UInt16.ofNat payload.length).toUInt32 }
  by_cases hflags : flags &&& (tcpFlagSyn ||| tcpFlagFin) ≠ 0
  · let f : Conn → Conn := fun c ↦ { c with sndNxt := c.sndNxt + 1 }
    obtain ⟨L₁, σ₁, hrun₁, h₁, ha₁, hs₁, hb₁⟩ := updateTcb_run h hc (g := f)
      (f := fun t ↦ { t with sndNxt := t.sndNxt + 1 }) fun _ _ ↦ rfl
    have hc₁ : (p, f c) ∈ (σ₁.server L₁).conns := by
      rw [hs₁]
      exact Server.mem_update hc f
    obtain ⟨L₂, σ₂, hrun₂, h₂, ha₂, hs₂, hb₂⟩ := updateTcb_run h₁ hc₁ (g := g)
      (f := fun t ↦ { t with sndNxt := t.sndNxt + (UInt16.ofNat payload.length).toUInt32 })
      fun _ _ ↦ rfl
    refine ⟨L₂, σ₂, ?_, h₂, ha₁.trans ha₂, ?_, hb₁.trans hb₂⟩
    · rw [if_pos hflags, run_bind_of_run hrun₁, hrun₂]
    · rw [hs₂, hs₁, Server.update_update]
      congr 1
      funext c
      simp only [Conn.advance, if_pos hflags, Function.comp, g, f]
  · obtain ⟨L₁, σ₁, hrun₁, h₁, ha₁, hs₁, hb₁⟩ := updateTcb_run h hc (g := g)
      (f := fun t ↦ { t with sndNxt := t.sndNxt + (UInt16.ofNat payload.length).toUInt32 })
      fun _ _ ↦ rfl
    refine ⟨L₁, σ₁, ?_, h₁, ha₁, ?_, hb₁⟩
    · rw [if_neg hflags]
      exact hrun₁
    · rw [hs₁]
      congr 1
      funext c
      simp only [Conn.advance, if_neg hflags, g]

/-- A packet that went out, or whose frame found no memory, leaves room for a smaller block. -/
theorem PacketFate.heap_of_refuses {held : List Region} {packet : List UInt8} {σ' : Node}
    (hfate : PacketFate L σ held packet σ') {size : Nat} (hsize : alignSize size ≤ packet.length)
    (hrefuses : σ'.heap.Refuses size) : σ'.heap = σ.heap := by
  cases hfate with
  | noPacket => rfl
  | noFrame _ _ hfits hheld =>
      exact absurd hrefuses (hheld.owns.not_refuses_kfree (hsize.trans hfits))
  | queued _ _ hfits _ _ _ howns =>
      exact absurd hrefuses ((howns.perm (.swap _ _ _)).not_refuses_kfree (hsize.trans hfits))

/-- `tcp_send_segment` stops for lack of memory, or hands its segment on, whatever becomes of the
frame, and moves the sequence number on. If there is no room for another segment afterwards, then
there was none once this one had its block. -/
theorem tcpSendSegment_fate (h : L.Holds σ []) (hc : (p, c) ∈ (σ.server L).conns) (flags : UInt8)
    (payload : List UInt8) (hlen : payload.length ≤ 65515) :
    wp (tcpSendSegment p flags payload) (fun _ σ' ↦
      ∃ L' : Ledger, L'.Holds σ' [] ∧ σ.SameAddresses σ' ∧
      ((kmalloc σ.heap (20 + payload.length) = some (0, σ.heap) ∧ σ'.heap = σ.heap ∧
          σ'.server L' = (σ.server L).record .noMemory) ∨
        ∃ buffer heap, kmalloc σ.heap (20 + payload.length) = some (buffer, heap) ∧ buffer ≠ 0 ∧
          (σ'.heap.Refuses 20 → heap.Refuses 20) ∧
          ∃ e : Event, e.Sends (σ.tcpFrame c flags payload) ∧ σ'.server L' =
            (((σ.server L).record (.handed p c (tcpSegment c flags payload))).record e).update p
              (Conn.advance flags payload))) σ := by
  have htotal := toNat_segmentLen hlen
  obtain ⟨buffer, σ₁, hrun₁, hcase⟩ := h.callKmalloc (20 + payload.length) (by omega)
  have hcall := kmalloc_of_run hrun₁
  simp only [tcpSendSegment, h.conn_ne_zero hc, ↓reduceIte, wp_bind, htotal, wp_of_run hrun₁]
  rcases hcase with ⟨rfl, rfl⟩ | ⟨cap, heap, hne, hcap, rfl, hheld, -⟩
  · simp only [↓reduceIte, wp_pure]
    exact ⟨L, h.record rfl, ⟨rfl, rfl⟩, .inl ⟨hcall, trivial, rfl⟩⟩
  · obtain ⟨next, -, hrun⟩ := hheld.readConn (p := p) (c := c) hc
    simp only [hne, ↓reduceIte, wp_bind]
    refine (wp_of_run hrun).mpr ?_
    simp only [wp_writeHeap, wp_readHeap, wp_note, Heap.write, write_header, TcpHdr.read_segment,
      TcpHdr.write_checksum]
    have hroom : buffer + (tcpSegment c flags payload).length ≤ buffer + cap := by
      rw [length_tcpSegment]
      omega
    -- the segment is in the block before it is handed over
    have hwritten := (hheld.write buffer (tcpSegment c flags payload) le_rfl hroom).1
    have hblocks := hheld.owns.sameBlocks_write List.mem_cons_self buffer
      (tcpSegment c flags payload) le_rfl hroom
    have hhanded := hwritten.abandon (e := .handed p c (tcpSegment c flags payload)) rfl
    have hsend := ipv4Send_fate hhanded c.remoteIp ipProtoTcp (.heap buffer)
      (tcpSegment c flags payload)
      ⟨read_write_same heap.mem buffer _, ⟨buffer, cap⟩, by simp [Ledger.regions], le_rfl, hroom⟩
      (by rw [length_tcpSegment]; omega)
    rw [← toUInt32_segmentLen hlen c flags] at hsend
    refine wp_mono hsend ?_
    intro _ σ₂ hfate
    obtain ⟨L₂, e, h₂, hsame, htransmits, he⟩ := hfate.transmits hhanded
    have hserver := htransmits.server hsame
    have hc₂ : (p, c) ∈ (σ₂.server L₂).conns := by rwa [hserver]
    obtain ⟨L₃, σ₃, hadvance, h₃, haddresses, hs₃, hb₃⟩ := advance_run h₂ hc₂ flags payload
    refine (wp_of_run hadvance).mpr ⟨L₃, h₃, (Node.SameAddresses.refl σ).via
      (htransmits.addresses.trans haddresses) ⟨rfl, rfl⟩,
      .inr ⟨buffer, heap, hcall, hne, ?_, e, he, ?_⟩⟩
    · intro hrefuses
      have hsmall : alignSize 20 ≤ (ipv4Packet σ.aetherIp c.remoteIp ipProtoTcp
          (tcpSegment c flags payload)).length := by
        rw [length_ipv4Packet, length_tcpSegment]
        have : alignSize 20 = 24 := by decide
        omega
      rw [hb₃.refuses_iff] at hrefuses
      rw [hfate.heap_of_refuses hsmall hrefuses] at hrefuses
      exact (hblocks.refuses_iff 20).mp hrefuses
    · rw [hs₃, hserver]
      rfl

/-- `tcp_send_segment` stops for lack of memory, or hands its segment on. -/
theorem tcpSendSegment_spec (h : L.Holds σ []) (hc : (p, c) ∈ (σ.server L).conns) (flags : UInt8)
    (payload : List UInt8) (hlen : payload.length ≤ 65515) :
    Refines (tcpSendSegment p flags payload) (fun s s' ↦ s' = s.record .noMemory ∨
      ∃ e : Event, e.Sends (σ.tcpFrame c flags payload) ∧
        s' = ((s.record (.handed p c (tcpSegment c flags payload))).record e).update p
          (Conn.advance flags payload)) L σ := by
  refine wp_mono (tcpSendSegment_fate h hc flags payload hlen) ?_
  rintro _ σ' ⟨L', h', haddresses, ⟨-, -, hserver⟩ | ⟨_, _, -, -, -, hserver⟩⟩
  · exact ⟨L', h', haddresses, .inl hserver⟩
  · exact ⟨L', h', haddresses, .inr hserver⟩

/-- `tcp_send_segment` is one act. -/
theorem tcpSendSegment_does (h : L.Holds σ []) (hc : (p, c) ∈ (σ.server L).conns) (flags : UInt8)
    (payload : List UInt8) (hlen : payload.length ≤ 65515) :
    Refines (tcpSendSegment p flags payload) (Does p (.send flags payload)) L σ := by
  refine (tcpSendSegment_spec h hc flags payload hlen).mono ?_
  rintro s' (rfl | ⟨e, he, rfl⟩)
  · exact .dropped flags payload _
  · exact .sent hc he.isTransport

/-- `tcp_send_ack` performs its act. -/
theorem tcpSendAck_spec (h : L.Holds σ []) (hc : (p, c) ∈ (σ.server L).conns) :
    Refines (tcpSendAck p) (Performs p ackActs) L σ :=
  .single (tcpSendSegment_does h hc tcpFlagAck [] (Nat.zero_le _))

/-- `tcp_close` closes an open connection. -/
theorem tcpClose_spec (h : L.Holds σ []) (hc : (p, c) ∈ (σ.server L).conns)
    (hstate : c.state = .established ∨ c.state = .closeWait) :
    Refines (tcpClose p) (Performs p closeActs) L σ := by
  obtain ⟨next, -, hrun⟩ := h.readConn hc
  rw [Refines, tcpClose, if_neg (h.conn_ne_zero hc), wp_bind, wp_of_run hrun, if_pos hstate]
  refine Refines.cons (updateTcb_does h hc fun _ _ ↦ rfl) (by simp) hc
    fun L' σ' c' hL' hc' _ ↦ ?_
  exact Refines.single (tcpSendSegment_does hL' hc' _ [] (Nat.zero_le _))

/-- `socket_dispatch` answers an established connection and closes it. -/
theorem socketDispatch_spec (h : L.Holds σ []) (hc : (p, c) ∈ (σ.server L).conns)
    (hstate : c.state = .established) (payload : List UInt8) :
    Refines (socketDispatch p payload) (Performs p (dispatchActs p payload)) L σ := by
  refine .cons (note_does h p rfl) (by simp) hc fun L₁ σ₁ c₁ hL₁ hc₁ hnote ↦ ?_
  obtain ⟨next, -, hrun⟩ := hL₁.readConn hc₁
  obtain rfl : c₁ = c := hnote
  refine .cons ?_ (by simp) hc₁ fun L₂ σ₂ c₂ hL₂ hc₂ hsend ↦ tcpClose_spec hL₂ hc₂ (.inl ?_)
  · rw [Refines, tcpSendData, if_neg (hL₁.conn_ne_zero hc₁), wp_bind, wp_of_run hrun,
      if_pos hstate]
    exact tcpSendSegment_does hL₁ hc₁ _ httpResponse length_httpResponse
  · rcases hsend with rfl | rfl
    · exact hstate
    · rw [Conn.advance_state, hstate]

end Output

/-! ## Input -/

section Input

variable {L : Ledger} {σ : Node} {p : Nat} {c : Conn}

/-- An action taken only on segments with a certain flag. -/
theorem Refines.flagged {x : Action Unit} {acts : List Act} (h : L.Holds σ []) (seg : Segment)
    (flag : UInt8) (hx : Refines x (Performs p acts) L σ) :
    Refines (if seg.flags &&& flag ≠ 0 then x else pure ())
      (Performs p (if seg.Has flag then acts else [])) L σ := by
  by_cases hflag : seg.Has flag
  · rwa [if_pos hflag, if_pos (show seg.flags &&& flag ≠ 0 from hflag)]
  · rw [if_neg hflag, if_neg (show ¬ seg.flags &&& flag ≠ 0 from hflag)]
    exact .nil h p

/-- Acceptance of an expected payload, before an action that performs further acts. -/
theorem accept_spec (h : L.Holds σ []) (hc : (p, c) ∈ (σ.server L).conns)
    (hstate : c.state = .established) (seg : Segment) {y : Action Unit} {acts : List Act}
    (hy : ∀ L' σ' c', L'.Holds σ' [] → (p, c') ∈ (σ'.server L').conns →
      Refines y (Performs p acts) L' σ') :
    Refines (do
      updateTcb p fun t ↦
        { t with rcvNxt := t.rcvNxt + (UInt16.ofNat seg.payload.length).toUInt32 }
      socketDispatch p seg.payload
      tcpSendAck p
      y) (Performs p (acceptActs p seg ++ acts)) L σ := by
  rw [acceptActs, List.cons_append, List.append_assoc]
  refine Refines.cons (updateTcb_does h hc fun _ _ ↦ rfl) (by simp) hc
    fun L₁ σ₁ c₁ hL₁ hc₁ hupdate ↦ ?_
  have hstate₁ : c₁.state = .established := by
    rw [show c₁ = _ from hupdate]
    exact hstate
  refine Refines.append (socketDispatch_spec hL₁ hc₁ hstate₁ seg.payload)
    (by simp [dispatchActs, closeActs]) hc₁ fun L₂ σ₂ c₂ hL₂ hc₂ ↦ ?_
  exact Refines.append (tcpSendAck_spec hL₂ hc₂) (by simp [ackActs]) hc₂ hy

/-- Handling of a FIN. -/
theorem fin_spec (h : L.Holds σ []) (hc : (p, c) ∈ (σ.server L).conns) (seg : Segment) :
    Refines (do
      updateTcb p fun t ↦ { t with rcvNxt := seg.seq + 1 }
      tcpSendAck p
      updateTcb p fun t ↦ { t with state := .closeWait }
      tcpClose p) (Performs p (finActs seg)) L σ := by
  refine Refines.cons (updateTcb_does h hc fun _ _ ↦ rfl) (by simp) hc
    fun L₁ σ₁ c₁ hL₁ hc₁ _ ↦ ?_
  refine Refines.append (tcpSendAck_spec hL₁ hc₁) (by simp [ackActs]) hc₁
    fun L₂ σ₂ c₂ hL₂ hc₂ ↦ ?_
  refine Refines.cons (updateTcb_does hL₂ hc₂ fun _ _ ↦ rfl) (by simp) hc₂
    fun L₃ σ₃ c₃ hL₃ hc₃ hupdate ↦ tcpClose_spec hL₃ hc₃ (.inr ?_)
  rw [show c₃ = _ from hupdate]

/-- The case `TCP_STATE_ESTABLISHED`. -/
theorem establishedInput_spec (h : L.Holds σ []) (hc : (p, c) ∈ (σ.server L).conns)
    (hstate : c.state = .established) (seg : Segment) :
    Refines (establishedInput p seg) (Performs p
      ((if c.Expects seg then acceptActs p seg else []) ++
        (if seg.Has tcpFlagFin then finActs seg else []))) L σ := by
  obtain ⟨next, -, hrun⟩ := h.readConn hc
  have hfin : ∀ L' σ' c', L'.Holds σ' [] → (p, c') ∈ (σ'.server L').conns →
      Refines (do
        if seg.flags &&& tcpFlagFin ≠ 0 then
          updateTcb p fun t ↦ { t with rcvNxt := seg.seq + 1 }
          tcpSendAck p
          updateTcb p fun t ↦ { t with state := .closeWait }
          tcpClose p) (Performs p (if seg.Has tcpFlagFin then finActs seg else [])) L' σ' :=
    fun L' σ' c' hL' hc' ↦ .flagged hL' seg tcpFlagFin (fin_spec hL' hc' seg)
  rw [Refines, establishedInput, wp_bind, wp_of_run hrun]
  dsimp only
  by_cases hexpects : UInt16.ofNat seg.payload.length > 0 ∧ seg.seq = c.rcvNxt
  · rw [if_pos hexpects, if_pos (show c.Expects seg from hexpects)]
    exact accept_spec h hc hstate seg hfin
  · rw [if_neg hexpects, if_neg (show ¬ c.Expects seg from hexpects), List.nil_append]
    exact hfin L σ c h hc

/-- The `switch` of `tcp_input_process` answers the segment. -/
theorem stateMachine_spec (h : L.Holds σ []) (hc : (p, c) ∈ (σ.server L).conns)
    (seg : Segment) : Refines (stateMachine p seg) (Performs p (c.respond p seg)) L σ := by
  obtain ⟨next, -, hrun⟩ := h.readConn hc
  rw [Refines, stateMachine, wp_bind, wp_of_run hrun]
  unfold Conn.respond
  dsimp only
  cases hstate : c.state with
  | closed | listen | closeWait | timeWait =>
      exact Refines.flagged h seg tcpFlagRst (.single (tcpRemoveTcb_spec h hc))
  | established => exact establishedInput_spec h hc hstate seg
  | synReceived =>
      refine Refines.flagged h seg tcpFlagAck ?_
      exact .cons (updateTcb_does h hc fun _ _ ↦ rfl) (by simp) hc
        fun L' σ' c' hL' hc' _ ↦ .single (updateTcb_does hL' hc' fun _ _ ↦ rfl)
  | lastAck =>
      refine Refines.flagged h seg tcpFlagAck ?_
      exact .cons (updateTcb_does h hc fun _ _ ↦ rfl) (by simp) hc
        fun L' σ' c' hL' hc' _ ↦ .single (tcpRemoveTcb_spec hL' hc')

@[simp] theorem length_rstSegment (srcIp dstIp : UInt32) (srcPort dstPort : UInt16)
    (seq ack : UInt32) : (rstSegment srcIp dstIp srcPort dstPort seq ack).length = 20 := by
  simp [rstSegment]

/-- `tcp_send_rst` hands a reset to the IP layer. -/
theorem tcpSendRst_spec (h : L.Holds σ []) (srcIp dstIp : UInt32) (srcPort dstPort : UInt16)
    (seq ack : UInt32) :
    Refines (tcpSendRst srcIp dstIp srcPort dstPort seq ack) (fun s s' ↦
      ∃ e : Event, e.IsTransport ∧ s' = (s.record
        (.reset srcIp dstIp (rstSegment srcIp dstIp srcPort dstPort seq ack))).record e) L σ := by
  let bytes := rstSegment srcIp dstIp srcPort dstPort seq ack
  have hlen : bytes.length = 20 := length_rstSegment ..
  have hrecord := h.record (e := .reset srcIp dstIp bytes) rfl
  have hsend := ipv4Send_spec hrecord dstIp ipProtoTcp (.stack bytes) bytes rfl
    (by rw [hlen]; omega)
  rw [hlen] at hsend
  rw [Refines, tcpSendRst, wp_bind, wp_note]
  refine wp_mono hsend ?_
  rintro _ σ' ⟨L', e, hL', hsame, htransmits, he⟩
  exact ⟨L', hL', (Node.SameAddresses.refl σ).via htransmits.addresses ⟨rfl, rfl⟩,
    e, he.isTransport, htransmits.server hsame⟩

/-- A connection is not opened when there is no memory for its TCB. Otherwise the TCB is set up, and
its synchronisation is answered with what memory is left. -/
theorem passiveOpen_run (h : L.Holds σ []) (seg : Segment) (srcIp dstIp : UInt32) :
    (kmalloc σ.heap sizeofTcb = some (0, σ.heap) ∧
      (passiveOpen seg srcIp dstIp).run σ = some ((), { σ with log := .noMemory :: σ.log })) ∨
    ∃ (p : Nat) (heap : Heap) (L' : Ledger) (σ' : Node),
      kmalloc σ.heap sizeofTcb = some (p, heap) ∧ p ≠ 0 ∧ heap.SameBlocks σ'.heap ∧
      p ∉ (σ.server L).conns.map Prod.fst ∧ L'.Holds σ' [] ∧ σ.SameAddresses σ' ∧
      σ'.server L' = ⟨(p, seg.opened srcIp dstIp σ.tcpGlobalIsn) :: (σ.server L).conns,
        σ.tcpGlobalIsn + 1000, .passiveOpen p σ.tcpGlobalIsn seg.seq :: σ.log⟩ ∧
      (passiveOpen seg srcIp dstIp).run σ = (tcpSendSynack p).run σ' := by
  obtain ⟨p, σ₁, hrun₁, hcase⟩ := tcpAllocateTcb_spec h
  rcases hcase with ⟨hcall, rfl, rfl⟩ |
    ⟨cap, heap, heap₁, hcall, hblocks₁, hne, hfresh, rfl, h₁⟩
  · refine .inl ⟨hcall, ?_⟩
    rw [passiveOpen, run_bind_of_run hrun₁, if_pos rfl]
    rfl
  · let setup : Conn → Conn := fun c ↦ { c with
      remoteIp := srcIp
      remotePort := seg.srcPort
      localPort := seg.dstPort
      localIp := dstIp
      rcvNxt := seg.seq + 1
      sndUna := σ.tcpGlobalIsn
      sndNxt := σ.tcpGlobalIsn }
    have hfresh : p ∉ (σ.server L).conns.map Prod.fst := by
      simpa [Node.server, Function.comp_def] using hfresh
    let assign : Tcb → Tcb := fun t ↦ { t with
      remoteIp := srcIp
      remotePort := seg.srcPort
      localPort := seg.dstPort
      localIp := dstIp
      rcvNxt := seg.seq + 1
      sndUna := σ.tcpGlobalIsn
      sndNxt := σ.tcpGlobalIsn }
    -- the assignments to the TCB are one update, that of its state is another
    obtain ⟨L₂, σ₂, hrun₂, h₂, hu₂, hs₂, hblocks₂⟩ := updateTcb_run (p := p) h₁
      (c := .blank σ.aetherIp) (by simp [mem_conns]) (f := assign) (g := setup) fun _ _ ↦ rfl
    replace hs₂ := hs₂.trans (Server.update_cons hfresh setup)
    have hisn : σ₂.tcpGlobalIsn = σ.tcpGlobalIsn := congrArg Server.isn hs₂
    have hs₂' : Node.server { σ₂ with tcpGlobalIsn := σ₂.tcpGlobalIsn + 1000 } L₂ =
        ⟨(p, setup (.blank σ.aetherIp)) :: (σ.server L).conns, σ.tcpGlobalIsn + 1000, σ.log⟩ :=
      congrArg (fun s : Server ↦ { s with isn := s.isn + 1000 }) hs₂
    obtain ⟨L₃, σ₃, hrun₃, h₃, hu₃, hs₃, hblocks₃⟩ := updateTcb_run (p := p)
      (h₂.isn (σ₂.tcpGlobalIsn + 1000)) (c := setup (.blank σ.aetherIp))
      (by rw [hs₂']; exact List.mem_cons_self) (f := fun t ↦ { t with state := .synReceived })
      (g := fun c ↦ { c with state := .synReceived }) fun _ _ ↦ rfl
    rw [hs₂', Server.update_cons hfresh] at hs₃
    have hs₄ : Node.server { σ₃ with log := .passiveOpen p σ.tcpGlobalIsn seg.seq :: σ₃.log } L₃ =
        ⟨(p, seg.opened srcIp dstIp σ.tcpGlobalIsn) :: (σ.server L).conns,
          σ.tcpGlobalIsn + 1000, .passiveOpen p σ.tcpGlobalIsn seg.seq :: σ.log⟩ :=
      congrArg (fun s : Server ↦ s.record (.passiveOpen p σ.tcpGlobalIsn seg.seq)) hs₃
    have hu : σ.SameAddresses σ₃ :=
      ((Node.SameAddresses.refl σ).via hu₂ ⟨rfl, rfl⟩).via hu₃ ⟨rfl, rfl⟩
    refine .inr ⟨p, heap, L₃, { σ₃ with log := .passiveOpen p σ.tcpGlobalIsn seg.seq :: σ₃.log },
      hcall, hne, hblocks₁.trans (hblocks₂.trans hblocks₃), hfresh, h₃.record rfl,
      ⟨hu.mac, hu.ip⟩, hs₄, ?_⟩
    rw [passiveOpen, run_bind_of_run hrun₁, if_neg hne, run_get_bind, run_bind_of_run hrun₂,
      run_modify_bind, run_bind_of_run hrun₃]
    rfl

/-- A new connection's synchronisation is answered, unless there is no memory for it. -/
theorem passiveOpen_spec (h : L.Holds σ []) (seg : Segment) (srcIp dstIp : UInt32) :
    Refines (passiveOpen seg srcIp dstIp) (fun s s' ↦ s' = s.record .noMemory ∨
      ∃ p, p ∉ s.conns.map Prod.fst ∧ Performs p [.send (tcpFlagSyn ||| tcpFlagAck) []]
        ⟨(p, seg.opened srcIp dstIp s.isn) :: s.conns, s.isn + 1000,
          .passiveOpen p s.isn seg.seq :: s.log⟩ s') L σ := by
  rcases passiveOpen_run h seg srcIp dstIp with ⟨-, hrun⟩ |
    ⟨p, heap, L₁, σ₁, -, -, -, hfresh, h₁, haddresses, hserver, hrun⟩
  · exact ⟨(), _, hrun, L, h.record rfl, ⟨rfl, rfl⟩, .inl rfl⟩
  · have hc : (p, seg.opened srcIp dstIp σ.tcpGlobalIsn) ∈ (σ₁.server L₁).conns := by
      rw [hserver]
      exact List.mem_cons_self
    obtain ⟨⟨⟩, σ', hsend, L', hL', haddresses', hdoes⟩ :=
      tcpSendSegment_does h₁ hc (tcpFlagSyn ||| tcpFlagAck) [] (Nat.zero_le _)
    rw [hserver] at hdoes
    exact ⟨(), σ', hrun.trans hsend, L', hL', haddresses.trans haddresses',
      .inr ⟨p, hfresh, .single hdoes⟩⟩

/-- A segment that belongs to no connection opens one or is answered with a reset. -/
theorem segmentArrives_none (h : L.Holds σ []) {seg : Segment} {srcIp dstIp : UInt32}
    (hfind : (σ.server L).find srcIp seg.srcPort dstIp seg.dstPort = none) :
    (segmentArrives seg srcIp dstIp).run σ =
      (if seg.Opens then passiveOpen seg srcIp dstIp
        else tcpSendRst dstIp srcIp seg.dstPort seg.srcPort seg.ack 0 : Action Unit).run
        { σ with log := .lookup srcIp dstIp seg none :: σ.log } := by
  have hrun := tcpFindTcb_run h srcIp seg.srcPort dstIp seg.dstPort
  rw [hfind, Option.elim_none] at hrun
  rw [segmentArrives, run_bind_of_run hrun, if_pos rfl]
  rfl

/-- A segment that belongs to a connection goes through the `switch`. -/
theorem segmentArrives_some (h : L.Holds σ []) {seg : Segment} {srcIp dstIp : UInt32}
    (hfind : (σ.server L).find srcIp seg.srcPort dstIp seg.dstPort = some (p, c)) :
    (segmentArrives seg srcIp dstIp).run σ = (stateMachine p seg).run
      { σ with log := .lookup srcIp dstIp seg (some (p, c)) :: σ.log } := by
  have hc : (p, c) ∈ (σ.server L).conns := List.mem_of_find?_eq_some hfind
  have hrun := tcpFindTcb_run h srcIp seg.srcPort dstIp seg.dstPort
  obtain ⟨next, -, hread⟩ := h.readConn hc
  rw [hfind, Option.elim_some] at hrun
  rw [segmentArrives, run_bind_of_run hrun, if_neg (h.conn_ne_zero hc), run_bind_of_run hread]
  rfl

/-- A segment that belongs to a connection is recorded and goes through the `switch`. -/
theorem wp_segmentArrives (h : L.Holds σ []) {seg : Segment} {srcIp dstIp : UInt32}
    (hfind : (σ.server L).find srcIp seg.srcPort dstIp seg.dstPort = some (p, c))
    {post : Unit → Node → Prop} :
    wp (segmentArrives seg srcIp dstIp) post σ ↔ wp (stateMachine p seg) post
      { σ with log := .lookup srcIp dstIp seg (some (p, c)) :: σ.log } := by
  unfold wp
  rw [segmentArrives_some h hfind]

/-- A valid segment makes the server receive it. -/
theorem segmentArrives_spec (h : L.Holds σ []) (seg : Segment) (srcIp dstIp : UInt32) :
    Refines (segmentArrives seg srcIp dstIp) (Server.Receives srcIp dstIp seg) L σ := by
  have hfind := tcpFindTcb_run h srcIp seg.srcPort dstIp seg.dstPort
  cases hcase : (σ.server L).find srcIp seg.srcPort dstIp seg.dstPort with
  | none =>
      have hlookup := h.record (e := .lookup srcIp dstIp seg none) rfl
      rw [hcase, Option.elim_none] at hfind
      rw [Refines, segmentArrives, wp_bind, wp_of_run hfind, if_pos rfl]
      by_cases hopens : seg.Opens
      · rw [if_pos (show seg.flags &&& tcpFlagSyn ≠ 0 ∧ seg.dstPort = 80 from hopens)]
        refine (passiveOpen_spec hlookup seg srcIp dstIp).afterNote.mono ?_
        rintro s' (rfl | ⟨p, hfresh, hperforms⟩)
        · exact .refused hcase hopens
        · exact .opened hcase hopens hfresh hperforms
      · rw [if_neg (show ¬ (seg.flags &&& tcpFlagSyn ≠ 0 ∧ seg.dstPort = 80) from hopens)]
        have hreset := tcpSendRst_spec hlookup dstIp srcIp seg.dstPort seg.srcPort seg.ack 0
        refine hreset.afterNote.mono ?_
        rintro s' ⟨e, he, rfl⟩
        exact .reset hcase hopens he
  | some found =>
      obtain ⟨p, c⟩ := found
      have hc : (p, c) ∈ (σ.server L).conns := List.mem_of_find?_eq_some hcase
      have hlookup := h.record (e := .lookup srcIp dstIp seg (some (p, c))) rfl
      rw [Refines, wp_segmentArrives h hcase]
      refine wp_mono (stateMachine_spec hlookup hc seg) ?_
      rintro _ σ' ⟨L', hL', haddresses, hperforms⟩
      exact ⟨L', hL', (Node.SameAddresses.refl σ).via haddresses ⟨rfl, rfl⟩, .found hcase hperforms⟩

/-- A parsed payload is part of the segment. -/
theorem Segment.parse_length {bytes : List UInt8} {seg : Segment}
    (h : Segment.parse bytes = some seg) : seg.payload.length ≤ bytes.length := by
  simp only [Segment.parse] at h
  split at h
  · cases h
  · split at h
    · cases h
    · cases h
      simp

/-- The segment of `len` bytes at `segment` in the receive buffers has a header in order and a valid
checksum, and reads as `seg`. -/
def Node.HasSegment (σ : Node) (segment : Nat) (len : UInt16) (srcIp dstIp : UInt32)
    (seg : Segment) : Prop :=
  Segment.parse (readBytes σ.rxBuffers segment len.toNat) = some seg ∧
    tcpValidateChecksum srcIp dstIp (readBytes σ.rxBuffers segment len.toNat) = true

theorem Node.HasSegment.payload_lt {segment : Nat} {len : UInt16} {srcIp dstIp : UInt32}
    {seg : Segment} (h : σ.HasSegment segment len srcIp dstIp seg) :
    seg.payload.length < 2 ^ 16 := by
  have := Segment.parse_length h.1
  rw [length_readBytes] at this
  exact this.trans_lt len.toNat_lt

/-- A segment in order arrives. -/
theorem wp_tcpInputProcess {segment : Nat} {len : UInt16} {srcIp dstIp : UInt32} {seg : Segment}
    (h : σ.HasSegment segment len srcIp dstIp seg) {post : Unit → Node → Prop} :
    wp (tcpInputProcess segment len srcIp dstIp) post σ ↔
      wp (segmentArrives seg srcIp dstIp) post σ := by
  rw [tcpInputProcess, wp_bind, wp_readRx, h.1]
  dsimp only
  rw [if_pos h.2]

/-- Any other segment is ignored. -/
theorem wp_tcpInputProcess_ignored {segment : Nat} {len : UInt16} {srcIp dstIp : UInt32}
    (h : ∀ seg, ¬ σ.HasSegment segment len srcIp dstIp seg) {post : Unit → Node → Prop} :
    wp (tcpInputProcess segment len srcIp dstIp) post σ ↔ post () σ := by
  rw [tcpInputProcess, wp_bind, wp_readRx]
  cases hparse : Segment.parse (readBytes σ.rxBuffers segment len.toNat) with
  | none => exact wp_pure
  | some seg =>
      dsimp only
      rw [if_neg fun hvalid ↦ h seg ⟨hparse, hvalid⟩, wp_pure]

/-- `tcp_input_process` receives the segment if its header and checksum are in order, and ignores
it otherwise. -/
theorem tcpInputProcess_receives (h : L.Holds σ []) (segment : Nat) (len : UInt16)
    (srcIp dstIp : UInt32) :
    Refines (tcpInputProcess segment len srcIp dstIp) (fun s s' ↦ s' = s ∨
      ∃ seg, σ.HasSegment segment len srcIp dstIp seg ∧
        Server.Receives srcIp dstIp seg s s') L σ := by
  by_cases hseg : ∃ seg, σ.HasSegment segment len srcIp dstIp seg
  · obtain ⟨seg, hseg⟩ := hseg
    rw [Refines, wp_tcpInputProcess hseg]
    refine wp_mono (segmentArrives_spec h seg srcIp dstIp) ?_
    rintro _ σ' ⟨L', hL', haddresses, hreceives⟩
    exact ⟨L', hL', haddresses, .inr ⟨seg, hseg, hreceives⟩⟩
  · rw [Refines, wp_tcpInputProcess_ignored fun seg h ↦ hseg ⟨seg, h⟩]
    exact ⟨L, h, .refl σ, .inl rfl⟩

/-- `tcp_input_process` makes a run of the server. -/
theorem tcpInputProcess_spec (h : L.Holds σ []) (segment : Nat) (len : UInt16)
    (srcIp dstIp : UInt32) :
    Refines (tcpInputProcess segment len srcIp dstIp) (Server.Run dstIp) L σ := by
  refine (tcpInputProcess_receives h segment len srcIp dstIp).mono ?_
  rintro s' (rfl | ⟨seg, hseg, hreceives⟩)
  · exact .refl
  · exact .single (.receive hseg.payload_lt hreceives)

end Input

end Aether.Ethernet
