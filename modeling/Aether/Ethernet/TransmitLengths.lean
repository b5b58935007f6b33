import Aether.Ethernet.Connections
import Aether.Ethernet.TcpSpec
import Aether.Kernel.HeapRuns
import Aether.Lib.Effects

/-!
# The lengths of a transmission

`ethernet_send`, `ipv4_send` and `tcp_send_segment` once more. What a sender writes has to lie in
the block that it asked for, and every length that it hands on or puts into a header has to be the
true one; anything else is undefined behaviour. `transmit_lengths_exact` says for which payloads
that never happens.
-/

namespace Aether.Ethernet

open ByteMemory Kernel Drivers Common Program

namespace Measured

/-! ## The senders -/

/-- What the lengths are relied on for. -/
def require (P : Prop) [Decidable P] : Action Unit := if P then pure () else fault

/-- Write into the block of `size` bytes at `block`. -/
def writeBlock (block size a : Nat) (bs : List UInt8) : Action Unit :=
  if block ≤ a ∧ a + bs.length ≤ block + size then writeHeap a bs else fault

/-- `ethernet_send`. The descriptor's length is that of the frame. -/
def ethernetSend (destMac : Mac) (ethertype : UInt16) (payload : Pointer) (len : UInt32) :
    Action Unit := do
  let σ ← get
  if σ.globalVnetDev.any (·.txVq) then
    let totalLen := sizeofVirtioNetHdr + 14 + len
    let buffer ← callKmalloc totalLen.toNat
    if buffer = 0 then pure ()
    else
      writeBlock buffer totalLen.toNat buffer (List.replicate 10 0)
      writeBlock buffer totalLen.toNat (buffer + 10)
        (EthHeader.mk destMac σ.aetherMac (htons ethertype)).bytes
      writeBlock buffer totalLen.toNat (buffer + 24) (← readPointer payload len.toNat)
      let frame ← readHeap buffer totalLen.toNat
      note (if (← get).txQueue.numFree = 0 then .ringFull else .transmitted frame)
      require (totalLen.toNat = 10 + 14 + len.toNat)
      let head ← addTxDescriptor buffer totalLen
      pushTxAvailable head
  else pure ()

/-- `ipv4_send`. The header's `total_len` is that of the packet. -/
def ipv4Send (dstIp : UInt32) (protocol : UInt8) (payload : Pointer) (payloadLen : UInt32) :
    Action Unit := do
  let σ ← get
  if σ.globalVnetDev.isNone then pure ()
  else
    let totalLen := 20 + payloadLen
    let pkt ← callKmalloc totalLen.toNat
    if pkt = 0 then pure ()
    else
      writeBlock pkt totalLen.toNat pkt (List.replicate totalLen.toNat 0)
      let ip := ipv4Header σ.aetherIp dstIp protocol totalLen
      require ((ntohs ip.totalLen).toNat = 20 + payloadLen.toNat)
      writeBlock pkt totalLen.toNat pkt ip.bytes
      let checksum := ipv4Checksum (← readHeap pkt 20)
      writeBlock pkt totalLen.toNat (pkt + 10) (leBytes 2 checksum.toNat)
      writeBlock pkt totalLen.toNat (pkt + 20) (← readPointer payload payloadLen.toNat)
      ethernetSend gatewayMac ethTypeIpv4 (.heap pkt) totalLen
      callKfree pkt

/-- `tcp_send_segment`. The length that the checksum runs over is that of the segment. -/
def tcpSendSegment (tcb : Nat) (flags : UInt8) (payload : List UInt8) : Action Unit := do
  if tcb = 0 then pure ()
  else
    let payloadLen := UInt16.ofNat payload.length
    let totalLen : UInt16 := 20 + payloadLen
    let buffer ← callKmalloc totalLen.toNat
    if buffer = 0 then pure ()
    else
      let t ← readTcb tcb
      writeBlock buffer totalLen.toNat buffer (t.header flags).bytes
      writeBlock buffer totalLen.toNat (buffer + 20) payload
      let segment ← readHeap buffer totalLen.toNat
      require (totalLen.toNat = 20 + payload.length)
      let checksum := tcpComputeChecksum t.localIp t.remoteIp segment
      writeBlock buffer totalLen.toNat (buffer + 16) (leBytes 2 checksum.toNat)
      let segment ← readHeap buffer totalLen.toNat
      note (.handed tcb t.toConn segment)
      ipv4Send t.remoteIp ipProtoTcp (.heap buffer) totalLen.toUInt32
      if flags &&& (tcpFlagSyn ||| tcpFlagFin) ≠ 0 then
        updateTcb tcb fun t ↦ { t with sndNxt := t.sndNxt + 1 }
      updateTcb tcb fun t ↦ { t with sndNxt := t.sndNxt + payloadLen.toUInt32 }

/-! ## What the checks leave -/

section Erasure

/-- A requirement does nothing. -/
theorem erases_require {α : Type} {P : Prop} [Decidable P] {f : Unit → Action α} {y : Action α}
    (h : Erases (f ()) y) : Erases (require P >>= f) y := by
  intro σ r hrun
  obtain ⟨_, σ', hx, hf⟩ := run_bind_eq_some.mp hrun
  unfold require at hx
  split at hx
  · cases hx
    exact h σ r hf
  · cases hx

/-- A write that is made is made. -/
theorem erases_writeBlock {block size a : Nat} {bs : List UInt8} :
    Erases (writeBlock block size a bs) (writeHeap a bs) := by
  intro σ r hrun
  unfold writeBlock at hrun
  split at hrun
  · exact hrun
  · cases hrun

theorem erases_ethernetSend {destMac : Mac} {ethertype : UInt16} {payload : Pointer}
    {len : UInt32} : Erases (ethernetSend destMac ethertype payload len)
      (Ethernet.ethernetSend destMac ethertype payload len) := by
  refine .bind (.refl _) fun σ ↦ .ite (.bind (.refl _) fun buffer ↦ .ite (.refl _) ?_) (.refl _)
  refine .bind erases_writeBlock fun _ ↦ .bind erases_writeBlock fun _ ↦ ?_
  refine .bind (.refl _) fun bytes ↦ .bind erases_writeBlock fun _ ↦ ?_
  refine .bind (.refl _) fun frame ↦ .bind (.refl _) fun σ' ↦ .bind (.refl _) fun _ ↦ ?_
  exact erases_require (.refl _)

theorem erases_ipv4Send {dstIp : UInt32} {protocol : UInt8} {payload : Pointer}
    {payloadLen : UInt32} : Erases (ipv4Send dstIp protocol payload payloadLen)
      (Ethernet.ipv4Send dstIp protocol payload payloadLen) := by
  refine .bind (.refl _) fun σ ↦ .ite (.refl _) (.bind (.refl _) fun pkt ↦ .ite (.refl _) ?_)
  refine .bind erases_writeBlock fun _ ↦ erases_require (.bind erases_writeBlock fun _ ↦ ?_)
  refine .bind (.refl _) fun header ↦ .bind erases_writeBlock fun _ ↦ ?_
  refine .bind (.refl _) fun bytes ↦ .bind erases_writeBlock fun _ ↦ ?_
  exact .bind erases_ethernetSend fun _ ↦ .refl _

/-- With its checks `tcp_send_segment` does nothing else than without. -/
theorem erases_tcpSendSegment {tcb : Nat} {flags : UInt8} {payload : List UInt8} :
    Erases (tcpSendSegment tcb flags payload) (Ethernet.tcpSendSegment tcb flags payload) := by
  refine .ite (.refl _) (.bind (.refl _) fun buffer ↦ .ite (.refl _) (.bind (.refl _) fun t ↦ ?_))
  refine .bind erases_writeBlock fun _ ↦ .bind erases_writeBlock fun _ ↦ ?_
  refine .bind (.refl _) fun segment ↦ erases_require (.bind erases_writeBlock fun _ ↦ ?_)
  refine .bind (.refl _) fun segment' ↦ .bind (.refl _) fun _ ↦ ?_
  exact .bind erases_ipv4Send fun _ ↦ .refl _

end Erasure

/-! ## Lengths that fit -/

section Fits

variable {α : Type}

theorem writeBlock_inside {block size a : Nat} {bs : List UInt8} (hlow : block ≤ a)
    (hhigh : a + bs.length ≤ block + size) : writeBlock block size a bs = writeHeap a bs :=
  if_pos ⟨hlow, hhigh⟩

theorem writeBlock_outside {block size a : Nat} {bs : List UInt8}
    (h : block + size < a + bs.length) (σ : Node) : (writeBlock block size a bs).run σ = none := by
  rw [writeBlock, if_neg fun hinside ↦ Nat.not_le.mpr h hinside.2]
  rfl

theorem require_bind {P : Prop} [Decidable P] (h : P) (f : Unit → Action α) :
    (require P >>= f) = f () := by
  rw [require, if_pos h, pure_bind]

/-- At most the bytes that were asked for come through a pointer. -/
theorem readPointer_bind_congr (ptr : Pointer) (n : Nat) {f g : List UInt8 → Action α}
    (h : ∀ bs, bs.length ≤ n → f bs = g bs) :
    (readPointer ptr n >>= f) = (readPointer ptr n >>= g) := by
  cases ptr with
  | heap addr =>
      refine (bind_assoc ..).trans (.trans (bind_congr fun σ ↦ ?_) (bind_assoc ..).symm)
      rw [pure_bind, pure_bind, h _ (length_readBytes ..).le]
  | stack bytes =>
      show (pure (bytes.take n) >>= f) = (pure (bytes.take n) >>= g)
      rw [pure_bind, pure_bind, h _ (List.length_take_le ..)]

/-- The lengths of `ethernet_send` are right up to 32 bits. -/
theorem ethernetSend_fits {len : UInt32} (hlen : len.toNat + 24 < 2 ^ 32) (destMac : Mac)
    (ethertype : UInt16) (payload : Pointer) : ethernetSend destMac ethertype payload len =
      Ethernet.ethernetSend destMac ethertype payload len := by
  have htotal := toNat_frameLength hlen
  unfold ethernetSend Ethernet.ethernetSend
  dsimp only
  rw [htotal]
  refine bind_congr fun σ ↦ if_congr .rfl (bind_congr fun buffer ↦ if_congr .rfl rfl ?_) rfl
  rw [writeBlock_inside le_rfl (by simp; omega),
    writeBlock_inside (Nat.le_add_right ..) (by simp; omega)]
  refine bind_congr fun _ ↦ bind_congr fun _ ↦ readPointer_bind_congr _ _ fun bytes hbytes ↦ ?_
  rw [writeBlock_inside (Nat.le_add_right ..) (by omega)]
  refine bind_congr fun _ ↦ bind_congr fun frame ↦ bind_congr fun σ' ↦ bind_congr fun _ ↦ ?_
  exact require_bind rfl _

/-- The lengths of `ipv4_send` are right up to the largest packet. -/
theorem ipv4Send_fits {payloadLen : UInt32} (hlen : 20 + payloadLen.toNat ≤ 65535) (dstIp : UInt32)
    (protocol : UInt8) (payload : Pointer) : ipv4Send dstIp protocol payload payloadLen =
      Ethernet.ipv4Send dstIp protocol payload payloadLen := by
  have htotal : (20 + payloadLen).toNat = 20 + payloadLen.toNat := by
    rw [UInt32.toNat_add]
    exact Nat.mod_eq_of_lt (by simp only [UInt32.reduceToNat]; omega)
  have hfield : ∀ σ : Node,
      (ntohs (ipv4Header σ.aetherIp dstIp protocol (20 + payloadLen)).totalLen).toNat =
        20 + payloadLen.toNat := by
    intro σ
    rw [ipv4Header, ntohs_htons, UInt32.toNat_toUInt16, htotal]
    exact Nat.mod_eq_of_lt (by omega)
  unfold ipv4Send Ethernet.ipv4Send
  dsimp only
  rw [htotal]
  refine bind_congr fun σ ↦ if_congr .rfl rfl (bind_congr fun pkt ↦ if_congr .rfl rfl ?_)
  rw [writeBlock_inside le_rfl (by simp)]
  refine bind_congr fun _ ↦ (require_bind (hfield σ) _).trans ?_
  rw [writeBlock_inside le_rfl (by simp)]
  refine bind_congr fun _ ↦ bind_congr fun header ↦ ?_
  rw [writeBlock_inside (Nat.le_add_right ..) (by simp; omega)]
  refine bind_congr fun _ ↦ readPointer_bind_congr _ _ fun bytes hbytes ↦ ?_
  rw [writeBlock_inside (Nat.le_add_right ..) (by omega), ethernetSend_fits (by omega)]

/-- The lengths of `tcp_send_segment` are right up to the payload of the largest packet. -/
theorem tcpSendSegment_fits {payload : List UInt8} (hlen : payload.length ≤ 65495) (tcb : Nat)
    (flags : UInt8) : tcpSendSegment tcb flags payload =
      Ethernet.tcpSendSegment tcb flags payload := by
  have htotal := toNat_segmentLen (show payload.length ≤ 65515 by omega)
  unfold tcpSendSegment Ethernet.tcpSendSegment
  dsimp only
  rw [htotal]
  refine if_congr .rfl rfl (bind_congr fun buffer ↦ if_congr .rfl rfl (bind_congr fun t ↦ ?_))
  rw [writeBlock_inside le_rfl (by simp), writeBlock_inside (Nat.le_add_right ..) (by omega)]
  refine bind_congr fun _ ↦ bind_congr fun _ ↦ bind_congr fun segment ↦ ?_
  rw [require_bind rfl, writeBlock_inside (Nat.le_add_right ..) (by simp; omega)]
  refine bind_congr fun _ ↦ bind_congr fun segment' ↦ bind_congr fun _ ↦ ?_
  rw [ipv4Send_fits (by rw [UInt16.toNat_toUInt32, htotal]; omega)]

end Fits

end Measured

/-! ## One segment -/

/-- A call of `tcp_send_segment` writes inside the blocks that were asked for it and takes every
length for what it is. A payload whose packet is too long for the header's 16 bits is refused. -/
def Node.SendsExactly (σ : Node) (tcb : Nat) (flags : UInt8) (payload : List UInt8) : Prop :=
  ∃ σ', (Measured.tcpSendSegment tcb flags payload).run σ = some ((), σ') ∧
    (65535 < 20 + (20 + payload.length) → σ' = { σ with log := σ'.log })

section Segment

variable {L : Ledger} {σ : Node} {p : Nat} {c : Conn} {flags : UInt8} {payload : List UInt8}

/-- What `tcp_send_segment` asks for is refused: nothing happens. -/
theorem Ledger.Holds.sendsExactly_of_refuses (h : L.Holds σ []) (hc : (p, c) ∈ (σ.server L).conns)
    (hrefuses : σ.heap.Refuses (20 + UInt16.ofNat payload.length).toNat) :
    σ.SendsExactly p flags payload := by
  have hsize : (20 + UInt16.ofNat payload.length).toNat < 2 ^ 32 :=
    (UInt16.toNat_lt _).trans (by decide)
  obtain ⟨buffer, σ₁, hrun, hcase⟩ := h.callKmalloc _ hsize
  have hnull := (h.owns.kmalloc_eq_null hsize (kmalloc_of_run hrun)).mpr hrefuses
  rcases hcase with ⟨-, rfl⟩ | ⟨_, _, hne, -⟩
  · refine ⟨{ σ with log := .noMemory :: σ.log }, ?_, fun _ ↦ rfl⟩
    rw [Measured.tcpSendSegment, if_neg (h.conn_ne_zero hc), run_bind_of_run hrun, if_pos hnull]
    rfl
  · exact absurd hnull hne

/-- A segment whose length does not fit 16 bits is written past the end of its block. -/
theorem Ledger.Holds.overruns (h : L.Holds σ []) (hc : (p, c) ∈ (σ.server L).conns)
    (hwraps : 65515 < payload.length) (hlen : payload.length < 65536)
    (hroom : ¬ σ.heap.Refuses (20 + UInt16.ofNat payload.length).toNat) :
    (Measured.tcpSendSegment p flags payload).run σ = none := by
  have htotal : (20 + UInt16.ofNat payload.length).toNat = payload.length - 65516 := by
    rw [UInt16.toNat_add, UInt16.toNat_ofNat_of_lt' (by rw [UInt16.size]; omega)]
    simp only [UInt16.reduceToNat]
    omega
  rw [htotal] at hroom
  obtain ⟨buffer, σ₁, hrun, hcase⟩ := h.callKmalloc (payload.length - 65516) (by omega)
  have hnull := h.owns.kmalloc_eq_null (by omega) (kmalloc_of_run hrun)
  rcases hcase with ⟨hzero, -⟩ | ⟨cap, heap, hne, -, rfl, hheld, -⟩
  · exact absurd (hnull.mp hzero) hroom
  · obtain ⟨next, -, hread⟩ := hheld.readConn (p := p) (c := c) hc
    rw [Measured.tcpSendSegment, if_neg (h.conn_ne_zero hc)]
    dsimp only
    rw [htotal, run_bind_of_run hrun, if_neg hne, run_bind_of_run hread, StateT.run_bind,
      Measured.writeBlock_outside (by rw [TcpHdr.length_bytes]; omega)]
    rfl

/-- Sending a payload moves the sequence number. -/
theorem Conn.advance_ne (c : Conn) (flags : UInt8) (hpos : 0 < payload.length)
    (hlen : payload.length < 65536) : c.advance flags payload ≠ c := by
  intro heq
  have hlength : (UInt16.ofNat payload.length).toUInt32.toNat = payload.length := by
    rw [UInt16.toNat_toUInt32, UInt16.toNat_ofNat_of_lt' (by rw [UInt16.size]; omega)]
  have hnext := congrArg (fun c : Conn ↦ c.sndNxt.toNat) heq
  have hbound := c.sndNxt.toNat_lt
  simp only [advance, UInt32.toNat_add, hlength] at hnext
  split at hnext
  · simp only [UInt32.toNat_add, UInt32.reduceToNat] at hnext
    omega
  · omega

/-- A segment that has its block but is too long for a packet is not refused. -/
theorem Ledger.Holds.changes (h : L.Holds σ []) (hc : (p, c) ∈ (σ.server L).conns)
    (hlong : 65495 < payload.length) (hlen : payload.length ≤ 65515)
    (hroom : ¬ σ.heap.Refuses (20 + payload.length)) : ¬ σ.SendsExactly p flags payload := by
  intro hsends
  obtain ⟨σ', hrun, hsame⟩ := hsends
  have hrun' := Measured.erases_tcpSendSegment σ _ hrun
  obtain ⟨L', h', -, hcase⟩ := wp_run (tcpSendSegment_fate h hc flags payload hlen) hrun'
  rcases hcase with ⟨hcall, -⟩ | ⟨_, _, -, -, -, e, -, hserver⟩
  · exact hroom ((h.owns.kmalloc_eq_null (by omega) hcall).mp rfl)
  · have hconns : (σ'.server L').conns = (σ.server L).conns := by
      have heq := h'.connections_eq
      rw [hsame (by omega)] at heq
      exact Option.some.inj (heq.symm.trans h.connections_eq)
    have hmoved : (p, c.advance flags payload) ∈ (σ.server L).conns := by
      rw [← hconns, hserver]
      exact Server.mem_update hc _
    -- two connections of one TCB
    obtain ⟨_, -, hread⟩ := h.readConn hc
    obtain ⟨_, -, hread'⟩ := h.readConn hmoved
    have htcb := congrArg Prod.fst (Option.some.inj (hread.symm.trans hread'))
    exact c.advance_ne flags (by omega) (by omega) (congrArg Tcb.toConn htcb).symm

/-- A segment is sent as its lengths say when it fits a packet, and not at all when there is no room
for what is asked for it. -/
theorem Ledger.Holds.sendsExactly_iff (h : L.Holds σ []) (hc : (p, c) ∈ (σ.server L).conns)
    (hlen : payload.length < 65536) : σ.SendsExactly p flags payload ↔
      payload.length ≤ 65495 ∨ σ.heap.Refuses (20 + UInt16.ofNat payload.length).toNat := by
  constructor
  · intro hsends
    by_contra hneither
    obtain ⟨hlong, hroom⟩ := not_or.mp hneither
    rcases Nat.lt_or_ge 65515 payload.length with hwraps | hfits
    · obtain ⟨σ', hrun, -⟩ := hsends
      cases hrun.symm.trans (h.overruns hc hwraps hlen hroom)
    · rw [toNat_segmentLen hfits] at hroom
      exact h.changes hc (Nat.not_le.mp hlong) hfits hroom hsends
  · intro hcase
    rcases hcase with hfits | hrefuses
    · obtain ⟨_, σ', hrun, -⟩ := tcpSendSegment_fate h hc flags payload (by omega)
      refine ⟨σ', ?_, fun hlong ↦ by omega⟩
      rw [Measured.tcpSendSegment_fits hfits]
      exact hrun
    · exact h.sendsExactly_of_refuses hc hrefuses

end Segment

/-- `tcp_send_segment` sends a payload as its lengths say, or refuses it, exactly when the packet
fits the 16 bits of its header or there is no room for as much of the segment as fits 16 bits. -/
theorem transmit_lengths_exact (σ : Node) (h : σ.InOrder) (conns : List (Nat × Conn))
    (hconns : σ.connections = some conns) (p : Nat) (d : Conn) (hd : (p, d) ∈ conns)
    (flags : UInt8) (payload : List UInt8) (hlen : payload.length < 65536) :
    σ.SendsExactly p flags payload ↔
      payload.length ≤ 65495 ∨ σ.heap.Refuses (20 + UInt16.ofNat payload.length).toNat := by
  obtain ⟨L, hL⟩ := h
  rw [hL.connections_eq, Option.some.injEq] at hconns
  exact hL.sendsExactly_iff (hconns ▸ hd) hlen

/-- The sample node can send the largest payload. -/
theorem transmit_lengths_exact_largest : ∃ σ p d, Setup.sample.Reaches σ ∧
    σ.connections = some [(p, d)] ∧
    σ.SendsExactly p tcpFlagAck (List.replicate 65495 0) := by
  obtain ⟨σ, -, hreaches, hlength⟩ := Setup.exec_any .sample
    [.fromPeer 100 0 tcpFlagSyn []]
    (fun σ : Node ↦ σ.connections.any fun conns : List (Nat × Conn) ↦ conns.length == 1)
    (by decide +kernel)
  obtain ⟨conns, hconns, hone⟩ := (Option.any_eq_true _ _).mp hlength
  obtain ⟨⟨p, d⟩, rfl⟩ := List.length_eq_one_iff.mp (beq_iff_eq.mp hone)
  refine ⟨σ, p, d, hreaches, hconns, ?_⟩
  exact (transmit_lengths_exact σ hreaches.inOrder [(p, d)] hconns p d (by simp) tcpFlagAck _
    (by rw [List.length_replicate]; omega)).mpr (.inl (by rw [List.length_replicate]))

/-- With one byte more the header's length is wrong, and with 21 more the block is written past its
end. -/
theorem transmit_lengths_wrap : ∃ σ p d, Setup.sample.Reaches σ ∧
    σ.connections = some [(p, d)] ∧
    ¬ σ.SendsExactly p tcpFlagAck (List.replicate 65496 0) ∧
    ¬ σ.SendsExactly p tcpFlagAck (List.replicate 65516 0) := by
  obtain ⟨σ, -, hreaches, hP⟩ := Setup.exec_any .sample
    [.fromPeer 100 0 tcpFlagSyn []]
    (fun σ : Node ↦ (σ.connections.any fun conns : List (Nat × Conn) ↦ conns.length == 1) &&
      decide (σ.heap.heapPtr + 65560 ≤ heapEnd))
    (by decide +kernel)
  obtain ⟨hlength, hroom⟩ := Bool.and_eq_true_iff.mp hP
  have hroom := of_decide_eq_true hroom
  obtain ⟨conns, hconns, hone⟩ := (Option.any_eq_true _ _).mp hlength
  obtain ⟨⟨p, d⟩, rfl⟩ := List.length_eq_one_iff.mp (beq_iff_eq.mp hone)
  obtain ⟨L, hL⟩ := hreaches.inOrder
  have hd : (p, d) ∈ (σ.server L).conns := by
    rw [← Option.some.inj (hconns.symm.trans hL.connections_eq)]
    exact List.mem_singleton_self _
  -- from 65496 bytes on neither the length fits nor is the heap full
  have hnot : ∀ n, 65495 < n → n < 65536 → ¬ σ.SendsExactly p tcpFlagAck (List.replicate n 0) := by
    intro n hlong hlen hsends
    rw [hL.sendsExactly_iff hd (by rwa [List.length_replicate]), List.length_replicate] at hsends
    rcases hsends with hfits | ⟨-, hfull⟩
    · exact absurd hfits (Nat.not_le.mpr hlong)
    · have hsize := (20 + UInt16.ofNat n).toNat_lt
      rw [alignSize, sizeofMemHeader] at hfull
      omega
  exact ⟨σ, p, d, hreaches, hconns, hnot 65496 (by omega) (by omega),
    hnot 65516 (by omega) (by omega)⟩

end Aether.Ethernet
