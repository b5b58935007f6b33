import Aether.Ethernet.Acceptance
import Aether.Ethernet.Responses
import Aether.Kernel.HeapRuns

/-!
# Frames that should be dropped

The stack's documentation promises to filter by destination address and to drop fragments. The
handlers do neither, so such a frame is answered like any other. `Node.Idles` lists the requests
that happen to leave no trace, and they are the only ones for which the promise is kept.
-/

namespace Aether.Ethernet

open ByteMemory Kernel Drivers Common Program Transition

/-! ## What is promised -/

/-- The frame is for one station other than the node. -/
def ForeignUnicast (σ : Node) (data : Nat) (len : UInt32) : Prop :=
  let dest := (EthHeader.ofBytes (readBytes σ.rxBuffers data 14)).destMac
  14 ≤ len.toNat ∧ dest.bytes.headD 0 &&& 1 = 0 ∧ dest ≠ σ.aetherMac

/-- The frame carries a part of an IPv4 packet: more fragments follow, or it has an offset. -/
def CarriesFragment (σ : Node) (data : Nat) (len : UInt32) : Prop :=
  14 + 20 ≤ len.toNat ∧ etherType σ.rxBuffers data = ethTypeIpv4 ∧
    ntohs (ipv4At σ.rxBuffers data).flagsFragment &&& 0x3FFF ≠ 0

instance (σ : Node) (data : Nat) (len : UInt32) : Decidable (ForeignUnicast σ data len) :=
  inferInstanceAs (Decidable (_ ∧ _))

instance (σ : Node) (data : Nat) (len : UInt32) : Decidable (CarriesFragment σ data len) :=
  inferInstanceAs (Decidable (_ ∧ _))

/-- No frame was published on the way from `σ` to `σ'`, and the ARP cache, the TCB list and the
heap, with the TCBs in it, are as they were. -/
structure Node.Undisturbed (σ σ' : Node) : Prop where
  silent : ∀ frame, σ'.log.count (.transmitted frame) = σ.log.count (.transmitted frame)
  arpCache : σ'.arpCache = σ.arpCache
  tcpTcbList : σ'.tcpTcbList = σ.tcpTcbList
  heap : σ'.heap = σ.heap

/-- The documented rules hold for the `len` bytes at `data`. -/
def Node.ObeysDropRules (σ : Node) (data : Nat) (len : UInt32) : Prop :=
  ForeignUnicast σ data len ∨ CarriesFragment σ data len →
    ∃ σ', (ethernetHandlePacket data len).run σ = some ((), σ') ∧ σ.Undisturbed σ'

/-! ## What leaves no trace -/

/-- A packet that is handed to `ipv4_send` leaves no trace in the heap: there is no memory for it,
or it is what the free block that is taken for it holds already, and there is none for its frame. -/
def Absorbs (heap : Heap) (packet : List UInt8) : Prop :=
  heap.Refuses packet.length ∨
    ∃ p heap', kmalloc heap packet.length = some (p, heap') ∧ p ≠ 0 ∧
      heap'.heapPtr = heap.heapPtr ∧ readBytes heap.mem p packet.length = packet ∧
      heap'.Refuses (24 + packet.length)

/-- The ARP packet teaches the node nothing, and is no request for its address or there is no memory
for the reply. -/
def Node.IdlesArp (σ : Node) (arp : ArpPacket) : Prop :=
  arpCacheInsert (htonl arp.senderIp) arp.senderMac σ.arpCache = σ.arpCache ∧
    (htons arp.opcode = 1 → htonl arp.targetIp = σ.aetherIp →
      σ.heap.Refuses (24 + 28))

/-- The segment is ignored by the connection that it belongs to, or belongs to none and there is
memory neither for a connection nor for a reset. -/
def Node.IdlesSegment (σ : Node) (srcIp dstIp : UInt32) (seg : Segment) : Prop :=
  ∀ conns, σ.connections = some conns →
    match conns.find? fun e ↦ e.2.Matches srcIp seg.srcPort dstIp seg.dstPort with
    | some found => found.2.Ignores seg
    | none =>
        if seg.Opens then σ.heap.Refuses sizeofTcb
        else Absorbs σ.heap (ipv4Packet σ.aetherIp srcIp ipProtoTcp (resetSegment srcIp dstIp seg))

/-- What the frame asks for, if anything, leaves no trace. -/
def Node.Idles (σ : Node) : Option Request → Prop
  | none => True
  | some (.arp packet) => σ.IdlesArp packet
  | some (.segment srcIp dstIp seg) => σ.IdlesSegment srcIp dstIp seg

/-! ## Requests that leave no trace -/

section Requests

variable {σ σ' : Node} {L : Ledger}

theorem Node.Undisturbed.connections (h : σ.Undisturbed σ') : σ'.connections = σ.connections := by
  unfold Node.connections
  rw [h.heap, h.tcpTcbList]

/-- Recording anything but a published frame disturbs nothing. -/
theorem Node.undisturbed_record {e : Event} (he : ∀ frame, e ≠ .transmitted frame) :
    σ.Undisturbed { σ with log := e :: σ.log } :=
  ⟨fun frame ↦ List.count_cons_of_ne (he frame), rfl, rfl, rfl⟩

/-- It does not matter either before something else happens. -/
theorem Node.undisturbed_after {e : Event} (he : ∀ frame, e ≠ .transmitted frame) :
    Node.Undisturbed { σ with log := e :: σ.log } σ' ↔ σ.Undisturbed σ' := by
  have hcount : ∀ frame, (e :: σ.log).count (.transmitted frame) =
      σ.log.count (.transmitted frame) := fun frame ↦ List.count_cons_of_ne (he frame)
  constructor
  · intro h
    exact ⟨fun frame ↦ (h.silent frame).trans (hcount frame), h.arpCache, h.tcpTcbList, h.heap⟩
  · intro h
    exact ⟨fun frame ↦ (h.silent frame).trans (hcount frame).symm, h.arpCache, h.tcpTcbList, h.heap⟩

/-- An ARP packet that is accepted leaves no trace exactly when `IdlesArp` says so. -/
theorem arpArrives_undisturbed (h : L.Holds σ []) (arp : ArpPacket) :
    ∃ σ', (arpArrives arp).run σ = some ((), σ') ∧ (σ.Undisturbed σ' ↔ σ.IdlesArp arp) := by
  let learned : Node :=
    { σ with arpCache := arpCacheInsert (htonl arp.senderIp) arp.senderMac σ.arpCache }
  have hquiet : σ.Undisturbed learned ↔
      arpCacheInsert (htonl arp.senderIp) arp.senderMac σ.arpCache = σ.arpCache :=
    ⟨fun hsame ↦ hsame.arpCache, fun hsame ↦ ⟨fun _ ↦ rfl, hsame, rfl, rfl⟩⟩
  unfold arpArrives Node.IdlesArp
  rw [run_modify_bind]
  by_cases hopcode : htons arp.opcode = 1
  · rw [if_neg (not_not.mpr hopcode), run_get_bind]
    by_cases htarget : htonl arp.targetIp = σ.aetherIp
    · rw [if_neg (not_not.mpr htarget)]
      have hlearned : L.Holds learned [] :=
        h.outside σ.netStats σ.rxQueue σ.rxBuffers _
      have hlength : (arpReply σ.aetherMac σ.aetherIp arp).bytes.length = 28 :=
        ArpPacket.length_bytes _
      obtain ⟨_, σ', hrun, hcase⟩ := ethernetSend_queues hlearned arp.senderMac ethTypeArp
        (.stack (arpReply σ.aetherMac σ.aetherIp arp).bytes) _ rfl (by rw [hlength]; omega)
      rw [hlength] at hrun hcase
      refine ⟨σ', hrun, ?_⟩
      -- a reply leaves no trace only where there is no memory for it
      rcases hcase with ⟨hcall, rfl⟩ | ⟨q, cap, _, heap, hcall, hne, howns, rfl, -⟩
      · have hrefuses : σ.heap.Refuses (24 + 28) :=
          (h.owns.kmalloc_eq_null (by decide) hcall).mp rfl
        refine ⟨fun hsame ↦ ⟨hsame.arpCache, fun _ _ ↦ hrefuses⟩, fun hidle ↦ ?_⟩
        exact ⟨fun _ ↦ List.count_cons_of_ne (by simp), hidle.1, rfl, rfl⟩
      · refine iff_of_false (fun hsame ↦ ?_) fun hidle ↦ ?_
        · have hheap : heap = σ.heap := hsame.heap
          exact h.owns.not_cons ⟨q, cap⟩ (hheap ▸ howns)
        · exact hne ((h.owns.kmalloc_eq_null (by decide) hcall).mpr (hidle.2 hopcode htarget))
    · rw [if_pos htarget]
      exact ⟨learned, rfl, hquiet.trans (by simp [htarget])⟩
  · rw [if_pos hopcode]
    exact ⟨learned, rfl, hquiet.trans (by simp [hopcode])⟩

/-- A packet leaves no trace exactly when it is absorbed. -/
theorem PacketFate.undisturbed (h : L.Holds σ []) {packet : List UInt8}
    (hsmall : 24 + packet.length < 2 ^ 32) (hfate : PacketFate L σ [] packet σ') :
    σ.Undisturbed σ' ↔ Absorbs σ.heap packet := by
  have hpacket := Nat.lt_of_add_left_lt hsmall
  -- the packet's bytes do not matter to the allocator
  have hwritten : ∀ p heap, kmalloc σ.heap packet.length = some (p, heap) → p ≠ 0 →
      ((heap.write p packet).Refuses (24 + packet.length) ↔
        heap.Refuses (24 + packet.length)) := by
    intro p heap hcall hne
    obtain ⟨cap, hfits, howns⟩ := h.owns.kmalloc_some hpacket hcall hne
    have hblocks := howns.sameBlocks_write List.mem_cons_self p packet le_rfl
      (Nat.add_le_add_left hfits p)
    exact hblocks.refuses_iff _
  unfold Absorbs
  cases hfate with
  | noPacket hcall =>
      refine iff_of_true (Node.undisturbed_record (by simp)) (.inl ?_)
      exact (h.owns.kmalloc_eq_null hpacket hcall).mp rfl
  | @noFrame p cap heap hcall hne hfits hheld hnull =>
      have hserved := mt (h.owns.kmalloc_eq_null hpacket hcall).mpr hne
      have hrestored := h.owns.kfree_kmalloc hpacket hcall hne packet
      constructor
      · intro hsame
        obtain ⟨hptr, hread⟩ := hrestored.mp hsame.heap
        refine .inr ⟨p, heap, hcall, hne, hptr, hread, (hwritten p heap hcall hne).mp ?_⟩
        exact (hheld.owns.kmalloc_eq_null hsmall hnull).mp rfl
      · rintro (hrefuses | ⟨p', heap', hcall', -, hptr, hread, -⟩)
        · exact absurd hrefuses hserved
        · cases hcall.symm.trans hcall'
          exact ⟨fun _ ↦ List.count_cons_of_ne (by simp), rfl, rfl, hrestored.mpr ⟨hptr, hread⟩⟩
  | @queued p cap q cap' heap heap₀ heap' _ _ _ hcall hne hfits hheld hcall' hne' howns hL' hsame =>
      refine iff_of_false (fun hsame ↦ ?_) ?_
      · have hheap : kfree heap' p = σ.heap := hsame.heap
        have hfreed := (howns.perm (.swap _ _ _)).kfree.1
        exact h.owns.not_cons ⟨q, cap'⟩ (hheap ▸ hfreed)
      · rintro (hrefuses | ⟨p₁, heap₁, hcall₁, -, -, -, hrefuses⟩)
        · exact hne ((h.owns.kmalloc_eq_null hpacket hcall).mpr hrefuses)
        · cases hcall.symm.trans hcall₁
          exact hne' ((hheld.owns.kmalloc_eq_null hsmall hcall').mpr
            ((hwritten p heap hcall hne).mpr hrefuses))

/-- A reset leaves no trace exactly when its packet is absorbed. -/
theorem tcpSendRst_undisturbed (h : L.Holds σ []) (srcIp dstIp : UInt32) (seg : Segment) :
    ∃ σ', (tcpSendRst dstIp srcIp seg.dstPort seg.srcPort seg.ack 0).run σ = some ((), σ') ∧
      (σ.Undisturbed σ' ↔ Absorbs σ.heap
        (ipv4Packet σ.aetherIp srcIp ipProtoTcp (resetSegment srcIp dstIp seg))) := by
  let reset := resetSegment srcIp dstIp seg
  have hlength : reset.length = 20 := length_rstSegment ..
  have hnoted := h.record (e := .reset dstIp srcIp reset) rfl
  obtain ⟨_, σ', hrun, hfate⟩ := ipv4Send_fate hnoted srcIp ipProtoTcp (.stack reset) reset rfl
    (by rw [hlength]; omega)
  rw [hlength] at hrun
  refine ⟨σ', hrun, ?_⟩
  rw [← Node.undisturbed_after (e := .reset dstIp srcIp reset) (by simp)]
  refine hfate.undisturbed hnoted ?_
  rw [length_ipv4Packet, hlength]
  omega

/-- A request for a connection leaves no trace exactly when there is no memory for the TCB. -/
theorem passiveOpen_undisturbed (h : L.Holds σ []) (seg : Segment) (srcIp dstIp : UInt32) :
    ∃ σ', (passiveOpen seg srcIp dstIp).run σ = some ((), σ') ∧
      (σ.Undisturbed σ' ↔ σ.heap.Refuses sizeofTcb) := by
  rcases passiveOpen_run h seg srcIp dstIp with ⟨hcall, hrun⟩ |
    ⟨p, heap, L₁, σ₁, hcall, hne, -, hfresh, h₁, -, hserver, hrun⟩
  · refine ⟨_, hrun, iff_of_true (Node.undisturbed_record (by simp)) ?_⟩
    exact (h.owns.kmalloc_eq_null (by decide) hcall).mp rfl
  · have hc : (p, seg.opened srcIp dstIp σ.tcpGlobalIsn) ∈ (σ₁.server L₁).conns := by
      rw [hserver]
      exact List.mem_cons_self
    obtain ⟨_, σ', hsend, L', h', -, hdoes⟩ :=
      tcpSendSegment_does h₁ hc (tcpFlagSyn ||| tcpFlagAck) [] (Nat.zero_le _)
    refine ⟨σ', hrun.trans hsend, iff_of_false (fun hsame ↦ hfresh ?_) fun hrefuses ↦ hne ?_⟩
    · have hconns := hsame.connections
      rw [h.connections_eq, h'.connections_eq, Option.some.injEq] at hconns
      obtain ⟨c', hc', -⟩ := hdoes.conn (by simp) hc
      exact hconns ▸ List.mem_map_of_mem hc'
    · exact (h.owns.kmalloc_eq_null (by decide) hcall).mpr hrefuses

/-- The `switch` of `tcp_input_process` does nothing with a segment that the connection ignores. -/
theorem stateMachine_ignores (h : L.Holds σ []) {p : Nat} {c : Conn}
    (hc : (p, c) ∈ (σ.server L).conns) (hsettled : c.state.Settled) {seg : Segment}
    (hignores : c.Ignores seg) : (stateMachine p seg).run σ = some ((), σ) := by
  obtain ⟨next, -, hread⟩ := h.readConn hc
  rw [stateMachine, run_bind_of_run hread]
  unfold Conn.Ignores at hignores
  dsimp only
  rcases hsettled with hstate | hstate | hstate
  · rw [hstate] at hignores ⊢
    show StateT.run (if seg.flags &&& tcpFlagAck ≠ 0 then _ else pure ()) σ = _
    rw [if_neg (show ¬ seg.flags &&& tcpFlagAck ≠ 0 from hignores)]
    rfl
  · rw [hstate] at hignores ⊢
    show StateT.run (establishedInput p seg) σ = _
    rw [establishedInput, run_bind_of_run hread, if_neg (show ¬ (_ ∧ _) from hignores.1)]
    show StateT.run (if seg.flags &&& tcpFlagFin ≠ 0 then _ else pure ()) σ = _
    rw [if_neg (show ¬ seg.flags &&& tcpFlagFin ≠ 0 from hignores.2)]
    rfl
  · rw [hstate] at hignores ⊢
    show StateT.run (if seg.flags &&& tcpFlagAck ≠ 0 then _ else pure ()) σ = _
    rw [if_neg (show ¬ seg.flags &&& tcpFlagAck ≠ 0 from hignores)]
    rfl

/-- A connection that is the same after a segment ignored it. -/
theorem Responds.ignores {p : Nat} {seg : Segment} {c : Conn} {o : Option Conn} {ℓ ℓ' : Lifetime}
    (h : Responds p seg c ℓ o ℓ') (hsame : o = some c) : c.Ignores seg := by
  have hclosing : ∀ c', some c' = some c → c'.state = .lastAck → c.state ≠ .established := by
    intro c' heq hstate
    cases heq
    rw [hstate]
    decide
  cases h with
  | ignored hignores => exact hignores
  | handshake hstate =>
      have : TcpState.established = c.state := congrArg Conn.state (Option.some.inj hsame)
      rw [hstate] at this
      cases this
  | data hstate _ _ haccepts => exact absurd hstate (hclosing _ hsame haccepts.state)
  | fin hstate _ _ hfinishes => exact absurd hstate (hclosing _ hsame hfinishes.state)
  | dataFin hstate _ _ _ hfinishes => exact absurd hstate (hclosing _ hsame hfinishes.state)
  | removed => cases hsame

/-- A segment for a connection leaves no trace exactly when the connection ignores it. -/
theorem stateMachine_undisturbed {ip : UInt32} (h : L.Holds σ []) (htabled : (σ.server L).Tabled ip)
    {p : Nat} {c : Conn} (hc : (p, c) ∈ (σ.server L).conns) {ℓ : Lifetime}
    (hℓ : lifetime p σ.log = some ℓ) (seg : Segment) :
    ∃ σ', (stateMachine p seg).run σ = some ((), σ') ∧ (σ.Undisturbed σ' ↔ c.Ignores seg) := by
  have hsettled : c.state.Settled := htabled.settled _ hc
  obtain ⟨_, σ', hrun, L', h', -, hperforms⟩ := stateMachine_spec h hc seg
  refine ⟨σ', hrun, fun hsame ↦ ?_, fun hignores ↦ ?_⟩
  · have hconns := hsame.connections
    rw [h.connections_eq, h'.connections_eq, Option.some.injEq] at hconns
    obtain ⟨⟨ℓ', -, htraces⟩, -⟩ := hperforms.traces htabled.addresses (c.tame_respond p seg)
      (c.owned_respond p seg) hℓ
    have htcb : (σ.server L).tcb p = some c := (Server.tcb_eq_some htabled.addresses).mpr hc
    have htcb' : (σ'.server L').tcb p = some c := by
      rw [Server.tcb, hconns]
      exact htcb
    rw [htcb, htcb'] at htraces
    exact (htraces.respond hsettled).ignores rfl
  · have hquiet := stateMachine_ignores h hc hsettled hignores
    rw [hrun] at hquiet
    cases hquiet
    exact ⟨fun _ ↦ rfl, rfl, rfl, rfl⟩

/-- A segment that is accepted leaves no trace exactly when `IdlesSegment` says so. -/
theorem segmentArrives_undisturbed {setup : Setup} (hreaches : setup.Reaches σ) (srcIp : UInt32)
    (seg : Segment) : ∃ σ', (segmentArrives seg srcIp σ.aetherIp).run σ = some ((), σ') ∧
      (σ.Undisturbed σ' ↔ σ.IdlesSegment srcIp σ.aetherIp seg) := by
  obtain ⟨L, hs⟩ := hreaches.sound
  have h := hs.holds
  unfold Node.IdlesSegment
  simp only [h.connections_eq, Option.some.injEq, forall_eq']
  cases hfind : (σ.server L).find srcIp seg.srcPort σ.aetherIp seg.dstPort with
  | none =>
      have hnoted := h.record (e := .lookup srcIp σ.aetherIp seg none) rfl
      rw [segmentArrives_none h hfind, show List.find? _ _ = none from hfind]
      dsimp only
      by_cases hopens : seg.Opens
      · obtain ⟨σ', hrun, hiff⟩ := passiveOpen_undisturbed hnoted seg srcIp σ.aetherIp
        rw [if_pos hopens, if_pos hopens]
        exact ⟨σ', hrun, (Node.undisturbed_after (by simp)).symm.trans hiff⟩
      · obtain ⟨σ', hrun, hiff⟩ := tcpSendRst_undisturbed hnoted srcIp σ.aetherIp seg
        rw [if_neg hopens, if_neg hopens]
        exact ⟨σ', hrun, (Node.undisturbed_after (by simp)).symm.trans hiff⟩
  | some found =>
      obtain ⟨p, c⟩ := found
      have hc : (p, c) ∈ (σ.server L).conns := List.mem_of_find?_eq_some hfind
      have hnoted := h.record (e := .lookup srcIp σ.aetherIp seg (some (p, c))) rfl
      have hrecorded : (σ.server L).Recorded fun _ _ ↦ True :=
        hs.run.recorded ⟨fun _ ↦ trivial, fun _ _ _ _ ↦ trivial⟩ rfl rfl
      obtain ⟨ℓ, hℓ⟩ := Option.isSome_iff_exists.mp (hrecorded.opened p c hc)
      have hℓ' : lifetime p (.lookup srcIp σ.aetherIp seg (some (p, c)) :: σ.log) =
          some (ℓ.add (.lookup srcIp σ.aetherIp seg (some (p, c)))) := by
        rw [lifetime_own rfl, show lifetime p σ.log = some ℓ from hℓ, Option.map_some]
      have htabled : (Node.server { σ with
          log := .lookup srcIp σ.aetherIp seg (some (p, c)) :: σ.log } L).Tabled setup.ip :=
        { hs.tabled with }
      obtain ⟨σ', hrun, hiff⟩ := stateMachine_undisturbed hnoted htabled hc hℓ' seg
      rw [segmentArrives_some h hfind, show List.find? _ _ = some (p, c) from hfind]
      exact ⟨σ', hrun, (Node.undisturbed_after (by simp)).symm.trans hiff⟩

end Requests

/-- Every frame is handled, and leaves no trace exactly when what it asks for leaves none. -/
theorem ethernetHandlePacket_undisturbed {setup : Setup} {σ : Node} (h : setup.Reaches σ)
    (data : Nat) (len : UInt32) : ∃ σ', (ethernetHandlePacket data len).run σ = some ((), σ') ∧
      (σ.Undisturbed σ' ↔ σ.Idles (accept σ.aetherIp σ.rxBuffers data len)) := by
  obtain ⟨L, hs⟩ := h.sound
  have hserves := ethernetHandlePacket_serves σ data len
  cases haccept : accept σ.aetherIp σ.rxBuffers data len with
  | none =>
      rw [haccept] at hserves
      obtain ⟨stats, -, hrun⟩ := hserves
      exact ⟨_, hrun, iff_of_true ⟨fun _ ↦ rfl, rfl, rfl, rfl⟩ trivial⟩
  | some request =>
      rw [haccept] at hserves
      have hserved : (ethernetHandlePacket data len).run σ = request.serve.run σ := hserves
      rw [hserved]
      cases accept_eq_some haccept with
      | arp => exact arpArrives_undisturbed hs.holds _
      | segment _ _ horder =>
          rw [horder.destination]
          exact segmentArrives_undisturbed h _ _

/-! ## When the promise is kept -/

/-- An Ethernet address of another host. -/
def otherMac : Mac := ⟨[2, 0, 0, 0, 0, 1], rfl⟩

/-- A request for the sample node's address, sent to another host. -/
def misdeliveredFrame : List UInt8 :=
  (EthHeader.mk otherMac gatewayMac (htons ethTypeArp)).bytes ++
    ArpPacket.bytes ⟨htons 1, htons 0x0800, 6, 4, htons 1, gatewayMac, htonl 0x0A000202, otherMac,
      htonl 0x0A00020F⟩

/-- The first fragment of a packet to the sample node with the bytes of a request for a connection,
in a frame to the given host. -/
def fragmentFrame (dest : Mac) (protocol : UInt8) : List UInt8 :=
  let segment := tcpSegment (.samplePeer 100 0) tcpFlagSyn []
  let ip := { ipv4Header 0x0A000202 0x0A00020F protocol 40 with flagsFragment := htons 0x2000 }
  (EthHeader.mk dest gatewayMac (htons ethTypeIpv4)).bytes ++
    ({ ip with checksum := ipv4Checksum ip.bytes }.bytes ++ segment)

/-- The node with a frame at the start of its receive buffers. -/
def Node.given (σ : Node) (frame : List UInt8) : Node :=
  { σ with rxBuffers := writeBytes σ.rxBuffers 0 frame }

/-- The documented rules hold for a frame exactly when what it asks for leaves no trace, or they do
not concern it. -/
theorem drop_rules_hold_iff (setup : Setup) (σ : Node) (h : setup.Reaches σ) (data : Nat)
    (len : UInt32) : σ.ObeysDropRules data len ↔
      (ForeignUnicast σ data len ∨ CarriesFragment σ data len →
        σ.Idles (accept σ.aetherIp σ.rxBuffers data len)) := by
  obtain ⟨σ', hrun, hiff⟩ := ethernetHandlePacket_undisturbed h data len
  refine forall_congr' fun _ ↦ ⟨?_, fun hidles ↦ ⟨σ', hrun, hiff.mpr hidles⟩⟩
  rintro ⟨σ₁, hrun₁, hsame⟩
  cases hrun.symm.trans hrun₁
  exact hiff.mp hsame

/-- They hold for a part of a UDP datagram that is sent to another host. -/
theorem drop_rules_hold_iff_datagram : ∃ σ data len, Setup.sample.Reaches σ ∧
    ForeignUnicast σ data len ∧ CarriesFragment σ data len ∧ σ.ObeysDropRules data len := by
  let frame := fragmentFrame otherMac 17
  let len := UInt32.ofNat frame.length
  obtain ⟨σ, -, hreaches, hall⟩ := Setup.exec_any .sample []
    (fun σ ↦ decide (ForeignUnicast (σ.given frame) 0 len) &&
      decide (CarriesFragment (σ.given frame) 0 len) &&
      decide (accept σ.aetherIp (σ.given frame).rxBuffers 0 len = none)) (by decide +kernel)
  rw [Bool.and_eq_true, Bool.and_eq_true, decide_eq_true_eq, decide_eq_true_eq,
    decide_eq_true_eq] at hall
  obtain ⟨⟨hforeign, hfragment⟩, hnone⟩ := hall
  have hgiven : Setup.sample.Reaches (σ.given frame) := hreaches.step (.receive σ.rxQueue _)
  refine ⟨σ.given frame, 0, len, hgiven, hforeign, hfragment, ?_⟩
  refine (drop_rules_hold_iff .sample (σ.given frame) hgiven 0 len).mpr fun _ ↦ ?_
  rw [show (σ.given frame).aetherIp = σ.aetherIp from rfl, hnone]
  trivial

/-! ## Frames that are not dropped -/

/-- The frame, arriving first, is one of those that a property is about, and takes a block. -/
def takesBlock (frame : List UInt8) (rule : Node → Nat → UInt32 → Bool) : Bool :=
  (Setup.sample.exec []).any fun σ ↦
    rule (σ.given frame) 0 (UInt32.ofNat frame.length) &&
      ((ethernetHandlePacket 0 (UInt32.ofNat frame.length)).run (σ.given frame)).any fun r ↦
        decide (r.2.heap.heapPtr ≠ σ.heap.heapPtr)

/-- A frame that takes a block and that the rules concern breaks them. -/
theorem breaks_of_takesBlock {frame : List UInt8} (rule : Node → Nat → UInt32 → Bool)
    (hrule : ∀ σ data len, rule σ data len = true →
      ForeignUnicast σ data len ∨ CarriesFragment σ data len)
    (htakes : takesBlock frame rule = true) : ∃ σ data len, Setup.sample.Reaches σ ∧
      rule σ data len = true ∧ ¬ σ.ObeysDropRules data len := by
  obtain ⟨σ, -, hreaches, hP⟩ := Setup.exec_any .sample [] _ htakes
  rw [Bool.and_eq_true, Option.any_eq_true] at hP
  obtain ⟨hconcerned, ⟨_, σ'⟩, hserved, hmoved⟩ := hP
  refine ⟨σ.given frame, 0, _, hreaches.step (.receive σ.rxQueue _), hconcerned, fun hobeys ↦ ?_⟩
  obtain ⟨σ₁, hrun₁, hsame⟩ := hobeys (hrule _ _ _ hconcerned)
  cases hserved.symm.trans hrun₁
  exact of_decide_eq_true hmoved (congrArg Heap.heapPtr hsame.heap)

/-- The address request for another host is answered, and the fragment opens a connection. -/
theorem misdelivered_and_fragment_answered :
    (∃ σ data len, Setup.sample.Reaches σ ∧ ForeignUnicast σ data len ∧
      ¬ σ.ObeysDropRules data len) ∧
    ∃ σ data len, Setup.sample.Reaches σ ∧ CarriesFragment σ data len ∧
      ¬ σ.ObeysDropRules data len := by
  obtain ⟨σ₁, data₁, len₁, hreaches₁, hrule₁, hbreaks₁⟩ := breaks_of_takesBlock
    (fun σ data len ↦ decide (ForeignUnicast σ data len))
    (fun σ data len h ↦ .inl (of_decide_eq_true h))
    (by decide +kernel : takesBlock misdeliveredFrame _ = true)
  obtain ⟨σ₂, data₂, len₂, hreaches₂, hrule₂, hbreaks₂⟩ := breaks_of_takesBlock
    (fun σ data len ↦ decide (CarriesFragment σ data len))
    (fun σ data len h ↦ .inr (of_decide_eq_true h))
    (by decide +kernel : takesBlock (fragmentFrame gatewayMac ipProtoTcp) _ = true)
  exact ⟨⟨σ₁, data₁, len₁, hreaches₁, of_decide_eq_true hrule₁, hbreaks₁⟩,
    σ₂, data₂, len₂, hreaches₂, of_decide_eq_true hrule₂, hbreaks₂⟩

end Aether.Ethernet
