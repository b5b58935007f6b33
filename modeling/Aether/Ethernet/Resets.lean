import Aether.Ethernet.Emissions

/-!
# Segments with RST, and segments for no connection

A reset tears a connection down only in LAST_ACK, and only if it carries ACK. A segment that belongs
to no connection opens one, or is answered by a reset that repeats its acknowledgement number.
-/

namespace Aether.Ethernet

open ByteMemory Kernel Common Program

section Arrival

variable {L : Ledger} {σ : Node} {p : Nat} {d : Conn} {seg : Segment} {segment : Nat}
  {len : UInt16} {srcIp dstIp : UInt32}

/-- The connection of a 4-tuple is found. -/
theorem Server.Tabled.find_eq {ip : UInt32} {s : Server} (hs : s.Tabled ip)
    (hd : (p, d) ∈ s.conns) (hmatch : d.Matches srcIp seg.srcPort dstIp seg.dstPort) :
    s.find srcIp seg.srcPort dstIp seg.dstPort = some (p, d) := by
  cases hfind : s.find srcIp seg.srcPort dstIp seg.dstPort with
  | none =>
      have hno := List.find?_eq_none.mp hfind (p, d) hd
      exact absurd hmatch (by simpa using hno)
  | some e =>
      have he : e ∈ s.conns := List.mem_of_find?_eq_some hfind
      have hmatch' : e.2.Matches srcIp seg.srcPort dstIp seg.dstPort := by
        simpa using List.find?_some hfind
      obtain ⟨hip, hport, hlocalIp, hlocalPort⟩ := hmatch
      obtain ⟨hip', hport', hlocalIp', hlocalPort'⟩ := hmatch'
      have htuple : e.2.fourTuple = (p, d).2.fourTuple := by
        simp only [Conn.fourTuple, hip, hport, hlocalIp, hlocalPort, hip', hport', hlocalIp',
          hlocalPort']
      rw [List.inj_on_of_nodup_map hs.tuples he hd htuple]

/-- `tcp_input_process` makes the server receive the segment that it is given. -/
theorem receives_segment (h : L.Holds σ []) (hseg : σ.HasSegment segment len srcIp dstIp seg) :
    Refines (tcpInputProcess segment len srcIp dstIp) (Server.Receives srcIp dstIp seg) L σ := by
  rw [Refines, wp_tcpInputProcess hseg]
  exact segmentArrives_spec h seg srcIp dstIp

/-- The node with `bytes` at the start of its receive buffers. -/
def Node.written (σ : Node) (bytes : List UInt8) : Node :=
  { σ with rxBuffers := writeBytes σ.rxBuffers 0 bytes }

/-- A segment that a connection sent arrives in order. -/
theorem Node.hasSegment_written (σ : Node) (c : Conn) (flags : UInt8) (payload : List UInt8)
    (hlen : payload.length ≤ 65515) :
    (σ.written (tcpSegment c flags payload)).HasSegment 0
      (UInt16.ofNat (tcpSegment c flags payload).length) c.localIp c.remoteIp
      ⟨c.localPort, c.remotePort, c.sndNxt, c.rcvNxt, flags, payload⟩ := by
  have hlength : (UInt16.ofNat (tcpSegment c flags payload).length).toNat =
      (tcpSegment c flags payload).length := by
    rw [UInt16.toNat_ofNat_of_lt' (by rw [UInt16.size, length_tcpSegment]; omega)]
  unfold Node.HasSegment Node.written
  rw [hlength, read_write_same, Segment.parse_tcpSegment,
    tcpValidateChecksum_tcpSegment c flags payload hlen]
  exact ⟨rfl, rfl⟩

end Arrival

/-! ## Tearing down -/

/-- The TCB at `p`, and no other, left the list, and its block was released. Nothing was sent and no
payload was dispatched. -/
structure Node.TornDown (σ : Node) (p : Nat) (σ' : Node) : Prop where
  unlisted : σ'.connections = σ.connections.map (List.filter fun e ↦ e.1 ≠ p)
  released : ∃ live live', liveBlocks σ.heap = some live ∧ liveBlocks σ'.heap = some live' ∧
    live.Perm (p :: live')
  silent : σ.emits σ' = []
  undelivered : ∀ e ∈ σ.newEvents σ', ∀ q payload, e ≠ .dispatched q payload

/-- A connection that is dropped need not have been changed before. -/
theorem Server.remove_update (s : Server) (p : Nat) (f : Conn → Conn) :
    (s.update p f).remove p = s.remove p := by
  simp only [remove, update, List.filter_map, Server.mk.injEq, and_true]
  have hfilter : ((fun e : Nat × Conn ↦ decide (e.1 ≠ p)) ∘ fun e : Nat × Conn ↦
      if e.1 = p then (e.1, f e.2) else e) = fun e ↦ decide (e.1 ≠ p) := by
    funext e
    simp only [Function.comp]
    split <;> rfl
  rw [hfilter]
  refine (List.map_congr_left (g := id) fun e he ↦ if_neg ?_).trans (List.map_id _)
  simpa using (List.mem_filter.mp he).2

section TearDown

variable {L : Ledger} {σ : Node} {p : Nat} {d : Conn} {seg : Segment} {segment : Nat}
  {len : UInt16} {srcIp dstIp : UInt32}

/-- A segment that ends a connection tears it down. -/
theorem Conn.Ends.tearsDown (hends : d.Ends seg) (h : L.Holds σ [])
    (hfind : (σ.server L).find srcIp seg.srcPort dstIp seg.dstPort = some (p, d))
    (hseg : σ.HasSegment segment len srcIp dstIp seg) :
    wp (tcpInputProcess segment len srcIp dstIp) (fun _ σ' ↦ σ.TornDown p σ') σ := by
  have hd : (p, d) ∈ (σ.server L).conns := List.mem_of_find?_eq_some hfind
  have hlookup := h.record (e := .lookup srcIp dstIp seg (some (p, d))) rfl
  obtain ⟨next, -, hread⟩ := hlookup.readConn hd
  obtain ⟨b, hb, rfl, rfl⟩ := mem_conns.mp hd
  have hack : seg.flags &&& tcpFlagAck ≠ 0 := hends.2
  rw [wp_tcpInputProcess hseg, wp_segmentArrives h hfind, stateMachine, wp_bind,
    wp_of_run hread]
  dsimp only
  rw [hends.1]
  dsimp only
  rw [if_pos hack, wp_bind]
  refine wp_mono (hlookup.updateTcb hb (g := fun c ↦ { c with state := .closed }) fun _ _ ↦ rfl) ?_
  rintro _ _ ⟨hclosed, heap, -, rfl⟩
  -- the TCB is removed with its state set to closed
  let g : Conn → Conn := fun c ↦ { c with state := .closed }
  have hmem : (b.ptr, g b.conn) ∈ (Node.server { σ with
      heap := heap, log := .lookup srcIp dstIp seg (some (b.ptr, b.conn)) :: σ.log }
      (L.update b.ptr g)).conns := by
    rw [server_update]
    exact Server.mem_update hd g
  refine wp_mono (tcpRemoveTcb_releases hclosed hmem) ?_
  rintro _ σ' ⟨L', hL', -, hdoes, hreleases, -⟩
  have hserver : σ'.server L' = ((((σ.server L).record
      (.lookup srcIp dstIp seg (some (b.ptr, b.conn)))).update b.ptr g).remove b.ptr).record
      (.removed b.ptr) := by
    rw [hdoes.removed, server_update]
    rfl
  have hlog : σ'.log =
      [.removed b.ptr, .lookup srcIp dstIp seg (some (b.ptr, b.conn))] ++ σ.log :=
    congrArg Server.log hserver
  have hnew : σ.newEvents σ' =
      [.removed b.ptr, .lookup srcIp dstIp seg (some (b.ptr, b.conn))] :=
    Node.newEvents_eq hlog
  rw [Server.remove_update] at hserver
  obtain ⟨r, hptr, hperm⟩ := hreleases
  rw [Ledger.regions_update] at hperm
  obtain ⟨live, hlive, hblocks⟩ := h.owns.liveBlocks
  obtain ⟨live', hlive', hblocks'⟩ := hL'.owns.liveBlocks
  constructor
  · rw [hL'.connections_eq, h.connections_eq, hserver]
    rfl
  · refine ⟨live, live', hlive, hlive', hblocks.trans ?_⟩
    refine (hperm.map Region.ptr).trans ?_
    rw [List.map_cons, hptr]
    exact hblocks'.symm.cons b.ptr
  · rw [Node.emits, hnew]
    rfl
  · rw [hnew]
    simp

/-- A segment that does not end a connection leaves it in the table. -/
theorem Server.Receives.stays {ip : UInt32} {s s' : Server}
    (hreceives : Receives srcIp dstIp seg s s') (hs : s.Tabled ip)
    (hfind : s.find srcIp seg.srcPort dstIp seg.dstPort = some (p, d))
    (hends : ¬ d.Ends seg) :
    ∃ d', (p, d') ∈ s'.conns := by
  have hd : (p, d) ∈ s.conns := List.mem_of_find?_eq_some hfind
  cases hreceives with
  | found hfind' hperforms =>
      rw [hfind] at hfind'
      cases hfind'
      refine hperforms.conn ?_ hd
      rwa [Conn.respond_removes (hs.settled _ hd)]
  | refused hnone | opened hnone | reset hnone =>
      rw [hfind] at hnone
      cases hnone

end TearDown

/-- In every reachable state a segment with RST at the sequence number that its TCB expects tears
the connection down exactly when the connection is in LAST_ACK and the segment carries ACK. -/
theorem reset_tears_down (c : Setup) (σ : Node) (h : c.Reaches σ) (segment : Nat) (len : UInt16)
    (srcIp dstIp : UInt32) (seg : Segment) (hseg : σ.HasSegment segment len srcIp dstIp seg)
    (conns : List (Nat × Conn)) (hconns : σ.connections = some conns) (p : Nat) (d : Conn)
    (hd : (p, d) ∈ conns) (hmatch : d.Matches srcIp seg.srcPort dstIp seg.dstPort) :
    seg.Has tcpFlagRst → seg.seq = d.rcvNxt →
      ∃ σ', (tcpInputProcess segment len srcIp dstIp).run σ = some ((), σ') ∧
        (σ.TornDown p σ' ↔ d.Ends seg) := by
  intro _ _
  obtain ⟨L, hs⟩ := h.sound
  rw [hs.holds.connections_eq, Option.some.injEq] at hconns
  subst hconns
  have hfind := hs.tabled.find_eq hd hmatch
  obtain ⟨⟨⟩, σ', hrun, L', hL', -, hreceives⟩ := receives_segment hs.holds hseg
  refine ⟨σ', hrun, fun htorn ↦ ?_, fun hends ↦ ?_⟩
  · by_contra hends
    obtain ⟨d', hd'⟩ := hreceives.stays hs.tabled hfind hends
    have hunlisted := htorn.unlisted
    rw [hL'.connections_eq, hs.holds.connections_eq, Option.map_some, Option.some.injEq]
      at hunlisted
    rw [hunlisted] at hd'
    simpa using (List.mem_filter.mp hd').2
  · have htorn := wp_run (hends.tearsDown hs.holds hfind hseg) hrun
    exact htorn

/-- A reset with ACK completes a handshake: the connection stays, and is established. -/
theorem reset_tears_down_fails : ∃ σ₀ σ' seg conns conns' p d d',
    Setup.sample.exec [.fromPeer 100 0 tcpFlagSyn []] = some σ₀ ∧
    let σ := σ₀.written (tcpSegment (.samplePeer 101 7001) (tcpFlagRst ||| tcpFlagAck) [])
    Setup.sample.Reaches σ ∧ σ.HasSegment 0 20 0x0A000202 0x0A00020F seg ∧
    σ.connections = some conns ∧ (p, d) ∈ conns ∧
    d.Matches 0x0A000202 seg.srcPort 0x0A00020F seg.dstPort ∧
    seg.Has tcpFlagRst ∧ seg.seq = d.rcvNxt ∧
    (tcpInputProcess 0 20 0x0A000202 0x0A00020F).run σ = some ((), σ') ∧ ¬ σ.TornDown p σ' ∧
    σ'.connections = some conns' ∧ (p, d') ∈ conns' ∧ d'.state = .established := by
  obtain ⟨σ₀, hexec, hreaches, hσ⟩ := Setup.exec_any .sample [.fromPeer 100 0 tcpFlagSyn []]
    (fun σ ↦ σ.connections.any fun conns ↦ conns.any fun e ↦
      decide (e.2.rcvNxt = 101 ∧ e.2.Matches 0x0A000202 5555 0x0A00020F 80) &&
      ((tcpInputProcess 0 20 0x0A000202 0x0A00020F).run (σ.written
        (tcpSegment (.samplePeer 101 7001) (tcpFlagRst ||| tcpFlagAck) []))).any fun r ↦
        r.2.connections.any fun conns' ↦ conns'.any fun e' ↦
          decide (e'.1 = e.1 ∧ e'.2.state = .established))
    (by decide +kernel)
  simp only [Option.any_eq_true, List.any_eq_true, Bool.and_eq_true, decide_eq_true_eq] at hσ
  obtain ⟨conns, hconns, ⟨p, d⟩, hd, ⟨hseq, hmatch⟩, ⟨⟨⟩, σ'⟩, hrun, conns', hconns',
    ⟨p', d'⟩, hd', rfl, hstate⟩ := hσ
  have hseg := σ₀.hasSegment_written (.samplePeer 101 7001) (tcpFlagRst ||| tcpFlagAck) []
    (Nat.zero_le _)
  refine ⟨σ₀, σ', _, conns, conns', p', d, d', hexec, hreaches.step (.receive σ₀.rxQueue _), hseg,
    hconns, hd, hmatch, by decide, hseq.symm, hrun, fun htorn ↦ ?_, hconns', hd', hstate⟩
  have hunlisted := htorn.unlisted
  rw [hconns', show (σ₀.written _).connections = some conns from hconns] at hunlisted
  rw [Option.some.inj hunlisted] at hd'
  simpa using (List.mem_filter.mp hd').2

/-- In LAST_ACK a reset with ACK tears the connection down. -/
theorem reset_tears_down_lastAck : ∃ σ σ' p, Setup.sample.Reaches σ ∧
    (tcpInputProcess 0 20 0x0A000202 0x0A00020F).run σ = some ((), σ') ∧ σ.TornDown p σ' := by
  obtain ⟨σ₀, -, hreaches, hσ⟩ := Setup.exec_any .sample
    [.fromPeer 100 0 tcpFlagSyn [], .fromPeer 101 7001 tcpFlagAck [],
      .fromPeer 101 7001 (tcpFlagFin ||| tcpFlagAck) []]
    (fun σ ↦ σ.connections.any fun conns ↦ conns.any fun e ↦ decide (e.2.state = .lastAck ∧
      e.2.rcvNxt = 102 ∧ e.2.Matches 0x0A000202 5555 0x0A00020F 80))
    (by decide +kernel)
  simp only [Option.any_eq_true, List.any_eq_true, decide_eq_true_eq] at hσ
  obtain ⟨conns, hconns, ⟨p, d⟩, hd, hstate, hseq, hmatch⟩ := hσ
  have hseg := σ₀.hasSegment_written (.samplePeer 102 7002) (tcpFlagRst ||| tcpFlagAck) []
    (Nat.zero_le _)
  have hreaches' := hreaches.step (.receive σ₀.rxQueue (writeBytes σ₀.rxBuffers 0
    (tcpSegment (.samplePeer 102 7002) (tcpFlagRst ||| tcpFlagAck) [])))
  obtain ⟨σ', hrun, htorn⟩ := reset_tears_down .sample _ hreaches' 0 20 0x0A000202 0x0A00020F _
    hseg conns hconns p d hd hmatch (by decide) hseq.symm
  exact ⟨_, σ', p, hreaches', hrun, htorn.mpr ⟨hstate, by decide⟩⟩

/-! ## Segments with RST -/

/-- The segment belongs to one of the connections, which does not answer it. -/
def Segment.Unanswered (seg : Segment) (srcIp dstIp : UInt32) (conns : List (Nat × Conn)) : Prop :=
  ∃ e ∈ conns, e.2.Matches srcIp seg.srcPort dstIp seg.dstPort ∧ ¬ e.2.Answers seg

/-- A segment is answered, if there is memory, unless it belongs to a connection that does not
answer it. -/
theorem Server.Receives.answered {ip srcIp dstIp : UInt32} {seg : Segment} {s s' : Server}
    (h : Receives srcIp dstIp seg s s') (hs : s.Tabled ip) :
    ∃ new, s'.log = new ++ s.log ∧
      (seg.Unanswered srcIp dstIp s.conns → new.filterMap Event.message = []) ∧
      (.noMemory ∉ new → new.filterMap Event.message = [] →
        seg.Unanswered srcIp dstIp s.conns) := by
  have hnobody : s.find srcIp seg.srcPort dstIp seg.dstPort = none →
      ¬ seg.Unanswered srcIp dstIp s.conns := by
    rintro hnone ⟨e, he, hmatch, -⟩
    rw [hs.find_eq he hmatch] at hnone
    cases hnone
  cases h with
  | @found _ p c hfind hperforms =>
      have hc : (p, c) ∈ s.conns := List.mem_of_find?_eq_some hfind
      have hmatch : c.Matches srcIp seg.srcPort dstIp seg.dstPort := by
        simpa using List.find?_some hfind
      obtain ⟨pre, post, hat⟩ := Server.exists_at hs.addresses hc
      obtain ⟨new, o, hyields, hlog, -⟩ := hperforms.yields (hat.record _)
      refine ⟨new ++ [.lookup srcIp dstIp seg (some (p, c))], ?_, ?_, fun hmemory hnil ↦ ?_⟩
      · rw [hlog, List.append_assoc]
        rfl
      · rintro ⟨⟨q, d⟩, hd, hmatch', hanswers⟩
        rw [hs.find_eq hd hmatch'] at hfind
        cases hfind
        rw [List.filterMap_append, hyields.silent (c.tame_respond p seg)]
        · rfl
        · intro a ha hsend
          exact hanswers ((Conn.respond_sends (hs.settled _ hc)).mp ⟨a, ha, hsend⟩)
      · refine ⟨(p, c), hc, hmatch, fun hanswers ↦ ?_⟩
        refine hyields.spoken ((Conn.respond_sends (hs.settled _ hc)).mpr hanswers)
          (fun hmem ↦ hmemory (List.mem_append_left _ hmem)) ?_
        rw [List.filterMap_append, List.append_eq_nil_iff] at hnil
        exact hnil.1
  | refused hnone =>
      refine ⟨[.noMemory, .lookup srcIp dstIp seg none], rfl, fun hmine ↦ ?_, fun hmemory ↦ ?_⟩
      · exact absurd hmine (hnobody hnone)
      · exact absurd List.mem_cons_self hmemory
  | @opened _ p hnone _ hfresh hperforms =>
      obtain ⟨new, o, hyields, hlog, -⟩ := hperforms.yields (Server.at_front hfresh _ _)
      refine ⟨new ++ [.passiveOpen p s.isn seg.seq, .lookup srcIp dstIp seg none], ?_,
        fun hmine ↦ absurd hmine (hnobody hnone), fun hmemory hnil ↦ ?_⟩
      · rw [hlog, List.append_assoc]
        rfl
      · rw [List.filterMap_append, List.append_eq_nil_iff] at hnil
        refine absurd hnil.1 (hyields.spoken ⟨_, List.mem_singleton_self _, rfl⟩ fun hmem ↦ ?_)
        exact hmemory (List.mem_append_left _ hmem)
  | @reset e hnone _ he =>
      refine ⟨[e, .reset dstIp srcIp (resetSegment srcIp dstIp seg), .lookup srcIp dstIp seg none],
        rfl, fun hmine ↦ absurd hmine (hnobody hnone), fun _ hnil ↦ ?_⟩
      rw [List.filterMap_cons, he.message] at hnil
      cases hnil

/-! ## Segments for no connection -/

/-- SEG.LEN: the payload's length, with one for SYN and one for FIN. -/
def Segment.length (seg : Segment) : UInt32 :=
  UInt32.ofNat seg.payload.length + (if seg.Has tcpFlagSyn then 1 else 0) +
    if seg.Has tcpFlagFin then 1 else 0

/-- The message is the reset that the sender of the segment accepts. -/
def Segment.ResetBy (seg : Segment) (srcIp dstIp : UInt32) (m : Message) : Prop :=
  m.srcIp = dstIp ∧ m.dstIp = srcIp ∧ tcpValidateChecksum m.srcIp m.dstIp m.bytes = true ∧
    ∃ rst, Segment.parse m.bytes = some rst ∧ rst.Has tcpFlagRst ∧
      rst.srcPort = seg.dstPort ∧ rst.dstPort = seg.srcPort ∧
      if seg.Has tcpFlagAck then rst.seq = seg.ack
      else rst.seq = 0 ∧ rst.ack = seg.seq + seg.length

/-- A TCB was created. -/
def Node.Creates (σ σ' : Node) : Prop :=
  ∃ conns conns', σ.connections = some conns ∧ σ'.connections = some conns' ∧
    ∃ e ∈ conns', e.1 ∉ conns.map Prod.fst

/-- Whether a TCB was created shows in the connection table. -/
theorem Ledger.Holds.creates_iff {σ σ' : Node} {L L' : Ledger} (h : L.Holds σ [])
    (h' : L'.Holds σ' []) : σ.Creates σ' ↔
      ∃ e ∈ (σ'.server L').conns, e.1 ∉ (σ.server L).conns.map Prod.fst := by
  unfold Node.Creates
  rw [h.connections_eq, h'.connections_eq]
  constructor
  · intro ⟨_, _, hconns, hconns', hfresh⟩
    rwa [← Option.some.inj hconns, ← Option.some.inj hconns'] at hfresh
  · intro hfresh
    exact ⟨_, _, rfl, rfl, hfresh⟩

/-- A segment for no connection was treated as in LISTEN, if it is for port 80, and as in CLOSED
otherwise. -/
def Node.Listens (σ σ' : Node) (srcIp dstIp : UInt32) (seg : Segment) : Prop :=
  (σ.Creates σ' ↔ seg.dstPort = 80 ∧ seg.Has tcpFlagSyn ∧ ¬ seg.Has tcpFlagAck) ∧
    (seg.Has tcpFlagAck ∨ seg.dstPort ≠ 80 →
      ∃ m, σ.emits σ' = [m] ∧ seg.ResetBy srcIp dstIp m)

/-- The segment is not a SYN with ACK for port 80; and if it has no ACK and is for another port, it
acknowledges `0` and ends at `0`. -/
def Segment.Regular (seg : Segment) : Prop :=
  ¬ (seg.dstPort = 80 ∧ seg.Has tcpFlagSyn ∧ seg.Has tcpFlagAck) ∧
    (seg.Has tcpFlagAck ∨ seg.dstPort = 80 ∨ seg.ack = 0 ∧ seg.seq + seg.length = 0)

instance (seg : Segment) : Decidable seg.Regular := inferInstanceAs (Decidable (_ ∧ _))

section Closed

variable {seg : Segment} {srcIp dstIp : UInt32}

/-- The reset that is sent suits a segment with ACK, and one that acknowledges `0` and ends at
`0`. -/
theorem Segment.resetBy_iff : seg.ResetBy srcIp dstIp ⟨dstIp, srcIp, resetSegment srcIp dstIp seg⟩ ↔
    seg.Has tcpFlagAck ∨ seg.ack = 0 ∧ seg.seq + seg.length = 0 := by
  have hparse : Segment.parse (resetSegment srcIp dstIp seg) = some _ :=
    Segment.parse_rstSegment dstIp srcIp seg.dstPort seg.srcPort seg.ack 0
  have hvalid : tcpValidateChecksum dstIp srcIp (resetSegment srcIp dstIp seg) = true :=
    tcpValidateChecksum_rstSegment dstIp srcIp seg.dstPort seg.srcPort seg.ack 0
  have hrst : (tcpFlagRst ||| tcpFlagAck) &&& tcpFlagRst ≠ 0 := by decide
  unfold ResetBy
  simp only [hparse, hvalid, Option.some.injEq, true_and]
  by_cases hack : seg.Has tcpFlagAck
  · simp only [hack, ↓reduceIte, true_or, iff_true]
    exact ⟨_, rfl, hrst, rfl, rfl, rfl⟩
  · simp only [hack, ↓reduceIte, false_or]
    constructor
    · rintro ⟨rst, rfl, -, -, -, hseq, hend⟩
      exact ⟨hseq, hend.symm⟩
    · rintro ⟨hseq, hend⟩
      exact ⟨_, rfl, hrst, rfl, rfl, hseq, hend.symm⟩

/-- A segment for no connection, when there is memory, creates a TCB or is answered by a reset. -/
theorem Server.Receives.unmatched {s s' : Server} (h : Receives srcIp dstIp seg s s')
    (hnone : s.find srcIp seg.srcPort dstIp seg.dstPort = none) :
    ∃ new, s'.log = new ++ s.log ∧ (.noMemory ∉ new →
      seg.Opens ∧ (∃ e ∈ s'.conns, e.1 ∉ s.conns.map Prod.fst) ∨
      ¬ seg.Opens ∧ s'.conns = s.conns ∧ new.filterMap Event.message =
        [⟨dstIp, srcIp, resetSegment srcIp dstIp seg⟩]) := by
  cases h with
  | found hfind =>
      rw [hnone] at hfind
      cases hfind
  | refused =>
      exact ⟨[.noMemory, .lookup srcIp dstIp seg none], rfl,
        fun hmemory ↦ absurd List.mem_cons_self hmemory⟩
  | @opened _ p _ hopens hfresh hperforms =>
      obtain ⟨new, o, -, hlog, -⟩ := hperforms.yields (Server.at_front hfresh _ _)
      obtain ⟨d, hd⟩ := hperforms.conn (by simp) List.mem_cons_self
      refine ⟨new ++ [.passiveOpen p s.isn seg.seq, .lookup srcIp dstIp seg none], ?_,
        fun _ ↦ .inl ⟨hopens, (p, d), hd, hfresh⟩⟩
      rw [hlog, List.append_assoc]
      rfl
  | @reset e _ hopens he =>
      refine ⟨[e, .reset dstIp srcIp (resetSegment srcIp dstIp seg), .lookup srcIp dstIp seg none],
        rfl, fun _ ↦ .inr ⟨hopens, rfl, ?_⟩⟩
      rw [List.filterMap_cons, he.message]
      rfl

end Closed

/-- In every reachable state a segment without RST for no connection is treated by the rules for
LISTEN and CLOSED, when there is memory, exactly if it is regular. -/
theorem unmatched_segment_rules (c : Setup) (σ : Node) (h : c.Reaches σ) (segment : Nat)
    (len : UInt16) (srcIp dstIp : UInt32) (seg : Segment)
    (hseg : σ.HasSegment segment len srcIp dstIp seg) (conns : List (Nat × Conn))
    (hconns : σ.connections = some conns)
    (hnone : ∀ e ∈ conns, ¬ e.2.Matches srcIp seg.srcPort dstIp seg.dstPort) :
    ¬ seg.Has tcpFlagRst →
      ∃ σ', (tcpInputProcess segment len srcIp dstIp).run σ = some ((), σ') ∧
        (.noMemory ∉ σ.newEvents σ' → (σ.Listens σ' srcIp dstIp seg ↔ seg.Regular)) := by
  intro _
  obtain ⟨L, hs⟩ := h.sound
  rw [hs.holds.connections_eq, Option.some.injEq] at hconns
  subst hconns
  have hfind : (σ.server L).find srcIp seg.srcPort dstIp seg.dstPort = none :=
    List.find?_eq_none.mpr fun e he ↦ by simpa using hnone e he
  obtain ⟨⟨⟩, σ', hrun, L', hL', -, hreceives⟩ := receives_segment hs.holds hseg
  obtain ⟨new, hlog, hcase⟩ := hreceives.unmatched hfind
  have hnew : σ.newEvents σ' = new := Node.newEvents_eq hlog
  have hcreates := hs.holds.creates_iff hL'
  refine ⟨σ', hrun, fun hmemory ↦ ?_⟩
  rw [hnew] at hmemory
  unfold Node.Listens Segment.Regular Node.emits
  rw [hnew, hcreates]
  -- either the segment opens a connection, or a reset is all that is sent
  rcases hcase hmemory with ⟨⟨hsyn, hport⟩, hfresh⟩ | ⟨hopens, hconns, hmessages⟩
  · by_cases hack : seg.Has tcpFlagAck
    · refine iff_of_false (fun hlistens ↦ ?_) fun hregular ↦ ?_
      · exact (hlistens.1.mp hfresh).2.2 hack
      · exact hregular.1 ⟨hport, hsyn, hack⟩
    · refine iff_of_true ⟨iff_of_true hfresh ⟨hport, hsyn, hack⟩, fun hanswered ↦ ?_⟩ ?_
      · exact absurd hport (hanswered.resolve_left hack)
      · exact ⟨fun hall ↦ hack hall.2.2, .inr (.inl hport)⟩
  · have hstale : ¬ ∃ e ∈ (σ'.server L').conns, e.1 ∉ (σ.server L).conns.map Prod.fst := by
      rintro ⟨e, he, hfresh⟩
      rw [hconns] at he
      exact hfresh (List.mem_map_of_mem he)
    have hclosed : ¬ (seg.dstPort = 80 ∧ seg.Has tcpFlagSyn) := fun hboth ↦ hopens hboth.symm
    have hreset : (∃ m, new.filterMap Event.message = [m] ∧ seg.ResetBy srcIp dstIp m) ↔
        seg.Has tcpFlagAck ∨ seg.ack = 0 ∧ seg.seq + seg.length = 0 := by
      rw [hmessages, ← Segment.resetBy_iff]
      constructor
      · rintro ⟨m, hm, hreset⟩
        rwa [List.singleton_inj.mp hm]
      · intro hreset
        exact ⟨_, rfl, hreset⟩
    rw [hreset]
    constructor
    · rintro ⟨-, hanswered⟩
      refine ⟨fun hall ↦ hclosed ⟨hall.1, hall.2.1⟩, ?_⟩
      by_cases hport : seg.dstPort = 80
      · exact .inr (.inl hport)
      · exact (hanswered (.inr hport)).imp_right .inr
    · rintro ⟨-, hregular⟩
      refine ⟨iff_of_false hstale fun hall ↦ hclosed ⟨hall.1, hall.2.1⟩, fun hanswered ↦ ?_⟩
      rcases hregular with hack | hport | hzero
      · exact .inl hack
      · exact .inl (hanswered.resolve_right (not_not.mpr hport))
      · exact .inr hzero

/-- A SYN for port 81 is answered by a reset that acknowledges nothing. -/
theorem unmatched_segment_rules_fails : ∃ σ₀ σ' seg, Setup.sample.exec [] = some σ₀ ∧
    let σ := σ₀.written (tcpSegment { Conn.samplePeer 100 0 with remotePort := 81 } tcpFlagSyn [])
    Setup.sample.Reaches σ ∧ σ.connections = some [] ∧
    σ.HasSegment 0 20 0x0A000202 0x0A00020F seg ∧ ¬ seg.Has tcpFlagRst ∧
    (tcpInputProcess 0 20 0x0A000202 0x0A00020F).run σ = some ((), σ') ∧
    .noMemory ∉ σ.newEvents σ' ∧ ¬ σ.Listens σ' 0x0A000202 0x0A00020F seg := by
  let peer : Conn := { Conn.samplePeer 100 0 with remotePort := 81 }
  obtain ⟨σ₀, hexec, hreaches, hσ⟩ := Setup.exec_any .sample []
    (fun σ ↦ decide (σ.connections = some []) &&
      ((tcpInputProcess 0 20 0x0A000202 0x0A00020F).run
        (σ.written (tcpSegment { Conn.samplePeer 100 0 with remotePort := 81 } tcpFlagSyn []))).any
        fun r : Unit × Node ↦ decide (Event.noMemory ∉ σ.newEvents r.2) &&
          (σ.emits r.2).all fun m : Message ↦
            (Segment.parse m.bytes).all fun rst : Segment ↦ decide (rst.ack = 0))
    (by decide +kernel)
  simp only [Option.any_eq_true, Bool.and_eq_true, decide_eq_true_eq, List.all_eq_true] at hσ
  obtain ⟨hconns, ⟨⟨⟩, σ'⟩, hrun, hmemory, hemits⟩ := hσ
  have hseg := σ₀.hasSegment_written peer tcpFlagSyn [] (Nat.zero_le _)
  refine ⟨σ₀, σ', _, hexec, hreaches.step (.receive σ₀.rxQueue _), hconns, hseg, by decide, hrun,
    hmemory, fun hlistens ↦ ?_⟩
  obtain ⟨m, hm, -, -, -, rst, hrst, -, -, -, hnumbers⟩ := hlistens.2 (.inr (by decide))
  rw [if_neg (by decide)] at hnumbers
  have hack := hemits m (by rw [show σ₀.emits σ' = [m] from hm]; exact List.mem_singleton_self m)
  rw [hrst, Option.all_some, decide_eq_true_eq, hnumbers.2] at hack
  revert hack
  decide

/-- A SYN for port 80 is treated by the rules. -/
theorem unmatched_segment_rules_syn : ∃ σ σ' seg, Setup.sample.Reaches σ ∧
    (tcpInputProcess 0 20 0x0A000202 0x0A00020F).run σ = some ((), σ') ∧
    σ.Listens σ' 0x0A000202 0x0A00020F seg ∧ seg.Has tcpFlagSyn := by
  obtain ⟨σ₀, -, hreaches, hσ⟩ := Setup.exec_any .sample []
    (fun σ ↦ decide (σ.connections = some []) &&
      ((tcpInputProcess 0 20 0x0A000202 0x0A00020F).run
        (σ.written (tcpSegment (.samplePeer 100 0) tcpFlagSyn []))).any fun r : Unit × Node ↦
          decide (Event.noMemory ∉ σ.newEvents r.2))
    (by decide +kernel)
  simp only [Option.any_eq_true, Bool.and_eq_true, decide_eq_true_eq] at hσ
  obtain ⟨hconns, ⟨⟨⟩, σ₁⟩, hrun₁, hmemory⟩ := hσ
  have hseg := σ₀.hasSegment_written (.samplePeer 100 0) tcpFlagSyn [] (Nat.zero_le _)
  have hreaches' := hreaches.step (.receive σ₀.rxQueue (writeBytes σ₀.rxBuffers 0
    (tcpSegment (.samplePeer 100 0) tcpFlagSyn [])))
  obtain ⟨σ', hrun, hrules⟩ := unmatched_segment_rules .sample _ hreaches' 0 20 0x0A000202
    0x0A00020F _ hseg [] hconns (by simp) (by decide)
  obtain rfl : σ₁ = σ' := congrArg Prod.snd (Option.some.inj (hrun₁.symm.trans hrun))
  exact ⟨_, σ₁, _, hreaches', hrun, (hrules hmemory).mpr (by decide), by decide⟩

end Aether.Ethernet
