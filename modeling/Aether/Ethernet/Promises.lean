import Aether.Ethernet.Room
import Aether.Ethernet.Segments

/-!
# Promised segments over whole runs

As long as every request has room, the connections of a node have handed over what their states
promise. Without room they need not: a peer that opens and closes one connection again and again
leaves blocks behind until a synchronisation finds no memory.
-/

namespace Aether.Ethernet

open ByteMemory Kernel Drivers Common Program Transition

/-- A step whose request has room. -/
def Node.RoomyStep (σ σ' : Node) : Prop :=
  ∃ request, Node.StepOn request σ σ' ∧ σ.HasRoom request

/-! ## Runs with room -/

section Runs

variable {c : Setup} {L : Ledger} {σ σ' : Node}

/-- An accepted segment is addressed to the node. -/
theorem accept_forUs {aetherIp srcIp dstIp : UInt32} {rx : Memory} {data : Nat} {len : UInt32}
    {seg : Segment} (h : accept aetherIp rx data len = some (.segment srcIp dstIp seg)) :
    dstIp = aetherIp := by
  cases accept_eq_some h with
  | segment _ _ horder => exact horder.destination

/-- So is one that a step serves. -/
theorem Node.StepOn.forUs {srcIp dstIp : UInt32} {seg : Segment} {request : Option Request}
    (h : Node.StepOn request σ σ') (hrequest : request = some (.segment srcIp dstIp seg)) :
    dstIp = σ.aetherIp := by
  cases h with
  | receive | complete | reap => cases hrequest
  | poll =>
      obtain ⟨receipt, -, hpolled⟩ := Option.bind_eq_some_iff.mp hrequest
      split at hpolled
      · exact accept_forUs hpolled
      · cases hpolled
  | frame => exact accept_forUs hrequest
  | segment =>
      obtain ⟨_, -, heq⟩ := Option.map_eq_some_iff.mp hrequest
      cases heq
      rfl

/-- A request that has room leaves every connection consistent. -/
theorem Request.serve_consistent {request : Request} {ip : UInt32} (h : L.Holds σ [])
    (htabled : (σ.server L).Tabled ip) (hs : (σ.server L).Consistent)
    (hroom : σ.HasRoom (some request))
    (hforUs : ∀ srcIp dstIp seg, request = .segment srcIp dstIp seg → dstIp = ip) :
    wp request.serve (fun _ σ' ↦ ∃ L' : Ledger, L'.Holds σ' [] ∧ (σ'.server L').Consistent) σ := by
  cases request with
  | arp packet => exact arpArrives_consistent h hs packet
  | segment srcIp dstIp seg =>
      obtain rfl := hforUs srcIp dstIp seg rfl
      refine wp_mono (segmentArrives_completes h seg srcIp dstIp hroom) ?_
      intro _ σ' hrest
      obtain ⟨L', h', -, hcompletes⟩ := hrest
      exact ⟨L', h', hcompletes.consistent htabled hs⟩

/-- A step with room leaves every connection consistent. -/
theorem Setup.Sound.consistent (h : c.Sound σ L) (hs : σ.Consistent) (hstep : σ.RoomyStep σ') :
    σ'.Consistent := by
  obtain ⟨request, hon, hroom⟩ := hstep
  rw [h.holds.consistent_iff] at hs
  rcases hon.serving with hserving | ⟨id, len, hid, rfl⟩ | hrun
  · cases hserving with
    | nothing hreceived =>
        obtain ⟨h', hs'⟩ := hreceived.holds h.holds hs
        exact h'.consistent_iff.mpr hs'
    | @request _ _ σ₁ _ _ hbefore hrun hafter =>
        obtain ⟨h₁, hs₁⟩ := hbefore.holds h.holds hs
        have htabled := h.tabled
        have htabled₁ : (σ₁.server L).Tabled c.ip := by
          obtain ⟨_, _, _, _, rfl, -⟩ := hbefore
          exact { htabled with }
        obtain ⟨L₂, h₂, hs₂⟩ := wp_run (Request.serve_consistent h₁ htabled₁ hs₁
          (hbefore.hasRoom.mpr hroom) fun srcIp dstIp seg heq ↦
            (hon.forUs (congrArg some heq)).trans h.ip) hrun
        obtain ⟨h', hs'⟩ := hafter.holds h₂ hs₂
        exact h'.consistent_iff.mpr hs'
  · exact (h.holds.complete hid len).consistent_iff.mpr hs
  · obtain ⟨L', h', hsame, htransmits, -, -⟩ := wp_run (netTxReaper_spec h.holds) hrun
    refine h'.consistent_iff.mpr ?_
    rw [htransmits.server hsame]
    exact hs

end Runs

/-- As long as every request finds the memory for the segment that it makes the server promise,
every connection in `SYN_RECEIVED` has handed over its synchronisation, and every one in `LAST_ACK`
its FIN, which its next sequence number counts. -/
theorem consistent_of_room (c : Setup) (σ : Node) (h : Reachable c.Starts Node.RoomyStep σ) :
    σ.Consistent := by
  suffices hinv : (∃ L, c.Sound σ L) ∧ σ.Consistent from hinv.2
  refine h.invariant (fun σ ↦ (∃ L, c.Sound σ L) ∧ σ.Consistent) ?_ ?_
  · intro σ hstarts
    obtain ⟨⟨L, hL, hserver⟩, -⟩ := wp_run (initialise_spec c) hstarts
    refine ⟨⟨L, hL⟩, hL.holds.consistent_iff.mpr fun p conn hmem ↦ ?_⟩
    rw [hserver] at hmem
    cases hmem
  · intro σ σ' hinv hstep
    obtain ⟨⟨L, hL⟩, hs⟩ := hinv
    obtain ⟨request, hon, hroom⟩ := hstep
    exact ⟨hL.step (Node.step_iff.mpr ⟨request, hon⟩), hL.consistent hs ⟨request, hon, hroom⟩⟩

/-- With no connection yet, only the room for one matters. -/
theorem Node.hasRoom_of_unconnected {σ : Node} (hconns : σ.connections = some [])
    (hroom : OpensRoom σ.heap) (request : Option Request) : σ.HasRoom request := by
  cases request with
  | none => trivial
  | some request =>
      cases request with
      | arp => trivial
      | segment srcIp dstIp seg =>
          intro conns hconns'
          cases hconns.symm.trans hconns'
          exact fun _ ↦ hroom

/-- Nor does a segment that arrives first. -/
theorem input_roomy {c : Setup} {σ σ' : Node} {srcIp : UInt32} {bytes : List UInt8}
    (h : Reachable c.Starts Node.RoomyStep σ) (hconns : σ.connections = some [])
    (hroom : OpensRoom σ.heap) (hinput : σ.input (.segment srcIp bytes) = some σ') :
    Reachable c.Starts Node.RoomyStep σ' := by
  obtain ⟨⟨_, _⟩, hrun, rfl⟩ := Option.map_eq_some_iff.mp hinput
  have hreceived := h.step ⟨none, .receive σ.rxQueue (writeBytes σ.rxBuffers 0 bytes), trivial⟩
  exact hreceived.step ⟨_, .segment hrun, Node.hasRoom_of_unconnected hconns hroom _⟩

/-- A node that is asked for its first connection, with room for a TCB and a segment, keeps its
promise. -/
theorem consistent_of_room_first : ∃ σ, Reachable Setup.sample.Starts Node.RoomyStep σ ∧
    0 < σ.log.countP Event.Leaks ∧ σ.Consistent := by
  obtain ⟨σ₀, hexec, -, hP⟩ := Setup.exec_any .sample [] (fun σ : Node ↦
    decide (σ.connections = some []) &&
      (kmalloc σ.heap sizeofTcb).any (fun r : Nat × Heap ↦ decide (r.2.heapPtr + 48 ≤ heapEnd)) &&
      (σ.input (.fromPeer 100 0 tcpFlagSyn [])).any
        fun σ' : Node ↦ decide (0 < σ'.log.countP Event.Leaks))
    (by decide +kernel)
  simp only [Bool.and_eq_true, decide_eq_true_eq, Option.any_eq_true] at hP
  obtain ⟨⟨hconns, ⟨p, heap⟩, hcall, hleft⟩, σ, hinput, hhanded⟩ := hP
  have hroom : OpensRoom σ₀.heap := by
    intro p' heap' hcall' _ hrefuses
    cases hcall.symm.trans hcall'
    have hfull := hrefuses.2
    rw [show sizeofMemHeader + alignSize 20 = 48 by decide] at hfull
    exact absurd hleft (Nat.not_le.mpr hfull)
  have hreaches := input_roomy (.init (Setup.exec_nil hexec)) hconns hroom hinput
  exact ⟨σ, hreaches, hhanded, consistent_of_room .sample σ hreaches⟩

/-! ## Opening and closing again -/

/-- What the peer sends: a segment without payload from its port 5555. -/
def peerSegment (seq : UInt32) (flags : UInt8) : Segment := ⟨5555, 80, seq, 0, flags, []⟩

/-- The arrival of such a segment. -/
def Setup.fromPeer (c : Setup) (seq : UInt32) (flags : UInt8) : Input :=
  .segment 0x0A000202 (tcpSegment { Conn.samplePeer seq 0 with remoteIp := c.ip } flags [])

/-- The peer completes the handshake, closes its side and acknowledges the node's FIN. -/
def Setup.completion (c : Setup) : List Input :=
  [c.fromPeer 101 tcpFlagAck, c.fromPeer 101 tcpFlagFin, c.fromPeer 102 tcpFlagAck]

/-- The peer opens and closes its connection `n` times. -/
def Setup.reopening (c : Setup) (n : Nat) : List Input :=
  (List.replicate n (c.fromPeer 100 tcpFlagSyn :: c.completion)).flatten

/-- The node's only connection is the peer's, in the given state. -/
def Node.HasOnly (σ : Node) (p : Nat) (state : TcpState) : Prop :=
  ∃ conn, σ.connections = some [(p, conn)] ∧ conn.Matches 0x0A000202 5555 σ.aetherIp 80 ∧
    conn.state = state

/-- The node has no connection, room for a TCB, and left `n` blocks behind. -/
structure Setup.Idle (c : Setup) (n : Nat) (σ : Node) : Prop where
  reaches : c.Reaches σ
  connections : σ.connections = some []
  room : ¬ σ.heap.Refuses sizeofTcb
  leaks : n ≤ σ.log.countP Event.Leaks

section Reopening

variable {c : Setup} {σ σ' : Node} {L : Ledger} {p : Nat} {conn : Conn}

/-- The peer's segment arrives. -/
theorem input_fromPeer (h : c.Sound σ L) (seq : UInt32) (flags : UInt8) :
    ∃ σ₀ : Node, L.Holds σ₀ [] ∧ σ₀.heap = σ.heap ∧ σ₀.aetherIp = σ.aetherIp ∧
      σ₀.server L = σ.server L ∧ σ.input (c.fromPeer seq flags) =
        ((segmentArrives (peerSegment seq flags) 0x0A000202 σ.aetherIp).run σ₀).map Prod.snd := by
  let peer : Conn := { Conn.samplePeer seq 0 with remoteIp := c.ip }
  let bytes := tcpSegment peer flags []
  have hlength : (UInt16.ofNat bytes.length).toNat = bytes.length := by
    rw [length_tcpSegment]
    rfl
  have haccept : acceptSegment 0x0A000202 σ.aetherIp
      (readBytes (writeBytes σ.rxBuffers 0 bytes) 0 (UInt16.ofNat bytes.length).toNat) =
        some (peerSegment seq flags) := by
    rw [hlength, read_write_same, h.ip]
    exact acceptSegment_eq_some.mpr ⟨Segment.parse_tcpSegment peer flags [],
      tcpValidateChecksum_tcpSegment peer flags [] (Nat.zero_le _)⟩
  refine ⟨{ σ with rxBuffers := writeBytes σ.rxBuffers 0 bytes },
    h.holds.outside σ.netStats σ.rxQueue _ σ.arpCache, rfl, rfl, rfl, ?_⟩
  have hserves := tcpInputProcess_serves { σ with rxBuffers := writeBytes σ.rxBuffers 0 bytes } 0
    (UInt16.ofNat bytes.length) 0x0A000202 σ.aetherIp
  rw [haccept] at hserves
  exact congrArg (Option.map Prod.snd) hserves

/-- The node's only connection is found. -/
theorem Node.HasOnly.find {state : TcpState} (honly : σ.HasOnly p state) (h : L.Holds σ []) :
    ∃ conn, conn.state = state ∧ (σ.server L).conns = [(p, conn)] ∧
      conn.Matches 0x0A000202 5555 σ.aetherIp 80 ∧
      (σ.server L).find 0x0A000202 5555 σ.aetherIp 80 = some (p, conn) := by
  obtain ⟨conn, hconns, hmatches, hstate⟩ := honly
  rw [h.connections_eq, Option.some_inj] at hconns
  refine ⟨conn, hstate, hconns, hmatches, ?_⟩
  rw [Server.find, hconns]
  exact List.find?_cons_of_pos (decide_eq_true hmatches)

/-- Tame acts that do not remove the only connection leave it the only one. -/
theorem Performs.alone {acts : List Act} {s s' : Server} (h : Performs p acts s s')
    (hs : s.conns = [(p, conn)]) (htame : Tame acts) (hremove : .remove ∉ acts) :
    ∃ d, s'.conns = [(p, d)] ∧ d.fourTuple = conn.fourTuple ∧ Evolves acts conn d := by
  obtain ⟨d, hd⟩ := h.conn hremove (c := conn) (by rw [hs]; exact List.mem_cons_self)
  obtain ⟨_, hmem, hevolves⟩ := h.conn_back hd
  rw [hs, List.mem_singleton] at hmem
  cases hmem
  have htuples := (h.frame htame).2
  have hbefore : s.tuples = [(p, conn.fourTuple)] := by
    rw [Server.tuples, hs]
    rfl
  have hafter : s'.tuples = [(p, conn.fourTuple)] := by
    rw [hbefore, List.sublist_singleton] at htuples
    refine htuples.resolve_left fun hnil ↦ ?_
    rw [Server.tuples, List.map_eq_nil_iff] at hnil
    rw [hnil] at hd
    cases hd
  obtain ⟨e, hconns, htuple⟩ := List.map_eq_singleton_iff.mp hafter
  rw [hconns, List.mem_singleton] at hd
  subst hd
  exact ⟨d, hconns, congrArg Prod.snd htuple, hevolves⟩

/-- A segment for the only connection makes it answer. -/
theorem Node.HasOnly.answers {state : TcpState} (honly : σ.HasOnly p state) (h : c.Reaches σ)
    (seq : UInt32) (flags : UInt8)
    (hkeeps : ∀ conn : Conn, conn.state = state →
      .remove ∉ conn.respond p (peerSegment seq flags)) :
    ∃ σ', σ.input (c.fromPeer seq flags) = some σ' ∧
      σ.log.countP Event.Leaks ≤ σ'.log.countP Event.Leaks ∧
      ∃ conn d, conn.state = state ∧ Evolves (conn.respond p (peerSegment seq flags)) conn d ∧
        σ'.HasOnly p d.state := by
  obtain ⟨L, hs⟩ := h.sound
  obtain ⟨conn, hstate, hconns, hmatches, hfind⟩ := honly.find hs.holds
  obtain ⟨σ₀, hL, -, hip, hserver, hinput⟩ := input_fromPeer hs seq flags
  obtain ⟨_, σ', hrun, L', hL', haddresses, hreceives⟩ :=
    segmentArrives_spec hL (peerSegment seq flags) 0x0A000202 σ.aetherIp
  rw [hserver] at hreceives
  rw [hrun, Option.map_some] at hinput
  have hperforms := hreceives.answers hfind
  obtain ⟨d, hd, htuple, hevolves⟩ := hperforms.alone hconns (conn.tame_respond p _)
    (hkeeps conn hstate)
  have hlog : σ.log <:+ σ'.log := hreceives.log
  refine ⟨σ', hinput, hlog.sublist.countP_le, conn, d, hstate, hevolves, d, ?_, ?_, rfl⟩
  · rw [hL'.connections_eq, hd]
  · rw [haddresses.ip, hip]
    simp only [Conn.fourTuple, Prod.mk.injEq] at htuple
    simp only [Conn.Matches] at hmatches ⊢
    rwa [htuple.1, htuple.2.1, htuple.2.2.1, htuple.2.2.2]

/-- An acknowledgement completes the handshake. -/
theorem Node.HasOnly.established (honly : σ.HasOnly p .synReceived) (h : c.Reaches σ)
    (seq : UInt32) : ∃ σ', σ.input (c.fromPeer seq tcpFlagAck) = some σ' ∧
      σ.log.countP Event.Leaks ≤ σ'.log.countP Event.Leaks ∧ σ'.HasOnly p .established := by
  have hack : (peerSegment seq tcpFlagAck).Has tcpFlagAck := by
    show tcpFlagAck &&& tcpFlagAck ≠ 0
    decide
  obtain ⟨σ', hinput, hleaks, conn, d, hstate, hevolves, honly'⟩ :=
    honly.answers h seq tcpFlagAck fun conn hstate ↦ by simp [Conn.respond, hstate, hack]
  simp only [Conn.respond, hstate, if_pos hack] at hevolves
  obtain ⟨_, rfl, _, rfl, rfl⟩ := hevolves
  exact ⟨σ', hinput, hleaks, honly'⟩

/-- A FIN makes the node close its side. -/
theorem Node.HasOnly.closing (honly : σ.HasOnly p .established) (h : c.Reaches σ) (seq : UInt32) :
    ∃ σ', σ.input (c.fromPeer seq tcpFlagFin) = some σ' ∧
      σ.log.countP Event.Leaks ≤ σ'.log.countP Event.Leaks ∧ σ'.HasOnly p .lastAck := by
  have hflag : (peerSegment seq tcpFlagFin).Has tcpFlagFin := by
    show tcpFlagFin &&& tcpFlagFin ≠ 0
    decide
  have hempty : ∀ conn : Conn, ¬ conn.Expects (peerSegment seq tcpFlagFin) :=
    fun conn hexpects ↦ absurd hexpects.1 (show ¬ UInt16.ofNat 0 > 0 by decide)
  obtain ⟨σ', hinput, hleaks, conn, d, hstate, hevolves, honly'⟩ :=
    honly.answers h seq tcpFlagFin fun conn hstate ↦ by
      simp [Conn.respond, hstate, hempty, hflag, finActs, ackActs, closeActs]
  simp only [Conn.respond, hstate, if_neg (hempty conn), if_pos hflag, List.nil_append] at hevolves
  rw [hevolves.fin] at honly'
  exact ⟨σ', hinput, hleaks, honly'⟩

/-- The acknowledgement of its FIN makes the node drop the connection, whose block is then free. -/
theorem Node.HasOnly.removed (honly : σ.HasOnly p .lastAck) (h : c.Reaches σ) (seq : UInt32) :
    ∃ σ', σ.input (c.fromPeer seq tcpFlagAck) = some σ' ∧
      σ.log.countP Event.Leaks ≤ σ'.log.countP Event.Leaks ∧ σ'.connections = some [] ∧
      ¬ σ'.heap.Refuses sizeofTcb := by
  let seg := peerSegment seq tcpFlagAck
  obtain ⟨L, hs⟩ := h.sound
  obtain ⟨conn, hstate, hconns, -, hfind⟩ := honly.find hs.holds
  obtain ⟨σ₀, hL, -, -, hserver, hinput⟩ := input_fromPeer hs seq tcpFlagAck
  rw [← hserver] at hconns hfind
  have hmem : (p, conn) ∈ (σ₀.server L).conns := List.mem_of_find?_eq_some hfind
  have hnoted := hL.record (e := .lookup 0x0A000202 σ.aetherIp seg (some (p, conn))) rfl
  obtain ⟨next, -, hread⟩ := hnoted.readConn hmem
  let close : Conn → Conn := fun c ↦ { c with state := .closed }
  obtain ⟨L₁, σ₁, hupdate, hL₁, -, hserver₁, -⟩ := updateTcb_run hnoted hmem
    (f := fun t ↦ { t with state := .closed }) (g := close) fun _ _ ↦ rfl
  have hmem₁ : (p, close conn) ∈ (σ₁.server L₁).conns := by
    rw [hserver₁]
    exact Server.mem_update hmem close
  obtain ⟨_, σ', hremove, L', hL', -, hdoes, -, hroom⟩ := tcpRemoveTcb_releases hL₁ hmem₁
  have hrun : (segmentArrives seg 0x0A000202 σ.aetherIp).run σ₀ = some ((), σ') := by
    rw [segmentArrives_some hL hfind, stateMachine, run_bind_of_run hread]
    dsimp only
    rw [hstate]
    dsimp only
    rw [if_pos (show seg.flags &&& tcpFlagAck ≠ 0 from (by decide : tcpFlagAck &&& tcpFlagAck ≠ 0)),
      run_bind_of_run hupdate]
    exact hremove
  rw [hrun, Option.map_some] at hinput
  have hserver' := hdoes.removed
  have hlog : σ₀.log <:+ σ'.log := by
    have : σ'.log = .removed p :: σ₁.log := congrArg Server.log hserver'
    have hlog₁ : σ₁.log = .lookup 0x0A000202 σ.aetherIp seg (some (p, conn)) :: σ₀.log :=
      congrArg Server.log hserver₁
    rw [this, hlog₁]
    exact (List.suffix_cons _ _).trans (List.suffix_cons _ _)
  rw [show σ₀.log = σ.log from congrArg Server.log hserver] at hlog
  refine ⟨σ', hinput, hlog.sublist.countP_le, ?_, hroom⟩
  rw [hL'.connections_eq, hserver', hserver₁]
  show some (List.filter _ (List.map _ (σ₀.server L).conns)) = some []
  rw [hconns]
  simp

/-- A synchronisation opens the connection. Unless a block is left behind, it was not answered. -/
theorem Setup.Idle.opens {n : Nat} (h : c.Idle n σ) (seq : UInt32) :
    ∃ σ', σ.input (c.fromPeer seq tcpFlagSyn) = some σ' ∧
      (¬ σ'.Consistent ∨ n + 1 ≤ σ'.log.countP Event.Leaks ∧ ∃ p, σ'.HasOnly p .synReceived) := by
  let seg := peerSegment seq tcpFlagSyn
  obtain ⟨L, hs⟩ := h.reaches.sound
  obtain ⟨σ₀, hL, hheap, hip, hserver, hinput⟩ := input_fromPeer hs seq tcpFlagSyn
  have hconns : (σ₀.server L).conns = [] := by
    rw [← Option.some_inj, hserver, ← hs.holds.connections_eq, h.connections]
  have hfind : (σ₀.server L).find 0x0A000202 seg.srcPort σ.aetherIp seg.dstPort = none := by
    rw [Server.find, hconns]
    rfl
  have hopens : seg.Opens := ⟨show tcpFlagSyn &&& tcpFlagSyn ≠ 0 by decide, rfl⟩
  have hlog : σ₀.log = σ.log := congrArg Server.log hserver
  have harrives := segmentArrives_none hL hfind
  rw [if_pos hopens] at harrives
  have hnoted := hL.record (e := .lookup 0x0A000202 σ.aetherIp seg none) rfl
  rcases passiveOpen_run hnoted seg 0x0A000202 σ.aetherIp with ⟨hcall, -⟩ |
    ⟨p, heap, L₁, σ₁, -, -, -, -, h₁, haddresses, hserver₁, hrun⟩
  · have hcall : kmalloc σ₀.heap sizeofTcb = some (0, σ₀.heap) := hcall
    refine absurd ((hL.owns.kmalloc_eq_null (by decide) hcall).mp rfl) ?_
    rw [hheap]
    exact h.room
  · let opened := seg.opened 0x0A000202 σ.aetherIp σ₀.tcpGlobalIsn
    have hconns₁ : (σ₁.server L₁).conns = [(p, opened)] := by
      rw [hserver₁]
      exact congrArg (List.cons (p, opened)) hconns
    obtain ⟨_, σ', hsend, L', h', haddresses', hcase⟩ := tcpSendSegment_spec h₁
      (hconns₁ ▸ List.mem_cons_self) (tcpFlagSyn ||| tcpFlagAck) [] (Nat.zero_le _)
    rw [harrives, hrun, show (tcpSendSynack p).run σ₁ = _ from hsend] at hinput
    refine ⟨σ', hinput, ?_⟩
    have hlog₁ : σ₁.log = .passiveOpen p σ₀.tcpGlobalIsn seg.seq ::
        .lookup 0x0A000202 σ.aetherIp seg none :: σ₀.log := congrArg Server.log hserver₁
    -- without memory for the SYN-ACK the promise is broken; otherwise there is one more leak
    rcases hcase with hdropped | ⟨e, he, hsent⟩
    · refine .inl fun hconsistent ↦ ?_
      have hmem : (p, opened) ∈ (σ'.server L').conns := by
        rw [hdropped]
        exact hconns₁ ▸ List.mem_cons_self
      obtain ⟨ℓ, hℓ, hpromise⟩ := h'.consistent_iff.mp hconsistent p opened hmem
      rw [hdropped] at hℓ
      have hunanswered : lifetime p (.noMemory :: σ₁.log) =
          some ⟨σ₀.tcpGlobalIsn, seg.seq, []⟩ := by
        rw [lifetime_below (e := .noMemory) (.inl trivial), hlog₁, lifetime_open]
      cases hunanswered.symm.trans hℓ
      obtain ⟨_, _, _, _, hnever, -⟩ := hpromise.synAck rfl
      cases hnever
    · have hlog' : σ'.log = e :: .handed p opened
          (tcpSegment opened (tcpFlagSyn ||| tcpFlagAck) []) :: σ₁.log := congrArg Server.log hsent
      refine .inr ⟨?_, p, opened.advance (tcpFlagSyn ||| tcpFlagAck) [], ?_, ?_, rfl⟩
      · have hleaks := h.leaks
        have hgrows : σ.log <:+ σ₁.log := by
          rw [hlog₁, hlog]
          exact (List.suffix_cons _ _).trans (List.suffix_cons _ _)
        have hkept := hgrows.sublist.countP_le (p := Event.Leaks)
        have hhanded := (List.suffix_cons e (.handed p opened
          (tcpSegment opened (tcpFlagSyn ||| tcpFlagAck) []) :: σ₁.log)).sublist.countP_le
            (p := Event.Leaks)
        rw [List.countP_cons_of_pos rfl] at hhanded
        rw [hlog']
        omega
      · rw [h'.connections_eq, hsent]
        show some (List.map _ (σ₁.server L₁).conns) = _
        rw [hconns₁, List.map_singleton, if_pos rfl]
      · rw [haddresses'.ip, haddresses.ip]
        exact ⟨rfl, rfl, hip.symm, rfl⟩

/-- Opening and closing the connection once leaves a block behind, if the synchronisation was
answered at all. -/
theorem Setup.Idle.reopens {n : Nat} (h : c.Idle n σ) :
    ∃ σ₁, σ.input (c.fromPeer 100 tcpFlagSyn) = some σ₁ ∧ (¬ σ₁.Consistent ∨
      ∃ σ', c.completion.foldlM Node.input σ₁ = some σ' ∧ c.Idle (n + 1) σ') := by
  obtain ⟨σ₁, hsyn, hcase⟩ := h.opens 100
  refine ⟨σ₁, hsyn, hcase.imp_right fun hopened ↦ ?_⟩
  obtain ⟨hleaks, p, hreceived⟩ := hopened
  have hreaches₁ := Node.input_reaches h.reaches hsyn
  obtain ⟨σ₂, hack, hleaks₂, hestablished⟩ := hreceived.established hreaches₁ 101
  have hreaches₂ := Node.input_reaches hreaches₁ hack
  obtain ⟨σ₃, hfin, hleaks₃, hclosing⟩ := hestablished.closing hreaches₂ 101
  have hreaches₃ := Node.input_reaches hreaches₂ hfin
  obtain ⟨σ₄, hlast, hleaks₄, hconns, hroom⟩ := hclosing.removed hreaches₃ 102
  have hkept : n + 1 ≤ σ₄.log.countP Event.Leaks :=
    hleaks.trans (hleaks₂.trans (hleaks₃.trans hleaks₄))
  refine ⟨σ₄, ?_, Node.input_reaches hreaches₃ hlast, hconns, hroom, hkept⟩
  rw [completion, List.foldlM_cons, hack, Option.bind_eq_bind, Option.bind_some, List.foldlM_cons,
    hfin, Option.bind_eq_bind, Option.bind_some, List.foldlM_cons, hlast]
  rfl

/-- There are not more blocks to leave behind than the heap has. -/
theorem Setup.Idle.lt {n : Nat} (h : c.Idle n σ) : n < maxBlocks := by
  obtain ⟨L, hs⟩ := h.reaches.sound
  have hbound := hs.holds.owns.length_le
  have hleaks := hs.holds.leaks ▸ h.leaks
  simp only [Ledger.regions, List.nil_append, List.length_cons, List.length_append] at hbound
  omega

/-- So the peer finds a synchronisation unanswered in the end. -/
theorem Setup.Idle.breaks {n k : Nat} (h : c.Idle n σ) (hk : n + k = maxBlocks) :
    ∃ m ≤ k, ∃ σ', (c.reopening m ++ [c.fromPeer 100 tcpFlagSyn]).foldlM Node.input σ = some σ' ∧
      ¬ σ'.Consistent := by
  induction k generalizing n σ with
  | zero => exact absurd h.lt (by omega)
  | succ k ih =>
      obtain ⟨σ₁, hsyn, hbroken | ⟨σ₂, hcompletion, hidle⟩⟩ := h.reopens
      · refine ⟨0, Nat.zero_le _, σ₁, ?_, hbroken⟩
        simp only [reopening, List.replicate_zero, List.flatten_nil, List.nil_append,
          List.foldlM_cons, List.foldlM_nil, hsyn, Option.bind_eq_bind, Option.bind_some,
          Option.pure_def]
      · obtain ⟨m, hm, σ', hrest, hbroken⟩ := ih hidle (by omega)
        refine ⟨m + 1, Nat.succ_le_succ hm, σ', ?_, hbroken⟩
        have hinputs : c.reopening (m + 1) ++ [c.fromPeer 100 tcpFlagSyn] =
            c.fromPeer 100 tcpFlagSyn ::
              (c.completion ++ (c.reopening m ++ [c.fromPeer 100 tcpFlagSyn])) := by
          simp [reopening, List.replicate_succ]
        rw [hinputs, List.foldlM_cons, hsyn, Option.bind_eq_bind, Option.bind_some,
          List.foldlM_append, hcompletion]
        exact hrest

end Reopening

/-- On the sample node the peer gets to see that the synchronisation which opens its connection once
more is not answered. -/
theorem synchronisation_unanswered : ∃ n ≤ maxBlocks, ∃ σ,
    Setup.sample.exec (Setup.sample.reopening n ++ [Setup.sample.fromPeer 100 tcpFlagSyn]) =
      some σ ∧ Setup.sample.Reaches σ ∧ ¬ σ.Consistent := by
  obtain ⟨σ₀, hexec, hreaches, hP⟩ := Setup.exec_any .sample [] (fun σ : Node ↦
    decide (σ.connections = some []) && decide (σ.heap.heapPtr + 64 ≤ heapEnd)) (by decide +kernel)
  rw [Bool.and_eq_true, decide_eq_true_eq, decide_eq_true_eq] at hP
  have hidle : Setup.sample.Idle 0 σ₀ := by
    refine ⟨hreaches, hP.1, fun hrefuses ↦ ?_, Nat.zero_le _⟩
    have hfull := hrefuses.2
    rw [show sizeofMemHeader + alignSize sizeofTcb = 64 by decide] at hfull
    exact absurd hP.2 (Nat.not_le.mpr hfull)
  obtain ⟨n, hn, σ, hinputs, hbroken⟩ := hidle.breaks (Nat.zero_add maxBlocks)
  rw [← Setup.exec_starts (Setup.exec_nil hexec)] at hinputs
  exact ⟨n, hn, σ, hinputs, Setup.exec_reaches hinputs, hbroken⟩

end Aether.Ethernet
