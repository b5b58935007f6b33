import Aether.Ethernet.Exhaustion

/-!
# Requests that find the memory they need

`HasRoom` says, of the state before a request is served, that the memory is there for the segment
which the server will promise. With room the handlers complete what they begin.
-/

namespace Aether.Ethernet

open ByteMemory Kernel Drivers Common Program Transition

/-! ## Room for what is promised -/

/-- Once `size` bytes were asked for, there is room for a segment without payload. -/
def LeavesRoom (heap : Heap) (size : Nat) : Prop :=
  ∀ p heap', kmalloc heap size = some (p, heap') → ¬ heap'.Refuses 20

/-- There is room for the FIN that an established connection has to send after `seg`. -/
def Conn.HasRoom (c : Conn) (seg : Segment) (heap : Heap) : Prop :=
  c.state = .established →
    (c.Expects seg → LeavesRoom heap (20 + httpResponse.length)) ∧
    (¬ c.Expects seg → seg.Has tcpFlagFin → LeavesRoom heap 20)

/-- If there is room for a TCB, there is room for the synchronisation as well. -/
def OpensRoom (heap : Heap) : Prop :=
  ∀ p heap', kmalloc heap sizeofTcb = some (p, heap') → p ≠ 0 → ¬ heap'.Refuses 20

/-- There is room for the segment that the request makes the server promise. -/
def Node.HasRoom (σ : Node) : Option Request → Prop
  | some (.segment srcIp dstIp seg) =>
      ∀ conns, σ.connections = some conns →
        match conns.find? fun e ↦ e.2.Matches srcIp seg.srcPort dstIp seg.dstPort with
        | some found => found.2.HasRoom seg σ.heap
        | none => seg.Opens → OpensRoom σ.heap
  | _ => True

/-- Every connection of the node has handed over what its state promises. -/
def Node.Consistent (σ : Node) : Prop :=
  ∀ conns, σ.connections = some conns → ∀ e ∈ conns,
    ∃ ℓ, lifetime e.1 σ.log = some ℓ ∧ e.2.Consistent ℓ

/-! ## Sending with room -/

section Output

variable {L : Ledger} {σ : Node} {p : Nat} {c : Conn} {acts : List Act}

/-- Assignments in between do not take up memory. -/
theorem LeavesRoom.sameBlocks {heap heap' : Heap} {size : Nat} (h : LeavesRoom heap size)
    (hsize : size < 2 ^ 32) (hblocks : heap.SameBlocks heap') : LeavesRoom heap' size := by
  intro p served' hcall'
  obtain ⟨served, hcall, hserved⟩ := hblocks.kmalloc hsize hcall'
  rw [hserved.refuses_iff]
  exact h p served hcall

/-- A node is consistent when its server is. -/
theorem Ledger.Holds.consistent_iff (h : L.Holds σ []) :
    σ.Consistent ↔ (σ.server L).Consistent := by
  unfold Node.Consistent Server.Consistent
  simp only [h.connections_eq, Option.some.injEq, forall_eq', Prod.forall]
  rfl

/-- A FIN is handed over when there is room for it. -/
theorem tcpSendFin_handsFin (h : L.Holds σ []) (hc : (p, c) ∈ (σ.server L).conns)
    (hroom : ¬ σ.heap.Refuses 20) :
    Refines (tcpSendFin p) (HandsFin p [.send (tcpFlagFin ||| tcpFlagAck) []]) L σ := by
  refine wp_mono (tcpSendSegment_fate h hc (tcpFlagFin ||| tcpFlagAck) [] (Nat.zero_le _)) ?_
  intro _ σ' hfate
  obtain ⟨L', h', haddresses, ⟨hcall, -, -⟩ | ⟨_, _, -, -, -, e, he, hserver⟩⟩ := hfate
  · exact absurd ((h.owns.kmalloc_eq_null (by decide) hcall).mp rfl) hroom
  · exact ⟨L', h', haddresses, hserver ▸ .here hc he.isTransport (by simp) (.nil _)⟩

/-- A segment that leaves room is sent before a FIN is handed over. -/
theorem Refines.sendThen {y : Unit → Action Unit} {flags : UInt8} {payload : List UInt8}
    (h : L.Holds σ []) (hc : (p, c) ∈ (σ.server L).conns) (hlen : payload.length ≤ 65515)
    (hroom : LeavesRoom σ.heap (20 + payload.length))
    (hy : ∀ L' σ' c', L'.Holds σ' [] → (p, c') ∈ (σ'.server L').conns → c'.state = c.state →
      ¬ σ'.heap.Refuses 20 → Refines (y ()) (HandsFin p acts) L' σ') :
    Refines (tcpSendSegment p flags payload >>= y) (HandsFin p (.send flags payload :: acts))
      L σ := by
  rw [Refines, wp_bind]
  refine wp_mono (tcpSendSegment_fate h hc flags payload hlen) ?_
  intro _ σ₁ hfate
  obtain ⟨L₁, h₁, haddresses, hcase⟩ := hfate
  have hnext : ∀ c', (p, c') ∈ (σ₁.server L₁).conns → c'.state = c.state →
      ¬ σ₁.heap.Refuses 20 → Does p (.send flags payload) (σ.server L) (σ₁.server L₁) →
      wp (y ()) (fun _ σ' ↦ ∃ L' : Ledger, L'.Holds σ' [] ∧ σ.SameAddresses σ' ∧
        HandsFin p (.send flags payload :: acts) (σ.server L) (σ'.server L')) σ₁ := by
    intro c' hc' hstate hleft hdoes
    refine wp_mono (hy L₁ σ₁ c' h₁ hc' hstate hleft) ?_
    intro _ σ' hrest
    obtain ⟨L', h', haddresses', hhands⟩ := hrest
    exact ⟨L', h', haddresses.trans haddresses', .later hdoes hhands⟩
  rcases hcase with ⟨hcall, hheap, hserver⟩ | ⟨buffer, heap, hcall, -, hkeeps, e, he, hserver⟩
  · refine hnext c (by rwa [hserver]) rfl ?_ (hserver ▸ .dropped flags payload _)
    rw [hheap]
    exact hroom _ _ hcall
  · refine hnext (c.advance flags payload) ?_ (Conn.advance_state flags payload c)
      (fun hrefuses ↦ hroom _ _ hcall (hkeeps hrefuses)) ?_
    · rw [hserver]
      exact Server.mem_update hc _
    · exact hserver ▸ .sent hc he.isTransport

/-- An assignment before a FIN is handed over leaves the memory as it is. -/
theorem Refines.updateThen {y : Unit → Action Unit} {f : Tcb → Tcb} {g : Conn → Conn}
    (h : L.Holds σ []) (hc : (p, c) ∈ (σ.server L).conns)
    (hf : ∀ c next, f ⟨c, next⟩ = ⟨g c, next⟩)
    (hy : ∀ L' σ', L'.Holds σ' [] → (p, g c) ∈ (σ'.server L').conns →
      σ.heap.SameBlocks σ'.heap → Refines (y ()) (HandsFin p acts) L' σ') :
    Refines (updateTcb p f >>= y) (HandsFin p (.update g :: acts)) L σ := by
  obtain ⟨L₁, σ₁, hrun, h₁, haddresses, hserver, hblocks⟩ := updateTcb_run h hc hf
  have hc₁ : (p, g c) ∈ (σ₁.server L₁).conns := by
    rw [hserver]
    exact Server.mem_update hc g
  rw [Refines, wp_bind, wp_of_run hrun]
  refine wp_mono (hy L₁ σ₁ h₁ hc₁ hblocks) ?_
  intro _ σ' hrest
  obtain ⟨L', h', haddresses', hhands⟩ := hrest
  rw [hserver] at hhands
  exact ⟨L', h', haddresses.trans haddresses', .later (.update g _) hhands⟩

/-- Closing an open connection hands over a FIN when there is room for it. -/
theorem tcpClose_handsFin (h : L.Holds σ []) (hc : (p, c) ∈ (σ.server L).conns)
    (hstate : c.state = .established ∨ c.state = .closeWait) (hroom : ¬ σ.heap.Refuses 20) :
    Refines (tcpClose p) (HandsFin p closeActs) L σ := by
  obtain ⟨next, -, hrun⟩ := h.readConn hc
  rw [Refines, tcpClose, if_neg (h.conn_ne_zero hc), wp_bind, wp_of_run hrun, if_pos hstate]
  refine Refines.updateThen h hc (fun _ _ ↦ rfl) fun L' σ' h' hc' hblocks ↦ ?_
  exact tcpSendFin_handsFin h' hc' (by rwa [hblocks.refuses_iff])

/-- Answering a payload and closing hands over a FIN when there is room for both. -/
theorem socketDispatch_handsFin (h : L.Holds σ []) (hc : (p, c) ∈ (σ.server L).conns)
    (hstate : c.state = .established) (payload : List UInt8)
    (hroom : LeavesRoom σ.heap (20 + httpResponse.length)) :
    Refines (socketDispatch p payload) (HandsFin p (dispatchActs p payload)) L σ := by
  have hnoted := h.record (e := .dispatched p payload) rfl
  obtain ⟨next, -, hrun⟩ := hnoted.readConn hc
  have hdata : (tcpSendData p httpResponse).run { σ with log := .dispatched p payload :: σ.log } =
      (tcpSendSegment p (tcpFlagPsh ||| tcpFlagAck) httpResponse).run
        { σ with log := .dispatched p payload :: σ.log } := by
    rw [tcpSendData, if_neg (h.conn_ne_zero hc), run_bind_of_run hrun, if_pos hstate]
  have hrest : Refines (tcpSendSegment p (tcpFlagPsh ||| tcpFlagAck) httpResponse >>= fun _ ↦
      tcpClose p) (HandsFin p (.send (tcpFlagPsh ||| tcpFlagAck) httpResponse :: closeActs)) L
      { σ with log := .dispatched p payload :: σ.log } :=
    Refines.sendThen hnoted hc length_httpResponse hroom fun L' σ' c' h' hc' hsame hleft ↦
      tcpClose_handsFin h' hc' (.inl (hsame.trans hstate)) hleft
  have hsent : Refines (do tcpSendData p httpResponse; tcpClose p) (HandsFin p
      (.send (tcpFlagPsh ||| tcpFlagAck) httpResponse :: closeActs)) L
      { σ with log := .dispatched p payload :: σ.log } := by
    unfold Refines wp at hrest ⊢
    rw [StateT.run_bind] at hrest ⊢
    rwa [hdata]
  unfold socketDispatch dispatchActs
  refine (Refines.afterNote hsent).mono fun s' hhands ↦ ?_
  exact .later (.note (.dispatched p payload) (σ.server L)) hhands

/-- Accepting a payload hands over a FIN when there is room for the answer and the FIN. -/
theorem accept_handsFin (h : L.Holds σ []) (hc : (p, c) ∈ (σ.server L).conns)
    (hstate : c.state = .established) (seg : Segment)
    (hroom : LeavesRoom σ.heap (20 + httpResponse.length)) {y : Action Unit}
    {acts : List Act} (hkeeps : ∀ a ∈ acts, a.KeepsFin)
    (hy : ∀ L' σ' c', L'.Holds σ' [] → (p, c') ∈ (σ'.server L').conns →
      Refines y (Performs p acts) L' σ') :
    Refines (do
      updateTcb p fun t ↦
        { t with rcvNxt := t.rcvNxt + (UInt16.ofNat seg.payload.length).toUInt32 }
      socketDispatch p seg.payload
      tcpSendAck p
      y) (HandsFin p (acceptActs p seg ++ acts)) L σ := by
  have hack : ∀ a ∈ ackActs ++ acts, a.KeepsFin := by
    refine List.forall_mem_append.mpr ⟨List.forall_mem_singleton.mpr ⟨rfl, .inl ?_⟩, hkeeps⟩
    decide
  rw [acceptActs, List.cons_append, List.append_assoc]
  refine Refines.updateThen h hc (fun _ _ ↦ rfl) fun L₁ σ₁ h₁ hc₁ hblocks ↦ ?_
  have hroom₁ := hroom.sameBlocks (by have := length_httpResponse; omega) hblocks
  refine (socketDispatch_handsFin h₁ hc₁ hstate seg.payload hroom₁).seq
    ?_ fun s' s'' hhands (hrest : Performs p (ackActs ++ acts) s' s'') ↦ hhands.append hack hrest
  intro L₂ σ₂ h₂ hhands
  obtain ⟨c₂, hc₂⟩ := hhands.performs.conn (by simp [dispatchActs, closeActs]) hc₁
  exact Refines.append (tcpSendAck_spec h₂ hc₂) (by simp [ackActs]) hc₂ hy

/-- Handling a FIN hands one over when there is room for the acknowledgement and the FIN. -/
theorem fin_handsFin (h : L.Holds σ []) (hc : (p, c) ∈ (σ.server L).conns) (seg : Segment)
    (hroom : LeavesRoom σ.heap 20) :
    Refines (do
      updateTcb p fun t ↦ { t with rcvNxt := seg.seq + 1 }
      tcpSendAck p
      updateTcb p fun t ↦ { t with state := .closeWait }
      tcpClose p) (HandsFin p (finActs seg)) L σ := by
  rw [finActs]
  refine Refines.updateThen h hc (fun _ _ ↦ rfl) fun L₁ σ₁ h₁ hc₁ hblocks ↦ ?_
  have hroom₁ := hroom.sameBlocks (by decide) hblocks
  have hempty : ([] : List UInt8).length ≤ 65515 := Nat.zero_le _
  refine Refines.sendThen h₁ hc₁ hempty hroom₁
    fun L₂ σ₂ c₂ h₂ hc₂ _ hleft ↦ ?_
  refine Refines.updateThen h₂ hc₂ (fun _ _ ↦ rfl) fun L₃ σ₃ h₃ hc₃ hblocks₃ ↦ ?_
  exact tcpClose_handsFin h₃ hc₃ (.inr rfl) (by rwa [hblocks₃.refuses_iff])

theorem keepsFin_finActs (seg : Segment) : ∀ a ∈ finActs seg, a.KeepsFin := by
  intro a ha
  simp only [finActs, ackActs, closeActs, List.cons_append, List.nil_append, List.mem_cons,
    List.not_mem_nil, or_false] at ha
  rcases ha with rfl | rfl | rfl | rfl | rfl
  · exact fun _ ↦ rfl
  · exact ⟨rfl, .inl (by decide)⟩
  · exact fun _ ↦ rfl
  · exact fun _ ↦ rfl
  · exact ⟨rfl, .inr (by decide)⟩

/-- An established connection that has to close hands over its FIN when there is room for it. -/
theorem stateMachine_handsFin (h : L.Holds σ []) (hc : (p, c) ∈ (σ.server L).conns)
    (hstate : c.state = .established) (seg : Segment) (hroom : c.HasRoom seg σ.heap)
    (howes : c.Expects seg ∨ seg.Has tcpFlagFin) :
    Refines (stateMachine p seg) (HandsFin p (c.respond p seg)) L σ := by
  obtain ⟨next, -, hrun⟩ := h.readConn hc
  obtain ⟨hdata, hfin⟩ := hroom hstate
  rw [Refines, stateMachine, wp_bind, wp_of_run hrun]
  unfold Conn.respond
  dsimp only
  rw [hstate]
  dsimp only
  rw [establishedInput, wp_bind, wp_of_run hrun]
  dsimp only
  by_cases hexpects : c.Expects seg
  · rw [if_pos (show UInt16.ofNat seg.payload.length > 0 ∧ seg.seq = c.rcvNxt from hexpects),
      if_pos hexpects]
    refine accept_handsFin h hc hstate seg (hdata hexpects) ?_ fun L' σ' c' h' hc' ↦
      Refines.flagged h' seg tcpFlagFin (fin_spec h' hc' seg)
    split
    · exact keepsFin_finActs seg
    · simp
  · have hflag := howes.resolve_left hexpects
    rw [if_neg (show ¬ (UInt16.ofNat seg.payload.length > 0 ∧ seg.seq = c.rcvNxt) from hexpects),
      if_neg hexpects, if_pos hflag, List.nil_append]
    show wp (if seg.flags &&& tcpFlagFin ≠ 0 then _ else pure ()) _ σ
    rw [if_pos (show seg.flags &&& tcpFlagFin ≠ 0 from hflag)]
    exact fin_handsFin h hc seg (hfin hexpects hflag)

/-- A new connection's synchronisation is handed over when there is room for it. -/
theorem passiveOpen_hands (h : L.Holds σ []) (seg : Segment) (srcIp dstIp : UInt32)
    (hroom : OpensRoom σ.heap) :
    Refines (passiveOpen seg srcIp dstIp) (fun s s' ↦ s' = s.record .noMemory ∨
      ∃ p e, p ∉ s.conns.map Prod.fst ∧ e.IsTransport ∧ s' = Server.sent
        { conns := (p, seg.opened srcIp dstIp s.isn) :: s.conns
          isn := s.isn + 1000
          log := .passiveOpen p s.isn seg.seq :: s.log } p
        (seg.opened srcIp dstIp s.isn) (tcpFlagSyn ||| tcpFlagAck) e) L σ := by
  rcases passiveOpen_run h seg srcIp dstIp with ⟨-, hrun⟩ |
    ⟨p, heap, L₁, σ₁, hcall, hne, hblocks, hfresh, h₁, haddresses, hserver, hrun⟩
  · exact ⟨(), _, hrun, L, h.record rfl, ⟨rfl, rfl⟩, .inl rfl⟩
  · have hc : (p, seg.opened srcIp dstIp σ.tcpGlobalIsn) ∈ (σ₁.server L₁).conns := by
      rw [hserver]
      exact List.mem_cons_self
    have hleft : ¬ σ₁.heap.Refuses 20 := by
      rw [hblocks.refuses_iff]
      exact hroom p heap hcall hne
    obtain ⟨⟨⟩, σ', hsend, L', h', haddresses', hcase⟩ :=
      tcpSendSegment_fate h₁ hc (tcpFlagSyn ||| tcpFlagAck) [] (Nat.zero_le _)
    rcases hcase with ⟨hrefused, -, -⟩ | ⟨_, _, -, -, -, e, he, hsent⟩
    · exact absurd ((h₁.owns.kmalloc_eq_null (by decide) hrefused).mp rfl) hleft
    · rw [hserver] at hsent
      exact ⟨(), σ', hrun.trans hsend, L', h', haddresses.trans haddresses',
        .inr ⟨p, e, hfresh, he.isTransport, hsent⟩⟩

end Output

/-! ## Serving with room -/

section Serving

variable {L : Ledger} {σ σ' : Node} {request : Option Request}

/-- A valid segment that has room makes the server receive it completely. -/
theorem segmentArrives_completes (h : L.Holds σ []) (seg : Segment) (srcIp dstIp : UInt32)
    (hroom : σ.HasRoom (some (.segment srcIp dstIp seg))) :
    Refines (segmentArrives seg srcIp dstIp) (Server.Completes srcIp dstIp seg) L σ := by
  have hroom := hroom _ h.connections_eq
  cases hfind : (σ.server L).find srcIp seg.srcPort dstIp seg.dstPort with
  | none =>
      have hnoted := h.record (e := .lookup srcIp dstIp seg none) rfl
      rw [show List.find? _ _ = none from hfind] at hroom
      have hrun := segmentArrives_none h hfind
      suffices hrest : Refines (if seg.Opens then passiveOpen seg srcIp dstIp
          else tcpSendRst dstIp srcIp seg.dstPort seg.srcPort seg.ack 0)
          (fun s s' ↦ ∀ s₀ : Server, s₀.find srcIp seg.srcPort dstIp seg.dstPort = none →
            s = s₀.record (.lookup srcIp dstIp seg none) →
            Server.Completes srcIp dstIp seg s₀ s') L
          { σ with log := .lookup srcIp dstIp seg none :: σ.log } by
        obtain ⟨_, σ', hrun', L', h', haddresses, hcompletes⟩ := hrest
        exact ⟨(), σ', hrun.trans hrun', L', h',
          (Node.SameAddresses.refl σ).via haddresses ⟨rfl, rfl⟩, hcompletes _ hfind rfl⟩
      by_cases hopens : seg.Opens
      · rw [if_pos hopens]
        refine (passiveOpen_hands hnoted seg srcIp dstIp (hroom hopens)).mono ?_
        rintro s' hcase s₀ hfind₀ hs
        rw [hs] at hcase
        rcases hcase with rfl | ⟨p, e, hfresh, he, rfl⟩
        · exact .refused hfind₀ hopens
        · exact .opened hfind₀ hopens hfresh he
      · rw [if_neg hopens]
        refine (tcpSendRst_spec hnoted dstIp srcIp seg.dstPort seg.srcPort seg.ack 0).mono ?_
        rintro s' ⟨e, he, rfl⟩ s₀ hfind₀ hs
        rw [hs]
        exact .reset hfind₀ hopens he
  | some found =>
      obtain ⟨p, c⟩ := found
      have hc : (p, c) ∈ (σ.server L).conns := List.mem_of_find?_eq_some hfind
      have hnoted := h.record (e := .lookup srcIp dstIp seg (some (p, c))) rfl
      rw [show List.find? _ _ = some (p, c) from hfind] at hroom
      rw [Refines, wp_segmentArrives h hfind]
      -- only an open connection that gets data or a FIN owes one itself
      by_cases howes : c.state = .established ∧ (c.Expects seg ∨ seg.Has tcpFlagFin)
      · refine wp_mono (stateMachine_handsFin hnoted hc howes.1 seg hroom howes.2) ?_
        intro _ σ' hrest
        obtain ⟨L', h', haddresses, hhands⟩ := hrest
        exact ⟨L', h', (Node.SameAddresses.refl σ).via haddresses ⟨rfl, rfl⟩,
          .found hfind hhands.performs fun _ _ ↦ hhands⟩
      · refine wp_mono (stateMachine_spec hnoted hc seg) ?_
        intro _ σ' hrest
        obtain ⟨L', h', haddresses, hperforms⟩ := hrest
        exact ⟨L', h', (Node.SameAddresses.refl σ).via haddresses ⟨rfl, rfl⟩,
          .found hfind hperforms fun hstate howed ↦ absurd ⟨hstate, howed⟩ howes⟩

/-- Appending records of the layers below keeps the connections consistent. -/
theorem Server.Consistent.append {s : Server} (h : s.Consistent) {new : List Event}
    (hnew : ∀ e ∈ new, e.IsBelow) : Server.Consistent { s with log := new ++ s.log } := by
  induction new with
  | nil => exact h
  | cons e new ih =>
      obtain ⟨he, hrest⟩ := List.forall_mem_cons.mp hnew
      exact (ih hrest).below he

/-- Moves of the receiving side change nothing about the memory. -/
theorem Node.Received.ledger (hreceived : σ.Received σ') (h : L.Holds σ []) : L.Holds σ' [] := by
  obtain ⟨rxQueue, rx, stats, new, rfl, hnew⟩ := hreceived
  have hbelow : new.countP Event.Leaks = 0 := by
    rw [List.countP_eq_zero]
    intro e he
    obtain ⟨frame, rfl⟩ := hnew e he
    exact Bool.false_ne_true
  have houtside := h.outside stats rxQueue rx σ.arpCache
  exact { houtside with
    leaks := by
      show _ = (new ++ σ.log).countP Event.Leaks
      rw [List.countP_append, hbelow, Nat.zero_add]
      exact houtside.leaks }

/-- They change nothing about the connections. -/
theorem Node.Received.holds (hreceived : σ.Received σ') (h : L.Holds σ [])
    (hs : (σ.server L).Consistent) : L.Holds σ' [] ∧ (σ'.server L).Consistent := by
  refine ⟨hreceived.ledger h, ?_⟩
  obtain ⟨_, _, _, new, rfl, hnew⟩ := hreceived
  exact hs.append fun e he ↦ .inr (hnew e he)

/-- They leave the memory alone, too. -/
theorem Node.Received.hasRoom (hreceived : σ.Received σ') :
    σ'.HasRoom request ↔ σ.HasRoom request := by
  obtain ⟨_, _, _, _, rfl, -⟩ := hreceived
  exact Iff.rfl

/-- An ARP packet that is accepted moves at most the record. -/
theorem arpArrives_records (h : L.Holds σ []) (arp : ArpPacket) :
    wp (arpArrives arp) (fun _ σ' ↦ ∃ (L' : Ledger) (new : List Event), L'.Holds σ' [] ∧
      σ'.server L' = { σ.server L with log := new ++ σ.log } ∧ ∀ e ∈ new, e.IsTransport) σ := by
  have hcached := h.outside σ.netStats σ.rxQueue σ.rxBuffers
    (arpCacheInsert (htonl arp.senderIp) arp.senderMac σ.arpCache)
  unfold arpArrives
  rw [wp_bind, wp_modify]
  split
  · exact wp_pure.mpr ⟨L, [], hcached, rfl, by simp⟩
  · rw [wp_bind, wp_get]
    dsimp only
    split
    · exact wp_pure.mpr ⟨L, [], hcached, rfl, by simp⟩
    · have hsend := ethernetSend_spec hcached arp.senderMac ethTypeArp
        (.stack (arpReply σ.aetherMac σ.aetherIp arp).bytes) _ rfl
        (by rw [ArpPacket.length_bytes]; omega)
      rw [ArpPacket.length_bytes] at hsend
      refine wp_mono hsend ?_
      rintro _ σ' ⟨L', e, h', hsame, htransmits, he⟩
      exact ⟨L', [e], h', htransmits.server hsame, List.forall_mem_singleton.mpr he.isTransport⟩

/-- It leaves every connection as consistent as it was. -/
theorem arpArrives_consistent (h : L.Holds σ []) (hs : (σ.server L).Consistent) (arp : ArpPacket) :
    wp (arpArrives arp)
      (fun _ σ' ↦ ∃ L' : Ledger, L'.Holds σ' [] ∧ (σ'.server L').Consistent) σ := by
  refine wp_mono (arpArrives_records h arp) ?_
  intro _ σ' hrecords
  obtain ⟨L', new, h', hserver, hnew⟩ := hrecords
  refine ⟨L', h', ?_⟩
  rw [hserver]
  exact hs.append fun e he ↦ .inl (hnew e he)

end Serving

end Aether.Ethernet
