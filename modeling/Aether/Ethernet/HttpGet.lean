import Aether.Ethernet.Delivery
import Aether.Ethernet.Promises

/-!
# Requests that are not GET

`is_http_get` recognises a GET request, but nothing calls it: `socket_dispatch` answers whatever is
delivered. The response to a payload is the one that a GET deserves exactly when the payload is a
GET request and the heap has room for the response, or neither is the case.
-/

namespace Aether.Ethernet

open ByteMemory Kernel Drivers Common Program Transition

/-! ## Recognising a request -/

/-- `is_http_get`. -/
def isHttpGet (data : List UInt8) (len : UInt16) : Bool :=
  if len < 3 then false
  else decide (data.getD 0 0 = 71 ∧ data.getD 1 0 = 69 ∧ data.getD 2 0 = 84)

/-! ## Deliveries in the log -/

/-- A payload that `socket_dispatch` was called with, and whether the HTTP 200 response was handed
to the IP layer on its connection before the next one was delivered. -/
structure Delivered where
  tcb : Nat
  payload : List UInt8
  answered : Bool
  deriving DecidableEq

/-- `tcp_send_segment` handed the HTTP 200 response of the TCB at `p` to the IP layer. -/
def Event.isResponse (p : Nat) : Event → Bool
  | .handed q _ bytes => q == p && (Segment.parse bytes).any fun seg ↦ seg.payload == httpResponse
  | _ => false

/-- The deliveries that a log tells of, the latest first. -/
def deliveries : List Event → List Delivered
  | [] => []
  | .dispatched p data :: rest => ⟨p, data, false⟩ :: deliveries rest
  | e :: rest =>
      match deliveries rest with
      | [] => []
      | d :: earlier => { d with answered := d.answered || e.isResponse d.tcb } :: earlier

/-- The event neither delivers a payload nor sends one. -/
def Event.IsQuiet (e : Event) : Prop := e.isDispatch = false ∧ e.sendsPayload = false

/-- The request was served as its method deserves: answered when it is a GET, and only then. -/
def Delivered.Deserved (d : Delivered) : Prop :=
  d.answered = true ↔ isHttpGet d.payload (UInt16.ofNat d.payload.length) = true

instance (d : Delivered) : Decidable d.Deserved := inferInstanceAs (Decidable (_ ↔ _))

section Log

variable {p : Nat} {e : Event} {data : List UInt8} {log new : List Event}

/-- An event that is no delivery may answer the last one. -/
theorem deliveries_cons (he : e.isDispatch = false) : deliveries (e :: log) =
    match deliveries log with
    | [] => []
    | d :: earlier => { d with answered := d.answered || e.isResponse d.tcb } :: earlier := by
  cases e with
  | dispatched => cases he
  | _ => rfl

/-- A response is a segment with payload. -/
theorem Event.IsQuiet.isResponse (he : e.IsQuiet) (p : Nat) : e.isResponse p = false := by
  obtain ⟨-, hsent⟩ := he
  cases e with
  | handed q c bytes =>
      have hempty : (Segment.parse bytes).any (fun seg ↦ !seg.payload.isEmpty) = false := hsent
      have hne : ([] == httpResponse) = false := by decide +kernel
      show (q == p && (Segment.parse bytes).any fun seg ↦ seg.payload == httpResponse) = false
      cases hparse : Segment.parse bytes with
      | none => rw [Option.any_none, Bool.and_false]
      | some seg =>
          rw [hparse] at hempty
          have hnil : seg.payload = [] := by simpa using hempty
          rw [Option.any_some, hnil, hne, Bool.and_false]
  | _ => rfl

theorem deliveries_quiet (he : e.IsQuiet) : deliveries (e :: log) = deliveries log := by
  rw [deliveries_cons he.1]
  cases deliveries log with
  | nil => rfl
  | cons d earlier => simp [he.isResponse]

theorem deliveries_append (hnew : ∀ e ∈ new, e.IsQuiet) :
    deliveries (new ++ log) = deliveries log := by
  induction new with
  | nil => rfl
  | cons e new ih =>
      obtain ⟨he, hrest⟩ := List.forall_mem_cons.mp hnew
      rw [List.cons_append, deliveries_quiet he, ih hrest]

/-- What is recorded right after a delivery decides whether it was answered. -/
theorem deliveries_dispatched (he : e.isDispatch = false) :
    deliveries (e :: .dispatched p data :: log) = ⟨p, data, e.isResponse p⟩ :: deliveries log := by
  rw [deliveries_cons he, deliveries]
  simp

end Log

/-! ## What a segment delivers -/

/-- The record went on quietly. -/
def Server.GoesOn (s s' : Server) : Prop := ∃ new, s'.log = new ++ s.log ∧ ∀ e ∈ new, e.IsQuiet

/-- The payload was delivered on the connection at `p`, and answered if and only if `room`. -/
def Server.Answers (p : Nat) (data : List UInt8) (room : Prop) (s s' : Server) : Prop :=
  ∃ new e, s'.log = new ++ e :: .dispatched p data :: s.log ∧ (∀ e ∈ new, e.IsQuiet) ∧
    e.isDispatch = false ∧ (e.isResponse p = true ↔ room)

/-- The act delivers and sends no payload. -/
def Act.IsQuiet : Act → Prop
  | .note e => e.IsQuiet
  | .send _ payload => payload = []
  | _ => True

section Servers

variable {p : Nat} {a : Act} {acts : List Act} {data : List UInt8} {room : Prop}
  {s s' s'' : Server}

theorem Event.IsTransport.isQuiet {e : Event} (he : e.IsTransport) : e.IsQuiet := by
  cases e with
  | transmitted | ringFull | noMemory => exact ⟨rfl, rfl⟩
  | _ => cases he

theorem Server.GoesOn.refl (s : Server) : s.GoesOn s := ⟨[], rfl, by simp⟩

theorem Server.GoesOn.trans (h : s.GoesOn s') (h' : s'.GoesOn s'') : s.GoesOn s'' := by
  obtain ⟨new, hlog, hnew⟩ := h
  obtain ⟨new', hlog', hnew'⟩ := h'
  refine ⟨new' ++ new, ?_, List.forall_mem_append.mpr ⟨hnew', hnew⟩⟩
  rw [hlog', hlog, List.append_assoc]

theorem Server.goesOn_record (s : Server) {e : Event} (he : e.IsQuiet) : s.GoesOn (s.record e) :=
  ⟨[e], rfl, by simpa using he⟩

/-- After the answer the record goes on quietly. -/
theorem Server.Answers.trans (h : s.Answers p data room s') (h' : s'.GoesOn s'') :
    s.Answers p data room s'' := by
  obtain ⟨new, e, hlog, hnew, he⟩ := h
  obtain ⟨new', hlog', hnew'⟩ := h'
  refine ⟨new' ++ new, e, ?_, List.forall_mem_append.mpr ⟨hnew', hnew⟩, he⟩
  rw [hlog', hlog, List.append_assoc]

/-- A segment without payload is sent quietly. -/
theorem Event.isQuiet_handed (p : Nat) (c : Conn) (flags : UInt8) :
    (Event.handed p c (tcpSegment c flags [])).IsQuiet := by
  refine ⟨rfl, ?_⟩
  rw [Event.sendsPayload, Event.sent, Segment.parse_tcpSegment]
  rfl

/-- The segment with the response is the response. -/
theorem Event.isResponse_handed (p : Nat) (c : Conn) (flags : UInt8) :
    (Event.handed p c (tcpSegment c flags httpResponse)).isResponse p = true := by
  rw [Event.isResponse, Segment.parse_tcpSegment, Option.any_some, beq_self_eq_true,
    beq_self_eq_true, Bool.and_true]

theorem Does.goesOn (h : Does p a s s') (ha : a.IsQuiet) : s.GoesOn s' := by
  cases h with
  | update f => exact .refl s
  | note e => exact s.goesOn_record ha
  | @sent flags payload _ c e hc he =>
      obtain rfl : payload = [] := ha
      exact (s.goesOn_record (Event.isQuiet_handed p c flags)).trans
        (Server.goesOn_record _ he.isQuiet)
  | dropped => exact s.goesOn_record ⟨rfl, rfl⟩
  | remove => exact Server.goesOn_record (s.remove p) ⟨rfl, rfl⟩

theorem Performs.goesOn (h : Performs p acts s s') (hacts : ∀ a ∈ acts, a.IsQuiet) :
    s.GoesOn s' := by
  induction h with
  | nil s => exact .refl s
  | cons hdoes _ ih =>
      obtain ⟨ha, hrest⟩ := List.forall_mem_cons.mp hacts
      exact (hdoes.goesOn ha).trans (ih hrest)

theorem isQuiet_closeActs : ∀ a ∈ closeActs, a.IsQuiet := by simp [closeActs, Act.IsQuiet]

theorem isQuiet_ackActs : ∀ a ∈ ackActs, a.IsQuiet := by simp [ackActs, Act.IsQuiet]

theorem isQuiet_finActs (seg : Segment) : ∀ a ∈ finActs seg, a.IsQuiet := by
  simp [finActs, ackActs, closeActs, Act.IsQuiet]

/-- Only an established connection that expects the payload delivers it. -/
theorem Conn.isQuiet_respond {c : Conn} {seg : Segment}
    (h : ¬ (c.state = .established ∧ c.Expects seg)) : ∀ a ∈ c.respond p seg, a.IsQuiet := by
  unfold Conn.respond
  cases hstate : c.state with
  | established =>
      have hexpects : ¬ c.Expects seg := fun hexpects ↦ h ⟨hstate, hexpects⟩
      dsimp only
      rw [if_neg hexpects, List.nil_append]
      split
      · exact isQuiet_finActs seg
      · simp
  | _ =>
      dsimp only
      split <;> simp [Act.IsQuiet]

/-- A segment whose payload is not delivered moves the record on quietly. -/
theorem Server.Receives.goesOn {srcIp dstIp : UInt32} {seg : Segment}
    (h : Receives srcIp dstIp seg s s') (hnone : ∀ p c,
      s.find srcIp seg.srcPort dstIp seg.dstPort = some (p, c) →
      ¬ (c.state = .established ∧ c.Expects seg)) : s.GoesOn s' := by
  cases h with
  | found hfind hperforms =>
      exact (s.goesOn_record ⟨rfl, rfl⟩).trans
        (hperforms.goesOn (Conn.isQuiet_respond (hnone _ _ hfind)))
  | refused => exact (s.goesOn_record ⟨rfl, rfl⟩).trans (Server.goesOn_record _ ⟨rfl, rfl⟩)
  | @opened _ p _ _ _ hperforms =>
      have hopened : GoesOn s ⟨(p, seg.opened srcIp dstIp s.isn) :: s.conns, s.isn + 1000,
          .passiveOpen p s.isn seg.seq :: .lookup srcIp dstIp seg none :: s.log⟩ :=
        ⟨[.passiveOpen p s.isn seg.seq, .lookup srcIp dstIp seg none], rfl,
          by simp [Event.IsQuiet, Event.isDispatch, Event.sendsPayload, Event.sent]⟩
      exact hopened.trans (hperforms.goesOn (by simp [Act.IsQuiet]))
  | reset _ _ he =>
      exact ((s.goesOn_record ⟨rfl, rfl⟩).trans (Server.goesOn_record _ ⟨rfl, rfl⟩)).trans
        (Server.goesOn_record _ he.isQuiet)

end Servers

section Answering

variable {L : Ledger} {σ : Node} {p : Nat} {c : Conn}

/-- The heap has room for the segment with the HTTP 200 response. -/
def Node.RoomForResponse (σ : Node) : Prop := ¬ σ.heap.Refuses (20 + httpResponse.length)

/-- `socket_dispatch` answers any payload when there is room for the response. -/
theorem socketDispatch_answers (h : L.Holds σ []) (hc : (p, c) ∈ (σ.server L).conns)
    (hstate : c.state = .established) (data : List UInt8) :
    Refines (socketDispatch p data) (Server.Answers p data σ.RoomForResponse) L σ := by
  have hnoted := h.record (e := .dispatched p data) rfl
  obtain ⟨next, -, hrun⟩ := hnoted.readConn hc
  have hsize : 20 + httpResponse.length < 2 ^ 32 := by
    have := length_httpResponse
    omega
  unfold socketDispatch
  refine (Refines.afterNote (R := fun s s' ↦ ∃ new e, s'.log = new ++ e :: s.log ∧
    (∀ e ∈ new, e.IsQuiet) ∧ e.isDispatch = false ∧ (e.isResponse p = true ↔ σ.RoomForResponse))
    ?_).mono fun s' hs' ↦ hs'
  rw [Refines, wp_bind, tcpSendData, if_neg (h.conn_ne_zero hc), wp_bind, wp_of_run hrun,
    if_pos hstate]
  refine wp_mono (tcpSendSegment_fate hnoted hc (tcpFlagPsh ||| tcpFlagAck) httpResponse
    length_httpResponse) ?_
  intro _ σ₁ hfate
  obtain ⟨L₁, h₁, haddresses, hcase⟩ := hfate
  -- without memory for the response only the close follows
  rcases hcase with ⟨hcall, -, hserver⟩ | ⟨buffer, heap, hcall, hne, -, e, he, hserver⟩
  · have hc₁ : (p, c) ∈ (σ₁.server L₁).conns := by rwa [hserver]
    have hrefuses := (h.owns.kmalloc_eq_null hsize hcall).mp rfl
    refine wp_mono (tcpClose_spec h₁ hc₁ (.inl hstate)) ?_
    intro _ σ₂ hclose
    obtain ⟨L₂, h₂, haddresses₂, hperforms⟩ := hclose
    obtain ⟨new, hlog, hnew⟩ := hperforms.goesOn isQuiet_closeActs
    refine ⟨L₂, h₂, haddresses.trans haddresses₂, new, .noMemory, ?_, hnew, rfl, ?_⟩
    · rw [hlog, hserver]
      rfl
    · exact iff_of_false Bool.false_ne_true fun hroom ↦ hroom hrefuses
  · have hc₁ : (p, c.advance (tcpFlagPsh ||| tcpFlagAck) httpResponse) ∈
        (σ₁.server L₁).conns := by
      rw [hserver]
      exact Server.mem_update hc _
    have hroom : σ.RoomForResponse := fun hrefuses ↦
      hne ((h.owns.kmalloc_eq_null hsize hcall).mpr hrefuses)
    refine wp_mono (tcpClose_spec h₁ hc₁ (.inl ((Conn.advance_state _ _ c).trans hstate))) ?_
    intro _ σ₂ hclose
    obtain ⟨L₂, h₂, haddresses₂, hperforms⟩ := hclose
    obtain ⟨new, hlog, hnew⟩ := hperforms.goesOn isQuiet_closeActs
    refine ⟨L₂, h₂, haddresses.trans haddresses₂, new ++ [e],
      .handed p c (tcpSegment c (tcpFlagPsh ||| tcpFlagAck) httpResponse), ?_, ?_, rfl, ?_⟩
    · rw [hlog, hserver, List.append_assoc]
      rfl
    · exact List.forall_mem_append.mpr ⟨hnew, by simpa using he.isTransport.isQuiet⟩
    · exact iff_of_true (Event.isResponse_handed p c _) hroom

/-- Accepting a payload delivers it, before an action that goes on quietly. -/
theorem accept_answers (h : L.Holds σ []) (hc : (p, c) ∈ (σ.server L).conns)
    (hstate : c.state = .established) (seg : Segment) {y : Action Unit}
    (hy : ∀ L' σ' c', L'.Holds σ' [] → (p, c') ∈ (σ'.server L').conns →
      Refines y Server.GoesOn L' σ') :
    Refines (do
      updateTcb p fun t ↦
        { t with rcvNxt := t.rcvNxt + (UInt16.ofNat seg.payload.length).toUInt32 }
      socketDispatch p seg.payload
      tcpSendAck p
      y) (Server.Answers p seg.payload σ.RoomForResponse) L σ := by
  obtain ⟨L₁, σ₁, hupdate, h₁, haddresses, hserver, hblocks⟩ := updateTcb_run h hc
    (f := fun t ↦ { t with rcvNxt := t.rcvNxt + (UInt16.ofNat seg.payload.length).toUInt32 })
    (g := fun c ↦ { c with rcvNxt := c.rcvNxt + (UInt16.ofNat seg.payload.length).toUInt32 })
    fun _ _ ↦ rfl
  have hc₁ := Server.mem_update hc fun c ↦
    { c with rcvNxt := c.rcvNxt + (UInt16.ofNat seg.payload.length).toUInt32 }
  rw [← hserver] at hc₁
  have hroom : σ₁.RoomForResponse ↔ σ.RoomForResponse := not_congr (hblocks.refuses_iff _)
  have hdispatch : Refines (socketDispatch p seg.payload) (fun s s' ↦
      s.Answers p seg.payload σ.RoomForResponse s' ∧ ∃ c', (p, c') ∈ s'.conns) L₁ σ₁ := by
    obtain ⟨_, σ₂, hrun, L₂, h₂, haddresses₂, hperforms⟩ :=
      socketDispatch_spec h₁ hc₁ hstate seg.payload
    obtain ⟨_, -, -, hanswers⟩ := wp_run (socketDispatch_answers h₁ hc₁ hstate seg.payload) hrun
    rw [← hroom]
    exact ⟨(), σ₂, hrun, L₂, h₂, haddresses₂, hanswers,
      hperforms.conn (by simp [dispatchActs, closeActs]) hc₁⟩
  rw [Refines, wp_bind, wp_of_run hupdate]
  refine wp_mono (Refines.seq hdispatch (fun L₂ σ₂ h₂ hanswers ↦ ?_)
    fun s' s'' hanswers (hgoes : Server.GoesOn s' s'') ↦ hanswers.1.trans hgoes) ?_
  · obtain ⟨-, c₂, hc₂⟩ := hanswers
    refine (tcpSendAck_spec h₂ hc₂).seq (fun L₃ σ₃ h₃ hack ↦ ?_)
      fun s' s'' hack (hgoes : Server.GoesOn s' s'') ↦ (hack.goesOn isQuiet_ackActs).trans hgoes
    obtain ⟨c₃, hc₃⟩ := hack.conn (by simp [ackActs]) hc₂
    exact hy L₃ σ₃ c₃ h₃ hc₃
  · intro _ σ' hrest
    obtain ⟨L', h', haddresses', hanswers⟩ := hrest
    rw [hserver] at hanswers
    exact ⟨L', h', haddresses.trans haddresses', hanswers⟩

/-- A payload that an established connection expects is delivered. -/
theorem stateMachine_answers (h : L.Holds σ []) (hc : (p, c) ∈ (σ.server L).conns)
    (hstate : c.state = .established) {seg : Segment} (hexpects : c.Expects seg) :
    Refines (stateMachine p seg) (Server.Answers p seg.payload σ.RoomForResponse) L σ := by
  obtain ⟨next, -, hrun⟩ := h.readConn hc
  rw [Refines, stateMachine, wp_bind, wp_of_run hrun]
  dsimp only
  rw [hstate]
  dsimp only
  rw [establishedInput, wp_bind, wp_of_run hrun]
  dsimp only
  rw [if_pos (show UInt16.ofNat seg.payload.length > 0 ∧ seg.seq = c.rcvNxt from hexpects)]
  refine accept_answers h hc hstate seg fun L' σ' c' h' hc' ↦ ?_
  refine (Refines.flagged h' seg tcpFlagFin (fin_spec h' hc' seg)).mono fun s' hperforms ↦ ?_
  refine hperforms.goesOn ?_
  split
  · exact isQuiet_finActs seg
  · simp

/-- A segment delivers its payload if it belongs to an established connection that expects it, and
nothing otherwise. -/
theorem segmentArrives_delivers (h : L.Holds σ []) (seg : Segment) (srcIp dstIp : UInt32) :
    wp (segmentArrives seg srcIp dstIp) (fun _ σ' ↦
      (∃ p c answered, (σ.server L).find srcIp seg.srcPort dstIp seg.dstPort = some (p, c) ∧
        c.state = .established ∧ c.Expects seg ∧ (answered = true ↔ σ.RoomForResponse) ∧
        deliveries σ'.log = ⟨p, seg.payload, answered⟩ :: deliveries σ.log) ∨
      ((∀ p c, (σ.server L).find srcIp seg.srcPort dstIp seg.dstPort = some (p, c) →
          ¬ (c.state = .established ∧ c.Expects seg)) ∧
        deliveries σ'.log = deliveries σ.log)) σ := by
  by_cases hexpects : ∃ p c, (σ.server L).find srcIp seg.srcPort dstIp seg.dstPort = some (p, c) ∧
      c.state = .established ∧ c.Expects seg
  · obtain ⟨p, c, hfind, hstate, hexpects⟩ := hexpects
    have hc : (p, c) ∈ (σ.server L).conns := List.mem_of_find?_eq_some hfind
    have hlookup := h.record (e := .lookup srcIp dstIp seg (some (p, c))) rfl
    rw [wp_segmentArrives h hfind]
    refine wp_mono (stateMachine_answers hlookup hc hstate hexpects) ?_
    intro _ σ' hanswers
    obtain ⟨L', -, -, new, e, hlog, hnew, he, hroom⟩ := hanswers
    refine .inl ⟨p, c, e.isResponse p, hfind, hstate, hexpects, hroom, ?_⟩
    rw [show σ'.log = _ from hlog, deliveries_append hnew, deliveries_dispatched he]
    exact congrArg _ (deliveries_quiet ⟨rfl, rfl⟩)
  · have hnone : ∀ p c, (σ.server L).find srcIp seg.srcPort dstIp seg.dstPort = some (p, c) →
        ¬ (c.state = .established ∧ c.Expects seg) := fun p c hfind hboth ↦
      hexpects ⟨p, c, hfind, hboth⟩
    refine wp_mono (segmentArrives_spec h seg srcIp dstIp) ?_
    intro _ σ' hreceives
    obtain ⟨L', -, -, hreceives⟩ := hreceives
    obtain ⟨new, hlog, hnew⟩ := hreceives.goesOn hnone
    refine .inr ⟨hnone, ?_⟩
    rw [show σ'.log = _ from hlog, deliveries_append hnew]
    rfl

end Answering

/-! ## Runs -/

/-- If the request delivers a payload, there is room for the response if and only if the payload is
a GET request. -/
def Node.ServesFairly (σ : Node) : Option Request → Prop
  | some (.segment srcIp dstIp seg) =>
      ∀ conns p c, σ.connections = some conns →
        conns.find? (fun e ↦ e.2.Matches srcIp seg.srcPort dstIp seg.dstPort) = some (p, c) →
        c.state = .established → c.Expects seg →
        (σ.RoomForResponse ↔ isHttpGet seg.payload (UInt16.ofNat seg.payload.length) = true)
  | _ => True

/-- A run of a node, with the state before each step and what the step serves, the latest first. -/
inductive Setup.Serves (c : Setup) : List (Node × Option Request) → Node → Prop where
  | start {σ : Node} : c.Starts σ → Serves c [] σ
  | step {steps : List (Node × Option Request)} {request : Option Request} {σ σ' : Node} :
      Serves c steps σ → Node.StepOn request σ σ' → Serves c ((σ, request) :: steps) σ'

/-- Every payload that was delivered so far was served as it deserves. -/
def Node.OnlyGetServed (σ : Node) : Prop := ∀ d ∈ deliveries σ.log, d.Deserved

instance (σ : Node) : Decidable σ.OnlyGetServed :=
  inferInstanceAs (Decidable (∀ d ∈ deliveries σ.log, d.Deserved))

section Runs

variable {c : Setup} {L : Ledger} {σ σ' : Node} {request : Option Request}

theorem Setup.Serves.reaches {steps : List (Node × Option Request)} (h : c.Serves steps σ) :
    c.Reaches σ := by
  induction h with
  | start hstarts => exact .init hstarts
  | step _ hon ih => exact ih.step (Node.step_iff.mpr ⟨_, hon⟩)

/-- Every reachable state is the end of such a run. -/
theorem Setup.Reaches.serves (h : c.Reaches σ) : ∃ steps, c.Serves steps σ := by
  refine h.invariant (fun σ ↦ ∃ steps, c.Serves steps σ) (fun σ hstarts ↦ ⟨[], .start hstarts⟩) ?_
  intro σ σ' hserves hstep
  obtain ⟨steps, hserves⟩ := hserves
  obtain ⟨request, hon⟩ := Node.step_iff.mp hstep
  exact ⟨(σ, request) :: steps, hserves.step hon⟩

/-- Moves of the receiving side deliver nothing. -/
theorem Node.Received.deliveries (h : σ.Received σ') :
    Ethernet.deliveries σ'.log = Ethernet.deliveries σ.log := by
  obtain ⟨_, _, _, new, rfl, hnew⟩ := h
  refine deliveries_append fun e he ↦ ?_
  obtain ⟨frame, rfl⟩ := hnew e he
  exact ⟨rfl, rfl⟩

/-- They do not change what a request is going to find. -/
theorem Node.Received.servesFairly (h : σ.Received σ') :
    σ'.ServesFairly request ↔ σ.ServesFairly request := by
  obtain ⟨_, _, _, _, rfl, -⟩ := h
  exact Iff.rfl

/-- A request is served as it deserves if and only if it finds the right amount of memory. -/
theorem Request.serve_onlyGetServed (h : L.Holds σ []) (request : Request) :
    wp request.serve (fun _ σ' ↦
      σ'.OnlyGetServed ↔ σ.OnlyGetServed ∧ σ.ServesFairly (some request)) σ := by
  cases request with
  | arp packet =>
      refine wp_mono (arpArrives_records h packet) ?_
      intro _ σ' hrecords
      obtain ⟨L', new, -, hserver, hnew⟩ := hrecords
      have hlog : σ'.log = new ++ σ.log := congrArg Server.log hserver
      unfold Node.OnlyGetServed
      rw [hlog, deliveries_append fun e he ↦ (hnew e he).isQuiet]
      exact (and_iff_left trivial).symm
  | segment srcIp dstIp seg =>
      refine wp_mono (segmentArrives_delivers h seg srcIp dstIp) ?_
      intro _ σ' hdelivers
      unfold Node.OnlyGetServed
      rcases hdelivers with ⟨p, d, answered, hfind, hstate, hexpects, hroom, hlog⟩ | ⟨hnone, hlog⟩
      · rw [hlog, List.forall_mem_cons, and_comm]
        refine and_congr_right fun _ ↦ ?_
        unfold Delivered.Deserved
        dsimp only
        rw [hroom]
        constructor
        · intro hfair conns q d' hconns hfind' _ _
          exact hfair
        · intro hfair
          exact hfair _ p d h.connections_eq hfind hstate hexpects
      · rw [hlog]
        refine (and_iff_left ?_).symm
        intro conns q d hconns hfind hstate hexpects
        cases h.connections_eq.symm.trans hconns
        exact absurd ⟨hstate, hexpects⟩ (hnone q d hfind)

/-- What delivers nothing keeps what was served. -/
theorem Node.onlyGetServed_idle (h : deliveries σ'.log = deliveries σ.log) :
    σ'.OnlyGetServed ↔ σ.OnlyGetServed ∧ σ.ServesFairly none := by
  unfold Node.OnlyGetServed
  rw [h]
  exact (and_iff_left trivial).symm

theorem Node.Serving.onlyGetServed (h : Node.Serving request σ σ') (hL : L.Holds σ []) :
    σ'.OnlyGetServed ↔ σ.OnlyGetServed ∧ σ.ServesFairly request := by
  cases h with
  | nothing hreceived => exact Node.onlyGetServed_idle hreceived.deliveries
  | @request request _ σ₁ σ₂ _ hbefore hrun hafter =>
      have hL₁ : L.Holds σ₁ [] := hbefore.ledger hL
      have hserved := wp_run (Request.serve_onlyGetServed hL₁ request) hrun
      have hsame : ∀ {τ τ' : Node}, deliveries τ'.log = deliveries τ.log →
          (τ'.OnlyGetServed ↔ τ.OnlyGetServed) := by
        intro τ τ' hlog
        unfold Node.OnlyGetServed
        rw [hlog]
      rw [hsame hafter.deliveries, hserved, hsame hbefore.deliveries, hbefore.servesFairly]

/-- A step serves its request as it deserves if and only if it finds the right amount of memory. -/
theorem Node.StepOn.onlyGetServed (h : Node.StepOn request σ σ') (hL : L.Holds σ []) :
    σ'.OnlyGetServed ↔ σ.OnlyGetServed ∧ σ.ServesFairly request := by
  cases h with
  | receive | complete => exact Node.onlyGetServed_idle rfl
  | poll hrun => exact (virtioNetPoll_serving hrun).onlyGetServed hL
  | frame hrun => exact ((ethernetHandlePacket_serves σ _ _).serving hrun).onlyGetServed hL
  | segment hrun => exact ((tcpInputProcess_serves σ _ _ _ _).serving hrun).onlyGetServed hL
  | reap hrun =>
      obtain ⟨L', -, hsame, htransmits, -, -⟩ := wp_run (netTxReaper_spec hL) hrun
      exact Node.onlyGetServed_idle
        (congrArg deliveries (congrArg Server.log (htransmits.server hsame)))

end Runs

/-- In every run, the response is sent to the GET requests among the delivered payloads and to no
other payload if and only if every step that delivered a GET request had room for the response, and
none that delivered something else had. -/
theorem only_get_served (c : Setup) (steps : List (Node × Option Request)) (σ : Node)
    (h : c.Serves steps σ) : σ.OnlyGetServed ↔ ∀ s ∈ steps, s.1.ServesFairly s.2 := by
  induction h with
  | @start σ hstarts =>
      obtain ⟨⟨L, -, hserver⟩, -⟩ := wp_run (initialise_spec c) hstarts
      have hlog : σ.log = [] := congrArg Server.log hserver
      refine iff_of_true ?_ (by simp)
      unfold Node.OnlyGetServed
      simp [hlog, deliveries]
  | @step steps request σ σ' hrun hon ih =>
      obtain ⟨L, hs⟩ := hrun.reaches.sound
      rw [hon.onlyGetServed hs.holds, ih, List.forall_mem_cons, and_comm]

/-- What the peer sends to have a payload delivered. -/
def Input.requests (data : List UInt8) : List Input :=
  [.fromPeer 100 0 tcpFlagSyn [], .fromPeer 101 7001 tcpFlagAck [],
    .fromPeer 101 7001 (tcpFlagPsh ||| tcpFlagAck) data]

/-- A GET request is answered when there is room. -/
theorem only_get_served_get : ∃ steps σ, Setup.sample.Serves steps σ ∧
    ((deliveries σ.log).map fun d ↦ (d.payload, d.answered)) = [(cString "GET / HTTP/1.0", true)] ∧
    ∀ s ∈ steps, s.1.ServesFairly s.2 := by
  obtain ⟨σ, -, hreaches, hσ⟩ := Setup.exec_any .sample (Input.requests (cString "GET / HTTP/1.0"))
    (fun σ ↦ decide (((deliveries σ.log).map fun d ↦ (d.payload, d.answered)) =
      [(cString "GET / HTTP/1.0", true)]) && decide σ.OnlyGetServed) (by decide +kernel)
  rw [Bool.and_eq_true, decide_eq_true_eq, decide_eq_true_eq] at hσ
  obtain ⟨steps, hserves⟩ := hreaches.serves
  exact ⟨steps, σ, hserves, hσ.1, (only_get_served .sample steps σ hserves).mp hσ.2⟩

/-- A single byte that is no request at all is answered as well. -/
theorem only_get_served_fails : ∃ σ steps,
    Setup.sample.exec (Input.requests (cString "X")) = some σ ∧ Setup.sample.Serves steps σ ∧
    ((deliveries σ.log).map fun d ↦ (d.payload, d.answered)) = [(cString "X", true)] ∧
    ¬ σ.OnlyGetServed := by
  obtain ⟨σ, hexec, hreaches, hσ⟩ := Setup.exec_any .sample (Input.requests (cString "X"))
    (fun σ ↦ decide (((deliveries σ.log).map fun d ↦ (d.payload, d.answered)) =
      [(cString "X", true)]) && decide (¬ σ.OnlyGetServed)) (by decide +kernel)
  rw [Bool.and_eq_true, decide_eq_true_eq, decide_eq_true_eq] at hσ
  obtain ⟨steps, hserves⟩ := hreaches.serves
  exact ⟨σ, steps, hexec, hserves, hσ⟩

end Aether.Ethernet
