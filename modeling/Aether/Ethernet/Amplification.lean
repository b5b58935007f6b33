import Aether.Ethernet.Network

/-!
# How much is sent for what is received

A connection sends at most one page in its life, and six segments around it and before; a segment
that belongs to no connection is answered by at most a reset. `replies_bounded` sums this up over
whole runs: an open connection is a budget of bytes that its opening paid for.
-/

namespace Aether.Ethernet

open Common

/-- The bytes of a segment that is handed to the IP layer. -/
def Event.size : Event → Nat
  | .handed _ _ bytes => bytes.length
  | .reset _ _ bytes => bytes.length
  | _ => 0

/-- The bytes of all of them. -/
def sentBytes (events : List Event) : Nat := (events.map Event.size).sum

@[simp] theorem sentBytes_nil : sentBytes [] = 0 := rfl

@[simp] theorem sentBytes_cons (e : Event) (events : List Event) :
    sentBytes (e :: events) = e.size + sentBytes events :=
  List.sum_cons

@[simp] theorem sentBytes_append (events events' : List Event) :
    sentBytes (events ++ events') = sentBytes events + sentBytes events' := by
  rw [sentBytes, List.map_append, List.sum_append]
  rfl

/-- What an act may send. -/
def Act.size : Act → Nat
  | .send _ payload => 20 + payload.length
  | _ => 0

/-- What a connection may send after the SYN-ACK. -/
def closingBytes : Nat := 100 + httpResponse.length

theorem Event.IsTransport.size {e : Event} (h : e.IsTransport) : e.size = 0 := by
  cases e with
  | handed | reset => cases h
  | _ => rfl

/-! ## One response -/

section Response

variable {p : Nat} {acts : List Act} {c d : Conn} {seg : Segment} {o o' : Option Conn}
  {new : List Event}

/-- Acts hand over no more than they send. -/
theorem Yields.size_le (h : Yields p acts o new o') (hacts : Tame acts) :
    sentBytes new ≤ (acts.map Act.size).sum := by
  induction acts generalizing o new with
  | nil =>
      rw [h.1]
      exact le_rfl
  | cons a acts ih =>
      obtain ⟨o₁, first, rest, hfirst, hrest, rfl⟩ := h
      obtain ⟨ha, hacts⟩ := tame_cons.mp hacts
      have hfirst : sentBytes first ≤ a.size := by
        cases a with
        | update | remove =>
            rw [hfirst.1]
            exact le_rfl
        | note e =>
            obtain ⟨q, payload, rfl⟩ := ha
            rw [hfirst.1]
            exact le_rfl
        | send flags payload =>
            rcases hfirst with ⟨rfl, -⟩ | ⟨c, e, -, he, rfl, -⟩
            · exact Nat.zero_le _
            · rw [sentBytes_cons, he.size, Nat.zero_add]
              simp [Event.size, Act.size]
      rw [sentBytes_append, List.map_cons, List.sum_cons, Nat.add_comm]
      exact Nat.add_le_add hfirst (ih hrest hacts)

/-- A response sends at most the page, two acknowledgements and two FINs. -/
theorem Conn.size_respond (p : Nat) (c : Conn) (seg : Segment) :
    ((c.respond p seg).map Act.size).sum ≤ closingBytes := by
  have haccept : ((acceptActs p seg).map Act.size).sum = 60 + httpResponse.length := by
    simp [acceptActs, dispatchActs, closeActs, ackActs, Act.size]
    omega
  have hfin : ((finActs seg).map Act.size).sum = 40 := by
    simp [finActs, closeActs, ackActs, Act.size]
  unfold respond closingBytes
  cases c.state with
  | established =>
      rw [List.map_append, List.sum_append]
      split <;> split <;> simp [haccept, hfin] <;> omega
  | _ =>
      dsimp only
      split <;> simp [Act.size]

/-- What a response hands over is paid for by the connection's closing. -/
theorem Yields.size_paid (hc : c.state.Settled) (h : Yields p (c.respond p seg) (some c) new o') :
    sentBytes new + closingBytes * o'.toList.countP Conn.isOpen ≤
      closingBytes * [c].countP Conn.isOpen := by
  have hsent := (h.size_le (c.tame_respond p seg)).trans (c.size_respond p seg)
  by_cases hanswers : c.Answers seg
  · have hopen : c.isOpen = true := by simp [Conn.isOpen, hanswers.1]
    have hclosed : o'.toList.countP Conn.isOpen = 0 := by
      cases o' with
      | none => rfl
      | some d => simp [Conn.isOpen, h.evolves.answers hanswers]
    rw [hclosed, List.countP_singleton, hopen]
    simpa using hsent
  · have hsilent : ((c.respond p seg).map Act.size).sum = 0 := by
      refine List.sum_eq_zero fun n hn ↦ ?_
      obtain ⟨a, ha, rfl⟩ := List.mem_map.mp hn
      cases a with
      | send flags payload =>
          exact absurd ((Conn.respond_sends hc).mp ⟨_, ha, rfl⟩) hanswers
      | _ => rfl
    have hnone := h.size_le (c.tame_respond p seg)
    have hkept : o'.toList.countP Conn.isOpen ≤ [c].countP Conn.isOpen := by
      cases o' with
      | none => exact Nat.zero_le _
      | some d =>
          by_cases hstate : c.state = .lastAck
          · simp [Conn.isOpen, h.evolves.closed hstate, hstate]
          · have hopen : c.isOpen = true := decide_eq_true hstate
            rw [List.countP_singleton (a := c), hopen]
            exact List.countP_le_length
    have hbudget := Nat.mul_le_mul_left closingBytes hkept
    omega

end Response

/-! ## Runs -/

/-- What was sent is paid for by openings and by segments that belong to no connection, and so is
what open connections may still send. -/
def Server.Budgeted (s : Server) : Prop :=
  sentBytes s.log + closingBytes * s.conns.countP (fun e ↦ e.2.isOpen) ≤
    (closingBytes + 20) * s.log.countP Event.isOpening +
      20 * s.log.countP (Event.looksUp causesReset)

section Runs

variable {ip srcIp : UInt32} {seg : Segment} {s s' : Server} {p : Nat} {acts : List Act}
  {o o' : Option Conn} {new : List Event} {c : Setup} {σ : Node}

/-- Recording an event that sends nothing. -/
theorem Server.Budgeted.record (h : s.Budgeted) {e : Event} (he : e.size = 0) :
    (s.record e).Budgeted := by
  have hgrows : ∀ P : Event → Bool, s.log.countP P ≤ (s.record e).log.countP P :=
    fun P ↦ (List.sublist_cons_self e s.log).countP_le
  have hopens := Nat.mul_le_mul_left (closingBytes + 20) (hgrows Event.isOpening)
  have hstray := Nat.mul_le_mul_left 20 (hgrows (Event.looksUp causesReset))
  unfold Budgeted at h ⊢
  have hsame : sentBytes (s.record e).log = sentBytes s.log := by
    rw [Server.record, sentBytes_cons, he, Nat.zero_add]
  rw [hsame]
  show _ + closingBytes * s.conns.countP _ ≤ _
  omega

/-- Acts look nothing up. -/
theorem Yields.countP_looksUp (h : Yields p acts o new o') (hacts : Tame acts)
    (P : Segment → Option (Nat × Conn) → Bool) : new.countP (Event.looksUp P) = 0 := by
  refine h.countP_eq_zero hacts (fun _ _ _ ↦ rfl) (fun e he ↦ ?_) (fun _ _ ↦ rfl) fun _ ↦ rfl
  cases e with
  | lookup => cases he
  | _ => rfl

/-- Nor do they open a connection. -/
theorem Yields.countP_isOpening (h : Yields p acts o new o') (hacts : Tame acts) :
    new.countP Event.isOpening = 0 := by
  refine h.countP_eq_zero hacts (fun _ _ _ ↦ rfl) (fun e he ↦ ?_) (fun _ _ ↦ rfl) fun _ ↦ rfl
  cases e with
  | passiveOpen => cases he
  | _ => rfl

/-- A segment keeps the budget. -/
theorem Server.Receives.budgeted (h : Receives srcIp ip seg s s') (hs : s.Tabled ip)
    (hb : s.Budgeted) : s'.Budgeted := by
  cases h with
  | @found _ p c hfind hperforms =>
      have hc : (p, c) ∈ s.conns := List.mem_of_find?_eq_some hfind
      obtain ⟨pre, post, hat⟩ := Server.exists_at hs.addresses hc
      have hat := hat.record (.lookup srcIp ip seg (some (p, c)))
      obtain ⟨new, o, hyields, hlog, hat'⟩ := hperforms.yields hat
      have hlookup := hb.record (e := .lookup srcIp ip seg (some (p, c))) rfl
      have htame := c.tame_respond p seg
      -- what the connection hands over has been paid for by its opening
      have hsettled : c.state.Settled := hs.settled _ hc
      have hpaid := hyields.size_paid hsettled
      unfold Budgeted at hlookup ⊢
      rw [hat.countP_open, Option.toList_some, Nat.mul_add, Nat.mul_add] at hlookup
      rw [hat'.countP_open, hlog, sentBytes_append, List.countP_append, List.countP_append,
        hyields.countP_isOpening htame, hyields.countP_looksUp htame, Nat.zero_add, Nat.zero_add,
        Nat.mul_add, Nat.mul_add]
      omega
  | refused => exact (hb.record rfl).record rfl
  | @opened _ p hnone hopens hfresh hperforms =>
      have hat := Server.at_front (c := seg.opened srcIp ip s.isn) hfresh (s.isn + 1000)
        (.passiveOpen p s.isn seg.seq :: .lookup srcIp ip seg none :: s.log)
      obtain ⟨new, o, hyields, hlog, hat'⟩ := hperforms.yields hat
      have htame : Tame [.send (tcpFlagSyn ||| tcpFlagAck) []] := by simp [Act.Tame]
      have hsent : sentBytes new ≤ 20 := hyields.size_le htame
      have hopen : o.toList.countP Conn.isOpen ≤ 1 :=
        List.countP_le_length.trans Option.length_toList_le
      have hbudget := Nat.mul_le_mul_left closingBytes hopen
      have hno : causesReset seg none = false := decide_eq_false (not_not.mpr hopens)
      have hopenings : List.countP Event.isOpening
          (.passiveOpen p s.isn seg.seq :: .lookup srcIp ip seg none :: s.log) =
            s.log.countP Event.isOpening + 1 := by
        rw [List.countP_cons_of_pos rfl, List.countP_cons_of_neg (by simp [Event.isOpening])]
      have hstray : List.countP (Event.looksUp causesReset)
          (.passiveOpen p s.isn seg.seq :: .lookup srcIp ip seg none :: s.log) =
            s.log.countP (Event.looksUp causesReset) := by
        rw [List.countP_cons_of_neg (by simp [Event.looksUp]),
          List.countP_cons_of_neg (by simp [Event.looksUp, hno])]
      -- the opening pays for the SYN now and for what the close may send later
      unfold Budgeted at hb ⊢
      rw [hat'.countP_open, hlog, sentBytes_append, List.countP_append, List.countP_append,
        hyields.countP_isOpening htame, hyields.countP_looksUp htame, hopenings, hstray,
        List.countP_nil]
      have hquiet : sentBytes (.passiveOpen p s.isn seg.seq :: .lookup srcIp ip seg none :: s.log) =
          sentBytes s.log := by
        rw [sentBytes_cons, sentBytes_cons]
        exact (Nat.zero_add _).trans (Nat.zero_add _)
      rw [hquiet, Nat.zero_add, Nat.zero_add, Nat.zero_add, Nat.mul_add, Nat.mul_add, Nat.mul_one]
      omega
  | @reset e hnone hopens he =>
      have hcause : causesReset seg none = true := decide_eq_true hopens
      have hreset : (s.record (.lookup srcIp ip seg none)).record
          (.reset ip srcIp (resetSegment srcIp ip seg)) |>.Budgeted := by
        unfold Budgeted at hb ⊢
        have hopenings : List.countP Event.isOpening
            (.reset ip srcIp (resetSegment srcIp ip seg) :: .lookup srcIp ip seg none :: s.log) =
              s.log.countP Event.isOpening := by
          rw [List.countP_cons_of_neg (by simp [Event.isOpening]),
            List.countP_cons_of_neg (by simp [Event.isOpening])]
        have hstray : List.countP (Event.looksUp causesReset)
            (.reset ip srcIp (resetSegment srcIp ip seg) :: .lookup srcIp ip seg none :: s.log) =
              s.log.countP (Event.looksUp causesReset) + 1 := by
          rw [List.countP_cons_of_neg (by simp [Event.looksUp]),
            List.countP_cons_of_pos (by exact hcause)]
        have hsize : sentBytes (.reset ip srcIp (resetSegment srcIp ip seg) ::
            .lookup srcIp ip seg none :: s.log) = 20 + sentBytes s.log := by
          rw [sentBytes_cons, sentBytes_cons, Event.size, resetSegment, length_rstSegment]
          rw [show (Event.lookup srcIp ip seg none).size = 0 from rfl, Nat.zero_add]
        simp only [Server.record]
        rw [hopenings, hstray, hsize, Nat.mul_add]
        omega
      exact hreset.record he.size

/-- A run keeps the budget. -/
theorem Server.Run.budgeted (h : Run ip s s') (hs : s.Tabled ip) (hb : s.Budgeted) :
    s'.Budgeted := by
  induction h with
  | refl => exact hb
  | tail hrun hstep ih =>
      cases hstep with
      | receive _ hreceives => exact hreceives.budgeted (Server.Run.tabled hrun hs) ih
      | @record e _ he =>
          refine ih.record ?_
          rcases he with he | ⟨frame, rfl⟩
          · exact he.size
          · rfl

end Runs

/-- In every reachable state the bytes of all the segments that were ever handed over are at most
120 and the page for each connection that was opened, and 20 for each segment that belonged to no
connection and was no SYN for port 80. Nothing else that a peer sends makes a node send more. -/
theorem replies_bounded (c : Setup) (σ : Node) (h : c.Reaches σ) :
    sentBytes σ.log ≤
      (120 + httpResponse.length) * σ.log.countP Event.isOpening +
        20 * σ.log.countP (Event.looksUp causesReset) := by
  obtain ⟨L, hs⟩ := h.sound
  have htabled : c.server.Tabled c.ip := by
    refine ⟨.nil, .nil, ?_, ?_, ?_⟩ <;> intro e he <;> cases he
  have hstart : c.server.Budgeted := by
    show sentBytes [] + closingBytes * List.countP _ [] ≤ _
    rw [sentBytes_nil, List.countP_nil, Nat.mul_zero]
    exact Nat.zero_le _
  have hbudget : (σ.server L).Budgeted := hs.run.budgeted htabled hstart
  have hbytes : closingBytes + 20 = 120 + httpResponse.length := by
    unfold closingBytes
    omega
  unfold Server.Budgeted at hbudget
  rw [hbytes] at hbudget
  exact (Nat.le_add_right _ _).trans hbudget

/-- A stray segment and a SYN. -/
theorem replies_bounded_syn : ∃ σ, Setup.sample.Reaches σ ∧ sentBytes σ.log = 40 ∧
    40 ≤ (120 + httpResponse.length) * 1 + 20 * 1 := by
  obtain ⟨σ, -, hreaches, hσ⟩ := Setup.exec_any .sample
    [.fromPeer 100 0 tcpFlagRst [], .fromPeer 100 0 tcpFlagSyn []]
    (fun σ ↦ decide (sentBytes σ.log = 40) &&
      decide (σ.log.countP Event.isOpening = 1) &&
      decide (σ.log.countP (Event.looksUp causesReset) = 1))
    (by decide +kernel)
  simp only [Bool.and_eq_true, decide_eq_true_eq] at hσ
  obtain ⟨⟨hbytes, hopens⟩, hstray⟩ := hσ
  have hbound := replies_bounded .sample σ hreaches
  rw [hbytes, hopens, hstray] at hbound
  exact ⟨σ, hreaches, hbytes, hbound⟩

end Aether.Ethernet
