import Aether.Ethernet.Emissions

/-!
# Counting segments

A connection sends one segment when it opens and at most five when it closes, and never again. So
the number of segments that a server hands over is bounded by the number of segments that opened a
connection, and its resets by the number of segments that belonged to none.
-/

namespace Aether.Ethernet

open Common

/-- A connection handed a segment over. -/
def Event.isHanded : Event → Bool
  | .handed .. => true
  | _ => false

/-- A reset was handed over. -/
def Event.isReset : Event → Bool
  | .reset .. => true
  | _ => false

/-- A connection was opened. -/
def Event.isOpening : Event → Bool
  | .passiveOpen .. => true
  | _ => false

/-- A segment was looked up, with a result for which `P` holds. -/
def Event.looksUp (P : Segment → Option (Nat × Conn) → Bool) : Event → Bool
  | .lookup _ _ seg found => P seg found
  | _ => false

/-- The connection has not closed. -/
def Conn.isOpen (c : Conn) : Bool := decide (c.state ≠ .lastAck)

/-! ## One response -/

section Response

variable {p : Nat} {acts : List Act} {c d : Conn} {seg : Segment} {o o' : Option Conn}
  {new : List Event}

/-- Acts hand over no more than they send. -/
theorem Yields.countP_handed (h : Yields p acts o new o') (hacts : Tame acts) :
    new.countP Event.isHanded ≤ acts.countP Act.isSend := by
  induction acts generalizing o new with
  | nil => rw [h.1, List.countP_nil, List.countP_nil]
  | cons a acts ih =>
      obtain ⟨o₁, first, rest, hfirst, hrest, rfl⟩ := h
      obtain ⟨ha, hacts⟩ := tame_cons.mp hacts
      have hfirst : first.countP Event.isHanded ≤ if a.isSend then 1 else 0 := by
        cases a with
        | update | remove =>
            rw [hfirst.1]
            exact Nat.zero_le _
        | note e =>
            obtain ⟨q, payload, rfl⟩ := ha
            rw [hfirst.1]
            exact Nat.zero_le _
        | send flags payload =>
            rcases hfirst with ⟨rfl, -⟩ | ⟨c, e, -, he, rfl, -⟩
            · exact Nat.zero_le _
            · have hlater : e.isHanded = false := by
                cases e with
                | handed => cases he
                | _ => rfl
              rw [List.countP_cons_of_neg (by simp [hlater])]
              exact List.countP_le_length
      have hrest := ih hrest hacts
      rw [List.countP_append, List.countP_cons]
      omega

/-- A removed connection does not come back. -/
theorem Yields.eq_none (h : Yields p acts none new o') : o' = none := by
  induction acts generalizing new with
  | nil => exact h.2
  | cons a acts ih =>
      obtain ⟨o₁, first, rest, hfirst, hrest, -⟩ := h
      obtain rfl : o₁ = none := by
        cases a with
        | update | note | remove => exact hfirst.2
        | send =>
            rcases hfirst with ⟨-, rfl⟩ | ⟨c, -, hc, -⟩
            · rfl
            · cases hc
      exact ih hrest

/-- A connection that is still there evolved. -/
theorem Yields.evolves (h : Yields p acts (some c) new (some d)) : Evolves acts c d := by
  induction acts generalizing c new with
  | nil => exact Option.some.inj h.2
  | cons a acts ih =>
      obtain ⟨o₁, first, rest, hfirst, hrest, -⟩ := h
      cases o₁ with
      | none => cases hrest.eq_none
      | some c₁ =>
          refine ⟨c₁, ?_, ih hrest⟩
          cases a with
          | update f => exact Option.some.inj hfirst.2
          | note e => exact Option.some.inj hfirst.2
          | remove => cases hfirst.2
          | send flags payload =>
              rcases hfirst with ⟨-, heq⟩ | ⟨c', e, hc', -, -, heq⟩
              · exact .inl (Option.some.inj heq)
              · cases hc'
                exact .inr (Option.some.inj heq)

/-- An answer closes the connection. -/
theorem Evolves.answers (hanswers : c.Answers seg) (h : Evolves (c.respond p seg) c d) :
    d.state = .lastAck := by
  obtain ⟨hstate, hcause⟩ := hanswers
  simp only [Conn.respond, hstate] at h
  obtain ⟨c₁, haccept, hfin⟩ := h.append
  by_cases hflag : seg.Has tcpFlagFin
  · rw [if_pos hflag] at hfin
    exact hfin.fin
  · rw [if_neg hflag] at hfin
    rw [if_pos (hcause.resolve_right hflag)] at haccept
    rw [hfin, haccept.accept]

/-- A closed connection stays closed. -/
theorem Evolves.closed (hstate : c.state = .lastAck) (h : Evolves (c.respond p seg) c d) :
    d.state = .lastAck := by
  simp only [Conn.respond, hstate] at h
  split at h
  · obtain ⟨_, _, _, hremove, _⟩ := h
    cases hremove
  · rw [h, hstate]

/-- A response sends at most five segments. -/
theorem Conn.countP_respond (p : Nat) (c : Conn) (seg : Segment) :
    (c.respond p seg).countP Act.isSend ≤ 5 := by
  have haccept : (acceptActs p seg).countP Act.isSend = 3 := rfl
  have hfin : (finActs seg).countP Act.isSend = 2 := rfl
  unfold respond
  cases c.state with
  | established =>
      rw [List.countP_append]
      split <;> split <;> simp [haccept, hfin]
  | _ =>
      dsimp only
      split <;> simp [Act.isSend]

/-- What a response hands over is paid for by the connection's closing. -/
theorem Yields.paid (hc : c.state.Settled) (h : Yields p (c.respond p seg) (some c) new o') :
    new.countP Event.isHanded + 5 * o'.toList.countP Conn.isOpen ≤
      5 * [c].countP Conn.isOpen := by
  have hsent := (h.countP_handed (c.tame_respond p seg)).trans (c.countP_respond p seg)
  by_cases hanswers : c.Answers seg
  · have hopen : c.isOpen = true := by simp [Conn.isOpen, hanswers.1]
    have hclosed : o'.toList.countP Conn.isOpen = 0 := by
      cases o' with
      | none => rfl
      | some d => simp [Conn.isOpen, h.evolves.answers hanswers]
    rw [hclosed, List.countP_singleton, hopen]
    simpa using hsent
  · have hsilent : (c.respond p seg).countP Act.isSend = 0 := by
      refine List.countP_eq_zero.mpr fun a ha hsend ↦ hanswers ?_
      exact (Conn.respond_sends hc).mp ⟨a, ha, hsend⟩
    have hnone := h.countP_handed (c.tame_respond p seg)
    have hkept : o'.toList.countP Conn.isOpen ≤ [c].countP Conn.isOpen := by
      cases o' with
      | none => exact Nat.zero_le _
      | some d =>
          by_cases hstate : c.state = .lastAck
          · simp [Conn.isOpen, h.evolves.closed hstate, hstate]
          · have hopen : c.isOpen = true := decide_eq_true hstate
            rw [List.countP_singleton (a := c), hopen]
            exact List.countP_le_length
    omega

end Response

/-! ## The flags of what is sent -/

/-- Connections send no reset, and no SYN without ACK; what answers stray segments is a reset
without SYN. -/
def Event.WellSent : Event → Prop
  | .handed _ _ bytes => ∃ seg, Segment.parse bytes = some seg ∧ ¬ seg.Has tcpFlagRst ∧
      seg.Has tcpFlagAck
  | .reset _ _ bytes => ∃ seg, Segment.parse bytes = some seg ∧ seg.Has tcpFlagRst ∧
      ¬ seg.Has tcpFlagSyn
  | _ => True

/-- The act sends no reset, and sends with ACK. -/
def Act.Plain : Act → Prop
  | .send flags _ => flags &&& tcpFlagRst = 0 ∧ flags &&& tcpFlagAck ≠ 0
  | _ => True

section Flags

variable {p : Nat} {acts : List Act} {o o' : Option Conn} {new : List Event} {e : Event}

/-- The answers to a segment are plain. -/
theorem Conn.plain_respond (p : Nat) (c : Conn) (seg : Segment) :
    ∀ a ∈ c.respond p seg, a.Plain := by
  have hack : (Act.send tcpFlagAck []).Plain := by unfold Act.Plain; decide
  have hfin : (Act.send (tcpFlagFin ||| tcpFlagAck) []).Plain := by unfold Act.Plain; decide
  have hpsh : (Act.send (tcpFlagPsh ||| tcpFlagAck) httpResponse).Plain := by
    unfold Act.Plain
    decide
  unfold respond
  cases c.state with
  | established =>
      intro a ha
      rcases List.mem_append.mp ha with ha | ha
      · split at ha
        · simp only [acceptActs, dispatchActs, closeActs, ackActs, List.cons_append,
            List.nil_append, List.mem_cons, List.not_mem_nil, or_false] at ha
          rcases ha with rfl | rfl | rfl | rfl | rfl | rfl
          · trivial
          · trivial
          · exact hpsh
          · trivial
          · exact hfin
          · exact hack
        · cases ha
      · split at ha
        · simp only [finActs, closeActs, ackActs, List.cons_append, List.nil_append,
            List.mem_cons, List.not_mem_nil, or_false] at ha
          rcases ha with rfl | rfl | rfl | rfl | rfl
          · trivial
          · exact hack
          · trivial
          · trivial
          · exact hfin
        · cases ha
  | _ =>
      dsimp only
      split <;> simp [Act.Plain]

/-- What plain acts record is well sent. -/
theorem Yields.wellSent (h : Yields p acts o new o') (hacts : Tame acts)
    (hplain : ∀ a ∈ acts, a.Plain) (he : e ∈ new) : e.WellSent := by
  rcases h.cases hacts he with ⟨c, flags, payload, hsend, rfl⟩ | he | ⟨q, payload, rfl⟩ | rfl
  · obtain ⟨hrst, hack⟩ := hplain _ hsend
    exact ⟨_, Segment.parse_tcpSegment c flags payload, fun hhas ↦ hhas hrst, hack⟩
  · cases e with
    | handed | reset => cases he
    | _ => trivial
  · trivial
  · trivial

/-- Tame acts look nothing up, open nothing and send no reset. -/
theorem Yields.countP_eq_zero (h : Yields p acts o new o') (hacts : Tame acts) {P : Event → Bool}
    (hhanded : ∀ q c bytes, P (.handed q c bytes) = false)
    (htransport : ∀ e, e.IsTransport → P e = false)
    (hdispatched : ∀ q payload, P (.dispatched q payload) = false)
    (hremoved : ∀ q, P (.removed q) = false) : new.countP P = 0 := by
  refine List.countP_eq_zero.mpr fun e he ↦ ?_
  rcases h.cases hacts he with ⟨c, flags, payload, -, rfl⟩ | he | ⟨q, payload, rfl⟩ | rfl
  · simp [hhanded]
  · simp [htransport e he]
  · simp [hdispatched]
  · simp [hremoved]

end Flags

/-! ## The accounts of a server -/

/-- The segment was looked up without success and opens a connection. -/
def opensConnection (seg : Segment) (found : Option (Nat × Conn)) : Bool :=
  found.isNone && decide seg.Opens

/-- The segment was looked up without success and is answered by a reset. -/
def causesReset (seg : Segment) (found : Option (Nat × Conn)) : Bool :=
  found.isNone && decide (¬ seg.Opens)

/-- Every connection accounts for what it handed over and may still hand over; openings and resets
have their causes. -/
structure Server.Accounted (s : Server) : Prop where
  handed : s.log.countP Event.isHanded + 5 * s.conns.countP (fun e ↦ e.2.isOpen) ≤
    6 * s.log.countP Event.isOpening
  openings : s.log.countP Event.isOpening ≤ s.log.countP (Event.looksUp opensConnection)
  resets : s.log.countP Event.isReset ≤ s.log.countP (Event.looksUp causesReset)
  wellSent : ∀ e ∈ s.log, e.WellSent

section Accounts

variable {ip srcIp : UInt32} {seg : Segment} {s s' : Server} {p : Nat} {acts : List Act}
  {o o' : Option Conn} {new : List Event} {pre post : List (Nat × Conn)}

/-- The open connections around a place and at it. -/
theorem Server.At.countP_open (h : s.At p pre o post) :
    s.conns.countP (fun e ↦ e.2.isOpen) = pre.countP (fun e ↦ e.2.isOpen) +
      o.toList.countP Conn.isOpen + post.countP (fun e ↦ e.2.isOpen) := by
  rw [h.conns, List.countP_append, List.countP_append, List.countP_map]
  exact (Nat.add_assoc _ _ _).symm

/-- The accounts after acts that send plainly. -/
theorem Server.Accounted.performs (h : s.Accounted) (hyields : Yields p acts o new o')
    (hacts : Tame acts) (hplain : ∀ a ∈ acts, a.Plain) (hlog : s'.log = new ++ s.log)
    (hbudget : new.countP Event.isHanded + s.log.countP Event.isHanded +
      5 * s'.conns.countP (fun e ↦ e.2.isOpen) ≤ 6 * s.log.countP Event.isOpening) :
    s'.Accounted := by
  have hzero : ∀ P : Event → Bool, (∀ q c bytes, P (.handed q c bytes) = false) →
      (∀ e, e.IsTransport → P e = false) → (∀ q payload, P (.dispatched q payload) = false) →
      (∀ q, P (.removed q) = false) → s'.log.countP P = s.log.countP P := by
    intro P hhanded htransport hdispatched hremoved
    rw [hlog, List.countP_append,
      hyields.countP_eq_zero hacts hhanded htransport hdispatched hremoved, Nat.zero_add]
  have hlookups : ∀ P, s'.log.countP (Event.looksUp P) = s.log.countP (Event.looksUp P) := by
    intro P
    refine hzero _ (fun _ _ _ ↦ rfl) (fun e he ↦ ?_) (fun _ _ ↦ rfl) fun _ ↦ rfl
    cases e with
    | lookup => cases he
    | _ => rfl
  have hopenings : s'.log.countP Event.isOpening = s.log.countP Event.isOpening := by
    refine hzero _ (fun _ _ _ ↦ rfl) (fun e he ↦ ?_) (fun _ _ ↦ rfl) fun _ ↦ rfl
    cases e with
    | passiveOpen => cases he
    | _ => rfl
  have hresets : s'.log.countP Event.isReset = s.log.countP Event.isReset := by
    refine hzero _ (fun _ _ _ ↦ rfl) (fun e he ↦ ?_) (fun _ _ ↦ rfl) fun _ ↦ rfl
    cases e with
    | reset => cases he
    | _ => rfl
  constructor
  · rw [hopenings, hlog, List.countP_append]
    exact hbudget
  · rw [hopenings, hlookups]
    exact h.openings
  · rw [hresets, hlookups]
    exact h.resets
  · rw [hlog]
    refine List.forall_mem_append.mpr ⟨fun e he ↦ ?_, h.wellSent⟩
    exact hyields.wellSent hacts hplain he

/-- Recording an event that is neither sent nor an opening keeps the accounts. -/
theorem Server.Accounted.record (h : s.Accounted) {e : Event} (hmessage : e.message = none)
    (hopening : e.isOpening = false) : (s.record e).Accounted := by
  have hhanded : e.isHanded = false := by
    cases e with
    | handed => cases hmessage
    | _ => rfl
  have hreset : e.isReset = false := by
    cases e with
    | reset => cases hmessage
    | _ => rfl
  have hsame : ∀ P : Event → Bool, P e = false → (s.record e).log.countP P = s.log.countP P :=
    fun P hP ↦ List.countP_cons_of_neg (by simp [hP])
  have hgrows : ∀ P : Event → Bool, s.log.countP P ≤ (s.record e).log.countP P :=
    fun P ↦ (List.sublist_cons_self e s.log).countP_le
  constructor
  · rw [hsame _ hhanded, hsame _ hopening]
    exact h.handed
  · rw [hsame _ hopening]
    exact h.openings.trans (hgrows _)
  · rw [hsame _ hreset]
    exact h.resets.trans (hgrows _)
  · refine List.forall_mem_cons.mpr ⟨?_, h.wellSent⟩
    cases e with
    | handed | reset => cases hmessage
    | _ => trivial

/-- A segment keeps the accounts. -/
theorem Server.Receives.accounted (h : Receives srcIp ip seg s s') (hs : s.Tabled ip)
    (ha : s.Accounted) : s'.Accounted := by
  cases h with
  | @found _ p c hfind hperforms =>
      have hc : (p, c) ∈ s.conns := List.mem_of_find?_eq_some hfind
      obtain ⟨pre, post, hat⟩ := Server.exists_at hs.addresses hc
      have hat := hat.record (.lookup srcIp ip seg (some (p, c)))
      obtain ⟨new, o, hyields, hlog, hat'⟩ := hperforms.yields hat
      have hlookup := ha.record (e := .lookup srcIp ip seg (some (p, c))) rfl rfl
      refine hlookup.performs hyields (c.tame_respond p seg) (c.plain_respond p seg) hlog ?_
      -- what the connection hands over has been paid for by its opening
      have hsettled : c.state.Settled := hs.settled _ hc
      have hpaid := hyields.paid hsettled
      have hhanded := hlookup.handed
      rw [hat.countP_open, Option.toList_some] at hhanded
      rw [hat'.countP_open]
      omega
  | refused => exact (ha.record rfl rfl).record rfl rfl
  | @opened _ p hnone hopens hfresh hperforms =>
      have hat := Server.at_front (c := seg.opened srcIp ip s.isn) hfresh (s.isn + 1000)
        (.passiveOpen p s.isn seg.seq :: .lookup srcIp ip seg none :: s.log)
      obtain ⟨new, o, hyields, hlog, hat'⟩ := hperforms.yields hat
      have htame : Tame [.send (tcpFlagSyn ||| tcpFlagAck) []] := by simp [Act.Tame]
      have hplain : ∀ a ∈ [Act.send (tcpFlagSyn ||| tcpFlagAck) []], a.Plain := by
        intro a ha
        rw [List.mem_singleton.mp ha]
        exact ⟨by decide, by decide⟩
      have hsent : new.countP Event.isHanded ≤ 1 := hyields.countP_handed htame
      have hopen : o.toList.countP Conn.isOpen ≤ 1 :=
        List.countP_le_length.trans Option.length_toList_le
      have hcause : opensConnection seg none = true := decide_eq_true hopens
      have hno : causesReset seg none = false := decide_eq_false (not_not.mpr hopens)
      have hnew : List.countP Event.isOpening
          (.passiveOpen p s.isn seg.seq :: .lookup srcIp ip seg none :: s.log) =
            s.log.countP Event.isOpening + 1 := by
        rw [List.countP_cons_of_pos rfl, List.countP_cons_of_neg (by simp [Event.isOpening])]
      have hkept : List.countP Event.isHanded
          (.passiveOpen p s.isn seg.seq :: .lookup srcIp ip seg none :: s.log) =
            s.log.countP Event.isHanded := by
        rw [List.countP_cons_of_neg (by simp [Event.isHanded]),
          List.countP_cons_of_neg (by simp [Event.isHanded])]
      have hhanded := ha.handed
      have hopenings := ha.openings
      have hresets := ha.resets
      -- the opening pays for the SYN now and for what the close may send later
      refine Accounted.performs ⟨?_, ?_, ?_, ?_⟩ hyields htame hplain hlog ?_
      · rw [hnew, hkept, List.countP_cons_of_pos rfl]
        omega
      · simpa [Event.isOpening, Event.looksUp, List.countP_cons, hcause] using hopenings
      · simpa [Event.isReset, Event.looksUp, List.countP_cons, hno] using hresets
      · exact List.forall_mem_cons.mpr ⟨trivial, List.forall_mem_cons.mpr ⟨trivial, ha.wellSent⟩⟩
      · rw [hnew, hkept, hat'.countP_open, List.countP_nil]
        omega
  | @reset e hnone hopens he =>
      have hcause : causesReset seg none = true := decide_eq_true hopens
      have hlookup := ha.record (e := .lookup srcIp ip seg none) rfl rfl
      have htransport : e.isOpening = false := by
        cases e with
        | passiveOpen => cases he
        | _ => rfl
      have hopenings := ha.openings
      have hresets := ha.resets
      refine Accounted.record ⟨?_, ?_, ?_, ?_⟩ he.message htransport
      · simpa [Server.record, Event.isHanded, Event.isOpening] using ha.handed
      · refine (le_of_eq ?_).trans (hopenings.trans (List.Sublist.countP_le ?_))
        · simp [Server.record, Event.isOpening]
        · exact (List.sublist_cons_self _ _).trans (List.sublist_cons_self _ _)
      · simpa [Server.record, Event.isReset, Event.looksUp, List.countP_cons, hcause] using hresets
      · refine List.forall_mem_cons.mpr ⟨?_, hlookup.wellSent⟩
        have hrst : (tcpFlagRst ||| tcpFlagAck) &&& tcpFlagRst ≠ 0 := by decide
        have hsyn : ¬ (tcpFlagRst ||| tcpFlagAck) &&& tcpFlagSyn ≠ 0 := by decide
        exact ⟨_, Segment.parse_rstSegment _ _ _ _ _ _, hrst, hsyn⟩

/-- A received segment is looked up once. -/
theorem Server.Receives.countP_lookups (h : Receives srcIp ip seg s s') (hs : s.Tabled ip)
    (P : Segment → Bool) : s'.log.countP (Event.looksUp fun seg _ ↦ P seg) =
      s.log.countP (Event.looksUp fun seg _ ↦ P seg) + if P seg then 1 else 0 := by
  have htransport : ∀ e : Event, e.IsTransport → e.looksUp (fun seg _ ↦ P seg) = false := by
    intro e he
    cases e with
    | lookup => cases he
    | _ => rfl
  have hrest : ∀ {p acts o o' new}, Yields p acts o new o' → Tame acts →
      new.countP (Event.looksUp fun seg _ ↦ P seg) = 0 := fun hyields hacts ↦
    hyields.countP_eq_zero hacts (fun _ _ _ ↦ rfl) htransport (fun _ _ ↦ rfl) fun _ ↦ rfl
  have hlookup : ∀ found, List.countP (Event.looksUp fun seg _ ↦ P seg)
      (.lookup srcIp ip seg found :: s.log) =
        s.log.countP (Event.looksUp fun seg _ ↦ P seg) + if P seg then 1 else 0 :=
    fun found ↦ List.countP_cons
  cases h with
  | @found _ p c hfind hperforms =>
      have hc : (p, c) ∈ s.conns := List.mem_of_find?_eq_some hfind
      obtain ⟨pre, post, hat⟩ := Server.exists_at hs.addresses hc
      obtain ⟨new, o, hyields, hlog, -⟩ := hperforms.yields (hat.record _)
      rw [hlog, List.countP_append, hrest hyields (c.tame_respond p seg), Nat.zero_add]
      exact hlookup _
  | refused => exact (List.countP_cons_of_neg (by simp [Event.looksUp])).trans (hlookup none)
  | opened _ _ hfresh hperforms =>
      obtain ⟨new, o, hyields, hlog, -⟩ := hperforms.yields (Server.at_front hfresh _ _)
      rw [hlog, List.countP_append, hrest hyields (by simp [Act.Tame]), Nat.zero_add]
      exact (List.countP_cons_of_neg (by simp [Event.looksUp])).trans (hlookup none)
  | reset _ _ he =>
      refine (List.countP_cons_of_neg (by simp [htransport _ he])).trans ?_
      exact (List.countP_cons_of_neg (by simp [Event.looksUp])).trans (hlookup none)

/-- A run keeps the accounts. -/
theorem Server.Run.accounted (h : Run ip s s') (hs : s.Tabled ip) (ha : s.Accounted) :
    s'.Accounted := by
  induction h with
  | refl => exact ha
  | tail hrun hstep ih =>
      cases hstep with
      | receive _ hreceives => exact hreceives.accounted (Server.Run.tabled hrun hs) ih
      | @record e _ he =>
          refine ih.record ?_ ?_
          · rcases he with he | ⟨frame, rfl⟩
            · exact he.message
            · rfl
          · cases e with
            | passiveOpen => rcases he with he | ⟨_, he⟩ <;> cases he
            | _ => rfl

end Accounts

end Aether.Ethernet
