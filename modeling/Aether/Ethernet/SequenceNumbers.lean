import Aether.Ethernet.Responses
import Aether.Ethernet.Segments

/-!
# Sequence numbers

The segments of a connection tile its send sequence space. Its receive sequence numbers count what
arrived in order, as long as a FIN arrives alone.
-/

namespace Aether.Ethernet

open Common

/-! ## Sending -/

/-- The part of the sequence space that a segment takes up. -/
def Segment.span (seg : Segment) : Nat :=
  seg.payload.length + if seg.Has (tcpFlagSyn ||| tcpFlagFin) then 1 else 0

/-- The part of the sequence space that an event uses up. -/
def Event.span : Event → Nat
  | .handed _ _ bytes => (Segment.parse bytes).elim 0 Segment.span
  | _ => 0

/-- What the events used up together. -/
def sentSpan (events : List Event) : Nat := (events.map Event.span).sum

/-- Every segment of the lifetime starts where the ones before it end, and acknowledges what its
TCB expects next. -/
def Lifetime.Tiled (ℓ : Lifetime) : Prop :=
  ∀ q d bytes earlier, .handed q d bytes :: earlier <:+ ℓ.events →
    ∃ seg, Segment.parse bytes = some seg ∧
      seg.seq = ℓ.isn + UInt32.ofNat (sentSpan earlier) ∧ seg.ack = d.rcvNxt

/-- The connection sends next what its lifetime has not used up. -/
def Conn.Numbered (c : Conn) (ℓ : Lifetime) : Prop :=
  c.sndNxt = ℓ.isn + UInt32.ofNat (sentSpan ℓ.events)

section Sending

variable {p : Nat} {flags : UInt8} {payload : List UInt8} {c c' : Conn} {ℓ ℓ' : Lifetime}

/-- Only segments use up sequence space. -/
theorem Lifetime.Tiled.add (h : ℓ.Tiled) {e : Event} (he : ∀ q d bytes, e ≠ .handed q d bytes) :
    (ℓ.add e).Tiled := by
  intro q d bytes earlier hsuffix
  rcases List.suffix_cons_iff.mp hsuffix with heq | hsuffix
  · exact absurd (List.cons.inj heq).1.symm (he q d bytes)
  · exact h q d bytes earlier hsuffix

/-- A length that fits 16 bits is the same number in 32. -/
theorem toUInt32_ofNat_length {n : Nat} (h : n < 2 ^ 16) :
    (UInt16.ofNat n).toUInt32 = UInt32.ofNat n := by
  rw [← UInt32.toNat_inj, UInt16.toNat_toUInt32,
    UInt16.toNat_ofNat_of_lt' (by rw [UInt16.size]; omega),
    UInt32.toNat_ofNat_of_lt' (by rw [UInt32.size]; omega)]

/-- The sequence number moves by what the segment takes up. -/
theorem Conn.advance_sndNxt (hlen : payload.length ≤ 65515) :
    (c.advance flags payload).sndNxt =
      c.sndNxt + UInt32.ofNat (Event.span (.handed p c (tcpSegment c flags payload))) := by
  have hpayload : (UInt16.ofNat payload.length).toUInt32 = UInt32.ofNat payload.length :=
    toUInt32_ofNat_length (by omega)
  rw [Event.span, Segment.parse_tcpSegment, Option.elim_some, Segment.span, advance, hpayload]
  by_cases hflag : Segment.Has ⟨c.localPort, c.remotePort, c.sndNxt, c.rcvNxt, flags, payload⟩
    (tcpFlagSyn ||| tcpFlagFin)
  · rw [if_pos hflag, if_pos (show flags &&& (tcpFlagSyn ||| tcpFlagFin) ≠ 0 from hflag),
      UInt32.ofNat_add, UInt32.add_assoc, UInt32.add_comm 1]
    rfl
  · rw [if_neg hflag, if_neg (show ¬ flags &&& (tcpFlagSyn ||| tcpFlagFin) ≠ 0 from hflag),
      Nat.add_zero]

/-- Sending keeps the numbers in step. -/
theorem Sends.tiled (h : Sends p flags payload c ℓ c' ℓ') (hlen : payload.length ≤ 65515)
    (hnumbered : c.Numbered ℓ) (htiled : ℓ.Tiled) : c'.Numbered ℓ' ∧ ℓ'.Tiled := by
  cases h with
  | dropped => exact ⟨hnumbered, htiled⟩
  | sent =>
      constructor
      · rw [Conn.Numbered, Conn.advance_sndNxt (p := p) hlen, hnumbered]
        simp only [Lifetime.isn_add, Lifetime.events_add, sentSpan, List.map_cons, List.sum_cons]
        rw [UInt32.add_assoc, ← UInt32.ofNat_add, Nat.add_comm]
      · intro q d bytes earlier hsuffix
        rcases List.suffix_cons_iff.mp hsuffix with heq | hsuffix
        · cases heq
          exact ⟨_, Segment.parse_tcpSegment c flags payload, hnumbered, rfl⟩
        · exact htiled q d bytes earlier hsuffix

theorem Accepts.tiled {seg : Segment} (h : Accepts p seg c ℓ c' ℓ') (hnumbered : c.Numbered ℓ)
    (htiled : ℓ.Tiled) : c'.Numbered ℓ' ∧ ℓ'.Tiled := by
  obtain ⟨hresponse, hfin, hack⟩ := h
  obtain ⟨hnumbered₁, htiled₁⟩ := hresponse.tiled length_httpResponse
    (by simpa [Conn.Numbered, sentSpan, Event.span] using hnumbered) (htiled.add (by simp))
  obtain ⟨hnumbered₂, htiled₂⟩ := hfin.tiled (Nat.zero_le _) hnumbered₁ htiled₁
  exact hack.tiled (Nat.zero_le _) hnumbered₂ htiled₂

theorem Finishes.tiled {seg : Segment} (h : Finishes p seg c ℓ c' ℓ') (hnumbered : c.Numbered ℓ)
    (htiled : ℓ.Tiled) : c'.Numbered ℓ' ∧ ℓ'.Tiled := by
  obtain ⟨hack, hfin⟩ := h
  obtain ⟨hnumbered₁, htiled₁⟩ := hack.tiled (Nat.zero_le _) hnumbered htiled
  exact hfin.tiled (Nat.zero_le _) hnumbered₁ htiled₁

/-- The accounting of sent segments is preserved. -/
theorem preserved_tiled (ip : UInt32) :
    Preserved ip fun o ℓ ↦ (∀ c, o = some c → c.Numbered ℓ) ∧ ℓ.Tiled where
  opened htraces := by
    obtain ⟨c₁, rfl, hsends⟩ := htraces.single
    obtain ⟨hnumbered, htiled⟩ := hsends.tiled (Nat.zero_le _)
      (by simp [Conn.Numbered, Segment.opened, sentSpan]) (by simp [Lifetime.Tiled])
    exact ⟨fun c hc ↦ Option.some.inj hc ▸ hnumbered, htiled⟩
  found {p srcIp seg c d ℓ ℓ'} _ hsettled hΨ htraces := by
    have hnumbered : c.Numbered (ℓ.add (.lookup srcIp ip seg (some (p, c)))) := by
      simpa [Conn.Numbered, sentSpan, Event.span] using hΨ.1 c rfl
    have htiled := hΨ.2.add (e := .lookup srcIp ip seg (some (p, c))) (by simp)
    have hsome : ∀ {c' : Conn} {ℓ' : Lifetime}, c'.Numbered ℓ' ∧ ℓ'.Tiled →
        (∀ c, some c' = some c → c.Numbered ℓ') ∧ ℓ'.Tiled :=
      fun h ↦ ⟨fun _ hc ↦ Option.some.inj hc ▸ h.1, h.2⟩
    cases htraces.respond hsettled with
    | ignored => exact hsome ⟨hnumbered, htiled⟩
    | handshake => exact hsome ⟨hnumbered, htiled⟩
    | data _ _ _ haccepts => exact hsome (haccepts.tiled hnumbered htiled)
    | fin _ _ _ hfinishes => exact hsome (hfinishes.tiled hnumbered htiled)
    | dataFin _ _ _ haccepts hfinishes =>
        obtain ⟨hnumbered₁, htiled₁⟩ := haccepts.tiled hnumbered htiled
        exact hsome (hfinishes.tiled hnumbered₁ htiled₁)
    | removed => exact ⟨by simp, htiled.add (by simp)⟩

end Sending

/-- In every reachable state, the segments of every TCB's lifetime tile the sequence space from its
initial send number on, each acknowledges what the TCB expected next, and `snd_nxt` of a listed TCB
is the end of what it sent. -/
theorem send_sequence_accounting (c : Setup) (σ : Node) (h : c.Reaches σ) :
    ∃ conns, σ.connections = some conns ∧
      (∀ p d, (p, d) ∈ conns → ∃ ℓ, lifetime p σ.log = some ℓ ∧
        d.sndNxt = ℓ.isn + UInt32.ofNat (sentSpan ℓ.events)) ∧
      ∀ p ℓ, lifetime p σ.log = some ℓ →
        ∀ q d bytes earlier, .handed q d bytes :: earlier <:+ ℓ.events →
          ∃ seg, Segment.parse bytes = some seg ∧
            seg.seq = ℓ.isn + UInt32.ofNat (sentSpan earlier) ∧ seg.ack = d.rcvNxt := by
  obtain ⟨conns, hconns, hopened, hlives⟩ := h.recorded (preserved_tiled c.ip)
  refine ⟨conns, hconns, fun p d hd ↦ ?_, fun p ℓ hℓ ↦ (hlives p ℓ hℓ).2⟩
  obtain ⟨ℓ, hℓ, hnumbered, -⟩ := hopened p d hd
  exact ⟨ℓ, hℓ, hnumbered d rfl⟩

/-- After a SYN and its acknowledgement, the one connection has used up one number. -/
theorem send_sequence_accounting_syn : ∃ σ p d ℓ,
    Setup.sample.exec [.fromPeer 100 0 tcpFlagSyn []] = some σ ∧
    σ.connections = some [(p, d)] ∧ lifetime p σ.log = some ℓ ∧
    d.sndNxt = ℓ.isn + UInt32.ofNat (sentSpan ℓ.events) := by
  obtain ⟨σ, hexec, hreaches, hlength⟩ := Setup.exec_any .sample
    [.fromPeer 100 0 tcpFlagSyn []] (fun σ ↦ σ.connections.any fun conns ↦ conns.length == 1)
    (by decide +kernel)
  obtain ⟨conns, hconns, hopened, -⟩ := send_sequence_accounting .sample σ hreaches
  rw [hconns, Option.any_some, beq_iff_eq] at hlength
  obtain ⟨⟨p, d⟩, rfl⟩ := List.length_eq_one_iff.mp hlength
  obtain ⟨ℓ, hℓ, hnumbered⟩ := hopened p d List.mem_cons_self
  exact ⟨σ, p, d, ℓ, hexec, hconns, hℓ, hnumbered⟩

/-! ## Receiving -/

/-- The sequence numbers of a segment that an open connection accepts: payload and FIN, if the
segment is the next one. -/
def Event.accepted : Event → Nat
  | .lookup _ _ seg (some (_, c)) =>
      if c.state = .established ∧ seg.seq = c.rcvNxt then
        seg.payload.length + if seg.Has tcpFlagFin then 1 else 0
      else 0
  | _ => 0

/-- What the events accepted together. -/
def acceptedSpan (events : List Event) : Nat := (events.map Event.accepted).sum

/-- A FIN for an open connection is the next segment and has no payload, or repeats the number
before. -/
def Event.FinAlone : Event → Prop
  | .lookup _ _ seg (some (_, c)) => c.state = .established → seg.Has tcpFlagFin →
      seg.seq = c.rcvNxt ∧ seg.payload = [] ∨ seg.seq + 1 = c.rcvNxt
  | _ => True

instance (e : Event) : Decidable e.FinAlone :=
  match e with
  | .lookup _ _ _ (some _) => inferInstanceAs (Decidable (_ → _))
  | .lookup _ _ _ none | .received _ | .passiveOpen .. | .removed _ | .handed .. | .reset ..
  | .dispatched .. | .transmitted _ | .ringFull | .noMemory => inferInstanceAs (Decidable True)

/-- Every FIN of the lifetime came alone. -/
def Lifetime.FinsAlone (ℓ : Lifetime) : Prop := ∀ e ∈ ℓ.events, e.FinAlone

instance (ℓ : Lifetime) : Decidable ℓ.FinsAlone := inferInstanceAs (Decidable (∀ _ ∈ _, _))

/-- The acknowledgement number that is due after the given events. -/
def Lifetime.due (ℓ : Lifetime) (events : List Event) : UInt32 :=
  ℓ.irs + 1 + UInt32.ofNat (acceptedSpan events)

/-- Every segment of the lifetime acknowledges what arrived before it. -/
def Lifetime.Acked (ℓ : Lifetime) : Prop :=
  ∀ q d bytes earlier, .handed q d bytes :: earlier <:+ ℓ.events →
    ∃ seg, Segment.parse bytes = some seg ∧ seg.ack = ℓ.due earlier

section Receiving

variable {p : Nat} {flags : UInt8} {payload : List UInt8} {seg : Segment} {c c' : Conn}
  {ℓ ℓ' : Lifetime}

theorem Lifetime.Acked.add (h : ℓ.Acked) {e : Event} (he : ∀ q d bytes, e ≠ .handed q d bytes) :
    (ℓ.add e).Acked := by
  intro q d bytes earlier hsuffix
  rcases List.suffix_cons_iff.mp hsuffix with heq | hsuffix
  · exact absurd (List.cons.inj heq).1.symm (he q d bytes)
  · exact h q d bytes earlier hsuffix

/-- What sending leaves alone on the receiving side. -/
structure SameReceived (c c' : Conn) (ℓ ℓ' : Lifetime) : Prop where
  rcvNxt : c'.rcvNxt = c.rcvNxt
  irs : ℓ'.irs = ℓ.irs
  accepted : acceptedSpan ℓ'.events = acceptedSpan ℓ.events
  fins : ℓ'.FinsAlone ↔ ℓ.FinsAlone
  acked : ℓ.Acked → c.rcvNxt = ℓ.due ℓ.events → ℓ'.Acked

theorem SameReceived.trans {c'' : Conn} {ℓ'' : Lifetime} (h : SameReceived c c' ℓ ℓ')
    (h' : SameReceived c' c'' ℓ' ℓ'') : SameReceived c c'' ℓ ℓ'' where
  rcvNxt := h'.rcvNxt.trans h.rcvNxt
  irs := h'.irs.trans h.irs
  accepted := h'.accepted.trans h.accepted
  fins := h'.fins.trans h.fins
  acked hacked hdue := h'.acked (h.acked hacked hdue) <| by
    rw [h.rcvNxt, hdue, Lifetime.due, Lifetime.due, h.irs, h.accepted]

/-- An assignment to other fields. -/
theorem SameReceived.update {f : Conn → Conn} (hf : ∀ c, (f c).rcvNxt = c.rcvNxt)
    (h : SameReceived (f c) c' ℓ ℓ') : SameReceived c c' ℓ ℓ' :=
  { h with
    rcvNxt := h.rcvNxt.trans (hf c)
    acked := fun hacked hdue ↦ h.acked hacked ((hf c).trans hdue) }

theorem Sends.received (h : Sends p flags payload c ℓ c' ℓ') : SameReceived c c' ℓ ℓ' := by
  cases h with
  | dropped => exact ⟨rfl, rfl, rfl, .rfl, fun h _ ↦ h⟩
  | sent =>
      refine ⟨rfl, rfl, ?_, ?_, fun hacked hdue q d bytes earlier hsuffix ↦ ?_⟩
      · simp [acceptedSpan, Event.accepted]
      · simp [Lifetime.FinsAlone, Event.FinAlone]
      · rcases List.suffix_cons_iff.mp hsuffix with heq | hsuffix
        · cases heq
          exact ⟨_, Segment.parse_tcpSegment c flags payload, hdue⟩
        · exact hacked q d bytes earlier hsuffix

/-- Accepting a payload moves the number once and acknowledges it from then on. -/
theorem Accepts.received (h : Accepts p seg c ℓ c' ℓ') : SameReceived
    { c with rcvNxt := c.rcvNxt + (UInt16.ofNat seg.payload.length).toUInt32 } c'
    (ℓ.add (.dispatched p seg.payload)) ℓ' := by
  obtain ⟨hresponse, hfin, hack⟩ := h
  have hclose := (hfin.received.trans hack.received).update
    (f := fun c ↦ { c with state := .lastAck }) fun _ ↦ rfl
  exact hresponse.received.trans hclose

theorem Finishes.received (h : Finishes p seg c ℓ c' ℓ') :
    SameReceived { c with rcvNxt := seg.seq + 1 } c' ℓ ℓ' := by
  obtain ⟨hack, hfin⟩ := h
  exact hack.received.trans <|
    hfin.received.update (f := fun c ↦ { c with state := .lastAck }) fun _ ↦ rfl

/-- An expected segment that fits a length field has payload. -/
theorem Conn.expects_iff (hlen : seg.payload.length < 2 ^ 16) :
    c.Expects seg ↔ seg.payload ≠ [] ∧ seg.seq = c.rcvNxt := by
  refine and_congr_left' ?_
  rw [gt_iff_lt, UInt16.lt_iff_toNat_lt, UInt16.toNat_ofNat_of_lt' (by rw [UInt16.size]; omega),
    UInt16.toNat_zero, List.length_pos_iff]

@[simp] theorem acceptedSpan_cons (e : Event) (events : List Event) :
    acceptedSpan (e :: events) = e.accepted + acceptedSpan events := by
  rw [acceptedSpan, List.map_cons, List.sum_cons, acceptedSpan]

@[simp] theorem Lifetime.finsAlone_add (ℓ : Lifetime) (e : Event) :
    (ℓ.add e).FinsAlone ↔ e.FinAlone ∧ ℓ.FinsAlone :=
  List.forall_mem_cons

/-- What a connection received so far: nothing until it closes, and then the right number exactly
if every FIN came alone. -/
structure Lifetime.Received (ℓ : Lifetime) (o : Option Conn) : Prop where
  opening : ∀ c, o = some c → c.state ≠ .lastAck → ℓ.FinsAlone ∧ acceptedSpan ℓ.events = 0
  due : ∀ c, o = some c → (c.rcvNxt = ℓ.due ℓ.events ↔ ℓ.FinsAlone)
  bounded : acceptedSpan ℓ.events ≤ 65536
  acked : ℓ.FinsAlone → ℓ.Acked

/-- Segments sent after the numbers were set acknowledge them. -/
theorem SameReceived.received (h : SameReceived c c' ℓ ℓ') (hstate : c'.state = .lastAck)
    (hdue : c.rcvNxt = ℓ.due ℓ.events ↔ ℓ.FinsAlone) (hbounded : acceptedSpan ℓ.events ≤ 65536)
    (hacked : ℓ.FinsAlone → ℓ.Acked) : ℓ'.Received (some c') where
  opening _ hc hopen := absurd hstate (Option.some.inj hc ▸ hopen)
  due _ hc := by
    rw [← Option.some.inj hc, h.rcvNxt, h.fins, ← hdue, Lifetime.due, Lifetime.due, h.irs,
      h.accepted]
  bounded := h.accepted ▸ hbounded
  acked hfins := h.acked (hacked (h.fins.mp hfins)) (hdue.mpr (h.fins.mp hfins))

/-- The arrival of a segment that is accepted. -/
theorem Event.accepted_lookup {srcIp dstIp : UInt32} (hstate : c.state = .established) :
    Event.accepted (.lookup srcIp dstIp seg (some (p, c))) =
      if seg.seq = c.rcvNxt then
        seg.payload.length + if seg.Has tcpFlagFin then 1 else 0
      else 0 := by
  simp only [Event.accepted, hstate, true_and]

/-- A connection that is not open accepts nothing and expects no FIN. -/
theorem Event.accepted_closed {srcIp dstIp : UInt32} (hstate : c.state ≠ .established) :
    Event.accepted (.lookup srcIp dstIp seg (some (p, c))) = 0 ∧
      Event.FinAlone (.lookup srcIp dstIp seg (some (p, c))) := by
  simp [Event.accepted, Event.FinAlone, hstate]

/-- A segment that is ignored has nothing to accept. -/
theorem Conn.Ignores.accepted {srcIp dstIp : UInt32} (h : c.Ignores seg)
    (hlen : seg.payload.length < 2 ^ 16) :
    Event.accepted (.lookup srcIp dstIp seg (some (p, c))) = 0 ∧
      Event.FinAlone (.lookup srcIp dstIp seg (some (p, c))) := by
  by_cases hstate : c.state = .established
  · simp only [Conn.Ignores, hstate, Conn.expects_iff hlen] at h
    refine ⟨?_, fun _ hfin ↦ absurd hfin h.2⟩
    rw [Event.accepted_lookup hstate, if_neg h.2, Nat.add_zero, ite_eq_right_iff]
    intro hseq
    by_contra hne
    exact h.1 ⟨fun hnil ↦ hne (by rw [hnil, List.length_nil]), hseq⟩
  · exact Event.accepted_closed hstate

/-- A segment that changes only other fields keeps what was received. -/
theorem Lifetime.Received.keep (h : ℓ.Received (some c)) {e : Event}
    (he : e.accepted = 0 ∧ e.FinAlone) (hhanded : ∀ q d bytes, e ≠ .handed q d bytes)
    (hrcv : c'.rcvNxt = c.rcvNxt) (hstate : c'.state ≠ .lastAck → c.state ≠ .lastAck) :
    (ℓ.add e).Received (some c') where
  opening _ hc hopen := by
    obtain ⟨hfins, hspan⟩ := h.opening c rfl (hstate (Option.some.inj hc ▸ hopen))
    rw [finsAlone_add, events_add, acceptedSpan_cons, he.1, hspan]
    exact ⟨⟨he.2, hfins⟩, rfl⟩
  due _ hc := by
    have := h.due c rfl
    rw [Lifetime.due] at this
    rw [← Option.some.inj hc, hrcv, finsAlone_add, and_iff_right he.2, ← this, Lifetime.due,
      irs_add, events_add, acceptedSpan_cons, he.1, Nat.zero_add]
  bounded := by
    rw [events_add, acceptedSpan_cons, he.1, Nat.zero_add]
    exact h.bounded
  acked hfins := (h.acked ((finsAlone_add ℓ e).mp hfins).2).add hhanded

/-- Adding to what is due. -/
theorem Lifetime.due_cons (ℓ : Lifetime) (e : Event) (events : List Event) :
    ℓ.due (e :: events) = ℓ.due events + UInt32.ofNat e.accepted := by
  rw [due, due, acceptedSpan_cons, Nat.add_comm, UInt32.ofNat_add, ← UInt32.add_assoc]

@[simp] theorem Lifetime.due_add (ℓ : Lifetime) (e : Event) (events : List Event) :
    (ℓ.add e).due events = ℓ.due events := rfl

@[simp] theorem Event.accepted_dispatched (q : Nat) (data : List UInt8) :
    Event.accepted (.dispatched q data) = 0 := rfl

/-- An open connection that accepts a payload without a FIN. -/
theorem Lifetime.Received.data (h : ℓ.Received (some c)) {srcIp dstIp : UInt32}
    (hlen : seg.payload.length < 2 ^ 16) (hstate : c.state = .established)
    (hexpects : c.Expects seg) (hfin : ¬ seg.Has tcpFlagFin)
    (haccepts : Accepts p seg c (ℓ.add (.lookup srcIp dstIp seg (some (p, c)))) c' ℓ') :
    ℓ'.Received (some c') := by
  obtain ⟨hfins, hspan⟩ := h.opening c rfl (by simp [hstate])
  have haccepted : Event.accepted (.lookup srcIp dstIp seg (some (p, c))) =
      seg.payload.length := by
    rw [Event.accepted_lookup hstate, if_pos hexpects.2, if_neg hfin, Nat.add_zero]
  refine haccepts.received.received haccepts.state ?_ ?_ fun _ ↦ ?_
  · refine iff_of_true ?_ ?_
    · rw [(h.due c rfl).mpr hfins, toUInt32_ofNat_length hlen]
      simp only [events_add, due_cons, due_add, haccepted, Event.accepted_dispatched]
      exact (UInt32.add_zero _).symm
    · simp only [finsAlone_add]
      exact ⟨trivial, fun _ hflag ↦ absurd hflag hfin, hfins⟩
  · simp only [events_add, acceptedSpan_cons, haccepted, Event.accepted_dispatched]
    omega
  · exact ((h.acked hfins).add (by simp)).add (by simp)

/-- An open connection that receives a FIN without accepting a payload. -/
theorem Lifetime.Received.fin (h : ℓ.Received (some c)) {srcIp dstIp : UInt32}
    (hlen : seg.payload.length < 2 ^ 16) (hstate : c.state = .established)
    (hexpects : ¬ c.Expects seg) (hfin : seg.Has tcpFlagFin)
    (hfinishes : Finishes p seg c (ℓ.add (.lookup srcIp dstIp seg (some (p, c)))) c' ℓ') :
    ℓ'.Received (some c') := by
  obtain ⟨hfins, hspan⟩ := h.opening c rfl (by simp [hstate])
  rw [Conn.expects_iff hlen] at hexpects
  have hlookup : Event.accepted (.lookup srcIp dstIp seg (some (p, c))) = _ :=
    Event.accepted_lookup hstate
  refine hfinishes.received.received hfinishes.state ?_ ?_ fun _ ↦ ?_
  · simp only [events_add, due_cons, due_add, finsAlone_add, ← (h.due c rfl).mpr hfins, hlookup,
      and_iff_left hfins, Event.FinAlone, hstate, hfin, forall_true_left, if_true]
    by_cases hseq : seg.seq = c.rcvNxt
    · have hnil : seg.payload = [] := not_not.mp fun hne ↦ hexpects ⟨hne, hseq⟩
      rw [if_pos hseq, hnil, hseq]
      exact iff_of_true rfl (.inl ⟨rfl, rfl⟩)
    · rw [if_neg hseq]
      simp [hseq]
  · simp only [events_add, acceptedSpan_cons, hlookup, hspan, hfin, if_true]
    split <;> omega
  · exact (h.acked hfins).add (by simp)

/-- An open connection that accepts a payload together with a FIN counts wrongly. -/
theorem Lifetime.Received.dataFin (h : ℓ.Received (some c)) {srcIp dstIp : UInt32} {c₁ : Conn}
    {ℓ₁ : Lifetime} (hlen : seg.payload.length < 2 ^ 16) (hstate : c.state = .established)
    (hexpects : c.Expects seg) (hfin : seg.Has tcpFlagFin)
    (haccepts : Accepts p seg c (ℓ.add (.lookup srcIp dstIp seg (some (p, c)))) c₁ ℓ₁)
    (hfinishes : Finishes p seg c₁ ℓ₁ c' ℓ') : ℓ'.Received (some c') := by
  obtain ⟨hfins, hspan⟩ := h.opening c rfl (by simp [hstate])
  obtain ⟨hne, hseq⟩ := (Conn.expects_iff hlen).mp hexpects
  have hpos := List.length_pos_iff.mpr hne
  have haccepted : Event.accepted (.lookup srcIp dstIp seg (some (p, c))) =
      seg.payload.length + 1 := by
    rw [Event.accepted_lookup hstate, if_pos hseq, if_pos hfin]
  have halone : ¬ Event.FinAlone (.lookup srcIp dstIp seg (some (p, c))) := fun halone ↦ by
    rcases halone hstate hfin with ⟨-, hnil⟩ | hprevious
    · exact hne hnil
    · rw [← hseq, ← UInt32.toNat_inj, UInt32.toNat_add] at hprevious
      have := seg.seq.toNat_lt
      simp only [UInt32.reduceToNat] at hprevious
      omega
  have hfins₁ : ¬ ℓ₁.FinsAlone := fun hfins₁ ↦ by
    have := haccepts.received.fins.mp hfins₁
    simp only [finsAlone_add] at this
    exact halone this.2.1
  have hspan₁ : acceptedSpan ℓ₁.events = seg.payload.length + 1 := by
    rw [haccepts.received.accepted]
    simp [haccepted, hspan]
  have hirs₁ : ℓ₁.irs = ℓ.irs := haccepts.received.irs
  refine hfinishes.received.received hfinishes.state ?_ ?_ fun hfins ↦ absurd hfins hfins₁
  · refine iff_of_false (fun heq ↦ ?_) hfins₁
    have hdue : seg.seq = ℓ.irs + 1 := by
      rw [hseq, (h.due c rfl).mpr hfins, Lifetime.due, hspan]
      exact UInt32.add_zero _
    rw [Lifetime.due, hspan₁, hirs₁, ← hdue, ← UInt32.toNat_inj] at heq
    simp only [UInt32.toNat_add, UInt32.toNat_ofNat', UInt32.reduceToNat] at heq
    omega
  · omega

/-- The accounting of received segments is preserved. -/
theorem preserved_received (ip : UInt32) : Preserved ip fun o ℓ ↦ ℓ.Received o where
  opened {p srcIp isn seg d ℓ'} htraces := by
    obtain ⟨c₁, rfl, hsends⟩ := htraces.single
    obtain ⟨hrcv, hirs, haccepted, hfins, hacked⟩ := hsends.received
    have halone : Lifetime.FinsAlone ⟨isn, seg.seq, []⟩ := by simp [Lifetime.FinsAlone]
    have hdue : (seg.opened srcIp ip isn).rcvNxt = Lifetime.due ⟨isn, seg.seq, []⟩ [] :=
      (UInt32.add_zero _).symm
    have hspan : acceptedSpan ℓ'.events = 0 := haccepted
    constructor
    · exact fun _ _ _ ↦ ⟨hfins.mpr halone, hspan⟩
    · intro c hc
      rw [← Option.some.inj hc, hrcv, hdue, Lifetime.due, Lifetime.due, hspan, hirs]
      exact iff_of_true rfl (hfins.mpr halone)
    · omega
    · exact fun _ ↦ hacked (by simp [Lifetime.Acked]) hdue
  found {p srcIp seg c d ℓ ℓ'} hlen hsettled hreceived htraces := by
    cases htraces.respond hsettled with
    | ignored hignores =>
        exact hreceived.keep (hignores.accepted hlen) (by simp) rfl id
    | handshake hstate =>
        exact hreceived.keep (Event.accepted_closed (by simp [hstate])) (by simp) rfl
          fun _ ↦ by simp [hstate]
    | data hstate hexpects hfin haccepts =>
        exact hreceived.data hlen hstate hexpects hfin haccepts
    | fin hstate hexpects hfin hfinishes =>
        exact hreceived.fin hlen hstate hexpects hfin hfinishes
    | dataFin hstate hexpects hfin haccepts hfinishes =>
        exact hreceived.dataFin hlen hstate hexpects hfin haccepts hfinishes
    | removed hstate =>
        have hclosed : Event.accepted (.lookup srcIp ip seg (some (p, c))) = 0 ∧ _ :=
          Event.accepted_closed (by simp [hstate])
        constructor
        · simp
        · simp
        · simp only [Lifetime.events_add, acceptedSpan_cons, hclosed.1]
          simpa [Event.accepted] using hreceived.bounded
        · simp only [Lifetime.finsAlone_add]
          exact fun hfins ↦ ((hreceived.acked hfins.2.2).add (by simp)).add (by simp)

end Receiving

/-- What was accepted before an event was accepted before later ones. -/
theorem acceptedSpan_suffix {earlier events : List Event} (h : earlier <:+ events) :
    ∃ k, acceptedSpan events = acceptedSpan earlier + k := by
  obtain ⟨later, rfl⟩ := h
  refine ⟨acceptedSpan later, ?_⟩
  rw [acceptedSpan, List.map_append, List.sum_append, Nat.add_comm]
  rfl

/-- In every reachable state, the number that a listed TCB expects next counts what it accepted
exactly if every FIN of its lifetime came alone. While that is so, every segment that is sent
acknowledges what was accepted before it, and never less than an earlier one. -/
theorem receive_sequence_accounting (c : Setup) (σ : Node) (h : c.Reaches σ) :
    ∃ conns, σ.connections = some conns ∧
      (∀ p d, (p, d) ∈ conns → ∃ ℓ, lifetime p σ.log = some ℓ ∧
        (d.rcvNxt = ℓ.irs + 1 + UInt32.ofNat (acceptedSpan ℓ.events) ↔ ℓ.FinsAlone)) ∧
      ∀ p ℓ, lifetime p σ.log = some ℓ → ℓ.FinsAlone →
        ∀ q d bytes earlier, .handed q d bytes :: earlier <:+ ℓ.events →
          ∃ seg, Segment.parse bytes = some seg ∧
            seg.ack = ℓ.irs + 1 + UInt32.ofNat (acceptedSpan earlier) ∧
            ∀ q' d' bytes' earlier' seg', .handed q' d' bytes' :: earlier' <:+ earlier →
              Segment.parse bytes' = some seg' →
              ∃ k ≤ 65536, seg.ack = seg'.ack + UInt32.ofNat k := by
  obtain ⟨conns, hconns, hopened, hlives⟩ := h.recorded (preserved_received c.ip)
  refine ⟨conns, hconns, fun p d hd ↦ ?_, fun p ℓ hℓ hfins q d bytes earlier hsuffix ↦ ?_⟩
  · obtain ⟨ℓ, hℓ, hreceived⟩ := hopened p d hd
    exact ⟨ℓ, hℓ, hreceived.due d rfl⟩
  · have hreceived := hlives p ℓ hℓ
    have hacked := hreceived.acked hfins
    have hearlier : earlier <:+ ℓ.events := (List.suffix_cons _ _).trans hsuffix
    obtain ⟨seg, hseg, hack⟩ := hacked q d bytes earlier hsuffix
    refine ⟨seg, hseg, hack, fun q' d' bytes' earlier' seg' hsuffix' hseg' ↦ ?_⟩
    obtain ⟨_, hparse, hack'⟩ := hacked q' d' bytes' earlier' (hsuffix'.trans hearlier)
    obtain rfl := Option.some.inj (hparse.symm.trans hseg')
    obtain ⟨k, hk⟩ := acceptedSpan_suffix ((List.suffix_cons _ _).trans hsuffix')
    obtain ⟨m, hm⟩ := acceptedSpan_suffix hearlier
    have hbounded := hreceived.bounded
    refine ⟨k, by omega, ?_⟩
    rw [hack, hack', Lifetime.due, Lifetime.due, hk, UInt32.ofNat_add, ← UInt32.add_assoc]

/-- A FIN far out of order moves the expected number. -/
theorem receive_sequence_miscounts : ∃ σ p d ℓ,
    Setup.sample.exec [.fromPeer 100 0 tcpFlagSyn [], .fromPeer 101 7001 tcpFlagAck [],
      .fromPeer 500 7001 (tcpFlagFin ||| tcpFlagAck) []] = some σ ∧
    Setup.sample.Reaches σ ∧ σ.connections = some [(p, d)] ∧ lifetime p σ.log = some ℓ ∧
    ℓ.irs = 100 ∧ acceptedSpan ℓ.events = 0 ∧ d.rcvNxt = 501 ∧
    d.rcvNxt ≠ ℓ.irs + 1 + UInt32.ofNat (acceptedSpan ℓ.events) := by
  obtain ⟨σ, hexec, hreaches, hσ⟩ := Setup.exec_any .sample
    [.fromPeer 100 0 tcpFlagSyn [], .fromPeer 101 7001 tcpFlagAck [],
      .fromPeer 500 7001 (tcpFlagFin ||| tcpFlagAck) []]
    (fun σ ↦ σ.connections.any fun conns ↦ conns.length == 1 && conns.all fun e ↦
      e.2.rcvNxt == 501 && (lifetime e.1 σ.log).any fun ℓ ↦
        ℓ.irs == 100 && acceptedSpan ℓ.events == 0)
    (by decide +kernel)
  obtain ⟨conns, hconns, hall⟩ := (Option.any_eq_true _ _).mp hσ
  rw [Bool.and_eq_true, beq_iff_eq] at hall
  obtain ⟨⟨p, d⟩, rfl⟩ := List.length_eq_one_iff.mp hall.1
  have htcb := hall.2
  simp only [List.all_cons, List.all_nil, Bool.and_true, Bool.and_eq_true, beq_iff_eq,
    Option.any_eq_true] at htcb
  obtain ⟨hrcv, ℓ, hℓ, hirs, hspan⟩ := htcb
  refine ⟨σ, p, d, ℓ, hexec, hreaches, hconns, hℓ, hirs, hspan, hrcv, ?_⟩
  rw [hrcv, hirs, hspan]
  decide

/-- A FIN that is next is counted. -/
theorem receive_sequence_accounting_fin : ∃ σ p d ℓ,
    Setup.sample.exec [.fromPeer 100 0 tcpFlagSyn [], .fromPeer 101 7001 tcpFlagAck [],
      .fromPeer 101 7001 (tcpFlagFin ||| tcpFlagAck) []] = some σ ∧
    σ.connections = some [(p, d)] ∧ lifetime p σ.log = some ℓ ∧ acceptedSpan ℓ.events = 1 ∧
    d.rcvNxt = ℓ.irs + 1 + UInt32.ofNat (acceptedSpan ℓ.events) := by
  obtain ⟨σ, hexec, hreaches, hσ⟩ := Setup.exec_any .sample
    [.fromPeer 100 0 tcpFlagSyn [], .fromPeer 101 7001 tcpFlagAck [],
      .fromPeer 101 7001 (tcpFlagFin ||| tcpFlagAck) []]
    (fun σ ↦ σ.connections.any fun conns ↦ conns.length == 1 && conns.all fun e ↦
      (lifetime e.1 σ.log).any fun ℓ ↦ acceptedSpan ℓ.events == 1 && decide ℓ.FinsAlone)
    (by decide +kernel)
  obtain ⟨conns, hconns, hall⟩ := (Option.any_eq_true _ _).mp hσ
  rw [Bool.and_eq_true, beq_iff_eq] at hall
  obtain ⟨⟨p, d⟩, rfl⟩ := List.length_eq_one_iff.mp hall.1
  have hlives := hall.2
  simp only [List.all_cons, List.all_nil, Bool.and_true, Bool.and_eq_true, beq_iff_eq,
    decide_eq_true_eq, Option.any_eq_true] at hlives
  obtain ⟨ℓ, hℓ, hspan, hfins⟩ := hlives
  obtain ⟨conns, hconns', hopened, -⟩ := receive_sequence_accounting .sample σ hreaches
  obtain rfl := Option.some.inj (hconns.symm.trans hconns')
  obtain ⟨ℓ', hℓ', hiff⟩ := hopened p d List.mem_cons_self
  obtain rfl := Option.some.inj (hℓ.symm.trans hℓ')
  exact ⟨σ, p, d, ℓ, hexec, hconns, hℓ, hspan, hiff.mpr hfins⟩

end Aether.Ethernet
