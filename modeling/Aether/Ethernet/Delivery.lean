import Aether.Ethernet.Closing

/-!
# Delivery of requests

`socket_dispatch` is called once for a TCB at most, with the payload that follows the SYN, and is
answered once.
-/

namespace Aether.Ethernet

open Kernel Common

/-- The event delivers a payload to the HTTP layer. -/
def Event.isDispatch : Event → Bool
  | .dispatched .. => true
  | _ => false

/-- The event hands over a segment with payload. -/
def Event.sendsPayload (e : Event) : Bool := e.sent.any fun seg ↦ !seg.payload.isEmpty

/-- The payload `data` was delivered right after it had arrived, next after the SYN, for a
connection in ESTABLISHED. -/
def Lifetime.Requested (ip : UInt32) (ℓ : Lifetime) (data : List UInt8) (earlier : List Event) :
    Prop :=
  ∃ q srcIp seg c rest, earlier = .lookup srcIp ip seg (some (q, c)) :: rest ∧
    c.state = .established ∧ data = seg.payload ∧ data ≠ [] ∧ seg.seq = ℓ.irs + 1

/-- Payloads were delivered as they should at most `m` times, and payload was sent at most `n`
times. -/
structure Lifetime.Delivered (ip : UInt32) (ℓ : Lifetime) (m n : Nat) : Prop where
  requested : ∀ q data earlier, .dispatched q data :: earlier <:+ ℓ.events →
    ℓ.Requested ip data earlier
  dispatched : ℓ.events.countP Event.isDispatch ≤ m
  answered : ℓ.events.countP Event.sendsPayload ≤ n

section Delivery

variable {p : Nat} {flags : UInt8} {payload : List UInt8} {seg : Segment} {c c' : Conn}
  {ℓ ℓ' : Lifetime} {ip : UInt32} {m n : Nat}

theorem Lifetime.Delivered.mono (h : ℓ.Delivered ip m n) {m' n' : Nat} (hm : m ≤ m')
    (hn : n ≤ n') : ℓ.Delivered ip m' n' :=
  ⟨h.requested, h.dispatched.trans hm, h.answered.trans hn⟩

/-- An event that is neither. -/
theorem Lifetime.Delivered.add (h : ℓ.Delivered ip m n) {e : Event} (he : e.isDispatch = false)
    (hsent : e.sendsPayload = false) : (ℓ.add e).Delivered ip m n where
  requested q data earlier hsuffix := by
    rcases List.suffix_cons_iff.mp hsuffix with heq | hsuffix
    · cases heq
      cases he
    · exact h.requested q data earlier hsuffix
  dispatched := by
    rw [Lifetime.events_add, List.countP_cons_of_neg (by simp [he])]
    exact h.dispatched
  answered := by
    rw [Lifetime.events_add, List.countP_cons_of_neg (by simp [hsent])]
    exact h.answered

/-- A delivery right after the arrival of the payload. -/
theorem Lifetime.Delivered.dispatch (h : ℓ.Delivered ip m n) {q : Nat} {data : List UInt8}
    (hdata : ℓ.Requested ip data ℓ.events) :
    (ℓ.add (.dispatched q data)).Delivered ip (m + 1) n where
  requested q data earlier hsuffix := by
    rcases List.suffix_cons_iff.mp hsuffix with heq | hsuffix
    · cases heq
      exact hdata
    · exact h.requested q data earlier hsuffix
  dispatched := by
    rw [Lifetime.events_add, List.countP_cons_of_pos (by rfl)]
    exact Nat.succ_le_succ h.dispatched
  answered := by
    rw [Lifetime.events_add, List.countP_cons_of_neg (by simp [Event.sendsPayload, Event.sent])]
    exact h.answered

/-- Sending a segment without payload. -/
theorem Sends.delivered (h : Sends p flags [] c ℓ c' ℓ') (hℓ : ℓ.Delivered ip m n) :
    ℓ'.Delivered ip m n := by
  cases h with
  | dropped => exact hℓ
  | sent =>
      refine hℓ.add rfl ?_
      rw [Event.sendsPayload, Event.sent, Segment.parse_tcpSegment]
      rfl

/-- Sending any segment. -/
theorem Sends.answered (h : Sends p flags payload c ℓ c' ℓ') (hℓ : ℓ.Delivered ip m n) :
    ℓ'.Delivered ip m (n + 1) := by
  cases h with
  | dropped => exact hℓ.mono le_rfl (Nat.le_succ n)
  | sent =>
      refine ⟨fun q data earlier hsuffix ↦ ?_, ?_, ?_⟩
      · rcases List.suffix_cons_iff.mp hsuffix with heq | hsuffix
        · cases heq
        · exact hℓ.requested q data earlier hsuffix
      · rw [Lifetime.events_add, List.countP_cons_of_neg (by simp [Event.isDispatch])]
        exact hℓ.dispatched
      · rw [Lifetime.events_add, List.countP_cons]
        have := hℓ.answered
        split <;> omega

/-- Accepting a payload delivers and answers it once. -/
theorem Accepts.delivered (h : Accepts p seg c ℓ c' ℓ') (hℓ : ℓ.Delivered ip 0 0)
    (hrequested : ℓ.Requested ip seg.payload ℓ.events) : ℓ'.Delivered ip 1 1 := by
  obtain ⟨hresponse, hfin, hack⟩ := h
  exact hack.delivered (hfin.delivered (hresponse.answered (hℓ.dispatch hrequested)))

theorem Finishes.delivered (h : Finishes p seg c ℓ c' ℓ') (hℓ : ℓ.Delivered ip m n) :
    ℓ'.Delivered ip m n := by
  obtain ⟨hack, hfin⟩ := h
  exact hfin.delivered (hack.delivered hℓ)

theorem Sends.rcvNxt (h : Sends p flags payload c ℓ c' ℓ') : c'.rcvNxt = c.rcvNxt := by
  cases h <;> rfl

/-- Until a connection closes nothing is delivered, and the first payload is expected. -/
theorem preserved_delivered (ip : UInt32) : Preserved ip fun o ℓ ↦ ℓ.Delivered ip 1 1 ∧
    ∀ c, o = some c → c.state ≠ .lastAck → ℓ.Delivered ip 0 0 ∧ c.rcvNxt = ℓ.irs + 1 where
  opened {p srcIp isn seg d ℓ'} htraces := by
    obtain ⟨c₁, rfl, hsends⟩ := htraces.single
    have hstart : Lifetime.Delivered ip ⟨isn, seg.seq, []⟩ 0 0 := by
      constructor <;> simp
    have hdelivered := hsends.delivered hstart
    refine ⟨hdelivered.mono (Nat.zero_le 1) (Nat.zero_le 1), fun c hc _ ↦ ⟨hdelivered, ?_⟩⟩
    rw [← Option.some.inj hc, hsends.rcvNxt, hsends.continues.irs]
    rfl
  found {p srcIp seg c d ℓ ℓ'} hlen hsettled hΨ htraces := by
    have hlookup : ∀ {m n : Nat}, ℓ.Delivered ip m n →
        (ℓ.add (.lookup srcIp ip seg (some (p, c)))).Delivered ip m n :=
      fun hℓ ↦ hℓ.add rfl rfl
    -- the segment that is accepted begins where the peer started
    have hrequested : c.state = .established → c.Expects seg →
        (ℓ.add (.lookup srcIp ip seg (some (p, c)))).Requested ip seg.payload
          (ℓ.add (.lookup srcIp ip seg (some (p, c)))).events := by
      intro hstate hexpects
      obtain ⟨hne, hseq⟩ := (Conn.expects_iff hlen).mp hexpects
      have hrcv := (hΨ.2 c rfl (by simp [hstate])).2
      exact ⟨p, srcIp, seg, c, ℓ.events, rfl, hstate, rfl, hne, hseq.trans hrcv⟩
    cases htraces.respond hsettled with
    | ignored =>
        refine ⟨hlookup hΨ.1, fun d hd hopen ↦ ?_⟩
        obtain ⟨hnone, hrcv⟩ := hΨ.2 d hd hopen
        exact ⟨hlookup hnone, hrcv⟩
    | handshake hstate =>
        obtain ⟨hnone, hrcv⟩ := hΨ.2 c rfl (by simp [hstate])
        refine ⟨hlookup hΨ.1, fun d hd _ ↦ ⟨hlookup hnone, ?_⟩⟩
        rw [← Option.some.inj hd]
        exact hrcv
    | data hstate hexpects _ haccepts =>
        obtain ⟨hnone, -⟩ := hΨ.2 c rfl (by simp [hstate])
        refine ⟨haccepts.delivered (hlookup hnone) (hrequested hstate hexpects), ?_⟩
        exact fun d hd hopen ↦ absurd haccepts.state (Option.some.inj hd ▸ hopen)
    | fin hstate _ _ hfinishes =>
        refine ⟨hfinishes.delivered (hlookup hΨ.1), ?_⟩
        exact fun d hd hopen ↦ absurd hfinishes.state (Option.some.inj hd ▸ hopen)
    | dataFin hstate hexpects _ haccepts hfinishes =>
        obtain ⟨hnone, -⟩ := hΨ.2 c rfl (by simp [hstate])
        have hdelivered := haccepts.delivered (hlookup hnone) (hrequested hstate hexpects)
        refine ⟨hfinishes.delivered hdelivered, ?_⟩
        exact fun d hd hopen ↦ absurd hfinishes.state (Option.some.inj hd ▸ hopen)
    | removed => exact ⟨(hlookup hΨ.1).add rfl rfl, by simp⟩

end Delivery

/-- In every reachable state, `rcv_nxt` of a TCB that is not closing yet is the number after its
peer's SYN; and for every TCB one payload at most was delivered and one sent, the delivered one
being that of the segment with this number that had just arrived in ESTABLISHED. -/
theorem exactly_once_delivery (c : Setup) (σ : Node) (h : c.Reaches σ) :
    ∃ conns, σ.connections = some conns ∧
      (∀ p d, (p, d) ∈ conns → ∃ ℓ, lifetime p σ.log = some ℓ ∧
        (d.state = .synReceived ∨ d.state = .established → d.rcvNxt = ℓ.irs + 1)) ∧
      ∀ p ℓ, lifetime p σ.log = some ℓ →
        ℓ.events.countP Event.isDispatch ≤ 1 ∧ ℓ.events.countP Event.sendsPayload ≤ 1 ∧
        ∀ data earlier, .dispatched p data :: earlier <:+ ℓ.events →
          ∃ srcIp seg d rest, earlier = .lookup srcIp c.ip seg (some (p, d)) :: rest ∧
            d.state = .established ∧ data = seg.payload ∧ data ≠ [] ∧ seg.seq = ℓ.irs + 1 := by
  obtain ⟨conns, hconns, hopened, hlives⟩ := h.recorded (preserved_delivered c.ip)
  refine ⟨conns, hconns, fun p d hd ↦ ?_, fun p ℓ hℓ ↦ ?_⟩
  · obtain ⟨ℓ, hℓ, -, hopen⟩ := hopened p d hd
    refine ⟨ℓ, hℓ, fun hstate ↦ (hopen d rfl ?_).2⟩
    rcases hstate with hstate | hstate <;> simp [hstate]
  · obtain ⟨hdelivered, -⟩ := hlives p ℓ hℓ
    refine ⟨hdelivered.dispatched, hdelivered.answered, fun data earlier hsuffix ↦ ?_⟩
    obtain ⟨q, srcIp, seg, d, rest, hearlier, hrequest⟩ :=
      hdelivered.requested p data earlier hsuffix
    have hlookup : .lookup srcIp c.ip seg (some (q, d)) ∈ ℓ.events :=
      hsuffix.subset (by simp [hearlier])
    obtain rfl : q = p := Option.some.inj (lifetime_tcb hℓ _ hlookup)
    exact ⟨srcIp, seg, d, rest, hearlier, hrequest⟩

/-- A byte that is next is delivered once. -/
theorem exactly_once_delivery_byte : ∃ σ p ℓ srcIp seg d rest,
    Setup.sample.exec [.fromPeer 100 0 tcpFlagSyn [], .fromPeer 101 7001 tcpFlagAck [],
      .fromPeer 101 7001 tcpFlagAck [71]] = some σ ∧
    lifetime p σ.log = some ℓ ∧ ℓ.events.countP Event.isDispatch ≤ 1 ∧
    .dispatched p [71] :: .lookup srcIp Setup.sample.ip seg (some (p, d)) :: rest <:+ ℓ.events ∧
    seg.payload = [71] ∧ seg.seq = ℓ.irs + 1 ∧ d.state = .established := by
  obtain ⟨σ, hexec, hreaches, hσ⟩ := Setup.exec_any .sample
    [.fromPeer 100 0 tcpFlagSyn [], .fromPeer 101 7001 tcpFlagAck [],
      .fromPeer 101 7001 tcpFlagAck [71]]
    (fun σ ↦ (lifetime (heapStart + 120) σ.log).any fun ℓ : Lifetime ↦
      decide (.dispatched (heapStart + 120) [71] ∈ ℓ.events))
    (by decide +kernel)
  obtain ⟨ℓ, hℓ, hmem⟩ := (Option.any_eq_true _ _).mp hσ
  obtain ⟨conns, -, -, hlives⟩ := exactly_once_delivery .sample σ hreaches
  obtain ⟨hone, -, hdelivered⟩ := hlives _ ℓ hℓ
  obtain ⟨later, earlier, hevents⟩ := List.append_of_mem (of_decide_eq_true hmem)
  have hsuffix : .dispatched (heapStart + 120) [71] :: earlier <:+ ℓ.events :=
    ⟨later, hevents.symm⟩
  obtain ⟨srcIp, seg, d, rest, rfl, hstate, hdata, -, hseq⟩ := hdelivered _ _ hsuffix
  exact ⟨σ, _, ℓ, srcIp, seg, d, rest, hexec, hℓ, hone, hsuffix, hdata.symm, hseq, hstate⟩

end Aether.Ethernet
