import Aether.Ethernet.SequenceNumbers

/-!
# The end of a connection

A connection is removed by the first segment with ACK that finds it in LAST_ACK, whatever it
acknowledges. It sends one FIN, unless a payload and a FIN arrive together.
-/

namespace Aether.Ethernet

open Kernel Common

/-! ## Removal -/

/-- The event removes a TCB, or is the arrival of a segment that does. -/
def Event.Closes : Event → Prop
  | .removed _ => True
  | .lookup _ _ seg (some (_, c)) => c.state = .lastAck ∧ seg.Has tcpFlagAck
  | _ => False

/-- The segment may remove the closing connection `c`: it is a reset, or acknowledges everything
that was sent. -/
def Segment.Finalizes (seg : Segment) (c : Conn) : Prop :=
  seg.Has tcpFlagRst ∨ seg.Has tcpFlagAck ∧ seg.ack = c.sndNxt

instance (seg : Segment) (c : Conn) : Decidable (seg.Finalizes c) :=
  inferInstanceAs (Decidable (_ ∨ _))

/-- A segment that acknowledges anything to a closing connection may remove it. -/
def Event.AcksAll : Event → Prop
  | .lookup _ _ seg (some (_, c)) =>
      c.state = .lastAck → seg.Has tcpFlagAck → seg.Finalizes c
  | _ => True

instance (e : Event) : Decidable e.AcksAll :=
  match e with
  | .lookup _ _ _ (some _) => inferInstanceAs (Decidable (_ → _))
  | .lookup _ _ _ none | .received _ | .passiveOpen .. | .removed _ | .handed .. | .reset ..
  | .dispatched .. | .transmitted _ | .ringFull | .noMemory => inferInstanceAs (Decidable True)

/-- The lifetime ended with the removal of the connection by a segment with ACK. -/
def Lifetime.Closed (ip : UInt32) (ℓ : Lifetime) : Prop :=
  ∃ q srcIp seg c rest,
    ℓ.events = .removed q :: .lookup srcIp ip seg (some (q, c)) :: rest ∧
    c.state = .lastAck ∧ seg.Has tcpFlagAck ∧ ∀ e ∈ rest, ¬ e.Closes

section Removal

variable {p : Nat} {seg : Segment} {c : Conn} {ℓ ℓ' : Lifetime} {ip : UInt32}

/-- Outputs close nothing. -/
theorem Event.IsOutput.not_closes {e : Event} (he : e.IsOutput) : ¬ e.Closes := by
  cases e with
  | handed | dispatched => exact id
  | _ => cases he

theorem Lifetime.Continues.not_closes (h : ℓ.Continues ℓ') (hℓ : ∀ e ∈ ℓ.events, ¬ e.Closes) :
    ∀ e ∈ ℓ'.events, ¬ e.Closes := by
  obtain ⟨-, -, new, hevents, hnew⟩ := h
  rw [hevents]
  exact List.forall_mem_append.mpr ⟨fun e he ↦ (hnew e he).not_closes, hℓ⟩

/-- A connection is listed until a segment closes it. -/
theorem preserved_closed (ip : UInt32) : Preserved ip fun o ℓ ↦
    (o.isSome → ∀ e ∈ ℓ.events, ¬ e.Closes) ∧ (o = none → ℓ.Closed ip) where
  opened htraces := by
    obtain ⟨c₁, rfl, hsends⟩ := htraces.single
    exact ⟨fun _ ↦ hsends.continues.not_closes (by simp), by simp⟩
  found {p srcIp seg c d ℓ ℓ'} _ hsettled hclosed htraces := by
    have hopen := hclosed.1 rfl
    have hlookup : ¬ Event.Closes (.lookup srcIp ip seg (some (p, c))) →
        ∀ e ∈ (ℓ.add (.lookup srcIp ip seg (some (p, c)))).events, ¬ e.Closes :=
      fun he ↦ List.forall_mem_cons.mpr ⟨he, hopen⟩
    cases htraces.respond hsettled with
    | ignored hignores =>
        refine ⟨fun _ ↦ hlookup fun hcloses ↦ ?_, by simp⟩
        simp only [Conn.Ignores, hcloses.1] at hignores
        exact hignores hcloses.2
    | handshake hstate =>
        exact ⟨fun _ ↦ hlookup (by simp [Event.Closes, hstate]), by simp⟩
    | data hstate _ _ haccepts =>
        have he := hlookup (by simp [Event.Closes, hstate])
        exact ⟨fun _ ↦ haccepts.continues.not_closes he, by simp⟩
    | fin hstate _ _ hfinishes =>
        have he := hlookup (by simp [Event.Closes, hstate])
        exact ⟨fun _ ↦ hfinishes.continues.not_closes he, by simp⟩
    | dataFin hstate _ _ haccepts hfinishes =>
        have he := hlookup (by simp [Event.Closes, hstate])
        exact ⟨fun _ ↦ (haccepts.continues.trans hfinishes.continues).not_closes he, by simp⟩
    | removed hstate hack =>
        exact ⟨by simp, fun _ ↦ ⟨p, srcIp, seg, c, ℓ.events, rfl, hstate, hack, hopen⟩⟩

/-- A removal is a closing event. -/
theorem not_removed {events : List Event} (hopen : ∀ e ∈ events, ¬ e.Closes) (q : Nat) :
    .removed q ∉ events :=
  fun hmem ↦ hopen _ hmem trivial

/-- As long as nothing closes a connection, every segment may arrive. -/
theorem acksAll_of_not_closes {events : List Event} (hopen : ∀ e ∈ events, ¬ e.Closes) :
    ∀ e ∈ events, e.AcksAll := by
  intro e he
  cases e with
  | lookup srcIp dstIp seg found =>
      rcases found with _ | ⟨q, c⟩
      · trivial
      · exact fun hstate hack ↦ absurd ⟨hstate, hack⟩ (hopen _ he)
  | _ => trivial

theorem Lifetime.Closed.removed_mem (h : ℓ.Closed ip) (hp : ∀ e ∈ ℓ.events, e.tcb = some p) :
    .removed p ∈ ℓ.events := by
  obtain ⟨q, _, _, _, _, hevents, -⟩ := h
  have hmem : .removed q ∈ ℓ.events := by simp [hevents]
  obtain rfl : q = p := Option.some.inj (hp _ hmem)
  exact hmem

/-- In a lifetime that ended, the last event is the only removal, and the segment before it may
remove the connection exactly if all segments may. -/
theorem Lifetime.Closed.finalized_iff (h : ℓ.Closed ip) (hp : ∀ e ∈ ℓ.events, e.tcb = some p) :
    (∀ earlier, .removed p :: earlier <:+ ℓ.events → ∃ srcIp seg d rest,
        earlier = .lookup srcIp ip seg (some (p, d)) :: rest ∧ d.state = .lastAck ∧
        seg.Finalizes d) ↔ ∀ e ∈ ℓ.events, e.AcksAll := by
  obtain ⟨q, srcIp, seg, d, rest, hevents, hstate, hack, hrest⟩ := h
  obtain rfl : q = p := Option.some.inj (hp (.removed q) (by simp [hevents]))
  rw [hevents]
  constructor
  · intro hfinal
    obtain ⟨_, _, _, _, heq, -, hfinalizes⟩ := hfinal _ List.suffix_rfl
    cases heq
    refine List.forall_mem_cons.mpr ⟨trivial, List.forall_mem_cons.mpr ⟨?_, ?_⟩⟩
    · exact fun _ _ ↦ hfinalizes
    · exact acksAll_of_not_closes hrest
  · intro hacks earlier hsuffix
    have hlookup := hacks (.lookup srcIp ip seg (some (q, d))) (by simp)
    rcases List.suffix_cons_iff.mp hsuffix with heq | hsuffix
    · cases heq
      exact ⟨srcIp, seg, d, rest, rfl, hstate, hlookup hstate hack⟩
    · rcases List.suffix_cons_iff.mp hsuffix with heq | hsuffix
      · cases heq
      · exact absurd (hsuffix.subset List.mem_cons_self) (not_removed hrest q)

end Removal

/-- In every reachable state, the TCBs that are no longer listed are the ones that were removed, and
each was removed by a segment that found it in LAST_ACK. These segments were resets or acknowledged
everything that was sent exactly if every segment with ACK that found the TCB in LAST_ACK did. -/
theorem closing_awaits_fin_ack (c : Setup) (σ : Node) (h : c.Reaches σ) :
    ∃ conns, σ.connections = some conns ∧ ∀ p ℓ, lifetime p σ.log = some ℓ →
      (conns.lookup p = none ↔ .removed p ∈ ℓ.events) ∧
      ((∀ earlier, .removed p :: earlier <:+ ℓ.events → ∃ srcIp seg d rest,
          earlier = .lookup srcIp c.ip seg (some (p, d)) :: rest ∧ d.state = .lastAck ∧
          seg.Finalizes d) ↔ ∀ e ∈ ℓ.events, e.AcksAll) := by
  obtain ⟨conns, hconns, -, hlives⟩ := h.recorded (preserved_closed c.ip)
  refine ⟨conns, hconns, fun p ℓ hℓ ↦ ?_⟩
  obtain ⟨hopen, hclosed⟩ := hlives p ℓ hℓ
  cases hlookup : conns.lookup p with
  | none =>
      have hend := hclosed hlookup
      have hmem : .removed p ∈ ℓ.events := hend.removed_mem (lifetime_tcb hℓ)
      exact ⟨iff_of_true rfl hmem, hend.finalized_iff (lifetime_tcb hℓ)⟩
  | some d =>
      have hopen := hopen (by rw [hlookup, Option.isSome_some])
      refine ⟨iff_of_false (by simp) (not_removed hopen p), iff_of_true ?_ ?_⟩
      · intro earlier hsuffix
        exact absurd (hsuffix.subset List.mem_cons_self) (not_removed hopen p)
      · exact acksAll_of_not_closes hopen

/-- A closing connection is removed by the acknowledgement of its SYN. -/
theorem closing_ignores_fin : ∃ σ p ℓ srcIp seg d rest,
    Setup.sample.exec [.fromPeer 100 0 tcpFlagSyn [], .fromPeer 101 7001 tcpFlagAck [],
      .fromPeer 101 7001 (tcpFlagFin ||| tcpFlagAck) [], .fromPeer 102 7001 tcpFlagAck []] =
      some σ ∧
    Setup.sample.Reaches σ ∧ σ.connections = some [] ∧ lifetime p σ.log = some ℓ ∧
    ℓ.events = .removed p :: .lookup srcIp Setup.sample.ip seg (some (p, d)) :: rest ∧
    d.state = .lastAck ∧ ¬ seg.Finalizes d := by
  obtain ⟨σ, hexec, hreaches, hσ⟩ := Setup.exec_any .sample
    [.fromPeer 100 0 tcpFlagSyn [], .fromPeer 101 7001 tcpFlagAck [],
      .fromPeer 101 7001 (tcpFlagFin ||| tcpFlagAck) [], .fromPeer 102 7001 tcpFlagAck []]
    (fun σ ↦ decide (σ.connections = some []) && (σ.log.filterMap Event.tcb).any fun p ↦
      (lifetime p σ.log).any fun ℓ : Lifetime ↦ decide (¬ ∀ e ∈ ℓ.events, Event.AcksAll e))
    (by decide +kernel)
  simp only [Bool.and_eq_true, decide_eq_true_eq, List.any_eq_true, Option.any_eq_true] at hσ
  obtain ⟨hnone, p, -, ℓ, hℓ, hacks⟩ := hσ
  obtain ⟨conns, hconns, -, hlives⟩ := hreaches.recorded (preserved_closed Setup.sample.ip)
  obtain rfl := Option.some.inj (hconns.symm.trans hnone)
  obtain ⟨q, srcIp, seg, d, rest, hevents, hstate, hack, hrest⟩ := (hlives p ℓ hℓ).2 rfl
  obtain rfl : q = p := Option.some.inj (lifetime_tcb hℓ (.removed q) (by simp [hevents]))
  refine ⟨σ, q, ℓ, srcIp, seg, d, rest, hexec, hreaches, hnone, hℓ, hevents, hstate, ?_⟩
  intro hfinalizes
  rw [hevents] at hacks
  refine hacks (List.forall_mem_cons.mpr ⟨trivial, List.forall_mem_cons.mpr ⟨?_, ?_⟩⟩)
  · exact fun _ _ ↦ hfinalizes
  · exact acksAll_of_not_closes hrest

/-- A connection that is closed by the acknowledgement of its FIN. -/
theorem closing_awaits_fin_ack_last : ∃ σ conns p ℓ srcIp seg d rest,
    Setup.sample.exec [.fromPeer 100 0 tcpFlagSyn [], .fromPeer 101 7001 tcpFlagAck [],
      .fromPeer 101 7001 (tcpFlagFin ||| tcpFlagAck) [], .fromPeer 102 7002 tcpFlagAck []] =
      some σ ∧
    σ.connections = some conns ∧ conns.lookup p = none ∧ lifetime p σ.log = some ℓ ∧
    .removed p :: .lookup srcIp Setup.sample.ip seg (some (p, d)) :: rest <:+ ℓ.events ∧
    d.state = .lastAck ∧ seg.Finalizes d := by
  obtain ⟨σ, hexec, hreaches, hσ⟩ := Setup.exec_any .sample
    [.fromPeer 100 0 tcpFlagSyn [], .fromPeer 101 7001 tcpFlagAck [],
      .fromPeer 101 7001 (tcpFlagFin ||| tcpFlagAck) [], .fromPeer 102 7002 tcpFlagAck []]
    (fun σ ↦ (lifetime (heapStart + 120) σ.log).any fun ℓ : Lifetime ↦
      decide (.removed (heapStart + 120) ∈ ℓ.events) && decide (∀ e ∈ ℓ.events, Event.AcksAll e))
    (by decide +kernel)
  simp only [Bool.and_eq_true, decide_eq_true_eq, Option.any_eq_true] at hσ
  obtain ⟨ℓ, hℓ, hremoved, hacks⟩ := hσ
  obtain ⟨conns, hconns, hlives⟩ := closing_awaits_fin_ack .sample σ hreaches
  obtain ⟨hlisted, hfinal⟩ := hlives _ ℓ hℓ
  obtain ⟨later, earlier, hevents⟩ := List.append_of_mem hremoved
  have hsuffix : .removed (heapStart + 120) :: earlier <:+ ℓ.events := ⟨later, hevents.symm⟩
  obtain ⟨srcIp, seg, d, rest, rfl, hstate, hfinalizes⟩ := hfinal.mpr hacks earlier hsuffix
  exact ⟨σ, conns, _, ℓ, srcIp, seg, d, rest, hexec, hconns, hlisted.mpr hremoved, hℓ, hsuffix,
    hstate, hfinalizes⟩

/-! ## The FIN -/

/-- The segment that an event hands over. -/
def Event.sent : Event → Option Segment
  | .handed _ _ bytes => Segment.parse bytes
  | _ => none

/-- The event hands over a FIN. -/
def Event.sendsFin (e : Event) : Bool := e.sent.any fun seg ↦ decide (seg.Has tcpFlagFin)

/-- An open connection that receives a FIN has no payload to accept with it. -/
def Event.FinBare : Event → Prop
  | .lookup _ _ seg (some (_, c)) => c.state = .established → c.Expects seg → ¬ seg.Has tcpFlagFin
  | _ => True

instance (e : Event) : Decidable e.FinBare :=
  match e with
  | .lookup _ _ _ (some _) => inferInstanceAs (Decidable (_ → _))
  | .lookup _ _ _ none | .received _ | .passiveOpen .. | .removed _ | .handed .. | .reset ..
  | .dispatched .. | .transmitted _ | .ringFull | .noMemory => inferInstanceAs (Decidable True)

/-- No FIN was sent. -/
def Lifetime.NoFin (ℓ : Lifetime) : Prop :=
  ∀ e ∈ ℓ.events, ∀ fin, e.sent = some fin → ¬ fin.Has tcpFlagFin

/-- The segment takes up no sequence numbers and starts right after the FIN. -/
def Segment.Follows (seg fin : Segment) : Prop :=
  seg.seq = fin.seq + 1 ∧ seg.payload = [] ∧ ¬ seg.Has (tcpFlagSyn ||| tcpFlagFin)

/-- Segments sent after a FIN follow it. -/
def Lifetime.FinLast (ℓ : Lifetime) : Prop :=
  ∀ e earlier, e :: earlier <:+ ℓ.events → ∀ seg, e.sent = some seg →
    ∀ e' ∈ earlier, ∀ fin, e'.sent = some fin → fin.Has tcpFlagFin → seg.Follows fin

/-- What the connection sends next starts right after its FIN. -/
def Lifetime.FinNext (ℓ : Lifetime) (c : Conn) : Prop :=
  ∀ e ∈ ℓ.events, ∀ fin, e.sent = some fin → fin.Has tcpFlagFin → c.sndNxt = fin.seq + 1

section Fin

variable {p : Nat} {flags : UInt8} {payload : List UInt8} {seg : Segment} {c c' : Conn}
  {ℓ ℓ' : Lifetime}

theorem Lifetime.NoFin.add (h : ℓ.NoFin) {e : Event} (he : e.sent = none) : (ℓ.add e).NoFin := by
  refine List.forall_mem_cons.mpr ⟨fun fin heq ↦ ?_, h⟩
  rw [he] at heq
  cases heq

/-- Without a FIN there is nothing to follow. -/
theorem Lifetime.NoFin.finLast (h : ℓ.NoFin) : ℓ.FinLast := by
  intro e earlier hsuffix seg _ e' he' fin heq hfin
  have hearlier : earlier <:+ ℓ.events := (List.suffix_cons _ _).trans hsuffix
  exact absurd hfin (h e' (hearlier.subset he') fin heq)

theorem Lifetime.FinLast.add (h : ℓ.FinLast) {e : Event} (he : e.sent = none) :
    (ℓ.add e).FinLast := by
  intro e' earlier hsuffix seg hseg
  rcases List.suffix_cons_iff.mp hsuffix with heq | hsuffix
  · cases heq
    rw [he] at hseg
    cases hseg
  · exact h e' earlier hsuffix seg hseg

/-- Sending a segment without FIN. -/
theorem Sends.noFin (h : Sends p flags payload c ℓ c' ℓ') (hflags : flags &&& tcpFlagFin = 0)
    (hnoFin : ℓ.NoFin) : ℓ'.NoFin := by
  cases h with
  | dropped => exact hnoFin
  | sent =>
      refine List.forall_mem_cons.mpr ⟨fun fin heq ↦ ?_, hnoFin⟩
      rw [Event.sent, Segment.parse_tcpSegment] at heq
      cases heq
      exact not_not.mpr hflags

/-- Sending the only FIN. -/
theorem Sends.fin (h : Sends p (tcpFlagFin ||| tcpFlagAck) [] c ℓ c' ℓ') (hnoFin : ℓ.NoFin) :
    ℓ'.FinLast ∧ ℓ'.FinNext c' := by
  have hno : ∀ e ∈ ℓ.events, ∀ fin, e.sent = some fin → ¬ fin.Has tcpFlagFin := hnoFin
  cases h with
  | dropped =>
      exact ⟨hnoFin.finLast, fun e he fin heq hfin ↦ absurd hfin (hno e he fin heq)⟩
  | sent =>
      constructor
      · intro e earlier hsuffix seg hseg e' he' fin heq hfin
        rcases List.suffix_cons_iff.mp hsuffix with hcons | hsuffix
        · cases hcons
          exact absurd hfin (hno e' he' fin heq)
        · exact hnoFin.finLast e earlier hsuffix seg hseg e' he' fin heq hfin
      · refine List.forall_mem_cons.mpr ⟨fun fin heq _ ↦ ?_, fun e he fin heq hfin ↦ ?_⟩
        · rw [Event.sent, Segment.parse_tcpSegment] at heq
          cases heq
          exact UInt32.add_zero _
        · exact absurd hfin (hno e he fin heq)

/-- Acknowledging after a FIN. -/
theorem Sends.ackAfterFin (h : Sends p tcpFlagAck [] c ℓ c' ℓ') (hlast : ℓ.FinLast)
    (hnext : ℓ.FinNext c) : ℓ'.FinLast := by
  cases h with
  | dropped => exact hlast
  | sent =>
      intro e earlier hsuffix seg hseg e' he' fin heq hfin
      rcases List.suffix_cons_iff.mp hsuffix with hcons | hsuffix
      · cases hcons
        rw [Event.sent, Segment.parse_tcpSegment] at hseg
        cases hseg
        have hflags : tcpFlagAck &&& (tcpFlagSyn ||| tcpFlagFin) = 0 := by decide
        exact ⟨hnext e' he' fin heq hfin, rfl, not_not.mpr hflags⟩
      · exact hlast e earlier hsuffix seg hseg e' he' fin heq hfin

/-- Accepting a payload sends one FIN. -/
theorem Accepts.finLast (h : Accepts p seg c ℓ c' ℓ') (hnoFin : ℓ.NoFin) : ℓ'.FinLast := by
  obtain ⟨hresponse, hfin, hack⟩ := h
  have hresponded := hresponse.noFin rfl (hnoFin.add (e := .dispatched p seg.payload) rfl)
  obtain ⟨hlast, hnext⟩ := hfin.fin hresponded
  exact hack.ackAfterFin hlast hnext

/-- Handling a FIN sends one FIN. -/
theorem Finishes.finLast (h : Finishes p seg c ℓ c' ℓ') (hnoFin : ℓ.NoFin) : ℓ'.FinLast := by
  obtain ⟨hack, hfin⟩ := h
  exact (hfin.fin (hack.noFin rfl hnoFin)).1

/-- A property that excludes itself for everything earlier holds at most once. -/
theorem countP_le_one {P : Event → Bool} {events : List Event}
    (h : ∀ e earlier, e :: earlier <:+ events → P e → ∀ e' ∈ earlier, ¬ P e') :
    events.countP P ≤ 1 := by
  induction events with
  | nil => exact Nat.zero_le _
  | cons e rest ih =>
      by_cases he : P e
      · have hrest := h e rest List.suffix_rfl he
        rw [List.countP_cons_of_pos he, List.countP_eq_zero.mpr hrest]
      · rw [List.countP_cons_of_neg he]
        exact ih fun e' earlier hsuffix ↦ h e' earlier (hsuffix.trans (List.suffix_cons e rest))

/-- A FIN that others only follow is the only one. -/
theorem Lifetime.FinLast.countP_le (h : ℓ.FinLast) : ℓ.events.countP Event.sendsFin ≤ 1 := by
  refine countP_le_one fun e earlier hsuffix he e' he' hfin ↦ ?_
  simp only [Event.sendsFin, Option.any_eq_true, decide_eq_true_eq] at he hfin
  obtain ⟨seg, hseg, hflag⟩ := he
  obtain ⟨fin, heq, hfin⟩ := hfin
  obtain ⟨-, -, hno⟩ := h e earlier hsuffix seg hseg e' he' fin heq hfin
  refine hno fun hzero ↦ hflag ?_
  have hboth : tcpFlagFin = (tcpFlagSyn ||| tcpFlagFin) &&& tcpFlagFin := by decide
  rw [hboth, ← UInt8.and_assoc, hzero, UInt8.zero_and]

/-- Before it closes a connection sends no FIN, and then one, if payloads come without FIN. -/
theorem preserved_finLast (ip : UInt32) : Preserved ip fun o ℓ ↦
    (∀ e ∈ ℓ.events, e.FinBare) →
      ℓ.FinLast ∧ ∀ c, o = some c → c.state ≠ .lastAck → ℓ.NoFin where
  opened htraces _ := by
    obtain ⟨c₁, rfl, hsends⟩ := htraces.single
    have hnoFin := hsends.noFin rfl (by simp [Lifetime.NoFin])
    exact ⟨hnoFin.finLast, fun _ _ _ ↦ hnoFin⟩
  found {p srcIp seg c d ℓ ℓ'} _ hsettled hΨ htraces hbare := by
    have hsubset : ∀ {ℓ' : Lifetime}, (ℓ.add (.lookup srcIp ip seg (some (p, c)))).Continues ℓ' →
        (∀ e ∈ ℓ'.events, e.FinBare) →
        Event.FinBare (.lookup srcIp ip seg (some (p, c))) ∧ ∀ e ∈ ℓ.events, e.FinBare := by
      intro ℓ' hcontinues hbare
      obtain ⟨-, -, new, hevents, -⟩ := hcontinues
      rw [hevents] at hbare
      exact List.forall_mem_cons.mp (List.forall_mem_append.mp hbare).2
    have hopen : ∀ {ℓ' : Lifetime}, c.state = .established →
        (ℓ.add (.lookup srcIp ip seg (some (p, c)))).Continues ℓ' →
        (∀ e ∈ ℓ'.events, e.FinBare) → (ℓ.add (.lookup srcIp ip seg (some (p, c)))).NoFin := by
      intro ℓ' hstate hcontinues hbare
      exact ((hΨ (hsubset hcontinues hbare).2).2 c rfl (by simp [hstate])).add rfl
    cases htraces.respond hsettled with
    | ignored =>
        obtain ⟨hlast, hnoFin⟩ := hΨ (hsubset (.refl _) hbare).2
        exact ⟨hlast.add rfl, fun d hd hstate ↦ (hnoFin d hd hstate).add rfl⟩
    | handshake hstate =>
        obtain ⟨hlast, hnoFin⟩ := hΨ (hsubset (.refl _) hbare).2
        exact ⟨hlast.add rfl, fun d _ _ ↦ (hnoFin c rfl (by simp [hstate])).add rfl⟩
    | data hstate _ _ haccepts =>
        refine ⟨haccepts.finLast (hopen hstate haccepts.continues hbare), fun d hd hopen ↦ ?_⟩
        exact absurd haccepts.state (Option.some.inj hd ▸ hopen)
    | fin hstate _ _ hfinishes =>
        refine ⟨hfinishes.finLast (hopen hstate hfinishes.continues hbare), fun d hd hopen ↦ ?_⟩
        exact absurd hfinishes.state (Option.some.inj hd ▸ hopen)
    -- a segment with data and a FIN is excluded
    | dataFin hstate hexpects hfin haccepts hfinishes =>
        have halone := (hsubset (haccepts.continues.trans hfinishes.continues) hbare).1
        exact absurd hfin (halone hstate hexpects)
    | removed =>
        have hbare := List.forall_mem_cons.mp (List.forall_mem_cons.mp hbare).2
        exact ⟨((hΨ hbare.2).1.add rfl).add rfl, by simp⟩

end Fin

/-- In every reachable state, a TCB whose lifetime has seen no payload and FIN arrive together in
ESTABLISHED has sent at most one FIN, and every later segment starts right after it and takes up no
sequence numbers. -/
theorem at_most_one_fin (c : Setup) (σ : Node) (h : c.Reaches σ) (p : Nat) (ℓ : Lifetime)
    (hℓ : lifetime p σ.log = some ℓ) (hbare : ∀ e ∈ ℓ.events, e.FinBare) :
    ℓ.events.countP Event.sendsFin ≤ 1 ∧
      ∀ e earlier, e :: earlier <:+ ℓ.events → ∀ seg, e.sent = some seg →
        ∀ e' ∈ earlier, ∀ fin, e'.sent = some fin → fin.Has tcpFlagFin → seg.Follows fin := by
  obtain ⟨conns, -, -, hlives⟩ := h.recorded (preserved_finLast c.ip)
  have hlast := (hlives p ℓ hℓ hbare).1
  exact ⟨hlast.countP_le, hlast⟩

/-- A request that arrives with a FIN is answered by two FINs. -/
theorem at_most_one_fin_fails : ∃ σ p ℓ,
    Setup.sample.exec [.fromPeer 100 0 tcpFlagSyn [], .fromPeer 101 7001 tcpFlagAck [],
      .fromPeer 101 7001 (tcpFlagFin ||| tcpFlagAck) [65]] = some σ ∧
    Setup.sample.Reaches σ ∧ lifetime p σ.log = some ℓ ∧
    ℓ.events.countP Event.sendsFin = 2 := by
  obtain ⟨σ, hexec, hreaches, hσ⟩ := Setup.exec_any .sample
    [.fromPeer 100 0 tcpFlagSyn [], .fromPeer 101 7001 tcpFlagAck [],
      .fromPeer 101 7001 (tcpFlagFin ||| tcpFlagAck) [65]]
    (fun σ ↦ (σ.log.filterMap Event.tcb).any fun p ↦
      (lifetime p σ.log).any fun ℓ ↦ ℓ.events.countP Event.sendsFin == 2)
    (by decide +kernel)
  simp only [List.any_eq_true, Option.any_eq_true, beq_iff_eq] at hσ
  obtain ⟨p, -, ℓ, hℓ, hcount⟩ := hσ
  exact ⟨σ, p, ℓ, hexec, hreaches, hℓ, hcount⟩

/-- A FIN alone is answered by one FIN. -/
theorem at_most_one_fin_alone : ∃ σ p ℓ,
    Setup.sample.exec [.fromPeer 100 0 tcpFlagSyn [], .fromPeer 101 7001 tcpFlagAck [],
      .fromPeer 101 7001 (tcpFlagFin ||| tcpFlagAck) []] = some σ ∧
    lifetime p σ.log = some ℓ ∧ ℓ.events.countP Event.sendsFin ≤ 1 := by
  obtain ⟨σ, hexec, hreaches, hσ⟩ := Setup.exec_any .sample
    [.fromPeer 100 0 tcpFlagSyn [], .fromPeer 101 7001 tcpFlagAck [],
      .fromPeer 101 7001 (tcpFlagFin ||| tcpFlagAck) []]
    (fun σ ↦ (σ.log.filterMap Event.tcb).any fun p ↦
      (lifetime p σ.log).any fun ℓ : Lifetime ↦ decide (∀ e ∈ ℓ.events, Event.FinBare e))
    (by decide +kernel)
  simp only [List.any_eq_true, Option.any_eq_true, decide_eq_true_eq] at hσ
  obtain ⟨p, -, ℓ, hℓ, hbare⟩ := hσ
  exact ⟨σ, p, ℓ, hexec, hℓ, (at_most_one_fin .sample σ hreaches p ℓ hℓ hbare).1⟩

end Aether.Ethernet
