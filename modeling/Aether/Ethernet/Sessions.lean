import Aether.Ethernet.Accounting
import Aether.Ethernet.Lifetimes

/-!
# Every connection is alone

What a TCB does is a function of the segments that it received, whatever else the server did in
between: `connections_alone` compares the lifetime of every TCB with the one that its segments give
to a connection that is alone and has memory for everything. It is behind that one by no more
segments than allocations failed since. `page_served` is the lifetime of a client that asks for one
page.
-/

namespace Aether.Ethernet

open Kernel Common

/-! ## A connection that is alone -/

/-- A connection, and what happened to it, most recent first. -/
structure Session where
  conn : Option Conn
  events : List Event

/-- What an act makes of it. -/
def Session.perform (p : Nat) (s : Session) : Act → Session
  | .update f => { s with conn := s.conn.map f }
  | .note e => { s with events := e :: s.events }
  | .send flags payload =>
      match s.conn with
      | some c => ⟨some (c.advance flags payload),
          .handed p c (tcpSegment c flags payload) :: s.events⟩
      | none => s
  | .remove => ⟨none, .removed p :: s.events⟩

/-- What a segment makes of it. -/
def Session.receive (p : Nat) (s : Session) (srcIp dstIp : UInt32) (seg : Segment) : Session :=
  match s.conn with
  | some c => (c.respond p seg).foldl (perform p)
      ⟨some c, .lookup srcIp dstIp seg (some (p, c)) :: s.events⟩
  | none => s

/-- The connection that a segment opens. -/
def Session.opened (p : Nat) (srcIp ip isn : UInt32) (seg : Segment) : Session :=
  perform p ⟨some (seg.opened srcIp ip isn), []⟩ (.send (tcpFlagSyn ||| tcpFlagAck) [])

/-- The connection and all the segments that it received, the most recent one first. -/
def Session.after (p : Nat) (s : Session) (inputs : List (UInt32 × UInt32 × Segment)) : Session :=
  inputs.foldr (fun input s ↦ s.receive p input.1 input.2.1 input.2.2) s

/-- The segment that was looked up for a connection. -/
def Event.input : Event → Option (UInt32 × UInt32 × Segment)
  | .lookup srcIp dstIp seg (some _) => some (srcIp, dstIp, seg)
  | _ => none

/-- The segments that a connection received with their addresses, the most recent one first. -/
def Lifetime.inputs (ℓ : Lifetime) : List (UInt32 × UInt32 × Segment) :=
  ℓ.events.filterMap Event.input

/-- The segments that a connection received, the first one first. -/
def Lifetime.received (ℓ : Lifetime) : List Segment := (ℓ.inputs.map fun i ↦ i.2.2).reverse

/-- How many segments were sent. -/
def sentCount (events : List Event) : Nat := events.countP Event.isHanded

/-! ## Segments that were dropped -/

/-- The connection without its send number. -/
def Conn.erase (c : Conn) : Conn := { c with sndNxt := 0 }

/-- A connection that may have dropped segments, beside one that has not: they differ in the send
number, and not even there if as much was sent. -/
structure Session.Behind (s s' : Session) : Prop where
  conn : s.conn.map Conn.erase = s'.conn.map Conn.erase
  sent : sentCount s.events ≤ sentCount s'.events
  same : sentCount s.events = sentCount s'.events → s = s'

/-- The act does not look at the send number. -/
def Act.IsBlind : Act → Prop
  | .update f => ∀ c, (f c).erase = f c.erase
  | _ => True

section Behind

variable {p : Nat} {o d : Option Conn} {ℓ ℓ' : Lifetime} {acts : List Act} {s : Session}

/-- The answers to a segment do not look at the send number. -/
theorem Conn.isBlind_respond (p : Nat) (c : Conn) (seg : Segment) :
    ∀ a ∈ c.respond p seg, a.IsBlind := by
  have haccept : ∀ a ∈ acceptActs p seg, a.IsBlind := by
    simp [acceptActs, dispatchActs, closeActs, ackActs, Act.IsBlind, erase]
  have hfin : ∀ a ∈ finActs seg, a.IsBlind := by
    simp [finActs, closeActs, ackActs, Act.IsBlind, erase]
  unfold respond
  cases c.state with
  | established =>
      dsimp only
      intro a ha
      rcases List.mem_append.mp ha with ha | ha
      · split at ha
        · exact haccept a ha
        · cases ha
      · split at ha
        · exact hfin a ha
        · cases ha
  | _ =>
      dsimp only
      split <;> simp [Act.IsBlind, erase]

theorem Conn.respond_erase (p : Nat) (c : Conn) (seg : Segment) :
    c.erase.respond p seg = c.respond p seg := rfl

theorem sentCount_cons (e : Event) (events : List Event) :
    sentCount (e :: events) = sentCount events + if e.isHanded then 1 else 0 := by
  rw [sentCount, List.countP_cons, sentCount]

/-- Both are changed in a way that does not depend on the send number. -/
theorem Session.Behind.update {events : List Event} (hs : Behind ⟨o, events⟩ s) {f : Conn → Conn}
    (hf : ∀ c, (f c).erase = f c.erase) : Behind ⟨o.map f, events⟩ (s.perform p (.update f)) := by
  have hmap : ∀ o : Option Conn, (o.map f).map Conn.erase = (o.map Conn.erase).map f := by
    intro o
    cases o with
    | none => rfl
    | some c => exact congrArg some (hf c)
  refine ⟨?_, hs.sent, fun hcount ↦ ?_⟩
  · show (o.map f).map Conn.erase = (s.conn.map f).map Conn.erase
    rw [hmap, hmap, hs.conn]
  · obtain rfl := hs.same hcount
    rfl

/-- An event befalls both. -/
theorem Session.Behind.add {events : List Event} (hs : Behind ⟨o, events⟩ s) {d d' : Option Conn}
    {e f : Event} (hconn : d.map Conn.erase = d'.map Conn.erase) (hkind : e.isHanded = f.isHanded)
    (hsame : ⟨o, events⟩ = s → d = d' ∧ e = f) :
    Behind ⟨d, e :: events⟩ ⟨d', f :: s.events⟩ := by
  refine ⟨hconn, ?_, fun hcount ↦ ?_⟩
  · show sentCount (e :: events) ≤ sentCount (f :: s.events)
    rw [sentCount_cons, sentCount_cons, hkind]
    exact Nat.add_le_add_right hs.sent _
  · change sentCount (e :: events) = sentCount (f :: s.events) at hcount
    rw [sentCount_cons, sentCount_cons, hkind] at hcount
    have heq := hs.same (Nat.add_right_cancel hcount)
    obtain ⟨rfl, rfl⟩ := hsame heq
    rw [← heq]

/-- A segment is dropped that the connection that is alone sends. -/
theorem Session.Behind.dropped {events : List Event} (hs : Behind ⟨o, events⟩ s) (flags : UInt8)
    (payload : List UInt8) : Behind ⟨o, events⟩ (s.perform p (.send flags payload)) := by
  obtain ⟨conn, events'⟩ := s
  cases conn with
  | none => exact hs
  | some c =>
      have hmore : sentCount (.handed p c (tcpSegment c flags payload) :: events') =
          sentCount events' + 1 :=
        sentCount_cons _ events'
      have hle : sentCount events ≤ sentCount events' := hs.sent
      refine ⟨hs.conn, ?_, fun hcount ↦ ?_⟩
      · exact hle.trans (hmore ▸ Nat.le_succ _)
      · have hmany : sentCount events = sentCount events' + 1 := hcount.trans hmore
        omega

/-- Acts keep a connection behind the one that is alone. -/
theorem Traces.behind (h : Traces p acts o ℓ d ℓ') (hblind : ∀ a ∈ acts, a.IsBlind)
    (hs : Session.Behind ⟨o, ℓ.events⟩ s) :
    Session.Behind ⟨d, ℓ'.events⟩ (acts.foldl (Session.perform p) s) := by
  induction h generalizing s with
  | nil => exact hs
  | @update f acts o d ℓ ℓ' _ ih =>
      obtain ⟨hf, hacts⟩ := List.forall_mem_cons.mp hblind
      exact ih hacts (hs.update hf)
  | @note e acts o d ℓ ℓ' _ ih =>
      obtain ⟨-, hacts⟩ := List.forall_mem_cons.mp hblind
      exact ih hacts (hs.add (e := e) (f := e) hs.conn rfl
        fun heq ↦ ⟨congrArg Session.conn heq, rfl⟩)
  | @sent flags payload acts c d ℓ ℓ' _ ih =>
      obtain ⟨-, hacts⟩ := List.forall_mem_cons.mp hblind
      obtain ⟨c', hc', herase⟩ := Option.map_eq_some_iff.mp hs.conn.symm
      refine ih hacts ?_
      rw [Session.perform, hc']
      refine hs.add (congrArg some herase.symm) rfl fun heq ↦ ?_
      obtain rfl : c = c' := Option.some.inj ((congrArg Session.conn heq).trans hc')
      exact ⟨rfl, rfl⟩
  | @dropped flags payload acts o d ℓ ℓ' _ ih =>
      obtain ⟨-, hacts⟩ := List.forall_mem_cons.mp hblind
      exact ih hacts (hs.dropped flags payload)
  | @remove acts o d ℓ ℓ' _ ih =>
      obtain ⟨-, hacts⟩ := List.forall_mem_cons.mp hblind
      exact ih hacts (hs.add (e := .removed p) (f := .removed p) rfl rfl fun _ ↦ ⟨rfl, rfl⟩)

/-- What acts on a TCB leave of its lifetime: they add no input. -/
theorem Traces.extends (h : Traces p acts o ℓ d ℓ') (htame : Tame acts) :
    ∃ new, ℓ'.events = new ++ ℓ.events ∧ new.filterMap Event.input = [] ∧ ℓ'.isn = ℓ.isn ∧
      ℓ'.irs = ℓ.irs := by
  induction h with
  | nil => exact ⟨[], rfl, rfl, rfl, rfl⟩
  | update _ ih | dropped _ ih => exact ih (tame_cons.mp htame).2
  | note _ ih =>
      obtain ⟨ha, hacts⟩ := tame_cons.mp htame
      obtain ⟨q, payload, rfl⟩ := ha
      obtain ⟨new, hevents, hnew, hnumbers⟩ := ih hacts
      refine ⟨new ++ [.dispatched q payload], ?_, ?_, hnumbers⟩
      · rw [hevents, Lifetime.events_add, List.append_assoc, List.singleton_append]
      · rw [List.filterMap_append, hnew]
        rfl
  | @sent flags payload acts c d ℓ ℓ' _ ih =>
      obtain ⟨new, hevents, hnew, hnumbers⟩ := ih (tame_cons.mp htame).2
      refine ⟨new ++ [.handed p c (tcpSegment c flags payload)], ?_, ?_, hnumbers⟩
      · rw [hevents, Lifetime.events_add, List.append_assoc, List.singleton_append]
      · rw [List.filterMap_append, hnew]
        rfl
  | remove _ ih =>
      obtain ⟨new, hevents, hnew, hnumbers⟩ := ih (tame_cons.mp htame).2
      refine ⟨new ++ [.removed p], ?_, ?_, hnumbers⟩
      · rw [hevents, Lifetime.events_add, List.append_assoc, List.singleton_append]
      · rw [List.filterMap_append, hnew]
        rfl

end Behind

/-! ## What became of the segments -/

/-- The events since the TCB at `p` was set up last. -/
def since (p : Nat) : List Event → List Event
  | [] => []
  | .passiveOpen q isn irs :: rest => if q = p then [] else .passiveOpen q isn irs :: since p rest
  | e :: rest => e :: since p rest

/-- A segment of the TCB at `p` was handed over, or an allocation failed, maybe the one for it. -/
def Event.settles (p : Nat) : Event → Bool
  | .handed q _ _ => q = p
  | .noMemory => true
  | _ => false

/-- How many segments of the TCB at `p` there can have been since it was set up. -/
def settled (p : Nat) (log : List Event) : Nat := (since p log).countP (Event.settles p)

section Settled

variable {p q : Nat} {log : List Event} {e : Event} {a : Act} {acts : List Act} {s s' : Server}

theorem since_cons (hopen : ∀ isn irs, e ≠ .passiveOpen p isn irs) :
    since p (e :: log) = e :: since p log := by
  cases e with
  | passiveOpen q isn irs => exact if_neg fun hq : q = p ↦ hopen isn irs (hq ▸ rfl)
  | _ => rfl

theorem settled_cons (hopen : ∀ isn irs, e ≠ .passiveOpen p isn irs) :
    settled p (e :: log) = settled p log + if e.settles p then 1 else 0 := by
  rw [settled, since_cons hopen, List.countP_cons, settled]

/-- Of these, the ones that were not handed over are failed allocations. -/
theorem settled_eq {ℓ : Lifetime} (hℓ : lifetime p log = some ℓ) :
    settled p log = sentCount ℓ.events + (since p log).count .noMemory := by
  induction log generalizing ℓ with
  | nil => cases hℓ
  | cons e rest ih =>
      by_cases hopen : ∃ isn irs, e = .passiveOpen p isn irs
      · obtain ⟨isn, irs, rfl⟩ := hopen
        rw [lifetime_open] at hℓ
        cases hℓ
        have hnone : since p (.passiveOpen p isn irs :: rest) = [] := if_pos rfl
        rw [settled, hnone]
        rfl
      · have hopen : ∀ isn irs, e ≠ .passiveOpen p isn irs :=
          fun isn irs heq ↦ hopen ⟨isn, irs, heq⟩
        rw [settled_cons hopen, since_cons hopen, List.count_cons]
        by_cases he : e.tcb = some p
        · rw [lifetime_own he, Option.map_eq_some_iff] at hℓ
          obtain ⟨ℓ₀, hℓ₀, rfl⟩ := hℓ
          rw [ih hℓ₀, Lifetime.events_add, sentCount_cons]
          cases e with
          | handed q c bytes =>
              have hq : q = p := Option.some.inj he
              simp [Event.settles, Event.isHanded, hq]
              omega
          | noMemory | passiveOpen | received | reset | transmitted | ringFull => cases he
          | lookup | removed | dispatched => simp [Event.settles, Event.isHanded]
        · rw [lifetime_other he hopen] at hℓ
          rw [ih hℓ]
          cases e with
          | handed q c bytes =>
              have hq : q ≠ p := fun heq ↦ he (congrArg some heq)
              simp [Event.settles, hq]
          | noMemory => simp [Event.settles]; omega
          | _ => simp [Event.settles]

/-- Whatever else happens, the number does not go down. -/
theorem settled_le_cons (hopen : ∀ isn irs, e ≠ .passiveOpen p isn irs) :
    settled p log ≤ settled p (e :: log) := by
  rw [settled_cons hopen]
  exact Nat.le_add_right _ _

/-- A segment to be sent is handed over, or an allocation fails. -/
theorem Does.settled (h : Does p a s s') (ha : a.Tame) (q : Nat) :
    Ethernet.settled q s.log + (if q = p ∧ a.isSend then 1 else 0) ≤
      Ethernet.settled q s'.log := by
  cases h with
  | update f => simp [Server.update, Act.isSend]
  | note e =>
      obtain ⟨r, payload, rfl⟩ := ha
      simp only [Act.isSend, Bool.false_eq_true, and_false, if_false, Nat.add_zero]
      exact settled_le_cons fun _ _ heq ↦ by cases heq
  | @sent flags payload _ c e hmem he =>
      have hlater : ∀ isn irs, e ≠ .passiveOpen q isn irs := by
        rintro isn irs rfl
        cases he
      show _ ≤ Ethernet.settled q (e :: .handed p c (tcpSegment c flags payload) :: s.log)
      refine le_trans ?_ (settled_le_cons hlater)
      rw [settled_cons fun _ _ heq ↦ by cases heq]
      by_cases hq : q = p
      · simp [Act.isSend, Event.settles, hq]
      · simp [hq]
  | dropped flags payload =>
      show _ ≤ Ethernet.settled q (.noMemory :: s.log)
      rw [settled_cons (fun _ _ heq ↦ by cases heq),
        if_pos (show Event.noMemory.settles q = true from rfl)]
      split <;> omega
  | remove =>
      simp only [Act.isSend, Bool.false_eq_true, and_false, if_false, Nat.add_zero]
      show _ ≤ Ethernet.settled q (.removed p :: s.log)
      exact settled_le_cons fun _ _ heq ↦ by cases heq

theorem Performs.settled (h : Performs p acts s s') (hacts : Tame acts) (q : Nat) :
    Ethernet.settled q s.log + (if q = p then acts.countP Act.isSend else 0) ≤
      Ethernet.settled q s'.log := by
  induction h with
  | nil => simp
  | @cons a acts _ _ _ hdoes _ ih =>
      obtain ⟨ha, hrest⟩ := tame_cons.mp hacts
      have hfirst := hdoes.settled ha q
      have hlater := ih hrest
      rw [List.countP_cons]
      by_cases hq : q = p
      · simp only [hq, true_and, if_true] at hfirst hlater ⊢
        omega
      · simp only [hq, false_and, if_false] at hfirst hlater ⊢
        omega

/-- A connection that is alone sends no more than it has to. -/
theorem Session.sentCount_perform (t : Session) (ha : a.Tame) :
    sentCount (t.perform p a).events ≤ sentCount t.events + if a.isSend then 1 else 0 := by
  cases a with
  | update f => exact Nat.le_add_right _ _
  | note e =>
      obtain ⟨q, payload, rfl⟩ := ha
      exact le_of_eq (sentCount_cons _ _)
  | send flags payload =>
      rw [perform]
      split
      · exact le_of_eq (sentCount_cons _ _)
      · exact Nat.le_add_right _ _
  | remove => exact le_of_eq (sentCount_cons _ _)

theorem Session.sentCount_performs (t : Session) (hacts : Tame acts) :
    sentCount (acts.foldl (perform p) t).events ≤
      sentCount t.events + acts.countP Act.isSend := by
  induction acts generalizing t with
  | nil => exact le_rfl
  | cons a acts ih =>
      obtain ⟨ha, hrest⟩ := tame_cons.mp hacts
      have hfirst := t.sentCount_perform (p := p) ha
      have hlater := ih (t.perform p a) hrest
      rw [List.countP_cons, List.foldl_cons]
      omega

end Settled

/-! ## All runs -/

/-- What the segments of a lifetime give to a connection that is alone, opened by the segment `syn`. -/
def Lifetime.alone (ℓ : Lifetime) (p : Nat) (srcIp ip : UInt32) (syn : Segment) : Session :=
  (Session.opened p srcIp ip ℓ.isn syn).after p ℓ.inputs

/-- The lifetime of the TCB at `p` is behind the one of a connection that is alone, which has no more
segments to send than were handed over or may have been dropped. -/
def Server.Attended (ip : UInt32) (p : Nat) (s : Server) : Prop :=
  ∀ ℓ, lifetime p s.log = some ℓ → ∃ (srcIp : UInt32) (syn : Segment), syn.seq = ℓ.irs ∧
    Session.Behind ⟨s.tcb p, ℓ.events⟩ (ℓ.alone p srcIp ip syn) ∧
    sentCount (ℓ.alone p srcIp ip syn).events ≤ settled p s.log

section Attended

variable {ip : UInt32} {p : Nat} {s s' : Server}

/-- What befalls other TCBs does not matter. -/
theorem Server.Attended.keep (h : s.Attended ip p) (htcb : s'.tcb p = s.tcb p)
    (hlife : lifetime p s'.log = lifetime p s.log) (hsettled : settled p s.log ≤ settled p s'.log) :
    s'.Attended ip p := by
  intro ℓ hℓ
  obtain ⟨srcIp, syn, hsyn, hbehind, hcount⟩ := h ℓ (hlife ▸ hℓ)
  exact ⟨srcIp, syn, hsyn, htcb ▸ hbehind, hcount.trans hsettled⟩

theorem Server.Attended.record (h : s.Attended ip p) {e : Event} (he : e.tcb ≠ some p)
    (hopen : ∀ isn irs, e ≠ .passiveOpen p isn irs) : (s.record e).Attended ip p :=
  h.keep rfl (lifetime_other he hopen) (settled_le_cons hopen)

/-- What the layers below record befalls no TCB. -/
theorem Server.Attended.below (h : s.Attended ip p) {e : Event} (he : e.IsBelow) :
    (s.record e).Attended ip p := by
  have hopen : ∀ isn irs, e ≠ .passiveOpen p isn irs := by
    rintro isn irs rfl
    rcases he with he | ⟨frame, he⟩
    · cases he
    · cases he
  exact h.keep rfl (lifetime_below he) (settled_le_cons hopen)

/-- A segment that is looked up without success befalls no TCB. -/
theorem Server.Attended.missed (h : s.Attended ip p) (srcIp dstIp : UInt32) (seg : Segment) :
    (s.record (.lookup srcIp dstIp seg none)).Attended ip p := by
  refine h.record (fun heq ↦ ?_) fun _ _ heq ↦ ?_
  · cases heq
  · cases heq

/-- A connection that is alone answers a segment as the one behind it does. -/
theorem Session.Behind.receive {c : Conn} {d : Option Conn} {ℓ ℓ' : Lifetime}
    {t : Session} {srcIp dstIp : UInt32} {seg : Segment} (ht : Behind ⟨some c, ℓ.events⟩ t)
    (h : Traces p (c.respond p seg) (some c) (ℓ.add (.lookup srcIp dstIp seg (some (p, c)))) d ℓ') :
    Behind ⟨d, ℓ'.events⟩ (t.receive p srcIp dstIp seg) ∧
      sentCount (t.receive p srcIp dstIp seg).events ≤
        sentCount t.events + (c.respond p seg).countP Act.isSend := by
  obtain ⟨c', hc', herase⟩ := Option.map_eq_some_iff.mp ht.conn.symm
  have hrespond : c'.respond p seg = c.respond p seg := by
    rw [← c'.respond_erase, herase, c.respond_erase]
  rw [Session.receive, hc']
  dsimp only
  rw [hrespond]
  constructor
  · refine h.behind (c.isBlind_respond p seg) (ht.add (congrArg some herase.symm) rfl fun heq ↦ ?_)
    obtain rfl : c = c' := Option.some.inj ((congrArg Session.conn heq).trans hc')
    exact ⟨rfl, rfl⟩
  · exact Session.sentCount_performs _ (c.tame_respond p seg)

/-- The connection that a segment opens, before it received anything. -/
theorem Session.behind_opened {srcIp isn : UInt32} {seg : Segment} {d : Option Conn} {ℓ : Lifetime}
    (h : Traces p [.send (tcpFlagSyn ||| tcpFlagAck) []] (some (seg.opened srcIp ip isn))
      ⟨isn, seg.seq, []⟩ d ℓ) : seg.seq = ℓ.irs ∧
    Behind ⟨d, ℓ.events⟩ (ℓ.alone p srcIp ip seg) ∧
      sentCount (ℓ.alone p srcIp ip seg).events = 1 := by
  have hself : Session.Behind ⟨some (seg.opened srcIp ip isn), []⟩
      ⟨some (seg.opened srcIp ip isn), []⟩ := ⟨rfl, le_rfl, fun _ ↦ rfl⟩
  cases h with
  | sent h =>
      cases h
      exact ⟨rfl, hself.add rfl rfl fun _ ↦ ⟨rfl, rfl⟩, rfl⟩
  | dropped h =>
      cases h
      exact ⟨rfl, hself.dropped (tcpFlagSyn ||| tcpFlagAck) [], rfl⟩

/-- Every segment keeps all connections behind those that are alone. -/
theorem Server.Receives.attended {srcIp : UInt32} {seg : Segment} (h : Receives srcIp ip seg s s')
    (htabled : s.Tabled ip) (hlives : ∀ q c, (q, c) ∈ s.conns → (lifetime q s.log).isSome)
    (hs : ∀ q, s.Attended ip q) (q : Nat) : s'.Attended ip q := by
  cases h with
  | @found _ p c hfind hperforms =>
      have hmem : (p, c) ∈ s.conns := List.mem_of_find?_eq_some hfind
      have htcb : s.tcb p = some c := (tcb_eq_some htabled.addresses).mpr hmem
      obtain ⟨ℓ, hℓ⟩ := Option.isSome_iff_exists.mp (hlives p c hmem)
      have hlookup : lifetime p (s.record (.lookup srcIp ip seg (some (p, c)))).log =
          some (ℓ.add (.lookup srcIp ip seg (some (p, c)))) := by
        rw [record, lifetime_own rfl, hℓ, Option.map_some]
      obtain ⟨⟨ℓ', hℓ', htraces⟩, helsewhere⟩ := hperforms.traces htabled.addresses
        (c.tame_respond p seg) (c.owned_respond p seg) hlookup
      have hnoted : settled q s.log ≤
          settled q (s.record (.lookup srcIp ip seg (some (p, c)))).log :=
        settled_le_cons fun _ _ heq ↦ by cases heq
      have hsettled := hperforms.settled (c.tame_respond p seg) q
      by_cases hq : q = p
      · subst hq
        intro ℓ₁ hℓ₁
        cases hℓ'.symm.trans hℓ₁
        rw [tcb_record, htcb] at htraces
        obtain ⟨src, syn, hsyn, hbehind, hcount⟩ := hs q ℓ hℓ
        rw [htcb] at hbehind
        obtain ⟨new, hevents, hnew, hisn, hirs⟩ := htraces.extends (c.tame_respond q seg)
        have hinputs : ℓ'.inputs = (srcIp, ip, seg) :: ℓ.inputs := by
          rw [Lifetime.inputs, hevents, List.filterMap_append, hnew]
          rfl
        have halone : ℓ'.alone q src ip syn =
            (ℓ.alone q src ip syn).receive q srcIp ip seg := by
          rw [Lifetime.alone, hinputs, hisn]
          rfl
        obtain ⟨hreceived, hmore⟩ := hbehind.receive htraces
        rw [if_pos rfl] at hsettled
        refine ⟨src, syn, hsyn.trans hirs.symm, halone ▸ hreceived, ?_⟩
        rw [halone]
        omega
      · obtain ⟨htcb', hlife⟩ := helsewhere q hq
        rw [if_neg hq, Nat.add_zero] at hsettled
        refine (hs q).keep htcb' (hlife.trans ?_) (hnoted.trans hsettled)
        exact lifetime_other (e := .lookup srcIp ip seg (some (p, c)))
          (fun heq ↦ hq (Option.some.inj heq).symm) fun _ _ heq ↦ by cases heq
  | refused => exact ((hs q).missed srcIp ip seg).below (.inl trivial)
  | @opened _ p hfind hopens hfresh hperforms =>
      obtain ⟨⟨ℓ', hℓ', htraces⟩, helsewhere⟩ := hperforms.traces
        (List.nodup_cons.mpr ⟨hfresh, htabled.addresses⟩) (by simp [Act.Tame]) (by simp [Owned])
        (lifetime_open s.isn seg.seq)
      have hsettled := hperforms.settled (by simp [Act.Tame]) q
      by_cases hq : q = p
      · subst hq
        intro ℓ₁ hℓ₁
        cases hℓ'.symm.trans hℓ₁
        have htcb : tcb ⟨(q, seg.opened srcIp ip s.isn) :: s.conns, s.isn + 1000,
            .passiveOpen q s.isn seg.seq :: .lookup srcIp ip seg none :: s.log⟩ q =
            some (seg.opened srcIp ip s.isn) := List.lookup_cons_self
        rw [htcb] at htraces
        obtain ⟨hirs, hbehind, hone⟩ := Session.behind_opened htraces
        rw [if_pos rfl] at hsettled
        refine ⟨srcIp, seg, hirs, hbehind, ?_⟩
        rw [hone]
        exact (Nat.le_add_left _ _).trans hsettled
      · obtain ⟨htcb', hlife⟩ := helsewhere q hq
        have hopen : ∀ isn irs, Event.passiveOpen p s.isn seg.seq ≠ .passiveOpen q isn irs :=
          fun isn irs heq ↦ hq (Event.passiveOpen.inj heq).1.symm
        have hrecorded := ((hs q).missed srcIp ip seg).record
          (e := .passiveOpen p s.isn seg.seq) (fun heq ↦ by cases heq) hopen
        rw [if_neg hq, Nat.add_zero] at hsettled
        refine hrecorded.keep (htcb'.trans ?_) hlife hsettled
        simp [tcb, record, List.lookup_cons, beq_eq_false_iff_ne.mpr hq]
  | reset hfind hopens he =>
      have hreset := ((hs q).missed srcIp ip seg).record
        (e := .reset ip srcIp (resetSegment srcIp ip seg)) (fun heq ↦ by cases heq)
        fun _ _ heq ↦ by cases heq
      exact hreset.below (.inl he)

/-- So they are in every run. -/
theorem Server.Run.attended (h : Run ip s s') (hconns : s.conns = []) (hlog : s.log = [])
    (q : Nat) : s'.Attended ip q := by
  have hstart : s.Tabled ip := by
    constructor <;> simp [hconns]
  induction h generalizing q with
  | refl =>
      intro ℓ hℓ
      rw [hlog] at hℓ
      cases hℓ
  | tail hrun hstep ih =>
      cases hstep with
      | receive hlen hreceives =>
          have hrecorded := Run.recorded (Ψ := fun _ _ ↦ True)
            ⟨fun _ ↦ trivial, fun _ _ _ _ ↦ trivial⟩ hrun hconns hlog
          exact hreceives.attended (Run.tabled hrun hstart) hrecorded.opened ih q
      | record _ he => exact (ih q).below he

end Attended

/-- In every reachable state, the lifetime of every TCB is that of a connection which receives the
same segments and nothing else, whatever came from other clients in between: what was sent on it is
at most what that connection sends, and if it is as much, all events and the connection are the
same. So they are if no allocation failed since the TCB was set up. -/
theorem connections_alone (c : Setup) (σ : Node) (h : c.Reaches σ) :
    ∃ conns, σ.connections = some conns ∧ ∀ p ℓ, lifetime p σ.log = some ℓ →
      ∃ (srcIp : UInt32) (syn : Segment), syn.seq = ℓ.irs ∧
        let alone := (Session.opened p srcIp c.ip ℓ.isn syn).after p ℓ.inputs
        (conns.lookup p).map Conn.erase = alone.conn.map Conn.erase ∧
        sentCount ℓ.events ≤ sentCount alone.events ∧
        (.noMemory ∉ since p σ.log → sentCount ℓ.events = sentCount alone.events) ∧
        (sentCount ℓ.events = sentCount alone.events →
          ℓ.events = alone.events ∧ conns.lookup p = alone.conn) := by
  obtain ⟨L, hs⟩ := h.sound
  refine ⟨_, hs.holds.connections_eq, fun p ℓ hℓ ↦ ?_⟩
  obtain ⟨srcIp, syn, hsyn, hbehind, hcount⟩ := hs.run.attended rfl rfl p ℓ hℓ
  have hsettled := settled_eq (show lifetime p (σ.server L).log = some ℓ from hℓ)
  refine ⟨srcIp, syn, hsyn, hbehind.conn, hbehind.sent, fun hmemory ↦ ?_, fun hsame ↦ ?_⟩
  · have hnone : (since p (σ.server L).log).count .noMemory = 0 := List.count_eq_zero.mpr hmemory
    rw [hsettled, hnone, Nat.add_zero] at hcount
    exact Nat.le_antisymm hbehind.sent hcount
  · have heq := hbehind.same hsame
    exact ⟨congrArg Session.events heq, congrArg Session.conn heq⟩

/-- Two clients in turn: the second one opens a connection while the first one closes its own. -/
theorem connections_alone_two : ∃ σ ℓ,
    Setup.sample.exec [.fromPeer 100 0 tcpFlagSyn [], .fromPort 5556 300 0 tcpFlagSyn [],
      .fromPeer 101 7001 tcpFlagAck [], .fromPeer 101 7001 (tcpFlagFin ||| tcpFlagAck) []] =
      some σ ∧
    lifetime (heapStart + 120) σ.log = some ℓ ∧ ∃ (srcIp : UInt32) (syn : Segment),
      syn.seq = ℓ.irs ∧ ℓ.events = ((Session.opened (heapStart + 120) srcIp Setup.sample.ip ℓ.isn
        syn).after (heapStart + 120) ℓ.inputs).events := by
  obtain ⟨σ, hexec, hreaches, hσ⟩ := Setup.exec_any .sample
    [.fromPeer 100 0 tcpFlagSyn [], .fromPort 5556 300 0 tcpFlagSyn [],
      .fromPeer 101 7001 tcpFlagAck [], .fromPeer 101 7001 (tcpFlagFin ||| tcpFlagAck) []]
    (fun σ ↦ decide (.noMemory ∉ since (heapStart + 120) σ.log) &&
      (lifetime (heapStart + 120) σ.log).isSome)
    (by decide +kernel)
  rw [Bool.and_eq_true, decide_eq_true_eq, Option.isSome_iff_exists] at hσ
  obtain ⟨hmemory, ℓ, hℓ⟩ := hσ
  obtain ⟨conns, -, halone⟩ := connections_alone .sample σ hreaches
  obtain ⟨srcIp, syn, hsyn, -, -, hall, hsame⟩ := halone _ ℓ hℓ
  exact ⟨σ, ℓ, hexec, hℓ, srcIp, syn, hsyn, (hsame (hall hmemory)).1⟩

/-! ## One page -/

/-- The bytes that an event hands over. -/
def Event.bytes : Event → Option (List UInt8)
  | .handed _ _ bytes => some bytes
  | _ => none

/-- Segments depend on the addresses, the ports, the numbers and the window. -/
theorem tcpSegment_congr {c d : Conn} (flags : UInt8) (payload : List UInt8)
    (hheader : c.header flags = d.header flags) (hlocal : c.localIp = d.localIp)
    (hremote : c.remoteIp = d.remoteIp) :
    tcpSegment c flags payload = tcpSegment d flags payload := by
  rw [tcpSegment, tcpSegment, hheader, hlocal, hremote]

/-- A SYN and a FIN take up one number. -/
theorem Conn.advance_control {flags : UInt8} (c : Conn)
    (h : flags &&& (tcpFlagSyn ||| tcpFlagFin) ≠ 0) :
    c.advance flags [] = { c with sndNxt := c.sndNxt + 1 } := by
  rw [advance, if_pos h]
  simp

/-- Other segments take up as many numbers as they have bytes. -/
theorem Conn.advance_data {flags : UInt8} (c : Conn) (payload : List UInt8)
    (h : flags &&& (tcpFlagSyn ||| tcpFlagFin) = 0) : c.advance flags payload =
      { c with sndNxt := c.sndNxt + (UInt16.ofNat payload.length).toUInt32 } := by
  rw [advance, if_neg (not_not_intro h)]

section Page

variable {p : Nat} {c : Conn} {events : List Event} {srcIp dstIp : UInt32} {seg : Segment}

/-- The segment that ends the handshake. -/
theorem Session.receive_handshake (hstate : c.state = .synReceived) (hack : seg.Has tcpFlagAck) :
    receive p ⟨some c, events⟩ srcIp dstIp seg =
      ⟨some { c with sndUna := seg.ack, state := .established },
        .lookup srcIp dstIp seg (some (p, c)) :: events⟩ := by
  simp only [receive, Conn.respond, hstate, if_pos hack]
  rfl

/-- The request: it is delivered, answered with the page and a FIN, and acknowledged. -/
theorem Session.receive_request (hstate : c.state = .established) (hexpects : c.Expects seg)
    (hfin : ¬ seg.Has tcpFlagFin) :
    let c₁ := { c with rcvNxt := c.rcvNxt + (UInt16.ofNat seg.payload.length).toUInt32 }
    let c₂ := { c₁ with
      sndNxt := c.sndNxt + (UInt16.ofNat httpResponse.length).toUInt32, state := .lastAck }
    let c₃ := { c₂ with sndNxt := c₂.sndNxt + 1 }
    receive p ⟨some c, events⟩ srcIp dstIp seg =
      ⟨some c₃, .handed p c₃ (tcpSegment c₃ tcpFlagAck []) ::
        .handed p c₂ (tcpSegment c₂ (tcpFlagFin ||| tcpFlagAck) []) ::
        .handed p c₁ (tcpSegment c₁ (tcpFlagPsh ||| tcpFlagAck) httpResponse) ::
        .dispatched p seg.payload :: .lookup srcIp dstIp seg (some (p, c)) :: events⟩ := by
  intro c₁ c₂ c₃
  have hrespond : c.respond p seg = acceptActs p seg := by
    simp only [Conn.respond, hstate, if_pos hexpects, if_neg hfin, List.append_nil]
  have hpage :
      { c₁.advance (tcpFlagPsh ||| tcpFlagAck) httpResponse with state := .lastAck } = c₂ := by
    rw [c₁.advance_data httpResponse (by decide)]
  have hclose : c₂.advance (tcpFlagFin ||| tcpFlagAck) [] = c₃ := c₂.advance_control (by decide)
  have hack : c₃.advance tcpFlagAck [] = c₃ := by
    rw [c₃.advance_data [] (by decide)]
    simp
  have hperformed : receive p ⟨some c, events⟩ srcIp dstIp seg =
      (acceptActs p seg).foldl (perform p)
        ⟨some c, .lookup srcIp dstIp seg (some (p, c)) :: events⟩ := by
    rw [← hrespond]
    rfl
  rw [hperformed]
  simp only [acceptActs, dispatchActs, closeActs, ackActs, List.cons_append, List.nil_append,
    List.foldl_cons, List.foldl_nil, perform, Option.map_some]
  rw [hpage, hclose, hack]

/-- The segment that ends the connection. -/
theorem Session.receive_last (hstate : c.state = .lastAck) (hack : seg.Has tcpFlagAck) :
    receive p ⟨some c, events⟩ srcIp dstIp seg =
      ⟨none, .removed p :: .lookup srcIp dstIp seg (some (p, c)) :: events⟩ := by
  simp only [receive, Conn.respond, hstate, if_pos hack]
  rfl

end Page

/-- A client opens a connection and then sends three segments: an acknowledgement, a request that is
next and has no FIN, and another acknowledgement. Then its TCB is gone, whatever other clients did
in between, and it was sent at most four segments, and four if no allocation failed since it opened
the connection. These are the SYN-ACK, the page and the FIN one behind the other, and the
acknowledgement of the request. -/
theorem page_served (c : Setup) (σ : Node) (h : c.Reaches σ) (p : Nat) (ℓ : Lifetime)
    (hℓ : lifetime p σ.log = some ℓ) (ack get last : Segment)
    (hreceived : ℓ.received = [ack, get, last]) (hack : ack.Has tcpFlagAck)
    (hget : get.seq = ℓ.irs + 1 ∧ UInt16.ofNat get.payload.length > 0 ∧ ¬ get.Has tcpFlagFin)
    (hlast : last.Has tcpFlagAck) :
    (∃ conns, σ.connections = some conns ∧ conns.lookup p = none) ∧
    sentCount ℓ.events ≤ 4 ∧ (.noMemory ∉ since p σ.log → sentCount ℓ.events = 4) ∧
    (sentCount ℓ.events = 4 → .dispatched p get.payload ∈ ℓ.events ∧ ∃ d : Conn, d.localIp = c.ip ∧
      let first := { d with sndNxt := ℓ.isn, rcvNxt := ℓ.irs + 1 }
      let page := { d with
        sndNxt := ℓ.isn + 1, rcvNxt := ℓ.irs + 1 + (UInt16.ofNat get.payload.length).toUInt32 }
      let behind := { page with
        sndNxt := page.sndNxt + (UInt16.ofNat httpResponse.length).toUInt32 }
      ℓ.events.reverse.filterMap Event.bytes = [
        tcpSegment first (tcpFlagSyn ||| tcpFlagAck) [],
        tcpSegment page (tcpFlagPsh ||| tcpFlagAck) httpResponse,
        tcpSegment behind (tcpFlagFin ||| tcpFlagAck) [],
        tcpSegment { behind with sndNxt := behind.sndNxt + 1 } tcpFlagAck []]) := by
  obtain ⟨L, hs⟩ := h.sound
  obtain ⟨srcIp, syn, hsyn, hbehind, hcount⟩ := hs.run.attended rfl rfl p ℓ hℓ
  have hsettled := settled_eq (show lifetime p (σ.server L).log = some ℓ from hℓ)
  obtain ⟨hseq, hpayload, hfin⟩ := hget
  rw [← hsyn] at hseq ⊢
  have hreversed : ℓ.inputs.map (fun i ↦ i.2.2) = [last, get, ack] :=
    List.reverse_eq_iff.mp hreceived
  obtain ⟨⟨from₂, to₂, last⟩, rest₂, hinputs, rfl, hrest₂⟩ := List.map_eq_cons_iff.mp hreversed
  obtain ⟨⟨from₁, to₁, get⟩, rest₁, rfl, rfl, hrest₁⟩ := List.map_eq_cons_iff.mp hrest₂
  obtain ⟨⟨from₀, to₀, ack⟩, rest₀, rfl, rfl, hrest₀⟩ := List.map_eq_cons_iff.mp hrest₁
  obtain rfl := List.map_eq_nil_iff.mp hrest₀
  dsimp only at hack hseq hpayload hfin hlast
  let c₀ : Conn := syn.opened srcIp c.ip ℓ.isn
  let c₁ : Conn := { c₀ with sndNxt := ℓ.isn + 1 }
  let c₂ : Conn := { c₁ with sndUna := ack.ack, state := .established }
  have hopened : Session.opened p srcIp c.ip ℓ.isn syn =
      ⟨some c₁, [.handed p c₀ (tcpSegment c₀ (tcpFlagSyn ||| tcpFlagAck) [])]⟩ := by
    have hadvance : c₀.advance (tcpFlagSyn ||| tcpFlagAck) [] = c₁ := c₀.advance_control (by decide)
    rw [← hadvance]
    rfl
  have halone : ℓ.alone p srcIp c.ip syn =
      (((Session.opened p srcIp c.ip ℓ.isn syn).receive p from₀ to₀ ack).receive p
        from₁ to₁ get).receive p from₂ to₂ last := by
    rw [Lifetime.alone, hinputs]
    rfl
  have hexpects : c₂.Expects get := ⟨hpayload, hseq⟩
  rw [hopened, Session.receive_handshake rfl hack, Session.receive_request rfl hexpects hfin,
    Session.receive_last rfl hlast] at halone
  rw [halone] at hbehind hcount
  refine ⟨⟨_, hs.holds.connections_eq, Option.map_eq_none_iff.mp hbehind.conn⟩, hbehind.sent,
    fun hmemory ↦ ?_, fun hsent ↦ ?_⟩
  · have hnone : (since p (σ.server L).log).count .noMemory = 0 := List.count_eq_zero.mpr hmemory
    rw [hsettled, hnone, Nat.add_zero] at hcount
    exact Nat.le_antisymm hbehind.sent hcount
  · have heq := hbehind.same (hsent.trans rfl)
    have hevents := congrArg Session.events heq
    dsimp only at hevents
    refine ⟨?_, c₀, rfl, ?_⟩
    · rw [hevents]
      simp
    · rw [hevents]
      refine List.cons_eq_cons.mpr ⟨rfl, List.cons_eq_cons.mpr ⟨?_, List.cons_eq_cons.mpr ⟨?_,
        List.cons_eq_cons.mpr ⟨?_, rfl⟩⟩⟩⟩
      · exact tcpSegment_congr _ _ rfl rfl rfl
      · exact tcpSegment_congr _ _ rfl rfl rfl
      · exact tcpSegment_congr _ _ rfl rfl rfl

theorem page_served_get : ∃ σ ℓ,
    Setup.sample.exec [.fromPeer 100 0 tcpFlagSyn [], .fromPeer 101 7001 tcpFlagAck [],
      .fromPeer 101 7001 tcpFlagAck [71, 69, 84], .fromPeer 104 7100 tcpFlagAck []] = some σ ∧
    lifetime (heapStart + 120) σ.log = some ℓ ∧ sentCount ℓ.events = 4 ∧
    .dispatched (heapStart + 120) [71, 69, 84] ∈ ℓ.events ∧
    ∃ conns, σ.connections = some conns ∧ conns.lookup (heapStart + 120) = none := by
  obtain ⟨σ, hexec, hreaches, hσ⟩ := Setup.exec_any .sample
    [.fromPeer 100 0 tcpFlagSyn [], .fromPeer 101 7001 tcpFlagAck [],
      .fromPeer 101 7001 tcpFlagAck [71, 69, 84], .fromPeer 104 7100 tcpFlagAck []]
    (fun σ ↦ decide (.noMemory ∉ since (heapStart + 120) σ.log) &&
      (lifetime (heapStart + 120) σ.log).any fun ℓ : Lifetime ↦
        decide (ℓ.received = [⟨5555, 80, 101, 7001, tcpFlagAck, []⟩,
          ⟨5555, 80, 101, 7001, tcpFlagAck, [71, 69, 84]⟩,
          ⟨5555, 80, 104, 7100, tcpFlagAck, []⟩]) && decide (ℓ.irs = 100))
    (by decide +kernel)
  simp only [Option.any_eq_true, Bool.and_eq_true, decide_eq_true_eq] at hσ
  obtain ⟨hmemory, ℓ, hℓ, hreceived, hirs⟩ := hσ
  obtain ⟨hgone, -, hfour, hpage⟩ := page_served .sample σ hreaches _ ℓ hℓ _ _ _ hreceived
    (by decide) ⟨by rw [hirs]; decide, by decide, by decide⟩ (by decide)
  exact ⟨σ, ℓ, hexec, hℓ, hfour hmemory, (hpage (hfour hmemory)).1, hgone⟩

end Aether.Ethernet
