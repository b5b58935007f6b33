import Aether.Ethernet.Connections
import Aether.Lib.Tables

/-!
# Lifetimes of connections

The log tells the life of every TCB: the numbers that it started with and what happened to it
since. `Traces` follows one TCB and its lifetime through the acts that are performed on it, and
`Preserved` is what a property of both has to satisfy to hold in all runs (`Run.recorded`).
-/

namespace Aether.Ethernet

open Common Relation

/-! ## Reading the log -/

/-- One lifetime of a TCB: its initial send number, the initial number of its peer, and the events
since it was set up, most recent first. -/
structure Lifetime where
  isn : UInt32
  irs : UInt32
  events : List Event
  deriving DecidableEq

/-- The lifetime with one more event. -/
def Lifetime.add (ℓ : Lifetime) (e : Event) : Lifetime := { ℓ with events := e :: ℓ.events }

@[simp] theorem Lifetime.isn_add (ℓ : Lifetime) (e : Event) : (ℓ.add e).isn = ℓ.isn := rfl

@[simp] theorem Lifetime.irs_add (ℓ : Lifetime) (e : Event) : (ℓ.add e).irs = ℓ.irs := rfl

@[simp] theorem Lifetime.events_add (ℓ : Lifetime) (e : Event) :
    (ℓ.add e).events = e :: ℓ.events := rfl

/-- The TCB that an event befalls. -/
def Event.tcb : Event → Option Nat
  | .lookup _ _ _ (some (p, _)) => some p
  | .removed p => some p
  | .handed p _ _ => some p
  | .dispatched p _ => some p
  | _ => none

/-- The latest lifetime of the TCB at `p` that a log tells of. -/
def lifetime (p : Nat) : List Event → Option Lifetime
  | [] => none
  | .passiveOpen q isn irs :: rest => if q = p then some ⟨isn, irs, []⟩ else lifetime p rest
  | e :: rest => if e.tcb = some p then (lifetime p rest).map (·.add e) else lifetime p rest

section Reading

variable {p : Nat} {log : List Event}

@[simp] theorem lifetime_open (isn irs : UInt32) :
    lifetime p (.passiveOpen p isn irs :: log) = some ⟨isn, irs, []⟩ :=
  if_pos rfl

/-- An event that befalls the TCB extends its lifetime. -/
theorem lifetime_own {e : Event} (he : e.tcb = some p) :
    lifetime p (e :: log) = (lifetime p log).map (·.add e) := by
  cases e with
  | passiveOpen => cases he
  | _ => exact if_pos he

/-- Other events do not. -/
theorem lifetime_other {e : Event} (he : e.tcb ≠ some p)
    (hopen : ∀ isn irs, e ≠ .passiveOpen p isn irs) : lifetime p (e :: log) = lifetime p log := by
  cases e with
  | passiveOpen q isn irs => exact if_neg fun hq : q = p ↦ hopen isn irs (hq ▸ rfl)
  | _ => exact if_neg he

/-- What the layers below record befalls no TCB. -/
theorem lifetime_below {e : Event} (he : e.IsBelow) : lifetime p (e :: log) = lifetime p log := by
  rcases he with he | ⟨frame, rfl⟩
  · cases e with
    | transmitted | ringFull | noMemory => exact lifetime_other nofun nofun
    | _ => cases he
  · exact lifetime_other nofun nofun

/-- The events of a lifetime befall its TCB. -/
theorem lifetime_tcb {ℓ : Lifetime} (h : lifetime p log = some ℓ) :
    ∀ e ∈ ℓ.events, e.tcb = some p := by
  induction log generalizing ℓ with
  | nil => cases h
  | cons e rest ih =>
      by_cases he : e.tcb = some p
      · rw [lifetime_own he, Option.map_eq_some_iff] at h
        obtain ⟨ℓ₀, hℓ₀, rfl⟩ := h
        exact List.forall_mem_cons.mpr ⟨he, ih hℓ₀⟩
      · by_cases hopen : ∃ isn irs, e = .passiveOpen p isn irs
        · obtain ⟨isn, irs, rfl⟩ := hopen
          rw [lifetime_open] at h
          cases h
          simp
        · rw [lifetime_other he fun isn irs heq ↦ hopen ⟨isn, irs, heq⟩] at h
          exact ih h

end Reading

/-! ## One connection of a server -/

/-- The connection at `p`. -/
def Server.tcb (s : Server) (p : Nat) : Option Conn := s.conns.lookup p

namespace Server

variable {ip : UInt32} {s s' : Server} {p q : Nat} {c : Conn}

theorem tcb_update (f : Conn → Conn) :
    (s.update p f).tcb q = if q = p then (s.tcb q).map f else s.tcb q := by
  rw [tcb, tcb, update, Tables.lookup_modify]

theorem tcb_remove : (s.remove p).tcb q = if q = p then none else s.tcb q :=
  Tables.lookup_drop s.conns p q

@[simp] theorem tcb_record (e : Event) : (s.record e).tcb q = s.tcb q := rfl

/-- When addresses are distinct, every connection is the one at its address. -/
theorem tcb_eq_some (hs : (s.conns.map Prod.fst).Nodup) : s.tcb p = some c ↔ (p, c) ∈ s.conns :=
  Tables.lookup_eq_some hs

end Server

/-! ## Following a TCB through acts -/

/-- What acts on the TCB at `p` can make of the connection there and of its lifetime. The
connection is `none` once it has been removed. -/
inductive Traces (p : Nat) : List Act → Option Conn → Lifetime → Option Conn → Lifetime → Prop where
  | nil (c : Option Conn) (ℓ : Lifetime) : Traces p [] c ℓ c ℓ
  | update {f : Conn → Conn} {acts : List Act} {c d : Option Conn} {ℓ ℓ' : Lifetime} :
      Traces p acts (c.map f) ℓ d ℓ' → Traces p (.update f :: acts) c ℓ d ℓ'
  | note {e : Event} {acts : List Act} {c d : Option Conn} {ℓ ℓ' : Lifetime} :
      Traces p acts c (ℓ.add e) d ℓ' → Traces p (.note e :: acts) c ℓ d ℓ'
  | sent {flags : UInt8} {payload : List UInt8} {acts : List Act} {c : Conn} {d : Option Conn}
      {ℓ ℓ' : Lifetime} :
      Traces p acts (some (c.advance flags payload))
        (ℓ.add (.handed p c (tcpSegment c flags payload))) d ℓ' →
      Traces p (.send flags payload :: acts) (some c) ℓ d ℓ'
  | dropped {flags : UInt8} {payload : List UInt8} {acts : List Act} {c d : Option Conn}
      {ℓ ℓ' : Lifetime} :
      Traces p acts c ℓ d ℓ' → Traces p (.send flags payload :: acts) c ℓ d ℓ'
  | remove {acts : List Act} {c d : Option Conn} {ℓ ℓ' : Lifetime} :
      Traces p acts none (ℓ.add (.removed p)) d ℓ' → Traces p (.remove :: acts) c ℓ d ℓ'

/-- The events that the acts note befall the TCB at `p`. -/
def Owned (p : Nat) (acts : List Act) : Prop := ∀ e, .note e ∈ acts → e.tcb = some p

@[simp] theorem owned_nil (p : Nat) : Owned p [] := fun _ h ↦ nomatch h

@[simp] theorem owned_append {p : Nat} {acts acts' : List Act} :
    Owned p (acts ++ acts') ↔ Owned p acts ∧ Owned p acts' := by
  simp only [Owned, List.mem_append, or_imp, forall_and]

theorem owned_acceptActs (p : Nat) (seg : Segment) : Owned p (acceptActs p seg) := by
  simp [Owned, acceptActs, dispatchActs, closeActs, ackActs, Event.tcb]

theorem owned_finActs (p : Nat) (seg : Segment) : Owned p (finActs seg) := by
  simp [Owned, finActs, closeActs, ackActs]

/-- A connection's answers befall its own TCB. -/
theorem Conn.owned_respond (p : Nat) (c : Conn) (seg : Segment) : Owned p (c.respond p seg) := by
  unfold respond
  cases c.state with
  | established =>
      refine owned_append.mpr ⟨?_, ?_⟩
      · split
        · exact owned_acceptActs p seg
        · exact owned_nil p
      · split
        · exact owned_finActs p seg
        · exact owned_nil p
  | _ =>
      dsimp only
      split
      · simp [Owned]
      · exact owned_nil p

/-- One act, seen from its own TCB. -/
theorem Does.traces {p : Nat} {a : Act} {s s' : Server} (h : Does p a s s')
    (hs : (s.conns.map Prod.fst).Nodup) (ha : Owned p [a]) {ℓ : Lifetime}
    (hℓ : lifetime p s.log = some ℓ) : ∃ ℓ₁, lifetime p s'.log = some ℓ₁ ∧
      ∀ {acts d ℓ'}, Traces p acts (s'.tcb p) ℓ₁ d ℓ' → Traces p (a :: acts) (s.tcb p) ℓ d ℓ' := by
  cases h with
  | update f =>
      refine ⟨ℓ, hℓ, fun htraces ↦ .update ?_⟩
      rwa [Server.tcb_update, if_pos rfl] at htraces
  | note e =>
      refine ⟨ℓ.add e, ?_, .note⟩
      rw [Server.record, lifetime_own (ha e (by simp)), hℓ, Option.map_some]
  | @sent flags payload _ c e hmem he =>
      refine ⟨ℓ.add (.handed p c (tcpSegment c flags payload)), ?_, fun htraces ↦ ?_⟩
      · rw [Server.update, Server.record, Server.record, lifetime_below (.inl he),
          lifetime_own rfl, hℓ, Option.map_some]
      · rw [Server.tcb_update, if_pos rfl, Server.tcb_record, Server.tcb_record,
          (Server.tcb_eq_some hs).mpr hmem, Option.map_some] at htraces
        rw [(Server.tcb_eq_some hs).mpr hmem]
        exact .sent htraces
  | dropped =>
      refine ⟨ℓ, ?_, .dropped⟩
      rw [Server.record, lifetime_below (e := .noMemory) (.inl trivial), hℓ]
  | remove =>
      refine ⟨ℓ.add (.removed p), ?_, fun htraces ↦ .remove ?_⟩
      · rw [Server.record, Server.remove, lifetime_own rfl, hℓ, Option.map_some]
      · rwa [Server.tcb_record, Server.tcb_remove, if_pos rfl] at htraces

/-- One act, seen from another TCB. -/
theorem Does.elsewhere {p q : Nat} {a : Act} {s s' : Server} (h : Does p a s s') (hq : q ≠ p)
    (ha : Owned p [a]) : s'.tcb q = s.tcb q ∧ lifetime q s'.log = lifetime q s.log := by
  have hother : ∀ {log : List Event} {e : Event}, e.tcb = some p →
      lifetime q (e :: log) = lifetime q log := fun {log} {e} he ↦ by
    refine lifetime_other (fun heq ↦ hq ?_) fun isn irs heq ↦ ?_
    · exact Option.some.inj (heq.symm.trans he)
    · rw [heq] at he
      cases he
  cases h with
  | update f => exact ⟨by rw [Server.tcb_update, if_neg hq], rfl⟩
  | note e => exact ⟨rfl, hother (ha e (by simp))⟩
  | sent hmem he =>
      refine ⟨by rw [Server.tcb_update, if_neg hq]; rfl, ?_⟩
      exact (lifetime_below (.inl he)).trans (hother rfl)
  | dropped => exact ⟨rfl, lifetime_below (e := .noMemory) (.inl trivial)⟩
  | remove => exact ⟨by rw [Server.tcb_record, Server.tcb_remove, if_neg hq], hother rfl⟩

/-- An act leaves addresses distinct. -/
theorem Does.addresses {p : Nat} {a : Act} {s s' : Server} (h : Does p a s s') (ha : a.Tame)
    (hs : (s.conns.map Prod.fst).Nodup) : (s'.conns.map Prod.fst).Nodup := by
  have := ((h.tuples ha).map Prod.fst).nodup
  simp only [Server.tuples, List.map_map] at this
  exact this hs

/-- Acts, seen from their own TCB and from the others. -/
theorem Performs.traces {p : Nat} {acts : List Act} {s s' : Server} (h : Performs p acts s s')
    (hs : (s.conns.map Prod.fst).Nodup) (htame : Tame acts) (howned : Owned p acts)
    {ℓ : Lifetime} (hℓ : lifetime p s.log = some ℓ) :
    (∃ ℓ', lifetime p s'.log = some ℓ' ∧ Traces p acts (s.tcb p) ℓ (s'.tcb p) ℓ') ∧
      ∀ q ≠ p, s'.tcb q = s.tcb q ∧ lifetime q s'.log = lifetime q s.log := by
  induction h generalizing ℓ with
  | nil => exact ⟨⟨ℓ, hℓ, .nil _ _⟩, fun _ _ ↦ ⟨rfl, rfl⟩⟩
  | @cons a acts s₀ s₁ s₂ hdoes _ ih =>
      obtain ⟨ha, hrest⟩ := tame_cons.mp htame
      have hhead : Owned p [a] := fun e he ↦ howned e (List.mem_cons.mpr (.inl (by simpa using he)))
      have htail : Owned p acts := fun e he ↦ howned e (List.mem_cons_of_mem a he)
      obtain ⟨ℓ₁, hℓ₁, hstep⟩ := hdoes.traces hs hhead hℓ
      obtain ⟨⟨ℓ', hℓ', htraces⟩, hother⟩ := ih (hdoes.addresses ha hs) hrest htail hℓ₁
      refine ⟨⟨ℓ', hℓ', hstep htraces⟩, fun q hq ↦ ?_⟩
      obtain ⟨htcb, hlife⟩ := hdoes.elsewhere hq hhead
      exact ⟨(hother q hq).1.trans htcb, (hother q hq).2.trans hlife⟩

/-! ## Properties of lifetimes -/

/-- What a property of a connection and its lifetime has to satisfy to hold in every run of a
server with address `ip`. -/
structure Preserved (ip : UInt32) (Ψ : Option Conn → Lifetime → Prop) : Prop where
  opened {p : Nat} {srcIp isn : UInt32} {seg : Segment} {d : Option Conn} {ℓ' : Lifetime} :
    Traces p [.send (tcpFlagSyn ||| tcpFlagAck) []] (some (seg.opened srcIp ip isn))
      ⟨isn, seg.seq, []⟩ d ℓ' → Ψ d ℓ'
  found {p : Nat} {srcIp : UInt32} {seg : Segment} {c : Conn} {d : Option Conn} {ℓ ℓ' : Lifetime} :
    seg.payload.length < 2 ^ 16 → c.state.Settled → Ψ (some c) ℓ →
    Traces p (c.respond p seg) (some c) (ℓ.add (.lookup srcIp ip seg (some (p, c)))) d ℓ' → Ψ d ℓ'

/-- Every connection has a lifetime, and the property holds of all of them. -/
structure Server.Recorded (Ψ : Option Conn → Lifetime → Prop) (s : Server) : Prop where
  opened : ∀ p c, (p, c) ∈ s.conns → (lifetime p s.log).isSome
  holds : ∀ p ℓ, lifetime p s.log = some ℓ → Ψ (s.tcb p) ℓ

namespace Server

variable {ip : UInt32} {Ψ : Option Conn → Lifetime → Prop} {s s' : Server}

/-- What the layers below record changes nothing. -/
theorem Recorded.below (hs : s.Recorded Ψ) {e : Event} (he : e.IsBelow) :
    (s.record e).Recorded Ψ where
  opened p c hc := by
    rw [record, lifetime_below he]
    exact hs.opened p c hc
  holds p ℓ hℓ := by
    rw [record, lifetime_below he] at hℓ
    exact hs.holds p ℓ hℓ

/-- Acts on the TCB at `p` have to keep the property there only. -/
theorem Recorded.performs {p : Nat} {acts : List Act} (hperforms : Performs p acts s s')
    (haddresses : (s.conns.map Prod.fst).Nodup) (htame : Tame acts) (howned : Owned p acts)
    {ℓ : Lifetime} (hℓ : lifetime p s.log = some ℓ)
    (hother : ∀ q ≠ p, (∀ c, (q, c) ∈ s.conns → (lifetime q s.log).isSome) ∧
      ∀ ℓ, lifetime q s.log = some ℓ → Ψ (s.tcb q) ℓ)
    (hown : ∀ d ℓ', Traces p acts (s.tcb p) ℓ d ℓ' → Ψ d ℓ') : s'.Recorded Ψ := by
  obtain ⟨⟨ℓ', hℓ', htraces⟩, helsewhere⟩ := hperforms.traces haddresses htame howned hℓ
  constructor
  · intro q c hc
    by_cases hq : q = p
    · rw [hq, hℓ', Option.isSome_some]
    · rw [(helsewhere q hq).2]
      exact (hother q hq).1 c ((hperforms.frame htame).1 q c hc hq)
  · intro q ℓ₁ hℓ₁
    by_cases hq : q = p
    · subst hq
      rw [hℓ', Option.some.injEq] at hℓ₁
      exact hℓ₁ ▸ hown _ _ htraces
    · obtain ⟨htcb, hlife⟩ := helsewhere q hq
      rw [htcb]
      exact (hother q hq).2 ℓ₁ (hlife ▸ hℓ₁)

/-- An event that befalls no TCB and opens none changes nothing. -/
theorem Recorded.nowhere (hs : s.Recorded Ψ) {e : Event} (he : e.tcb = none)
    (hopen : ∀ p isn irs, e ≠ .passiveOpen p isn irs) : (s.record e).Recorded Ψ := by
  have hsame : ∀ p, lifetime p (s.record e).log = lifetime p s.log := fun p ↦
    lifetime_other (by rw [he]; exact nofun) (hopen p)
  exact ⟨fun p c hc ↦ by rw [hsame]; exact hs.opened p c hc,
    fun p ℓ hℓ ↦ hs.holds p ℓ (hsame p ▸ hℓ)⟩

/-- A segment keeps a preserved property. -/
theorem Receives.recorded {srcIp : UInt32} {seg : Segment} (hΨ : Preserved ip Ψ)
    (h : Receives srcIp ip seg s s') (hlen : seg.payload.length < 2 ^ 16) (htabled : s.Tabled ip)
    (hs : s.Recorded Ψ) : s'.Recorded Ψ := by
  cases h with
  | @found _ p c hfind hperforms =>
      have hmem : (p, c) ∈ s.conns := List.mem_of_find?_eq_some hfind
      have htcb : s.tcb p = some c := (tcb_eq_some htabled.addresses).mpr hmem
      obtain ⟨ℓ, hℓ⟩ := Option.isSome_iff_exists.mp (hs.opened p c hmem)
      have hΨℓ := hs.holds p ℓ hℓ
      rw [htcb] at hΨℓ
      refine Recorded.performs hperforms htabled.addresses (c.tame_respond p seg)
        (c.owned_respond p seg) (ℓ := ℓ.add (.lookup srcIp ip seg (some (p, c)))) ?_
        (fun q hq ↦ ?_) fun d ℓ' htraces ↦ ?_
      · rw [record, lifetime_own rfl, hℓ, Option.map_some]
      · have hlife : lifetime q (s.record (.lookup srcIp ip seg (some (p, c)))).log =
            lifetime q s.log :=
          lifetime_other (e := .lookup srcIp ip seg (some (p, c)))
            (fun heq ↦ hq (Option.some.inj heq).symm) (by simp)
        rw [hlife]
        exact ⟨hs.opened q, hs.holds q⟩
      · rw [tcb_record, htcb] at htraces
        exact hΨ.found hlen (htabled.settled _ hmem) hΨℓ htraces
  | refused =>
      exact (hs.nowhere (e := .lookup srcIp ip seg none) rfl (by simp)).below (e := .noMemory)
        (.inl trivial)
  | @opened _ p hfind hopens hfresh hperforms =>
      refine Recorded.performs hperforms (List.nodup_cons.mpr ⟨hfresh, htabled.addresses⟩)
        (by simp [Act.Tame]) (by simp [Owned]) (lifetime_open s.isn seg.seq) (fun q hq ↦ ?_)
        fun d ℓ' htraces ↦ ?_
      · have hlife : lifetime q (.passiveOpen p s.isn seg.seq ::
            .lookup srcIp ip seg none :: s.log) = lifetime q s.log :=
          (lifetime_other (e := .passiveOpen p s.isn seg.seq) (by simp [Event.tcb])
            fun isn irs heq ↦ hq (Event.passiveOpen.inj heq).1.symm).trans
            (lifetime_other (e := .lookup srcIp ip seg none) (by simp [Event.tcb]) (by simp))
        refine ⟨fun c hc ↦ ?_, fun ℓ hℓ ↦ ?_⟩
        · rw [hlife]
          rcases List.mem_cons.mp hc with hc | hc
          · exact absurd (Prod.mk.inj hc).1 hq
          · exact hs.opened q c hc
        · rw [hlife] at hℓ
          have := hs.holds q ℓ hℓ
          simpa [tcb, List.lookup_cons, beq_eq_false_iff_ne.mpr hq] using this
      · have htcb : tcb ⟨(p, seg.opened srcIp ip s.isn) :: s.conns, s.isn + 1000,
            .passiveOpen p s.isn seg.seq :: .lookup srcIp ip seg none :: s.log⟩ p =
            some (seg.opened srcIp ip s.isn) := List.lookup_cons_self
        rw [htcb] at htraces
        exact hΨ.opened htraces
  | reset hfind hopens he =>
      exact ((hs.nowhere (e := .lookup srcIp ip seg none) rfl (by simp)).nowhere
        (e := .reset ip srcIp (resetSegment srcIp ip seg)) rfl (by simp)).below (.inl he)

/-- A run from the empty server keeps a preserved property. -/
theorem Run.recorded (hΨ : Preserved ip Ψ) (h : Run ip s s') (hconns : s.conns = [])
    (hlog : s.log = []) : s'.Recorded Ψ := by
  have hstart : s.Tabled ip := by
    constructor <;> simp [hconns]
  induction h with
  | refl => exact ⟨by simp [hconns], by simp [hlog, lifetime]⟩
  | tail hrun hstep ih =>
      cases hstep with
      | receive hlen hreceives =>
          exact hreceives.recorded hΨ hlen (Run.tabled hrun hstart) ih
      | record _ he => exact ih.below he

end Server

/-- A preserved property holds of every connection of a reachable node and of every lifetime that
its log tells of. -/
theorem Setup.Reaches.recorded {c : Setup} {σ : Node} {Ψ : Option Conn → Lifetime → Prop}
    (h : c.Reaches σ) (hΨ : Preserved c.ip Ψ) : ∃ conns, σ.connections = some conns ∧
      (∀ p d, (p, d) ∈ conns → ∃ ℓ, lifetime p σ.log = some ℓ ∧ Ψ (some d) ℓ) ∧
      ∀ p ℓ, lifetime p σ.log = some ℓ → Ψ (conns.lookup p) ℓ := by
  obtain ⟨L, hs⟩ := h.sound
  have hrecorded := hs.run.recorded hΨ rfl rfl
  refine ⟨_, hs.holds.connections_eq, fun p d hd ↦ ?_, hrecorded.holds⟩
  obtain ⟨ℓ, hℓ⟩ := Option.isSome_iff_exists.mp (hrecorded.opened p d hd)
  have hΨℓ := hrecorded.holds p ℓ hℓ
  rw [(Server.tcb_eq_some hs.tabled.addresses).mpr hd] at hΨℓ
  exact ⟨ℓ, hℓ, hΨℓ⟩

end Aether.Ethernet
