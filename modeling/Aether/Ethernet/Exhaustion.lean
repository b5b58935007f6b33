import Aether.Ethernet.Acceptance
import Aether.Ethernet.Responses
import Aether.Ethernet.Segments

/-!
# Connections when memory runs out

A connection enters a state before the segment that the state promises has its memory, and
`tcp_send_segment` tells nobody when there is none. `HasRoom` says for which requests the memory is
there, and as long as it always is, every connection has handed over what its state promises.
-/

namespace Aether.Ethernet

open ByteMemory Kernel Drivers Common Program Transition

/-! ## What a state promises -/

/-- The synchronisation of the connection was handed to the IP layer. -/
def Lifetime.SynAckHanded (ℓ : Lifetime) : Prop :=
  ∃ p c bytes seg, .handed p c bytes ∈ ℓ.events ∧ Segment.parse bytes = some seg ∧
    seg.seq = ℓ.isn ∧ seg.Has tcpFlagSyn ∧ seg.Has tcpFlagAck

/-- A FIN of the connection was handed to the IP layer, and `next` is the number after it. -/
def Lifetime.FinHanded (ℓ : Lifetime) (next : UInt32) : Prop :=
  ∃ p c bytes seg, .handed p c bytes ∈ ℓ.events ∧ Segment.parse bytes = some seg ∧
    seg.Has tcpFlagFin ∧ next = seg.seq + 1

/-- The connection has handed over what its state promises. -/
structure Conn.Consistent (c : Conn) (ℓ : Lifetime) : Prop where
  synAck : c.state = .synReceived → ℓ.SynAckHanded
  fin : c.state = .lastAck → ℓ.FinHanded c.sndNxt

/-- All connections have. -/
def Server.Consistent (s : Server) : Prop :=
  ∀ p c, (p, c) ∈ s.conns → ∃ ℓ, lifetime p s.log = some ℓ ∧ c.Consistent ℓ

/-! ## Handing over a FIN -/

/-- The connection after it sent a segment whose frame's fate was `e`. -/
def Server.sent (s : Server) (p : Nat) (c : Conn) (flags : UInt8) (e : Event) : Server :=
  ((s.record (.handed p c (tcpSegment c flags []))).record e).update p (Conn.advance flags [])

/-- After the act, the sequence number is still the one after the last FIN. -/
def Act.KeepsFin : Act → Prop
  | .update f => ∀ c, (f c).sndNxt = c.sndNxt
  | .note _ => True
  | .send flags payload => payload = [] ∧
      (flags &&& (tcpFlagSyn ||| tcpFlagFin) = 0 ∨ flags &&& tcpFlagFin ≠ 0)
  | .remove => False

/-- The acts are performed, and a FIN among them is handed over, with nothing after it that moves
the sequence number on but another FIN. -/
inductive HandsFin (p : Nat) : List Act → Server → Server → Prop where
  | here {c : Conn} {e : Event} {acts : List Act} {s s' : Server} : (p, c) ∈ s.conns →
      e.IsTransport → (∀ a ∈ acts, a.KeepsFin) →
      Performs p acts (s.sent p c (tcpFlagFin ||| tcpFlagAck) e) s' →
      HandsFin p (.send (tcpFlagFin ||| tcpFlagAck) [] :: acts) s s'
  | later {a : Act} {acts : List Act} {s s₁ s' : Server} : Does p a s s₁ →
      HandsFin p acts s₁ s' → HandsFin p (a :: acts) s s'

section Fins

variable {p : Nat} {acts acts' : List Act} {s s₁ s' : Server} {c : Conn} {ℓ ℓ' : Lifetime}

theorem HandsFin.performs (h : HandsFin p acts s s') : Performs p acts s s' := by
  induction h with
  | here hc he _ hrest => exact .cons (.sent hc he) hrest
  | later hdoes _ ih => exact .cons hdoes ih

/-- Acts after a FIN was handed over. -/
theorem HandsFin.append (h : HandsFin p acts s s₁) (hkeeps : ∀ a ∈ acts', a.KeepsFin)
    (h' : Performs p acts' s₁ s') : HandsFin p (acts ++ acts') s s' := by
  induction h with
  | here hc he hrest hperforms =>
      exact .here hc he (List.forall_mem_append.mpr ⟨hrest, hkeeps⟩) (hperforms.append h')
  | later hdoes _ ih => exact .later hdoes (ih h')

/-- More events change nothing about what was handed over. -/
theorem Lifetime.FinHanded.add {next : UInt32} (h : ℓ.FinHanded next) (e : Event) :
    (ℓ.add e).FinHanded next := by
  obtain ⟨q, d, bytes, seg, hmem, hseg⟩ := h
  exact ⟨q, d, bytes, seg, List.mem_cons_of_mem e hmem, hseg⟩

theorem Lifetime.SynAckHanded.add (h : ℓ.SynAckHanded) (e : Event) : (ℓ.add e).SynAckHanded := by
  obtain ⟨q, d, bytes, seg, hmem, hseg⟩ := h
  exact ⟨q, d, bytes, seg, List.mem_cons_of_mem e hmem, hseg⟩

theorem Conn.Consistent.add (h : c.Consistent ℓ) (e : Event) : c.Consistent (ℓ.add e) :=
  ⟨fun hstate ↦ (h.synAck hstate).add e, fun hstate ↦ (h.fin hstate).add e⟩

/-- A FIN that is handed over counts. -/
theorem Lifetime.finHanded_fin (ℓ : Lifetime) (p : Nat) (c : Conn) {flags : UInt8}
    (hfin : flags &&& tcpFlagFin ≠ 0) :
    (ℓ.add (.handed p c (tcpSegment c flags []))).FinHanded (c.advance flags []).sndNxt := by
  refine ⟨p, c, _, _, List.mem_cons_self, Segment.parse_tcpSegment c flags [], hfin, ?_⟩
  have hflags : flags &&& (tcpFlagSyn ||| tcpFlagFin) ≠ 0 := by
    intro hzero
    refine hfin ?_
    have hmasked : flags &&& (tcpFlagSyn ||| tcpFlagFin) &&& tcpFlagFin = 0 := by
      rw [hzero, UInt8.zero_and]
    rwa [UInt8.and_assoc] at hmasked
  show (if _ then _ else _) + (UInt16.ofNat 0).toUInt32 = _
  rw [if_pos hflags]
  exact UInt32.add_zero _

/-- The number after a FIN stays the one that is sent next. -/
theorem Traces.keepsFin {o d : Option Conn} (h : Traces p acts o ℓ d ℓ')
    (hkeeps : ∀ a ∈ acts, a.KeepsFin) (ho : o = some c) (hfin : ℓ.FinHanded c.sndNxt) :
    ∃ c', d = some c' ∧ ℓ'.FinHanded c'.sndNxt := by
  induction h generalizing c with
  | nil => exact ⟨c, ho, hfin⟩
  | @update f _ _ _ _ _ _ ih =>
      obtain ⟨hf, hrest⟩ := List.forall_mem_cons.mp hkeeps
      have hsame : (f c).sndNxt = c.sndNxt := hf c
      exact ih hrest (by rw [ho, Option.map_some]) (hsame ▸ hfin)
  | note _ ih => exact ih (List.forall_mem_cons.mp hkeeps).2 ho (hfin.add _)
  | @sent flags _ _ c₀ _ _ _ _ ih =>
      obtain ⟨⟨rfl, hflags⟩, hrest⟩ := List.forall_mem_cons.mp hkeeps
      cases ho
      refine ih hrest rfl ?_
      rcases hflags with hnone | hflag
      · have hsame : (c₀.advance flags []).sndNxt = c₀.sndNxt := by
          show (if _ then _ else _) + (UInt16.ofNat 0).toUInt32 = _
          rw [if_neg (not_not.mpr hnone)]
          exact UInt32.add_zero _
        exact hsame ▸ hfin.add _
      · exact Lifetime.finHanded_fin _ _ _ hflag
  | dropped _ ih => exact ih (List.forall_mem_cons.mp hkeeps).2 ho hfin
  | remove => exact (List.forall_mem_cons.mp hkeeps).1.elim

/-- A FIN that was handed over is in the connection's lifetime in the end. -/
theorem HandsFin.traces (h : HandsFin p acts s s') (hs : (s.conns.map Prod.fst).Nodup)
    (htame : Tame acts) (howned : Owned p acts) (hℓ : lifetime p s.log = some ℓ) :
    ∃ c' ℓ', s'.tcb p = some c' ∧ lifetime p s'.log = some ℓ' ∧ ℓ'.FinHanded c'.sndNxt := by
  induction h generalizing ℓ with
  | @here c e acts s s' hc he hkeeps hperforms =>
      obtain ⟨-, hrest⟩ := tame_cons.mp htame
      have htail : Owned p acts := fun e he ↦ howned e (List.mem_cons_of_mem _ he)
      have hdoes : Does p (.send (tcpFlagFin ||| tcpFlagAck) []) s
          (s.sent p c (tcpFlagFin ||| tcpFlagAck) e) := .sent hc he
      have haddresses := hdoes.addresses (tame_cons.mp htame).1 hs
      have hℓ₁ : lifetime p (s.sent p c (tcpFlagFin ||| tcpFlagAck) e).log =
          some (ℓ.add (.handed p c (tcpSegment c (tcpFlagFin ||| tcpFlagAck) []))) := by
        show lifetime p (e :: _ :: s.log) = _
        rw [lifetime_below (.inl he), lifetime_own rfl, hℓ, Option.map_some]
      obtain ⟨⟨ℓ', hℓ', htraces⟩, -⟩ := hperforms.traces haddresses hrest htail hℓ₁
      have htcb : (s.sent p c (tcpFlagFin ||| tcpFlagAck) e).tcb p =
          some (c.advance (tcpFlagFin ||| tcpFlagAck) []) := by
        rw [Server.sent, Server.tcb_update, if_pos rfl, Server.tcb_record, Server.tcb_record,
          (Server.tcb_eq_some hs).mpr hc, Option.map_some]
      obtain ⟨c', hc', hfin⟩ := htraces.keepsFin hkeeps htcb (ℓ.finHanded_fin p c (by decide))
      exact ⟨c', ℓ', hc', hℓ', hfin⟩
  | @later a acts s s₁ s' hdoes _ ih =>
      obtain ⟨ha, hrest⟩ := tame_cons.mp htame
      have hhead : Owned p [a] := fun e he ↦ howned e (List.mem_cons.mpr (.inl (by simpa using he)))
      have htail : Owned p acts := fun e he ↦ howned e (List.mem_cons_of_mem a he)
      obtain ⟨ℓ₁, hℓ₁, -⟩ := hdoes.traces hs hhead hℓ
      exact ih (hdoes.addresses ha hs) hrest htail hℓ₁

end Fins

/-! ## Segments that find the memory they need -/

/-- What a valid segment makes the server do when there is memory for the segment that a state
promises. -/
inductive Server.Completes (srcIp dstIp : UInt32) (seg : Segment) : Server → Server → Prop where
  | found {s s' : Server} {p : Nat} {c : Conn} :
      s.find srcIp seg.srcPort dstIp seg.dstPort = some (p, c) →
      Performs p (c.respond p seg) (s.record (.lookup srcIp dstIp seg (some (p, c)))) s' →
      (c.state = .established → c.Expects seg ∨ seg.Has tcpFlagFin →
        HandsFin p (c.respond p seg) (s.record (.lookup srcIp dstIp seg (some (p, c)))) s') →
      Completes srcIp dstIp seg s s'
  | refused {s : Server} :
      s.find srcIp seg.srcPort dstIp seg.dstPort = none → seg.Opens →
      Completes srcIp dstIp seg s ((s.record (.lookup srcIp dstIp seg none)).record .noMemory)
  | opened {s : Server} {p : Nat} {e : Event} :
      s.find srcIp seg.srcPort dstIp seg.dstPort = none → seg.Opens →
      p ∉ s.conns.map Prod.fst → e.IsTransport →
      Completes srcIp dstIp seg s
        (Server.sent
          { conns := (p, seg.opened srcIp dstIp s.isn) :: s.conns
            isn := s.isn + 1000
            log := .passiveOpen p s.isn seg.seq :: .lookup srcIp dstIp seg none :: s.log } p
          (seg.opened srcIp dstIp s.isn) (tcpFlagSyn ||| tcpFlagAck) e)
  | reset {s : Server} {e : Event} :
      s.find srcIp seg.srcPort dstIp seg.dstPort = none → ¬ seg.Opens → e.IsTransport →
      Completes srcIp dstIp seg s
        (((s.record (.lookup srcIp dstIp seg none)).record
          (.reset dstIp srcIp (resetSegment srcIp dstIp seg))).record e)

section Consistency

variable {ip srcIp : UInt32} {seg : Segment} {s s' : Server}

/-- It is what the segment can make it do. -/
theorem Server.Completes.receives {dstIp : UInt32} (h : Server.Completes srcIp dstIp seg s s') :
    Server.Receives srcIp dstIp seg s s' := by
  cases h with
  | found hfind hperforms => exact .found hfind hperforms
  | refused hfind hopens => exact .refused hfind hopens
  | opened hfind hopens hfresh he =>
      exact .opened hfind hopens hfresh (.single (.sent List.mem_cons_self he))
  | reset hfind hopens he => exact .reset hfind hopens he

/-- Events that befall no connection change nothing. -/
theorem Server.Consistent.nowhere (h : s.Consistent) {e : Event} (he : e.tcb = none)
    (hopen : ∀ p isn irs, e ≠ .passiveOpen p isn irs) : (s.record e).Consistent := by
  intro p c hc
  obtain ⟨ℓ, hℓ, hconsistent⟩ := h p c hc
  refine ⟨ℓ, (lifetime_other ?_ fun isn irs ↦ hopen p isn irs).trans hℓ, hconsistent⟩
  rw [he]
  simp

/-- Neither do those of the layers below. -/
theorem Server.Consistent.below (h : s.Consistent) {e : Event} (he : e.IsBelow) :
    (s.record e).Consistent := by
  intro p c hc
  obtain ⟨ℓ, hℓ, hconsistent⟩ := h p c hc
  exact ⟨ℓ, (lifetime_below he).trans hℓ, hconsistent⟩

/-- What a settled connection made of a segment is consistent when the FIN that it owes was handed
over. -/
theorem Responds.consistent {p : Nat} {c d : Conn} {ℓ ℓ' : Lifetime}
    (h : Responds p seg c ℓ (some d) ℓ') (hc : c.Consistent ℓ)
    (hfin : c.state = .established → c.Expects seg ∨ seg.Has tcpFlagFin →
      ℓ'.FinHanded d.sndNxt) : d.Consistent ℓ' := by
  have hclosing : d.state = .lastAck → ℓ'.FinHanded d.sndNxt → d.Consistent ℓ' := by
    intro hstate hhanded
    refine ⟨fun hsyn ↦ ?_, fun _ ↦ hhanded⟩
    rw [hstate] at hsyn
    cases hsyn
  cases h with
  | ignored => exact hc
  | handshake =>
      constructor
      · intro hstate
        cases hstate
      · intro hstate
        cases hstate
  | data hstate hexpects _ haccepts => exact hclosing haccepts.state (hfin hstate (.inl hexpects))
  | fin hstate _ hflag hfinishes => exact hclosing hfinishes.state (hfin hstate (.inr hflag))
  | dataFin hstate _ hflag _ hfinishes => exact hclosing hfinishes.state (hfin hstate (.inr hflag))

/-- A segment that finds the memory it needs leaves every connection consistent. -/
theorem Server.Completes.consistent (h : Server.Completes srcIp ip seg s s') (htabled : s.Tabled ip)
    (hs : s.Consistent) : s'.Consistent := by
  have htabled' := h.receives.tabled htabled
  cases h with
  | @found _ p c hfind hperforms hhands =>
      have hmem : (p, c) ∈ s.conns := List.mem_of_find?_eq_some hfind
      obtain ⟨ℓ, hℓ, hconsistent⟩ := hs p c hmem
      have hnoted : lifetime p (s.record (.lookup srcIp ip seg (some (p, c)))).log =
          some (ℓ.add (.lookup srcIp ip seg (some (p, c)))) := by
        rw [record, lifetime_own rfl, hℓ, Option.map_some]
      obtain ⟨⟨ℓ', hℓ', htraces⟩, hother⟩ := hperforms.traces htabled.addresses
        (c.tame_respond p seg) (c.owned_respond p seg) hnoted
      intro q d hd
      by_cases hq : q = p
      · subst hq
        have hd' : s'.tcb q = some d := (tcb_eq_some htabled'.addresses).mpr hd
        rw [tcb_record, (tcb_eq_some htabled.addresses).mpr hmem, hd'] at htraces
        refine ⟨ℓ', hℓ', (htraces.respond (htabled.settled _ hmem)).consistent
          (hconsistent.add _) fun hstate howes ↦ ?_⟩
        obtain ⟨d', ℓ'', htcb, hlife, hfin⟩ := (hhands hstate howes).traces htabled.addresses
          (c.tame_respond q seg) (c.owned_respond q seg) hnoted
        cases hd'.symm.trans htcb
        cases hℓ'.symm.trans hlife
        exact hfin
      -- the other connections go on with their lifetimes as they were
      · obtain ⟨ℓ₀, hℓ₀, hd₀⟩ := hs q d ((hperforms.frame (c.tame_respond p seg)).1 q d hd hq)
        refine ⟨ℓ₀, (hother q hq).2.trans (Eq.trans ?_ hℓ₀), hd₀⟩
        exact lifetime_other (e := .lookup srcIp ip seg (some (p, c)))
          (fun heq ↦ hq (Option.some.inj heq).symm) (by simp)
  | refused =>
      exact (hs.nowhere (e := .lookup srcIp ip seg none) rfl (by simp)).below (e := .noMemory)
        (.inl trivial)
  | @opened p e hfind hopens hfresh he =>
      intro q d hd
      have hd' := (tcb_eq_some htabled'.addresses).mpr hd
      rw [sent, tcb_update, tcb_record, tcb_record] at hd'
      by_cases hq : q = p
      · subst hq
        have htcb : tcb
            { conns := (q, seg.opened srcIp ip s.isn) :: s.conns
              isn := s.isn + 1000
              log := .passiveOpen q s.isn seg.seq :: .lookup srcIp ip seg none :: s.log } q =
            some (seg.opened srcIp ip s.isn) := List.lookup_cons_self
        rw [if_pos rfl, htcb, Option.map_some, Option.some.injEq] at hd'
        let d := seg.opened srcIp ip s.isn
        let synAck := tcpSegment d (tcpFlagSyn ||| tcpFlagAck) []
        -- the lifetime of the new connection begins with its SYN-ACK
        refine ⟨⟨s.isn, seg.seq, [.handed q d synAck]⟩, ?_, ?_⟩
        · show lifetime q (e :: .handed q d synAck :: .passiveOpen q s.isn seg.seq :: _) = _
          rw [lifetime_below (.inl he), lifetime_own rfl, lifetime_open, Option.map_some]
          rfl
        · subst hd'
          refine ⟨fun _ ↦ ⟨q, _, _, _, List.mem_cons_self, Segment.parse_tcpSegment _ _ [], rfl, ?_,
            ?_⟩, fun hstate ↦ ?_⟩
          · exact (by decide : (tcpFlagSyn ||| tcpFlagAck) &&& tcpFlagSyn ≠ 0)
          · exact (by decide : (tcpFlagSyn ||| tcpFlagAck) &&& tcpFlagAck ≠ 0)
          · cases hstate
      · rw [if_neg hq] at hd'
        have hsame : s.tcb q = some d := by
          simpa [tcb, List.lookup_cons, beq_eq_false_iff_ne.mpr hq] using hd'
        obtain ⟨ℓ, hℓ, hconsistent⟩ := hs q d ((tcb_eq_some htabled.addresses).mp hsame)
        refine ⟨ℓ, Eq.trans ?_ hℓ, hconsistent⟩
        show lifetime q
          (e :: .handed p _ _ :: .passiveOpen p _ _ :: .lookup _ _ _ none :: s.log) = _
        rw [lifetime_below (.inl he),
          lifetime_other (e := .handed p _ _) (fun heq ↦ hq (Option.some.inj heq).symm) (by simp),
          lifetime_other (e := .passiveOpen p _ _) (by simp [Event.tcb])
            fun isn irs heq ↦ hq (Event.passiveOpen.inj heq).1.symm,
          lifetime_other (e := .lookup _ _ _ none) (by simp [Event.tcb]) (by simp)]
  | reset hfind hopens he =>
      exact ((hs.nowhere (e := .lookup srcIp ip seg none) rfl (by simp)).nowhere
        (e := .reset ip srcIp (resetSegment srcIp ip seg)) rfl (by simp)).below (.inl he)

end Consistency

end Aether.Ethernet
