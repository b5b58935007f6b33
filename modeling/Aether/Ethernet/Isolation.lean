import Aether.Ethernet.Resets

/-!
# Isolation of connections

A segment changes the connection that it belongs to, and no other. Segments of two connections can
be processed in either order.
-/

namespace Aether.Ethernet

open ByteMemory Kernel Common Program

/-! ## One connection -/

/-- The segment that an event hands over on the connection with the 4-tuple `t`. -/
def Event.sentOn (t : UInt32 × UInt16 × UInt32 × UInt16) : Event → Option (List UInt8)
  | .handed _ c bytes => if c.fourTuple = t then some bytes else none
  | _ => none

/-- A transport event hands nothing over. -/
theorem Event.IsTransport.sentOn {e : Event} (he : e.IsTransport)
    (t : UInt32 × UInt16 × UInt32 × UInt16) : e.sentOn t = none := by
  cases e with
  | handed => cases he
  | _ => rfl

section Yields

variable {p : Nat} {acts : List Act} {o o₁ o₂ : Option Conn} {new new₁ new₂ : List Event}

/-- With memory, acts have one outcome for the connection and for what it sends. -/
theorem Yields.deterministic (h₁ : Yields p acts o new₁ o₁) (h₂ : Yields p acts o new₂ o₂)
    (hmemory₁ : .noMemory ∉ new₁) (hmemory₂ : .noMemory ∉ new₂) :
    o₁ = o₂ ∧ ∀ t, new₁.filterMap (Event.sentOn t) = new₂.filterMap (Event.sentOn t) := by
  induction acts generalizing o new₁ new₂ with
  | nil =>
      obtain ⟨rfl, rfl⟩ := h₁
      obtain ⟨rfl, rfl⟩ := h₂
      exact ⟨rfl, fun _ ↦ rfl⟩
  | cons a acts ih =>
      obtain ⟨m₁, first₁, rest₁, hfirst₁, hrest₁, rfl⟩ := h₁
      obtain ⟨m₂, first₂, rest₂, hfirst₂, hrest₂, rfl⟩ := h₂
      obtain ⟨hmemoryRest₁, hmemoryFirst₁⟩ := not_or.mp (List.mem_append.not.mp hmemory₁)
      obtain ⟨hmemoryRest₂, hmemoryFirst₂⟩ := not_or.mp (List.mem_append.not.mp hmemory₂)
      -- the first action has only one outcome where memory does not run out
      have hsame : m₁ = m₂ ∧
          ∀ t, first₁.filterMap (Event.sentOn t) = first₂.filterMap (Event.sentOn t) := by
        cases a with
        | update | note | remove =>
            obtain ⟨rfl, rfl⟩ := hfirst₁
            obtain ⟨rfl, rfl⟩ := hfirst₂
            exact ⟨rfl, fun _ ↦ rfl⟩
        | send flags payload =>
            rcases hfirst₁ with ⟨rfl, -⟩ | ⟨c₁, e₁, rfl, he₁, rfl, rfl⟩
            · exact absurd List.mem_cons_self hmemoryFirst₁
            rcases hfirst₂ with ⟨rfl, -⟩ | ⟨c₂, e₂, hc₂, he₂, rfl, rfl⟩
            · exact absurd List.mem_cons_self hmemoryFirst₂
            cases hc₂
            refine ⟨rfl, fun t ↦ ?_⟩
            rw [List.filterMap_cons_none (he₁.sentOn t), List.filterMap_cons_none (he₂.sentOn t)]
      obtain ⟨rfl, hfirst⟩ := hsame
      obtain ⟨ho, hrest⟩ := ih hrest₁ hrest₂ hmemoryRest₁ hmemoryRest₂
      refine ⟨ho, fun t ↦ ?_⟩
      rw [List.filterMap_append, List.filterMap_append, hfirst, hrest]

/-- Tame acts send on the connection that they are performed on. -/
theorem Yields.sentOn_other (h : Yields p acts o new o₁) (hacts : Tame acts)
    {t : UInt32 × UInt16 × UInt32 × UInt16} (ht : ∀ c, o = some c → c.fourTuple ≠ t) :
    new.filterMap (Event.sentOn t) = [] := by
  induction acts generalizing o new with
  | nil => rw [h.1, List.filterMap_nil]
  | cons a acts ih =>
      obtain ⟨m, first, rest, hfirst, hrest, rfl⟩ := h
      obtain ⟨ha, hacts⟩ := tame_cons.mp hacts
      have hstep : first.filterMap (Event.sentOn t) = [] ∧ ∀ c, m = some c → c.fourTuple ≠ t := by
        cases a with
        | update f =>
            obtain ⟨rfl, rfl⟩ := hfirst
            refine ⟨rfl, fun c hc ↦ ?_⟩
            obtain ⟨c₀, hc₀, rfl⟩ := Option.map_eq_some_iff.mp hc
            rw [(ha c₀).1]
            exact ht c₀ hc₀
        | note e =>
            obtain ⟨q, payload, rfl⟩ := ha
            obtain ⟨rfl, rfl⟩ := hfirst
            exact ⟨rfl, ht⟩
        | send flags payload =>
            rcases hfirst with ⟨rfl, rfl⟩ | ⟨c₀, e, rfl, he, rfl, rfl⟩
            · exact ⟨rfl, ht⟩
            · have htuple := ht c₀ rfl
              refine ⟨?_, fun c hc ↦ ?_⟩
              · rw [List.filterMap_cons_none (he.sentOn t)]
                simp [Event.sentOn, htuple]
              · cases hc
                exact htuple
        | remove =>
            obtain ⟨rfl, rfl⟩ := hfirst
            refine ⟨rfl, fun c hc ↦ ?_⟩
            cases hc
      rw [List.filterMap_append, hstep.1, ih hrest hacts hstep.2, List.append_nil]

/-- What two connections with different 4-tuples send on any one of them does not interleave. -/
theorem Yields.sentOn_comm {p₁ p₂ : Nat} {acts₁ acts₂ : List Act} {c₁ c₂ : Conn}
    {new₁ new₂ : List Event} {o₁ o₂ : Option Conn} (h₁ : Yields p₁ acts₁ (some c₁) new₁ o₁)
    (h₂ : Yields p₂ acts₂ (some c₂) new₂ o₂) (hacts₁ : Tame acts₁) (hacts₂ : Tame acts₂)
    (htuples : c₁.fourTuple ≠ c₂.fourTuple) (t : UInt32 × UInt16 × UInt32 × UInt16) :
    new₂.filterMap (Event.sentOn t) ++ new₁.filterMap (Event.sentOn t) =
      new₁.filterMap (Event.sentOn t) ++ new₂.filterMap (Event.sentOn t) := by
  -- at most one of the two connections has the 4-tuple
  by_cases ht : c₁.fourTuple = t
  · have hnone : new₂.filterMap (Event.sentOn t) = [] := by
      refine h₂.sentOn_other hacts₂ fun d hd heq ↦ ?_
      cases hd
      exact htuples (ht.trans heq.symm)
    rw [hnone, List.nil_append, List.append_nil]
  · have hnone : new₁.filterMap (Event.sentOn t) = [] := by
      refine h₁.sentOn_other hacts₁ fun d hd ↦ ?_
      cases hd
      exact ht
    rw [hnone, List.nil_append, List.append_nil]

end Yields

/-- Connections that match segments with different sources or destinations are different. -/
theorem Conn.Matches.fourTuple_ne {c₁ c₂ : Conn} {src₁ src₂ ip : UInt32}
    {srcPort₁ srcPort₂ dstPort₁ dstPort₂ : UInt16} (h₁ : c₁.Matches src₁ srcPort₁ ip dstPort₁)
    (h₂ : c₂.Matches src₂ srcPort₂ ip dstPort₂)
    (hdiffer : (src₁, srcPort₁, dstPort₁) ≠ (src₂, srcPort₂, dstPort₂)) :
    c₁.fourTuple ≠ c₂.fourTuple := by
  intro heq
  obtain ⟨hip₁, hport₁, -, hlocal₁⟩ := h₁
  obtain ⟨hip₂, hport₂, -, hlocal₂⟩ := h₂
  simp only [fourTuple, Prod.mk.injEq] at heq
  apply hdiffer
  rw [← hip₁, ← hport₁, ← hlocal₁, ← hip₂, ← hport₂, ← hlocal₂, heq.1, heq.2.1, heq.2.2.2]

/-! ## One segment -/

section Receives

variable {ip srcIp dstIp : UInt32} {seg : Segment} {s s' : Server} {p : Nat} {c : Conn}

/-- A segment for a connection changes the connection as its response says, and no other. -/
theorem Server.Receives.found_spec (h : Receives srcIp dstIp seg s s')
    (hs : (s.conns.map Prod.fst).Nodup)
    (hfind : s.find srcIp seg.srcPort dstIp seg.dstPort = some (p, c)) :
    ∃ new o, Yields p (c.respond p seg) (some c) new o ∧
      s'.log = new ++ .lookup srcIp dstIp seg (some (p, c)) :: s.log ∧
      ∀ e, e ∈ s'.conns ↔ if e.1 = p then o = some e.2 else e ∈ s.conns := by
  have hc : (p, c) ∈ s.conns := List.mem_of_find?_eq_some hfind
  cases h with
  | found hfind' hperforms =>
      rw [hfind] at hfind'
      cases hfind'
      obtain ⟨pre, post, hat⟩ := Server.exists_at hs hc
      obtain ⟨new, o, hyields, hlog, hat'⟩ := hperforms.yields (hat.record _)
      refine ⟨new, o, hyields, hlog, fun e ↦ ?_⟩
      obtain ⟨q, d⟩ := e
      by_cases hq : q = p
      · subst hq
        rw [if_pos rfl]
        exact hat'.mem
      · rw [if_neg hq, hat.conns, hat'.conns]
        cases o <;> simp [hq]
  | refused hnone | opened hnone | reset hnone =>
      rw [hfind] at hnone
      cases hnone

/-- A segment leaves the connections that it does not belong to. -/
theorem Server.Receives.others (h : Receives srcIp dstIp seg s s')
    (hs : (s.conns.map Prod.fst).Nodup) {e : Nat × Conn} (he : e ∈ s.conns)
    (hother : ¬ e.2.Matches srcIp seg.srcPort dstIp seg.dstPort) : e ∈ s'.conns := by
  cases h with
  | @found _ p c hfind hperforms =>
      have hc : (p, c) ∈ s.conns := List.mem_of_find?_eq_some hfind
      obtain ⟨new, o, -, -, hconns⟩ := Receives.found_spec (.found hfind hperforms) hs hfind
      have hne : e.1 ≠ p := by
        intro heq
        have hsame : e = (p, c) := List.inj_on_of_nodup_map hs he hc heq
        rw [hsame] at hother
        exact hother (by simpa using List.find?_some hfind)
      rw [hconns, if_neg hne]
      exact he
  | refused | reset => exact he
  | @opened _ p _ _ hfresh hperforms =>
      obtain ⟨new, o, -, -, hat⟩ := hperforms.yields (Server.at_front hfresh _ _)
      rw [hat.conns]
      exact List.mem_append_right _ (List.mem_append_right _ he)

end Receives

/-! ## Two segments -/

/-- The bytes from `srcIp` are the valid segment `seg` for the address `ip`. -/
structure Segment.Arrives (seg : Segment) (srcIp ip : UInt32) (bytes : List UInt8) : Prop where
  parses : Segment.parse bytes = some seg
  valid : tcpValidateChecksum srcIp ip bytes = true
  length : bytes.length < 2 ^ 16

/-- The segments that were sent on the connection with the 4-tuple `t`, most recent first. -/
def Node.sendsOn (σ : Node) (t : UInt32 × UInt16 × UInt32 × UInt16) (σ' : Node) :
    List (List UInt8) :=
  (σ.newEvents σ').filterMap (Event.sentOn t)

/-- The node answered a segment for the connection `c` at `p`, which became `o`, and recorded
`new` after the lookup. -/
structure Node.Responds (σ : Node) (L : Ledger) (p : Nat) (c : Conn) (seg : Segment) (σ' : Node)
    (L' : Ledger) (new : List Event) (o : Option Conn) : Prop where
  holds : L'.Holds σ' []
  ip : σ'.aetherIp = σ.aetherIp
  tabled : (σ'.server L').Tabled σ.aetherIp
  yields : Yields p (c.respond p seg) (some c) new o
  log : ∃ srcIp dstIp, σ'.log = new ++ .lookup srcIp dstIp seg (some (p, c)) :: σ.log
  conns : ∀ e, e ∈ (σ'.server L').conns ↔
    if e.1 = p then o = some e.2 else e ∈ (σ.server L).conns

section Process

variable {σ : Node} {L : Ledger} {seg seg₁ seg₂ : Segment} {srcIp src₁ src₂ : UInt32}
  {bytes bytes₁ bytes₂ : List UInt8} {p p₁ p₂ : Nat} {c c₁ c₂ : Conn}

/-- A segment for a connection is answered. -/
theorem Segment.Arrives.responds (hseg : seg.Arrives srcIp σ.aetherIp bytes) (h : L.Holds σ [])
    (hs : (σ.server L).Tabled σ.aetherIp) (hc : (p, c) ∈ (σ.server L).conns)
    (hmatch : c.Matches srcIp seg.srcPort σ.aetherIp seg.dstPort) :
    ∃ σ' L' new o, σ.input (.segment srcIp bytes) = some σ' ∧
      σ.Responds L p c seg σ' L' new o := by
  have hwritten : L.Holds (σ.written bytes) [] :=
    h.outside σ.netStats σ.rxQueue (writeBytes σ.rxBuffers 0 bytes) σ.arpCache
  have hlength : (UInt16.ofNat bytes.length).toNat = bytes.length :=
    UInt16.toNat_ofNat_of_lt' (by rw [UInt16.size]; exact hseg.length)
  have hhas : (σ.written bytes).HasSegment 0 (UInt16.ofNat bytes.length) srcIp σ.aetherIp seg := by
    unfold Node.HasSegment Node.written
    rw [hlength, read_write_same]
    exact ⟨hseg.parses, hseg.valid⟩
  obtain ⟨⟨⟩, σ', hrun, L', hL', haddresses, hreceives⟩ := receives_segment hwritten hhas
  obtain ⟨new, o, hyields, hlog, hconns⟩ :=
    hreceives.found_spec hs.addresses (hs.find_eq hc hmatch)
  refine ⟨σ', L', new, o, congrArg (Option.map Prod.snd) hrun, hL', haddresses.ip, ?_, hyields,
    ⟨srcIp, σ.aetherIp, hlog⟩, hconns⟩
  exact hreceives.tabled hs

/-- Segments of two connections are answered one after the other. -/
theorem Segment.Arrives.responds_both (hseg₁ : seg₁.Arrives src₁ σ.aetherIp bytes₁)
    (hseg₂ : seg₂.Arrives src₂ σ.aetherIp bytes₂) (h : L.Holds σ [])
    (hs : (σ.server L).Tabled σ.aetherIp) (hne : p₁ ≠ p₂)
    (hc₁ : (p₁, c₁) ∈ (σ.server L).conns) (hc₂ : (p₂, c₂) ∈ (σ.server L).conns)
    (hmatch₁ : c₁.Matches src₁ seg₁.srcPort σ.aetherIp seg₁.dstPort)
    (hmatch₂ : c₂.Matches src₂ seg₂.srcPort σ.aetherIp seg₂.dstPort) :
    ∃ σ₁ σ' conns new₁ new₂ o₁ o₂, σ.input (.segment src₁ bytes₁) = some σ₁ ∧
      σ₁.input (.segment src₂ bytes₂) = some σ' ∧ σ'.connections = some conns ∧
      Yields p₁ (c₁.respond p₁ seg₁) (some c₁) new₁ o₁ ∧
      Yields p₂ (c₂.respond p₂ seg₂) (some c₂) new₂ o₂ ∧
      (∀ t, σ.sendsOn t σ' =
        new₂.filterMap (Event.sentOn t) ++ new₁.filterMap (Event.sentOn t)) ∧
      (.noMemory ∉ σ.newEvents σ' → .noMemory ∉ new₁ ∧ .noMemory ∉ new₂) ∧
      ∀ e, e ∈ conns ↔ if e.1 = p₂ then o₂ = some e.2 else
        if e.1 = p₁ then o₁ = some e.2 else e ∈ (σ.server L).conns := by
  obtain ⟨σ₁, L₁, new₁, o₁, hinput₁, hfirst⟩ := hseg₁.responds h hs hc₁ hmatch₁
  have hc₂' : (p₂, c₂) ∈ (σ₁.server L₁).conns := by
    rw [hfirst.conns, if_neg (Ne.symm hne)]
    exact hc₂
  rw [← hfirst.ip] at hseg₂ hmatch₂
  have hs₁ := hfirst.tabled
  rw [← hfirst.ip] at hs₁
  obtain ⟨σ', L', new₂, o₂, hinput₂, hsecond⟩ :=
    hseg₂.responds hfirst.holds hs₁ hc₂' hmatch₂
  obtain ⟨from₁, to₁, hlog₁⟩ := hfirst.log
  obtain ⟨from₂, to₂, hlog₂⟩ := hsecond.log
  have hlog : σ'.log = (new₂ ++ .lookup from₂ to₂ seg₂ (some (p₂, c₂)) ::
      (new₁ ++ [.lookup from₁ to₁ seg₁ (some (p₁, c₁))])) ++ σ.log := by
    rw [hlog₂, hlog₁]
    simp
  have hnew := Node.newEvents_eq hlog
  refine ⟨σ₁, σ', _, new₁, new₂, o₁, o₂, hinput₁, hinput₂, hsecond.holds.connections_eq,
    hfirst.yields, hsecond.yields, fun t ↦ ?_, fun hmemory ↦ ?_, fun e ↦ ?_⟩
  · rw [Node.sendsOn, hnew, List.filterMap_append, List.filterMap_cons_none rfl,
      List.filterMap_append, List.filterMap_cons_none rfl, List.filterMap_nil, List.append_nil]
  · rw [hnew] at hmemory
    refine ⟨fun hmem ↦ hmemory ?_, fun hmem ↦ hmemory (List.mem_append_left _ hmem)⟩
    exact List.mem_append_right _ (List.mem_cons_of_mem _ (List.mem_append_left _ hmem))
  · rw [hsecond.conns, hfirst.conns]

end Process

/-- In every reachable state a segment leaves every TCB with another 4-tuple listed and as it is.
And two segments of two connections, when there is memory, make the same TCBs and the same
segments on each connection in either order. -/
theorem connections_commute (c : Setup) (σ : Node) (h : c.Reaches σ) (conns : List (Nat × Conn))
    (hconns : σ.connections = some conns) :
    (∀ segment len srcIp dstIp, ∃ σ' conns',
      (tcpInputProcess segment len srcIp dstIp).run σ = some ((), σ') ∧
      σ'.connections = some conns' ∧
      ∀ e ∈ conns, (∀ seg, σ.HasSegment segment len srcIp dstIp seg →
        ¬ e.2.Matches srcIp seg.srcPort dstIp seg.dstPort) → e ∈ conns') ∧
    ∀ (src₁ src₂ : UInt32) (bytes₁ bytes₂ : List UInt8) (seg₁ seg₂ : Segment),
      seg₁.Arrives src₁ σ.aetherIp bytes₁ → seg₂.Arrives src₂ σ.aetherIp bytes₂ →
      (∃ e ∈ conns, e.2.Matches src₁ seg₁.srcPort σ.aetherIp seg₁.dstPort) →
      (∃ e ∈ conns, e.2.Matches src₂ seg₂.srcPort σ.aetherIp seg₂.dstPort) →
      (src₁, seg₁.srcPort, seg₁.dstPort) ≠ (src₂, seg₂.srcPort, seg₂.dstPort) →
      ∃ σ₁ σ₁₂ σ₂ σ₂₁ conns₁₂ conns₂₁,
        σ.input (.segment src₁ bytes₁) = some σ₁ ∧
        σ₁.input (.segment src₂ bytes₂) = some σ₁₂ ∧ σ₁₂.connections = some conns₁₂ ∧
        σ.input (.segment src₂ bytes₂) = some σ₂ ∧
        σ₂.input (.segment src₁ bytes₁) = some σ₂₁ ∧ σ₂₁.connections = some conns₂₁ ∧
        (.noMemory ∉ σ.newEvents σ₁₂ → .noMemory ∉ σ.newEvents σ₂₁ →
          (∀ e, e ∈ conns₁₂ ↔ e ∈ conns₂₁) ∧ ∀ t, σ.sendsOn t σ₁₂ = σ.sendsOn t σ₂₁) := by
  obtain ⟨L, hs⟩ := h.sound
  rw [hs.holds.connections_eq, Option.some.injEq] at hconns
  subst hconns
  have htabled : (σ.server L).Tabled σ.aetherIp := hs.ip ▸ hs.tabled
  refine ⟨fun segment len srcIp dstIp ↦ ?_, fun src₁ src₂ bytes₁ bytes₂ seg₁ seg₂ hseg₁ hseg₂ ↦ ?_⟩
  · obtain ⟨⟨⟩, σ', hrun, L', hL', -, hcase⟩ :=
      tcpInputProcess_receives hs.holds segment len srcIp dstIp
    refine ⟨σ', _, hrun, hL'.connections_eq, fun e he hother ↦ ?_⟩
    rcases hcase with hsame | ⟨seg, hseg, hreceives⟩
    · rw [hsame]
      exact he
    · exact hreceives.others htabled.addresses he (hother seg hseg)
  · rintro ⟨⟨p₁, c₁⟩, hc₁, hmatch₁⟩ ⟨⟨p₂, c₂⟩, hc₂, hmatch₂⟩ hdiffer
    have htuples := hmatch₁.fourTuple_ne hmatch₂ hdiffer
    -- segments of different connections find different TCBs
    have hne : p₁ ≠ p₂ := by
      intro heq
      subst heq
      exact htuples (congrArg Conn.fourTuple (htabled.unique hc₁ hc₂))
    obtain ⟨σ₁, σ₁₂, conns₁₂, new₁, new₂, o₁, o₂, hfirst, hsecond, hconns₁₂, hyields₁, hyields₂,
      hsends₁₂, hmemory₁₂, hmem₁₂⟩ :=
      hseg₁.responds_both hseg₂ hs.holds htabled hne hc₁ hc₂ hmatch₁ hmatch₂
    obtain ⟨σ₂, σ₂₁, conns₂₁, new₂', new₁', o₂', o₁', hfirst', hsecond', hconns₂₁, hyields₂',
      hyields₁', hsends₂₁, hmemory₂₁, hmem₂₁⟩ :=
      hseg₂.responds_both hseg₁ hs.holds htabled hne.symm hc₂ hc₁ hmatch₂ hmatch₁
    refine ⟨σ₁, σ₁₂, σ₂, σ₂₁, conns₁₂, conns₂₁, hfirst, hsecond, hconns₁₂, hfirst', hsecond',
      hconns₂₁, fun hall hall' ↦ ?_⟩
    obtain ⟨hmemory₁, hmemory₂⟩ := hmemory₁₂ hall
    obtain ⟨hmemory₂', hmemory₁'⟩ := hmemory₂₁ hall'
    -- with memory to spare each of them does the same in either order
    obtain ⟨rfl, hsent₁⟩ := hyields₁.deterministic hyields₁' hmemory₁ hmemory₁'
    obtain ⟨rfl, hsent₂⟩ := hyields₂.deterministic hyields₂' hmemory₂ hmemory₂'
    refine ⟨fun e ↦ ?_, fun t ↦ ?_⟩
    · rw [hmem₁₂, hmem₂₁]
      by_cases he₁ : e.1 = p₁
      · rw [if_pos he₁, if_pos he₁, if_neg fun he₂ ↦ hne (he₁.symm.trans he₂)]
      · rw [if_neg he₁, if_neg he₁]
    · rw [hsends₁₂, hsends₂₁, hsent₁, hsent₂]
      exact hyields₁'.sentOn_comm hyields₂' (c₁.tame_respond p₁ seg₁) (c₂.tame_respond p₂ seg₂)
        htuples t

/-- What a connection sent arrives at its peer. -/
theorem Segment.arrives_tcpSegment (c : Conn) (flags : UInt8) (payload : List UInt8)
    (hlen : payload.length ≤ 65515) :
    Segment.Arrives ⟨c.localPort, c.remotePort, c.sndNxt, c.rcvNxt, flags, payload⟩ c.localIp
      c.remoteIp (tcpSegment c flags payload) :=
  ⟨Segment.parse_tcpSegment c flags payload, tcpValidateChecksum_tcpSegment c flags payload hlen,
    by rw [length_tcpSegment]; omega⟩

/-- A FIN on one of two connections and the end of the handshake of the other commute. -/
theorem connections_commute_fin : ∃ σ σ₁₂ σ₂₁ conns₁₂ conns₂₁, Setup.sample.Reaches σ ∧
    σ₁₂.connections = some conns₁₂ ∧ σ₂₁.connections = some conns₂₁ ∧ conns₁₂.length = 2 ∧
    (∀ e, e ∈ conns₁₂ ↔ e ∈ conns₂₁) ∧ ∀ t, σ.sendsOn t σ₁₂ = σ.sendsOn t σ₂₁ := by
  let peer₁ : Conn := .samplePeer 101 7001
  let peer₂ : Conn := { Conn.samplePeer 301 8001 with localPort := 5556 }
  obtain ⟨σ, -, hreaches, hσ⟩ := Setup.exec_any .sample
    [.fromPeer 100 0 tcpFlagSyn [],
      .segment 0x0A000202
        (tcpSegment { Conn.samplePeer 300 0 with localPort := 5556 } tcpFlagSyn []),
      .fromPeer 101 7001 tcpFlagAck []]
    (fun σ ↦ decide (σ.aetherIp = 0x0A00020F) && σ.connections.any (fun conns ↦
        conns.any (fun e ↦ decide (e.2.Matches 0x0A000202 5555 0x0A00020F 80)) &&
          conns.any fun e ↦ decide (e.2.Matches 0x0A000202 5556 0x0A00020F 80)) &&
      ((σ.input (.segment 0x0A000202 (tcpSegment (.samplePeer 101 7001)
          (tcpFlagFin ||| tcpFlagAck) []))).any fun σ₁ : Node ↦
        (σ₁.input (.segment 0x0A000202 (tcpSegment
            { Conn.samplePeer 301 8001 with localPort := 5556 } tcpFlagAck []))).any
          fun σ₁₂ : Node ↦ decide (Event.noMemory ∉ σ.newEvents σ₁₂) &&
            σ₁₂.connections.any fun conns ↦ decide (conns.length = 2)) &&
      (σ.input (.segment 0x0A000202 (tcpSegment
          { Conn.samplePeer 301 8001 with localPort := 5556 } tcpFlagAck []))).any
        fun σ₂ : Node ↦ (σ₂.input (.segment 0x0A000202 (tcpSegment (.samplePeer 101 7001)
            (tcpFlagFin ||| tcpFlagAck) []))).any
          fun σ₂₁ : Node ↦ decide (Event.noMemory ∉ σ.newEvents σ₂₁))
    (by decide +kernel)
  simp only [Bool.and_eq_true, Option.any_eq_true, List.any_eq_true, decide_eq_true_eq] at hσ
  obtain ⟨⟨⟨hip, conns, hconns, hmatch₁, hmatch₂⟩, σ₁, h₁, σ₁₂, h₁₂, hmemory₁₂, conns', hconns',
    hlength⟩, σ₂, h₂, σ₂₁, h₂₁, hmemory₂₁⟩ := hσ
  have harrives₁ : Segment.Arrives ⟨5555, 80, 101, 7001, tcpFlagFin ||| tcpFlagAck, []⟩ 0x0A000202
      σ.aetherIp (tcpSegment peer₁ (tcpFlagFin ||| tcpFlagAck) []) := by
    rw [hip]
    exact Segment.arrives_tcpSegment peer₁ (tcpFlagFin ||| tcpFlagAck) [] (Nat.zero_le _)
  have harrives₂ : Segment.Arrives ⟨5556, 80, 301, 8001, tcpFlagAck, []⟩ 0x0A000202
      σ.aetherIp (tcpSegment peer₂ tcpFlagAck []) := by
    rw [hip]
    exact Segment.arrives_tcpSegment peer₂ tcpFlagAck [] (Nat.zero_le _)
  rw [← hip] at hmatch₁ hmatch₂
  have hcommute := (connections_commute .sample σ hreaches conns hconns).2 0x0A000202 0x0A000202
    _ _ _ _ harrives₁ harrives₂ hmatch₁ hmatch₂ (by decide)
  obtain ⟨_, _, _, _, conns₁₂, conns₂₁, h₁', h₁₂', hconns₁₂, h₂', h₂₁', hconns₂₁, hall⟩ := hcommute
  obtain rfl := Option.some.inj (h₁.symm.trans h₁')
  obtain rfl := Option.some.inj (h₁₂.symm.trans h₁₂')
  obtain rfl := Option.some.inj (h₂.symm.trans h₂')
  obtain rfl := Option.some.inj (h₂₁.symm.trans h₂₁')
  obtain rfl := Option.some.inj (hconns'.symm.trans hconns₁₂)
  obtain ⟨hmem, hsends⟩ := hall hmemory₁₂ hmemory₂₁
  exact ⟨σ, σ₁₂, σ₂₁, conns', conns₂₁, hreaches, hconns₁₂, hconns₂₁, hlength, hmem, hsends⟩

end Aether.Ethernet
