import Aether.Ethernet.Connections
import Aether.Ethernet.Segments

/-!
# What is emitted

The events that acts record, and the segments among them that go to the IP layer. A connection
answers a segment only if it is established, and the segment carries a FIN or the payload that the
connection expects.
-/

namespace Aether.Ethernet

open ByteMemory Kernel Common Program

/-- A segment on its way between two hosts. -/
structure Message where
  srcIp : UInt32
  dstIp : UInt32
  bytes : List UInt8
  deriving DecidableEq

/-- The segment that an event hands to `ipv4_send`. -/
def Event.message : Event → Option Message
  | .handed _ c bytes => some ⟨c.localIp, c.remoteIp, bytes⟩
  | .reset srcIp dstIp bytes => some ⟨srcIp, dstIp, bytes⟩
  | _ => none

/-- A transport event hands nothing over. -/
theorem Event.IsTransport.message {e : Event} (he : e.IsTransport) : e.message = none := by
  cases e with
  | handed | reset => cases he
  | _ => rfl

/-- The part of a record that is not in an earlier one. -/
def newer (log log' : List Event) : List Event := log'.take (log'.length - log.length)

@[simp] theorem newer_append (new log : List Event) : newer log (new ++ log) = new := by
  simp [newer]

/-- The events that a node records on its way from one state to another, most recent first. -/
def Node.newEvents (σ σ' : Node) : List Event := newer σ.log σ'.log

/-- What was put in front of the record is new. -/
theorem Node.newEvents_eq {σ σ' : Node} {new : List Event} (h : σ'.log = new ++ σ.log) :
    σ.newEvents σ' = new := by
  rw [newEvents, h, newer_append]

/-- The segments that it hands to `ipv4_send`, most recent first. -/
def Node.emits (σ σ' : Node) : List Message := (σ.newEvents σ').filterMap Event.message

/-! ## One place of the table -/

/-- The table has `o` at the address `p`, between other connections. -/
structure Server.At (s : Server) (p : Nat) (pre : List (Nat × Conn)) (o : Option Conn)
    (post : List (Nat × Conn)) : Prop where
  conns : s.conns = pre ++ (o.toList.map (Prod.mk p) ++ post)
  before : p ∉ pre.map Prod.fst
  after : p ∉ post.map Prod.fst

section Place

variable {s : Server} {p : Nat} {pre post : List (Nat × Conn)} {o : Option Conn} {c : Conn}

/-- A connection has a place. -/
theorem Server.exists_at (hs : (s.conns.map Prod.fst).Nodup) (hc : (p, c) ∈ s.conns) :
    ∃ pre post, s.At p pre (some c) post := by
  obtain ⟨pre, post, hconns⟩ := List.append_of_mem hc
  rw [hconns, List.map_append, List.map_cons, List.nodup_middle, List.nodup_cons,
    List.mem_append] at hs
  exact ⟨pre, post, hconns, fun hmem ↦ hs.1 (.inl hmem), fun hmem ↦ hs.1 (.inr hmem)⟩

/-- A new connection is in front. -/
theorem Server.at_front {conns : List (Nat × Conn)} (hp : p ∉ conns.map Prod.fst) (isn : UInt32)
    (log : List Event) : Server.At ⟨(p, c) :: conns, isn, log⟩ p [] (some c) conns :=
  ⟨rfl, by simp, hp⟩

/-- The others are at other addresses. -/
theorem ne_of_not_mem {conns : List (Nat × Conn)} (hp : p ∉ conns.map Prod.fst)
    {e : Nat × Conn} (he : e ∈ conns) : e.1 ≠ p :=
  fun heq ↦ hp (heq ▸ List.mem_map_of_mem he)

/-- Recording an event leaves the table alone. -/
theorem Server.At.record (h : s.At p pre o post) (e : Event) : (s.record e).At p pre o post :=
  ⟨h.conns, h.before, h.after⟩

/-- Changing the connection at a place. -/
theorem Server.At.update (h : s.At p pre o post) (f : Conn → Conn) :
    (s.update p f).At p pre (o.map f) post := by
  have hothers : ∀ conns : List (Nat × Conn), p ∉ conns.map Prod.fst →
      (conns.map fun e ↦ if e.1 = p then (e.1, f e.2) else e) = conns := by
    intro conns hp
    refine (List.map_congr_left (g := id) fun e he ↦ if_neg ?_).trans (List.map_id _)
    exact ne_of_not_mem hp he
  refine ⟨?_, h.before, h.after⟩
  rw [Server.update, h.conns, List.map_append, List.map_append, hothers pre h.before,
    hothers post h.after]
  cases o <;> simp

/-- Dropping the connection at a place. -/
theorem Server.At.remove (h : s.At p pre o post) : (s.remove p).At p pre none post := by
  have hothers : ∀ conns : List (Nat × Conn), p ∉ conns.map Prod.fst →
      (conns.filter fun e ↦ e.1 ≠ p) = conns := by
    intro conns hp
    refine List.filter_eq_self.mpr fun e he ↦ ?_
    simpa using ne_of_not_mem hp he
  refine ⟨?_, h.before, h.after⟩
  rw [Server.remove, h.conns, List.filter_append, List.filter_append, hothers pre h.before,
    hothers post h.after]
  cases o <;> simp

/-- The connection at a place is the only one with its address. -/
theorem Server.At.mem (h : s.At p pre o post) : (p, c) ∈ s.conns ↔ o = some c := by
  have hbefore : (p, c) ∉ pre := fun hmem ↦ ne_of_not_mem h.before hmem rfl
  have hafter : (p, c) ∉ post := fun hmem ↦ ne_of_not_mem h.after hmem rfl
  rw [h.conns]
  cases o <;> simp [hbefore, hafter, eq_comm]

end Place

/-! ## What acts yield -/

/-- What an act can record and make of the connection at `p`, most recent event first. -/
def Act.Yields (p : Nat) : Act → Option Conn → List Event → Option Conn → Prop
  | .update f, o, new, o' => new = [] ∧ o' = o.map f
  | .note e, o, new, o' => new = [e] ∧ o' = o
  | .send flags payload, o, new, o' =>
      new = [.noMemory] ∧ o' = o ∨
        ∃ c e, o = some c ∧ e.IsTransport ∧
          new = [e, .handed p c (tcpSegment c flags payload)] ∧ o' = some (c.advance flags payload)
  | .remove, _, new, o' => new = [.removed p] ∧ o' = none

/-- What acts in sequence can record and make of the connection at `p`. -/
def Yields (p : Nat) : List Act → Option Conn → List Event → Option Conn → Prop
  | [], o, new, o' => new = [] ∧ o' = o
  | a :: acts, o, new, o' => ∃ o₁ first rest,
      a.Yields p o first o₁ ∧ Yields p acts o₁ rest o' ∧ new = rest ++ first

section Yields

variable {p : Nat} {acts : List Act} {s s' : Server} {pre post : List (Nat × Conn)}
  {o o' : Option Conn} {new : List Event} {e : Event}

theorem Does.yields {a : Act} (h : Does p a s s') (hat : s.At p pre o post) :
    ∃ new o', a.Yields p o new o' ∧ s'.log = new ++ s.log ∧ s'.At p pre o' post := by
  cases h with
  | update f => exact ⟨[], _, ⟨rfl, rfl⟩, rfl, hat.update f⟩
  | note e => exact ⟨[e], o, ⟨rfl, rfl⟩, rfl, hat.record e⟩
  | @sent flags payload _ c e hc he =>
      rw [hat.mem] at hc
      refine ⟨[e, .handed p c (tcpSegment c flags payload)], some (c.advance flags payload),
        .inr ⟨c, e, hc, he, rfl, rfl⟩, rfl, ?_⟩
      have hadvanced := ((hat.record (.handed p c (tcpSegment c flags payload))).record e).update
        (Conn.advance flags payload)
      rwa [hc, Option.map_some] at hadvanced
  | dropped => exact ⟨[.noMemory], o, .inl ⟨rfl, rfl⟩, rfl, hat.record .noMemory⟩
  | remove => exact ⟨_, none, ⟨rfl, rfl⟩, rfl, hat.remove.record (.removed p)⟩

/-- Acts change the table at their place only. -/
theorem Performs.yields (h : Performs p acts s s') (hat : s.At p pre o post) :
    ∃ new o', Yields p acts o new o' ∧ s'.log = new ++ s.log ∧ s'.At p pre o' post := by
  induction h generalizing o with
  | nil => exact ⟨[], o, ⟨rfl, rfl⟩, rfl, hat⟩
  | cons hdoes _ ih =>
      obtain ⟨first, o₁, hfirst, hlog, hat₁⟩ := hdoes.yields hat
      obtain ⟨rest, o₂, hrest, hlog', hat₂⟩ := ih hat₁
      exact ⟨rest ++ first, o₂, ⟨o₁, first, rest, hfirst, hrest, rfl⟩,
        by rw [hlog', hlog, List.append_assoc], hat₂⟩

/-- The act sends a segment. -/
def Act.isSend : Act → Bool
  | .send .. => true
  | _ => false

/-- Every event was recorded by one of the acts. -/
theorem Yields.act (h : Yields p acts o new o') (he : e ∈ new) :
    ∃ a ∈ acts, ∃ o₁ part o₂, a.Yields p o₁ part o₂ ∧ e ∈ part := by
  induction acts generalizing o new with
  | nil =>
      rw [h.1] at he
      cases he
  | cons a acts ih =>
      obtain ⟨o₁, first, rest, hfirst, hrest, rfl⟩ := h
      rcases List.mem_append.mp he with he | he
      · obtain ⟨b, hb, hpart⟩ := ih hrest he
        exact ⟨b, List.mem_cons_of_mem a hb, hpart⟩
      · exact ⟨a, List.mem_cons_self, o, first, o₁, hfirst, he⟩

/-- Every act recorded its events. -/
theorem Yields.of_act (h : Yields p acts o new o') {a : Act} (ha : a ∈ acts) :
    ∃ o₁ part o₂, a.Yields p o₁ part o₂ ∧ part ⊆ new := by
  induction acts generalizing o new with
  | nil => cases ha
  | cons b acts ih =>
      obtain ⟨o₁, first, rest, hfirst, hrest, rfl⟩ := h
      rcases List.mem_cons.mp ha with rfl | ha
      · exact ⟨o, first, o₁, hfirst, List.subset_append_right rest first⟩
      · obtain ⟨o₂, part, o₃, hpart, hsub⟩ := ih hrest ha
        exact ⟨o₂, part, o₃, hpart, List.Subset.trans hsub (List.subset_append_left rest first)⟩

/-- Tame acts record segments that they send, the frames' fates, dispatches and removals. -/
theorem Yields.cases (h : Yields p acts o new o') (hacts : Tame acts) (he : e ∈ new) :
    (∃ c flags payload, .send flags payload ∈ acts ∧
        e = .handed p c (tcpSegment c flags payload)) ∨
      e.IsTransport ∨ (∃ q payload, e = .dispatched q payload) ∨ e = .removed p := by
  obtain ⟨a, ha, o₁, part, o₂, hpart, he⟩ := h.act he
  cases a with
  | update f =>
      rw [hpart.1] at he
      cases he
  | note e' =>
      rw [hpart.1, List.mem_singleton] at he
      subst he
      exact .inr (.inr (.inl (hacts _ ha)))
  | send flags payload =>
      rcases hpart with ⟨rfl, -⟩ | ⟨c, e', -, he', rfl, -⟩
      · rw [List.mem_singleton] at he
        subst he
        exact .inr (.inl trivial)
      · rcases List.mem_pair.mp he with rfl | rfl
        · exact .inr (.inl he')
        · exact .inl ⟨c, flags, payload, ha, rfl⟩
  | remove =>
      rw [hpart.1, List.mem_singleton] at he
      exact .inr (.inr (.inr he))

/-- Tame acts that send nothing hand nothing over. -/
theorem Yields.silent (h : Yields p acts o new o') (hacts : Tame acts)
    (hsends : ∀ a ∈ acts, ¬ a.isSend) : new.filterMap Event.message = [] := by
  refine List.filterMap_eq_nil_iff.mpr fun e he ↦ ?_
  rcases h.cases hacts he with ⟨c, flags, payload, hmem, -⟩ | he | ⟨q, payload, rfl⟩ | rfl
  · exact absurd rfl (hsends _ hmem)
  · exact he.message
  · rfl
  · rfl

/-- An act that sends hands a segment over, unless there is no memory for it. -/
theorem Yields.spoken (h : Yields p acts o new o') (hsends : ∃ a ∈ acts, a.isSend)
    (hmemory : .noMemory ∉ new) : new.filterMap Event.message ≠ [] := by
  obtain ⟨a, ha, hsend⟩ := hsends
  obtain ⟨o₁, part, o₂, hpart, hsub⟩ := h.of_act ha
  cases a with
  | send flags payload =>
      rcases hpart with ⟨rfl, -⟩ | ⟨c, e, -, -, rfl, -⟩
      · exact absurd (hsub List.mem_cons_self) hmemory
      · intro hnil
        have hhanded : Event.handed p c (tcpSegment c flags payload) ∈ new := hsub (by simp)
        have hnone := List.filterMap_eq_nil_iff.mp hnil _ hhanded
        cases hnone
  | update | note | remove => cases hsend

end Yields

/-! ## Which segments are answered -/

/-- The segment makes the connection send: an established connection receives a FIN or the payload
it expects. -/
def Conn.Answers (c : Conn) (seg : Segment) : Prop :=
  c.state = .established ∧ (c.Expects seg ∨ seg.Has tcpFlagFin)

instance (c : Conn) (seg : Segment) : Decidable (c.Answers seg) :=
  inferInstanceAs (Decidable (_ ∧ _))

/-- The segment makes the connection end: it acknowledges anything in LAST_ACK. -/
def Conn.Ends (c : Conn) (seg : Segment) : Prop := c.state = .lastAck ∧ seg.Has tcpFlagAck

instance (c : Conn) (seg : Segment) : Decidable (c.Ends seg) :=
  inferInstanceAs (Decidable (_ ∧ _))

section Respond

variable {p : Nat} {c : Conn} {seg : Segment}

/-- A settled connection sends exactly when it answers. -/
theorem Conn.respond_sends (hc : c.state.Settled) :
    (∃ a ∈ c.respond p seg, a.isSend) ↔ c.Answers seg := by
  unfold Answers
  rcases hc with hstate | hstate | hstate
  · simp only [respond, hstate, reduceCtorEq, false_and, iff_false]
    split <;> simp [Act.isSend]
  · simp only [respond, hstate, true_and, List.mem_append, or_and_right, exists_or]
    refine or_congr ?_ ?_
    · by_cases hexpects : c.Expects seg
      · simp [hexpects, acceptActs, ackActs, Act.isSend]
      · simp [hexpects]
    · by_cases hfin : seg.Has tcpFlagFin
      · simp [hfin, finActs, ackActs, Act.isSend]
      · simp [hfin]
  · simp only [respond, hstate, reduceCtorEq, false_and, iff_false]
    split <;> simp [Act.isSend]

/-- A settled connection is removed exactly when it ends. -/
theorem Conn.respond_removes (hc : c.state.Settled) :
    .remove ∈ c.respond p seg ↔ c.Ends seg := by
  unfold Ends
  rcases hc with hstate | hstate | hstate
  · simp only [respond, hstate, reduceCtorEq, false_and, iff_false]
    split <;> simp
  · simp only [respond, hstate, reduceCtorEq, false_and, iff_false, List.mem_append]
    rintro (haccept | hfin)
    · split at haccept
      · simp [acceptActs, dispatchActs, closeActs, ackActs] at haccept
      · cases haccept
    · split at hfin
      · simp [finActs, closeActs, ackActs] at hfin
      · cases hfin
  · simp only [respond, hstate, true_and]
    by_cases hack : seg.Has tcpFlagAck <;> simp [hack]

end Respond

end Aether.Ethernet
