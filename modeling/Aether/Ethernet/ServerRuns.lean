import Aether.Ethernet.Server
import Mathlib.Data.List.Nodup

/-!
# Runs of the server

What acts can change, and the invariant of all runs of a server: connections have distinct
addresses and distinct 4-tuples, they belong to port 80 of the server's own address, and between
two segments they are in one of three states.
-/

namespace Aether.Ethernet

open Common

/-! ## What acts leave alone -/

/-- The 4-tuple that `tcp_find_tcb` compares. -/
def Conn.fourTuple (c : Conn) : UInt32 × UInt16 × UInt32 × UInt16 :=
  (c.remoteIp, c.remotePort, c.localIp, c.localPort)

/-- The addresses of the connections with their 4-tuples. -/
def Server.tuples (s : Server) : List (Nat × UInt32 × UInt16 × UInt32 × UInt16) :=
  s.conns.map fun e ↦ (e.1, e.2.fourTuple)

/-- The act changes neither a 4-tuple nor, by assignment, a send sequence number. -/
def Act.Tame : Act → Prop
  | .update f => ∀ c, (f c).fourTuple = c.fourTuple ∧ (f c).sndNxt = c.sndNxt
  | .note e => ∃ p payload, e = .dispatched p payload
  | .send _ payload => payload.length ≤ 65515
  | .remove => True

/-- A list of tame acts. -/
def Tame (acts : List Act) : Prop := ∀ a ∈ acts, a.Tame

@[simp] theorem tame_nil : Tame [] := fun _ h ↦ nomatch h

@[simp] theorem tame_cons {a : Act} {acts : List Act} :
    Tame (a :: acts) ↔ a.Tame ∧ Tame acts :=
  List.forall_mem_cons

@[simp] theorem tame_append {acts acts' : List Act} :
    Tame (acts ++ acts') ↔ Tame acts ∧ Tame acts' :=
  List.forall_mem_append

/-- An assignment to other fields is tame. -/
theorem tame_update {f : Conn → Conn} (htuple : ∀ c, (f c).fourTuple = c.fourTuple)
    (hsnd : ∀ c, (f c).sndNxt = c.sndNxt) : (Act.update f).Tame :=
  fun c ↦ ⟨htuple c, hsnd c⟩

theorem tame_ackActs : Tame ackActs := by simp [ackActs, Act.Tame]

theorem tame_closeActs : Tame closeActs := by simp [closeActs, Act.Tame, Conn.fourTuple]

theorem tame_dispatchActs (p : Nat) (payload : List UInt8) : Tame (dispatchActs p payload) := by
  rw [dispatchActs, tame_cons, tame_cons]
  exact ⟨⟨p, payload, rfl⟩, length_httpResponse, tame_closeActs⟩

theorem tame_acceptActs (p : Nat) (seg : Segment) : Tame (acceptActs p seg) := by
  rw [acceptActs, tame_cons, tame_append]
  exact ⟨tame_update (fun _ ↦ rfl) fun _ ↦ rfl, tame_dispatchActs p seg.payload, tame_ackActs⟩

theorem tame_finActs (seg : Segment) : Tame (finActs seg) := by
  rw [finActs, tame_cons, tame_append, tame_cons]
  exact ⟨tame_update (fun _ ↦ rfl) fun _ ↦ rfl, tame_ackActs,
    tame_update (fun _ ↦ rfl) fun _ ↦ rfl, tame_closeActs⟩

/-- The answers to a segment are tame. -/
theorem Conn.tame_respond (p : Nat) (c : Conn) (seg : Segment) : Tame (c.respond p seg) := by
  unfold respond
  cases c.state with
  | synReceived =>
      dsimp only
      split
      · simp [Act.Tame, fourTuple]
      · exact tame_nil
  | established =>
      refine tame_append.mpr ⟨?_, ?_⟩
      · split
        · exact tame_acceptActs p seg
        · exact tame_nil
      · split
        · exact tame_finActs seg
        · exact tame_nil
  | lastAck =>
      dsimp only
      split
      · simp [Act.Tame, fourTuple]
      · exact tame_nil
  | closed | listen | closeWait | timeWait =>
      dsimp only
      split
      · simp [Act.Tame]
      · exact tame_nil

/-! ## Frame rules -/

/-- An act leaves the other connections alone. -/
theorem Does.other {p : Nat} {a : Act} {s s' : Server} (h : Does p a s s') {q : Nat} {d : Conn}
    (hd : (q, d) ∈ s'.conns) (hq : q ≠ p) : (q, d) ∈ s.conns := by
  have hupdate : ∀ {s : Server} {f : Conn → Conn}, (q, d) ∈ (s.update p f).conns →
      (q, d) ∈ s.conns := by
    intro s f hd
    obtain ⟨e, he, heq⟩ := List.mem_map.mp hd
    split at heq
    · rename_i hep
      cases heq
      exact absurd hep hq
    · exact heq ▸ he
  cases h with
  | update f => exact hupdate hd
  | note e => exact hd
  | sent hmem he => exact hupdate hd
  | dropped => exact hd
  | remove => exact List.mem_of_mem_filter hd

/-- A connection found after an act stems from one before it. -/
theorem Does.conn_back {p : Nat} {a : Act} {s s' : Server} (h : Does p a s s') {d : Conn}
    (hd : (p, d) ∈ s'.conns) : ∃ c, (p, c) ∈ s.conns ∧ a.Changes c d := by
  have hupdate : ∀ {s : Server} {f : Conn → Conn}, (p, d) ∈ (s.update p f).conns →
      ∃ c, (p, c) ∈ s.conns ∧ d = f c := by
    intro s f hd
    obtain ⟨⟨q, c⟩, he, heq⟩ := List.mem_map.mp hd
    split at heq
    · rename_i hqp
      cases heq
      exact ⟨c, hqp ▸ he, rfl⟩
    · rename_i hqp
      cases heq
      exact absurd rfl hqp
  cases h with
  | update f => exact hupdate hd
  | note e => exact ⟨d, hd, rfl⟩
  | sent hmem he =>
      obtain ⟨c, hc, rfl⟩ := hupdate hd
      exact ⟨c, hc, .inr rfl⟩
  | dropped => exact ⟨d, hd, .inl rfl⟩
  | remove => simp [Server.remove, Server.record] at hd

/-- A tame act keeps the 4-tuples of the connections it keeps. -/
theorem Does.tuples {p : Nat} {a : Act} {s s' : Server} (h : Does p a s s') (ha : a.Tame) :
    s'.tuples.Sublist s.tuples := by
  have hupdate : ∀ {s : Server} {f : Conn → Conn}, (∀ c, (f c).fourTuple = c.fourTuple) →
      (s.update p f).tuples = s.tuples := by
    intro s f hf
    simp only [Server.tuples, Server.update, List.map_map]
    refine List.map_congr_left fun e _ ↦ ?_
    simp only [Function.comp]
    split
    · rw [hf]
    · rfl
  cases h with
  | update f =>
      rw [hupdate fun c ↦ (ha c).1]
  | note e => exact .refl _
  | sent hmem he =>
      rw [hupdate (f := Conn.advance _ _) fun c ↦ rfl]
      exact .refl _
  | dropped => exact .refl _
  | remove => exact List.filter_sublist.map _

/-- Tame acts leave the other connections alone and keep the 4-tuples. -/
theorem Performs.frame {p : Nat} {acts : List Act} {s s' : Server} (h : Performs p acts s s')
    (hacts : Tame acts) :
    (∀ q d, (q, d) ∈ s'.conns → q ≠ p → (q, d) ∈ s.conns) ∧ s'.tuples.Sublist s.tuples := by
  induction h with
  | nil => exact ⟨fun _ _ hd _ ↦ hd, .refl _⟩
  | cons hdoes _ ih =>
      obtain ⟨ha, hrest⟩ := tame_cons.mp hacts
      obtain ⟨hother, htuples⟩ := ih hrest
      exact ⟨fun q d hd hq ↦ hdoes.other (hother q d hd hq) hq, htuples.trans (hdoes.tuples ha)⟩

/-- The record only grows. -/
theorem Does.log {p : Nat} {a : Act} {s s' : Server} (h : Does p a s s') : s.log <:+ s'.log := by
  cases h with
  | update f => exact List.suffix_rfl
  | sent hmem he => exact (List.suffix_cons _ _).trans (List.suffix_cons _ _)
  | note | dropped | remove => exact List.suffix_cons _ _

theorem Performs.log {p : Nat} {acts : List Act} {s s' : Server} (h : Performs p acts s s') :
    s.log <:+ s'.log := by
  induction h with
  | nil => exact List.suffix_rfl
  | cons hdoes _ ih => exact hdoes.log.trans ih

theorem Server.Receives.log {srcIp dstIp : UInt32} {seg : Segment} {s s' : Server}
    (h : Receives srcIp dstIp seg s s') : s.log <:+ s'.log := by
  cases h with
  | found _ hperforms => exact (List.suffix_cons _ _).trans hperforms.log
  | refused => exact (List.suffix_cons _ _).trans (List.suffix_cons _ _)
  | opened _ _ _ hperforms =>
      exact ((List.suffix_cons _ _).trans (List.suffix_cons _ _)).trans hperforms.log
  | reset =>
      exact ((List.suffix_cons _ _).trans (List.suffix_cons _ _)).trans (List.suffix_cons _ _)

/-- Removal is the only outcome of its act. -/
theorem Does.removed {p : Nat} {s s' : Server} (h : Does p .remove s s') :
    s' = (s.remove p).record (.removed p) := by
  cases h with
  | remove => rfl

/-- A segment that belongs to a connection makes the connection answer. -/
theorem Server.Receives.answers {srcIp dstIp : UInt32} {seg : Segment} {s s' : Server} {p : Nat}
    {c : Conn} (h : Receives srcIp dstIp seg s s')
    (hfind : s.find srcIp seg.srcPort dstIp seg.dstPort = some (p, c)) :
    Performs p (c.respond p seg) (s.record (.lookup srcIp dstIp seg (some (p, c)))) s' := by
  cases h with
  | found hfind' hperforms =>
      cases hfind.symm.trans hfind'
      exact hperforms
  | refused hnone | opened hnone | reset hnone => cases hfind.symm.trans hnone

/-! ## What becomes of one connection -/

/-- What acts in sequence can make of a connection. -/
def Evolves : List Act → Conn → Conn → Prop
  | [], c, d => d = c
  | a :: acts, c, d => ∃ c', a.Changes c c' ∧ Evolves acts c' d

theorem Evolves.append {acts acts' : List Act} {c d : Conn} (h : Evolves (acts ++ acts') c d) :
    ∃ c', Evolves acts c c' ∧ Evolves acts' c' d := by
  induction acts generalizing c with
  | nil => exact ⟨c, rfl, h⟩
  | cons a acts ih =>
      obtain ⟨c₁, ha, hrest⟩ := h
      obtain ⟨c₂, hacts, hacts'⟩ := ih hrest
      exact ⟨c₂, ⟨c₁, ha, hacts⟩, hacts'⟩

/-- A connection found after acts evolved from one before them. -/
theorem Performs.conn_back {p : Nat} {acts : List Act} {s s' : Server} (h : Performs p acts s s')
    {d : Conn} (hd : (p, d) ∈ s'.conns) : ∃ c, (p, c) ∈ s.conns ∧ Evolves acts c d := by
  induction h with
  | nil => exact ⟨d, hd, rfl⟩
  | cons hdoes _ ih =>
      obtain ⟨c', hc', hrest⟩ := ih hd
      obtain ⟨c, hc, hchange⟩ := hdoes.conn_back hc'
      exact ⟨c, hc, c', hchange, hrest⟩

/-- The states of a connection between two segments. -/
def TcpState.Settled (state : TcpState) : Prop :=
  state = .synReceived ∨ state = .established ∨ state = .lastAck

/-- Sending does not change the state. -/
theorem Evolves.send {flags : UInt8} {payload : List UInt8} {acts : List Act} {c d : Conn}
    (h : Evolves (.send flags payload :: acts) c d) :
    ∃ c', c'.state = c.state ∧ Evolves acts c' d := by
  obtain ⟨c', rfl | rfl, hrest⟩ := h
  · exact ⟨_, rfl, hrest⟩
  · exact ⟨_, Conn.advance_state flags payload c, hrest⟩

/-- Closing ends in `LAST_ACK`. -/
theorem Evolves.close {c d : Conn} (h : Evolves closeActs c d) : d.state = .lastAck := by
  obtain ⟨_, rfl, hsend⟩ := h
  obtain ⟨c', hstate, rfl⟩ := hsend.send
  exact hstate

/-- Accepting a payload ends in `LAST_ACK`. -/
theorem Evolves.accept {p : Nat} {seg : Segment} {c d : Conn}
    (h : Evolves (acceptActs p seg) c d) : d.state = .lastAck := by
  obtain ⟨_, rfl, hrest⟩ := h
  obtain ⟨c₁, ⟨_, _, hdispatch⟩, hack⟩ := hrest.append
  obtain ⟨_, _, hclose⟩ := hdispatch.send
  obtain ⟨_, hstate, rfl⟩ := hack.send
  rw [hstate, hclose.close]

/-- Handling a FIN ends in `LAST_ACK`. -/
theorem Evolves.fin {seg : Segment} {c d : Conn} (h : Evolves (finActs seg) c d) :
    d.state = .lastAck := by
  obtain ⟨_, _, hrest⟩ := h
  obtain ⟨_, _, _, _, hclose⟩ := hrest.append
  exact hclose.close

/-- A settled connection that answers a segment is settled again. -/
theorem Evolves.respond {p : Nat} {seg : Segment} {c d : Conn} (hc : c.state.Settled)
    (h : Evolves (c.respond p seg) c d) : d.state.Settled := by
  rcases hc with hstate | hstate | hstate
  · simp only [Conn.respond, hstate] at h
    split at h
    · obtain ⟨_, rfl, _, rfl, rfl⟩ := h
      exact .inr (.inl rfl)
    · exact h ▸ .inl hstate
  · simp only [Conn.respond, hstate] at h
    obtain ⟨c', haccept, hfin⟩ := h.append
    have hc' : c'.state.Settled := by
      split at haccept
      · exact .inr (.inr haccept.accept)
      · exact haccept ▸ .inr (.inl hstate)
    split at hfin
    · exact .inr (.inr hfin.fin)
    · exact hfin ▸ hc'
  · simp only [Conn.respond, hstate] at h
    split at h
    · obtain ⟨_, _, _, hremove, _⟩ := h
      cases hremove
    · exact h ▸ .inr (.inr hstate)

/-! ## The invariant -/

/-- The table of a server with address `ip` is in order. -/
structure Server.Tabled (ip : UInt32) (s : Server) : Prop where
  addresses : (s.conns.map Prod.fst).Nodup
  tuples : (s.conns.map fun e ↦ e.2.fourTuple).Nodup
  localIp : ∀ e ∈ s.conns, e.2.localIp = ip
  localPort : ∀ e ∈ s.conns, e.2.localPort = 80
  settled : ∀ e ∈ s.conns, e.2.state.Settled

namespace Server

variable {ip srcIp : UInt32} {seg : Segment} {s s' : Server}

/-- Dropping connections and changing settled ones keeps the table in order. -/
theorem Tabled.of_sublist (hs : s.Tabled ip) (hsub : s'.tuples.Sublist s.tuples)
    (hsettled : ∀ e ∈ s'.conns, e.2.state.Settled) : s'.Tabled ip := by
  have hold : ∀ e ∈ s'.conns, ∃ e' ∈ s.conns, e'.2.fourTuple = e.2.fourTuple := fun e he ↦ by
    obtain ⟨e', he', heq⟩ := List.mem_map.mp (hsub.subset (List.mem_map_of_mem he))
    exact ⟨e', he', congrArg Prod.snd heq⟩
  refine ⟨?_, ?_, fun e he ↦ ?_, fun e he ↦ ?_, hsettled⟩
  · have := (hsub.map Prod.fst).nodup
    simp only [Server.tuples, List.map_map] at this
    exact this hs.addresses
  · have := (hsub.map Prod.snd).nodup
    simp only [Server.tuples, List.map_map] at this
    exact this hs.tuples
  · obtain ⟨e', he', heq⟩ := hold e he
    simp only [Conn.fourTuple, Prod.mk.injEq] at heq
    rw [← heq.2.2.1, hs.localIp e' he']
  · obtain ⟨e', he', heq⟩ := hold e he
    simp only [Conn.fourTuple, Prod.mk.injEq] at heq
    rw [← heq.2.2.2, hs.localPort e' he']

/-- The connection at an address is unique. -/
theorem Tabled.unique (hs : s.Tabled ip) {p : Nat} {c d : Conn} (hc : (p, c) ∈ s.conns)
    (hd : (p, d) ∈ s.conns) : c = d := by
  have := List.inj_on_of_nodup_map hs.addresses hc hd rfl
  simpa using this

/-- Tame acts on a connection that they leave settled keep the table in order. -/
theorem Tabled.performs (hs : s.Tabled ip) {p : Nat} {acts : List Act}
    (hperforms : Performs p acts s s') (hacts : Tame acts)
    (hsettled : ∀ c d, (p, c) ∈ s.conns → Evolves acts c d → d.state.Settled) :
    s'.Tabled ip := by
  obtain ⟨hother, htuples⟩ := hperforms.frame hacts
  refine hs.of_sublist htuples ?_
  rintro ⟨q, d⟩ hd
  by_cases hq : q = p
  · subst hq
    obtain ⟨c, hc, hevolves⟩ := hperforms.conn_back hd
    exact hsettled c d hc hevolves
  · exact hs.settled (q, d) (hother q d hd hq)

/-- A segment keeps the table in order. -/
theorem Receives.tabled (h : Receives srcIp ip seg s s') (hs : s.Tabled ip) : s'.Tabled ip := by
  cases h with
  | @found _ p c hfind hperforms =>
      have hmem : (p, c) ∈ s.conns := List.mem_of_find?_eq_some hfind
      refine Tabled.performs (s := s.record _) ⟨hs.addresses, hs.tuples, hs.localIp, hs.localPort,
        hs.settled⟩ hperforms (c.tame_respond p seg) fun c' d hc' hevolves ↦ ?_
      obtain rfl := hs.unique hmem hc'
      exact hevolves.respond (hs.settled _ hmem)
  | refused => exact ⟨hs.addresses, hs.tuples, hs.localIp, hs.localPort, hs.settled⟩
  | @opened _ p hfind hopens hfresh hperforms =>
      have hnew : ∀ e ∈ s.conns, e.2.fourTuple ≠ (seg.opened srcIp ip s.isn).fourTuple := by
        intro e he heq
        have hno := List.find?_eq_none.mp hfind e he
        simp only [Conn.fourTuple, Segment.opened, Prod.mk.injEq] at heq
        simp only [decide_eq_true_eq] at hno
        exact hno heq
      have hset : Tabled ip ⟨(p, seg.opened srcIp ip s.isn) :: s.conns, s.isn + 1000,
          .passiveOpen p s.isn seg.seq :: .lookup srcIp ip seg none :: s.log⟩ := by
        refine ⟨List.nodup_cons.mpr ⟨hfresh, hs.addresses⟩, List.nodup_cons.mpr ⟨?_, hs.tuples⟩,
          List.forall_mem_cons.mpr ⟨rfl, hs.localIp⟩,
          List.forall_mem_cons.mpr ⟨hopens.2, hs.localPort⟩,
          List.forall_mem_cons.mpr ⟨.inl rfl, hs.settled⟩⟩
        intro hmem
        obtain ⟨e, he, heq⟩ := List.mem_map.mp hmem
        exact hnew e he heq
      refine hset.performs hperforms (by simp [Act.Tame]) fun c d hc hevolves ↦ ?_
      obtain ⟨c', hstate, rfl⟩ := hevolves.send
      rw [hstate]
      rcases List.mem_cons.mp hc with hc | hc
      · cases hc
        exact .inl rfl
      · exact hs.settled _ hc
  | reset => exact ⟨hs.addresses, hs.tuples, hs.localIp, hs.localPort, hs.settled⟩

/-- A run keeps the table in order. -/
theorem Run.tabled (h : Run ip s s') (hs : s.Tabled ip) : s'.Tabled ip := by
  induction h with
  | refl => exact hs
  | tail _ hstep ih =>
      cases hstep with
      | receive _ hreceives => exact hreceives.tabled ih
      | record => exact ⟨ih.addresses, ih.tuples, ih.localIp, ih.localPort, ih.settled⟩

end Server

end Aether.Ethernet
