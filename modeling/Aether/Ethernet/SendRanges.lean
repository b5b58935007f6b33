import Aether.Ethernet.SequenceNumbers
import Mathlib.Data.Set.Lattice
import Mathlib.Order.CompletePartialOrder

/-!
# The send ranges of connections

Every connection starts 1000 sequence numbers after the one before it and uses up fewer than that.
The ranges of connections that were set up close enough to each other do not overlap, although the
numbers wrap around.
-/

namespace Aether.Ethernet

open Common Relation

/-! ## Ranges of sequence numbers -/

/-- The sequence numbers from `a` up to and without `b`. -/
def seqRange (a b : UInt32) : Set UInt32 := {x | x - a < b - a}

/-- Ranges of lengths `m` and `n` whose starts are `d` apart do not overlap when the first ends
before the second starts, and the second before the numbers come round to the first. -/
theorem disjoint_seqRange (a : UInt32) {d m n : Nat} (hm : m ≤ d) (hn : d + n ≤ 2 ^ 32) :
    Disjoint (seqRange a (a + UInt32.ofNat m))
      (seqRange (a + UInt32.ofNat d) (a + UInt32.ofNat d + UInt32.ofNat n)) := by
  have hlength : ∀ (b : UInt32) (k : Nat), b + UInt32.ofNat k - b = UInt32.ofNat k := by
    intro b k
    rw [UInt32.add_comm, UInt32.add_sub_cancel]
  refine Set.disjoint_left.mpr fun x hx hx' ↦ ?_
  simp only [seqRange, Set.mem_ofPred_eq, hlength, UInt32.lt_iff_toNat_lt, UInt32.toNat_sub,
    UInt32.toNat_add, UInt32.toNat_ofNat'] at hx hx'
  have := x.toNat_lt
  have := a.toNat_lt
  omega

/-! ## Numbering the connections -/

/-- The event sets up a connection. -/
def Event.Opens : Event → Bool
  | .passiveOpen .. => true
  | _ => false

/-- How many connections were set up. -/
def openings (log : List Event) : Nat := log.countP Event.Opens

/-- How many connections were set up before the latest one at `p`. -/
def birth (p : Nat) : List Event → Option Nat
  | [] => none
  | .passiveOpen q _ _ :: rest => if q = p then some (openings rest) else birth p rest
  | _ :: rest => birth p rest

/-- The number that the connection sends next, or would have sent next when it was removed. -/
def Lifetime.sndNxt (ℓ : Lifetime) : UInt32 := ℓ.isn + UInt32.ofNat (sentSpan ℓ.events)

/-- The connections in the log started at `start` and 1000 numbers apart. -/
def Spaced (start : UInt32) (log : List Event) : Prop :=
  ∀ p isn irs earlier, .passiveOpen p isn irs :: earlier <:+ log →
    isn = start + UInt32.ofNat (1000 * openings earlier)

section Spacing

variable {p : Nat} {start : UInt32} {log : List Event}

theorem openings_append (new : List Event) :
    openings (new ++ log) = openings new + openings log :=
  List.countP_append

/-- Events that set up no connection keep the spacing. -/
theorem Spaced.append (h : Spaced start log) (new : List Event) (hnew : openings new = 0) :
    Spaced start (new ++ log) := by
  induction new with
  | nil => exact h
  | cons e new ih =>
      rw [openings, List.countP_eq_zero] at hnew
      obtain ⟨he, hrest⟩ := List.forall_mem_cons.mp hnew
      intro q isn irs earlier hsuffix
      rcases List.suffix_cons_iff.mp hsuffix with heq | hsuffix
      · rw [← (List.cons.inj heq).1] at he
        exact absurd rfl he
      · exact ih (List.countP_eq_zero.mpr hrest) q isn irs earlier hsuffix

/-- The latest connection at an address has a number, which says where it started. -/
theorem Spaced.birth (h : Spaced start log) {ℓ : Lifetime} (hℓ : lifetime p log = some ℓ) :
    ∃ i, birth p log = some i ∧ ℓ.isn = start + UInt32.ofNat (1000 * i) := by
  induction log generalizing ℓ with
  | nil => cases hℓ
  | cons e rest ih =>
      have hrest : Spaced start rest := fun q isn irs earlier hsuffix ↦
        h q isn irs earlier (hsuffix.trans (List.suffix_cons e rest))
      cases e with
      | passiveOpen q isn irs =>
          simp only [lifetime, Ethernet.birth] at hℓ ⊢
          split at hℓ
          · rename_i hq
            cases hℓ
            rw [if_pos hq]
            exact ⟨_, rfl, h q isn irs rest (List.suffix_refl _)⟩
          · rename_i hq
            rw [if_neg hq]
            exact ih hrest hℓ
      | _ =>
          simp only [lifetime, Ethernet.birth] at hℓ ⊢
          split at hℓ
          · obtain ⟨ℓ₀, hℓ₀, rfl⟩ := Option.map_eq_some_iff.mp hℓ
            rw [Lifetime.isn_add]
            exact ih hrest hℓ₀
          · exact ih hrest hℓ

/-- The layers below set up no connection. -/
theorem Event.IsBelow.openings {e : Event} (he : e.IsBelow) : openings [e] = 0 := by
  rcases he with he | ⟨frame, rfl⟩
  · cases e with
    | transmitted | ringFull | noMemory => rfl
    | _ => cases he
  · rfl

/-- An act on one connection sets up no other. -/
theorem Does.openings {a : Act} {s s' : Server} (h : Does p a s s') (howned : Owned p [a]) :
    s'.isn = s.isn ∧ ∃ new, s'.log = new ++ s.log ∧ Ethernet.openings new = 0 := by
  cases h with
  | update f => exact ⟨rfl, [], rfl, rfl⟩
  | note e =>
      have htcb : e.tcb = some p := howned e (by simp)
      refine ⟨rfl, [e], rfl, ?_⟩
      cases e with
      | passiveOpen => cases htcb
      | _ => rfl
  | @sent _ _ _ _ e _ he =>
      refine ⟨rfl, [e] ++ [.handed _ _ _], rfl, ?_⟩
      rw [openings_append, Event.IsBelow.openings (.inl he)]
      rfl
  | dropped => exact ⟨rfl, [.noMemory], rfl, rfl⟩
  | remove => exact ⟨rfl, [.removed p], rfl, rfl⟩

theorem Performs.openings {acts : List Act} {s s' : Server} (h : Performs p acts s s')
    (howned : Owned p acts) :
    s'.isn = s.isn ∧ ∃ new, s'.log = new ++ s.log ∧ Ethernet.openings new = 0 := by
  induction h with
  | nil => exact ⟨rfl, [], rfl, rfl⟩
  | @cons a acts _ _ _ hdoes _ ih =>
      obtain ⟨hfirst, hrest⟩ := owned_append.mp (show Owned p ([a] ++ acts) from howned)
      obtain ⟨hisn, new, hlog, hnew⟩ := hdoes.openings hfirst
      obtain ⟨hisn', new', hlog', hnew'⟩ := ih hrest
      refine ⟨hisn'.trans hisn, new' ++ new, by rw [hlog', hlog, List.append_assoc], ?_⟩
      rw [openings_append, hnew, hnew']

/-- The connections are spaced out so far, and the next one will be. -/
def Server.Spaced (start : UInt32) (s : Server) : Prop :=
  s.isn = start + UInt32.ofNat (1000 * openings s.log) ∧ Ethernet.Spaced start s.log

/-- More events that set up no connection do not matter. -/
theorem Server.Spaced.append {s s' : Server} (h : s.Spaced start) (hisn : s'.isn = s.isn)
    (new : List Event) (hlog : s'.log = new ++ s.log) (hnew : openings new = 0) :
    s'.Spaced start := by
  unfold Server.Spaced
  rw [hisn, hlog, openings_append, hnew, Nat.zero_add]
  exact ⟨h.1, h.2.append new hnew⟩

theorem Server.Receives.spaced {srcIp dstIp : UInt32} {seg : Segment} {s s' : Server}
    (hreceives : Server.Receives srcIp dstIp seg s s') (h : s.Spaced start) :
    s'.Spaced start := by
  cases hreceives with
  | @found _ p c _ hperforms =>
      obtain ⟨hisn, new, hlog, hnew⟩ := hperforms.openings (c.owned_respond p seg)
      refine h.append hisn _ (hlog.trans (List.append_cons new _ s.log)) ?_
      rw [openings_append, hnew]
      rfl
  | refused => exact h.append rfl [.noMemory, .lookup srcIp dstIp seg none] rfl rfl
  | @opened _ p _ _ _ hperforms =>
      obtain ⟨hisn, new, hlog, hnew⟩ := hperforms.openings (by simp [Owned])
      -- the opening is the only event that moves the initial number
      have hset : Server.Spaced start
          { conns := (p, seg.opened srcIp dstIp s.isn) :: s.conns, isn := s.isn + 1000,
            log := .passiveOpen p s.isn seg.seq :: .lookup srcIp dstIp seg none :: s.log } := by
        have hlookup := h.2.append [.lookup srcIp dstIp seg none] rfl
        refine ⟨?_, fun q isn irs earlier hsuffix ↦ ?_⟩
        · have hcount : Ethernet.openings (.passiveOpen p s.isn seg.seq ::
              .lookup srcIp dstIp seg none :: s.log) = _ :=
            openings_append [.passiveOpen p s.isn seg.seq, .lookup srcIp dstIp seg none]
          rw [hcount, Nat.add_comm, show Ethernet.openings [_, _] = 1 from rfl, Nat.mul_add, h.1,
            UInt32.ofNat_add, UInt32.add_assoc]
          rfl
        · rcases List.suffix_cons_iff.mp hsuffix with heq | hsuffix
          · cases heq
            exact h.1
          · exact hlookup q isn irs earlier hsuffix
      exact hset.append hisn new hlog hnew
  | @reset e _ _ he =>
      refine h.append rfl ([e] ++ [.reset dstIp srcIp _, .lookup srcIp dstIp seg none]) rfl ?_
      rw [openings_append, Event.IsBelow.openings (.inl he)]
      rfl

/-- The connections of a run are spaced out. -/
theorem Server.Run.spaced {ip : UInt32} {s s' : Server} (hrun : Server.Run ip s s')
    (hlog : s.log = []) : s'.Spaced s.isn := by
  induction hrun with
  | refl =>
      refine ⟨by rw [hlog]; simp [Ethernet.openings], fun p isn irs earlier hsuffix ↦ ?_⟩
      rw [hlog] at hsuffix
      cases List.suffix_nil.mp hsuffix
  | tail _ hstep ih =>
      cases hstep with
      | receive _ hreceives => exact hreceives.spaced ih
      | @record e s he => exact ih.append rfl [e] rfl he.openings

end Spacing

/-! ## What a connection uses up -/

section Usage

variable {p : Nat} {flags : UInt8} {payload : List UInt8} {seg : Segment} {c c' : Conn}
  {ℓ ℓ' : Lifetime}

/-- A transmission uses up at most its payload and one number for its flag. -/
theorem Sends.sentSpan_le (h : Sends p flags payload c ℓ c' ℓ') {n : Nat}
    (hℓ : sentSpan ℓ.events ≤ n) :
    sentSpan ℓ'.events ≤ n + payload.length +
      if flags &&& (tcpFlagSyn ||| tcpFlagFin) ≠ 0 then 1 else 0 := by
  cases h with
  | dropped => omega
  | sent =>
      rw [Lifetime.events_add, sentSpan, List.map_cons, List.sum_cons, Event.span,
        Segment.parse_tcpSegment, Option.elim_some, Segment.span]
      unfold sentSpan at hℓ
      by_cases hflag : Segment.Has ⟨c.localPort, c.remotePort, c.sndNxt, c.rcvNxt, flags, payload⟩
        (tcpFlagSyn ||| tcpFlagFin)
      · rw [if_pos hflag, if_pos (show flags &&& (tcpFlagSyn ||| tcpFlagFin) ≠ 0 from hflag)]
        dsimp only
        omega
      · rw [if_neg hflag, if_neg (show ¬ flags &&& (tcpFlagSyn ||| tcpFlagFin) ≠ 0 from hflag)]
        dsimp only
        omega

/-- An acknowledgement uses up nothing. -/
theorem Sends.sentSpan_ack (h : Sends p tcpFlagAck [] c ℓ c' ℓ') {n : Nat}
    (hℓ : sentSpan ℓ.events ≤ n) : sentSpan ℓ'.events ≤ n := by
  have hspan := h.sentSpan_le hℓ
  rwa [if_neg (by decide)] at hspan

/-- A FIN uses up one number. -/
theorem Sends.sentSpan_fin (h : Sends p (tcpFlagFin ||| tcpFlagAck) [] c ℓ c' ℓ') {n : Nat}
    (hℓ : sentSpan ℓ.events ≤ n) : sentSpan ℓ'.events ≤ n + 1 := by
  have hspan := h.sentSpan_le hℓ
  rwa [if_pos (by decide)] at hspan

theorem Accepts.sentSpan_le (h : Accepts p seg c ℓ c' ℓ') {n : Nat} (hℓ : sentSpan ℓ.events ≤ n) :
    sentSpan ℓ'.events ≤ n + 996 + 1 := by
  obtain ⟨hresponse, hfin, hack⟩ := h
  have hnoted : sentSpan (ℓ.add (.dispatched p seg.payload)).events ≤ n := by
    simpa [sentSpan, Event.span] using hℓ
  have hspan := hresponse.sentSpan_le hnoted
  rw [if_neg (by decide), Nat.add_zero] at hspan
  exact hack.sentSpan_ack (hfin.sentSpan_fin
    (hspan.trans (Nat.add_le_add_left length_httpResponse_le n)))

theorem Finishes.sentSpan_le (h : Finishes p seg c ℓ c' ℓ') {n : Nat}
    (hℓ : sentSpan ℓ.events ≤ n) : sentSpan ℓ'.events ≤ n + 1 := by
  obtain ⟨hack, hfin⟩ := h
  exact hfin.sentSpan_fin (hack.sentSpan_ack hℓ)

/-- What a connection in the given state can have used up: the synchronisation, and once it closes
the response and a FIN, or two. -/
def maxSpan : Option Conn → Nat
  | some c => if c.state = .lastAck then 999 else 1
  | none => 999

theorem preserved_maxSpan (ip : UInt32) :
    Preserved ip fun o ℓ ↦ sentSpan ℓ.events ≤ maxSpan o where
  opened htraces := by
    obtain ⟨c₁, rfl, hsends⟩ := htraces.single
    have hspan := hsends.sentSpan_le (n := 0) (Nat.le_refl 0)
    rw [if_pos (by decide)] at hspan
    have hstate : c₁.state = .synReceived := hsends.state
    rw [maxSpan, if_neg (by rw [hstate]; decide)]
    exact hspan
  found {p srcIp seg c d ℓ ℓ'} _ hsettled hΨ htraces := by
    have hnoted : sentSpan (ℓ.add (.lookup srcIp ip seg (some (p, c)))).events ≤
        maxSpan (some c) := by
      simpa [sentSpan, Event.span] using hΨ
    -- an open connection has sent nothing but its SYN
    have hopen : c.state = .established → maxSpan (some c) = 1 := by
      intro hstate
      rw [maxSpan, if_neg (by rw [hstate]; decide)]
    have hclosing : ∀ c' : Conn, c'.state = .lastAck →
        maxSpan (some c') = 999 := by
      intro c' hstate
      rw [maxSpan, if_pos hstate]
    cases htraces.respond hsettled with
    | ignored => exact hnoted
    | handshake hstate =>
        rw [maxSpan, if_neg (by rw [hstate]; decide)] at hnoted
        exact hnoted
    | data hstate _ _ haccepts =>
        have hspan := haccepts.sentSpan_le hnoted
        rw [hopen hstate] at hspan
        rw [hclosing _ haccepts.state]
        omega
    | fin hstate _ _ hfinishes =>
        have hspan := hfinishes.sentSpan_le hnoted
        rw [hopen hstate] at hspan
        rw [hclosing _ hfinishes.state]
        omega
    | dataFin hstate _ _ haccepts hfinishes =>
        have hspan := hfinishes.sentSpan_le (haccepts.sentSpan_le hnoted)
        rw [hopen hstate] at hspan
        rw [hclosing _ hfinishes.state]
        omega
    | removed hstate =>
        rw [hclosing c hstate] at hnoted
        simpa [sentSpan, Event.span, maxSpan] using hnoted

/-- No connection uses up the 1000 numbers between it and the next one. -/
theorem maxSpan_lt (o : Option Conn) : maxSpan o < 1000 := by
  unfold maxSpan
  split
  · split <;> omega
  · omega

end Usage

/-- The latest connection at an address started where its number says. -/
theorem Setup.Reaches.isn_eq {c : Setup} {σ : Node} (h : c.Reaches σ) {p i : Nat} {ℓ : Lifetime}
    (hℓ : lifetime p σ.log = some ℓ) (hi : birth p σ.log = some i) :
    ℓ.isn = c.isn + UInt32.ofNat (1000 * i) := by
  obtain ⟨L, hs⟩ := h.sound
  obtain ⟨j, hj, hisn⟩ := (hs.run.spaced rfl).2.birth hℓ
  obtain rfl : i = j := Option.some.inj (hi.symm.trans hj)
  exact hisn

/-- The connection set up as the `j`-th starts where the `i`-th does, and 1000 numbers on for every
set-up between them. -/
theorem isn_later {a b start : UInt32} {i j : Nat} (ha : a = start + UInt32.ofNat (1000 * i))
    (hb : b = start + UInt32.ofNat (1000 * j)) (hij : i ≤ j) :
    b = a + UInt32.ofNat (1000 * (j - i)) := by
  rw [hb, ha, UInt32.add_assoc, ← UInt32.ofNat_add, ← Nat.mul_add, Nat.add_sub_cancel' hij]

/-- Two connections of a run, set up as the `i`-th and the `j`-th with fewer than 4294967 set-ups
from one to the other, use sequence numbers that do not overlap: each its own fewer than 1000, from
its initial number up to its `snd_nxt`. -/
theorem send_ranges_disjoint (c : Setup) (σ σ' : Node) (h : c.Reaches σ)
    (hrun : ReflTransGen Node.Step σ σ') :
    (∃ conns, σ'.connections = some conns ∧ ∀ p d, (p, d) ∈ conns →
      ∃ ℓ, lifetime p σ'.log = some ℓ ∧ d.sndNxt = ℓ.sndNxt) ∧
    (∀ p ℓ, lifetime p σ'.log = some ℓ → sentSpan ℓ.events < 1000) ∧
    ∀ p q ℓ ℓ' i j, lifetime p σ.log = some ℓ → birth p σ.log = some i →
      lifetime q σ'.log = some ℓ' → birth q σ'.log = some j →
      i ≠ j → i < j + 4294967 → j < i + 4294967 →
      Disjoint (seqRange ℓ.isn ℓ.sndNxt) (seqRange ℓ'.isn ℓ'.sndNxt) := by
  have h' : c.Reaches σ' := h.steps hrun
  obtain ⟨conns, hconns, hopened, -⟩ := h'.recorded (preserved_tiled c.ip)
  have hspan : ∀ {σ : Node}, c.Reaches σ → ∀ {p : Nat} {ℓ : Lifetime}, lifetime p σ.log = some ℓ →
      sentSpan ℓ.events < 1000 := by
    intro σ h p ℓ hℓ
    obtain ⟨_, -, -, hlives⟩ := h.recorded (preserved_maxSpan c.ip)
    exact Nat.lt_of_le_of_lt (hlives p ℓ hℓ) (maxSpan_lt _)
  refine ⟨⟨conns, hconns, fun p d hd ↦ ?_⟩, fun p ℓ hℓ ↦ hspan h' hℓ, ?_⟩
  · obtain ⟨ℓ, hℓ, hnumbered, -⟩ := hopened p d hd
    exact ⟨ℓ, hℓ, hnumbered d rfl⟩
  · intro p q ℓ ℓ' i j hℓ hi hℓ' hj hne hij hji
    have hisn := h.isn_eq hℓ hi
    have hisn' := h'.isn_eq hℓ' hj
    have hm := hspan h hℓ
    have hn := hspan h' hℓ'
    -- whichever was set up first, the numbers do not come round to it
    rcases Nat.lt_or_gt_of_ne hne with hlt | hlt
    · rw [Lifetime.sndNxt, Lifetime.sndNxt, isn_later hisn hisn' hlt.le]
      exact disjoint_seqRange ℓ.isn (by omega) (by omega)
    · rw [Lifetime.sndNxt, Lifetime.sndNxt, isn_later hisn' hisn hlt.le]
      exact (disjoint_seqRange ℓ'.isn (by omega) (by omega)).symm

/-- Two peers opened a connection each, and the connections' numbers do not overlap. -/
theorem send_ranges_disjoint_two : ∃ σ p q ℓ ℓ', Setup.sample.Reaches σ ∧
    lifetime p σ.log = some ℓ ∧ birth p σ.log = some 0 ∧
    lifetime q σ.log = some ℓ' ∧ birth q σ.log = some 1 ∧
    Disjoint (seqRange ℓ.isn ℓ.sndNxt) (seqRange ℓ'.isn ℓ'.sndNxt) := by
  obtain ⟨σ, -, hreaches, hP⟩ := Setup.exec_any .sample
    [.fromPeer 100 0 tcpFlagSyn [],
      .segment 0x0A000202
        (tcpSegment { Conn.samplePeer 100 0 with localPort := 5556 } tcpFlagSyn [])]
    (fun σ : Node ↦ σ.connections.any fun conns : List (Nat × Conn) ↦
      decide ((conns.map fun e ↦ birth e.1 σ.log) = [some 1, some 0])) (by decide +kernel)
  obtain ⟨⟨conns, hconns, hopened⟩, -, hdisjoint⟩ :=
    send_ranges_disjoint .sample σ σ hreaches .refl
  rw [hconns, Option.any_some, decide_eq_true_eq] at hP
  obtain ⟨⟨q, d'⟩, rest, rfl, hq, hrest⟩ := List.map_eq_cons_iff.mp hP
  obtain ⟨⟨p, d⟩, rest', rfl, hp, -⟩ := List.map_eq_cons_iff.mp hrest
  obtain ⟨ℓ', hℓ', -⟩ := hopened q d' (by simp)
  obtain ⟨ℓ, hℓ, -⟩ := hopened p d (by simp)
  exact ⟨σ, p, q, ℓ, ℓ', hreaches, hℓ, hp, hℓ', hq,
    hdisjoint p q ℓ ℓ' 0 1 hℓ hp hℓ' hq (by omega) (by omega) (by omega)⟩

end Aether.Ethernet
