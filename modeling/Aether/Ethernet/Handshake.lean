import Aether.Ethernet.SequenceNumbers

/-!
# The handshake

Any acknowledgement completes a handshake, and whatever number it carries becomes `snd_una`. The
window is in order as long as only the acknowledgement of the SYN completes one.
-/

namespace Aether.Ethernet

open Common

/-! ## The segment that completes a handshake -/

/-- A segment that found a TCB in SYN_RECEIVED, and the TCB as it was found. -/
def Event.opening : Event → Option (Segment × Conn)
  | .lookup _ _ seg (some (_, c)) => if c.state = .synReceived then some (seg, c) else none
  | _ => none

/-- The last segment that found the TCB in SYN_RECEIVED. -/
def Lifetime.entry (ℓ : Lifetime) : Option (Segment × Conn) := ℓ.events.findSome? Event.opening

/-- The segment acknowledges the SYN of a connection that starts at `isn`, and does nothing else. -/
def Segment.Completes (seg : Segment) (isn : UInt32) : Prop :=
  seg.Has tcpFlagAck ∧ ¬ seg.Has tcpFlagSyn ∧ ¬ seg.Has tcpFlagRst ∧ seg.ack = isn + 1

instance (seg : Segment) (isn : UInt32) : Decidable (seg.Completes isn) :=
  inferInstanceAs (Decidable (_ ∧ _))

/-- An acknowledgement that arrives in SYN_RECEIVED completes the handshake as it should, and the
SYN that it acknowledges was sent. -/
def Event.Confirms (isn : UInt32) (e : Event) : Prop :=
  ∀ seg c, e.opening = some (seg, c) → seg.Has tcpFlagAck →
    seg.Completes isn ∧ c.sndNxt = isn + 1

/-- Every acknowledgement of the lifetime completes the handshake as it should. -/
def Lifetime.Confirmed (ℓ : Lifetime) : Prop := ∀ e ∈ ℓ.events, e.Confirms ℓ.isn

/-- How far a connection is with its handshake: in SYN_RECEIVED nothing is acknowledged, and later
`snd_una` is what the last segment in SYN_RECEIVED acknowledged. -/
structure Lifetime.Entered (ℓ : Lifetime) (c : Conn) : Prop where
  opening : c.state = .synReceived → c.sndUna = ℓ.isn ∧ ℓ.Confirmed ∧
    (c.sndNxt = ℓ.isn ∨ c.sndNxt = ℓ.isn + 1)
  entered : c.state ≠ .synReceived → ∃ seg c₀ k, ℓ.entry = some (seg, c₀) ∧ c.sndUna = seg.ack ∧
    seg.Has tcpFlagAck ∧ (ℓ.Confirmed ↔ seg.Completes ℓ.isn ∧ c₀.sndNxt = ℓ.isn + 1) ∧
    (c₀.sndNxt = ℓ.isn ∨ c₀.sndNxt = ℓ.isn + 1) ∧ c.sndNxt = c₀.sndNxt + UInt32.ofNat k ∧
    k ≤ 65520 ∧ (c.state = .established → k = 0)

section Handshake

variable {p : Nat} {flags : UInt8} {payload : List UInt8} {seg : Segment} {c c' : Conn}
  {ℓ ℓ' : Lifetime} {srcIp dstIp : UInt32}

@[simp] theorem Lifetime.confirmed_add (ℓ : Lifetime) (e : Event) :
    (ℓ.add e).Confirmed ↔ e.Confirms ℓ.isn ∧ ℓ.Confirmed :=
  List.forall_mem_cons

/-- Only the arrival of a segment in SYN_RECEIVED counts. -/
theorem Event.IsOutput.opening {e : Event} (he : e.IsOutput) : e.opening = none := by
  cases e with
  | lookup => cases he
  | _ => rfl

theorem Event.opening_lookup (hstate : c.state = .synReceived) :
    Event.opening (.lookup srcIp dstIp seg (some (p, c))) = some (seg, c) :=
  if_pos hstate

theorem Event.opening_later (hstate : c.state ≠ .synReceived) :
    Event.opening (.lookup srcIp dstIp seg (some (p, c))) = none :=
  if_neg hstate

/-- Other events confirm nothing and leave the entry as it is. -/
theorem Lifetime.entry_add {e : Event} (he : e.opening = none) :
    (ℓ.add e).entry = ℓ.entry ∧ ((ℓ.add e).Confirmed ↔ ℓ.Confirmed) := by
  refine ⟨?_, ?_⟩
  · rw [entry, events_add, List.findSome?_cons_of_isNone (by rw [he, Option.isNone_none])]
    rfl
  · rw [confirmed_add, and_iff_right]
    intro seg c heq
    rw [he] at heq
    cases heq

theorem Lifetime.Continues.entry (h : ℓ.Continues ℓ') :
    ℓ'.entry = ℓ.entry ∧ (ℓ'.Confirmed ↔ ℓ.Confirmed) := by
  obtain ⟨hisn, -, new, hevents, hnew⟩ := h
  have hnone : ∀ e ∈ new, e.opening = none := fun e he ↦ (hnew e he).opening
  constructor
  · rw [Lifetime.entry, hevents, List.findSome?_append, List.findSome?_eq_none_iff.mpr hnone]
    rfl
  · rw [Confirmed, hevents, hisn, List.forall_mem_append, and_iff_right]
    · rfl
    · intro e he seg c heq
      rw [hnone e he] at heq
      cases heq

/-- Sending moves `snd_nxt` by at most the payload and one. -/
theorem Sends.sndNxt (h : Sends p flags payload c ℓ c' ℓ') (hlen : payload.length ≤ 65515) :
    ∃ k ≤ payload.length + 1, c'.sndNxt = c.sndNxt + UInt32.ofNat k := by
  cases h with
  | sent =>
      refine ⟨_, ?_, Conn.advance_sndNxt (p := p) hlen⟩
      rw [Event.span, Segment.parse_tcpSegment, Option.elim_some, Segment.span]
      split <;> simp
  | dropped => exact ⟨0, Nat.zero_le _, (UInt32.add_zero _).symm⟩

theorem Accepts.sndNxt (h : Accepts p seg c ℓ c' ℓ') :
    ∃ k ≤ 65518, c'.sndNxt = c.sndNxt + UInt32.ofNat k := by
  obtain ⟨hresponse, hfin, hack⟩ := h
  have hlength := length_httpResponse
  obtain ⟨k₁, hk₁, hnxt₁⟩ := hresponse.sndNxt length_httpResponse
  obtain ⟨k₂, hk₂, hnxt₂⟩ := hfin.sndNxt (Nat.zero_le _)
  obtain ⟨k₃, hk₃, hnxt₃⟩ := hack.sndNxt (Nat.zero_le _)
  rw [List.length_nil] at hk₂ hk₃
  refine ⟨k₁ + k₂ + k₃, by omega, ?_⟩
  rw [hnxt₃, hnxt₂, hnxt₁, UInt32.ofNat_add, UInt32.ofNat_add, UInt32.add_assoc,
    UInt32.add_assoc, UInt32.add_assoc]

theorem Finishes.sndNxt (h : Finishes p seg c ℓ c' ℓ') :
    ∃ k ≤ 2, c'.sndNxt = c.sndNxt + UInt32.ofNat k := by
  obtain ⟨hack, hfin⟩ := h
  obtain ⟨k₁, hk₁, hnxt₁⟩ := hack.sndNxt (Nat.zero_le _)
  obtain ⟨k₂, hk₂, hnxt₂⟩ := hfin.sndNxt (Nat.zero_le _)
  rw [List.length_nil] at hk₁ hk₂
  exact ⟨k₁ + k₂, by omega, by rw [hnxt₂, hnxt₁, UInt32.ofNat_add, UInt32.add_assoc]⟩

/-- The SYN that answers a SYN takes up one number, if it is sent. -/
theorem Sends.synAck (h : Sends p (tcpFlagSyn ||| tcpFlagAck) [] c ℓ c' ℓ') :
    c'.sndNxt = c.sndNxt ∨ c'.sndNxt = c.sndNxt + 1 := by
  cases h with
  | sent => exact .inr (UInt32.add_zero _)
  | dropped => exact .inl rfl

/-- An open connection that sends before the next segment arrives stays where it is with its
handshake. -/
theorem Lifetime.Entered.continues (h : ℓ.Entered c) (hstate : c.state = .established)
    (hstate' : c'.state = .lastAck) (hcontinues : ℓ.Continues ℓ') (huna : c'.sndUna = c.sndUna)
    (hnxt : ∃ k ≤ 65520, c'.sndNxt = c.sndNxt + UInt32.ofNat k) : ℓ'.Entered c' where
  opening hopening := by
    rw [hstate'] at hopening
    cases hopening
  entered _ := by
    obtain ⟨seg, c₀, k, hentry, hack, hflag, hconfirmed, hstart, hnxt₀, -, hzero⟩ :=
      h.entered (by simp [hstate])
    obtain ⟨m, hm, hnxt'⟩ := hnxt
    obtain ⟨hentry', hconfirmed'⟩ := hcontinues.entry
    rw [hzero hstate] at hnxt₀
    refine ⟨seg, c₀, m, hentry'.trans hentry, huna.trans hack, hflag, ?_, ?_, ?_, hm, ?_⟩
    · rw [hconfirmed', hconfirmed, hcontinues.isn]
    · rwa [hcontinues.isn]
    · rw [hnxt', hnxt₀, show UInt32.ofNat 0 = 0 from rfl, UInt32.add_zero]
    · simp [hstate']

/-- The arrival of a segment after the handshake. -/
theorem Lifetime.Entered.later (h : ℓ.Entered c) (hstate : c.state ≠ .synReceived) :
    (ℓ.add (.lookup srcIp dstIp seg (some (p, c)))).Entered c := by
  refine ⟨fun hopening ↦ absurd hopening hstate, fun hlater ↦ ?_⟩
  have hopening : Event.opening (.lookup srcIp dstIp seg (some (p, c))) = none :=
    Event.opening_later hstate
  obtain ⟨hentry, hconfirmed⟩ := ℓ.entry_add hopening
  rw [hentry, hconfirmed]
  exact h.entered hlater

/-- A segment that leaves the connection alone. -/
theorem Lifetime.Entered.ignored (h : ℓ.Entered c) (hignores : c.Ignores seg) :
    (ℓ.add (.lookup srcIp dstIp seg (some (p, c)))).Entered c := by
  by_cases hstate : c.state = .synReceived
  · refine ⟨fun _ ↦ ?_, fun hlater ↦ absurd hstate hlater⟩
    obtain ⟨huna, hconfirmed, hnxt⟩ := h.opening hstate
    refine ⟨huna, (confirmed_add ℓ _).mpr ⟨?_, hconfirmed⟩, hnxt⟩
    intro seg' c' heq hack
    rw [Event.opening_lookup hstate] at heq
    cases heq
    simp only [Conn.Ignores, hstate] at hignores
    exact absurd hack hignores
  · exact h.later hstate

/-- A segment that completes the handshake. -/
theorem Lifetime.Entered.handshake (h : ℓ.Entered c) (hstate : c.state = .synReceived)
    (hack : seg.Has tcpFlagAck) : (ℓ.add (.lookup srcIp dstIp seg (some (p, c)))).Entered
      { c with sndUna := seg.ack, state := .established } where
  opening hopening := by cases hopening
  entered _ := by
    obtain ⟨-, hconfirmed, hnxt⟩ := h.opening hstate
    have hopening : Event.opening (.lookup srcIp dstIp seg (some (p, c))) = some (seg, c) :=
      Event.opening_lookup hstate
    refine ⟨seg, c, 0, ?_, rfl, hack, ?_, hnxt, (UInt32.add_zero _).symm, by omega, fun _ ↦ rfl⟩
    · rw [Lifetime.entry, Lifetime.events_add, List.findSome?_cons, hopening]
    · rw [confirmed_add, and_iff_left hconfirmed]
      refine ⟨fun hconfirms ↦ hconfirms seg c hopening hack, fun hcompletes seg' c' heq _ ↦ ?_⟩
      rw [hopening] at heq
      cases heq
      exact hcompletes

/-- How far the handshake is stays known. -/
theorem preserved_entered (ip : UInt32) :
    Preserved ip fun o ℓ ↦ ∀ c, o = some c → ℓ.Entered c where
  opened {p srcIp isn seg d ℓ'} htraces := by
    obtain ⟨c₁, rfl, hsends⟩ := htraces.single
    intro c hc
    obtain rfl := Option.some.inj hc
    have hcontinues := hsends.continues
    have hconfirmed : ℓ'.Confirmed :=
      hcontinues.entry.2.mpr (by simp [Lifetime.Confirmed])
    have hstate := hsends.state
    refine ⟨fun _ ↦ ⟨?_, hconfirmed, ?_⟩, fun hlater ↦ absurd hstate hlater⟩
    · rw [hsends.sndUna, hcontinues.isn]
      rfl
    · rw [hcontinues.isn]
      exact hsends.synAck
  found {p srcIp seg c d ℓ ℓ'} _ hsettled hentered htraces := by
    intro c' hc'
    subst hc'
    have h := hentered c rfl
    cases htraces.respond hsettled with
    | ignored hignores => exact h.ignored hignores
    | handshake hstate hack => exact h.handshake hstate hack
    | data hstate _ _ haccepts =>
        have hlater : Lifetime.Entered (ℓ.add (.lookup srcIp ip seg (some (p, c)))) c :=
          h.later (by simp [hstate])
        obtain ⟨k, hk, hnxt⟩ := haccepts.sndNxt
        exact hlater.continues hstate haccepts.state haccepts.continues haccepts.sndUna
          ⟨k, by omega, hnxt⟩
    | fin hstate _ _ hfinishes =>
        have hlater : Lifetime.Entered (ℓ.add (.lookup srcIp ip seg (some (p, c)))) c :=
          h.later (by simp [hstate])
        obtain ⟨k, hk, hnxt⟩ := hfinishes.sndNxt
        exact hlater.continues hstate hfinishes.state hfinishes.continues hfinishes.sndUna
          ⟨k, by omega, hnxt⟩
    | dataFin hstate _ _ haccepts hfinishes =>
        have hlater : Lifetime.Entered (ℓ.add (.lookup srcIp ip seg (some (p, c)))) c :=
          h.later (by simp [hstate])
        obtain ⟨k, hk, hnxt⟩ := haccepts.sndNxt
        obtain ⟨m, hm, hnxt'⟩ := hfinishes.sndNxt
        refine hlater.continues hstate hfinishes.state
          (haccepts.continues.trans hfinishes.continues)
          (hfinishes.sndUna.trans haccepts.sndUna) ⟨k + m, by omega, ?_⟩
        rw [hnxt', hnxt, UInt32.ofNat_add, UInt32.add_assoc]

end Handshake

/-- `snd_una` lies between the initial send number and `snd_nxt`. -/
def Conn.Windowed (c : Conn) (isn : UInt32) : Prop := c.sndUna - isn ≤ c.sndNxt - isn

instance (c : Conn) (isn : UInt32) : Decidable (c.Windowed isn) :=
  inferInstanceAs (Decidable (_ ≤ _))

/-- Nothing lies outside a window that starts where it is. -/
theorem Conn.windowed_start {c : Conn} {isn : UInt32} (huna : c.sndUna = isn) :
    c.Windowed isn := by
  rw [Windowed, huna, UInt32.sub_self, UInt32.le_iff_toNat_le]
  exact Nat.zero_le _

/-- An acknowledged SYN lies in the window exactly if it was sent. -/
theorem Conn.windowed_syn {c : Conn} {isn : UInt32} {k : Nat} {start : UInt32}
    (huna : c.sndUna = isn + 1) (hnxt : c.sndNxt = start + UInt32.ofNat k) (hk : k ≤ 65520)
    (hstart : start = isn ∨ start = isn + 1) (hzero : start = isn → k = 0) :
    c.Windowed isn ↔ start = isn + 1 := by
  have hone : (1 : UInt32).toNat = 1 := rfl
  have hknat : (UInt32.ofNat k).toNat = k :=
    UInt32.toNat_ofNat_of_lt' (by rw [UInt32.size]; omega)
  have hisn := isn.toNat_lt
  rw [Windowed, huna, hnxt, UInt32.le_iff_toNat_le]
  rcases hstart with rfl | rfl
  · refine iff_of_false ?_ ?_
    · rw [hzero rfl, show UInt32.ofNat 0 = 0 from rfl, UInt32.add_zero, UInt32.sub_self,
        UInt32.toNat_sub, UInt32.toNat_add, hone, UInt32.toNat_zero]
      omega
    · rw [← UInt32.toNat_inj, UInt32.toNat_add, hone]
      omega
  · refine iff_of_true ?_ rfl
    simp only [UInt32.toNat_sub, UInt32.toNat_add, hknat, hone]
    omega

/-- In every reachable state, `snd_una` of every listed TCB lies in its window and its handshake was
completed by the acknowledgement of its SYN, if every acknowledgement that found it in SYN_RECEIVED
was one; for a TCB in ESTABLISHED this condition is also necessary. -/
theorem handshake_ack_validation (c : Setup) (σ : Node) (h : c.Reaches σ) :
    ∃ conns, σ.connections = some conns ∧ ∀ p d, (p, d) ∈ conns →
      ∃ ℓ, lifetime p σ.log = some ℓ ∧
        (ℓ.Confirmed → d.Windowed ℓ.isn ∧
          (d.state ≠ .synReceived → ∃ seg c₀, ℓ.entry = some (seg, c₀) ∧ seg.Completes ℓ.isn)) ∧
        (d.state = .established → ∃ seg c₀, ℓ.entry = some (seg, c₀) ∧
          (seg.Completes ℓ.isn ∧ d.Windowed ℓ.isn ↔ ℓ.Confirmed)) := by
  obtain ⟨conns, hconns, hopened, -⟩ := h.recorded (preserved_entered c.ip)
  refine ⟨conns, hconns, fun p d hd ↦ ?_⟩
  obtain ⟨ℓ, hℓ, hentered⟩ := hopened p d hd
  have hd := hentered d rfl
  refine ⟨ℓ, hℓ, fun hconfirmed ↦ ⟨?_, fun hlater ↦ ?_⟩, fun hstate ↦ ?_⟩
  · by_cases hstate : d.state = .synReceived
    · exact Conn.windowed_start (hd.opening hstate).1
    · obtain ⟨seg, c₀, k, -, huna, -, hiff, -, hnxt, hk, -⟩ := hd.entered hstate
      obtain ⟨hcompletes, hsyn⟩ := hiff.mp hconfirmed
      rw [hcompletes.2.2.2] at huna
      refine (Conn.windowed_syn huna hnxt hk (.inr hsyn) fun hstart ↦ ?_).mpr hsyn
      rw [hstart, ← UInt32.toNat_inj, UInt32.toNat_add] at hsyn
      have := ℓ.isn.toNat_lt
      simp only [UInt32.reduceToNat] at hsyn
      omega
  · obtain ⟨seg, c₀, -, hentry, -, -, hiff, -⟩ := hd.entered hlater
    exact ⟨seg, c₀, hentry, (hiff.mp hconfirmed).1⟩
  · obtain ⟨seg, c₀, k, hentry, huna, -, hiff, hstart, hnxt, hk, hzero⟩ :=
      hd.entered (by simp [hstate])
    refine ⟨seg, c₀, hentry, ?_⟩
    rw [hiff]
    refine and_congr_right fun hcompletes ↦ ?_
    rw [hcompletes.2.2.2] at huna
    exact Conn.windowed_syn huna hnxt hk hstart fun _ ↦ hzero hstate

/-- An acknowledgement of a number that was never sent completes the handshake and becomes
`snd_una`. -/
theorem handshake_ack_unchecked : ∃ σ p d ℓ seg c₀,
    Setup.sample.exec [.fromPeer 100 0 tcpFlagSyn [],
      .fromPeer 101 9 (tcpFlagAck ||| tcpFlagRst) []] = some σ ∧
    Setup.sample.Reaches σ ∧ σ.connections = some [(p, d)] ∧ lifetime p σ.log = some ℓ ∧
    d.state = .established ∧ ℓ.entry = some (seg, c₀) ∧ ¬ seg.Completes ℓ.isn ∧
    ¬ d.Windowed ℓ.isn := by
  obtain ⟨σ, hexec, hreaches, hσ⟩ := Setup.exec_any .sample
    [.fromPeer 100 0 tcpFlagSyn [], .fromPeer 101 9 (tcpFlagAck ||| tcpFlagRst) []]
    (fun σ ↦ σ.connections.any fun conns ↦ conns.length == 1 && conns.all fun e ↦
      decide (e.2.state = .established) && (lifetime e.1 σ.log).any fun ℓ ↦
        ℓ.entry.any fun entry ↦
          decide (¬ entry.1.Completes ℓ.isn) && decide (¬ e.2.Windowed ℓ.isn))
    (by decide +kernel)
  obtain ⟨conns, hconns, hall⟩ := (Option.any_eq_true _ _).mp hσ
  rw [Bool.and_eq_true, beq_iff_eq] at hall
  obtain ⟨⟨p, d⟩, rfl⟩ := List.length_eq_one_iff.mp hall.1
  have htcb := hall.2
  simp only [List.all_cons, List.all_nil, Bool.and_true, Bool.and_eq_true, decide_eq_true_eq,
    Option.any_eq_true] at htcb
  obtain ⟨hstate, ℓ, hℓ, ⟨seg, c₀⟩, hentry, hcompletes, hwindowed⟩ := htcb
  exact ⟨σ, p, d, ℓ, seg, c₀, hexec, hreaches, hconns, hℓ, hstate, hentry, hcompletes, hwindowed⟩

/-- After a handshake with the right acknowledgement the window is in order. -/
theorem handshake_ack_validation_syn : ∃ σ p d ℓ,
    Setup.sample.exec [.fromPeer 100 0 tcpFlagSyn [], .fromPeer 101 7001 tcpFlagAck []] =
      some σ ∧
    σ.connections = some [(p, d)] ∧ lifetime p σ.log = some ℓ ∧
    (ℓ.Confirmed → d.Windowed ℓ.isn) := by
  obtain ⟨σ, hexec, hreaches, hlength⟩ := Setup.exec_any .sample
    [.fromPeer 100 0 tcpFlagSyn [], .fromPeer 101 7001 tcpFlagAck []]
    (fun σ ↦ σ.connections.any fun conns ↦ conns.length == 1) (by decide +kernel)
  obtain ⟨conns, hconns, htcbs⟩ := handshake_ack_validation .sample σ hreaches
  rw [hconns, Option.any_some, beq_iff_eq] at hlength
  obtain ⟨⟨p, d⟩, rfl⟩ := List.length_eq_one_iff.mp hlength
  obtain ⟨ℓ, hℓ, hconfirmed, -⟩ := htcbs p d List.mem_cons_self
  exact ⟨σ, p, d, ℓ, hexec, hconns, hℓ, fun h ↦ (hconfirmed h).1⟩

end Aether.Ethernet
