import Aether.Ethernet.Lifetimes

/-!
# What a segment does to a connection

The ways in which a settled connection can answer a segment, one constructor each (`Responds`),
with what is left of the connection and what is added to its lifetime.
-/

namespace Aether.Ethernet

open Common

/-! ## Sending, accepting and finishing -/

/-- A segment is sent and takes up its part of the sequence space, or is dropped for lack of
memory. -/
inductive Sends (p : Nat) (flags : UInt8) (payload : List UInt8) (c : Conn) (ℓ : Lifetime) :
    Conn → Lifetime → Prop where
  | sent : Sends p flags payload c ℓ (c.advance flags payload)
      (ℓ.add (.handed p c (tcpSegment c flags payload)))
  | dropped : Sends p flags payload c ℓ c ℓ

/-- The payload of a segment is delivered and answered, the connection closed, and the segment
acknowledged. -/
inductive Accepts (p : Nat) (seg : Segment) (c : Conn) (ℓ : Lifetime) : Conn → Lifetime → Prop where
  | mk {c₁ c₂ c₃ : Conn} {ℓ₁ ℓ₂ ℓ₃ : Lifetime} :
      Sends p (tcpFlagPsh ||| tcpFlagAck) httpResponse
        { c with rcvNxt := c.rcvNxt + (UInt16.ofNat seg.payload.length).toUInt32 }
        (ℓ.add (.dispatched p seg.payload)) c₁ ℓ₁ →
      Sends p (tcpFlagFin ||| tcpFlagAck) [] { c₁ with state := .lastAck } ℓ₁ c₂ ℓ₂ →
      Sends p tcpFlagAck [] c₂ ℓ₂ c₃ ℓ₃ → Accepts p seg c ℓ c₃ ℓ₃

/-- A FIN is acknowledged and the connection closed. -/
inductive Finishes (p : Nat) (seg : Segment) (c : Conn) (ℓ : Lifetime) :
    Conn → Lifetime → Prop where
  | mk {c₁ c₂ : Conn} {ℓ₁ ℓ₂ : Lifetime} :
      Sends p tcpFlagAck [] { c with rcvNxt := seg.seq + 1 } ℓ c₁ ℓ₁ →
      Sends p (tcpFlagFin ||| tcpFlagAck) [] { c₁ with state := .lastAck } ℓ₁ c₂ ℓ₂ →
      Finishes p seg c ℓ c₂ ℓ₂

/-- The segment changes nothing in a connection of this state. -/
def Conn.Ignores (c : Conn) (seg : Segment) : Prop :=
  match c.state with
  | .established => ¬ c.Expects seg ∧ ¬ seg.Has tcpFlagFin
  | _ => ¬ seg.Has tcpFlagAck

/-- What becomes of a settled connection and its lifetime when a segment arrives. -/
inductive Responds (p : Nat) (seg : Segment) (c : Conn) (ℓ : Lifetime) :
    Option Conn → Lifetime → Prop where
  | ignored : c.Ignores seg → Responds p seg c ℓ (some c) ℓ
  | handshake : c.state = .synReceived → seg.Has tcpFlagAck →
      Responds p seg c ℓ (some { c with sndUna := seg.ack, state := .established }) ℓ
  | data {c' : Conn} {ℓ' : Lifetime} : c.state = .established → c.Expects seg →
      ¬ seg.Has tcpFlagFin → Accepts p seg c ℓ c' ℓ' → Responds p seg c ℓ (some c') ℓ'
  | fin {c' : Conn} {ℓ' : Lifetime} : c.state = .established → ¬ c.Expects seg →
      seg.Has tcpFlagFin → Finishes p seg c ℓ c' ℓ' → Responds p seg c ℓ (some c') ℓ'
  | dataFin {c₁ c' : Conn} {ℓ₁ ℓ' : Lifetime} : c.state = .established → c.Expects seg →
      seg.Has tcpFlagFin → Accepts p seg c ℓ c₁ ℓ₁ → Finishes p seg c₁ ℓ₁ c' ℓ' →
      Responds p seg c ℓ (some c') ℓ'
  | removed : c.state = .lastAck → seg.Has tcpFlagAck →
      Responds p seg c ℓ none (ℓ.add (.removed p))

/-! ## What sending leaves alone -/

section Fields

variable {p : Nat} {flags : UInt8} {payload : List UInt8} {seg : Segment} {c c' : Conn}
  {ℓ ℓ' : Lifetime}

theorem Sends.state (h : Sends p flags payload c ℓ c' ℓ') : c'.state = c.state := by
  cases h <;> rfl

theorem Sends.sndUna (h : Sends p flags payload c ℓ c' ℓ') : c'.sndUna = c.sndUna := by
  cases h <;> rfl

/-- A connection that accepted a payload is closing. -/
theorem Accepts.state (h : Accepts p seg c ℓ c' ℓ') : c'.state = .lastAck := by
  obtain ⟨-, hfin, hack⟩ := h
  rw [hack.state, hfin.state]

/-- A connection that received a FIN is closing. -/
theorem Finishes.state (h : Finishes p seg c ℓ c' ℓ') : c'.state = .lastAck := by
  obtain ⟨-, hfin⟩ := h
  rw [hfin.state]

/-- The event is an output of a connection: a segment or a delivered payload. -/
def Event.IsOutput : Event → Prop
  | .handed .. => True
  | .dispatched .. => True
  | _ => False

/-- The lifetime went on with outputs. -/
structure Lifetime.Continues (ℓ ℓ' : Lifetime) : Prop where
  isn : ℓ'.isn = ℓ.isn
  irs : ℓ'.irs = ℓ.irs
  events : ∃ new, ℓ'.events = new ++ ℓ.events ∧ ∀ e ∈ new, e.IsOutput

theorem Lifetime.Continues.refl (ℓ : Lifetime) : ℓ.Continues ℓ := ⟨rfl, rfl, [], rfl, by simp⟩

theorem Lifetime.Continues.trans {ℓ'' : Lifetime} (h : ℓ.Continues ℓ') (h' : ℓ'.Continues ℓ'') :
    ℓ.Continues ℓ'' where
  isn := h'.isn.trans h.isn
  irs := h'.irs.trans h.irs
  events := by
    obtain ⟨new, hevents, hnew⟩ := h.events
    obtain ⟨new', hevents', hnew'⟩ := h'.events
    refine ⟨new' ++ new, by rw [hevents', hevents, List.append_assoc], ?_⟩
    exact List.forall_mem_append.mpr ⟨hnew', hnew⟩

theorem Lifetime.continues_add (ℓ : Lifetime) {e : Event} (he : e.IsOutput) :
    ℓ.Continues (ℓ.add e) :=
  ⟨rfl, rfl, [e], rfl, by simpa using he⟩

theorem Sends.continues (h : Sends p flags payload c ℓ c' ℓ') : ℓ.Continues ℓ' := by
  cases h with
  | sent => exact ℓ.continues_add trivial
  | dropped => exact .refl ℓ

theorem Accepts.continues (h : Accepts p seg c ℓ c' ℓ') : ℓ.Continues ℓ' := by
  obtain ⟨hresponse, hfin, hack⟩ := h
  have hnoted : ℓ.Continues (ℓ.add (.dispatched p seg.payload)) := ℓ.continues_add trivial
  exact hnoted.trans (hresponse.continues.trans (hfin.continues.trans hack.continues))

theorem Finishes.continues (h : Finishes p seg c ℓ c' ℓ') : ℓ.Continues ℓ' := by
  obtain ⟨hack, hfin⟩ := h
  exact hack.continues.trans hfin.continues

theorem Accepts.sndUna (h : Accepts p seg c ℓ c' ℓ') : c'.sndUna = c.sndUna := by
  obtain ⟨hresponse, hfin, hack⟩ := h
  rw [hack.sndUna, hfin.sndUna, hresponse.sndUna]

theorem Finishes.sndUna (h : Finishes p seg c ℓ c' ℓ') : c'.sndUna = c.sndUna := by
  obtain ⟨hack, hfin⟩ := h
  rw [hfin.sndUna, hack.sndUna]

end Fields

/-! ## Inverting traces -/

section Inversion

variable {p : Nat} {seg : Segment} {acts acts' : List Act} {c : Conn} {o d : Option Conn}
  {ℓ ℓ' : Lifetime}

theorem Traces.append (h : Traces p (acts ++ acts') o ℓ d ℓ') :
    ∃ o₁ ℓ₁, Traces p acts o ℓ o₁ ℓ₁ ∧ Traces p acts' o₁ ℓ₁ d ℓ' := by
  induction acts generalizing o ℓ with
  | nil => exact ⟨o, ℓ, .nil o ℓ, h⟩
  | cons a acts ih =>
      cases h with
      | update h =>
          obtain ⟨o₁, ℓ₁, h₁, h₂⟩ := ih h
          exact ⟨o₁, ℓ₁, .update h₁, h₂⟩
      | note h =>
          obtain ⟨o₁, ℓ₁, h₁, h₂⟩ := ih h
          exact ⟨o₁, ℓ₁, .note h₁, h₂⟩
      | sent h =>
          obtain ⟨o₁, ℓ₁, h₁, h₂⟩ := ih h
          exact ⟨o₁, ℓ₁, .sent h₁, h₂⟩
      | dropped h =>
          obtain ⟨o₁, ℓ₁, h₁, h₂⟩ := ih h
          exact ⟨o₁, ℓ₁, .dropped h₁, h₂⟩
      | remove h =>
          obtain ⟨o₁, ℓ₁, h₁, h₂⟩ := ih h
          exact ⟨o₁, ℓ₁, .remove h₁, h₂⟩

theorem Traces.send {flags : UInt8} {payload : List UInt8}
    (h : Traces p (.send flags payload :: acts) (some c) ℓ d ℓ') :
    ∃ c₁ ℓ₁, Sends p flags payload c ℓ c₁ ℓ₁ ∧ Traces p acts (some c₁) ℓ₁ d ℓ' := by
  cases h with
  | sent h => exact ⟨_, _, .sent, h⟩
  | dropped h => exact ⟨_, _, .dropped, h⟩

theorem Traces.single {flags : UInt8} {payload : List UInt8}
    (h : Traces p [.send flags payload] (some c) ℓ d ℓ') :
    ∃ c₁, d = some c₁ ∧ Sends p flags payload c ℓ c₁ ℓ' := by
  obtain ⟨c₁, ℓ₁, hsends, hnil⟩ := h.send
  cases hnil
  exact ⟨c₁, rfl, hsends⟩

theorem Traces.accept (h : Traces p (acceptActs p seg) (some c) ℓ d ℓ') :
    ∃ c', d = some c' ∧ Accepts p seg c ℓ c' ℓ' := by
  cases h with
  | update h =>
      obtain ⟨_, _, hdispatch, hack⟩ := h.append
      cases hdispatch with
      | note hdispatch =>
          obtain ⟨c₁, ℓ₁, hresponse, hclose⟩ := hdispatch.send
          cases hclose with
          | update hclose =>
              obtain ⟨c₂, rfl, hfin⟩ := hclose.single
              obtain ⟨c₃, rfl, hsends⟩ := hack.single
              exact ⟨c₃, rfl, .mk hresponse hfin hsends⟩

theorem Traces.finish (h : Traces p (finActs seg) (some c) ℓ d ℓ') :
    ∃ c', d = some c' ∧ Finishes p seg c ℓ c' ℓ' := by
  cases h with
  | update h =>
      obtain ⟨_, _, hack, hclose⟩ := h.append
      obtain ⟨c₁, rfl, hsends⟩ := hack.single
      cases hclose with
      | update hclose =>
          cases hclose with
          | update hclose =>
              obtain ⟨c₂, rfl, hfin⟩ := hclose.single
              exact ⟨c₂, rfl, .mk hsends hfin⟩

/-- The answers of a settled connection are the ones listed. -/
theorem Traces.respond (h : Traces p (c.respond p seg) (some c) ℓ d ℓ') (hc : c.state.Settled) :
    Responds p seg c ℓ d ℓ' := by
  -- one case for each settled state, split as the handlers split
  rcases hc with hstate | hstate | hstate
  · simp only [Conn.respond, hstate] at h
    split at h
    · rename_i hack
      cases h with
      | update h =>
          cases h with
          | update h =>
              cases h
              exact .handshake hstate hack
    · rename_i hack
      cases h
      exact .ignored (by simpa only [Conn.Ignores, hstate] using hack)
  · simp only [Conn.respond, hstate] at h
    obtain ⟨o₁, ℓ₁, haccept, hfin⟩ := h.append
    split at haccept
    · rename_i hexpects
      obtain ⟨c₁, rfl, haccepts⟩ := haccept.accept
      split at hfin
      · rename_i hflag
        obtain ⟨c₂, rfl, hfinishes⟩ := hfin.finish
        exact .dataFin hstate hexpects hflag haccepts hfinishes
      · rename_i hflag
        cases hfin
        exact .data hstate hexpects hflag haccepts
    · rename_i hexpects
      cases haccept
      split at hfin
      · rename_i hflag
        obtain ⟨c₂, rfl, hfinishes⟩ := hfin.finish
        exact .fin hstate hexpects hflag hfinishes
      · rename_i hflag
        cases hfin
        exact .ignored (by simpa only [Conn.Ignores, hstate] using ⟨hexpects, hflag⟩)
  · simp only [Conn.respond, hstate] at h
    split at h
    · rename_i hack
      cases h with
      | update h =>
          cases h with
          | remove h =>
              cases h
              exact .removed hstate hack
    · rename_i hack
      cases h
      exact .ignored (by simpa only [Conn.Ignores, hstate] using hack)

end Inversion

end Aether.Ethernet
