import Aether.Ethernet.SendSpec
import Aether.Ethernet.Tcp
import Mathlib.Logic.Relation

/-!
# The server without its memory

What the TCP layer is for: a table of connections, each named by the address of its TCB, the next
initial sequence number, and the record of what was done. A received segment makes the server
perform a list of acts (`Conn.respond`) on the connection it belongs to. A transmission may be
dropped for lack of memory, or lose its frame to a full ring; everything else always happens.
-/

namespace Aether.Ethernet

open Common

/-- The TCP layer's state. -/
structure Server where
  conns : List (Nat × Conn)
  isn : UInt32
  log : List Event

namespace Server

/-- Record an event. -/
def record (s : Server) (e : Event) : Server := { s with log := e :: s.log }

/-- Change the connection at `p`. -/
def update (s : Server) (p : Nat) (f : Conn → Conn) : Server :=
  { s with conns := s.conns.map fun e ↦ if e.1 = p then (e.1, f e.2) else e }

/-- Drop the connection at `p`. -/
def remove (s : Server) (p : Nat) : Server :=
  { s with conns := s.conns.filter fun e ↦ e.1 ≠ p }

/-- The first connection with the given 4-tuple. -/
def find (s : Server) (srcIp : UInt32) (srcPort : UInt16) (dstIp : UInt32) (dstPort : UInt16) :
    Option (Nat × Conn) :=
  s.conns.find? fun e ↦ e.2.Matches srcIp srcPort dstIp dstPort

/-- Two changes of one connection are a single one. -/
theorem update_update (s : Server) (p : Nat) (f g : Conn → Conn) :
    (s.update p f).update p g = s.update p (g ∘ f) := by
  simp only [update, List.map_map, Server.mk.injEq, and_true]
  refine List.map_congr_left fun e _ ↦ ?_
  simp only [Function.comp]
  split <;> simp_all

/-- The changed connection is in the table. -/
theorem mem_update {s : Server} {p : Nat} {c : Conn} (hc : (p, c) ∈ s.conns) (f : Conn → Conn) :
    (p, f c) ∈ (s.update p f).conns :=
  List.mem_map.mpr ⟨(p, c), hc, by simp⟩

/-- Changing the connection in front when its address occurs nowhere else. -/
theorem update_cons {p : Nat} {c : Conn} {conns : List (Nat × Conn)} {isn : UInt32}
    {log : List Event} (hp : p ∉ conns.map Prod.fst) (f : Conn → Conn) :
    update ⟨(p, c) :: conns, isn, log⟩ p f = ⟨(p, f c) :: conns, isn, log⟩ := by
  have hother : ∀ e ∈ conns, e.1 ≠ p := fun e he heq ↦ hp (heq ▸ List.mem_map_of_mem he)
  simp only [update, List.map_cons, ↓reduceIte, mk.injEq, List.cons.injEq, true_and, and_true]
  exact List.map_congr_left (g := id) (fun e he ↦ if_neg (hother e he)) |>.trans (List.map_id _)

end Server

/-- The segment that a connection sends, complete with its checksum. -/
def tcpSegment (c : Conn) (flags : UInt8) (payload : List UInt8) : List UInt8 :=
  let hdr := c.header flags
  { hdr with
    checksum := tcpComputeChecksum c.localIp c.remoteIp (hdr.bytes ++ payload) }.bytes ++ payload

/-- The connection after a segment took up its part of the sequence space. -/
def Conn.advance (flags : UInt8) (payload : List UInt8) (c : Conn) : Conn :=
  { c with
    sndNxt := (if flags &&& (tcpFlagSyn ||| tcpFlagFin) ≠ 0 then c.sndNxt + 1 else c.sndNxt) +
      (UInt16.ofNat payload.length).toUInt32 }

@[simp] theorem Conn.advance_state (flags : UInt8) (payload : List UInt8) (c : Conn) :
    (c.advance flags payload).state = c.state := rfl

/-- What a transmission records of its frame's fate. -/
def Event.IsTransport : Event → Prop
  | .transmitted _ => True
  | .ringFull => True
  | .noMemory => True
  | _ => False

/-- An act of the server on one connection. -/
inductive Act where
  | update (f : Conn → Conn)
  | note (e : Event)
  | send (flags : UInt8) (payload : List UInt8)
  | remove

/-- What an act on the connection at `p` can do. -/
inductive Does (p : Nat) : Act → Server → Server → Prop where
  | update (f : Conn → Conn) (s : Server) : Does p (.update f) s (s.update p f)
  | note (e : Event) (s : Server) : Does p (.note e) s (s.record e)
  | sent {flags : UInt8} {payload : List UInt8} {s : Server} {c : Conn} {e : Event} :
      (p, c) ∈ s.conns → e.IsTransport →
      Does p (.send flags payload) s
        (((s.record (.handed p c (tcpSegment c flags payload))).record e).update p
          (Conn.advance flags payload))
  | dropped (flags : UInt8) (payload : List UInt8) (s : Server) :
      Does p (.send flags payload) s (s.record .noMemory)
  | remove (s : Server) : Does p .remove s ((s.remove p).record (.removed p))

/-- Acts performed one after the other. -/
inductive Performs (p : Nat) : List Act → Server → Server → Prop where
  | nil (s : Server) : Performs p [] s s
  | cons {a : Act} {acts : List Act} {s s' s'' : Server} :
      Does p a s s' → Performs p acts s' s'' → Performs p (a :: acts) s s''

theorem Performs.single {p : Nat} {a : Act} {s s' : Server} (h : Does p a s s') :
    Performs p [a] s s' :=
  .cons h (.nil s')

theorem Performs.append {p : Nat} {acts acts' : List Act} {s s' s'' : Server}
    (h : Performs p acts s s') (h' : Performs p acts' s' s'') :
    Performs p (acts ++ acts') s s'' := by
  induction h with
  | nil => exact h'
  | cons hdoes _ ih => exact .cons hdoes (ih h')

/-! ## The server's answers -/

/-- `tcp_send_ack`. -/
def ackActs : List Act := [.send tcpFlagAck []]

/-- `tcp_close` of an open connection. -/
def closeActs : List Act :=
  [.update fun c ↦ { c with state := .lastAck }, .send (tcpFlagFin ||| tcpFlagAck) []]

/-- `socket_dispatch` on an established connection. -/
def dispatchActs (p : Nat) (payload : List UInt8) : List Act :=
  .note (.dispatched p payload) :: .send (tcpFlagPsh ||| tcpFlagAck) httpResponse :: closeActs

/-- The segment carries data that the connection expects next. -/
def Conn.Expects (c : Conn) (seg : Segment) : Prop :=
  UInt16.ofNat seg.payload.length > 0 ∧ seg.seq = c.rcvNxt

instance (c : Conn) (seg : Segment) : Decidable (c.Expects seg) :=
  inferInstanceAs (Decidable (_ ∧ _))

/-- The segment has the given flag set. -/
def Segment.Has (seg : Segment) (flag : UInt8) : Prop := seg.flags &&& flag ≠ 0

instance (seg : Segment) (flag : UInt8) : Decidable (seg.Has flag) :=
  inferInstanceAs (Decidable (_ ≠ _))

/-- Accepting the payload of an expected segment. -/
def acceptActs (p : Nat) (seg : Segment) : List Act :=
  .update (fun c ↦ { c with rcvNxt := c.rcvNxt + (UInt16.ofNat seg.payload.length).toUInt32 }) ::
    (dispatchActs p seg.payload ++ ackActs)

/-- Handling a FIN. -/
def finActs (seg : Segment) : List Act :=
  .update (fun c ↦ { c with rcvNxt := seg.seq + 1 }) ::
    (ackActs ++ .update (fun c ↦ { c with state := .closeWait }) :: closeActs)

/-- How a connection answers a segment. -/
def Conn.respond (p : Nat) (c : Conn) (seg : Segment) : List Act :=
  match c.state with
  | .synReceived =>
      if seg.Has tcpFlagAck then
        [.update fun c ↦ { c with sndUna := seg.ack },
          .update fun c ↦ { c with state := .established }]
      else []
  | .established =>
      (if c.Expects seg then acceptActs p seg else []) ++
      (if seg.Has tcpFlagFin then finActs seg else [])
  | .lastAck =>
      if seg.Has tcpFlagAck then [.update fun c ↦ { c with state := .closed }, .remove] else []
  -- a reset means something only in the states without a case of their own
  | _ => if seg.Has tcpFlagRst then [.remove] else []

/-- The segment opens a connection when it belongs to none. -/
def Segment.Opens (seg : Segment) : Prop := seg.Has tcpFlagSyn ∧ seg.dstPort = 80

instance (seg : Segment) : Decidable seg.Opens := inferInstanceAs (Decidable (_ ∧ _))

/-- The connection that a segment opens. -/
def Segment.opened (seg : Segment) (srcIp dstIp isn : UInt32) : Conn where
  localIp := dstIp
  remoteIp := srcIp
  localPort := seg.dstPort
  remotePort := seg.srcPort
  state := .synReceived
  sndUna := isn
  sndNxt := isn
  rcvNxt := seg.seq + 1
  rcvWnd := tcpDefaultWindow
  sndWnd := tcpDefaultWindow

/-- The segment that `tcp_send_rst` sends, complete with its checksum. -/
def rstSegment (srcIp dstIp : UInt32) (srcPort dstPort : UInt16) (seq ack : UInt32) :
    List UInt8 :=
  let hdr := rstHeader srcPort dstPort seq ack
  { hdr with checksum := tcpComputeChecksum srcIp dstIp hdr.bytes }.bytes

/-- The reset that answers a segment which belongs to no connection and opens none. -/
def resetSegment (srcIp dstIp : UInt32) (seg : Segment) : List UInt8 :=
  rstSegment dstIp srcIp seg.dstPort seg.srcPort seg.ack 0

/-- What a valid segment makes the server do. -/
inductive Server.Receives (srcIp dstIp : UInt32) (seg : Segment) : Server → Server → Prop where
  | found {s s' : Server} {p : Nat} {c : Conn} :
      s.find srcIp seg.srcPort dstIp seg.dstPort = some (p, c) →
      Performs p (c.respond p seg) (s.record (.lookup srcIp dstIp seg (some (p, c)))) s' →
      Receives srcIp dstIp seg s s'
  | refused {s : Server} :
      s.find srcIp seg.srcPort dstIp seg.dstPort = none → seg.Opens →
      Receives srcIp dstIp seg s ((s.record (.lookup srcIp dstIp seg none)).record .noMemory)
  | opened {s s' : Server} {p : Nat} :
      s.find srcIp seg.srcPort dstIp seg.dstPort = none → seg.Opens →
      p ∉ s.conns.map Prod.fst →
      Performs p [.send (tcpFlagSyn ||| tcpFlagAck) []]
        { conns := (p, seg.opened srcIp dstIp s.isn) :: s.conns
          isn := s.isn + 1000
          log := .passiveOpen p s.isn seg.seq :: .lookup srcIp dstIp seg none :: s.log } s' →
      Receives srcIp dstIp seg s s'
  | reset {s : Server} {e : Event} :
      s.find srcIp seg.srcPort dstIp seg.dstPort = none → ¬ seg.Opens → e.IsTransport →
      Receives srcIp dstIp seg s
        (((s.record (.lookup srcIp dstIp seg none)).record
          (.reset dstIp srcIp (resetSegment srcIp dstIp seg))).record e)

/-- Events of the layers below. -/
def Event.IsBelow (e : Event) : Prop := e.IsTransport ∨ ∃ frame, e = .received frame

/-- One step of a server with address `ip`: a segment of at most `2 ^ 16` bytes arrives for it, or
the layers below record something. -/
inductive Server.Step (ip : UInt32) : Server → Server → Prop where
  | receive {srcIp : UInt32} {seg : Segment} {s s' : Server} :
      seg.payload.length < 2 ^ 16 → Receives srcIp ip seg s s' → Step ip s s'
  | record {e : Event} (s : Server) : e.IsBelow → Step ip s (s.record e)

/-- A run of the server. -/
abbrev Server.Run (ip : UInt32) : Server → Server → Prop := Relation.ReflTransGen (Step ip)

/-! ## What acts leave alone -/

/-- What one act does to the connection it is performed on. -/
def Act.Changes : Act → Conn → Conn → Prop
  | .update f, c, c' => c' = f c
  | .note _, c, c' => c' = c
  | .send flags payload, c, c' => c' = c ∨ c' = c.advance flags payload
  | .remove, _, _ => False

/-- After an act other than a removal the connection is still there. -/
theorem Does.conn {p : Nat} {a : Act} {s s' : Server} (h : Does p a s s') (ha : a ≠ .remove)
    {c : Conn} (hc : (p, c) ∈ s.conns) : ∃ c', (p, c') ∈ s'.conns ∧ a.Changes c c' := by
  cases h with
  | update f => exact ⟨f c, Server.mem_update hc f, rfl⟩
  | note e => exact ⟨c, hc, rfl⟩
  | sent hmem he => exact ⟨_, Server.mem_update hc _, .inr rfl⟩
  | dropped => exact ⟨c, hc, .inl rfl⟩
  | remove => exact absurd rfl ha

/-- After acts that remove nothing the connection is still there. -/
theorem Performs.conn {p : Nat} {acts : List Act} {s s' : Server} (h : Performs p acts s s')
    (hacts : .remove ∉ acts) {c : Conn} (hc : (p, c) ∈ s.conns) : ∃ c', (p, c') ∈ s'.conns := by
  induction h generalizing c with
  | nil => exact ⟨c, hc⟩
  | @cons a acts _ _ _ hdoes _ ih =>
      obtain ⟨ha, hrest⟩ := List.ne_and_not_mem_of_not_mem_cons hacts
      obtain ⟨c', hc', -⟩ := hdoes.conn ha.symm hc
      exact ih hrest hc'

end Aether.Ethernet
