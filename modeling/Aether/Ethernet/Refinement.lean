import Aether.Ethernet.Server

/-!
# Refinement of the server

`Node.server` is the server that a node's TCBs make up. `Refines x R L σ` says that the action `x`
returns, that the heap blocks are accounted for before and after it, and that the server moves
along `R`. The rules below sequence actions that perform acts.
-/

namespace Aether.Ethernet

open ByteMemory Kernel Drivers Common Program

/-- The server that a node runs, its connections in list order. -/
def Node.server (σ : Node) (L : Ledger) : Server where
  conns := L.tcbs.map fun b ↦ (b.ptr, b.conn)
  isn := σ.tcpGlobalIsn
  log := σ.log

/-- The node kept its own addresses. -/
structure Node.SameAddresses (σ σ' : Node) : Prop where
  mac : σ'.aetherMac = σ.aetherMac
  ip : σ'.aetherIp = σ.aetherIp

/-- `x`, started in `σ`, returns and moves the server along `R`. -/
def Refines (x : Action Unit) (R : Server → Server → Prop) (L : Ledger) (σ : Node) : Prop :=
  wp x (fun _ σ' ↦ ∃ L' : Ledger, L'.Holds σ' [] ∧ σ.SameAddresses σ' ∧
    R (σ.server L) (σ'.server L')) σ

section Basics

variable {L L' : Ledger} {σ σ' : Node} {held : List Region} {p : Nat} {c : Conn}

theorem Node.SameAddresses.refl (σ : Node) : σ.SameAddresses σ := ⟨rfl, rfl⟩

theorem Node.SameAddresses.trans {σ'' : Node} (h : σ.SameAddresses σ') (h' : σ'.SameAddresses σ'') :
    σ.SameAddresses σ'' where
  mac := h'.mac.trans h.mac
  ip := h'.ip.trans h.ip

/-- An assignment to other fields between two actions does not matter. -/
theorem Node.SameAddresses.via {σ₁ σ₂ : Node} (h : σ.SameAddresses σ₁) (h' : σ₂.SameAddresses σ')
    (hbetween : σ₁.SameAddresses σ₂) : σ.SameAddresses σ' :=
  h.trans (hbetween.trans h')

/-- Transmission does not touch the addresses. -/
theorem Transmits.addresses {events : List Event} (h : Transmits σ σ' events) :
    σ.SameAddresses σ' := by
  obtain ⟨heap, stats, vq, rfl⟩ := h
  exact ⟨rfl, rfl⟩

/-- Transmission changes only the server's log. -/
theorem Transmits.server {events : List Event} (h : Transmits σ σ' events)
    (hsame : L.SameTcbs L') :
    σ'.server L' = { σ.server L with log := events ++ σ.log } := by
  obtain ⟨heap, stats, vq, rfl⟩ := h
  simp only [Node.server, hsame.2]

/-- The server's connections are the ledger's. -/
theorem mem_conns : (p, c) ∈ (σ.server L).conns ↔ ∃ b ∈ L.tcbs, b.ptr = p ∧ b.conn = c := by
  simp [Node.server]

@[simp] theorem server_update (p : Nat) (f : Conn → Conn) :
    σ.server (L.update p f) = (σ.server L).update p f := by
  simp only [Node.server, Server.update, Ledger.update, List.map_map, Server.mk.injEq, and_true]
  refine List.map_congr_left fun b _ ↦ ?_
  simp only [Function.comp]
  split <;> rfl

/-- No connection is at `NULL`. -/
theorem Ledger.Holds.conn_ne_zero (h : L.Holds σ held) (hc : (p, c) ∈ (σ.server L).conns) :
    p ≠ 0 := by
  obtain ⟨b, hb, rfl, rfl⟩ := mem_conns.mp hc
  exact h.tcb_ne_zero hb

/-- A connection can be read. -/
theorem Ledger.Holds.readConn (h : L.Holds σ held) (hc : (p, c) ∈ (σ.server L).conns) :
    ∃ next < 2 ^ 64, (Ethernet.readTcb p).run σ = some (⟨c, next⟩, σ) := by
  obtain ⟨b, hb, rfl, rfl⟩ := mem_conns.mp hc
  obtain ⟨next, hnext, -, hrun⟩ := h.readTcb hb
  exact ⟨next, hnext, hrun⟩

/-- Assigning to the fields of a connection returns, and changes no block of the heap. -/
theorem updateTcb_run (h : L.Holds σ []) (hc : (p, c) ∈ (σ.server L).conns) {f : Tcb → Tcb}
    {g : Conn → Conn} (hf : ∀ c next, f ⟨c, next⟩ = ⟨g c, next⟩) :
    ∃ (L' : Ledger) (σ' : Node), (updateTcb p f).run σ = some ((), σ') ∧ L'.Holds σ' [] ∧
      σ.SameAddresses σ' ∧ σ'.server L' = (σ.server L).update p g ∧
      σ.heap.SameBlocks σ'.heap := by
  obtain ⟨b, hb, rfl, rfl⟩ := mem_conns.mp hc
  obtain ⟨⟨⟩, _, hrun, hL, heap, hblocks, rfl⟩ := h.updateTcb hb hf
  exact ⟨_, _, hrun, hL, ⟨rfl, rfl⟩, server_update b.ptr g, hblocks⟩

/-- Assigning to the fields of a connection. -/
theorem updateTcb_spec (h : L.Holds σ []) (hc : (p, c) ∈ (σ.server L).conns) {f : Tcb → Tcb}
    {g : Conn → Conn} (hf : ∀ c next, f ⟨c, next⟩ = ⟨g c, next⟩) :
    Refines (updateTcb p f) (fun s s' ↦ s' = s.update p g) L σ := by
  obtain ⟨L', σ', hrun, hL', haddresses, hserver, -⟩ := updateTcb_run h hc hf
  exact ⟨(), σ', hrun, L', hL', haddresses, hserver⟩

/-- The update of a connection as an act. -/
theorem updateTcb_does (h : L.Holds σ []) (hc : (p, c) ∈ (σ.server L).conns) {f : Tcb → Tcb}
    {g : Conn → Conn} (hf : ∀ c next, f ⟨c, next⟩ = ⟨g c, next⟩) :
    Refines (updateTcb p f) (Does p (.update g)) L σ := by
  refine wp_mono (updateTcb_spec h hc hf) ?_
  rintro _ σ' ⟨L', hL', haddresses, hserver⟩
  exact ⟨L', hL', haddresses, hserver ▸ .update g _⟩

/-- Recording an event as an act. -/
theorem note_does (h : L.Holds σ []) (p : Nat) {e : Event} (he : e.Leaks = false) :
    Refines (note e) (Does p (.note e)) L σ := by
  simp only [Refines, wp_note]
  exact ⟨L, h.record he, ⟨rfl, rfl⟩, .note e _⟩

end Basics

/-! ## Sequences of acts -/

section Sequences

variable {L : Ledger} {σ : Node} {p : Nat} {c : Conn} {R R' R'' : Server → Server → Prop}

/-- A weaker relation is followed too. -/
theorem Refines.mono {x : Action Unit} (h : Refines x R L σ)
    (hR : ∀ s', R (σ.server L) s' → R' (σ.server L) s') : Refines x R' L σ := by
  refine wp_mono h ?_
  rintro _ σ' ⟨L', hL', haddresses, hrel⟩
  exact ⟨L', hL', haddresses, hR _ hrel⟩

/-- Two actions in sequence follow both relations. -/
theorem Refines.seq {x : Action Unit} {y : Unit → Action Unit} (hx : Refines x R L σ)
    (hy : ∀ L' σ', L'.Holds σ' [] → R (σ.server L) (σ'.server L') → Refines (y ()) R' L' σ')
    (hR : ∀ s' s'', R (σ.server L) s' → R' s' s'' → R'' (σ.server L) s'') :
    Refines (x >>= y) R'' L σ := by
  simp only [Refines, wp_bind]
  refine wp_mono hx ?_
  rintro _ σ' ⟨L', hL', haddresses, hrel⟩
  refine wp_mono (hy L' σ' hL' hrel) ?_
  rintro _ σ'' ⟨L'', hL'', haddresses', hrel'⟩
  exact ⟨L'', hL'', haddresses.trans haddresses', hR _ _ hrel hrel'⟩

/-- An action after an event was recorded. -/
theorem Refines.afterNote {y : Unit → Action Unit} {e : Event}
    (hy : Refines (y ()) R L { σ with log := e :: σ.log }) :
    Refines (note e >>= y) (fun s s' ↦ R (s.record e) s') L σ := by
  rw [Refines, wp_bind, wp_note]
  refine wp_mono hy ?_
  rintro _ σ' ⟨L', hL', haddresses, hrel⟩
  exact ⟨L', hL', (Node.SameAddresses.refl σ).via haddresses ⟨rfl, rfl⟩, hrel⟩

/-- An action after assignments that neither the server nor the addresses depend on. -/
theorem Refines.after {x : Action Unit} {σ₁ : Node} (hx : Refines x R L σ₁)
    (haddresses : σ.SameAddresses σ₁) (hserver : σ₁.server L = σ.server L) :
    wp x (fun _ σ' ↦ ∃ L' : Ledger, L'.Holds σ' [] ∧ σ.SameAddresses σ' ∧
      R (σ.server L) (σ'.server L')) σ₁ := by
  refine wp_mono hx ?_
  rintro _ σ' ⟨L', hL', haddresses', hrel⟩
  exact ⟨L', hL', haddresses.trans haddresses', hserver ▸ hrel⟩

/-- Doing nothing is a run of the server. -/
theorem Refines.idle (h : L.Holds σ []) (ip : UInt32) :
    Refines (pure ()) (Server.Run ip) L σ := by
  rw [Refines, wp_pure]
  exact ⟨L, h, .refl σ, .refl⟩

/-- Doing nothing performs no act. -/
theorem Refines.nil (h : L.Holds σ []) (p : Nat) : Refines (pure ()) (Performs p []) L σ := by
  simp only [Refines, wp_pure]
  exact ⟨L, h, .refl σ, .nil _⟩

/-- One act alone. -/
theorem Refines.single {x : Action Unit} {a : Act} (hx : Refines x (Does p a) L σ) :
    Refines x (Performs p [a]) L σ :=
  hx.mono fun _ h ↦ .single h

/-- An act before others, which see what it made of the connection. -/
theorem Refines.cons {x : Action Unit} {y : Unit → Action Unit} {a : Act} {acts : List Act}
    (hx : Refines x (Does p a) L σ) (ha : a ≠ .remove) (hc : (p, c) ∈ (σ.server L).conns)
    (hy : ∀ L' σ' c', L'.Holds σ' [] → (p, c') ∈ (σ'.server L').conns → a.Changes c c' →
      Refines (y ()) (Performs p acts) L' σ') :
    Refines (x >>= y) (Performs p (a :: acts)) L σ := by
  refine hx.seq (fun L' σ' hL' hdoes ↦ ?_) fun s' s'' h (h' : Performs p acts s' s'') ↦ .cons h h'
  obtain ⟨c', hc', hchange⟩ := hdoes.conn ha hc
  exact hy L' σ' c' hL' hc' hchange

/-- Acts before others, which find the connection still there. -/
theorem Refines.append {x : Action Unit} {y : Unit → Action Unit} {acts acts' : List Act}
    (hx : Refines x (Performs p acts) L σ) (hacts : .remove ∉ acts)
    (hc : (p, c) ∈ (σ.server L).conns)
    (hy : ∀ L' σ' c', L'.Holds σ' [] → (p, c') ∈ (σ'.server L').conns →
      Refines (y ()) (Performs p acts') L' σ') :
    Refines (x >>= y) (Performs p (acts ++ acts')) L σ := by
  refine hx.seq (fun L' σ' hL' hdoes ↦ ?_) fun s' s'' h (h' : Performs p acts' s' s'') ↦ h.append h'
  obtain ⟨c', hc'⟩ := hdoes.conn hacts hc
  exact hy L' σ' c' hL' hc'

end Sequences

end Aether.Ethernet
