import Aether.Ethernet.NodeRuns
import Aether.Ethernet.ServerRuns

/-!
# The connections of a running node

What `tcp_tcb_list` looks like in memory in every state that a node reaches, and that no function
of the TCP layer ever touches a TCB that has been released.
-/

namespace Aether.Ethernet

open ByteMemory Kernel Drivers Common Program Transition

/-- The TCBs met by following `next` from `cur`, `none` when the walk outlasts its fuel or meets a
block that holds no TCB. -/
def walkTcbs (mem : Memory) : Nat → Nat → Option (List (Nat × Conn))
  | 0, _ => none
  | fuel + 1, cur =>
      if cur = 0 then some []
      else match Tcb.ofBytes (readBytes mem cur sizeofTcb) with
        | none => none
        | some t => (walkTcbs mem fuel t.next).map ((cur, t.toConn) :: ·)

/-- The list from `tcp_tcb_list`, each TCB with its address. -/
def Node.connections (σ : Node) : Option (List (Nat × Conn)) :=
  walkTcbs σ.heap.mem (maxBlocks + 1) σ.tcpTcbList

/-- The buffers of the TX descriptors that are published or completed and not yet reaped. -/
def Node.outstandingBuffers (σ : Node) : List Nat :=
  (σ.txQueue.published ++ σ.txQueue.pendingIds).map fun id ↦ (σ.txQueue.desc id.toNat).addr

/-- The walk over a linked list ends and finds its TCBs. -/
theorem Linked.walkTcbs_eq {mem : Memory} {head fuel : Nat} {tcbs : List TcbBlock}
    (h : Linked mem head tcbs) (hne : ∀ b ∈ tcbs, b.ptr ≠ 0) (hfuel : tcbs.length < fuel) :
    walkTcbs mem fuel head = some (tcbs.map fun b ↦ (b.ptr, b.conn)) := by
  induction tcbs generalizing head fuel with
  | nil =>
      obtain ⟨fuel, rfl⟩ : ∃ n, fuel = n + 1 := ⟨fuel - 1, by rw [List.length_nil] at hfuel; omega⟩
      rw [show head = 0 from h, walkTcbs, if_pos rfl, List.map_nil]
  | cons b rest ih =>
      obtain ⟨fuel, rfl⟩ : ∃ n, fuel = n + 1 := ⟨fuel - 1, by rw [List.length_cons] at hfuel; omega⟩
      obtain ⟨rfl, next, hnext, hread, hrest⟩ := h
      rw [List.length_cons] at hfuel
      have hshorter : rest.length < fuel := by omega
      have hrec := ih hrest (fun c hc ↦ hne c (List.mem_cons_of_mem b hc)) hshorter
      rw [walkTcbs, if_neg (hne b List.mem_cons_self), hread, Tcb.ofBytes_bytes _ hnext]
      simp only [hrec, Option.map_some, List.map_cons]

section Sound

variable {c : Setup} {σ : Node} {L : Ledger} {held : List Region}

/-- The list in memory is the server's connection table. -/
theorem Ledger.Holds.connections_eq (h : L.Holds σ []) :
    σ.connections = some (σ.server L).conns :=
  h.linked.walkTcbs_eq (fun _ hb ↦ h.tcb_ne_zero hb) h.length_tcbs

/-- The TX buffers are the ledger's. -/
theorem Ledger.Holds.outstandingBuffers_perm (h : L.Holds σ held) :
    σ.outstandingBuffers.Perm (L.frames.map (·.ptr)) := by
  have haddr : (L.frames.map FrameBlock.id).map (fun id ↦ (σ.txQueue.desc id.toNat).addr) =
      L.frames.map (·.ptr) := by
    rw [List.map_map]
    exact List.map_congr_left fun f hf ↦ (h.buffers f hf).1
  exact haddr ▸ (h.outstanding.map _).symm

/-- Held blocks, TCBs and TX buffers are at distinct addresses. -/
theorem Ledger.Holds.separate (h : L.Holds σ held) :
    (held.map Region.ptr ++ (L.tcbs.map (·.ptr) ++ σ.outstandingBuffers)).Nodup := by
  have hnodup := h.owns.nodup
  simp only [Ledger.regions, List.map_append, List.map_cons, List.map_map] at hnodup
  have hblocks := hnodup.sublist
    ((List.sublist_cons_self L.dev.ptr _).append_left (held.map Region.ptr))
  rw [← List.append_assoc] at hblocks
  refine (List.Perm.nodup_iff (.append_left _ (.append_left _ ?_))).mpr hblocks.of_append_left
  exact h.outstandingBuffers_perm

/-- No TCB is a TX buffer. -/
theorem Ledger.Holds.tcb_not_outstanding (h : L.Holds σ held) {b : TcbBlock} (hb : b ∈ L.tcbs) :
    b.ptr ∉ σ.outstandingBuffers :=
  fun hmem ↦ List.disjoint_of_nodup_append h.separate.of_append_right
    (List.mem_map_of_mem hb) hmem

/-- The heap, the TCBs and the TX queue of a node are in order. -/
def Node.InOrder (σ : Node) : Prop := ∃ L : Ledger, L.Holds σ []

/-- Every reachable node is in order. -/
theorem Setup.Reaches.inOrder (h : c.Reaches σ) : σ.InOrder := by
  obtain ⟨L, hs⟩ := h.sound
  exact ⟨L, hs.holds⟩

/-- The table of a reachable node is in order. -/
theorem Setup.Sound.tabled (h : c.Sound σ L) : (σ.server L).Tabled c.ip :=
  h.run.tabled ⟨.nil, .nil, nofun, nofun, nofun⟩

end Sound

/-- In every reachable state the TCB list ends and visits distinct live heap blocks, none of them
the buffer of an outstanding TX descriptor; its connections have distinct 4-tuples, port 80, the
node's own address and a settled state; and every received frame and segment is handled without
touching a released TCB. -/
theorem tcb_list_invariant (c : Setup) (σ : Node) (h : c.Reaches σ) :
    ∃ conns live, σ.connections = some conns ∧ liveBlocks σ.heap = some live ∧
      (conns.map Prod.fst).Nodup ∧
      (∀ e ∈ conns, e.1 ∈ live ∧ e.1 ∉ σ.outstandingBuffers) ∧
      (conns.map fun e ↦ e.2.fourTuple).Nodup ∧
      (∀ e ∈ conns, e.2.localPort = 80 ∧ e.2.localIp = σ.aetherIp ∧ e.2.state.Settled) ∧
      (∀ data len, ∃ σ', (ethernetHandlePacket data len).run σ = some ((), σ')) ∧
      (∀ segment len srcIp, ∃ σ',
        (tcpInputProcess segment len srcIp σ.aetherIp).run σ = some ((), σ')) := by
  obtain ⟨L, hs⟩ := h.sound
  obtain ⟨live, hlive, hperm⟩ := hs.holds.owns.liveBlocks
  have htabled := hs.tabled
  refine ⟨_, live, hs.holds.connections_eq, hlive, htabled.addresses, ?_, htabled.tuples, ?_, ?_,
    ?_⟩
  · rintro ⟨p, conn⟩ he
    obtain ⟨b, hb, rfl, rfl⟩ := mem_conns.mp he
    refine ⟨hperm.mem_iff.mpr ?_, hs.holds.tcb_not_outstanding hb⟩
    exact List.mem_map.mpr ⟨b.toRegion, Ledger.mem_regions_of_tcb hb, rfl⟩
  · exact fun e he ↦ ⟨htabled.localPort e he, (htabled.localIp e he).trans hs.ip.symm,
      htabled.settled e he⟩
  · intro data len
    obtain ⟨_, σ', hrun, -⟩ := ethernetHandlePacket_spec hs.holds data len
    exact ⟨σ', hrun⟩
  · intro segment len srcIp
    obtain ⟨_, σ', hrun, -⟩ := tcpInputProcess_spec hs.holds segment len srcIp σ.aetherIp
    exact ⟨σ', hrun⟩

/-- After a SYN arrived and was answered, the one TCB in the list is a live block. -/
theorem tcb_list_invariant_syn : ∃ σ p conn live, Setup.sample.Reaches σ ∧
    σ.connections = some [(p, conn)] ∧ liveBlocks σ.heap = some live ∧ p ∈ live := by
  obtain ⟨σ, -, hreaches, hlength⟩ := Setup.exec_any .sample
    [.fromPeer 100 0 tcpFlagSyn []] (fun σ ↦ σ.connections.any fun conns ↦ conns.length == 1)
    (by decide +kernel)
  obtain ⟨conns, live, hconns, hlive, -, hblocks, -⟩ := tcb_list_invariant .sample σ hreaches
  rw [hconns, Option.any_some, beq_iff_eq] at hlength
  obtain ⟨⟨p, conn⟩, rfl⟩ := List.length_eq_one_iff.mp hlength
  exact ⟨σ, p, conn, live, hreaches, hconns, hlive, (hblocks (p, conn) (by simp)).1⟩

end Aether.Ethernet
