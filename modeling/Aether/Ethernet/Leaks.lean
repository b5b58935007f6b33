import Aether.Ethernet.Accounting

/-!
# Blocks that nobody frees

`tcp_send_segment` leaves its buffer to `net_tx_reaper`, which frees only the buffers of
descriptors. The first connection request therefore makes the heap lose a block; until one arrives
nothing is lost.
-/

namespace Aether.Ethernet

open ByteMemory Kernel Drivers Common Program Transition

/-! ## The server's record of handed segments -/

/-- The event hands a segment to the IP layer. -/
def Event.IsHanded : Event → Prop
  | .handed .. => True
  | _ => False

/-- The event is the arrival of a valid connection request. -/
def Event.Requests : Event → Prop
  | .lookup _ _ seg _ => seg.Opens
  | _ => False

instance (e : Event) : Decidable e.Requests :=
  match e with
  | .lookup _ _ seg _ => inferInstanceAs (Decidable seg.Opens)
  | .received _ | .passiveOpen .. | .removed _ | .handed .. | .reset .. | .dispatched ..
  | .transmitted _ | .ringFull | .noMemory => inferInstanceAs (Decidable False)

/-- Nothing was requested, opened or handed over so far. -/
structure Server.Untouched (s : Server) : Prop where
  conns : s.conns = []
  requests : ∀ e ∈ s.log, ¬ e.Requests
  handed : ∀ e ∈ s.log, ¬ e.IsHanded

/-- A request arrived, and a segment was handed over unless there was no memory for one. -/
structure Server.Answered (s : Server) : Prop where
  requests : ∃ e ∈ s.log, e.Requests
  handed : .noMemory ∈ s.log ∨ ∃ e ∈ s.log, e.IsHanded

namespace Server

variable {ip : UInt32} {s s' : Server}

theorem Answered.mono (h : s.Answered) (hlog : s.log <:+ s'.log) : s'.Answered where
  requests := h.requests.imp fun _ he ↦ ⟨hlog.subset he.1, he.2⟩
  handed := h.handed.imp (fun he ↦ hlog.subset he) fun he ↦
    he.imp fun _ he ↦ ⟨hlog.subset he.1, he.2⟩

/-- Recording an event that is neither a request nor a handover. -/
theorem Untouched.record (h : s.Untouched) {e : Event} (hrequest : ¬ e.Requests)
    (hhanded : ¬ e.IsHanded) : (s.record e).Untouched where
  conns := h.conns
  requests := List.forall_mem_cons.mpr ⟨hrequest, h.requests⟩
  handed := List.forall_mem_cons.mpr ⟨hhanded, h.handed⟩

/-- What the layers below record is neither. -/
theorem Untouched.below (h : s.Untouched) {e : Event} (he : e.IsBelow) :
    (s.record e).Untouched := by
  refine h.record ?_ ?_
  · rcases he with he | ⟨frame, rfl⟩
    · cases e <;> first | exact id | cases he
    · exact id
  · rcases he with he | ⟨frame, rfl⟩
    · cases e <;> first | exact id | cases he
    · exact id

/-- The first segment that changes anything is a request, and it is answered. -/
theorem Untouched.receives {srcIp : UInt32} {seg : Segment} (h : s.Untouched)
    (hreceives : Receives srcIp ip seg s s') : s'.Untouched ∨ s'.Answered := by
  cases hreceives with
  | found hfind =>
      rw [find, h.conns] at hfind
      cases hfind
  | refused _ hopens =>
      exact .inr ⟨⟨_, List.mem_cons_of_mem _ List.mem_cons_self, hopens⟩,
        .inl List.mem_cons_self⟩
  | opened _ hopens _ hperforms =>
      refine .inr ⟨⟨.lookup srcIp ip seg none, hperforms.log.subset ?_, hopens⟩, ?_⟩
      · exact List.mem_cons_of_mem _ List.mem_cons_self
      · cases hperforms with
        | cons hdoes hrest =>
            cases hrest
            cases hdoes with
            | sent hmem he =>
                exact .inr ⟨_, List.mem_cons_of_mem _ List.mem_cons_self, trivial⟩
            | dropped => exact .inl List.mem_cons_self
  | reset _ hopens he =>
      have hlookup := h.record (e := .lookup srcIp ip seg none) hopens id
      exact .inl ((hlookup.record id id).below (.inl he))

/-- A run of a fresh server leaves it untouched or has a request answered. -/
theorem Run.untouched_or_answered (h : Run ip s s') (hs : s.Untouched) :
    s'.Untouched ∨ s'.Answered := by
  induction h with
  | refl => exact .inl hs
  | tail _ hstep ih =>
      cases hstep with
      | receive _ hreceives =>
          rcases ih with ih | ih
          · exact ih.receives hreceives
          · exact .inr (ih.mono hreceives.log)
      | record _ he =>
          rcases ih with ih | ih
          · exact .inl (ih.below he)
          · exact .inr (ih.mono (List.suffix_cons _ _))

end Server

/-! ## The heap when the transmit queue is idle -/

/-- The blocks in use are the device structure and the TCBs. -/
def Node.NoLeak (σ : Node) : Prop :=
  ∃ dev conns live, σ.globalVnetDev = some dev ∧ σ.connections = some conns ∧
    liveBlocks σ.heap = some live ∧ live.Perm (dev.ptr :: conns.map Prod.fst)

/-- An idle transmit queue holds no buffers. -/
theorem Ledger.Holds.no_frames {σ : Node} {L : Ledger} (h : L.Holds σ [])
    (hpublished : σ.txQueue.published = []) (hpending : σ.txQueue.pendingIds = []) :
    L.frames = [] := by
  have := h.outstanding.length_eq
  rw [hpublished, hpending] at this
  exact List.eq_nil_of_length_eq_zero (by simpa using this)

/-- With an idle transmit queue, nothing leaks exactly when no orphan is on the ledger. -/
theorem Ledger.Holds.noLeak_iff {σ : Node} {L : Ledger} (h : L.Holds σ [])
    (hframes : L.frames = []) : σ.NoLeak ↔ L.orphans = [] := by
  obtain ⟨live, hlive, hperm⟩ := h.owns.liveBlocks
  have hptrs : (([] ++ L.regions).map Region.ptr) =
      L.dev.ptr :: ((σ.server L).conns.map Prod.fst ++ L.orphans.map Region.ptr) := by
    simp [Ledger.regions, hframes, Node.server, Function.comp_def]
  rw [hptrs] at hperm
  constructor
  · rintro ⟨dev, conns, live', hdev, hconns, hlive', hperm'⟩
    rw [h.connections_eq, Option.some.injEq] at hconns
    rw [hlive, Option.some.injEq] at hlive'
    subst hconns hlive'
    have hlength := hperm.length_eq.symm.trans hperm'.length_eq
    simp only [List.length_cons, List.length_append, List.length_map] at hlength
    exact List.eq_nil_of_length_eq_zero (by omega)
  · intro horphans
    rw [horphans, List.map_nil, List.append_nil] at hperm
    exact ⟨_, _, live, h.dev, h.connections_eq, hlive, hperm⟩

/-- In every reachable state in which memory and the ring have always sufficed and the transmit
queue is idle, the blocks in use are the device structure and the TCBs exactly if no valid
connection request has arrived. -/
theorem transmit_path_leak (c : Setup) (σ : Node) (h : c.Reaches σ) (hmemory : .noMemory ∉ σ.log)
    (hring : .ringFull ∉ σ.log) (hpublished : σ.txQueue.published = [])
    (hpending : σ.txQueue.pendingIds = []) : σ.NoLeak ↔ ∀ e ∈ σ.log, ¬ e.Requests := by
  obtain ⟨L, hs⟩ := h.sound
  have horphans : L.orphans = [] ↔ ∀ e ∈ σ.log, ¬ e.IsHanded := by
    rw [← List.length_eq_zero_iff, hs.holds.leaks, List.countP_eq_zero]
    refine forall₂_congr fun e he ↦ ?_
    cases e with
    | handed => exact ⟨fun hleaks ↦ absurd rfl hleaks, fun hhanded ↦ absurd trivial hhanded⟩
    | ringFull => exact absurd he hring
    | _ => exact ⟨fun _ ↦ id, fun _ ↦ Bool.false_ne_true⟩
  rw [hs.holds.noLeak_iff (hs.holds.no_frames hpublished hpending), horphans]
  rcases hs.run.untouched_or_answered ⟨rfl, by simp [Setup.server], by simp [Setup.server]⟩ with
    huntouched | hanswered
  · exact iff_of_true huntouched.handed huntouched.requests
  · obtain ⟨e, he, hrequests⟩ := hanswered.requests
    obtain ⟨e', he', hhanded⟩ := hanswered.handed.resolve_left hmemory
    exact iff_of_false (fun hno ↦ hno e' he' hhanded) fun hno ↦ hno e he hrequests

/-- After a connection request was answered and the answer was transmitted and reaped, a block more
than the device structure and the TCB is in use. -/
theorem transmit_path_leaks : ∃ σ,
    Setup.sample.exec [.fromPeer 100 0 tcpFlagSyn [], .complete 0 0, .reap] = some σ ∧
    Setup.sample.Reaches σ ∧ .noMemory ∉ σ.log ∧ .ringFull ∉ σ.log ∧
    σ.txQueue.published = [] ∧ σ.txQueue.pendingIds = [] ∧ ¬ σ.NoLeak := by
  obtain ⟨σ, hexec, hreaches, hσ⟩ := Setup.exec_any .sample
    [.fromPeer 100 0 tcpFlagSyn [], .complete 0 0, .reap]
    (fun σ ↦ decide (.noMemory ∉ σ.log) && decide (.ringFull ∉ σ.log) &&
      decide (σ.txQueue.published = []) && decide (σ.txQueue.pendingIds = []) &&
      σ.connections.any (fun conns ↦ conns.length == 1) &&
      (liveBlocks σ.heap).any (fun live ↦ live.length == 3))
    (by decide +kernel)
  simp only [Bool.and_eq_true, decide_eq_true_eq] at hσ
  obtain ⟨⟨⟨⟨⟨hmemory, hring⟩, hpublished⟩, hpending⟩, hconns⟩, hlive⟩ := hσ
  refine ⟨σ, hexec, hreaches, hmemory, hring, hpublished, hpending, ?_⟩
  rintro ⟨dev, conns, live, -, heq, heq', hperm⟩
  rw [heq, Option.any_some, beq_iff_eq] at hconns
  rw [heq', Option.any_some, beq_iff_eq] at hlive
  have := hperm.length_eq
  simp [hconns, hlive] at this

/-- A stray segment, answered by a reset, leaves no block behind. -/
theorem transmit_path_leak_reset : ∃ σ,
    Setup.sample.exec [.fromPeer 100 0 tcpFlagAck [], .complete 0 0, .reap] = some σ ∧
    σ.NoLeak := by
  obtain ⟨σ, hexec, hreaches, hσ⟩ := Setup.exec_any .sample
    [.fromPeer 100 0 tcpFlagAck [], .complete 0 0, .reap]
    (fun σ ↦ decide (.noMemory ∉ σ.log) && decide (.ringFull ∉ σ.log) &&
      decide (σ.txQueue.published = []) && decide (σ.txQueue.pendingIds = []) &&
      decide (∀ e ∈ σ.log, ¬ e.Requests))
    (by decide +kernel)
  simp only [Bool.and_eq_true, decide_eq_true_eq] at hσ
  obtain ⟨⟨⟨⟨hmemory, hring⟩, hpublished⟩, hpending⟩, hrequests⟩ := hσ
  exact ⟨σ, hexec, (transmit_path_leak .sample σ hreaches hmemory hring hpublished hpending).mpr
    hrequests⟩

/-! ## What a heap is good for -/

/-- In every reachable state the segments that connections ever handed over, the frames that found
the ring full, the connections and the outstanding buffers are fewer than the blocks that fit into
the heap: whatever the peers do, a node has less than 699050 segments to send in its life. -/
theorem segments_bounded (c : Setup) (σ : Node) (h : c.Reaches σ) : ∃ conns,
    σ.connections = some conns ∧
    σ.log.countP Event.isHanded + σ.log.countP (· = .ringFull) + conns.length +
      σ.outstandingBuffers.length < 699050 := by
  obtain ⟨L, hs⟩ := h.sound
  have hholds := hs.holds
  refine ⟨_, hholds.connections_eq, ?_⟩
  -- every one of them has a block of its own
  have hblocks := hholds.owns.length_le
  simp only [Ledger.regions, List.nil_append, List.length_cons, List.length_append,
    List.length_map] at hblocks
  have hleaks : ∀ log : List Event, log.countP Event.Leaks =
      log.countP Event.isHanded + log.countP (· = .ringFull) := by
    intro log
    induction log with
    | nil => rfl
    | cons e log ih =>
        simp only [List.countP_cons, ih]
        cases e <;> simp [Event.Leaks, Event.isHanded] <;> omega
  have hconns : (σ.server L).conns.length = L.tcbs.length := by simp [Node.server]
  have hframes := hholds.outstandingBuffers_perm.length_eq
  rw [List.length_map] at hframes
  have horphans := hholds.leaks
  rw [hleaks] at horphans
  have hmax : maxBlocks = 699050 := by decide
  omega

/-- A connection request was answered. -/
theorem segments_bounded_syn : ∃ σ, Setup.sample.Reaches σ ∧ σ.log.countP Event.isHanded = 1 ∧
    ∃ conns, σ.connections = some conns ∧ 1 + conns.length < 699050 := by
  obtain ⟨σ, -, hreaches, hcount⟩ := Setup.exec_any .sample [.fromPeer 100 0 tcpFlagSyn []]
    (fun σ ↦ σ.log.countP Event.isHanded == 1) (by decide +kernel)
  rw [beq_iff_eq] at hcount
  obtain ⟨conns, hconns, hbound⟩ := segments_bounded .sample σ hreaches
  exact ⟨σ, hreaches, hcount, conns, hconns, by omega⟩

end Aether.Ethernet
