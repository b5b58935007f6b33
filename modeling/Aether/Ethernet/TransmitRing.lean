import Aether.Ethernet.Backpressure

/-!
# The device that transmits

Runs of the transmit path whose device knows what the TX available ring says and nothing else.
While every call of `ethernet_send` finds a free descriptor, what such a device has yet to read, or
took and has not completed, is what was published, so that its runs are runs of `Traffic`.
-/

namespace Aether.Ethernet

open ByteMemory Kernel Drivers Program Transition

/-- The transmit path and its device. -/
structure Transmitter where
  traffic : Traffic
  device : AvailReader := {}

namespace Transmitter

/-- The TX queue. -/
def queue (s : Transmitter) : Virtqueue := s.traffic.node.txQueue

/-- The ids that the device has yet to read in the available ring or took from there, and those that
it completed and the driver has not popped. -/
def outstandingIds (s : Transmitter) : List UInt16 :=
  s.device.outstanding s.queue ++ s.queue.pendingIds

/-- The buffers of these ids. -/
def buffers (s : Transmitter) : List Nat :=
  s.outstandingIds.map fun id ↦ (s.queue.desc id.toNat).addr

/-- One step. The kernel does anything that `Traffic` allows and leaves the used ring to the device.
The device reads the available ring up to `avail.idx`, and completes what it took from there in any
order. -/
inductive Step : Transmitter → Transmitter → Prop where
  | kernel {s : Transmitter} {t : Traffic} : Traffic.Step s.traffic t →
      t.node.txQueue.usedIdx = s.queue.usedIdx → Step s { s with traffic := t }
  | fetch {s : Transmitter} : s.device.lastAvailIdx ≠ s.queue.availIdx →
      Step s { s with device := s.device.fetch s.queue }
  | complete {s : Transmitter} {id : UInt16} (len : UInt32) : id ∈ s.device.fetched →
      Step s { traffic := s.traffic.complete id len, device := s.device.finish id }

/-- The states that these runs reach from a node that has just been initialised. -/
abbrev Reaches (c : Setup) : Transmitter → Prop :=
  Reachable (fun s ↦ Traffic.Starts c s.traffic ∧ s.device = {}) Step

/-- Every outstanding buffer keeps its descriptor and its bytes, unless the step popped its
completion and freed it. -/
def Keeps (s s' : Transmitter) : Prop :=
  ∀ id ∈ s.outstandingIds,
    let desc := s.queue.desc id.toNat
    (s'.queue.desc id.toNat = desc ∧
      Agree desc.addr desc.len.toNat s.traffic.node.heap.mem s'.traffic.node.heap.mem) ∨
    (s.queue.pendingIds.head? = some id ∧ s'.traffic.freed = s.traffic.freed ++ [desc.addr])

/-- The device completes only what is published, and the index of the available ring counts the
published buffers. -/
structure Sound (c : Setup) (s : Transmitter) : Prop where
  reaches : Traffic.Reaches c s.traffic
  tied : s.device.Tied s.queue
  index : s.queue.availIdx = UInt16.ofNat s.traffic.published.length

section Steps

variable {c : Setup} {s s' : Transmitter}

/-- What is with the device is what was handed to it. -/
theorem outstandingIds_perm (h : s.device.Tied s.queue) :
    s.traffic.node.outstandingIds.Perm s.outstandingIds :=
  h.append_right _

/-- A call of `ethernet_send` that finds a descriptor, or no memory. -/
theorem Sound.send (h : s.Sound c) {destMac : Mac} {ethertype : UInt16} {payload : Pointer}
    {len : UInt32} (hlen : len.toNat + 24 < 2 ^ 32) {t : Traffic}
    (hsend : s.traffic.send destMac ethertype payload len = some t)
    (hadmitted : ∀ call ∈ t.calls, call.Admitted) : Sound c { s with traffic := t } := by
  have hreaches := h.reaches.step (.send _ _ _ hlen hsend)
  obtain ⟨L, held, hs⟩ := h.reaches.sound
  obtain ⟨⟨_, σ'⟩, hrun, rfl⟩ := Option.map_eq_some_iff.mp hsend
  let call : SendCall := ⟨s.traffic.node, len, σ'⟩
  have hcall : call.Admitted :=
    hadmitted call (List.mem_append_right _ (List.mem_singleton.mpr rfl))
  have hpublished : Traffic.published { s.traffic with
      node := σ', calls := s.traffic.calls ++ [call] } = s.traffic.published ++ call.buffers := by
    simp only [Traffic.published, List.flatMap_append, List.flatMap_singleton]
  rcases ethernetSend_pushes hs.holds hlen hrun with ⟨-, hrecord⟩ | ⟨hroom, hsame⟩
  · have hqueue : σ'.txQueue = s.queue := by rw [hrecord]; rfl
    have hnone : call.buffers = [] := by
      simp [call, SendCall.buffers, hrecord]
    refine ⟨hreaches, ?_, ?_⟩
    · show s.device.Tied σ'.txQueue
      rw [hqueue]
      exact h.tied
    · show σ'.txQueue.availIdx = _
      rw [hpublished, hnone, List.append_nil, hqueue]
      exact h.index
  -- the descriptor was free, so the ring has room for its id
  · have hfree : s.queue.numFree ≠ 0 := hcall.resolve_right hroom
    have hlt : s.traffic.node.pushed < s.queue.size := (hs.holds.pushed_free hfree).1
    have hlength : s.queue.published.length < s.queue.size.toNat :=
      hs.holds.tx.length_published_lt hfree
    have hone : call.buffers.length = 1 := by
      have hpush : σ'.txQueue.published = s.queue.published ++ [s.traffic.node.pushed] :=
        hsame.published.trans (if_pos hlt)
      simp [call, SendCall.buffers, hpush, queue]
    refine ⟨hreaches, (h.tied.push hs.holds.tx.size_dvd hlength hlt).congr hsame, ?_⟩
    show σ'.txQueue.availIdx = _
    rw [hpublished, List.length_append, hone, UInt16.ofNat_add, ← h.index]
    exact hsame.availIdx

/-- A step in which every call finds a descriptor, or no memory. -/
theorem Sound.step (h : s.Sound c) (hstep : Step s s')
    (hadmitted : ∀ call ∈ s'.traffic.calls, call.Admitted) : s'.Sound c := by
  cases hstep with
  | kernel hstep hused =>
      obtain ⟨L, held, hs⟩ := h.reaches.sound
      rcases hs.step_rings hstep with
        ⟨_, _, _, _, hlen, hsend⟩ | ⟨id, len, rfl⟩ | ⟨hcalls, hsame⟩
      · exact h.send hlen hsend hadmitted
      · have hmoves : s.queue.usedIdx + 1 = s.queue.usedIdx := hused
        grind
      · refine ⟨h.reaches.step hstep, h.tied.congr hsame, hsame.availIdx.trans ?_⟩
        simp only [Traffic.published, hcalls]
        exact h.index
  | fetch hne => exact ⟨h.reaches, h.tied.fetch hne, h.index⟩
  | complete len hid =>
      exact ⟨h.reaches.step (.complete len (h.tied.mem hid)), h.tied.complete hid len, h.index⟩

/-- The calls of `ethernet_send` are recorded for the rest of the run. -/
theorem Step.calls_subset (hstep : Step s s') : s.traffic.calls ⊆ s'.traffic.calls := by
  cases hstep with
  | kernel hstep hused => exact hstep.calls_subset
  | fetch hne => exact fun _ ↦ id
  | complete len hid => exact fun _ ↦ id

/-- While every call finds a descriptor, or no memory, the device knows what was published. -/
theorem Reaches.sound (h : Reaches c s) (hadmitted : ∀ call ∈ s.traffic.calls, call.Admitted) :
    s.Sound c := by
  induction h with
  | @init s hstarts =>
      obtain ⟨⟨hstart, hs⟩, hdevice⟩ := hstarts
      obtain ⟨-, hqueue⟩ := wp_run (initialise_spec c) hstart
      refine ⟨.init ⟨hstart, hs⟩, ?_, ?_⟩
      · rw [hdevice, queue, hqueue]
        exact AvailReader.tied_init _ _ _
      · rw [queue, hqueue, hs]
        rfl
  | step hreaches hstep ih =>
      exact (ih fun call hcall ↦ hadmitted call (hstep.calls_subset hcall)).step hstep hadmitted

/-- A step keeps the outstanding buffers. -/
theorem Sound.keeps (h : s.Sound c) (hstep : Step s s') : s.Keeps s' := by
  have hperm := outstandingIds_perm h.tied
  have hkeeps : s.traffic.Keeps s'.traffic := by
    obtain ⟨L, held, hs⟩ := h.reaches.sound
    cases hstep with
    | kernel hstep hused => exact (hs.step hstep).1
    | fetch hne => exact fun id hid ↦ .inl ⟨hid, rfl, .refl _ _ _⟩
    | complete len hid => exact (hs.complete (h.tied.mem hid) len).1
  exact fun id hid ↦ (hkeeps id (hperm.mem_iff.mpr hid)).imp_left And.right

/-- Sending leads to reachable states, in which the device has read nothing yet. -/
theorem afterSends_reaches {n : Nat} {t : Traffic} (h : Traffic.afterSends c n = some t) :
    Reaches c { traffic := t } := by
  induction n generalizing t with
  | zero =>
      obtain ⟨σ, hexec, rfl⟩ := Option.map_eq_some_iff.mp h
      exact .init ⟨⟨Setup.exec_nil hexec, rfl⟩, rfl⟩
  | succ n ih =>
      obtain ⟨t₀, hbefore, hsend⟩ := Option.bind_eq_some_iff.mp h
      obtain ⟨L, held, hs⟩ := (Traffic.afterSends_reaches hbefore).sound
      exact (ih hbefore).step (.kernel (.send _ _ _ (by decide) hsend)
        (hs.send_usedIdx (by decide) hsend))

end Steps

end Transmitter

/-- In every run in which each call of `ethernet_send` finds a free descriptor, or no memory, and
the device goes by the available ring: `avail.idx` counts the published buffers; what the device has
yet to read there, or took and has not completed, names descriptors of the queue, each once, whose
buffers are live blocks of their own with room for what the descriptor says; no step writes or frees
one before its completion is popped; and each published buffer is freed once or still there. -/
theorem transmit_ring_owned (c : Setup) (s : Transmitter) (h : Transmitter.Reaches c s)
    (hadmitted : ∀ call ∈ s.traffic.calls, call.Admitted) :
    s.queue.availIdx = UInt16.ofNat s.traffic.published.length ∧
    (∃ live, liveBlocks s.traffic.node.heap = some live ∧ ∀ id ∈ s.outstandingIds,
      let desc := s.queue.desc id.toNat
      id < s.queue.size ∧ desc.addr ∈ live ∧
        desc.len.toNat ≤ capacity s.traffic.node.heap desc.addr) ∧
    s.buffers.Nodup ∧ (∀ p ∈ s.traffic.users, p ∉ s.buffers) ∧
    (∀ s', Transmitter.Step s s' → s.Keeps s') ∧
    s.traffic.published.Perm (s.traffic.freed ++ s.buffers) := by
  have hs := h.sound hadmitted
  obtain ⟨L, held, hL⟩ := hs.reaches.sound
  obtain ⟨live, hlive, hheld⟩ := hL.holds.outstanding_live
  have hids := Transmitter.outstandingIds_perm hs.tied
  have hbuffers : s.traffic.node.outstandingBuffers.Perm s.buffers := hids.map _
  refine ⟨hs.index, ⟨live, hlive, fun id hid ↦ ?_⟩, ?_, fun p hp ↦ ?_,
    fun s' hstep ↦ hs.keeps hstep, hL.accounted.trans (hbuffers.append_left _)⟩
  · have hout := hids.mem_iff.mpr hid
    refine ⟨UInt16.lt_iff_toNat_lt.mpr (hL.holds.tx.lt_size ?_), hheld id hout⟩
    rw [List.append_assoc]
    exact List.mem_append_right _ hout
  · exact hbuffers.nodup_iff.mp hL.holds.nodup_buffers.of_append_right
  · exact fun hmem ↦ hL.users_notMem hp (hbuffers.mem_iff.mpr hmem)

/-- The device reads both entries of the ring and completes the second frame, which the reaper frees:
the first is still with the device. -/
theorem transmit_ring_owned_two : ∃ s, Transmitter.Reaches .sample s ∧
    s.device.outstanding s.queue = [0] ∧ s.traffic.freed = [heapStart + 168] ∧
    s.traffic.published.Perm [heapStart + 168, heapStart + 120] := by
  have hrun : (Traffic.afterSends .sample 2).any (fun t ↦
      let vq := t.node.txQueue
      let once := AvailReader.fetch {} vq
      let twice := once.fetch vq
      decide (vq.availIdx ≠ 0 ∧ once.lastAvailIdx ≠ vq.availIdx ∧ 1 ∈ twice.fetched) &&
        (t.complete 1 24).turn.any (fun t' ↦
          let s : Transmitter := ⟨t', twice.finish 1⟩
          decide ((∀ call ∈ t'.calls, call.before.txQueue.numFree ≠ 0) ∧
            t'.node.txQueue.usedIdx = (t.complete 1 24).node.txQueue.usedIdx ∧
            s.device.outstanding s.queue = [0] ∧ t'.freed = [heapStart + 168] ∧
            s.buffers = [heapStart + 120]))) = true := by
    decide +kernel
  obtain ⟨t, hsends, ht⟩ := (Option.any_eq_true _ _).mp hrun
  obtain ⟨hfetch, hturn⟩ := Bool.and_eq_true_iff.mp ht
  obtain ⟨hone, htwo, hfetched⟩ := of_decide_eq_true hfetch
  obtain ⟨t', hturn, ht'⟩ := (Option.any_eq_true _ _).mp hturn
  obtain ⟨hfree, hused, houtstanding, hfreed, hbuffers⟩ := of_decide_eq_true ht'
  let device := ((AvailReader.fetch {} t.node.txQueue).fetch t.node.txQueue).finish 1
  have hreaches : Transmitter.Reaches .sample ⟨t', device⟩ :=
    ((((Transmitter.afterSends_reaches hsends).step (.fetch hone.symm)).step (.fetch htwo)).step
      (.complete 24 hfetched)).step (.kernel (.turn hturn) hused)
  obtain ⟨-, -, -, -, -, hperm⟩ :=
    transmit_ring_owned .sample _ hreaches fun call hcall ↦ .inl (hfree call hcall)
  refine ⟨_, hreaches, houtstanding, hfreed, ?_⟩
  rw [hfreed, hbuffers] at hperm
  exact hperm

end Aether.Ethernet
