import Aether.Drivers.AvailRing
import Aether.Ethernet.TransmitRuns

/-!
# The available ring

What `ethernet_send` writes into the TX available ring, in every run of the transmit path. A call
that finds a free descriptor publishes one that nobody uses. A call that finds none takes the
failure value of `virtqueue_add_descriptor` for a descriptor and publishes that.
-/

namespace Aether.Ethernet

open ByteMemory Kernel Drivers Program Transition IndexedLists

namespace SendCall

variable (call : SendCall)

/-- The entries that the call wrote into the available ring: those between the index before the
call and the index after it. -/
def written : List UInt16 :=
  window call.after.txQueue.availRing call.before.txQueue.size.toNat
    call.before.txQueue.availIdx.toNat
    (call.after.txQueue.availIdx - call.before.txQueue.availIdx).toNat

/-- What the call wrote names descriptors that were not outstanding. -/
def NamesFree : Prop :=
  ∀ id ∈ call.written, id < call.before.txQueue.size ∧ id ∉ call.before.outstandingIds

/-- The call left the available ring and the set of live blocks as they were. -/
def LeavesAlone : Prop :=
  call.after.txQueue.availIdx = call.before.txQueue.availIdx ∧
    call.after.txQueue.availRing = call.before.txQueue.availRing ∧
    liveBlocks call.after.heap = liveBlocks call.before.heap

/-- The call published a free descriptor, or nothing at all if the ring was full. -/
def Valid : Prop :=
  call.NamesFree ∧ (call.before.txQueue.numFree = 0 → call.LeavesAlone)

/-- The call was made with a free descriptor, or with too little memory for its frame. -/
def Admitted : Prop :=
  call.before.txQueue.numFree ≠ 0 ∨ call.before.heap.Refuses (24 + call.len.toNat)

end SendCall

/-! ## What a call writes -/

section Ring

variable {L : Ledger} {σ σ' : Node} {held : List Region}

/-- The value that `ethernet_send` pushes. -/
def Node.pushed (σ : Node) : UInt16 :=
  if σ.txQueue.numFree = 0 then 0xFFFF else σ.txQueue.freeHead

/-- Queueing a frame pushes one value, whatever `virtqueue_add_descriptor` returned. -/
theorem Node.queueFrame_ring (heap : Heap) (p : Nat) (len : UInt32) (frame : List UInt8) :
    (virtqueuePushAvailable σ.txQueue σ.pushed).SameRings
      (Node.queueFrame { σ with heap := heap } p len frame).txQueue := by
  simp only [queueFrame, virtqueueAddDescriptor, virtqueuePushAvailable, pushed]
  split <;> exact ⟨rfl, rfl, rfl, rfl, rfl⟩

/-- A free descriptor is pushed while there is one. -/
theorem Ledger.Holds.pushed_free (h : L.Holds σ held) (hne : σ.txQueue.numFree ≠ 0) :
    σ.pushed < σ.txQueue.size ∧ σ.pushed ∉ σ.outstandingIds := by
  rw [Node.pushed, if_neg hne]
  have hmem := Virtqueue.freeHead_mem hne
  have hnodup := h.tx.nodup
  rw [List.append_nil, List.append_assoc] at hnodup
  refine ⟨h.tx.lt_size (by simp [hmem]), fun hout ↦ ?_⟩
  exact List.disjoint_of_nodup_append hnodup hmem hout

/-- A call of `ethernet_send` ends early for want of memory, or it pushes. -/
theorem ethernetSend_pushes (h : L.Holds σ held) {destMac : Mac} {ethertype : UInt16}
    {payload : Pointer} {len : UInt32} (hlen : len.toNat + 24 < 2 ^ 32)
    (hrun : (ethernetSend destMac ethertype payload len).run σ = some ((), σ')) :
    (σ.heap.Refuses (24 + len.toNat) ∧ σ' = { σ with log := .noMemory :: σ.log }) ∨
    ¬ σ.heap.Refuses (24 + len.toNat) ∧
      (virtqueuePushAvailable σ.txQueue σ.pushed).SameRings σ'.txQueue := by
  have hsize : 24 + len.toNat < 2 ^ 32 := by omega
  rcases wp_run (ethernetSend_runs h destMac ethertype payload hlen) hrun with
    ⟨hcall, rfl⟩ | ⟨p, cap, heap, hcall, hne, -, -, -, -, hσ', -⟩
  · exact .inl ⟨(h.owns.kmalloc_eq_null hsize hcall).mp rfl, rfl⟩
  · refine .inr ⟨fun hrefuses ↦ hne ((h.owns.kmalloc_eq_null hsize hcall).mpr hrefuses), ?_⟩
    rw [hσ']
    exact Node.queueFrame_ring _ p _ _

/-- A call is valid exactly when it found a descriptor, or no memory. -/
theorem SendCall.valid_iff (h : L.Holds σ held) {destMac : Mac} {ethertype : UInt16}
    {payload : Pointer} {len : UInt32} (hlen : len.toNat + 24 < 2 ^ 32)
    (hrun : (ethernetSend destMac ethertype payload len).run σ = some ((), σ')) :
    SendCall.Valid ⟨σ, len, σ'⟩ ↔ SendCall.Admitted ⟨σ, len, σ'⟩ := by
  rcases ethernetSend_pushes h hlen hrun with ⟨hrefuses, rfl⟩ | ⟨hroom, hsame⟩
  · refine iff_of_true ⟨fun id hid ↦ ?_, fun _ ↦ ⟨rfl, rfl, rfl⟩⟩ (.inr hrefuses)
    simp [SendCall.written, window] at hid
  · have hidx : σ'.txQueue.availIdx = σ.txQueue.availIdx + 1 := hsame.availIdx
    have hone : (σ'.txQueue.availIdx - σ.txQueue.availIdx).toNat = 1 := by
      rw [hidx, show σ.txQueue.availIdx + 1 - σ.txQueue.availIdx = 1 by grind]
      rfl
    have hwritten : SendCall.written ⟨σ, len, σ'⟩ = [σ.pushed] := by
      simp only [SendCall.written, hone, window, hsame.availRing, virtqueuePushAvailable,
        Function.update_self]
    constructor
    · intro hvalid
      refine .inl fun hfull ↦ ?_
      have hstays : σ'.txQueue.availIdx = σ.txQueue.availIdx := (hvalid.2 hfull).1
      rw [hidx] at hstays
      grind
    · intro hadmitted
      have hne : σ.txQueue.numFree ≠ 0 := hadmitted.resolve_right hroom
      refine ⟨fun id hid ↦ ?_, fun hfull ↦ absurd hfull hne⟩
      rw [hwritten, List.mem_singleton] at hid
      subst hid
      exact h.pushed_free hne

end Ring

/-! ## Runs -/

namespace Traffic

variable {s s' : Traffic} {L : Ledger} {held : List Region}

/-- Calls are valid exactly when they are admitted, and while all are, every entry of the ring
names a descriptor. -/
structure RingSound (s : Traffic) : Prop where
  calls : ∀ call ∈ s.calls, call.Valid ↔ call.Admitted
  ring : (∀ call ∈ s.calls, call.Admitted) →
    ∀ slot, s.node.txQueue.availRing slot < s.node.txQueue.size

/-- A step without a call writes nothing into the ring. -/
theorem RingSound.quiet (h : s.RingSound) (hcalls : s'.calls = s.calls)
    (hsize : s'.node.txQueue.size = s.node.txQueue.size)
    (hring : s'.node.txQueue.availRing = s.node.txQueue.availRing) : s'.RingSound := by
  refine ⟨fun call hcall ↦ h.calls call (hcalls ▸ hcall), fun hadmitted slot ↦ ?_⟩
  rw [hring, hsize]
  exact h.ring (hcalls ▸ hadmitted) slot

/-- A call of `ethernet_send` leaves the used ring to the device. -/
theorem Sound.send_usedIdx (h : s.Sound L held) {destMac : Mac} {ethertype : UInt16}
    {payload : Pointer} {len : UInt32} (hlen : len.toNat + 24 < 2 ^ 32)
    (hsend : s.send destMac ethertype payload len = some s') :
    s'.node.txQueue.usedIdx = s.node.txQueue.usedIdx := by
  obtain ⟨⟨_, σ'⟩, hrun, rfl⟩ := Option.map_eq_some_iff.mp hsend
  rcases ethernetSend_pushes h.holds hlen hrun with ⟨-, rfl⟩ | ⟨-, hsame⟩
  · rfl
  · exact hsame.usedIdx

/-- A step is a call of `ethernet_send`, a completion, or nothing to the rings. -/
theorem Sound.step_rings (h : s.Sound L held) (hstep : Step s s') :
    (∃ destMac ethertype payload len, len.toNat + 24 < 2 ^ 32 ∧
      s.send destMac ethertype payload len = some s') ∨
    (∃ id len, s' = s.complete id len) ∨
    s'.calls = s.calls ∧ s.node.txQueue.SameRings s'.node.txQueue := by
  cases hstep with
  | send destMac ethertype payload hlen hsend =>
      exact .inl ⟨destMac, ethertype, payload, _, hlen, hsend⟩
  | complete len hid => exact .inr (.inl ⟨_, len, rfl⟩)
  | turn hturn =>
      obtain ⟨⟨found, σ'⟩, hrun, rfl⟩ := Option.map_eq_some_iff.mp hturn
      rcases wp_run (reapTurn_runs h.holds) hrun with
        ⟨-, -, rfl⟩ | ⟨id, rest, stats, -, -, -, -, rfl, -⟩
      · exact .inr (.inr ⟨rfl, rfl, rfl, rfl, rfl, rfl⟩)
      · exact .inr (.inr ⟨rfl, rfl, rfl, rfl, rfl, rfl⟩)
  | kmalloc hsize hcall =>
      obtain ⟨⟨p, σ'⟩, hrun, rfl⟩ := Option.map_eq_some_iff.mp hcall
      rcases wp_run (h.holds.callKmalloc _ hsize) hrun with
        ⟨-, rfl⟩ | ⟨cap, heap, -, -, rfl, -⟩
      · exact .inr (.inr ⟨rfl, rfl, rfl, rfl, rfl, rfl⟩)
      · exact .inr (.inr ⟨rfl, rfl, rfl, rfl, rfl, rfl⟩)
  | kfree hp => exact .inr (.inr ⟨rfl, rfl, rfl, rfl, rfl, rfl⟩)
  | write hp hlow hhigh => exact .inr (.inr ⟨rfl, rfl, rfl, rfl, rfl, rfl⟩)

/-- A call of `ethernet_send`. -/
theorem RingSound.send (h : s.RingSound) (hs : s.Sound L held) {destMac : Mac}
    {ethertype : UInt16} {payload : Pointer} {len : UInt32} (hlen : len.toNat + 24 < 2 ^ 32)
    (hsend : s.send destMac ethertype payload len = some s') : s'.RingSound := by
  obtain ⟨⟨_, σ'⟩, hrun, rfl⟩ := Option.map_eq_some_iff.mp hsend
  refine ⟨fun call hcall ↦ ?_, fun hadmitted slot ↦ ?_⟩
  · rcases List.mem_append.mp hcall with hcall | hcall
    · exact h.calls call hcall
    · obtain rfl := List.mem_singleton.mp hcall
      exact SendCall.valid_iff hs.holds hlen hrun
  · have hold := h.ring fun call hcall ↦ hadmitted call (List.mem_append_left _ hcall)
    have hlast := hadmitted ⟨s.node, len, σ'⟩
      (List.mem_append_right _ (List.mem_singleton.mpr rfl))
    show σ'.txQueue.availRing slot < σ'.txQueue.size
    rcases ethernetSend_pushes hs.holds hlen hrun with ⟨-, rfl⟩ | ⟨hroom, hsame⟩
    · exact hold slot
    · rw [hsame.availRing, hsame.size]
      simp only [virtqueuePushAvailable, Function.update_apply]
      split
      · exact (hs.holds.pushed_free (hlast.resolve_right hroom)).1
      · exact hold slot

/-- Every step keeps the ring sound. -/
theorem RingSound.step (h : s.RingSound) (hs : s.Sound L held) (hstep : Step s s') :
    s'.RingSound := by
  rcases hs.step_rings hstep with ⟨_, _, _, _, hlen, hsend⟩ | ⟨id, len, rfl⟩ | ⟨hcalls, hsame⟩
  · exact h.send hs hlen hsend
  · exact h.quiet rfl rfl rfl
  · exact h.quiet hcalls hsame.size hsame.availRing

/-- The ring is sound in every state that a run reaches. -/
theorem Reaches.ringSound {c : Setup} (h : Reaches c s) : s.RingSound := by
  induction h with
  | init hstarts =>
      obtain ⟨hstart, hs⟩ := hstarts
      obtain ⟨-, hqueue⟩ := wp_run (initialise_spec c) hstart
      rw [hs]
      refine ⟨by simp, fun _ slot ↦ ?_⟩
      have hsize : (0 : UInt16) < UInt16.ofNat (2 ^ c.txLogSize) :=
        UInt16.pos_iff_ne_zero.mpr c.txSize_ne_zero
      rw [hqueue]
      exact hsize
  | step hreaches hstep ih =>
      obtain ⟨L, held, hs⟩ := Reaches.sound hreaches
      exact ih.step hs hstep

end Traffic

/-- For every run of the transmit path, on a TX queue of any size that a conforming device has, a
power of two: a call of `ethernet_send` writes only ids of descriptors that are not outstanding into
the available ring, and changes nothing when it finds the ring full, if and only if it does find a
free descriptor or the heap has no room for its frame; and while that is so for all calls, every
entry of the ring is below the queue size. -/
theorem available_ring_valid (c : Setup) (s : Traffic) (h : Traffic.Reaches c s) :
    (∀ call ∈ s.calls, call.Valid ↔ call.Admitted) ∧
    ((∀ call ∈ s.calls, call.Admitted) →
      ∀ slot, s.node.txQueue.availRing slot < s.node.txQueue.size) :=
  ⟨h.ringSound.calls, h.ringSound.ring⟩

/-- What the last of `n` calls does, when it can be decided. -/
theorem Traffic.afterSends_last {c : Setup} {n : Nat} {P : SendCall → Prop} [DecidablePred P]
    (h : ((afterSends c n).any fun s ↦ s.calls.getLast?.any fun call ↦ decide (P call)) = true) :
    ∃ s, Reaches c s ∧ ∃ call ∈ s.calls, P call := by
  obtain ⟨s, hsends, hlast⟩ := (Option.any_eq_true _ _).mp h
  obtain ⟨call, hcall, hP⟩ := (Option.any_eq_true _ _).mp hlast
  exact ⟨s, afterSends_reaches hsends, call, List.mem_of_getLast? hcall, of_decide_eq_true hP⟩

/-- The eighth frame on a ring of eight descriptors takes the last free one. -/
theorem available_ring_valid_eighth : ∃ s, Traffic.Reaches .sample s ∧ ∃ call ∈ s.calls,
    call.written = [7] ∧ call.Valid := by
  obtain ⟨s, hreaches, call, hcall, hwritten, hfree⟩ := Traffic.afterSends_last (c := .sample)
    (n := 8) (P := fun call ↦ call.written = [7] ∧ call.before.txQueue.numFree ≠ 0)
    (by decide +kernel)
  have hiff := (available_ring_valid .sample s hreaches).1 call hcall
  exact ⟨s, hreaches, call, hcall, hwritten, hiff.mpr (.inl hfree)⟩

/-- The ninth frame on a ring of eight descriptors: `0xFFFF` goes into the ring, its index moves
on and the frame's block stays allocated. -/
theorem full_ring_publishes : ∃ s, Traffic.Reaches .sample s ∧ ∃ call ∈ s.calls,
    call.before.txQueue.size = 8 ∧ call.before.txQueue.numFree = 0 ∧ call.written = [0xFFFF] ∧
    call.after.txQueue.availIdx = call.before.txQueue.availIdx + 1 ∧
    liveBlocks call.after.heap ≠ liveBlocks call.before.heap ∧ ¬ call.Valid := by
  obtain ⟨s, hreaches, call, hcall, hsize, hfull, hwritten, hidx, hlive⟩ :=
    Traffic.afterSends_last (c := .sample) (n := 9) (P := fun call ↦
      call.before.txQueue.size = 8 ∧ call.before.txQueue.numFree = 0 ∧ call.written = [0xFFFF] ∧
      call.after.txQueue.availIdx = call.before.txQueue.availIdx + 1 ∧
      liveBlocks call.after.heap ≠ liveBlocks call.before.heap) (by decide +kernel)
  refine ⟨s, hreaches, call, hcall, hsize, hfull, hwritten, hidx, hlive, fun hvalid ↦ ?_⟩
  exact hlive (hvalid.2 hfull).2.2

end Aether.Ethernet
