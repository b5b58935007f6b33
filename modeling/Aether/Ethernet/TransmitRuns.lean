import Aether.Ethernet.Connections
import Aether.Kernel.HeapRuns

/-!
# Runs of the transmit path

`ethernet_send`, the device's completions and the turns of the loop of `net_tx_reaper`, in any
order, while the rest of the kernel allocates, frees and writes blocks of its own on the same heap.
`Traffic` keeps the histories of both functions beside the node: the calls of `ethernet_send`, and
the buffers that the reaper has freed.
-/

namespace Aether.Ethernet

open ByteMemory Kernel Drivers Program Transition

/-! ## The transition system -/

/-- The TX descriptors that are published or completed and not yet reaped. -/
def Node.outstandingIds (σ : Node) : List UInt16 := σ.txQueue.published ++ σ.txQueue.pendingIds

/-- The buffers of the completed descriptors, oldest completion first. -/
def Node.completedBuffers (σ : Node) : List Nat :=
  σ.txQueue.pendingIds.map fun id ↦ (σ.txQueue.desc id.toNat).addr

/-- A call of `ethernet_send` for a payload of `len` bytes: the node before and after it. -/
structure SendCall where
  before : Node
  len : UInt32
  after : Node

/-- The buffers that a call published. -/
def SendCall.buffers (call : SendCall) : List Nat :=
  (call.after.txQueue.published.drop call.before.txQueue.published.length).map
    fun id ↦ (call.after.txQueue.desc id.toNat).addr

/-- A node that transmits, with the blocks that the rest of the kernel holds, the calls of
`ethernet_send` so far and the buffers that `net_tx_reaper` has freed, oldest first. -/
structure Traffic where
  node : Node
  users : List Nat := []
  calls : List SendCall := []
  freed : List Nat := []

namespace Traffic

/-- All buffers that were published so far, oldest first. -/
def published (s : Traffic) : List Nat := s.calls.flatMap SendCall.buffers

/-- A call of `ethernet_send`. -/
def send (s : Traffic) (destMac : Mac) (ethertype : UInt16) (payload : Pointer) (len : UInt32) :
    Option Traffic :=
  ((ethernetSend destMac ethertype payload len).run s.node).map fun result ↦
    { s with node := result.2, calls := s.calls ++ [⟨s.node, len, result.2⟩] }

/-- The device completes a descriptor. -/
def complete (s : Traffic) (id : UInt16) (len : UInt32) : Traffic :=
  { s with node := { s.node with txQueue := deviceComplete s.node.txQueue id len } }

/-- `net_tx_reaper` takes a turn. It frees what it found unless that is `NULL`. -/
def turn (s : Traffic) : Option Traffic :=
  (reapTurn.run s.node).map fun result ↦
    { s with node := result.2, freed := s.freed ++ (result.1.filter (· ≠ 0)).toList }

/-- Another part of the kernel calls `kmalloc`. -/
def kmalloc (s : Traffic) (size : Nat) : Option Traffic :=
  ((callKmalloc size).run s.node).map fun result ↦
    { s with node := result.2, users := if result.1 = 0 then s.users else result.1 :: s.users }

/-- Another part of the kernel calls `kfree`. -/
def kfree (s : Traffic) (p : Nat) : Traffic :=
  { s with
    node := { s.node with heap := Kernel.kfree s.node.heap p }, users := s.users.erase p }

/-- Another part of the kernel writes into the heap. -/
def write (s : Traffic) (a : Nat) (bs : List UInt8) : Traffic :=
  { s with node := { s.node with heap := s.node.heap.write a bs } }

/-- One step of the transmit path, its device or another part of the kernel. The length of a frame
fits the 32-bit sum that `ethernet_send` computes; the device completes only what is outstanding;
the rest of the kernel frees and writes only blocks that it holds. -/
inductive Step : Traffic → Traffic → Prop where
  | send {s s' : Traffic} (destMac : Mac) (ethertype : UInt16) (payload : Pointer) {len : UInt32} :
      len.toNat + 24 < 2 ^ 32 → s.send destMac ethertype payload len = some s' → Step s s'
  | complete {s : Traffic} {id : UInt16} (len : UInt32) :
      id ∈ s.node.txQueue.published → Step s (s.complete id len)
  | turn {s s' : Traffic} : s.turn = some s' → Step s s'
  | kmalloc {s s' : Traffic} {size : Nat} :
      size < 2 ^ 32 → s.kmalloc size = some s' → Step s s'
  | kfree {s : Traffic} {p : Nat} : p ∈ s.users → Step s (s.kfree p)
  | write {s : Traffic} {p a : Nat} {bs : List UInt8} :
      p ∈ s.users → p ≤ a → a + bs.length ≤ p + capacity s.node.heap p → Step s (s.write a bs)

/-- No step takes a call back. -/
theorem Step.calls_subset {s s' : Traffic} (hstep : Step s s') : s.calls ⊆ s'.calls := by
  cases hstep with
  | send destMac ethertype payload hlen hsend =>
      obtain ⟨_, -, rfl⟩ := Option.map_eq_some_iff.mp hsend
      exact List.subset_append_left _ _
  | turn hturn =>
      obtain ⟨_, -, rfl⟩ := Option.map_eq_some_iff.mp hturn
      exact fun _ ↦ id
  | kmalloc hsize hcall =>
      obtain ⟨_, -, rfl⟩ := Option.map_eq_some_iff.mp hcall
      exact fun _ ↦ id
  | complete len hid => exact fun _ ↦ id
  | kfree hp => exact fun _ ↦ id
  | write hp hlow hhigh => exact fun _ ↦ id

/-- A node that has just been initialised. -/
def Starts (c : Setup) (s : Traffic) : Prop := c.Starts s.node ∧ s = { node := s.node }

/-- The states that runs reach. -/
abbrev Reaches (c : Setup) : Traffic → Prop := Reachable (Starts c) Step

/-- The traffic after initialisation and `n` calls that send an Ethernet frame without payload. -/
def afterSends (c : Setup) : Nat → Option Traffic
  | 0 => (c.exec []).map fun σ ↦ { node := σ }
  | n + 1 => (afterSends c n).bind fun s ↦ s.send gatewayMac ethTypeIpv4 (.stack []) 0

/-- Sending leads to reachable states. -/
theorem afterSends_reaches {c : Setup} {n : Nat} {s : Traffic} (h : afterSends c n = some s) :
    Reaches c s := by
  induction n generalizing s with
  | zero =>
      obtain ⟨σ, hexec, rfl⟩ := Option.map_eq_some_iff.mp h
      exact .init ⟨Setup.exec_nil hexec, rfl⟩
  | succ n ih =>
      obtain ⟨s₀, hbefore, hsend⟩ := Option.bind_eq_some_iff.mp h
      exact (ih hbefore).step (.send _ _ _ (by decide) hsend)

end Traffic

/-! ## Buffers and blocks -/

section Buffers

variable {L : Ledger} {σ : Node} {held : List Region}

/-- The rest of the kernel may list its blocks in any order. -/
theorem Ledger.Holds.perm {held' : List Region} (h : L.Holds σ held) (hperm : held.Perm held') :
    L.Holds σ held' :=
  { h with owns := h.owns.perm (hperm.append_right _) }

/-- An outstanding descriptor has its buffer in the ledger. -/
theorem Ledger.Holds.frame_of_id (h : L.Holds σ held) {id : UInt16} (hid : id ∈ σ.outstandingIds) :
    ∃ f ∈ L.frames, f.id = id ∧ (σ.txQueue.desc id.toNat).addr = f.ptr ∧
      (σ.txQueue.desc id.toNat).len.toNat ≤ f.cap := by
  obtain ⟨f, hf, rfl⟩ := List.mem_map.mp (h.outstanding.mem_iff.mpr hid)
  exact ⟨f, hf, rfl, h.buffers f hf⟩

/-- Blocks of the rest of the kernel and TX buffers are at distinct addresses. -/
theorem Ledger.Holds.nodup_buffers (h : L.Holds σ held) :
    (held.map Region.ptr ++ σ.outstandingBuffers).Nodup :=
  h.separate.sublist ((List.sublist_append_right _ _).append_left _)

/-- The buffer of an outstanding descriptor is a live block with room for what the descriptor
says. -/
theorem Ledger.Holds.outstanding_live (h : L.Holds σ held) :
    ∃ live, liveBlocks σ.heap = some live ∧ ∀ id ∈ σ.outstandingIds,
      let desc := σ.txQueue.desc id.toNat
      desc.addr ∈ live ∧ desc.len.toNat ≤ capacity σ.heap desc.addr := by
  obtain ⟨live, hlive, hperm⟩ := h.owns.liveBlocks
  refine ⟨live, hlive, fun id hid ↦ ?_⟩
  obtain ⟨f, hf, -, haddr, hlen⟩ := h.frame_of_id hid
  have hregion := List.mem_append_right held (Ledger.mem_regions_of_frame hf)
  have hcap : capacity σ.heap f.ptr = f.cap := h.owns.capacity_eq hregion
  simp only [haddr, hcap]
  exact ⟨hperm.mem_iff.mpr (List.mem_map_of_mem hregion), hlen⟩

/-- Distinct outstanding descriptors have distinct buffers. -/
theorem Ledger.Holds.buffers_ne (h : L.Holds σ held) {id i : UInt16} (hid : id ∈ σ.outstandingIds)
    (hi : i ∈ σ.outstandingIds) (hne : i ≠ id) :
    (σ.txQueue.desc i.toNat).addr ≠ (σ.txQueue.desc id.toNat).addr := by
  have hnodup : (σ.outstandingIds.map fun id ↦ (σ.txQueue.desc id.toNat).addr).Nodup :=
    h.nodup_buffers.of_append_right
  intro heq
  exact hne (List.inj_on_of_nodup_map hnodup hi hid heq)

/-- Freeing one outstanding buffer leaves the bytes of the others alone. -/
theorem Ledger.Holds.kfree_agree (h : L.Holds σ held) {id i : UInt16}
    (hid : id ∈ σ.outstandingIds) (hi : i ∈ σ.outstandingIds) (hne : i ≠ id) :
    Agree (σ.txQueue.desc i.toNat).addr (σ.txQueue.desc i.toNat).len.toNat σ.heap.mem
      (Kernel.kfree σ.heap (σ.txQueue.desc id.toNat).addr).mem := by
  have hptr := h.buffers_ne hid hi hne
  obtain ⟨f, hf, -, haddr, -⟩ := h.frame_of_id hid
  obtain ⟨g, hg, -, haddr', hlen⟩ := h.frame_of_id hi
  rw [haddr, haddr'] at hptr
  rw [haddr, haddr']
  have hagree := h.owns.kfree_mem (List.mem_append_right held (Ledger.mem_regions_of_frame hf))
    (List.mem_append_right held (Ledger.mem_regions_of_frame hg)) hptr
  exact hagree.mono le_rfl (Nat.add_le_add_left hlen _)

/-- A block that is handed out is nobody's buffer. -/
theorem Ledger.Holds.kmalloc_fresh (h : L.Holds σ held) {size : Nat} (hsize : size < 2 ^ 32) :
    ∃ p heap, kmalloc σ.heap size = some (p, heap) ∧ p ∉ σ.outstandingBuffers := by
  obtain ⟨p, σ', hrun, hcase⟩ := h.callKmalloc size hsize
  refine ⟨p, σ'.heap, kmalloc_of_run hrun, fun hmem ↦ ?_⟩
  rcases hcase with ⟨rfl, rfl⟩ | ⟨cap, heap, hne, -, rfl, hheld, -⟩
  · obtain ⟨f, hf, hptr⟩ := List.mem_map.mp (h.outstandingBuffers_perm.mem_iff.mp hmem)
    have hregion : f.toRegion ∈ held ++ L.regions :=
      List.mem_append_right held (Ledger.mem_regions_of_frame hf)
    exact h.owns.ptr_ne_zero hregion hptr
  · have hnodup := hheld.nodup_buffers
    rw [List.map_cons, List.cons_append] at hnodup
    exact (List.nodup_cons.mp hnodup).1 (List.mem_append_right _ hmem)

/-- From `σ` to `σ'` the buffer at `p` was published, possibly, and no outstanding descriptor was
touched. -/
def Node.Publishes (σ σ' : Node) (p : Nat) : Prop :=
  ∃ ids : List UInt16, σ'.txQueue.published = σ.txQueue.published ++ ids ∧
    σ'.txQueue.pendingIds = σ.txQueue.pendingIds ∧
    (∀ id ∈ ids, (σ'.txQueue.desc id.toNat).addr = p) ∧
    ∀ id ∈ σ.outstandingIds, σ'.txQueue.desc id.toNat = σ.txQueue.desc id.toNat

/-- Queueing a buffer publishes it, unless the ring is full. -/
theorem Node.queueFrame_publishes (htx : σ.txQueue.Balanced []) (heap : Heap) (p : Nat)
    (len : UInt32) (frame : List UInt8) :
    σ.Publishes (Node.queueFrame { σ with heap := heap } p len frame) p := by
  by_cases hfull : σ.txQueue.numFree = 0
  · obtain ⟨hadd, -, hpublished⟩ := htx.submit_full hfull σ.netStats p len 0
    refine ⟨[], ?_, ?_, by simp, fun id _ ↦ ?_⟩
    · simp only [queueFrame, hadd, hpublished, List.append_nil]
    · simp only [queueFrame, hadd]
      rfl
    · simp only [queueFrame, hadd]
      rfl
  · obtain ⟨head, added, stats, hadd, -, hpublished, hpending, hdesc, hother⟩ :=
      htx.submit hfull σ.netStats p len 0
    refine ⟨[head], ?_, ?_, ?_, ?_⟩
    · simp only [queueFrame, hadd, hpublished]
    · simp only [queueFrame, hadd, hpending]
    · simp only [queueFrame, hadd, List.mem_singleton, forall_eq, hdesc]
    · simp only [queueFrame, hadd]
      exact hother

section

variable {σ' : Node} {p : Nat}

/-- Outstanding descriptors keep their contents. -/
theorem Node.Publishes.desc (h : σ.Publishes σ' p) {id : UInt16} (hid : id ∈ σ.outstandingIds) :
    σ'.txQueue.desc id.toNat = σ.txQueue.desc id.toNat := by
  obtain ⟨_, -, -, -, hdesc⟩ := h
  exact hdesc id hid

/-- What was outstanding is still outstanding. -/
theorem Node.Publishes.stays (h : σ.Publishes σ' p) {id : UInt16} (hid : id ∈ σ.outstandingIds) :
    id ∈ σ'.outstandingIds := by
  obtain ⟨ids, hnew, hpending, -, -⟩ := h
  rw [outstandingIds, List.mem_append] at hid
  rw [outstandingIds, hnew, hpending, List.mem_append, List.mem_append]
  exact hid.imp_left .inl

/-- The outstanding buffers are the old ones and the new one. -/
theorem Node.Publishes.buffers (h : σ.Publishes σ' p) (len : UInt32) :
    σ'.outstandingBuffers.Perm (SendCall.buffers ⟨σ, len, σ'⟩ ++ σ.outstandingBuffers) := by
  obtain ⟨ids, hnew, hpending, -, hdesc⟩ := h
  have hold : σ.outstandingBuffers =
      σ.outstandingIds.map fun id ↦ (σ'.txQueue.desc id.toNat).addr :=
    List.map_congr_left fun id hid ↦ by rw [hdesc id hid]
  have hids : (σ'.txQueue.published ++ σ'.txQueue.pendingIds).Perm
      (ids ++ σ.outstandingIds) := by
    rw [hnew, hpending, Node.outstandingIds, ← List.append_assoc]
    exact List.perm_append_comm.append_right _
  simp only [SendCall.buffers, hnew, List.drop_left]
  rw [hold, ← List.map_append]
  exact hids.map _

end

end Buffers

/-! ## The invariant -/

namespace Traffic

variable {s s' : Traffic} {L : Ledger} {held : List Region}

/-- Every outstanding buffer stays with the device, with its descriptor and its bytes as they are,
unless the step popped its completion and freed it. -/
def Keeps (s s' : Traffic) : Prop :=
  ∀ id ∈ s.node.outstandingIds,
    let desc := s.node.txQueue.desc id.toNat
    (id ∈ s'.node.outstandingIds ∧ s'.node.txQueue.desc id.toNat = desc ∧
      Agree desc.addr desc.len.toNat s.node.heap.mem s'.node.heap.mem) ∨
    (s.node.txQueue.pendingIds.head? = some id ∧ s'.freed = s.freed ++ [desc.addr])

/-- The ledger accounts for the heap, and every buffer that was published is freed or still
outstanding. -/
structure Sound (s : Traffic) (L : Ledger) (held : List Region) : Prop where
  holds : L.Holds s.node held
  users : (held.map Region.ptr).Perm s.users
  accounted : s.published.Perm (s.freed ++ s.node.outstandingBuffers)

/-- A step that leaves the queue alone keeps the buffers that it does not write. -/
theorem Keeps.of_frame (h : L.Holds s.node held) (hqueue : s'.node.txQueue = s.node.txQueue)
    (hframe : Frame L.regions s.node.heap.mem s'.node.heap.mem) : s.Keeps s' := by
  intro id hid
  obtain ⟨f, hf, -, haddr, hlen⟩ := h.frame_of_id hid
  refine .inl ⟨?_, by rw [hqueue], ?_⟩
  · rw [Node.outstandingIds, hqueue]
    exact hid
  · rw [haddr]
    exact (hframe _ (Ledger.mem_regions_of_frame hf)).mono le_rfl (Nat.add_le_add_left hlen _)

/-- A block of the rest of the kernel is one of the held regions. -/
theorem Sound.user (h : s.Sound L held) {p : Nat} (hp : p ∈ s.users) :
    ∃ r ∈ held, r.ptr = p ∧ L.Holds s.node (r :: held.erase r) ∧
      ((held.erase r).map Region.ptr).Perm (s.users.erase p) := by
  obtain ⟨r, hr, rfl⟩ := List.mem_map.mp (h.users.mem_iff.mpr hp)
  have hperm := List.perm_cons_erase hr
  refine ⟨r, hr, rfl, h.holds.perm hperm, ?_⟩
  have hptrs := (hperm.map Region.ptr).symm.trans (h.users.trans (List.perm_cons_erase hp))
  rw [List.map_cons] at hptrs
  exact hptrs.cons_inv

/-- The rest of the kernel holds no TX buffer. -/
theorem Sound.users_notMem (h : s.Sound L held) {p : Nat} (hp : p ∈ s.users) :
    p ∉ s.node.outstandingBuffers := fun hmem ↦
  (List.nodup_append.mp h.holds.nodup_buffers).2.2 p (h.users.mem_iff.mpr hp) p hmem rfl

/-- Freeing a block of the rest of the kernel. -/
theorem Sound.kfree (h : s.Sound L held) {p : Nat} (hp : p ∈ s.users) :
    s.Keeps (s.kfree p) ∧ ∃ held', (s.kfree p).Sound L held' := by
  obtain ⟨r, hr, rfl, hholds, husers⟩ := h.user hp
  have howns : Owns s.node.heap (r :: (held.erase r ++ L.regions)) := hholds.owns
  refine ⟨Keeps.of_frame hholds rfl ?_, held.erase r, hholds.kfree, husers, h.accounted⟩
  exact howns.kfree.2.mono fun r hr ↦ List.mem_append_right _ hr

/-- Writing into a block of the rest of the kernel. -/
theorem Sound.write (h : s.Sound L held) {p a : Nat} {bs : List UInt8} (hp : p ∈ s.users)
    (hlow : p ≤ a) (hhigh : a + bs.length ≤ p + capacity s.node.heap p) :
    s.Keeps (s.write a bs) ∧ ∃ held', (s.write a bs).Sound L held' := by
  obtain ⟨r, hr, rfl, hholds, -⟩ := h.user hp
  have hcap : capacity s.node.heap r.ptr = r.cap :=
    hholds.owns.capacity_eq (List.mem_append_left _ List.mem_cons_self)
  rw [hcap] at hhigh
  obtain ⟨hwritten, hframe⟩ := hholds.write a bs hlow hhigh
  refine ⟨Keeps.of_frame hholds rfl ?_, held, hwritten.perm ?_, h.users, h.accounted⟩
  · exact hframe.mono fun r hr ↦ List.mem_append_right _ hr
  · exact (List.perm_cons_erase hr).symm

/-- Allocating a block for the rest of the kernel. -/
theorem Sound.kmalloc (h : s.Sound L held) {size : Nat} (hsize : size < 2 ^ 32)
    (hcall : s.kmalloc size = some s') : s.Keeps s' ∧ ∃ held', s'.Sound L held' := by
  obtain ⟨⟨p, σ'⟩, hrun, rfl⟩ := Option.map_eq_some_iff.mp hcall
  rcases wp_run (h.holds.callKmalloc size hsize) hrun with
    ⟨rfl, rfl⟩ | ⟨cap, heap, hne, -, rfl, hheld, hframe⟩
  · exact ⟨Keeps.of_frame h.holds rfl (.refl _ _), held, h.holds.record rfl, h.users, h.accounted⟩
  · refine ⟨Keeps.of_frame h.holds rfl ?_, ⟨p, cap⟩ :: held, hheld, ?_, h.accounted⟩
    · exact hframe.mono fun r hr ↦ List.mem_append_right _ hr
    · simpa only [if_neg hne, List.map_cons] using h.users.cons p

/-- A completion by the device. -/
theorem Sound.complete (h : s.Sound L held) {id : UInt16} (hid : id ∈ s.node.txQueue.published)
    (len : UInt32) : s.Keeps (s.complete id len) ∧ (s.complete id len).Sound L held := by
  have hperm : (s.complete id len).node.outstandingIds.Perm s.node.outstandingIds :=
    h.holds.tx.outstanding_complete hid len
  refine ⟨fun i hi ↦ .inl ⟨hperm.mem_iff.mpr hi, rfl, .refl _ _ _⟩, h.holds.complete hid len,
    h.users, ?_⟩
  exact h.accounted.trans (.append_left _ (hperm.map _).symm)

/-- What a turn found is freed unless it is `NULL`. -/
theorem toList_filter_ne_zero {p : Nat} (hp : p ≠ 0) :
    ((some p).filter (· ≠ 0)).toList = [p] := by
  simp [hp]

/-- A turn of the reaper's loop. -/
theorem Sound.turn (h : s.Sound L held) (hturn : s.turn = some s') :
    s.Keeps s' ∧ ∃ L', s'.Sound L' held := by
  obtain ⟨⟨found, σ'⟩, hrun, rfl⟩ := Option.map_eq_some_iff.mp hturn
  rcases wp_run (reapTurn_runs h.holds) hrun with
    ⟨-, rfl, rfl⟩ | ⟨id, rest, stats, hpending, hrest, hne, rfl, rfl, L', hL', -⟩
  · refine ⟨Keeps.of_frame h.holds rfl (.refl _ _), L, h.holds, h.users, ?_⟩
    simpa using h.accounted
  · have hfreed := toList_filter_ne_zero hne
    have hrecycled : (s.node.txQueue.recycle id).published = s.node.txQueue.published := rfl
    have hids : s.node.outstandingIds.Perm (id :: (s.node.txQueue.published ++ rest)) := by
      rw [Node.outstandingIds, hpending]
      exact List.perm_middle
    refine ⟨fun i hi ↦ ?_, L', hL', h.users, ?_⟩
    · by_cases hi' : i = id
      · rw [hi', hpending, hfreed]
        exact .inr ⟨rfl, rfl⟩
      · have hid : id ∈ s.node.outstandingIds := hids.mem_iff.mpr List.mem_cons_self
        have hstays := (List.mem_cons.mp (hids.mem_iff.mp hi)).resolve_left hi'
        refine .inl ⟨?_, Virtqueue.desc_recycle_of_ne hi', h.holds.kfree_agree hid hi hi'⟩
        simpa only [Node.outstandingIds, hrest, hrecycled] using hstays
    · have hbuffers : s.node.outstandingBuffers.Perm
          ((s.node.txQueue.desc id.toNat).addr :: (s.node.txQueue.published ++ rest).map
            fun i ↦ (s.node.txQueue.desc i.toNat).addr) :=
        hids.map _
      simp only [Node.outstandingBuffers, Virtqueue.desc_recycle_addr, hrest, hfreed, hrecycled]
      refine h.accounted.trans ?_
      rw [List.append_assoc]
      exact hbuffers.append_left _

/-- A call of `ethernet_send`. -/
theorem Sound.send (h : s.Sound L held) {destMac : Mac} {ethertype : UInt16} {payload : Pointer}
    {len : UInt32} (hlen : len.toNat + 24 < 2 ^ 32)
    (hsend : s.send destMac ethertype payload len = some s') :
    s.Keeps s' ∧ ∃ L', s'.Sound L' held := by
  obtain ⟨⟨_, σ'⟩, hrun, rfl⟩ := Option.map_eq_some_iff.mp hsend
  have hpublished : ∀ σ', Traffic.published { s with
      node := σ', calls := s.calls ++ [⟨s.node, len, σ'⟩] } =
        s.published ++ SendCall.buffers ⟨s.node, len, σ'⟩ := fun σ' ↦ by
    simp only [Traffic.published, List.flatMap_append, List.flatMap_singleton]
  rcases wp_run (ethernetSend_runs h.holds destMac ethertype payload hlen) hrun with
    ⟨-, rfl⟩ | ⟨p, cap, heap, -, -, -, hheld, hframe, hwritten, hσ', L', hL', -⟩
  · refine ⟨Keeps.of_frame h.holds rfl (.refl _ _), L, h.holds.record rfl, h.users, ?_⟩
    rw [hpublished, SendCall.buffers, List.drop_length, List.map_nil, List.append_nil]
    exact h.accounted
  -- the frame is on the ring, and its block is the newest of the live ones
  · have hpublishes : s.node.Publishes σ' p := by
      rw [hσ']
      exact Node.queueFrame_publishes h.holds.tx _ p _ _
    have hheap : σ'.heap = _ := congrArg Node.heap hσ'
    refine ⟨fun id hid ↦ ?_, L', hL', h.users, ?_⟩
    · obtain ⟨f, hf, -, haddr, hsize⟩ := h.holds.frame_of_id hid
      have hagree := (hframe.trans hwritten) _
        (List.mem_append_right held (Ledger.mem_regions_of_frame hf))
      refine .inl ⟨hpublishes.stays hid, hpublishes.desc hid, ?_⟩
      show Agree _ _ s.node.heap.mem σ'.heap.mem
      rw [haddr, hheap]
      exact hagree.mono le_rfl (Nat.add_le_add_left hsize _)
    · rw [hpublished]
      refine (h.accounted.append_right _).trans ?_
      rw [List.append_assoc]
      exact .append_left _ (List.perm_append_comm.trans (hpublishes.buffers len).symm)

/-- Every step keeps the traffic sound, and the outstanding buffers as they are. -/
theorem Sound.step (h : s.Sound L held) (hstep : Step s s') :
    s.Keeps s' ∧ ∃ L' held', s'.Sound L' held' := by
  cases hstep with
  | send destMac ethertype payload hlen hsend =>
      obtain ⟨hkeeps, L', hL'⟩ := h.send hlen hsend
      exact ⟨hkeeps, L', held, hL'⟩
  | complete len hid =>
      obtain ⟨hkeeps, hL⟩ := h.complete hid len
      exact ⟨hkeeps, L, held, hL⟩
  | turn hturn =>
      obtain ⟨hkeeps, L', hL'⟩ := h.turn hturn
      exact ⟨hkeeps, L', held, hL'⟩
  | kmalloc hsize hcall =>
      obtain ⟨hkeeps, held', hL⟩ := h.kmalloc hsize hcall
      exact ⟨hkeeps, L, held', hL⟩
  | kfree hp =>
      obtain ⟨hkeeps, held', hL⟩ := h.kfree hp
      exact ⟨hkeeps, L, held', hL⟩
  | write hp hlow hhigh =>
      obtain ⟨hkeeps, held', hL⟩ := h.write hp hlow hhigh
      exact ⟨hkeeps, L, held', hL⟩

/-- The traffic is sound in every state that a run reaches. -/
theorem Reaches.sound {c : Setup} (h : Reaches c s) : ∃ L held, s.Sound L held := by
  refine h.invariant (fun s ↦ ∃ L held, s.Sound L held) (fun s hstarts ↦ ?_)
    fun s s' ⟨L, held, hs⟩ hstep ↦ (hs.step hstep).2
  obtain ⟨hstart, hs⟩ := hstarts
  obtain ⟨⟨L, hL, -⟩, hqueue⟩ := wp_run (initialise_spec c) hstart
  have hnone : s.node.outstandingBuffers = [] := by
    rw [Node.outstandingBuffers, hqueue, Virtqueue.pendingIds_init]
    rfl
  refine ⟨L, [], hL.holds, by rw [hs]; exact .refl _, ?_⟩
  rw [hnone, hs]
  exact .refl _

/-- Some turns of the reaper's loop. -/
abbrev Turns : Traffic → Traffic → Prop := Relation.ReflTransGen fun s s' ↦ s.turn = some s'

/-- The loop of `net_tx_reaper` takes turns until the completions are freed. -/
theorem Sound.reapLoop (h : s.Sound L held) {turns : Nat}
    (hturns : s.node.txQueue.pendingIds.length < turns) :
    ∃ s', (Ethernet.reapLoop turns).run s.node = some ((), s'.node) ∧ Turns s s' ∧
      s'.freed = s.freed ++ s.node.completedBuffers ∧ s'.node.txQueue.pendingIds = [] := by
  induction turns generalizing s L with
  | zero => omega
  | succ turns ih =>
      obtain ⟨found, σ', hrun, hcase⟩ := reapTurn_runs h.holds
      have hturn : s.turn = some { s with
          node := σ', freed := s.freed ++ (found.filter (· ≠ 0)).toList } := by
        rw [Traffic.turn, hrun, Option.map_some]
      rw [reapLoop_succ, StateT.run_bind, hrun, Option.bind_eq_bind, Option.bind_some]
      rcases hcase with ⟨hpending, rfl, rfl⟩ | ⟨id, rest, stats, hpending, hrest, hne, rfl, rfl, -⟩
      · refine ⟨s, rfl, .refl, ?_, hpending⟩
        rw [Node.completedBuffers, hpending, List.map_nil, List.append_nil]
      · obtain ⟨-, L₁, h₁⟩ := h.turn hturn
        rw [hpending, List.length_cons] at hturns
        obtain ⟨s', hrun', hturns', hfreed, hdone⟩ := ih h₁ (by rw [hrest]; omega)
        refine ⟨s', hrun', .head hturn hturns', ?_, hdone⟩
        rw [hfreed, toList_filter_ne_zero hne]
        simp [Node.completedBuffers, hpending, hrest]

end Traffic

/-- For every interleaving of sends, completions and turns of the reaper, with other users of the
heap in between: the buffer of every outstanding descriptor is a live block with room for what the
descriptor says; distinct descriptors have distinct buffers; nobody else holds one, `kmalloc` never
hands one out, and no step frees or writes one before its completion is popped; and each is freed
exactly once, by `net_tx_reaper`. -/
theorem transmit_buffers_owned (c : Setup) (s : Traffic) (h : Traffic.Reaches c s) :
    ∃ live, liveBlocks s.node.heap = some live ∧
      (∀ id ∈ s.node.outstandingIds,
        let desc := s.node.txQueue.desc id.toNat
        desc.addr ∈ live ∧ desc.len.toNat ≤ capacity s.node.heap desc.addr) ∧
      s.node.outstandingBuffers.Nodup ∧
      (∀ p ∈ s.users, p ∉ s.node.outstandingBuffers) ∧
      (∀ size < 2 ^ 32, ∃ p heap,
        kmalloc s.node.heap size = some (p, heap) ∧ p ∉ s.node.outstandingBuffers) ∧
      (∀ s', Traffic.Step s s' → s.Keeps s') ∧
      s.published.Perm (s.freed ++ s.node.outstandingBuffers) ∧
      ∃ s', netTxReaper.run s.node = some ((), s'.node) ∧ Traffic.Turns s s' ∧
        s'.freed = s.freed ++ s.node.completedBuffers ∧ s'.node.txQueue.pendingIds = [] := by
  obtain ⟨L, held, hs⟩ := h.sound
  obtain ⟨live, hlive, hheld⟩ := hs.holds.outstanding_live
  refine ⟨live, hlive, hheld, hs.holds.nodup_buffers.of_append_right,
    fun p hp ↦ hs.users_notMem hp, fun size hsize ↦ hs.holds.kmalloc_fresh hsize,
    fun s' hstep ↦ (hs.step hstep).1, hs.accounted, hs.reapLoop ?_⟩
  rw [Virtqueue.length_pendingIds]
  exact UInt16.toNat_lt _

/-- Of two published frames the second is completed first: a call of `net_tx_reaper` frees its
buffer, and the device keeps the other. -/
theorem transmit_buffers_owned_two : ∃ s s' : Traffic, Traffic.Reaches .sample s ∧
    s.published = [heapStart + 120, heapStart + 168] ∧
    netTxReaper.run s.node = some ((), s'.node) ∧ s'.freed = [heapStart + 168] := by
  have hrun : (Traffic.afterSends .sample 2).any (fun s : Traffic ↦ decide
      (s.published = [heapStart + 120, heapStart + 168] ∧ s.freed = [] ∧
        1 ∈ s.node.txQueue.published ∧
        (s.complete 1 24).node.completedBuffers = [heapStart + 168])) = true := by
    decide +kernel
  obtain ⟨s, hsends, hs⟩ := (Option.any_eq_true _ _).mp hrun
  obtain ⟨hpublished, hfreed, hid, hcompleted⟩ := of_decide_eq_true hs
  have hreaches : Traffic.Reaches .sample (s.complete 1 24) :=
    (Traffic.afterSends_reaches hsends).step (.complete 24 hid)
  obtain ⟨-, -, -, -, -, -, -, -, s', hrun, -, hreaped, -⟩ :=
    transmit_buffers_owned .sample _ hreaches
  refine ⟨s.complete 1 24, s', hreaches, hpublished, hrun, ?_⟩
  rw [hreaped, hcompleted]
  exact congrArg (· ++ _) hfreed

end Aether.Ethernet
