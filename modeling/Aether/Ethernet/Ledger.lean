import Aether.Drivers.VirtioRingInvariant
import Aether.Ethernet.Node
import Aether.Kernel.Ownership
import Aether.Lib.Wp

/-!
# Who owns which heap block

A `Ledger` says what every live heap block of a node is for: the device structure, a TCB, the
buffer of an outstanding TX descriptor, or a block that nothing refers to any more. `Ledger.Holds`
connects the ledger with the heap, the TCB list in memory and the TX queue; `held` are the blocks
that the running functions have allocated and not yet passed on. The rules below say what the
elementary actions do to it.
-/

namespace Aether.Ethernet

open ByteMemory Kernel Drivers Program

/-- A block that holds a TCB. -/
structure TcbBlock extends Region where
  conn : Conn
  deriving DecidableEq

/-- The buffer of an outstanding TX descriptor. -/
structure FrameBlock extends Region where
  id : UInt16
  deriving DecidableEq

/-- The purpose of every live block. -/
structure Ledger where
  dev : Region
  tcbs : List TcbBlock
  frames : List FrameBlock
  orphans : List Region

namespace Ledger

/-- All live blocks. -/
def regions (L : Ledger) : List Region :=
  L.dev :: (L.tcbs.map TcbBlock.toRegion ++ L.frames.map FrameBlock.toRegion ++ L.orphans)

/-- The ledger with the connection at `p` changed. -/
def update (L : Ledger) (p : Nat) (f : Conn → Conn) : Ledger :=
  { L with tcbs := L.tcbs.map fun b ↦ if b.ptr = p then { b with conn := f b.conn } else b }

end Ledger

/-- The TCB list from `head` visits `tcbs`, in order. -/
def Linked (mem : Memory) : Nat → List TcbBlock → Prop
  | head, [] => head = 0
  | head, b :: rest =>
      head = b.ptr ∧ ∃ next < 2 ^ 64,
        readBytes mem b.ptr sizeofTcb = (Tcb.mk b.conn next).bytes ∧ Linked mem next rest

/-- The event marks a block that its function leaves to nobody. -/
def Event.Leaks : Event → Bool
  | .handed .. => true
  | .ringFull => true
  | _ => false

/-- The ledger, together with the blocks `held` by running functions, accounts for the state. -/
structure Ledger.Holds (L : Ledger) (σ : Node) (held : List Region) : Prop where
  owns : Owns σ.heap (held ++ L.regions)
  linked : Linked σ.heap.mem σ.tcpTcbList L.tcbs
  room : ∀ b ∈ L.tcbs, sizeofTcb ≤ b.cap
  live : σ.liveTcbs = L.tcbs.map (·.ptr)
  dev : σ.globalVnetDev = some ⟨L.dev.ptr, true, true⟩
  tx : σ.txQueue.Balanced []
  outstanding : (L.frames.map FrameBlock.id).Perm (σ.txQueue.published ++ σ.txQueue.pendingIds)
  buffers : ∀ f ∈ L.frames, (σ.txQueue.desc f.id.toNat).addr = f.ptr ∧
    (σ.txQueue.desc f.id.toNat).len.toNat ≤ f.cap
  leaks : L.orphans.length = σ.log.countP Event.Leaks

/-! ## The TCB list in memory -/

section Linked

variable {mem mem' : Memory} {head : Nat} {tcbs : List TcbBlock}

/-- Rewriting TCBs in place keeps the list linked as long as the links stay. -/
theorem Linked.map (h : Linked mem head tcbs) (g : TcbBlock → TcbBlock)
    (hptr : ∀ b ∈ tcbs, (g b).ptr = b.ptr)
    (hbytes : ∀ b ∈ tcbs, ∀ next < 2 ^ 64,
      readBytes mem b.ptr sizeofTcb = (Tcb.mk b.conn next).bytes →
      readBytes mem' b.ptr sizeofTcb = (Tcb.mk (g b).conn next).bytes) :
    Linked mem' head (tcbs.map g) := by
  induction tcbs generalizing head with
  | nil => exact h
  | cons b rest ih =>
      obtain ⟨hhead, next, hnext, hread, hrest⟩ := h
      have hb := hptr b List.mem_cons_self
      refine ⟨hhead.trans hb.symm, next, hnext, ?_, ?_⟩
      · rw [hb]
        exact hbytes b List.mem_cons_self next hnext hread
      · exact ih hrest (fun c hc ↦ hptr c (List.mem_cons_of_mem b hc))
          fun c hc ↦ hbytes c (List.mem_cons_of_mem b hc)

/-- The list depends only on the TCBs' bytes. -/
theorem Linked.frame (h : Linked mem head tcbs) (hroom : ∀ b ∈ tcbs, sizeofTcb ≤ b.cap)
    (hmem : ∀ b ∈ tcbs, Agree b.ptr b.cap mem mem') : Linked mem' head tcbs := by
  have hbytes : ∀ b ∈ tcbs, ∀ next < 2 ^ 64,
      readBytes mem b.ptr sizeofTcb = (Tcb.mk b.conn next).bytes →
      readBytes mem' b.ptr sizeofTcb = (Tcb.mk b.conn next).bytes := fun b hb next _ hread ↦ by
    have := hroom b hb
    rw [((hmem b hb).mono le_rfl (k := sizeofTcb) (by omega)).readBytes, hread]
  simpa using h.map id (fun _ _ ↦ rfl) hbytes

/-- A listed TCB is in memory. -/
theorem Linked.tcb (h : Linked mem head tcbs) {b : TcbBlock} (hb : b ∈ tcbs) :
    ∃ next < 2 ^ 64, readBytes mem b.ptr sizeofTcb = (Tcb.mk b.conn next).bytes := by
  induction tcbs generalizing head with
  | nil => cases hb
  | cons c rest ih =>
      obtain ⟨_, next, hnext, hread, hrest⟩ := h
      rcases List.mem_cons.mp hb with rfl | hb
      · exact ⟨next, hnext, hread⟩
      · exact ih hrest hb

end Linked

/-! ## Facts about a ledger that holds -/

namespace Ledger

variable {L : Ledger} {σ : Node} {held : List Region}

@[simp] theorem regions_update (p : Nat) (f : Conn → Conn) :
    (L.update p f).regions = L.regions := by
  simp only [regions, update, List.map_map]
  congr 3
  refine List.map_congr_left fun b _ ↦ ?_
  simp only [Function.comp]
  split <;> rfl

theorem mem_regions_of_tcb {b : TcbBlock} (hb : b ∈ L.tcbs) : b.toRegion ∈ L.regions := by
  simp only [regions, List.mem_cons, List.mem_append]
  exact .inr (.inl (.inl (List.mem_map_of_mem hb)))

theorem mem_regions_of_frame {f : FrameBlock} (hf : f ∈ L.frames) : f.toRegion ∈ L.regions := by
  simp only [regions, List.mem_cons, List.mem_append]
  exact .inr (.inl (.inr (List.mem_map_of_mem hf)))

/-- TCBs are at distinct addresses. -/
theorem Holds.nodup_tcbs (h : L.Holds σ held) : (L.tcbs.map (·.ptr)).Nodup := by
  have hnodup := h.owns.nodup
  simp only [regions, List.map_append, List.map_cons, List.map_map] at hnodup
  exact (List.nodup_cons.mp hnodup.of_append_right).2.of_append_left.of_append_left

/-- The TCB at an address is unique. -/
theorem Holds.tcb_unique (h : L.Holds σ held) {b c : TcbBlock} (hb : b ∈ L.tcbs) (hc : c ∈ L.tcbs)
    (hbc : b.ptr = c.ptr) : b = c :=
  List.inj_on_of_nodup_map h.nodup_tcbs hb hc hbc

/-- No TCB is at `NULL`. -/
theorem Holds.tcb_ne_zero (h : L.Holds σ held) {b : TcbBlock} (hb : b ∈ L.tcbs) : b.ptr ≠ 0 :=
  h.owns.ptr_ne_zero (List.mem_append_right held (mem_regions_of_tcb hb))

/-- There are fewer TCBs than the list walks have fuel. -/
theorem Holds.length_tcbs (h : L.Holds σ held) : L.tcbs.length < maxBlocks + 1 := by
  have := h.owns.length_le
  simp only [regions, List.length_append, List.length_cons, List.length_map] at this
  omega

/-- Recording an event that marks no leak keeps the ledger. -/
theorem Holds.record (h : L.Holds σ held) {e : Event} (he : e.Leaks = false) :
    L.Holds { σ with log := e :: σ.log } held :=
  { h with leaks := by rw [h.leaks, List.countP_cons_of_neg (by simp [he])] }

/-- The initial sequence number is nobody's block. -/
theorem Holds.isn (h : L.Holds σ held) (isn : UInt32) :
    L.Holds { σ with tcpGlobalIsn := isn } held := { h with }

/-- The receiving side, the counters and the ARP cache hold no blocks. -/
theorem Holds.outside (h : L.Holds σ held) (stats : NetStats) (rxQueue : Virtqueue) (rx : Memory)
    (cache : List ArpEntry) :
    L.Holds { σ with
      netStats := stats, rxQueue := rxQueue, rxBuffers := rx, arpCache := cache } held :=
  { h with }

/-- A completion by the device leaves its buffer outstanding until it is reaped. -/
theorem Holds.complete (h : L.Holds σ held) {id : UInt16} (hid : id ∈ σ.txQueue.published)
    (len : UInt32) : L.Holds { σ with txQueue := deviceComplete σ.txQueue id len } held :=
  { h with
    tx := h.tx.complete hid len
    outstanding := h.outstanding.trans (h.tx.outstanding_complete hid len).symm }

/-- Giving a held block up for lost, as the event says. -/
theorem Holds.abandon {r : Region} (h : L.Holds σ (r :: held)) {e : Event} (he : e.Leaks = true) :
    Ledger.Holds { L with orphans := r :: L.orphans } { σ with log := e :: σ.log } held :=
  { h with
    owns := h.owns.perm <| by
      simp only [regions, List.cons_append]
      refine .trans List.perm_middle.symm (.append_left held (.trans (.swap _ _ _) (.cons _ ?_)))
      exact List.perm_middle.symm
    leaks := by
      rw [List.length_cons, h.leaks, List.countP_cons_of_pos he] }

/-- A change of heap that keeps ownership and the TCBs' bytes keeps the ledger. -/
theorem Holds.heap (h : L.Holds σ held) {heap : Heap} {held' : List Region}
    (howns : Owns heap (held' ++ L.regions))
    (hframe : ∀ b ∈ L.tcbs, Agree b.ptr b.cap σ.heap.mem heap.mem) :
    L.Holds { σ with heap := heap } held' :=
  { h with owns := howns, linked := h.linked.frame h.room hframe }

end Ledger

/-! ## Elementary actions -/

section Actions

variable {L : Ledger} {σ : Node} {held : List Region}

@[simp] theorem wp_note {e : Event} {post : Unit → Node → Prop} :
    wp (note e) post σ ↔ post () { σ with log := e :: σ.log } :=
  wp_of_run rfl

@[simp] theorem wp_callKfree {p : Nat} {post : Unit → Node → Prop} :
    wp (callKfree p) post σ ↔ post () { σ with heap := kfree σ.heap p } :=
  wp_of_run rfl

@[simp] theorem wp_readHeap {a n : Nat} {post : List UInt8 → Node → Prop} :
    wp (readHeap a n) post σ ↔ post (readBytes σ.heap.mem a n) σ :=
  wp_of_run rfl

@[simp] theorem wp_writeHeap {a : Nat} {bs : List UInt8} {post : Unit → Node → Prop} :
    wp (writeHeap a bs) post σ ↔ post () { σ with heap := σ.heap.write a bs } :=
  wp_of_run rfl

@[simp] theorem wp_readRx {a n : Nat} {post : List UInt8 → Node → Prop} :
    wp (readRx a n) post σ ↔ post (readBytes σ.rxBuffers a n) σ :=
  wp_of_run rfl

@[simp] theorem wp_writeRx {a : Nat} {bs : List UInt8} {post : Unit → Node → Prop} :
    wp (writeRx a bs) post σ ↔ post () { σ with rxBuffers := writeBytes σ.rxBuffers a bs } :=
  wp_of_run rfl

/-- `kmalloc` fails and only says so, or hands out a block that the caller holds from then on. -/
theorem Ledger.Holds.callKmalloc (h : L.Holds σ held) (size : Nat) (hsize : size < 2 ^ 32) :
    wp (callKmalloc size) (fun p σ' ↦
      (p = 0 ∧ σ' = { σ with log := .noMemory :: σ.log }) ∨
      ∃ cap heap, p ≠ 0 ∧ size ≤ cap ∧ σ' = { σ with heap := heap } ∧
        L.Holds σ' (⟨p, cap⟩ :: held) ∧ Frame (held ++ L.regions) σ.heap.mem heap.mem) σ := by
  obtain ⟨p, heap, hcall, hcase⟩ := h.owns.kmalloc hsize
  simp only [Ethernet.callKmalloc, wp_bind, wp_get, hcall, wp_set, wp_pure]
  rcases hcase with ⟨rfl, rfl⟩ | ⟨cap, hcap, howns, hframe⟩
  · exact .inl ⟨rfl, rfl⟩
  · have hp : p ≠ 0 := howns.ptr_ne_zero (r := ⟨p, cap⟩) List.mem_cons_self
    simp only [hp, ↓reduceIte]
    refine .inr ⟨cap, heap, hp, hcap, rfl, h.heap howns fun b hb ↦ ?_, hframe⟩
    exact hframe _ (List.mem_append_right held (mem_regions_of_tcb hb))

/-- A write inside a held block leaves every other block alone. -/
theorem Ledger.Holds.write {r : Region} (h : L.Holds σ (r :: held)) (a : Nat) (bs : List UInt8)
    (hlow : r.ptr ≤ a) (hhigh : a + bs.length ≤ r.ptr + r.cap) :
    L.Holds { σ with heap := σ.heap.write a bs } (r :: held) ∧
      Frame (held ++ L.regions) σ.heap.mem (σ.heap.write a bs).mem := by
  have hall : Owns σ.heap (r :: (held ++ L.regions)) := h.owns
  obtain ⟨howns, hframe⟩ := hall.write a bs hlow hhigh
  refine ⟨h.heap howns fun b hb ↦ ?_, hframe⟩
  exact hframe _ (List.mem_append_right held (mem_regions_of_tcb hb))

/-- Freeing a held block. -/
theorem Ledger.Holds.kfree {r : Region} (h : L.Holds σ (r :: held)) :
    L.Holds { σ with heap := kfree σ.heap r.ptr } held := by
  have hall : Owns σ.heap (r :: (held ++ L.regions)) := h.owns
  obtain ⟨howns, hframe⟩ := hall.kfree
  exact h.heap howns fun b hb ↦
    hframe _ (List.mem_append_right held (mem_regions_of_tcb hb))

/-- Reading a listed TCB. -/
theorem Ledger.Holds.readTcb (h : L.Holds σ held) {b : TcbBlock} (hb : b ∈ L.tcbs) :
    ∃ next < 2 ^ 64, readBytes σ.heap.mem b.ptr sizeofTcb = (Tcb.mk b.conn next).bytes ∧
      (Ethernet.readTcb b.ptr).run σ = some (⟨b.conn, next⟩, σ) := by
  obtain ⟨next, hnext, hread⟩ := h.linked.tcb hb
  have hlive : b.ptr ∈ σ.liveTcbs := by
    rw [h.live]
    exact List.mem_map_of_mem hb
  refine ⟨next, hnext, hread, ?_⟩
  simp [Ethernet.readTcb, hlive, hread, Tcb.ofBytes_bytes ⟨b.conn, next⟩ hnext]

/-- Assigning to fields of a listed TCB changes its connection and nothing else. -/
theorem Ledger.Holds.updateTcb (h : L.Holds σ held) {b : TcbBlock} (hb : b ∈ L.tcbs)
    {f : Tcb → Tcb} {g : Conn → Conn} (hf : ∀ c next, f ⟨c, next⟩ = ⟨g c, next⟩) :
    wp (updateTcb b.ptr f) (fun _ σ' ↦
      (L.update b.ptr g).Holds σ' held ∧
        ∃ heap, σ.heap.SameBlocks heap ∧ σ' = { σ with heap := heap }) σ := by
  obtain ⟨next, hnext, hread, hrun⟩ := h.readTcb hb
  have hroom := h.room b hb
  have hmem := List.mem_append_right held (mem_regions_of_tcb hb)
  have hlen : (Tcb.mk (g b.conn) next).bytes.length = sizeofTcb := Tcb.length_bytes _
  obtain ⟨howns, hframe⟩ := h.owns.write_mem hmem b.ptr (Tcb.mk (g b.conn) next).bytes le_rfl
    (by rw [hlen]; omega)
  have hblocks := h.owns.sameBlocks_write hmem b.ptr (Tcb.mk (g b.conn) next).bytes le_rfl
    (by rw [hlen]; omega)
  simp only [Ethernet.updateTcb, wp_bind, wp_of_run hrun, wp_writeHeap, hf]
  refine ⟨{ h with owns := by rwa [regions_update], linked := ?_, room := ?_, live := ?_ },
    _, hblocks, rfl⟩
  · refine h.linked.map _ (fun c _ ↦ by split <;> rfl) fun c hc next' hnext' hread' ↦ ?_
    by_cases hcb : c.ptr = b.ptr
    · obtain rfl := h.tcb_unique hc hb hcb
      obtain rfl : next' = next := Tcb.next_inj hnext' hnext (hread'.symm.trans hread)
      simp only [↓reduceIte]
      have := read_write_same σ.heap.mem c.ptr (Tcb.mk (g c.conn) next').bytes
      rwa [hlen] at this
    · simp only [hcb, ↓reduceIte]
      have hagree := hframe _ (List.mem_append_right held (mem_regions_of_tcb hc)) hcb
      have := h.room c hc
      rw [(hagree.mono (b := c.ptr) (k := sizeofTcb) le_rfl (by omega)).readBytes, hread']
  · simp only [update, List.mem_map]
    rintro _ ⟨c, hc, rfl⟩
    have := h.room c hc
    split <;> exact this
  · simp only [h.live, update, List.map_map]
    refine List.map_congr_left fun c _ ↦ ?_
    simp only [Function.comp]
    split <;> rfl

end Actions

end Aether.Ethernet
