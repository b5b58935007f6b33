import Aether.Ethernet.Ledger
import Aether.Ethernet.Send

/-!
# What transmission does

`ethernet_send` and `ipv4_send` record one event each: a published frame, a full ring or a refused
allocation. The frame's bytes are `ethernetFrame` and `ipv4Packet` of what the caller passed.
Neither changes anything but the heap, the counters, the TX queue and the log, and the TCBs keep
their contents.
-/

namespace Aether.Ethernet

open ByteMemory Kernel Drivers Common Program

/-- The buffer that `ethernet_send` publishes. -/
def ethernetFrame (srcMac destMac : Mac) (ethertype : UInt16) (payload : List UInt8) :
    List UInt8 :=
  List.replicate 10 0 ++ ((EthHeader.mk destMac srcMac (htons ethertype)).bytes ++ payload)

/-- The header that `ipv4_send` sends. -/
def ipv4HeaderSent (srcIp dstIp : UInt32) (protocol : UInt8) (totalLen : UInt32) : Ipv4Header :=
  let ip := ipv4Header srcIp dstIp protocol totalLen
  { ip with checksum := ipv4Checksum ip.bytes }

/-- The packet that `ipv4_send` hands to `ethernet_send`. -/
def ipv4Packet (srcIp dstIp : UInt32) (protocol : UInt8) (payload : List UInt8) : List UInt8 :=
  (ipv4HeaderSent srcIp dstIp protocol (20 + UInt32.ofNat payload.length)).bytes ++ payload

/-- The event that an attempt to publish `frame` records. -/
def Event.Sends (frame : List UInt8) (e : Event) : Prop :=
  e = .noMemory ∨ e = .ringFull ∨ e = .transmitted frame

/-- The functions that led from `σ` to `σ'` transmitted, recording `events`, and changed nothing
but the heap, the counters, the TX queue and the log. -/
def Transmits (σ σ' : Node) (events : List Event) : Prop :=
  ∃ heap stats vq, σ' =
    { σ with heap := heap, netStats := stats, txQueue := vq, log := events ++ σ.log }

/-- The two ledgers have the same device block and the same TCBs. -/
def Ledger.SameTcbs (L L' : Ledger) : Prop := L'.dev = L.dev ∧ L'.tcbs = L.tcbs

/-- The pointer refers to the given bytes, which lie in one of the regions or in a local variable
of the caller. -/
def Pointer.Denotes (mem : Memory) (regions : List Region) : Pointer → List UInt8 → Prop
  | .heap addr, bytes => readBytes mem addr bytes.length = bytes ∧
      ∃ r ∈ regions, r.ptr ≤ addr ∧ addr + bytes.length ≤ r.ptr + r.cap
  | .stack local_, bytes => local_ = bytes

/-- What a pointer refers to survives a change of memory elsewhere. -/
theorem Pointer.Denotes.frame {mem mem' : Memory} {regions : List Region} {ptr : Pointer}
    {bytes : List UInt8} (h : ptr.Denotes mem regions bytes) (hmem : Frame regions mem mem') :
    ptr.Denotes mem' regions bytes := by
  cases ptr with
  | stack local_ => exact h
  | heap addr =>
      obtain ⟨hread, r, hr, hlow, hhigh⟩ := h
      refine ⟨?_, r, hr, hlow, hhigh⟩
      rw [((hmem r hr).mono hlow hhigh).readBytes, hread]

/-- The `n` bytes that are read through a pointer. -/
def Pointer.bytes (mem : Memory) (n : Nat) : Pointer → List UInt8
  | .heap addr => readBytes mem addr n
  | .stack local_ => local_.take n

theorem Pointer.length_bytes_le (mem : Memory) (n : Nat) (ptr : Pointer) :
    (ptr.bytes mem n).length ≤ n := by
  cases ptr with
  | heap addr => simp [bytes]
  | stack local_ => simp [bytes]

/-- Reading through a pointer gives what it refers to. -/
theorem Pointer.Denotes.bytes_eq {mem : Memory} {regions : List Region} {ptr : Pointer}
    {bytes : List UInt8} (h : ptr.Denotes mem regions bytes) :
    ptr.bytes mem bytes.length = bytes := by
  cases ptr with
  | stack local_ =>
      obtain rfl : local_ = bytes := h
      simp [Pointer.bytes]
  | heap addr => exact h.1

section Specs

variable {L : Ledger} {σ : Node} {held : List Region}

/-- The event that `ethernet_send` records for a frame. -/
def Node.sendEvent (σ : Node) (frame : List UInt8) : Event :=
  if σ.txQueue.numFree = 0 then .ringFull else .transmitted frame

/-- What `ethernet_send` records for a frame is about that frame. -/
theorem Node.sends_sendEvent (σ : Node) (frame : List UInt8) : (σ.sendEvent frame).Sends frame := by
  unfold sendEvent
  split
  · exact .inr (.inl rfl)
  · exact .inr (.inr rfl)

/-- The node after `ethernet_send` has queued the buffer at `p` and recorded `frame`. -/
def Node.queueFrame (σ : Node) (p : Nat) (len : UInt32) (frame : List UInt8) : Node :=
  let added := virtqueueAddDescriptor σ.txQueue σ.netStats p len 0
  { σ with
    log := σ.sendEvent frame :: σ.log
    txQueue := virtqueuePushAvailable added.2.1 added.1
    netStats := added.2.2 }

/-- A held block that is queued becomes the buffer of an outstanding descriptor, or is lost when
the ring is full. -/
theorem Ledger.Holds.queueFrame {p cap : Nat} (h : L.Holds σ (⟨p, cap⟩ :: held)) (len : UInt32)
    (hlen : len.toNat ≤ cap) (frame : List UInt8) :
    ∃ L' : Ledger, L'.Holds (σ.queueFrame p len frame) held ∧ L.SameTcbs L' := by
  by_cases hfull : σ.txQueue.numFree = 0
  · obtain ⟨hadd, hbal, hpublished⟩ := h.tx.submit_full hfull σ.netStats p len 0
    have habandon := h.abandon (e := .ringFull) rfl
    refine ⟨{ L with orphans := ⟨p, cap⟩ :: L.orphans }, ?_, rfl, rfl⟩
    simp only [Node.queueFrame, Node.sendEvent, hadd, hfull, ↓reduceIte]
    exact { habandon with
      tx := hbal
      outstanding := by rw [hpublished]; exact h.outstanding
      buffers := h.buffers }
  · obtain ⟨head, added, stats, hadd, hbal, hpublished, hpending, hdesc, hother⟩ :=
      h.tx.submit hfull σ.netStats p len 0
    refine ⟨{ L with frames := ⟨⟨p, cap⟩, head⟩ :: L.frames }, ?_, rfl, rfl⟩
    simp only [Node.queueFrame, Node.sendEvent, hadd, hfull, ↓reduceIte]
    exact { h with
      owns := h.owns.perm <| by
        simp only [Ledger.regions, List.map_cons, List.cons_append]
        refine .trans List.perm_middle.symm (.append_left held (.trans (.swap _ _ _) (.cons _ ?_)))
        rw [List.append_assoc, List.append_assoc]
        exact List.perm_middle.symm
      tx := hbal
      outstanding := by
        rw [hpublished, hpending, List.map_cons, List.append_assoc, List.singleton_append]
        exact (h.outstanding.cons head).trans List.perm_middle.symm
      buffers := by
        intro f hf
        rcases List.mem_cons.mp hf with rfl | hf
        · exact ⟨by rw [hdesc], by rw [hdesc]; exact hlen⟩
        · rw [hother f.id (h.outstanding.mem_iff.mp (List.mem_map_of_mem hf))]
          exact h.buffers f hf
      leaks := by rw [h.leaks, List.countP_cons_of_neg (by simp [Event.Leaks])] }

@[simp] theorem wp_addTxDescriptor {p : Nat} {len : UInt32} {post : UInt16 → Node → Prop} :
    wp (addTxDescriptor p len) post σ ↔
      post (virtqueueAddDescriptor σ.txQueue σ.netStats p len 0).1 { σ with
        txQueue := (virtqueueAddDescriptor σ.txQueue σ.netStats p len 0).2.1
        netStats := (virtqueueAddDescriptor σ.txQueue σ.netStats p len 0).2.2 } :=
  wp_of_run rfl

@[simp] theorem wp_pushTxAvailable {head : UInt16} {post : Unit → Node → Prop} :
    wp (pushTxAvailable head) post σ ↔
      post () { σ with txQueue := virtqueuePushAvailable σ.txQueue head } :=
  wp_of_run rfl

@[simp] theorem wp_readPointer {ptr : Pointer} {n : Nat} {post : List UInt8 → Node → Prop} :
    wp (readPointer ptr n) post σ ↔ post (ptr.bytes σ.heap.mem n) σ := by
  cases ptr with
  | heap addr => exact wp_of_run rfl
  | stack local_ => exact wp_of_run rfl

theorem length_ethernetFrame (srcMac destMac : Mac) (ethertype : UInt16) (payload : List UInt8) :
    (ethernetFrame srcMac destMac ethertype payload).length = 24 + payload.length := by
  simp [ethernetFrame]
  omega

/-- The Ethernet header stored behind the zeroed virtio header. -/
theorem write_ethHeader (mem : Memory) (p : Nat) (eth : EthHeader) :
    writeBytes (writeBytes mem p (List.replicate 10 0)) (p + 10) eth.bytes =
      writeBytes mem p (List.replicate 10 0 ++ eth.bytes) := by
  have := writeBytes_append mem p (List.replicate 10 0) eth.bytes
  rwa [List.length_replicate] at this

/-- The payload stored behind both headers. -/
theorem write_ethPayload (mem : Memory) (p : Nat) (srcMac destMac : Mac) (ethertype : UInt16)
    (payload : List UInt8) :
    writeBytes (writeBytes mem p (List.replicate 10 0 ++
        (EthHeader.mk destMac srcMac (htons ethertype)).bytes)) (p + 24) payload =
      writeBytes mem p (ethernetFrame srcMac destMac ethertype payload) := by
  have := writeBytes_append mem p (List.replicate 10 0 ++
    (EthHeader.mk destMac srcMac (htons ethertype)).bytes) payload
  rwa [List.length_append, List.length_replicate, EthHeader.length_bytes, List.append_assoc] at this

/-- What `callKmalloc` returns is what `kmalloc` returns. -/
theorem kmalloc_of_run {size p : Nat} {σ' : Node} (h : (callKmalloc size).run σ = some (p, σ')) :
    kmalloc σ.heap size = some (p, σ'.heap) := by
  simp only [callKmalloc, StateT.run_bind, StateT.run_get, Option.pure_def, Option.bind_eq_bind,
    Option.bind_some] at h
  cases hcall : kmalloc σ.heap size with
  | none =>
      rw [hcall] at h
      cases h
  | some r =>
      rw [hcall] at h
      cases h
      rfl

/-- The frame that `ethernet_send` builds in the block at `p`, from the `n` bytes that its caller
passed. -/
def Node.builtFrame (σ : Node) (mem : Memory) (p : Nat) (destMac : Mac) (ethertype : UInt16)
    (ptr : Pointer) (n : Nat) : List UInt8 :=
  let header := List.replicate 10 0 ++ (EthHeader.mk destMac σ.aetherMac (htons ethertype)).bytes
  ethernetFrame σ.aetherMac destMac ethertype (ptr.bytes (writeBytes mem p header) n)

/-- The length of a frame, when it fits 32 bits. -/
theorem toNat_frameLength {len : UInt32} (hlen : len.toNat + 24 < 2 ^ 32) :
    (sizeofVirtioNetHdr + 14 + len).toNat = 24 + len.toNat := by
  rw [UInt32.toNat_add]
  simp only [sizeofVirtioNetHdr, UInt32.reduceAdd, UInt32.reduceToNat]
  exact Nat.mod_eq_of_lt (by omega)

/-- `ethernet_send` gives up when there is no memory. Otherwise it fills a block of its own and
queues it, whatever its caller passed. -/
theorem ethernetSend_runs (h : L.Holds σ held) (destMac : Mac) (ethertype : UInt16)
    (ptr : Pointer) {len : UInt32} (hlen : len.toNat + 24 < 2 ^ 32) :
    wp (ethernetSend destMac ethertype ptr len) (fun _ σ' ↦
      (kmalloc σ.heap (24 + len.toNat) = some (0, σ.heap) ∧
        σ' = { σ with log := .noMemory :: σ.log }) ∨
      ∃ p cap heap, kmalloc σ.heap (24 + len.toNat) = some (p, heap) ∧ p ≠ 0 ∧
        24 + len.toNat ≤ cap ∧ L.Holds { σ with heap := heap } (⟨p, cap⟩ :: held) ∧
        Frame (held ++ L.regions) σ.heap.mem heap.mem ∧
        let filled := heap.write p (σ.builtFrame heap.mem p destMac ethertype ptr len.toNat)
        Frame (held ++ L.regions) heap.mem filled.mem ∧
        σ' = Node.queueFrame { σ with heap := filled } p (sizeofVirtioNetHdr + 14 + len)
          (readBytes filled.mem p (24 + len.toNat)) ∧
        ∃ L' : Ledger, L'.Holds σ' held ∧ L.SameTcbs L') σ := by
  have htotal := toNat_frameLength hlen
  have hdev : (σ.globalVnetDev.any fun dev ↦ dev.txVq) = true := by simp [h.dev]
  obtain ⟨p, σ', hrun, hcase⟩ := h.callKmalloc (24 + len.toNat) (by omega)
  have hcall := kmalloc_of_run hrun
  simp only [ethernetSend, wp_bind, wp_get, hdev, ↓reduceIte, htotal, wp_of_run hrun]
  rcases hcase with ⟨rfl, rfl⟩ | ⟨cap, heap, hne, hcap, rfl, hheld, hframe⟩
  · simp only [↓reduceIte, wp_pure]
    exact .inl ⟨hcall, trivial⟩
  · have hfits : (σ.builtFrame heap.mem p destMac ethertype ptr len.toNat).length ≤ cap := by
      rw [Node.builtFrame, length_ethernetFrame]
      exact (Nat.add_le_add_left (Pointer.length_bytes_le _ _ ptr) 24).trans hcap
    obtain ⟨hfilled, hwritten⟩ := hheld.write p _ le_rfl (Nat.add_le_add_left hfits p)
    have hqueued := hfilled.queueFrame (sizeofVirtioNetHdr + 14 + len) (by rw [htotal]; exact hcap)
    simp only [hne, ↓reduceIte, wp_bind, wp_writeHeap, Heap.write, write_ethHeader, wp_readPointer,
      write_ethPayload, wp_readHeap, wp_get, wp_note, wp_addTxDescriptor, wp_pushTxAvailable]
    exact .inr ⟨p, cap, heap, hcall, hne, hcap, hheld, hframe, hwritten, rfl, hqueued _⟩

/-- `ethernet_send` gives up when there is no memory, or queues the frame around the bytes that its
caller passed in a block of its own. -/
theorem ethernetSend_queues (h : L.Holds σ held) (destMac : Mac) (ethertype : UInt16)
    (ptr : Pointer) (bytes : List UInt8)
    (hptr : ptr.Denotes σ.heap.mem (held ++ L.regions) bytes)
    (hlen : bytes.length + 24 < 2 ^ 32) :
    wp (ethernetSend destMac ethertype ptr (UInt32.ofNat bytes.length)) (fun _ σ' ↦
      (kmalloc σ.heap (24 + bytes.length) = some (0, σ.heap) ∧
        σ' = { σ with log := .noMemory :: σ.log }) ∨
      ∃ q cap heap₀ heap, kmalloc σ.heap (24 + bytes.length) = some (q, heap₀) ∧ q ≠ 0 ∧
        Owns heap (⟨q, cap⟩ :: (held ++ L.regions)) ∧
        σ' = Node.queueFrame { σ with heap := heap } q
          (sizeofVirtioNetHdr + 14 + UInt32.ofNat bytes.length)
          (ethernetFrame σ.aetherMac destMac ethertype bytes) ∧
        ∃ L' : Ledger, L'.Holds σ' held ∧ L.SameTcbs L') σ := by
  have hlenNat : (UInt32.ofNat bytes.length).toNat = bytes.length :=
    UInt32.toNat_ofNat_of_lt' (by rw [UInt32.size]; omega)
  refine wp_mono (ethernetSend_runs h destMac ethertype ptr (by omega)) ?_
  intro _ σ' hcase
  rw [hlenNat] at hcase
  rcases hcase with ⟨hcall, rfl⟩ | ⟨p, cap, heap, hcall, hne, hcap, hheld, hframe, -, rfl, hqueued⟩
  · exact .inl ⟨hcall, rfl⟩
  · let header := List.replicate 10 0 ++ (EthHeader.mk destMac σ.aetherMac (htons ethertype)).bytes
    have hheader : header.length = 24 := by simp [header]
    -- the payload is not in the block that the header was stored into
    have hstored : Frame (held ++ L.regions) heap.mem (writeBytes heap.mem p header) :=
      (hheld.write p header le_rfl (by rw [hheader]; dsimp only; omega)).2
    have hbuilt : σ.builtFrame heap.mem p destMac ethertype ptr bytes.length =
        ethernetFrame σ.aetherMac destMac ethertype bytes := by
      have hpayload := (hptr.frame (hframe.trans hstored)).bytes_eq
      simp only [Node.builtFrame, header] at hpayload ⊢
      rw [hpayload]
    have hsent := read_write_same heap.mem p
      (ethernetFrame σ.aetherMac destMac ethertype bytes)
    have howns := (hheld.write p (ethernetFrame σ.aetherMac destMac ethertype bytes) le_rfl
      (by rw [length_ethernetFrame]; dsimp only; omega)).1.owns
    rw [length_ethernetFrame] at hsent
    simp only [hbuilt, Heap.write, hsent] at hqueued howns ⊢
    exact .inr ⟨p, cap, heap, _, hcall, hne, howns, rfl, hqueued⟩

/-- `ethernet_send` publishes a frame in a buffer of its own, or records why it could not. -/
theorem ethernetSend_spec (h : L.Holds σ held) (destMac : Mac) (ethertype : UInt16)
    (ptr : Pointer) (bytes : List UInt8)
    (hptr : ptr.Denotes σ.heap.mem (held ++ L.regions) bytes)
    (hlen : bytes.length + 24 < 2 ^ 32) :
    wp (ethernetSend destMac ethertype ptr (UInt32.ofNat bytes.length)) (fun _ σ' ↦
      ∃ L' e, L'.Holds σ' held ∧ L.SameTcbs L' ∧ Transmits σ σ' [e] ∧
        e.Sends (ethernetFrame σ.aetherMac destMac ethertype bytes)) σ := by
  refine wp_mono (ethernetSend_queues h destMac ethertype ptr bytes hptr hlen) ?_
  rintro _ σ' (⟨-, rfl⟩ | ⟨q, cap, _, heap, -, -, -, rfl, L', hL', hsame⟩)
  · exact ⟨L, .noMemory, h.record rfl, ⟨rfl, rfl⟩, ⟨_, _, _, rfl⟩, .inl rfl⟩
  · exact ⟨L', _, hL', hsame, ⟨_, _, _, rfl⟩, σ.sends_sendEvent _⟩

/-- The header's checksum field can be stored on its own. -/
theorem Ipv4Header.write_checksum (mem : Memory) (p : Nat) (ip : Ipv4Header) (checksum : UInt16) :
    writeBytes (writeBytes mem p ip.bytes) (p + 10) (leBytes 2 checksum.toNat) =
      writeBytes mem p { ip with checksum := checksum }.bytes := by
  have hself := ip.bytes_split ip.checksum
  rw [show { ip with checksum := ip.checksum } = ip from rfl] at hself
  have hpatch := writeBytes_patch mem p ip.prologue (leBytes 2 ip.checksum.toNat)
    (leBytes 2 checksum.toNat) (leBytes 4 ip.srcIp.toNat ++ leBytes 4 ip.destIp.toNat) (by simp)
  rwa [← hself, ← ip.bytes_split, length_prologue] at hpatch

theorem length_ipv4Packet (srcIp dstIp : UInt32) (protocol : UInt8) (payload : List UInt8) :
    (ipv4Packet srcIp dstIp protocol payload).length = 20 + payload.length := by
  simp [ipv4Packet]

/-- A header reads back as it was written. -/
theorem Ipv4Header.read_bytes (mem : Memory) (p : Nat) (ip : Ipv4Header) :
    readBytes (writeBytes mem p ip.bytes) p 20 = ip.bytes := by
  have := read_write_same mem p ip.bytes
  rwa [length_bytes] at this

/-- The header stored over a zeroed block, and its checksum after it. -/
theorem Ipv4Header.write_over_zeros (mem : Memory) (p n : Nat) (ip : Ipv4Header)
    (checksum : UInt16) :
    writeBytes (writeBytes (writeBytes mem p (List.replicate (20 + n) 0)) p ip.bytes) (p + 10)
        (leBytes 2 checksum.toNat) =
      writeBytes mem p ({ ip with checksum := checksum }.bytes ++ List.replicate n 0) := by
  have hlen : (List.replicate 20 (0 : UInt8)).length =
      { ip with checksum := checksum }.bytes.length := by
    rw [length_bytes, List.length_replicate]
  have hzeros : List.replicate (20 + n) (0 : UInt8) =
      [] ++ (List.replicate 20 0 ++ List.replicate n 0) := by
    rw [List.nil_append, List.replicate_append_replicate]
  rw [write_checksum, hzeros]
  exact writeBytes_patch mem p [] _ _ _ hlen

/-- The payload stored behind the header. -/
theorem Ipv4Header.write_payload (mem : Memory) (p : Nat) (ip : Ipv4Header)
    (payload : List UInt8) :
    writeBytes (writeBytes mem p (ip.bytes ++ List.replicate payload.length 0)) (p + 20) payload =
      writeBytes mem p (ip.bytes ++ payload) := by
  have := writeBytes_patch mem p ip.bytes (List.replicate payload.length 0) payload [] (by simp)
  rwa [length_bytes, List.append_nil, List.append_nil] at this

/-- How `ipv4_send` can end: without memory for the packet, without memory for the frame, or with
the frame queued. The packet's block is free again in the end. -/
inductive PacketFate (L : Ledger) (σ : Node) (held : List Region) (packet : List UInt8) :
    Node → Prop where
  | noPacket : kmalloc σ.heap packet.length = some (0, σ.heap) →
      PacketFate L σ held packet { σ with log := .noMemory :: σ.log }
  | noFrame {p cap : Nat} {heap : Heap} : kmalloc σ.heap packet.length = some (p, heap) → p ≠ 0 →
      packet.length ≤ cap →
      L.Holds { σ with heap := heap.write p packet, log := .noMemory :: σ.log }
        (⟨p, cap⟩ :: held) →
      kmalloc (heap.write p packet) (24 + packet.length) = some (0, heap.write p packet) →
      PacketFate L σ held packet
        { σ with heap := kfree (heap.write p packet) p, log := .noMemory :: σ.log }
  | queued {p cap q cap' : Nat} {heap heap₀ heap' : Heap} {stats : NetStats} {vq : Virtqueue}
      {L' : Ledger} : kmalloc σ.heap packet.length = some (p, heap) → p ≠ 0 → packet.length ≤ cap →
      L.Holds { σ with heap := heap.write p packet } (⟨p, cap⟩ :: held) →
      kmalloc (heap.write p packet) (24 + packet.length) = some (q, heap₀) → q ≠ 0 →
      Owns heap' (⟨q, cap'⟩ :: ⟨p, cap⟩ :: (held ++ L.regions)) →
      L'.Holds { σ with
        heap := heap', netStats := stats, txQueue := vq
        log := σ.sendEvent (ethernetFrame σ.aetherMac gatewayMac ethTypeIpv4 packet) :: σ.log }
        (⟨p, cap⟩ :: held) → L.SameTcbs L' →
      PacketFate L σ held packet { σ with
        heap := kfree heap' p, netStats := stats, txQueue := vq
        log := σ.sendEvent (ethernetFrame σ.aetherMac gatewayMac ethTypeIpv4 packet) :: σ.log }

/-- `ipv4_send` wraps its payload into a packet, which meets one of the fates. -/
theorem ipv4Send_fate (h : L.Holds σ held) (dstIp : UInt32) (protocol : UInt8)
    (ptr : Pointer) (bytes : List UInt8)
    (hptr : ptr.Denotes σ.heap.mem (held ++ L.regions) bytes)
    (hlen : bytes.length + 44 < 2 ^ 32) :
    wp (ipv4Send dstIp protocol ptr (UInt32.ofNat bytes.length)) (fun _ σ' ↦
      PacketFate L σ held (ipv4Packet σ.aetherIp dstIp protocol bytes) σ') σ := by
  have hlenNat : (UInt32.ofNat bytes.length).toNat = bytes.length :=
    UInt32.toNat_ofNat_of_lt' (by rw [UInt32.size]; omega)
  have htotal : (20 + UInt32.ofNat bytes.length).toNat = 20 + bytes.length := by
    rw [UInt32.toNat_add, hlenNat]
    exact Nat.mod_eq_of_lt (by simp only [UInt32.reduceToNat]; omega)
  have hpacket := length_ipv4Packet σ.aetherIp dstIp protocol bytes
  have hdev : σ.globalVnetDev.isNone = false := by simp [h.dev]
  obtain ⟨pkt, σ₁, hrun, hcase⟩ := h.callKmalloc (20 + bytes.length) (by omega)
  have hcall := kmalloc_of_run hrun
  rw [← hpacket] at hcall
  simp only [ipv4Send, wp_bind, wp_get, hdev, Bool.false_eq_true, ↓reduceIte, htotal, hlenNat,
    wp_of_run hrun]
  rcases hcase with ⟨rfl, rfl⟩ | ⟨cap, heap, hne, hcap, rfl, hheld, hframe⟩
  · simp only [↓reduceIte, wp_pure]
    exact .noPacket hcall
  · let sent := ipv4HeaderSent σ.aetherIp dstIp protocol (20 + UInt32.ofNat bytes.length)
    have hsent : sent.bytes.length = 20 := Ipv4Header.length_bytes sent
    have hmid : Frame (held ++ L.regions) heap.mem
        (writeBytes heap.mem pkt (sent.bytes ++ List.replicate bytes.length 0)) :=
      (hheld.write _ _ le_rfl
        (by simp only [List.length_append, hsent, List.length_replicate]; omega)).2
    -- the payload is read after the header has been written
    have hpayload := (hptr.frame (hframe.trans hmid)).bytes_eq
    have hfits : (ipv4Packet σ.aetherIp dstIp protocol bytes).length ≤ cap := by
      rw [hpacket]
      exact hcap
    have hfull : L.Holds { σ with
        heap := heap.write pkt (ipv4Packet σ.aetherIp dstIp protocol bytes) }
        (⟨pkt, cap⟩ :: held) :=
      (hheld.write _ _ le_rfl (Nat.add_le_add_left hfits pkt)).1
    have hsend := ethernetSend_queues hfull gatewayMac ethTypeIpv4
      (.heap pkt) (ipv4Packet σ.aetherIp dstIp protocol bytes)
      ⟨read_write_same heap.mem pkt _, ⟨pkt, cap⟩, List.mem_cons_self, le_rfl,
        Nat.add_le_add_left hfits pkt⟩
      (by rw [hpacket]; omega)
    have hlength : UInt32.ofNat (ipv4Packet σ.aetherIp dstIp protocol bytes).length =
        20 + UInt32.ofNat bytes.length := by
      rw [hpacket, ← htotal, UInt32.ofNat_toNat]
    rw [hlength] at hsend
    simp only [hne, ↓reduceIte, wp_bind, wp_writeHeap, wp_readHeap, Heap.write,
      Ipv4Header.read_bytes, Ipv4Header.write_over_zeros, wp_readPointer]
    simp only [sent, ipv4HeaderSent] at hpayload
    simp only [hpayload, Ipv4Header.write_payload]
    refine wp_mono hsend ?_
    rintro _ _ (⟨hnull, rfl⟩ | ⟨q, cap', heap₀, heap', hcall', hne', howns, rfl, L', hL', hsame⟩)
    · rw [wp_callKfree]
      exact .noFrame hcall hne hfits (hfull.record rfl) hnull
    · rw [wp_callKfree]
      exact .queued hcall hne hfits hfull hcall' hne' howns hL' hsame

/-- Whatever becomes of the packet, one event tells. -/
theorem PacketFate.transmits {packet : List UInt8} {σ' : Node} (h : L.Holds σ held)
    (hfate : PacketFate L σ held packet σ') :
    ∃ L' e, L'.Holds σ' held ∧ L.SameTcbs L' ∧ Transmits σ σ' [e] ∧
      e.Sends (ethernetFrame σ.aetherMac gatewayMac ethTypeIpv4 packet) := by
  cases hfate with
  | noPacket => exact ⟨L, .noMemory, h.record rfl, ⟨rfl, rfl⟩, ⟨_, _, _, rfl⟩, .inl rfl⟩
  | noFrame _ _ _ hheld => exact ⟨L, .noMemory, hheld.kfree, ⟨rfl, rfl⟩, ⟨_, _, _, rfl⟩, .inl rfl⟩
  | @queued _ _ _ _ _ _ _ _ _ L' _ _ _ _ _ _ _ hL' hsame =>
      exact ⟨L', _, hL'.kfree, hsame, ⟨_, _, _, rfl⟩, σ.sends_sendEvent _⟩

/-- `ipv4_send` wraps its payload into a packet and has it published as one frame. -/
theorem ipv4Send_spec (h : L.Holds σ held) (dstIp : UInt32) (protocol : UInt8)
    (ptr : Pointer) (bytes : List UInt8)
    (hptr : ptr.Denotes σ.heap.mem (held ++ L.regions) bytes)
    (hlen : bytes.length + 44 < 2 ^ 32) :
    wp (ipv4Send dstIp protocol ptr (UInt32.ofNat bytes.length)) (fun _ σ' ↦
      ∃ L' e, L'.Holds σ' held ∧ L.SameTcbs L' ∧ Transmits σ σ' [e] ∧
        e.Sends (ethernetFrame σ.aetherMac gatewayMac ethTypeIpv4
          (ipv4Packet σ.aetherIp dstIp protocol bytes))) σ :=
  wp_mono (ipv4Send_fate h dstIp protocol ptr bytes hptr hlen) fun _ _ hfate ↦ hfate.transmits h

/-! ## Reaping -/

/-- Popping a completion makes the caller the holder of its buffer. -/
theorem Ledger.Holds.recycle (h : L.Holds σ held) {id : UInt16} {rest : List UInt16}
    (hpending : σ.txQueue.pendingIds = id :: rest) (stats : NetStats) :
    ∃ f ∈ L.frames, ((σ.txQueue.recycle id).desc id.toNat).addr = f.ptr ∧
      Ledger.Holds { L with frames := L.frames.erase f }
        { σ with txQueue := σ.txQueue.recycle id, netStats := stats } (f.toRegion :: held) := by
  have hid : id ∈ L.frames.map FrameBlock.id := by
    rw [h.outstanding.mem_iff, hpending]
    simp
  obtain ⟨f, hf, rfl⟩ := List.mem_map.mp hid
  have hperm := List.perm_cons_erase hf
  have hrest := (h.tx.popUsed_of_cons stats hpending).2
  refine ⟨f, hf, by rw [Virtqueue.desc_recycle_addr, (h.buffers f hf).1], ?_⟩
  exact { h with
    owns := h.owns.perm <| by
      simp only [Ledger.regions, List.cons_append]
      refine .trans (List.perm_middle) (.trans (.cons _ (.append_left held ?_))
        (.trans (.cons _ List.perm_middle) (.trans (.swap _ _ _) (.cons _ List.perm_middle.symm))))
      exact ((hperm.map FrameBlock.toRegion).append_left _).append_right _ |>.trans <| by
        rw [List.map_cons, List.append_assoc, List.append_assoc]
        exact List.perm_middle
    tx := h.tx.recycle hpending
    outstanding := by
      rw [hrest]
      have hout := (hperm.map FrameBlock.id).symm.trans h.outstanding
      rw [hpending, List.map_cons] at hout
      exact (hout.trans List.perm_middle).cons_inv
    buffers := by
      intro g hg
      rw [Virtqueue.desc_recycle_addr, Virtqueue.desc_recycle_len]
      exact h.buffers g (List.mem_of_mem_erase hg)
    leaks := h.leaks }

/-- One turn of the loop of `net_tx_reaper`: the address it found in the descriptor, if there was a
completion to pop. -/
def reapTurn : Action (Option Nat) := do
  let σ ← get
  let (receipt, vq, stats) := virtqueuePopUsed σ.txQueue σ.netStats
  set { σ with txQueue := vq, netStats := stats }
  match receipt with
  | none => pure none
  | some (descId, _) =>
      let bufferToFree := (vq.desc descId.toNat).addr
      if bufferToFree ≠ 0 then callKfree bufferToFree
      modify fun σ ↦ { σ with
        netStats := { σ.netStats with
          bufferUsage :=
            if σ.netStats.bufferUsage > 0 then σ.netStats.bufferUsage - 1
            else σ.netStats.bufferUsage
          txPackets := σ.netStats.txPackets + 1 } }
      pure (some bufferToFree)

/-- The loop takes a turn and goes on as long as turns find completions. -/
theorem reapLoop_succ (turns : Nat) : reapLoop (turns + 1) =
    (reapTurn >>= fun found ↦ if found.isSome then reapLoop turns else pure ()) := by
  simp only [reapLoop, reapTurn, bind_assoc]
  refine bind_congr fun σ ↦ bind_congr fun _ ↦ ?_
  cases (virtqueuePopUsed σ.txQueue σ.netStats).1 with
  | none => simp
  | some receipt =>
      simp only [ite_not]
      split <;> simp

/-- A turn finds nothing to pop and changes nothing, or frees the buffer of the oldest
completion. -/
theorem reapTurn_runs (h : L.Holds σ held) :
    wp reapTurn (fun found σ' ↦
      (σ.txQueue.pendingIds = [] ∧ found = none ∧ σ' = σ) ∨
      ∃ id rest stats, σ.txQueue.pendingIds = id :: rest ∧
        (σ.txQueue.recycle id).pendingIds = rest ∧ (σ.txQueue.desc id.toNat).addr ≠ 0 ∧
        found = some (σ.txQueue.desc id.toNat).addr ∧
        σ' = { σ with
          heap := kfree σ.heap (σ.txQueue.desc id.toNat).addr
          txQueue := σ.txQueue.recycle id
          netStats := stats } ∧
        ∃ L' : Ledger, L'.Holds σ' held ∧ L.SameTcbs L') σ := by
  simp only [reapTurn, wp_bind, wp_get]
  cases hpending : σ.txQueue.pendingIds with
  | nil =>
      simp only [Virtqueue.popUsed_of_nil σ.netStats hpending, wp_set, wp_pure]
      exact .inl ⟨trivial, trivial, trivial⟩
  | cons id rest =>
      obtain ⟨⟨len, hpop⟩, hrest⟩ := h.tx.popUsed_of_cons σ.netStats hpending
      obtain ⟨f, hf, haddr, hheld⟩ := h.recycle hpending
        (popStats σ.txQueue.queueIndex σ.netStats)
      have hne : f.ptr ≠ 0 := hheld.owns.ptr_ne_zero (r := f.toRegion) List.mem_cons_self
      rw [Virtqueue.desc_recycle_addr] at haddr
      simp only [hpop, wp_set, wp_bind, Virtqueue.desc_recycle_addr, haddr, ne_eq, hne,
        not_false_eq_true, ↓reduceIte, wp_callKfree, wp_modify, wp_pure]
      exact .inr ⟨id, rest, _, rfl, hrest, by rw [haddr]; exact hne, by rw [haddr],
        by rw [haddr], _, { hheld.kfree with }, rfl, rfl⟩

/-- `net_tx_reaper` frees the buffer of every completed descriptor and leaves none pending. -/
theorem reapLoop_spec (h : L.Holds σ held) (turns : Nat)
    (hturns : σ.txQueue.pendingIds.length < turns) :
    wp (reapLoop turns) (fun _ σ' ↦ ∃ L' : Ledger, L'.Holds σ' held ∧ L.SameTcbs L' ∧
      Transmits σ σ' [] ∧ σ'.txQueue.pendingIds = [] ∧
      σ'.txQueue.published = σ.txQueue.published) σ := by
  induction turns generalizing σ L with
  | zero => omega
  | succ turns ih =>
      rw [reapLoop_succ, wp_bind]
      refine wp_mono (reapTurn_runs h) ?_
      rintro found σ₁ (⟨hpending, rfl, rfl⟩ |
        ⟨id, rest, stats, hpending, hrest, -, rfl, rfl, L₁, h₁, hsame₁⟩)
      · exact wp_pure.mpr ⟨L, h, ⟨rfl, rfl⟩, ⟨_, _, _, rfl⟩, hpending, rfl⟩
      · refine wp_mono (ih h₁ ?_) ?_
        · rw [hpending, List.length_cons] at hturns
          simp only [hrest]
          omega
        · rintro _ _ ⟨L', hL', hsame, ⟨heap, stats', vq, rfl⟩, hdone, hpublished⟩
          exact ⟨L', hL', ⟨hsame.1.trans hsame₁.1, hsame.2.trans hsame₁.2⟩, ⟨_, _, _, rfl⟩, hdone,
            hpublished⟩

/-- `net_tx_reaper` returns and drains the used ring. -/
theorem netTxReaper_spec (h : L.Holds σ held) :
    wp netTxReaper (fun _ σ' ↦ ∃ L' : Ledger, L'.Holds σ' held ∧ L.SameTcbs L' ∧
      Transmits σ σ' [] ∧ σ'.txQueue.pendingIds = [] ∧
      σ'.txQueue.published = σ.txQueue.published) σ := by
  refine reapLoop_spec h 65536 ?_
  rw [Virtqueue.length_pendingIds]
  exact UInt16.toNat_lt _

end Specs

end Aether.Ethernet
