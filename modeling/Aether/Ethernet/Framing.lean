import Aether.Ethernet.NodeRuns

/-!
# Framing

`ethernet_send` puts a virtio header of ten bytes in front of a frame. `virtio_net_poll` looks for
the frame behind twelve bytes, but subtracts ten from the length that the device reports.
-/

namespace Aether.Ethernet

open ByteMemory Kernel Drivers Common Program

/-- `virtio_net_poll` with any function in the place of `ethernet_handle_packet`. -/
def pollWith (handler : Nat → UInt32 → Action Unit) : Action Unit := do
  let σ ← get
  let (receipt, vq, stats) := virtqueuePopUsed σ.rxQueue σ.netStats
  set { σ with rxQueue := vq, netStats := stats }
  match receipt with
  | none => pure ()
  | some (id, len) =>
      if rxQueueSize ≤ id.toNat then fault
      else
        let fullBuffer := id.toNat * rxBufSize
        let ethFrame := fullBuffer + 12
        let ethLen := if len > sizeofVirtioNetHdr then len - sizeofVirtioNetHdr else 0
        if ethLen ≠ 0 then
          modify fun σ ↦
            { σ with netStats := { σ.netStats with rxPackets := σ.netStats.rxPackets + 1 } }
          note (.received (← readRx ethFrame ethLen.toNat))
          handler ethFrame ethLen
        let newId ← addRxDescriptor fullBuffer
        pushRxAvailable newId

theorem virtioNetPoll_eq : virtioNetPoll = pollWith ethernetHandlePacket := rfl

/-- The poll calls its handler, whichever that is, with the given arguments, and returns when the
handler does. -/
def PollCalls (τ : Node) (a : Nat) (n : UInt32) : Prop :=
  ∃ (before : Node) (after : Node → Node), ∀ handler,
    (pollWith handler).run τ = ((handler a n).run before).map fun r ↦ ((), after r.2)

/-- The completed buffer `id` holds a frame behind a virtio header, and the poll hands over exactly
the frame and no byte that the device did not write. -/
def PollsFrame (τ : Node) (id : UInt16) (buffer : List UInt8) : Prop :=
  ∃ a n, PollCalls τ a n ∧ a = id.toNat * rxBufSize + sizeofVirtioNetHdr.toNat ∧
    n.toNat = buffer.length - sizeofVirtioNetHdr.toNat ∧
    a + n.toNat ≤ id.toNat * rxBufSize + buffer.length

/-- The node after the descriptor of a polled buffer went back to the device. -/
def Node.refill (id : UInt16) (σ : Node) : Node :=
  let added := virtqueueAddDescriptor σ.rxQueue σ.netStats (id.toNat * rxBufSize)
    (UInt32.ofNat rxBufSize) virtqDescFWrite
  { σ with rxQueue := virtqueuePushAvailable added.2.1 added.1, netStats := added.2.2 }

/-- The call that a poll makes. -/
theorem pollCalls_of_popUsed {τ : Node} {id : UInt16} {len : UInt32}
    (hpop : (virtqueuePopUsed τ.rxQueue τ.netStats).1 = some (id, len))
    (hid : id.toNat < rxQueueSize) (hlen : sizeofVirtioNetHdr < len) :
    PollCalls τ (id.toNat * rxBufSize + 12) (len - sizeofVirtioNetHdr) := by
  have hne : len - sizeofVirtioNetHdr ≠ 0 := by
    rw [ne_eq, UInt32.sub_eq_iff_eq_add, UInt32.zero_add]
    exact fun h ↦ UInt32.lt_irrefl _ (h ▸ hlen)
  generalize hcall : virtqueuePopUsed τ.rxQueue τ.netStats = popped at hpop
  obtain ⟨_, vq, stats⟩ := popped
  cases hpop
  refine ⟨{ τ with
      rxQueue := vq
      netStats := { stats with rxPackets := stats.rxPackets + 1 }
      log := .received (readBytes τ.rxBuffers (id.toNat * rxBufSize + 12)
        (len - sizeofVirtioNetHdr).toNat) :: τ.log }, Node.refill id, fun handler ↦ ?_⟩
  simp only [pollWith, StateT.run_bind, StateT.run_get, hcall, StateT.run_set, Option.bind_eq_bind,
    Option.pure_def, Option.bind_some, if_neg (Nat.not_le.mpr hid), gt_iff_lt, if_pos hlen,
    if_pos hne]
  rw [Option.map_eq_bind]
  rfl

/-- A poll makes one call. -/
theorem PollCalls.unique {τ : Node} {a a' : Nat} {n n' : UInt32} (h : PollCalls τ a n)
    (h' : PollCalls τ a' n') : a' = a ∧ n' = n := by
  obtain ⟨before, after, hrun⟩ := h
  obtain ⟨before', after', hrun'⟩ := h'
  by_contra hne
  -- A handler that refuses one of the calls tells them apart.
  let refuse : Nat → UInt32 → Action Unit := fun b k ↦ if b = a ∧ k = n then fault else pure ()
  have hfault : (pollWith refuse).run τ = none := by
    rw [hrun refuse]
    simp only [refuse, and_self, ↓reduceIte]
    rfl
  rw [hrun' refuse] at hfault
  simp only [refuse, if_neg hne] at hfault
  cases hfault

/-- The poll of a completed buffer starts two bytes into the frame and ends two bytes behind it. -/
theorem not_pollsFrame {τ : Node} {id : UInt16} {buffer : List UInt8}
    (hpop : (virtqueuePopUsed τ.rxQueue τ.netStats).1 = some (id, UInt32.ofNat buffer.length))
    (hid : id.toNat < rxQueueSize) (hlong : 24 ≤ buffer.length)
    (hfits : buffer.length ≤ rxBufSize) :
    PollCalls τ (id.toNat * rxBufSize + sizeofVirtioNetHdr.toNat + 2)
      (UInt32.ofNat buffer.length - sizeofVirtioNetHdr) ∧ ¬ PollsFrame τ id buffer := by
  have hlen : (UInt32.ofNat buffer.length).toNat = buffer.length :=
    UInt32.toNat_ofNat_of_lt' (by rw [UInt32.size]; simp only [rxBufSize] at hfits; omega)
  have hcall := pollCalls_of_popUsed hpop hid
    (by
      rw [UInt32.lt_iff_toNat_lt, hlen]
      simp only [sizeofVirtioNetHdr, UInt32.reduceToNat]
      omega)
  refine ⟨hcall, ?_⟩
  rintro ⟨a, n, hother, ha, -, -⟩
  obtain ⟨rfl, -⟩ := hcall.unique hother
  simp only [sizeofVirtioNetHdr, UInt32.reduceToNat] at ha
  omega

/-- Whatever a node sends in a buffer that fits the receiver's, the poll of the receiver does not
hand over the frame that was sent: it starts two bytes into it and ends two bytes behind what the
device wrote. -/
theorem virtio_framing {σ : Node} {L : Ledger} {held : List Region} (h : L.Holds σ held)
    (destMac : Mac) (ethertype : UInt16) (ptr : Pointer) (payload : List UInt8)
    (hptr : ptr.Denotes σ.heap.mem (held ++ L.regions) payload)
    (hlen : 24 + payload.length ≤ rxBufSize) :
    ∃ σ' events,
      (ethernetSend destMac ethertype ptr (UInt32.ofNat payload.length)).run σ = some ((), σ') ∧
      σ'.log = events ++ σ.log ∧
      (.noMemory ∈ events ∨ .ringFull ∈ events ∨ ∃ buffer, .transmitted buffer ∈ events) ∧
      ∀ buffer, .transmitted buffer ∈ events → ∀ (τ : Node) (id : UInt16),
        (virtqueuePopUsed τ.rxQueue τ.netStats).1 = some (id, UInt32.ofNat buffer.length) →
        id.toNat < rxQueueSize →
        readBytes τ.rxBuffers (id.toNat * rxBufSize) buffer.length = buffer →
        PollCalls τ (id.toNat * rxBufSize + sizeofVirtioNetHdr.toNat + 2)
          (UInt32.ofNat buffer.length - sizeofVirtioNetHdr) ∧ ¬ PollsFrame τ id buffer := by
  have hfits : payload.length + 24 < 2 ^ 32 := by
    simp only [rxBufSize] at hlen
    omega
  obtain ⟨_, σ', hrun, L', e, -, -, ⟨heap, stats, vq, rfl⟩, he⟩ :=
    ethernetSend_spec h destMac ethertype ptr payload hptr hfits
  refine ⟨_, [e], hrun, rfl, ?_, fun buffer hbuffer τ id hpop hid _ ↦ ?_⟩
  · rcases he with rfl | rfl | rfl
    · exact .inl List.mem_cons_self
    · exact .inr (.inl List.mem_cons_self)
    · exact .inr (.inr ⟨_, List.mem_cons_self⟩)
  · obtain rfl := List.mem_singleton.mp hbuffer
    obtain rfl := Event.transmitted.inj (he.resolve_left nofun |>.resolve_left nofun)
    have hlength := length_ethernetFrame σ.aetherMac destMac ethertype payload
    exact not_pollsFrame hpop hid (by omega) (by omega)

/-- The node whose device has written the buffer into the first receive buffer. -/
def Node.delivered (σ : Node) (buffer : List UInt8) : Node :=
  { σ with
    rxQueue := deviceComplete σ.rxQueue 0 (UInt32.ofNat buffer.length)
    rxBuffers := writeBytes σ.rxBuffers 0 buffer }

/-- An ARP packet of zeros with its headers, as the sample node sends it. -/
def sampleBuffer : List UInt8 :=
  ethernetFrame gatewayMac gatewayMac ethTypeArp (List.replicate 28 0)

/-- The sample node sends the buffer, and a poll of it does not hand over the frame. -/
theorem virtio_framing_shifted : ∃ σ, Setup.sample.exec [] = some σ ∧
    (∃ σ', (ethernetSend gatewayMac ethTypeArp (.stack (List.replicate 28 0)) 28).run σ =
      some ((), σ') ∧ .transmitted sampleBuffer ∈ σ'.log) ∧
    ¬ PollsFrame (σ.delivered sampleBuffer) 0 sampleBuffer := by
  obtain ⟨σ, hexec, -, hσ⟩ := Setup.exec_any .sample []
    (fun σ ↦ ((ethernetSend gatewayMac ethTypeArp (.stack (List.replicate 28 0)) 28).run σ).any
        (fun r : Unit × Node ↦ decide (.transmitted sampleBuffer ∈ r.2.log)) &&
      decide ((virtqueuePopUsed (σ.delivered sampleBuffer).rxQueue σ.netStats).1 =
        some (0, UInt32.ofNat sampleBuffer.length)))
    (by decide +kernel)
  rw [Bool.and_eq_true, decide_eq_true_eq, Option.any_eq_true] at hσ
  obtain ⟨⟨⟨_, σ'⟩, hrun, hsent⟩, hpop⟩ := hσ
  exact ⟨σ, hexec, ⟨σ', hrun, of_decide_eq_true hsent⟩,
    (not_pollsFrame hpop (by decide) (by decide) (by decide)).2⟩

/-- A node that runs can send the buffer to one whose first buffer receives it. -/
theorem virtio_framing_sample : ∃ σ σ', Setup.sample.exec [] = some σ ∧
    (ethernetSend gatewayMac ethTypeArp (.stack (List.replicate 28 0)) 28).run σ =
      some ((), σ') ∧ ∀ buffer, .transmitted buffer ∈ σ'.log →
        (virtqueuePopUsed (σ.delivered buffer).rxQueue σ.netStats).1 =
          some (0, UInt32.ofNat buffer.length) →
        ¬ PollsFrame (σ.delivered buffer) 0 buffer := by
  obtain ⟨σ, hexec, hreaches, hlog⟩ := Setup.exec_any .sample [] (fun σ ↦ decide (σ.log = []))
    (by decide +kernel)
  obtain ⟨L, hL⟩ := hreaches.sound
  obtain ⟨σ', events, hrun, heq, -, hframes⟩ := virtio_framing hL.holds gatewayMac ethTypeArp
    (.stack (List.replicate 28 0)) (List.replicate 28 0) rfl (by decide)
  refine ⟨σ, σ', hexec, hrun, fun buffer hbuffer hpop ↦ ?_⟩
  rw [heq, of_decide_eq_true hlog, List.append_nil] at hbuffer
  exact (hframes buffer hbuffer (σ.delivered buffer) 0 hpop (by decide)
    (by rw [Node.delivered]; exact read_write_same _ _ _)).2

end Aether.Ethernet
