import Aether.Drivers.ReceiveRing
import Aether.Ethernet.Closure
import Aether.Ethernet.Receive
import Aether.Lib.Effects

/-!
# What handling a frame leaves alone

Handling a frame does not touch the RX queue and counts no packet; the only descriptors that it
takes are those of the TX queue, and `buffer_usage` goes up by one with each.
-/

namespace Aether.Ethernet

open ByteMemory Kernel Drivers Common Program

/-- Nothing happened to the RX queue or to the packet counters, no TX completion was popped, and the
descriptors taken from the TX queue are counted. -/
structure Node.SameAccounts (σ σ' : Node) : Prop where
  rxQueue : σ'.rxQueue = σ.rxQueue
  rxPackets : σ'.netStats.rxPackets = σ.netStats.rxPackets
  txPackets : σ'.netStats.txPackets = σ.netStats.txPackets
  txSize : σ'.txQueue.size = σ.txQueue.size
  txIndex : σ'.txQueue.queueIndex = σ.txQueue.queueIndex
  txPopped : σ'.txQueue.lastUsedIdx = σ.txQueue.lastUsedIdx
  txFree : σ'.txQueue.numFree.toNat ≤ σ.txQueue.numFree.toNat
  usage : σ'.netStats.bufferUsage + σ'.txQueue.numFree.toUInt64 =
    σ.netStats.bufferUsage + σ.txQueue.numFree.toUInt64

theorem Node.SameAccounts.refl (σ : Node) : σ.SameAccounts σ :=
  ⟨rfl, rfl, rfl, rfl, rfl, rfl, le_rfl, rfl⟩

theorem Node.SameAccounts.trans (σ τ υ : Node) (h : σ.SameAccounts τ) (h' : τ.SameAccounts υ) :
    σ.SameAccounts υ where
  rxQueue := h'.rxQueue.trans h.rxQueue
  rxPackets := h'.rxPackets.trans h.rxPackets
  txPackets := h'.txPackets.trans h.txPackets
  txSize := h'.txSize.trans h.txSize
  txIndex := h'.txIndex.trans h.txIndex
  txPopped := h'.txPopped.trans h.txPopped
  txFree := h'.txFree.trans h.txFree
  usage := h'.usage.trans h.usage

/-- Every run of the action keeps the accounts. -/
def Accounted {α : Type} (x : Action α) : Prop := Keeps Node.SameAccounts x

section Rules

variable {α β : Type}

theorem Accounted.bind {x : Action α} {f : α → Action β} (hx : Accounted x)
    (hf : ∀ a, Accounted (f a)) : Accounted (x >>= f) :=
  Keeps.bind Node.SameAccounts.trans hx hf

theorem Accounted.pure (a : α) : Accounted (Pure.pure a : Action α) :=
  Keeps.pure Node.SameAccounts.refl a

theorem Accounted.get : Accounted (MonadState.get : Action Node) := Keeps.get Node.SameAccounts.refl

theorem Accounted.fault : Accounted (fault : Action α) := Keeps.fail fun _ ↦ rfl

/-- The heap, the TCBs, the ARP cache, the received bytes and the log are not accounted for. -/
theorem Accounted.modify {f : Node → Node} (hrx : ∀ σ, (f σ).rxQueue = σ.rxQueue)
    (htx : ∀ σ, (f σ).txQueue = σ.txQueue) (hstats : ∀ σ, (f σ).netStats = σ.netStats) :
    Accounted (modify f : Action Unit) := by
  refine Keeps.modify fun σ ↦ ?_
  exact ⟨hrx σ, by rw [hstats], by rw [hstats], by rw [htx], by rw [htx], by rw [htx],
    by rw [htx], by rw [htx, hstats]⟩

end Rules

/-! ## Elementary actions -/

section Elementary

/-- `kmalloc` changes the heap and the log. -/
theorem callKmalloc_changes {size p : Nat} {σ σ' : Node}
    (hrun : (callKmalloc size).run σ = some (p, σ')) :
    ∃ heap log, σ' = { σ with heap := heap, log := log } := by
  rw [callKmalloc_run] at hrun
  obtain ⟨r, -, hr⟩ := Option.map_eq_some_iff.mp hrun
  cases hr
  exact ⟨_, _, rfl⟩

theorem accounted_callKmalloc (size : Nat) : Accounted (callKmalloc size) := by
  intro σ p σ' hrun
  obtain ⟨_, _, rfl⟩ := callKmalloc_changes hrun
  exact ⟨rfl, rfl, rfl, rfl, rfl, rfl, le_rfl, rfl⟩

theorem accounted_readRx (a n : Nat) : Accounted (readRx a n) := .bind .get fun _ ↦ .pure _

theorem accounted_writeRx (a : Nat) (bs : List UInt8) : Accounted (writeRx a bs) :=
  .modify (fun _ ↦ rfl) (fun _ ↦ rfl) fun _ ↦ rfl

/-- Taking a TX descriptor makes one fewer free and is counted. -/
theorem accounted_addTxDescriptor (addr : Nat) (len : UInt32) :
    Accounted (addTxDescriptor addr len) := by
  intro σ head σ' hrun
  have hσ' : σ' = { σ with
      txQueue := (virtqueueAddDescriptor σ.txQueue σ.netStats addr len 0).2.1
      netStats := (virtqueueAddDescriptor σ.txQueue σ.netStats addr len 0).2.2 } :=
    (congrArg Prod.snd (Option.some.inj hrun)).symm
  by_cases hfree : σ.txQueue.numFree = 0
  · rw [hσ', virtqueueAddDescriptor, if_pos hfree]
    exact .refl σ
  · have hpos : 1 ≤ σ.txQueue.numFree := by
      rw [UInt16.le_iff_toNat_le]
      exact Nat.pos_of_ne_zero fun hzero ↦ hfree (UInt16.toNat_inj.mp hzero)
    have hpred : (σ.txQueue.numFree - 1).toNat = σ.txQueue.numFree.toNat - 1 :=
      UInt16.toNat_sub_of_le _ _ hpos
    have hword : (σ.txQueue.numFree - 1).toUInt64 = σ.txQueue.numFree.toUInt64 - 1 := by
      rw [← UInt64.toNat_inj, UInt16.toNat_toUInt64, hpred, UInt64.toNat_sub_of_le,
        UInt16.toNat_toUInt64]
      · rfl
      · rw [UInt64.le_iff_toNat_le, UInt16.toNat_toUInt64]
        exact hpos
    rw [hσ', Virtqueue.add_eq hfree]
    refine ⟨rfl, rfl, rfl, rfl, rfl, rfl, ?_, ?_⟩
    · show (σ.txQueue.numFree - 1).toNat ≤ _
      omega
    · show σ.netStats.bufferUsage + 1 + (σ.txQueue.numFree - 1).toUInt64 = _
      rw [hword]
      grind

theorem accounted_pushTxAvailable (head : UInt16) : Accounted (pushTxAvailable head) := by
  intro σ _ σ' hrun
  cases hrun
  exact ⟨rfl, rfl, rfl, rfl, rfl, rfl, le_rfl, rfl⟩

/-- So everything that the stack does with a segment keeps the accounts. -/
theorem closed_accounted : Closed @Accounted where
  pure := .pure
  fault := .fault
  bind := .bind
  reads _ hf := .bind .get hf
  assign _ _ hrx htx hstats := .modify hrx htx hstats
  callKmalloc := accounted_callKmalloc
  addTxDescriptor := accounted_addTxDescriptor
  pushTxAvailable := accounted_pushTxAvailable

end Elementary

/-! ## Reception -/

/-- Received bytes are not accounted for, and a bad checksum is counted elsewhere. -/
theorem closedOnFrames_accounted : ClosedOnFrames @Accounted where
  toClosed := closed_accounted
  readRx := accounted_readRx
  writeRx := accounted_writeRx
  reportChecksumError := Keeps.modify fun _ ↦ ⟨rfl, rfl, rfl, rfl, rfl, rfl, le_rfl, rfl⟩

/-- Handling a frame keeps the accounts. -/
theorem accounted_ethernetHandlePacket (data : Nat) (len : UInt32) :
    Accounted (ethernetHandlePacket data len) :=
  closedOnFrames_accounted.ethernetHandlePacket data len

end Aether.Ethernet
