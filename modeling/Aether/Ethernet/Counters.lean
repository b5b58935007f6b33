import Aether.Ethernet.ReceiveRuns

/-!
# What the traffic counters count

`virtqueue_pop_used` counts each completion that it hands over, and gives its descriptor back in
`buffer_usage`. Its two callers do so once more: `virtio_net_poll` for a completion that carries a
frame, `net_tx_reaper` for every one.
-/

namespace Aether.Ethernet

open ByteMemory Kernel Drivers Common Program

/-! ## Runs -/

/-- What the driver consumed: completions of the RX queue, the frames in them, and completions of
the TX queue. -/
structure Consumed where
  rx : Nat
  frames : Nat
  tx : Nat
  deriving DecidableEq

/-- The frames in a completion of the RX queue. -/
def framesIn : Option (UInt16 × UInt32) → Nat
  | none => 0
  | some (_, len) => if ethLen len ≠ 0 then 1 else 0

/-- The completions that were popped on the way from one state of a queue to another. -/
def poppedBetween (vq vq' : Virtqueue) : Nat := (vq'.lastUsedIdx - vq.lastUsedIdx).toNat

/-- One step of a node and its device that consumes `n` frames. The device completes only
descriptors that were published, without overwriting completions that the driver has not popped. -/
inductive Node.Moves : Nat → Node → Node → Prop where
  | fill {σ : Node} {id : UInt16} (len : UInt32) (rx : Memory) :
      id ∈ σ.rxQueue.published → σ.rxQueue.SlotFree →
      Moves 0 σ { σ with rxQueue := deviceComplete σ.rxQueue id len, rxBuffers := rx }
  | poll {σ σ' : Node} : virtioNetPoll.run σ = some ((), σ') →
      Moves (framesIn (virtqueuePopUsed σ.rxQueue σ.netStats).1) σ σ'
  | complete {σ : Node} {id : UInt16} (len : UInt32) : id ∈ σ.txQueue.published →
      Moves 0 σ { σ with txQueue := deviceComplete σ.txQueue id len }
  | reap {σ σ' : Node} : netTxReaper.run σ = some ((), σ') → Moves 0 σ σ'
  | send {σ σ' : Node} {destMac : Mac} {ethertype : UInt16} {payload : Pointer} {len : UInt32} :
      (ethernetSend destMac ethertype payload len).run σ = some ((), σ') → Moves 0 σ σ'

/-- A step that consumes `n` frames was taken. -/
def Consumed.after (k : Consumed) (n : Nat) (σ σ' : Node) : Consumed where
  rx := k.rx + poppedBetween σ.rxQueue σ'.rxQueue
  frames := k.frames + n
  tx := k.tx + poppedBetween σ.txQueue σ'.txQueue

/-- Runs from boot, with what they consumed. -/
inductive Setup.Traffic (c : Setup) : Consumed → Node → Prop where
  | boot {σ : Node} : c.Starts σ → Traffic c ⟨0, 0, 0⟩ σ
  | step {k : Consumed} {n : Nat} {σ σ' : Node} : Traffic c k σ → σ.Moves n σ' →
      Traffic c (k.after n σ σ') σ'

/-- The counters say what was consumed and how many descriptors are not free. -/
def Node.CountsExactly (σ : Node) (k : Consumed) : Prop :=
  σ.netStats.rxPackets.toNat = k.rx ∧ σ.netStats.txPackets.toNat = k.tx ∧
    σ.netStats.bufferUsage.toNat = (σ.rxQueue.size.toNat - σ.rxQueue.numFree.toNat) +
      (σ.txQueue.size.toNat - σ.txQueue.numFree.toNat)

/-! ## One poll -/

/-- What a poll does that consumes a completion with `n` frames. -/
structure Node.PollsOne (n : Nat) (σ σ' : Node) : Prop where
  rxPopped : σ'.rxQueue.lastUsedIdx = σ.rxQueue.lastUsedIdx + 1
  rxIndex : σ'.rxQueue.queueIndex = σ.rxQueue.queueIndex
  rxSize : σ'.rxQueue.size = σ.rxQueue.size
  rxFree : σ'.rxQueue.numFree = 0
  rxPackets : σ'.netStats.rxPackets = σ.netStats.rxPackets + 1 + UInt64.ofNat n
  txPackets : σ'.netStats.txPackets = σ.netStats.txPackets
  txPopped : σ'.txQueue.lastUsedIdx = σ.txQueue.lastUsedIdx
  txIndex : σ'.txQueue.queueIndex = σ.txQueue.queueIndex
  txSize : σ'.txQueue.size = σ.txQueue.size
  txFree : σ'.txQueue.numFree.toNat ≤ σ.txQueue.numFree.toNat
  usage : σ'.netStats.bufferUsage + σ'.txQueue.numFree.toUInt64 =
    σ.netStats.bufferUsage + σ.txQueue.numFree.toUInt64

theorem framesIn_some (id : UInt16) (len : UInt32) :
    framesIn (some (id, len)) = if ethLen len ≠ 0 then 1 else 0 :=
  rfl

/-- A completion carries at most one frame. -/
theorem framesIn_le (receipt : Option (UInt16 × UInt32)) : framesIn receipt ≤ 1 := by
  cases receipt with
  | none => exact Nat.zero_le 1
  | some receipt =>
      rw [framesIn_some]
      split
      · exact Nat.le_refl 1
      · exact Nat.zero_le 1

/-- Parsing a buffer counts the frame in it once, and keeps the accounts otherwise. -/
theorem parseBuffer_counts {σ σ' : Node} {id : UInt16} {len : UInt32}
    (hrun : (parseBuffer id len).run σ = some ((), σ')) : ∃ log, Node.SameAccounts { σ with
      netStats := { σ.netStats with
        rxPackets := σ.netStats.rxPackets + UInt64.ofNat (framesIn (some (id, len))) }
      log := log } σ' := by
  rw [parseBuffer_run] at hrun
  rw [framesIn_some]
  split at hrun
  next hframe =>
    rw [if_pos hframe]
    exact ⟨_, accounted_ethernetHandlePacket _ _ _ _ _ hrun⟩
  next hempty =>
    rw [if_neg hempty, show UInt64.ofNat 0 = 0 from rfl, UInt64.add_zero]
    cases hrun
    exact ⟨_, .refl σ⟩

/-- A poll consumes no completion and changes nothing, or it consumes one. -/
theorem virtioNetPoll_counts {σ σ' : Node} (hindex : σ.rxQueue.queueIndex = 0)
    (hfree : σ.rxQueue.numFree = 0) (hrun : virtioNetPoll.run σ = some ((), σ')) :
    framesIn (virtqueuePopUsed σ.rxQueue σ.netStats).1 = 0 ∧ σ' = σ ∨
      σ.PollsOne (framesIn (virtqueuePopUsed σ.rxQueue σ.netStats).1) σ' := by
  rw [virtioNetPoll_parts] at hrun
  rcases σ.rxQueue.popUsed_cases σ.netStats with ⟨-, hcall⟩ | ⟨-, id, len, hcall⟩
  · have hpop : popRx.run σ = some (none, σ) := by
      rw [popRx, run_get_bind, hcall]
      rfl
    rw [run_bind_of_run hpop] at hrun
    cases hrun
    rw [hcall]
    exact .inl ⟨rfl, rfl⟩
  · have hpop : popRx.run σ = some (some (id, len), { σ with
        rxQueue := σ.rxQueue.recycle id
        netStats := popStats 0 σ.netStats }) := by
      rw [popRx, run_get_bind, hcall, hindex]
      rfl
    rw [run_bind_of_run hpop, pollCompleted] at hrun
    rw [hcall]
    split at hrun
    · cases hrun
    · obtain ⟨_, σ₁, hparse, hrefill⟩ := run_bind_eq_some.mp hrun
      obtain ⟨log, hsame⟩ := parseBuffer_counts hparse
      have hqueue : σ₁.rxQueue = σ.rxQueue.recycle id := hsame.rxQueue
      -- what is taken back is what was popped
      have hone : σ₁.rxQueue.numFree = 1 := by
        rw [hqueue]
        show σ.rxQueue.numFree + 1 = 1
        rw [hfree]
        rfl
      have hadd := Virtqueue.add_eq (by rw [hone]; decide) σ₁.netStats (id.toNat * rxBufSize)
        (UInt32.ofNat rxBufSize) virtqDescFWrite
      cases (refill_run hadd).symm.trans hrefill
      have hpart : ∀ {α : Type} (part : Virtqueue → α),
          part σ₁.rxQueue = part (σ.rxQueue.recycle id) := fun part ↦ congrArg part hqueue
      have husage : σ₁.netStats.bufferUsage + σ₁.txQueue.numFree.toUInt64 =
        σ.netStats.bufferUsage - 1 + σ.txQueue.numFree.toUInt64 := hsame.usage
      refine .inr ⟨hpart Virtqueue.lastUsedIdx, hpart Virtqueue.queueIndex, hpart Virtqueue.size,
        ?_, hsame.rxPackets, hsame.txPackets, hsame.txPopped, hsame.txIndex, hsame.txSize,
        hsame.txFree, ?_⟩
      · show σ₁.rxQueue.numFree - 1 = 0
        rw [hone]
        rfl
      · show σ₁.netStats.bufferUsage + 1 + σ₁.txQueue.numFree.toUInt64 = _
        grind

/-! ## One run of the reaper -/

/-- What the reaper does that consumes `n` completions. -/
structure Node.ReapsAll (n : Nat) (σ σ' : Node) : Prop where
  rxQueue : σ'.rxQueue = σ.rxQueue
  rxPackets : σ'.netStats.rxPackets = σ.netStats.rxPackets
  txPackets : σ'.netStats.txPackets = σ.netStats.txPackets + UInt64.ofNat (2 * n)
  txPopped : σ'.txQueue.lastUsedIdx = σ.txQueue.usedIdx
  txIndex : σ'.txQueue.queueIndex = σ.txQueue.queueIndex
  idle : n = 0 → σ' = σ

/-- A turn of the reaper consumes no completion and changes nothing, or it consumes one and counts
it twice. -/
theorem reapTurn_counts {σ σ' : Node} {found : Option Nat} (hindex : σ.txQueue.queueIndex = 1)
    (hrun : reapTurn.run σ = some (found, σ')) :
    found = none ∧ σ' = σ ∧ σ.txQueue.lastUsedIdx = σ.txQueue.usedIdx ∨
      found.isSome ∧ σ.txQueue.lastUsedIdx ≠ σ.txQueue.usedIdx ∧ σ'.rxQueue = σ.rxQueue ∧
      (∃ id, σ'.txQueue = σ.txQueue.recycle id) ∧
      σ'.netStats.rxPackets = σ.netStats.rxPackets ∧
      σ'.netStats.txPackets = σ.netStats.txPackets + 1 + 1 := by
  rw [reapTurn, run_get_bind] at hrun
  rcases σ.txQueue.popUsed_cases σ.netStats with ⟨hdone, hcall⟩ | ⟨hwaiting, id, len, hcall⟩
  · rw [hcall] at hrun
    cases hrun
    exact .inl ⟨rfl, rfl, hdone⟩
  · rw [hcall, hindex] at hrun
    right
    dsimp only at hrun
    split at hrun
    · cases hrun
      exact ⟨rfl, hwaiting, rfl, ⟨id, rfl⟩, rfl, rfl⟩
    · cases hrun
      exact ⟨rfl, hwaiting, rfl, ⟨id, rfl⟩, rfl, rfl⟩

/-- The reaper consumes all completions, and counts each twice. -/
theorem reapLoop_counts {turns : Nat} {σ σ' : Node} (hindex : σ.txQueue.queueIndex = 1)
    (hrun : (reapLoop turns).run σ = some ((), σ')) :
    σ.ReapsAll (σ.txQueue.usedIdx - σ.txQueue.lastUsedIdx).toNat σ' := by
  induction turns generalizing σ with
  | zero => cases hrun
  | succ turns ih =>
      rw [reapLoop_succ] at hrun
      obtain ⟨found, σ₁, hturn, hrest⟩ := run_bind_eq_some.mp hrun
      rcases reapTurn_counts hindex hturn with
        ⟨rfl, rfl, hdone⟩ | ⟨hfound, hwaiting, hrx, ⟨id, htx⟩, hrxPackets, htxPackets⟩
      · cases hrest
        rw [hdone, UInt16.sub_self]
        exact ⟨rfl, rfl, (UInt64.add_zero _).symm, hdone, rfl, fun _ ↦ rfl⟩
      · rw [if_pos hfound] at hrest
        have hpart : ∀ {α : Type} (part : Virtqueue → α),
            part σ₁.txQueue = part (σ.txQueue.recycle id) := fun part ↦ congrArg part htx
        have hpopped : σ₁.txQueue.lastUsedIdx = σ.txQueue.lastUsedIdx + 1 :=
          hpart Virtqueue.lastUsedIdx
        have hused : σ₁.txQueue.usedIdx = σ.txQueue.usedIdx := hpart Virtqueue.usedIdx
        have hnumber : σ₁.txQueue.queueIndex = σ.txQueue.queueIndex := hpart Virtqueue.queueIndex
        have hreaps := ih (hnumber.trans hindex) hrest
        rw [hused, hpopped] at hreaps
        -- each turn pops one of the waiting entries
        have hcount : (σ.txQueue.usedIdx - σ.txQueue.lastUsedIdx).toNat =
            (σ.txQueue.usedIdx - (σ.txQueue.lastUsedIdx + 1)).toNat + 1 := by
          have hsub : σ.txQueue.usedIdx - (σ.txQueue.lastUsedIdx + 1) =
              σ.txQueue.usedIdx - σ.txQueue.lastUsedIdx - 1 := by grind
          have hpos : (1 : UInt16) ≤ σ.txQueue.usedIdx - σ.txQueue.lastUsedIdx := by
            grind
          rw [hsub, UInt16.toNat_sub_of_le _ _ hpos]
          rw [UInt16.le_iff_toNat_le] at hpos
          exact (Nat.sub_add_cancel hpos).symm
        rw [hcount]
        refine ⟨hreaps.rxQueue.trans hrx, hreaps.rxPackets.trans hrxPackets, ?_,
          hreaps.txPopped.trans hused, hreaps.txIndex.trans hnumber, fun hzero ↦ by omega⟩
        rw [hreaps.txPackets, htxPackets, Nat.mul_succ, UInt64.ofNat_add]
        show _ + 1 + 1 + _ = _ + (_ + 2)
        grind

/-! ## All runs -/

/-- What the counters say when `k` was consumed. -/
structure Consumed.Tallies (k : Consumed) (σ : Node) : Prop where
  rxIndex : σ.rxQueue.queueIndex = 0
  txIndex : σ.txQueue.queueIndex = 1
  rxFree : σ.rxQueue.numFree = 0
  rxPackets : σ.netStats.rxPackets = UInt64.ofNat (k.rx + k.frames)
  txPackets : σ.netStats.txPackets = UInt64.ofNat (2 * k.tx)
  frames_le : k.frames ≤ k.rx
  txFree : k.tx = 0 → σ.txQueue.numFree.toNat ≤ σ.txQueue.size.toNat
  usage : k.tx = 0 → σ.netStats.bufferUsage + σ.txQueue.numFree.toUInt64 =
    σ.rxQueue.size.toUInt64 + σ.txQueue.size.toUInt64

theorem poppedBetween_eq_zero {vq vq' : Virtqueue} (h : vq'.lastUsedIdx = vq.lastUsedIdx) :
    poppedBetween vq vq' = 0 := by
  rw [poppedBetween, h, UInt16.sub_self]
  rfl

theorem poppedBetween_eq_one {vq vq' : Virtqueue} (h : vq'.lastUsedIdx = vq.lastUsedIdx + 1) :
    poppedBetween vq vq' = 1 := by
  rw [poppedBetween, h, UInt16.add_comm, UInt16.add_sub_cancel]
  rfl

/-- A step that pops nothing consumes nothing. -/
theorem Consumed.Tallies.quiet {k : Consumed} {σ σ' : Node} (h : k.Tallies σ')
    (hrx : σ'.rxQueue.lastUsedIdx = σ.rxQueue.lastUsedIdx)
    (htx : σ'.txQueue.lastUsedIdx = σ.txQueue.lastUsedIdx) : (k.after 0 σ σ').Tallies σ' := by
  rw [after, poppedBetween_eq_zero hrx, poppedBetween_eq_zero htx]
  exact h

/-- Every step keeps the tallies. -/
theorem Consumed.Tallies.step {k : Consumed} {n : Nat} {σ σ' : Node} (h : k.Tallies σ)
    (hmove : σ.Moves n σ') : (k.after n σ σ').Tallies σ' := by
  cases hmove with
  | fill len rx hid hfree =>
      refine Tallies.quiet ?_ rfl rfl
      exact ⟨h.rxIndex, h.txIndex, h.rxFree, h.rxPackets, h.txPackets, h.frames_le, h.txFree,
        h.usage⟩
  | poll hrun =>
      rcases virtioNetPoll_counts h.rxIndex h.rxFree hrun with ⟨hnone, rfl⟩ | hpolls
      · rw [hnone]
        exact h.quiet rfl rfl
      · rw [after, poppedBetween_eq_one hpolls.rxPopped, poppedBetween_eq_zero hpolls.txPopped]
        have hframes := framesIn_le (virtqueuePopUsed σ.rxQueue σ.netStats).1
        -- only how many frames there were matters from here
        generalize framesIn (virtqueuePopUsed σ.rxQueue σ.netStats).1 = n at hpolls hframes
        refine ⟨hpolls.rxIndex.trans h.rxIndex, hpolls.txIndex.trans h.txIndex, hpolls.rxFree, ?_,
          hpolls.txPackets.trans h.txPackets, ?_, fun hzero ↦ ?_, fun hzero ↦ ?_⟩
        · rw [hpolls.rxPackets, h.rxPackets,
            show k.rx + 1 + (k.frames + n) = k.rx + k.frames + 1 + n by omega,
            UInt64.ofNat_add _ n, UInt64.ofNat_add _ 1]
          rfl
        · have hle := h.frames_le
          dsimp only
          omega
        · rw [hpolls.txSize]
          exact hpolls.txFree.trans (h.txFree hzero)
        · rw [hpolls.usage, hpolls.rxSize, hpolls.txSize]
          exact h.usage hzero
  | complete len hid =>
      refine Tallies.quiet ?_ rfl rfl
      exact ⟨h.rxIndex, h.txIndex, h.rxFree, h.rxPackets, h.txPackets, h.frames_le, h.txFree,
        h.usage⟩
  | reap hrun =>
      have hreaps := reapLoop_counts h.txIndex hrun
      by_cases hnone : (σ.txQueue.usedIdx - σ.txQueue.lastUsedIdx).toNat = 0
      · cases hreaps.idle hnone
        exact h.quiet rfl rfl
      · have hpopped : poppedBetween σ.txQueue σ'.txQueue =
            (σ.txQueue.usedIdx - σ.txQueue.lastUsedIdx).toNat := by
          rw [poppedBetween, hreaps.txPopped]
        rw [after, poppedBetween_eq_zero (congrArg Virtqueue.lastUsedIdx hreaps.rxQueue), hpopped]
        refine ⟨?_, hreaps.txIndex.trans h.txIndex, ?_, hreaps.rxPackets.trans h.rxPackets, ?_,
          h.frames_le, fun hzero ↦ absurd hzero (by dsimp only; omega),
          fun hzero ↦ absurd hzero (by dsimp only; omega)⟩
        · rw [hreaps.rxQueue]
          exact h.rxIndex
        · rw [hreaps.rxQueue]
          exact h.rxFree
        · rw [hreaps.txPackets, h.txPackets, Nat.mul_add, UInt64.ofNat_add]
  | send hrun =>
      have hsame := closed_accounted.ethernetSend _ _ _ _ _ _ _ hrun
      refine Tallies.quiet ?_ (congrArg Virtqueue.lastUsedIdx hsame.rxQueue) hsame.txPopped
      refine ⟨?_, hsame.txIndex.trans h.txIndex, ?_, hsame.rxPackets.trans h.rxPackets,
        hsame.txPackets.trans h.txPackets, h.frames_le, fun hzero ↦ ?_, fun hzero ↦ ?_⟩
      · rw [hsame.rxQueue]
        exact h.rxIndex
      · rw [hsame.rxQueue]
        exact h.rxFree
      · rw [hsame.txSize]
        exact hsame.txFree.trans (h.txFree hzero)
      · rw [hsame.usage, hsame.rxQueue, hsame.txSize]
        exact h.usage hzero

/-- So every run has them. -/
theorem Setup.Traffic.tallies {c : Setup} {k : Consumed} {σ : Node} (h : c.Traffic k σ) :
    k.Tallies σ := by
  induction h with
  | boot hstarts =>
      obtain ⟨hstocked, hsize, hindex, htx, hstats⟩ := hstarts.stocked
      refine ⟨hindex, by rw [htx]; rfl, hstocked.numFree, by rw [hstats]; rfl, by rw [hstats]; rfl,
        le_rfl, fun _ ↦ by rw [htx]; rfl, fun _ ↦ ?_⟩
      rw [htx, hstats, hsize]
      show UInt64.ofNat c.rxSize.toNat + _ = _
      rw [UInt64.ofNat_uInt16ToNat]
      rfl
  | step _ hmove ih => exact ih.step hmove

/-- With these tallies the counters are exact as long as nothing was counted twice. -/
theorem Consumed.Tallies.exact_iff {k : Consumed} {σ : Node} (h : k.Tallies σ) :
    σ.CountsExactly k ↔ k.rx < 2 ^ 64 ∧ k.frames = 0 ∧ k.tx = 0 := by
  have hrx : σ.netStats.rxPackets.toNat = (k.rx + k.frames) % 2 ^ 64 := by
    rw [h.rxPackets]
    rfl
  have htx : σ.netStats.txPackets.toNat = 2 * k.tx % 2 ^ 64 := by
    rw [h.txPackets]
    rfl
  have hframes := h.frames_le
  unfold Node.CountsExactly
  rw [hrx, htx]
  constructor
  · intro hexact
    obtain ⟨hexactRx, hexactTx, -⟩ := hexact
    omega
  · intro hnone
    obtain ⟨hlt, hnoFrames, hnoTx⟩ := hnone
    refine ⟨by omega, by omega, ?_⟩
    have hfree := h.txFree hnoTx
    have husage := congrArg UInt64.toNat (h.usage hnoTx)
    rw [UInt64.toNat_add, UInt64.toNat_add, UInt16.toNat_toUInt64, UInt16.toNat_toUInt64,
      UInt16.toNat_toUInt64] at husage
    have hbound := σ.netStats.bufferUsage.toNat_lt
    have hrxSize := σ.rxQueue.size.toNat_lt
    have htxSize := σ.txQueue.size.toNat_lt
    rw [h.rxFree, show (0 : UInt16).toNat = 0 from rfl]
    omega

/-- The node after the device reported `len` bytes for its first receive buffer and it polled, with
what it consumed. -/
def Setup.pollFirst (c : Setup) (len : UInt32) : Option (Consumed × Node) := do
  let σ ← c.exec []
  if 0 ∈ σ.rxQueue.published ∧ σ.rxQueue.SlotFree then
    let filled := { σ with rxQueue := deviceComplete σ.rxQueue 0 len }
    let (_, σ') ← virtioNetPoll.run filled
    let frames := framesIn (virtqueuePopUsed filled.rxQueue filled.netStats).1
    pure (((Consumed.mk 0 0 0).after 0 σ filled).after frames filled σ', σ')
  else none

/-- This is a run. -/
theorem Setup.pollFirst_traffic {c : Setup} {len : UInt32} {k : Consumed}
    (h : (c.pollFirst len).any (fun r ↦ r.1 = k) = true) : ∃ σ, c.Traffic k σ := by
  obtain ⟨⟨k', σ'⟩, hpoll, hk⟩ := (Option.any_eq_true _ _).mp h
  obtain rfl : k' = k := of_decide_eq_true hk
  obtain ⟨σ, hexec, hrest⟩ := Option.bind_eq_some_iff.mp hpoll
  by_cases hready : 0 ∈ σ.rxQueue.published ∧ σ.rxQueue.SlotFree
  · rw [if_pos hready] at hrest
    obtain ⟨⟨_, τ⟩, hrun, hresult⟩ := Option.bind_eq_some_iff.mp hrest
    cases hresult
    have hboot : c.Traffic ⟨0, 0, 0⟩ σ := .boot (Setup.exec_nil hexec)
    exact ⟨σ', (hboot.step (.fill len σ.rxBuffers hready.1 hready.2)).step (.poll hrun)⟩
  · rw [if_neg hready] at hrest
    cases hrest

/-- In every run from boot, whatever is sent, received and completed in whatever order, the counters
agree with what was consumed if and only if no completion of the RX queue carried a frame and no
completion of the TX queue was consumed. -/
theorem traffic_counted (c : Setup) (k : Consumed) (σ : Node) (h : c.Traffic k σ) :
    σ.CountsExactly k ↔ k.rx < 2 ^ 64 ∧ k.frames = 0 ∧ k.tx = 0 :=
  h.tallies.exact_iff

/-- A completion that reports the header alone. -/
theorem traffic_counted_empty : ∃ σ, Setup.sample.Traffic ⟨1, 0, 0⟩ σ ∧
    σ.CountsExactly ⟨1, 0, 0⟩ := by
  obtain ⟨σ, htraffic⟩ := Setup.pollFirst_traffic
    (show (Setup.sample.pollFirst 10).any (fun r ↦ r.1 = ⟨1, 0, 0⟩) = true by decide +kernel)
  exact ⟨σ, htraffic, (traffic_counted _ _ σ htraffic).mpr ⟨by decide, rfl, rfl⟩⟩

/-- A frame of 60 bytes is counted by `virtqueue_pop_used` and again by `virtio_net_poll`. -/
theorem traffic_counted_twice : ∃ σ, Setup.sample.Traffic ⟨1, 1, 0⟩ σ ∧
    σ.netStats.rxPackets = 2 ∧ ¬ σ.CountsExactly ⟨1, 1, 0⟩ := by
  obtain ⟨σ, htraffic⟩ := Setup.pollFirst_traffic
    (show (Setup.sample.pollFirst 72).any (fun r ↦ r.1 = ⟨1, 1, 0⟩) = true by decide +kernel)
  refine ⟨σ, htraffic, htraffic.tallies.rxPackets, fun hexact ↦ ?_⟩
  exact absurd (htraffic.tallies.exact_iff.mp hexact).2.1 (by decide)

end Aether.Ethernet
