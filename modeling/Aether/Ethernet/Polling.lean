import Aether.Ethernet.Bringup
import Aether.Ethernet.Counters
import Aether.Kernel.Ioremap
import Aether.Lib.Checks

/-!
# Polling after any initialisation

`virtio_net_poll`, `net_tx_reaper` and `ethernet_send` with a check before every access behind a
ring pointer and before every index modulo a queue size. The checks hold in every run of the main
loop if the initialisation left both rings set up; the device is published before that is known.
-/

namespace Aether.Ethernet

open ByteMemory Kernel Drivers Common Program Transition

/-! ## The rings stay where they are -/

/-- The device is the same, and both rings are where they were. -/
structure Node.SameDevice (σ σ' : Node) : Prop where
  dev : σ'.globalVnetDev = σ.globalVnetDev
  rx : σ'.rxQueue.regions = σ.rxQueue.regions
  tx : σ'.txQueue.regions = σ.txQueue.regions

theorem Node.SameDevice.refl (σ : Node) : σ.SameDevice σ := ⟨rfl, rfl, rfl⟩

theorem Node.SameDevice.trans (σ τ υ : Node) (h : σ.SameDevice τ) (h' : τ.SameDevice υ) :
    σ.SameDevice υ :=
  ⟨h'.dev.trans h.dev, h'.rx.trans h.rx, h'.tx.trans h.tx⟩

/-- Every run of the action leaves the device and the rings alone. -/
def KeepsDevice {α : Type} (x : Action α) : Prop := Keeps Node.SameDevice x

section Elementary

theorem KeepsDevice.bind {α β : Type} {x : Action α} {f : α → Action β} (hx : KeepsDevice x)
    (hf : ∀ a, KeepsDevice (f a)) : KeepsDevice (x >>= f) :=
  Keeps.bind Node.SameDevice.trans hx hf

theorem KeepsDevice.pure {α : Type} (a : α) : KeepsDevice (Pure.pure a : Action α) :=
  Keeps.pure Node.SameDevice.refl a

theorem KeepsDevice.get : KeepsDevice (MonadState.get : Action Node) :=
  Keeps.get Node.SameDevice.refl

/-- What the stack does with a frame moves no ring. -/
theorem keepsDevice_frames : ClosedOnFrames @KeepsDevice where
  pure := .pure
  fault := Keeps.fail fun _ ↦ rfl
  bind := .bind
  reads _ hf := .bind .get hf
  assign _ hdev hrx htx _ := Keeps.modify fun σ ↦ ⟨hdev σ, by rw [hrx], by rw [htx]⟩
  callKmalloc size := by
    intro σ p σ' hrun
    obtain ⟨_, _, rfl⟩ := callKmalloc_changes hrun
    exact ⟨rfl, rfl, rfl⟩
  addTxDescriptor addr len := by
    intro σ head σ' hrun
    cases hrun
    exact ⟨rfl, rfl, Virtqueue.part_add Virtqueue.regions (fun _ _ _ _ ↦ rfl) _ _ _ _ _⟩
  pushTxAvailable head := Keeps.modify fun _ ↦ ⟨rfl, rfl, rfl⟩
  readRx a n := .bind .get fun _ ↦ .pure _
  writeRx a bs := Keeps.modify fun _ ↦ ⟨rfl, rfl, rfl⟩
  reportChecksumError := Keeps.modify fun _ ↦ ⟨rfl, rfl, rfl⟩

theorem keepsDevice_popRx : KeepsDevice popRx := by
  intro σ receipt σ' hrun
  rw [popRx, run_get_bind] at hrun
  rcases σ.rxQueue.popUsed_cases σ.netStats with ⟨-, hcall⟩ | ⟨-, id, len, hcall⟩
  · rw [hcall] at hrun
    cases hrun
    exact .refl σ
  · rw [hcall] at hrun
    cases hrun
    exact ⟨rfl, rfl, rfl⟩

theorem keepsDevice_addRxDescriptor (addr : Nat) : KeepsDevice (addRxDescriptor addr) := by
  intro σ id σ' hrun
  cases hrun
  exact ⟨rfl, Virtqueue.part_add Virtqueue.regions (fun _ _ _ _ ↦ rfl) _ _ _ _ _, rfl⟩

theorem keepsDevice_pushRxAvailable (head : UInt16) : KeepsDevice (pushRxAvailable head) :=
  Keeps.modify fun _ ↦ ⟨rfl, rfl, rfl⟩

theorem keepsDevice_parseBuffer (id : UInt16) (len : UInt32) :
    KeepsDevice (parseBuffer id len) := by
  refine Keeps.ite (KeepsDevice.bind ?_ fun _ ↦ ?_) (KeepsDevice.pure _)
  · exact Keeps.modify fun _ ↦ ⟨rfl, rfl, rfl⟩
  refine .bind (keepsDevice_frames.readRx _ _) fun bytes ↦ ?_
  refine .bind (keepsDevice_frames.note _) fun _ ↦ ?_
  exact keepsDevice_frames.ethernetHandlePacket _ _

theorem keepsDevice_reapTurn : KeepsDevice reapTurn := by
  intro σ found σ' hrun
  rw [reapTurn, run_get_bind] at hrun
  rcases σ.txQueue.popUsed_cases σ.netStats with ⟨-, hcall⟩ | ⟨-, id, len, hcall⟩
  · rw [hcall] at hrun
    cases hrun
    exact .refl σ
  · rw [hcall] at hrun
    dsimp only at hrun
    split at hrun
    · cases hrun
      exact ⟨rfl, rfl, rfl⟩
    · cases hrun
      exact ⟨rfl, rfl, rfl⟩

end Elementary

/-- So does no step of the node and its device. -/
theorem Node.Moves.sameDevice {n : Nat} {σ σ' : Node} (h : σ.Moves n σ') : σ.SameDevice σ' := by
  cases h with
  | fill len rx hid hfree => exact ⟨rfl, rfl, rfl⟩
  | poll hrun =>
      have hpoll : KeepsDevice virtioNetPoll := by
        rw [virtioNetPoll_parts]
        refine keepsDevice_popRx.bind fun receipt ↦ ?_
        cases receipt with
        | none => exact .pure _
        | some receipt =>
            refine Keeps.ite keepsDevice_frames.fault
              ((keepsDevice_parseBuffer _ _).bind fun _ ↦ ?_)
            exact (keepsDevice_addRxDescriptor _).bind fun id ↦ keepsDevice_pushRxAvailable id
      exact hpoll _ _ _ hrun
  | complete len hid => exact ⟨rfl, rfl, rfl⟩
  | reap hrun =>
      have hreap : ∀ turns, KeepsDevice (reapLoop turns) := by
        intro turns
        induction turns with
        | zero => exact keepsDevice_frames.fault
        | succ turns ih =>
            rw [reapLoop_succ]
            exact keepsDevice_reapTurn.bind fun found ↦ Keeps.ite ih (KeepsDevice.pure _)
      exact hreap 65536 _ _ _ hrun
  | send hrun => exact keepsDevice_frames.ethernetSend _ _ _ _ _ _ _ hrun

/-! ## The functions with checks -/

namespace Guarded

/-- The call of `virtqueue_pop_used` in `virtio_net_poll`. -/
def popRx : Checked Node (Option (UInt16 × UInt32)) := do
  check fun σ ↦ σ.rxQueue.PopsSafely
  OptionT.lift Ethernet.popRx

/-- A call of `virtqueue_add_descriptor` on the RX queue. -/
def addRxDescriptor (addr : Nat) : Checked Node UInt16 := do
  check fun σ ↦ σ.rxQueue.AddsSafely
  Ethernet.addRxDescriptor addr

/-- A call of `virtqueue_push_available` on the RX queue. -/
def pushRxAvailable (head : UInt16) : Checked Node Unit := do
  check fun σ ↦ σ.rxQueue.PushesSafely
  Ethernet.pushRxAvailable head

/-- `virtio_net_poll`. Its calls of `ethernet_send` are made in states with the same device and
rings. -/
def virtioNetPoll : Checked Node Unit := do
  match ← popRx with
  | none => pure ()
  | some (id, len) =>
      if rxQueueSize ≤ id.toNat then OptionT.lift fault
      else do
        parseBuffer id len
        let newId ← addRxDescriptor (id.toNat * rxBufSize)
        pushRxAvailable newId

/-- The loop of `net_tx_reaper`, which reads the descriptor that it popped. -/
def reapLoop : Nat → Checked Node Unit
  | 0 => OptionT.lift fault
  | turns + 1 => do
      check fun σ ↦ σ.txQueue.PopsSafely
      let found ← OptionT.lift reapTurn
      if found.isSome then reapLoop turns else pure ()

/-- `net_tx_reaper`. -/
def netTxReaper : Checked Node Unit := reapLoop 65536

/-- A call of `virtqueue_add_descriptor` on the TX queue. -/
def addTxDescriptor (addr : Nat) (len : UInt32) : Checked Node UInt16 := do
  check fun σ ↦ σ.txQueue.AddsSafely
  Ethernet.addTxDescriptor addr len

/-- A call of `virtqueue_push_available` on the TX queue. -/
def pushTxAvailable (head : UInt16) : Checked Node Unit := do
  check fun σ ↦ σ.txQueue.PushesSafely
  Ethernet.pushTxAvailable head

/-- `ethernet_send`. Where `tx_vq` still has what the heap held it leads to no queue that is set up,
and `tx_queue` stands for that: it is not set up then either. -/
def ethernetSend (destMac : Mac) (ethertype : UInt16) (payload : Pointer) (len : UInt32) :
    Checked Node Unit := do
  let σ ← get
  if σ.globalVnetDev.any (·.txVq) then
    let totalLen := sizeofVirtioNetHdr + 14 + len
    let buffer ← callKmalloc totalLen.toNat
    if buffer = 0 then pure ()
    else
      writeHeap buffer (List.replicate 10 0)
      writeHeap (buffer + 10) (EthHeader.mk destMac σ.aetherMac (htons ethertype)).bytes
      writeHeap (buffer + 24) (← readPointer payload len.toNat)
      let frame ← readHeap buffer totalLen.toNat
      note (if (← get).txQueue.numFree = 0 then .ringFull else .transmitted frame)
      let head ← addTxDescriptor buffer totalLen
      pushTxAvailable head
  else pure ()

end Guarded

/-! ## Both rings set up -/

/-- Both rings are set up. -/
def Node.RingsSet (σ : Node) : Prop := σ.rxQueue.RingsSet ∧ σ.txQueue.RingsSet

theorem Node.RingsSet.sameDevice {σ σ' : Node} (h : σ.RingsSet) (hsame : σ.SameDevice σ') :
    σ'.RingsSet :=
  ⟨h.1.of_regions hsame.rx, h.2.of_regions hsame.tx⟩

section Passing

theorem passes_lift {α : Type} {x : Action α} (h : KeepsDevice x) :
    Passes Node.RingsSet (OptionT.lift x) x :=
  .lift fun σ a σ' hrun hσ ↦ hσ.sameDevice (h σ a σ' hrun)

theorem passes_virtioNetPoll : Passes Node.RingsSet Guarded.virtioNetPoll virtioNetPoll := by
  rw [virtioNetPoll_parts]
  refine .bind (.check (fun σ hσ ↦ hσ.1.popsSafely) (passes_lift keepsDevice_popRx))
    fun receipt ↦ ?_
  cases receipt with
  | none => exact passes_lift (.pure _)
  | some receipt =>
      obtain ⟨id, len⟩ := receipt
      refine .ite (passes_lift keepsDevice_frames.fault)
        (.bind (passes_lift (keepsDevice_parseBuffer _ _)) fun _ ↦ .bind ?_ fun newId ↦ ?_)
      · exact .check (fun σ hσ ↦ hσ.1.addsSafely) (passes_lift (keepsDevice_addRxDescriptor _))
      · exact .check (fun σ hσ ↦ hσ.1.pushesSafely) (passes_lift (keepsDevice_pushRxAvailable _))

theorem passes_reapLoop (turns : Nat) :
    Passes Node.RingsSet (Guarded.reapLoop turns) (reapLoop turns) := by
  induction turns with
  | zero => exact passes_lift keepsDevice_frames.fault
  | succ turns ih =>
      rw [reapLoop_succ]
      refine .check (fun σ hσ ↦ hσ.2.popsSafely) (.bind (passes_lift keepsDevice_reapTurn) ?_)
      exact fun found ↦ .ite ih (passes_lift (.pure _))

theorem passes_ethernetSend (destMac : Mac) (ethertype : UInt16) (payload : Pointer)
    (len : UInt32) : Passes Node.RingsSet (Guarded.ethernetSend destMac ethertype payload len)
      (ethernetSend destMac ethertype payload len) := by
  refine .bind (passes_lift .get) fun σ ↦ .ite (.bind (passes_lift ?_) fun buffer ↦ ?_)
    (passes_lift (.pure _))
  · exact keepsDevice_frames.callKmalloc _
  refine .ite (passes_lift (.pure _)) (.bind (passes_lift (keepsDevice_frames.writeHeap _ _)) ?_)
  refine fun _ ↦ .bind (passes_lift (keepsDevice_frames.writeHeap _ _)) fun _ ↦ ?_
  refine .bind (passes_lift (keepsDevice_frames.readPointer _ _)) fun bytes ↦ ?_
  refine .bind (passes_lift (keepsDevice_frames.writeHeap _ _)) fun _ ↦ ?_
  refine .bind (passes_lift (keepsDevice_frames.readHeap _ _)) fun frame ↦ ?_
  refine .bind (passes_lift .get) fun σ' ↦ ?_
  refine .bind (passes_lift (keepsDevice_frames.note _)) fun _ ↦ ?_
  refine .bind (.check (fun σ hσ ↦ hσ.2.addsSafely) (passes_lift ?_)) fun head ↦ ?_
  · exact keepsDevice_frames.addTxDescriptor _ _
  · exact .check (fun σ hσ ↦ hσ.2.pushesSafely) (passes_lift (keepsDevice_frames.pushTxAvailable _))

end Passing

/-! ## The main loop -/

/-- The network polling of `kernel_main`. -/
def networkPolling : Action Unit := do
  if (← get).globalVnetDev.isSome then
    virtioNetPoll
    netTxReaper

/-- The states of the main loop: nothing happens there without a device. -/
abbrev Probe.Reaches (c : Probe) : Node → Prop :=
  Reachable c.Starts fun σ σ' ↦ σ.globalVnetDev.isSome ∧ ∃ n, σ.Moves n σ'

/-- No check fails when the main loop polls, nor in `ethernet_send`, in whatever state with the same
device and rings a handler calls it. -/
structure Node.PollsSafely (σ : Node) : Prop where
  poll : σ.globalVnetDev.isSome → ¬ Trips Guarded.virtioNetPoll σ
  reap : σ.globalVnetDev.isSome → ¬ Trips Guarded.netTxReaper σ
  send : ∀ τ, σ.SameDevice τ → ∀ destMac ethertype payload len,
    ¬ Trips (Guarded.ethernetSend destMac ethertype payload len) τ

/-- Polling and sending do nothing. -/
structure Node.Idle (σ : Node) : Prop where
  polling : networkPolling.run σ = some ((), σ)
  send : ∀ destMac ethertype payload len,
    (ethernetSend destMac ethertype payload len).run σ = some ((), σ)

/-- In the main loop polling is safe, and after an initialisation that failed it does nothing. -/
def Probe.PollsSafely (c : Probe) : Prop :=
  ∀ σ, c.Reaches σ → σ.PollsSafely ∧ (¬ (c.BanksFound ∧ c.Accepted) → σ.Idle)

/-- With both rings set up polling is safe. -/
theorem Node.RingsSet.pollsSafely {σ : Node} (h : σ.RingsSet) : σ.PollsSafely where
  poll _ := passes_virtioNetPoll.not_trips h
  reap _ := (passes_reapLoop 65536).not_trips h
  send _ hsame _ _ _ _ := (passes_ethernetSend _ _ _ _).not_trips (h.sameDevice hsame)

/-- Without a device nothing is polled and nothing is sent. -/
theorem Node.idle_of_no_device {σ : Node} (h : σ.globalVnetDev = none) :
    σ.PollsSafely ∧ σ.Idle := by
  have hnone : ¬ σ.globalVnetDev.isSome := by
    rw [h]
    exact Bool.false_ne_true
  have hnoQueue : ∀ τ : Node, σ.SameDevice τ → ¬ τ.globalVnetDev.any (·.txVq) := by
    intro τ hsame
    rw [hsame.dev, h]
    exact Bool.false_ne_true
  refine ⟨⟨fun hsome ↦ absurd hsome hnone, fun hsome ↦ absurd hsome hnone, ?_⟩, ?_, ?_⟩
  · intro τ hsame destMac ethertype payload len htrips
    obtain ⟨σ', hrun⟩ := htrips
    rw [Guarded.ethernetSend, run_checked_bind] at hrun
    change (if _ then _ else _ : Checked Node Unit).run.run τ = _ at hrun
    rw [if_neg (hnoQueue τ hsame)] at hrun
    cases hrun
  · rw [networkPolling, run_get_bind, if_neg hnone]
    rfl
  · intro destMac ethertype payload len
    rw [ethernetSend, run_get_bind, if_neg (hnoQueue σ (.refl σ))]
    rfl

/-- A device that was published and does not accept leaves a ring that the main loop polls unset. -/
theorem Probe.Starts.not_pollsSafely {c : Probe} {σ : Node} (h : c.Starts σ) (hbanks : c.BanksFound)
    (hrefused : ¬ c.Accepted) : ¬ σ.PollsSafely := by
  intro hsafe
  obtain ⟨hpublished, hleaves⟩ := h.leaves
  have hdev := hpublished.mp hbanks
  rcases (hleaves hbanks).2 hrefused with hrx | htx
  · refine hsafe.poll hdev (Trips.bind (trips_check ?_ _) _)
    exact fun hpops ↦ hpops.1 hrx
  · refine hsafe.reap hdev (trips_check ?_ _)
    exact fun hpops ↦ hpops.1 htx

/-- For every device and every sequence of values that its registers return, polling is safe after
the initialisation if and only if the two banks are missing or the device accepts. -/
theorem polling_safe_iff (c : Probe) (σ₀ : Node) (h : c.Starts σ₀) :
    c.PollsSafely ↔ ¬ c.BanksFound ∨ c.Accepted := by
  constructor
  · intro hsafe
    by_contra hbad
    rw [not_or, not_not] at hbad
    exact h.not_pollsSafely hbad.1 hbad.2 (hsafe σ₀ (.init h)).1
  · intro hgood σ hreaches
    by_cases hbanks : c.BanksFound
    · have haccepted := hgood.resolve_left fun hmissing ↦ hmissing hbanks
      have hset : σ.RingsSet := by
        refine hreaches.invariant Node.RingsSet (fun σ hstarts ↦ ?_) fun σ σ' hset hstep ↦ ?_
        · exact (hstarts.leaves.2 hbanks).1 haccepted
        · obtain ⟨-, n, hmoves⟩ := hstep
          exact hset.sameDevice hmoves.sameDevice
      exact ⟨hset.pollsSafely, fun hfailed ↦ absurd ⟨hbanks, haccepted⟩ hfailed⟩
    · have hnone : σ.globalVnetDev = none := by
        refine hreaches.invariant (fun σ ↦ σ.globalVnetDev = none) (fun σ hstarts ↦ ?_)
          fun σ σ' hnone hstep ↦ ?_
        · exact Option.not_isSome_iff_eq_none.mp fun hsome ↦ hbanks (hstarts.leaves.1.mpr hsome)
        · rw [hnone] at hstep
          cases hstep.1
      obtain ⟨hsafe, hidle⟩ := Node.idle_of_no_device hnone
      exact ⟨hsafe, fun _ ↦ hidle⟩

/-- A function with a BAR and the capabilities for the two banks in it. -/
def Probe.sampleConfig : ConfigSpace := fun reg ↦
  if reg = 0x10 then 0x10000000
  else if reg = 0x34 then 0x40
  else if reg = 0x40 then 0x01005009
  else if reg = 0x4C then 0x38
  else if reg = 0x50 then 0x04000009
  else if reg = 0x58 then 0x1000
  else if reg = 0x5C then 0x20
  else 0

/-- A device that leaves the reset at once and has four descriptors for each queue, with the given
status after the feature negotiation. -/
def Probe.sample (status : UInt32) : Probe where
  ram := fun _ ↦ 0
  rx := fun _ ↦ 0
  mac := gatewayMac
  ip := 0x0A00020F
  isn := 7000
  cfg := sampleConfig
  mmu := .boot .virt .sample
  values i := [0, 0x20, 1, status, 0x12005452, 0x5634, 4, 0, 4].getD i 0
  turns := 255
  rxRingMem := 0x40100000
  rxRingMem_ne_zero := by decide
  txRingMem := 0x40104000
  txRingMem_ne_zero := by decide

/-- The device accepts the features. -/
theorem polling_safe_iff_sample : ∃ σ, (Probe.sample 0x0B).Reaches σ ∧ σ.globalVnetDev.isSome ∧
    σ.PollsSafely := by
  have hreturns :
      ((Probe.sample 0x0B).virtioPciInit.run (Probe.sample 0x0B).boot).isSome = true := by
    decide +kernel
  obtain ⟨⟨_, σ⟩, hstarts⟩ := Option.isSome_iff_exists.mp hreturns
  have hsafe := (polling_safe_iff (.sample 0x0B) σ hstarts).mpr (.inr (by decide +kernel))
  have hbanks : (Probe.sample 0x0B).BanksFound := by decide +kernel
  exact ⟨σ, .init hstarts, (Probe.Starts.leaves hstarts).1.mp hbanks, (hsafe σ (.init hstarts)).1⟩

/-- The device refuses the features. -/
theorem polling_unsafe_refused : ¬ (Probe.sample 0x03).PollsSafely := by
  have hreturns :
      ((Probe.sample 0x03).virtioPciInit.run (Probe.sample 0x03).boot).isSome = true := by
    decide +kernel
  obtain ⟨⟨_, σ⟩, hstarts⟩ := Option.isSome_iff_exists.mp hreturns
  intro hsafe
  exact Probe.Starts.not_pollsSafely hstarts (by decide +kernel) (by decide +kernel)
    (hsafe σ (.init hstarts)).1

end Aether.Ethernet
