import Aether.Ethernet.Receive
import Aether.Lib.Wp

/-!
# What all that the stack does has in common

A property of actions that the elementary actions have and that sequencing keeps holds of everything
the stack does with a segment, the received bytes being no longer looked at then. If looking at them
has the property too, it holds of everything the stack does with a frame.
-/

namespace Aether.Ethernet

open ByteMemory Kernel Drivers Common Program

/-- A call of `kmalloc` changes the heap, and notes in the log when there is no memory. -/
theorem callKmalloc_run (size : Nat) (σ : Node) : (callKmalloc size).run σ =
    (kmalloc σ.heap size).map fun r ↦ (r.1, { σ with
      heap := r.2
      log := if r.1 = 0 then .noMemory :: σ.log else σ.log }) := by
  rw [callKmalloc, run_get_bind]
  cases kmalloc σ.heap size with
  | none => rfl
  | some r => rfl

/-- The elementary actions have the property and sequencing keeps it. -/
structure Closed (P : ∀ {α : Type}, Action α → Prop) : Prop where
  pure : ∀ {α : Type} (a : α), P (Pure.pure a : Action α)
  fault : ∀ {α : Type}, P (fault : Action α)
  bind : ∀ {α β : Type} {x : Action α} {f : α → Action β}, P x → (∀ a, P (f a)) → P (x >>= f)
  /-- A look at anything but the received bytes. -/
  reads : ∀ {α : Type} {f : Node → Action α},
    (∀ σ rx, f { σ with rxBuffers := rx } = f σ) → (∀ σ, P (f σ)) → P (get >>= f)
  /-- Assignments to anything but the received bytes, the device, the queues and the counters. -/
  assign : ∀ {f : Node → Node},
    (∀ σ rx, f { σ with rxBuffers := rx } = { f σ with rxBuffers := rx }) →
    (∀ σ, (f σ).globalVnetDev = σ.globalVnetDev) → (∀ σ, (f σ).rxQueue = σ.rxQueue) →
    (∀ σ, (f σ).txQueue = σ.txQueue) → (∀ σ, (f σ).netStats = σ.netStats) →
    P (modify f : Action Unit)
  callKmalloc : ∀ size, P (callKmalloc size)
  addTxDescriptor : ∀ addr len, P (addTxDescriptor addr len)
  pushTxAvailable : ∀ head, P (pushTxAvailable head)

namespace Closed

variable {P : ∀ {α : Type}, Action α → Prop}

theorem ite {α : Type} {c : Prop} [Decidable c] {x y : Action α} (hx : P x) (hy : P y) :
    P (if c then x else y) := by
  split
  · exact hx
  · exact hy

variable (h : Closed @P)

include h

/-! ## Elementary actions -/

theorem note (e : Event) : P (note e) :=
  h.assign (fun _ _ ↦ rfl) (fun _ ↦ rfl) (fun _ ↦ rfl) (fun _ ↦ rfl) fun _ ↦ rfl

theorem callKfree (p : Nat) : P (callKfree p) :=
  h.assign (fun _ _ ↦ rfl) (fun _ ↦ rfl) (fun _ ↦ rfl) (fun _ ↦ rfl) fun _ ↦ rfl

theorem readHeap (a n : Nat) : P (readHeap a n) := h.reads (fun _ _ ↦ rfl) fun _ ↦ h.pure _

theorem writeHeap (a : Nat) (bs : List UInt8) : P (writeHeap a bs) :=
  h.assign (fun _ _ ↦ rfl) (fun _ ↦ rfl) (fun _ ↦ rfl) (fun _ ↦ rfl) fun _ ↦ rfl

theorem readTcb (p : Nat) : P (readTcb p) := by
  refine h.reads (fun _ _ ↦ rfl) fun σ ↦ ite ?_ h.fault
  split
  · exact h.pure _
  · exact h.fault

theorem updateTcb (p : Nat) (f : Tcb → Tcb) : P (updateTcb p f) :=
  h.bind (h.readTcb p) fun _ ↦ h.writeHeap p _

theorem readPointer (ptr : Pointer) (n : Nat) : P (readPointer ptr n) := by
  cases ptr with
  | heap addr => exact h.readHeap addr n
  | stack bytes => exact h.pure _

/-! ## Transmission -/

theorem ethernetSend (destMac : Mac) (ethertype : UInt16) (payload : Pointer) (len : UInt32) :
    P (ethernetSend destMac ethertype payload len) := by
  refine h.reads (fun _ _ ↦ rfl) fun σ ↦ ite (h.bind (h.callKmalloc _) fun buffer ↦ ?_) (h.pure _)
  refine ite (h.pure _) (h.bind (h.writeHeap _ _) fun _ ↦ ?_)
  refine h.bind (h.writeHeap _ _) fun _ ↦ h.bind (h.readPointer _ _) fun bytes ↦ ?_
  refine h.bind (h.writeHeap _ _) fun _ ↦ h.bind (h.readHeap _ _) fun frame ↦ ?_
  refine h.reads (fun _ _ ↦ rfl) fun σ' ↦ h.bind (h.note _) fun _ ↦ ?_
  exact h.bind (h.addTxDescriptor _ _) fun head ↦ h.pushTxAvailable head

theorem ipv4Send (dstIp : UInt32) (protocol : UInt8) (payload : Pointer)
    (payloadLen : UInt32) : P (ipv4Send dstIp protocol payload payloadLen) := by
  refine h.reads (fun _ _ ↦ rfl) fun σ ↦ ite (h.pure _) (h.bind (h.callKmalloc _) fun pkt ↦ ?_)
  refine ite (h.pure _) (h.bind (h.writeHeap _ _) fun _ ↦ ?_)
  refine h.bind (h.writeHeap _ _) fun _ ↦ h.bind (h.readHeap _ _) fun header ↦ ?_
  refine h.bind (h.writeHeap _ _) fun _ ↦ h.bind (h.readPointer _ _) fun bytes ↦ ?_
  refine h.bind (h.writeHeap _ _) fun _ ↦ ?_
  exact h.bind (h.ethernetSend _ _ _ _) fun _ ↦ h.callKfree pkt

theorem tcpSendSegment (tcb : Nat) (flags : UInt8) (payload : List UInt8) :
    P (tcpSendSegment tcb flags payload) := by
  refine ite (h.pure _) (h.bind (h.callKmalloc _) fun buffer ↦ ite (h.pure _) ?_)
  refine h.bind (h.readTcb _) fun t ↦ h.bind (h.writeHeap _ _) fun _ ↦ ?_
  refine h.bind (h.writeHeap _ _) fun _ ↦ h.bind (h.readHeap _ _) fun segment ↦ ?_
  refine h.bind (h.writeHeap _ _) fun _ ↦ h.bind (h.readHeap _ _) fun sent ↦ ?_
  refine h.bind (h.note _) fun _ ↦ h.bind (h.ipv4Send _ _ _ _) fun _ ↦ ?_
  refine ite (h.bind (h.updateTcb _ _) fun _ ↦ ?_) ?_
  · exact h.updateTcb _ _
  · exact h.updateTcb _ _

theorem tcpSendRst (srcIp dstIp : UInt32) (srcPort dstPort : UInt16) (seq ack : UInt32) :
    P (tcpSendRst srcIp dstIp srcPort dstPort seq ack) :=
  h.bind (h.note _) fun _ ↦ h.ipv4Send _ _ _ _

theorem tcpSendData (tcb : Nat) (data : List UInt8) : P (tcpSendData tcb data) := by
  refine ite (h.pure _) (h.bind (h.readTcb _) fun t ↦ ite ?_ (h.pure _))
  exact h.tcpSendSegment _ _ _

theorem tcpClose (tcb : Nat) : P (tcpClose tcb) := by
  refine ite (h.pure _) (h.bind (h.readTcb _) fun t ↦ ite ?_ (h.pure _))
  exact h.bind (h.updateTcb _ _) fun _ ↦ h.tcpSendSegment _ _ _

theorem socketDispatch (tcb : Nat) (payload : List UInt8) : P (socketDispatch tcb payload) :=
  h.bind (h.note _) fun _ ↦ h.bind (h.tcpSendData _ _) fun _ ↦ h.tcpClose tcb

/-! ## Reception -/

theorem tcpAllocateTcb : P tcpAllocateTcb := by
  refine h.bind (h.callKmalloc _) fun tcb ↦ ite (h.pure _) ?_
  refine h.bind (h.writeHeap _ _) fun _ ↦ h.bind ?_ fun _ ↦ h.reads (fun _ _ ↦ rfl) fun σ ↦ ?_
  · exact h.assign (fun _ _ ↦ rfl) (fun _ ↦ rfl) (fun _ ↦ rfl) (fun _ ↦ rfl) fun _ ↦ rfl
  · refine h.bind (h.updateTcb _ _) fun _ ↦ h.bind ?_ fun _ ↦ h.pure _
    exact h.assign (fun _ _ ↦ rfl) (fun _ ↦ rfl) (fun _ ↦ rfl) (fun _ ↦ rfl) fun _ ↦ rfl

theorem removeLoop (tcb fuel prev cur : Nat) : P (removeLoop tcb fuel prev cur) := by
  induction fuel generalizing prev cur with
  | zero => exact h.fault
  | succ fuel ih =>
      refine ite (h.pure _) (h.bind (h.readTcb _) fun t ↦ ite ?_ (ih _ _))
      have hrest : P (do
          Ethernet.callKfree cur
          modify fun σ ↦ { σ with liveTcbs := σ.liveTcbs.erase cur }
          Ethernet.note (.removed cur)) := by
        refine h.bind (h.callKfree _) fun _ ↦ h.bind ?_ fun _ ↦ h.note _
        exact h.assign (fun _ _ ↦ rfl) (fun _ ↦ rfl) (fun _ ↦ rfl) (fun _ ↦ rfl) fun _ ↦ rfl
      refine ite (h.bind (h.updateTcb _ _) fun _ ↦ hrest) (h.bind ?_ fun _ ↦ hrest)
      exact h.assign (fun _ _ ↦ rfl) (fun _ ↦ rfl) (fun _ ↦ rfl) (fun _ ↦ rfl) fun _ ↦ rfl

theorem tcpRemoveTcb (tcb : Nat) : P (tcpRemoveTcb tcb) :=
  ite (h.pure _) (h.reads (fun _ _ ↦ rfl) fun _ ↦ h.removeLoop _ _ _ _)

theorem findLoop (srcIp : UInt32) (srcPort : UInt16) (dstIp : UInt32) (dstPort : UInt16)
    (fuel cur : Nat) : P (findLoop srcIp srcPort dstIp dstPort fuel cur) := by
  induction fuel generalizing cur with
  | zero => exact h.fault
  | succ fuel ih =>
      exact ite (h.pure _) (h.bind (h.readTcb _) fun t ↦ ite (h.pure _) (ih _))

theorem passiveOpen (seg : Segment) (srcIp dstIp : UInt32) : P (passiveOpen seg srcIp dstIp) := by
  refine h.bind h.tcpAllocateTcb fun tcb ↦ ite (h.pure _) (h.reads (fun _ _ ↦ rfl) fun σ ↦ ?_)
  refine h.bind (h.updateTcb _ _) fun _ ↦ h.bind ?_ fun _ ↦ ?_
  · exact h.assign (fun _ _ ↦ rfl) (fun _ ↦ rfl) (fun _ ↦ rfl) (fun _ ↦ rfl) fun _ ↦ rfl
  · refine h.bind (h.updateTcb _ _) fun _ ↦ h.bind (h.note _) fun _ ↦ ?_
    exact h.tcpSendSegment _ _ _

theorem establishedInput (tcb : Nat) (seg : Segment) : P (establishedInput tcb seg) := by
  have hfin : P (do
      if seg.flags &&& tcpFlagFin ≠ 0 then
        Ethernet.updateTcb tcb fun t ↦ { t with rcvNxt := seg.seq + 1 }
        tcpSendAck tcb
        Ethernet.updateTcb tcb fun t ↦ { t with state := .closeWait }
        Ethernet.tcpClose tcb) := by
    refine ite (h.bind (h.updateTcb _ _) fun _ ↦ ?_) (h.pure _)
    refine h.bind (h.tcpSendSegment _ _ _) fun _ ↦ ?_
    exact h.bind (h.updateTcb _ _) fun _ ↦ h.tcpClose tcb
  refine h.bind (h.readTcb _) fun t ↦ ite (h.bind (h.updateTcb _ _) fun _ ↦ ?_) hfin
  refine h.bind (h.socketDispatch _ _) fun _ ↦ ?_
  exact h.bind (h.tcpSendSegment _ _ _) fun _ ↦ hfin

theorem stateMachine (tcb : Nat) (seg : Segment) : P (stateMachine tcb seg) := by
  refine h.bind (h.readTcb _) fun t ↦ ?_
  cases t.state with
  | synReceived =>
      refine ite (h.bind (h.updateTcb _ _) fun _ ↦ ?_) (h.pure _)
      exact h.updateTcb _ _
  | established => exact h.establishedInput tcb seg
  | lastAck =>
      refine ite (h.bind (h.updateTcb _ _) fun _ ↦ ?_) (h.pure _)
      exact h.tcpRemoveTcb tcb
  | closed | listen | closeWait | timeWait => exact ite (h.tcpRemoveTcb tcb) (h.pure _)

theorem segmentArrives (seg : Segment) (srcIp dstIp : UInt32) :
    P (segmentArrives seg srcIp dstIp) := by
  refine h.bind (h.reads (fun _ _ ↦ rfl) fun _ ↦ h.findLoop _ _ _ _ _ _) fun tcb ↦ ite ?_ ?_
  · refine h.bind (h.note _) fun _ ↦ ite (h.passiveOpen _ _ _) ?_
    exact h.tcpSendRst _ _ _ _ _ _
  · refine h.bind (h.readTcb _) fun t ↦ h.bind (h.note _) fun _ ↦ ?_
    exact h.stateMachine tcb seg

end Closed

/-! ## Received bytes -/

/-- Looking at received bytes, writing to them and counting a bad checksum have the property too. -/
structure ClosedOnFrames (P : ∀ {α : Type}, Action α → Prop) : Prop extends Closed @P where
  readRx : ∀ a n, P (readRx a n)
  writeRx : ∀ a bs, P (writeRx a bs)
  reportChecksumError : P (modify fun σ : Node ↦
    { σ with netStats := healthReportChecksumError σ.netStats } : Action Unit)

namespace ClosedOnFrames

variable {P : ∀ {α : Type}, Action α → Prop} (h : ClosedOnFrames @P)

include h

theorem tcpInputProcess (segment : Nat) (len : UInt16) (srcIp dstIp : UInt32) :
    P (tcpInputProcess segment len srcIp dstIp) := by
  refine h.bind (h.readRx _ _) fun bytes ↦ ?_
  cases Segment.parse bytes with
  | none => exact h.pure _
  | some seg => exact Closed.ite (h.segmentArrives seg srcIp dstIp) (h.pure _)

theorem arpHandle (data : Nat) (len : UInt32) : P (arpHandle data len) := by
  refine Closed.ite (h.pure _) (h.bind (h.readRx _ _) fun bytes ↦ Closed.ite (h.pure _) ?_)
  refine Closed.ite (h.pure _) (h.bind ?_ fun _ ↦ Closed.ite (h.pure _) ?_)
  · exact h.assign (fun _ _ ↦ rfl) (fun _ ↦ rfl) (fun _ ↦ rfl) (fun _ ↦ rfl) fun _ ↦ rfl
  · refine h.reads (fun _ _ ↦ rfl) fun σ ↦ Closed.ite (h.pure _) ?_
    exact h.ethernetSend _ _ _ _

theorem ipv4Decode (data : Nat) (len : UInt32) : P (ipv4Decode data len) := by
  refine Closed.ite (h.pure _) (h.bind (h.readRx _ _) fun header ↦ Closed.ite (h.pure _) ?_)
  refine Closed.ite (h.pure _) (h.bind (h.writeRx _ _) fun _ ↦ ?_)
  refine h.bind (h.readRx _ _) fun bytes ↦ h.bind (h.writeRx _ _) fun _ ↦ ?_
  refine Closed.ite (h.pure _) (Closed.ite (h.pure _) (h.reads (fun _ _ ↦ rfl) fun σ ↦ ?_))
  exact Closed.ite (h.pure _) (h.pure _)

theorem ipv4Handle (data : Nat) (len : UInt32) : P (ipv4Handle data len) := by
  refine h.bind (h.ipv4Decode _ _) fun verdict ↦ ?_
  cases verdict with
  | error drop =>
      cases drop with
      | badChecksum => exact h.reportChecksumError
      | tooShort | badVersion | truncatedHeader | badLength | notForUs => exact h.pure _
  | ok packet => exact Closed.ite (h.tcpInputProcess _ _ _ _) (h.pure _)

theorem ethernetHandlePacket (data : Nat) (len : UInt32) : P (ethernetHandlePacket data len) := by
  refine Closed.ite (h.pure _) (h.bind (h.readRx _ _) fun header ↦ ?_)
  exact Closed.ite (h.arpHandle _ _) (Closed.ite (h.ipv4Handle _ _) (h.pure _))

end ClosedOnFrames

end Aether.Ethernet
