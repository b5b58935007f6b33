import Aether.Drivers.VirtioRing
import Aether.Ethernet.Wire
import Aether.Kernel.Memory

/-!
# The state of a node

The globals of the network stack, over the kernel heap and the receive buffers, and the actions
that the stack's functions are made of. An action fails (`none`) where the code has no defined
behaviour: a walk over a cyclic list, or an access to a TCB whose block has been released.

`liveTcbs` and `log` are bookkeeping of the model. They record which blocks hold TCBs and what the
functions did, most recent first, and nothing in the stack reads them except to tell whether an
access to a TCB is still allowed.
-/

namespace Aether.Ethernet

open ByteMemory Kernel Drivers

/-! ## Connections -/

/-- `tcp_state_t`. -/
inductive TcpState where
  | closed
  | listen
  | synReceived
  | established
  | closeWait
  | lastAck
  | timeWait
  deriving DecidableEq

/-- The enumerator's value. -/
def TcpState.toWord : TcpState → UInt32
  | closed => 0
  | listen => 1
  | synReceived => 2
  | established => 3
  | closeWait => 4
  | lastAck => 5
  | timeWait => 6

/-- The enumerator with the given value. -/
def TcpState.ofWord (w : UInt32) : Option TcpState :=
  if w = 0 then some closed
  else if w = 1 then some listen
  else if w = 2 then some synReceived
  else if w = 3 then some established
  else if w = 4 then some closeWait
  else if w = 5 then some lastAck
  else if w = 6 then some timeWait
  else none

@[simp] theorem TcpState.ofWord_toWord (state : TcpState) : ofWord state.toWord = some state := by
  cases state <;> rfl

/-- The fields of `tcp_tcb_t` that describe the connection. -/
structure Conn where
  localIp : UInt32
  remoteIp : UInt32
  localPort : UInt16
  remotePort : UInt16
  state : TcpState
  sndUna : UInt32
  sndNxt : UInt32
  rcvNxt : UInt32
  rcvWnd : UInt16
  sndWnd : UInt16
  deriving DecidableEq

/-- `tcp_tcb_t`: a connection and the link to the next TCB. -/
structure Tcb extends Conn where
  next : Nat
  deriving DecidableEq

/-- `sizeof(tcp_tcb_t)`. -/
def sizeofTcb : Nat := 40

/-- The structure in memory. -/
def Tcb.bytes (t : Tcb) : List UInt8 :=
  leBytes 4 t.localIp.toNat ++ (leBytes 4 t.remoteIp.toNat ++ (leBytes 2 t.localPort.toNat ++
    (leBytes 2 t.remotePort.toNat ++ (leBytes 4 t.state.toWord.toNat ++
      (leBytes 4 t.sndUna.toNat ++ (leBytes 4 t.sndNxt.toNat ++ (leBytes 4 t.rcvNxt.toNat ++
        (leBytes 2 t.rcvWnd.toNat ++ (leBytes 2 t.sndWnd.toNat ++ leBytes 8 t.next)))))))))

/-- The structure at the start of a byte string, `none` when its state is no enumerator. -/
def Tcb.ofBytes (bs : List UInt8) : Option Tcb :=
  (TcpState.ofWord (u32 bs 12)).map fun state ↦ {
    localIp := u32 bs 0
    remoteIp := u32 bs 4
    localPort := u16 bs 8
    remotePort := u16 bs 10
    state := state
    sndUna := u32 bs 16
    sndNxt := u32 bs 20
    rcvNxt := u32 bs 24
    rcvWnd := u16 bs 28
    sndWnd := u16 bs 30
    next := word bs 32 8 }

@[simp] theorem Tcb.length_bytes (t : Tcb) : t.bytes.length = 40 := by
  simp [Tcb.bytes]

theorem Tcb.ofBytes_bytes (t : Tcb) (h : t.next < 2 ^ 64) : Tcb.ofBytes t.bytes = some t := by
  have hnext : word (leBytes 8 t.next) 0 8 = t.next := by
    have := word_leBytes_append 8 t.next []
    rwa [List.append_nil, Nat.mod_eq_of_lt (by exact h)] at this
  simp [Tcb.ofBytes, Tcb.bytes, word_append, hnext]

/-- A TCB's bytes determine its link. -/
theorem Tcb.next_inj {c : Conn} {next next' : Nat} (h : next < 2 ^ 64) (h' : next' < 2 ^ 64)
    (heq : (Tcb.mk c next).bytes = (Tcb.mk c next').bytes) : next = next' := by
  have := congrArg Tcb.ofBytes heq
  rw [ofBytes_bytes _ h, ofBytes_bytes _ h'] at this
  simpa using this

/-! ## Events -/

/-- What the functions of the stack record. -/
inductive Event where
  /-- `virtio_net_poll` called `ethernet_handle_packet` with this frame. -/
  | received (frame : List UInt8)
  /-- `tcp_input_process` looked up this valid segment and found this TCB. -/
  | lookup (srcIp dstIp : UInt32) (seg : Segment) (found : Option (Nat × Conn))
  /-- A TCB was set up for a connection whose peer started at `irs`. -/
  | passiveOpen (tcb : Nat) (isn irs : UInt32)
  /-- `tcp_remove_tcb` released a TCB. -/
  | removed (tcb : Nat)
  /-- `tcp_send_segment` called `ipv4_send` with this segment, the TCB being as given. -/
  | handed (tcb : Nat) (conn : Conn) (segment : List UInt8)
  /-- `tcp_send_rst` called `ipv4_send` with this segment. -/
  | reset (srcIp dstIp : UInt32) (segment : List UInt8)
  /-- `socket_dispatch` was called with this payload. -/
  | dispatched (tcb : Nat) (payload : List UInt8)
  /-- `ethernet_send` published a buffer with these bytes. -/
  | transmitted (frame : List UInt8)
  /-- `ethernet_send` found no free descriptor. -/
  | ringFull
  /-- `kmalloc` returned `NULL`. -/
  | noMemory
  deriving DecidableEq

/-! ## The node -/

/-- `struct arp_entry`. -/
structure ArpEntry where
  ip : UInt32
  mac : Mac
  deriving DecidableEq

/-- `struct virtio_pci_device`: the address of its heap block and whether its queue pointers are
set. -/
structure VirtioPciDevice where
  ptr : Nat
  rxVq : Bool
  txVq : Bool
  deriving DecidableEq

/-- The globals of the stack. Received data lies in `rxBuffers`, addressed from the start of
`rx_buffers`. -/
structure Node where
  heap : Heap
  netStats : NetStats
  globalVnetDev : Option VirtioPciDevice
  rxQueue : Virtqueue
  txQueue : Virtqueue
  rxBuffers : Memory
  aetherMac : Mac
  aetherIp : UInt32
  arpCache : List ArpEntry
  tcpTcbList : Nat
  tcpGlobalIsn : UInt32
  liveTcbs : List Nat
  log : List Event

/-- A function of the stack. -/
abbrev Action := StateT Node Option

/-! ## Elementary actions -/

/-- Undefined behaviour. -/
def fault {α : Type} : Action α := fun _ ↦ none

/-- Record an event. -/
def note (e : Event) : Action Unit := modify fun σ ↦ { σ with log := e :: σ.log }

/-- A call of `kmalloc`. -/
def callKmalloc (size : Nat) : Action Nat := do
  let σ ← get
  match kmalloc σ.heap size with
  | none => fault
  | some (p, heap) =>
      set { σ with heap := heap, log := if p = 0 then .noMemory :: σ.log else σ.log }
      pure p

/-- A call of `kfree`. -/
def callKfree (p : Nat) : Action Unit := modify fun σ ↦ { σ with heap := kfree σ.heap p }

/-- Read `n` heap bytes. -/
def readHeap (a n : Nat) : Action (List UInt8) := do
  pure (readBytes (← get).heap.mem a n)

/-- Write bytes into the heap. -/
def writeHeap (a : Nat) (bs : List UInt8) : Action Unit :=
  modify fun σ ↦ { σ with heap := { σ.heap with mem := writeBytes σ.heap.mem a bs } }

/-- Read `n` bytes of received data. -/
def readRx (a n : Nat) : Action (List UInt8) := do
  pure (readBytes (← get).rxBuffers a n)

/-- Write into received data. -/
def writeRx (a : Nat) (bs : List UInt8) : Action Unit :=
  modify fun σ ↦ { σ with rxBuffers := writeBytes σ.rxBuffers a bs }

/-- Read the TCB at `p`, which must not have been released. -/
def readTcb (p : Nat) : Action Tcb := do
  let σ ← get
  if p ∈ σ.liveTcbs then
    match Tcb.ofBytes (readBytes σ.heap.mem p sizeofTcb) with
    | some t => pure t
    | none => fault
  else fault

/-- Assign to fields of the TCB at `p`. The other fields keep the bytes they have. -/
def updateTcb (p : Nat) (f : Tcb → Tcb) : Action Unit := do
  let t ← readTcb p
  writeHeap p (f t).bytes

end Aether.Ethernet
