import Aether.Ethernet.Send

/-!
# TCP

`tcp.c`, `tcp_output.c`, `tcp_input.c` and `socket.c`: the TCB list, the segment builder, the HTTP
response and the state machine. A TCB is named by the address of its heap block; `0` is `NULL`.
-/

namespace Aether.Ethernet

open ByteMemory Kernel Common

/-- `TCP_DEFAULT_WINDOW`. -/
def tcpDefaultWindow : UInt16 := 8192

/-- `TCP_FLAG_FIN`. -/
def tcpFlagFin : UInt8 := 0x01

/-- `TCP_FLAG_SYN`. -/
def tcpFlagSyn : UInt8 := 0x02

/-- `TCP_FLAG_RST`. -/
def tcpFlagRst : UInt8 := 0x04

/-- `TCP_FLAG_PSH`. -/
def tcpFlagPsh : UInt8 := 0x08

/-- `TCP_FLAG_ACK`. -/
def tcpFlagAck : UInt8 := 0x10

/-! ## The TCB list -/

/-- `tcp_allocate_tcb`. -/
def tcpAllocateTcb : Action Nat := do
  let tcb ← callKmalloc sizeofTcb
  if tcb = 0 then pure 0
  else
    writeHeap tcb (List.replicate sizeofTcb 0)
    modify fun σ ↦ { σ with liveTcbs := tcb :: σ.liveTcbs }
    -- the new TCB goes to the front of the list
    let σ ← get
    updateTcb tcb fun t ↦ { t with
      state := .closed
      rcvWnd := tcpDefaultWindow
      sndWnd := tcpDefaultWindow
      localIp := σ.aetherIp
      next := σ.tcpTcbList }
    modify fun σ ↦ { σ with tcpTcbList := tcb }
    pure tcb

/-- The loop of `tcp_remove_tcb`. -/
def removeLoop (tcb : Nat) : Nat → Nat → Nat → Action Unit
  | 0, _, _ => fault
  | fuel + 1, prev, cur => do
      if cur = 0 then pure ()
      else
        let t ← readTcb cur
        if cur = tcb then
          -- the list is closed behind the TCB before its block is released
          if prev ≠ 0 then updateTcb prev fun t' ↦ { t' with next := t.next }
          else modify fun σ ↦ { σ with tcpTcbList := t.next }
          callKfree cur
          modify fun σ ↦ { σ with liveTcbs := σ.liveTcbs.erase cur }
          note (.removed cur)
        else removeLoop tcb fuel cur t.next

/-- `tcp_remove_tcb`. -/
def tcpRemoveTcb (tcb : Nat) : Action Unit := do
  if tcb = 0 then pure ()
  else removeLoop tcb (maxBlocks + 1) 0 (← get).tcpTcbList

/-- The TCB is the one of the given 4-tuple. -/
def Conn.Matches (srcIp : UInt32) (srcPort : UInt16) (dstIp : UInt32) (dstPort : UInt16)
    (c : Conn) : Prop :=
  c.remoteIp = srcIp ∧ c.remotePort = srcPort ∧ c.localIp = dstIp ∧ c.localPort = dstPort

instance (srcIp : UInt32) (srcPort : UInt16) (dstIp : UInt32) (dstPort : UInt16) (c : Conn) :
    Decidable (c.Matches srcIp srcPort dstIp dstPort) :=
  inferInstanceAs (Decidable (_ ∧ _))

/-- The loop of `tcp_find_tcb`. -/
def findLoop (srcIp : UInt32) (srcPort : UInt16) (dstIp : UInt32) (dstPort : UInt16) :
    Nat → Nat → Action Nat
  | 0, _ => fault
  | fuel + 1, cur => do
      if cur = 0 then pure 0
      else
        let t ← readTcb cur
        if t.Matches srcIp srcPort dstIp dstPort then pure cur
        else findLoop srcIp srcPort dstIp dstPort fuel t.next

/-- `tcp_find_tcb`. -/
def tcpFindTcb (srcIp : UInt32) (srcPort : UInt16) (dstIp : UInt32) (dstPort : UInt16) :
    Action Nat := do
  findLoop srcIp srcPort dstIp dstPort (maxBlocks + 1) (← get).tcpTcbList

/-! ## Output -/

/-- The header that `tcp_send_segment` builds, before its checksum is known. -/
def Conn.header (c : Conn) (flags : UInt8) : TcpHdr where
  srcPort := htons c.localPort
  dstPort := htons c.remotePort
  seq := htonl c.sndNxt
  ack := htonl c.rcvNxt
  offsetReserved := (5 : UInt8) <<< 4
  flags := flags
  window := htons c.rcvWnd
  checksum := 0
  urgentPtr := 0

/-- `tcp_send_segment`. `payload_len` is the length of `payload`, which callers keep below
`2 ^ 16`. -/
def tcpSendSegment (tcb : Nat) (flags : UInt8) (payload : List UInt8) : Action Unit := do
  if tcb = 0 then pure ()
  else
    let payloadLen := UInt16.ofNat payload.length
    let totalLen : UInt16 := 20 + payloadLen
    let buffer ← callKmalloc totalLen.toNat
    if buffer = 0 then pure ()
    else
      let t ← readTcb tcb
      writeHeap buffer (t.header flags).bytes
      writeHeap (buffer + 20) payload
      let segment ← readHeap buffer totalLen.toNat
      let checksum := tcpComputeChecksum t.localIp t.remoteIp segment
      writeHeap (buffer + 16) (leBytes 2 checksum.toNat)
      let segment ← readHeap buffer totalLen.toNat
      note (.handed tcb t.toConn segment)
      ipv4Send t.remoteIp ipProtoTcp (.heap buffer) totalLen.toUInt32
      -- the numbers are counted on, whatever became of the packet
      if flags &&& (tcpFlagSyn ||| tcpFlagFin) ≠ 0 then
        updateTcb tcb fun t ↦ { t with sndNxt := t.sndNxt + 1 }
      updateTcb tcb fun t ↦ { t with sndNxt := t.sndNxt + payloadLen.toUInt32 }

/-- `tcp_send_ack`. -/
def tcpSendAck (tcb : Nat) : Action Unit := tcpSendSegment tcb tcpFlagAck []

/-- `tcp_send_synack`. -/
def tcpSendSynack (tcb : Nat) : Action Unit := tcpSendSegment tcb (tcpFlagSyn ||| tcpFlagAck) []

/-- `tcp_send_fin`. -/
def tcpSendFin (tcb : Nat) : Action Unit := tcpSendSegment tcb (tcpFlagFin ||| tcpFlagAck) []

/-- The header that `tcp_send_rst` builds, before its checksum is known. -/
def rstHeader (srcPort dstPort : UInt16) (seq ack : UInt32) : TcpHdr where
  srcPort := htons srcPort
  dstPort := htons dstPort
  seq := htonl seq
  ack := htonl ack
  offsetReserved := (5 : UInt8) <<< 4
  flags := tcpFlagRst ||| tcpFlagAck
  window := 0
  checksum := 0
  urgentPtr := 0

/-- `tcp_send_rst`. -/
def tcpSendRst (srcIp dstIp : UInt32) (srcPort dstPort : UInt16) (seq ack : UInt32) :
    Action Unit := do
  let hdr := rstHeader srcPort dstPort seq ack
  let hdr := { hdr with checksum := tcpComputeChecksum srcIp dstIp hdr.bytes }
  note (.reset srcIp dstIp hdr.bytes)
  ipv4Send dstIp ipProtoTcp (.stack hdr.bytes) 20

/-! ## Connection control -/

/-- `tcp_send_data`. -/
def tcpSendData (tcb : Nat) (data : List UInt8) : Action Unit := do
  if tcb = 0 then pure ()
  else
    let t ← readTcb tcb
    if t.state = .established then tcpSendSegment tcb (tcpFlagPsh ||| tcpFlagAck) data
    else pure ()

/-- `tcp_close`. -/
def tcpClose (tcb : Nat) : Action Unit := do
  if tcb = 0 then pure ()
  else
    let t ← readTcb tcb
    if t.state = .established ∨ t.state = .closeWait then
      updateTcb tcb fun t ↦ { t with state := .lastAck }
      tcpSendFin tcb
    else pure ()

/-! ## The HTTP response -/

/-- The characters of a C string literal. -/
def cString (s : String) : List UInt8 := s.toList.map fun c ↦ UInt8.ofNat c.toNat

/-- `html_body`. -/
def htmlBody : List UInt8 := cString <|
  "<html>\r\n" ++
  "<head><title>Aether WebOS</title></head>\r\n" ++
  "<body>\r\n" ++
  "<h1>Welcome to Aether WebOS</h1>\r\n" ++
  "<p>Custom TCP Stack Running Bare Metal AArch64</p>\r\n" ++
  "</body>\r\n" ++
  "</html>\r\n"

/-- `http_header_prefix`. -/
def httpHeaderPrefix : List UInt8 := cString <|
  "HTTP/1.0 200 OK\r\n" ++
  "Content-Type: text/html\r\n" ++
  "Content-Length: "

/-- The digits that the `do`-`while` loop of `socket_dispatch` stores, least significant first.
The array has room for ten. -/
def contentDigits : Nat → Nat → List UInt8
  | 0, _ => []
  | room + 1, temp =>
      UInt8.ofNat (48 + temp % 10) :: if temp / 10 > 0 then contentDigits room (temp / 10) else []

/-- The response that `socket_dispatch` builds. -/
def httpResponse : List UInt8 :=
  httpHeaderPrefix ++ (contentDigits 10 htmlBody.length).reverse ++ cString "\r\n\r\n" ++ htmlBody

/-- The response with its FINs takes up fewer sequence numbers than a connection may use. -/
theorem length_httpResponse_le : httpResponse.length ≤ 996 := by decide +kernel

/-- The response fits a segment. -/
theorem length_httpResponse : httpResponse.length ≤ 65515 :=
  length_httpResponse_le.trans (by decide)

/-- `socket_dispatch`, which answers every payload alike. -/
def socketDispatch (tcb : Nat) (payload : List UInt8) : Action Unit := do
  note (.dispatched tcb payload)
  tcpSendData tcb httpResponse
  tcpClose tcb

/-! ## Input -/

/-- The passive open of `tcp_input_process`. -/
def passiveOpen (seg : Segment) (srcIp dstIp : UInt32) : Action Unit := do
  let tcb ← tcpAllocateTcb
  if tcb = 0 then pure ()
  else
    let σ ← get
    updateTcb tcb fun t ↦ { t with
      remoteIp := srcIp
      remotePort := seg.srcPort
      localPort := seg.dstPort
      localIp := dstIp
      rcvNxt := seg.seq + 1
      sndUna := σ.tcpGlobalIsn
      sndNxt := σ.tcpGlobalIsn }
    modify fun σ ↦ { σ with tcpGlobalIsn := σ.tcpGlobalIsn + 1000 }
    updateTcb tcb fun t ↦ { t with state := .synReceived }
    note (.passiveOpen tcb σ.tcpGlobalIsn seg.seq)
    tcpSendSynack tcb

/-- The case `TCP_STATE_ESTABLISHED` of `tcp_input_process`. -/
def establishedInput (tcb : Nat) (seg : Segment) : Action Unit := do
  let payloadLen := UInt16.ofNat seg.payload.length
  if payloadLen > 0 ∧ seg.seq = (← readTcb tcb).rcvNxt then
    updateTcb tcb fun t ↦ { t with rcvNxt := t.rcvNxt + payloadLen.toUInt32 }
    socketDispatch tcb seg.payload
    tcpSendAck tcb
  if seg.flags &&& tcpFlagFin ≠ 0 then
    updateTcb tcb fun t ↦ { t with rcvNxt := seg.seq + 1 }
    tcpSendAck tcb
    updateTcb tcb fun t ↦ { t with state := .closeWait }
    tcpClose tcb

/-- The `switch` of `tcp_input_process`. -/
def stateMachine (tcb : Nat) (seg : Segment) : Action Unit := do
  match (← readTcb tcb).state with
  | .synReceived =>
      if seg.flags &&& tcpFlagAck ≠ 0 then
        updateTcb tcb fun t ↦ { t with sndUna := seg.ack }
        updateTcb tcb fun t ↦ { t with state := .established }
  | .established => establishedInput tcb seg
  | .lastAck =>
      if seg.flags &&& tcpFlagAck ≠ 0 then
        updateTcb tcb fun t ↦ { t with state := .closed }
        tcpRemoveTcb tcb
  -- a reset means something only here
  | _ =>
      if seg.flags &&& tcpFlagRst ≠ 0 then tcpRemoveTcb tcb

/-- What `tcp_input_process` does with a segment whose header and checksum are in order. -/
def segmentArrives (seg : Segment) (srcIp dstIp : UInt32) : Action Unit := do
  let tcb ← tcpFindTcb srcIp seg.srcPort dstIp seg.dstPort
  if tcb = 0 then
    note (.lookup srcIp dstIp seg none)
    if seg.flags &&& tcpFlagSyn ≠ 0 ∧ seg.dstPort = 80 then passiveOpen seg srcIp dstIp
    else tcpSendRst dstIp srcIp seg.dstPort seg.srcPort seg.ack 0
  else
    note (.lookup srcIp dstIp seg (some (tcb, (← readTcb tcb).toConn)))
    stateMachine tcb seg

/-- `tcp_input_process`, on the segment of `len` bytes at `segment` in the receive buffers. -/
def tcpInputProcess (segment : Nat) (len : UInt16) (srcIp dstIp : UInt32) : Action Unit := do
  let bytes ← readRx segment len.toNat
  match Segment.parse bytes with
  | none => pure ()
  | some seg =>
      if tcpValidateChecksum srcIp dstIp bytes then segmentArrives seg srcIp dstIp
      else pure ()

end Aether.Ethernet
