import Aether.Ethernet.Roundtrip

/-!
# The stack's checksums and the Internet's

The checksum of the Internet protocols is the one's complement sum of big-endian words. The IPv4
layer computes it so, but stores and compares the result as a little-endian number. The TCP layer
adds little-endian words throughout, which is as good, but takes the halves of the addresses as
they are.
-/

namespace Aether.Ethernet

open ByteMemory Kernel Drivers Common Program OnesComplement

/-! ## The IPv4 header -/

/-- The checksum field of a header, in network order. -/
def checksumField (header : List UInt8) : Nat := beNat ((header.drop 10).take 2)

/-- The complement of the one's complement sum of a header without its checksum, which is the
checksum that a sender has to store. -/
def headerComplement (header : List UInt8) : Nat :=
  65535 - onesSum (beWords (zeroChecksum header))

/-- The header has the checks before the checksum behind it. -/
def Ipv4Header.Framed (ip : Ipv4Header) (len : UInt32) : Prop :=
  20 ≤ len ∧ ip.versionIhl >>> 4 = 4 ∧ 5 ≤ ip.versionIhl &&& 0x0F ∧ ip.headerLen ≤ len

/-- The header of a received packet, as long as it announces. -/
def receivedHeader (rx : Memory) (data : Nat) : List UInt8 :=
  readBytes rx data (Ipv4Header.ofBytes (readBytes rx data 20)).headerLen.toNat

/-- A header around its checksum field. -/
theorem header_split {header : List UInt8} (h : 12 ≤ header.length) :
    ∃ a b, (header.drop 10).take 2 = [a, b] ∧
      header = header.take 10 ++ ([a, b] ++ header.drop 12) := by
  obtain ⟨a, b, hab⟩ := List.length_eq_two.mp
    (show ((header.drop 10).take 2).length = 2 by rw [List.length_take, List.length_drop]; omega)
  refine ⟨a, b, hab, ?_⟩
  rw [← hab]
  conv_lhs => rw [← List.take_append_drop 10 header, ← List.take_append_drop 2 (header.drop 10)]
  rw [List.drop_drop]

/-- The checksum field adds its value to the sum of the other words. -/
theorem sum_beWords_header {header : List UInt8} (h : 12 ≤ header.length) :
    (beWords header).sum = (beWords (zeroChecksum header)).sum + checksumField header := by
  obtain ⟨a, b, hab, hsplit⟩ := header_split h
  have htake : 2 ∣ (header.take 10).length := by rw [List.length_take]; omega
  have hfield : checksumField header = 256 * a.toNat + b.toNat := by
    rw [checksumField, hab]
    simp only [beNat, List.reverse_cons, List.reverse_nil, List.nil_append, List.cons_append, leNat]
    omega
  have hzero : zeroChecksum header = header.take 10 ++ ([0, 0] ++ header.drop 12) := rfl
  rw [hzero, hfield]
  conv_lhs => rw [hsplit]
  rw [beWords_append htake, beWords_append htake, beWords_append (by simp),
    beWords_append (by simp)]
  simp only [beWords, List.sum_append, List.sum_cons, List.sum_nil, UInt8.toNat_zero]
  omega

/-- The checksum field loaded natively. -/
theorem swapBytes_checksumField {header : List UInt8} (h : 12 ≤ header.length) :
    swapBytes (u16 header 10).toNat = checksumField header := by
  have hlen : ((header.drop 10).take 2).length = 2 := by
    rw [List.length_take, List.length_drop]
    omega
  rw [swapBytes, checksumField, ← toNat_htons, u16, word, toNat_htons_leNat hlen]

/-- The header checksum test of the code, in terms of the field's network order. -/
theorem ipv4Checksum_eq_iff {header : List UInt8} (hlow : 12 ≤ header.length)
    (hhigh : header.length ≤ 65535) :
    ipv4Checksum (zeroChecksum header) = u16 header 10 ↔
      checksumField header = swapBytes (headerComplement header) := by
  have hlen : (zeroChecksum header).length = header.length := by
    simp only [zeroChecksum, List.length_append, List.length_take, length_leBytes,
      List.length_drop]
    omega
  have hle : onesSum (beWords (zeroChecksum header)) ≤ 65535 := by
    rw [onesSum_eq beWords_le]
    exact norm_le _
  have hword := (u16 header 10).toNat_lt
  rw [← UInt16.toNat_inj, toNat_ipv4Checksum (hlen.trans_le hhigh),
    ← swapBytes_checksumField hlow, headerComplement]
  simp only [swapBytes]
  omega

/-- The header is valid exactly when its field is the complement of the rest, of which zero has
two representations. -/
theorem onesSum_header_iff {header : List UInt8} (h : 12 ≤ header.length) :
    onesSum (beWords header) = 65535 ↔ checksumField header = headerComplement header ∨
      headerComplement header = 0 ∧ checksumField header = 65535 := by
  have hfield : checksumField header < 65536 := by
    rw [← swapBytes_checksumField h, swapBytes]
    have := (u16 header 10).toNat_lt
    omega
  rw [onesSum_eq beWords_le, norm_eq_max, sum_beWords_header h, headerComplement,
    onesSum_eq beWords_le, OnesComplement.norm]
  split <;> omega

/-- The condition under which the code's test of a received header is the Internet's. -/
def ReceivedAlike (header : List UInt8) : Prop :=
  let c := headerComplement header
  let f := checksumField header
  ¬ (c = 0 ∧ f = 0xFFFF) ∧ (swapBytes c = c ∨ (f ≠ c ∧ f ≠ swapBytes c))

/-- A received header that passes the checks before its checksum passes the checksum test exactly
if its field is the complement of the rest with the bytes exchanged. -/
theorem ipv4Verdict_checksum {aetherIp : UInt32} {rx : Memory} {data : Nat} {len : UInt32}
    (h : (Ipv4Header.ofBytes (readBytes rx data 20)).Framed len) :
    ipv4Verdict aetherIp rx data len ≠ .error .badChecksum ↔
      checksumField (receivedHeader rx data) =
        swapBytes (headerComplement (receivedHeader rx data)) := by
  obtain ⟨hlong, hversion, hwords, hfits⟩ := h
  have hge := Ipv4Header.headerLen_ge (UInt8.not_lt.mpr hwords)
  have hle := Ipv4Header.headerLen_le (Ipv4Header.ofBytes (readBytes rx data 20))
  have hlen : (receivedHeader rx data).length =
      (Ipv4Header.ofBytes (readBytes rx data 20)).headerLen.toNat := length_readBytes ..
  have hfield : (Ipv4Header.ofBytes (readBytes rx data 20)).checksum =
      u16 (receivedHeader rx data) 10 := by
    rw [u16, receivedHeader, ← load_eq_word rx data (by omega),
      load_eq_word rx data (k := 20) (by omega)]
    rfl
  rw [← ipv4Checksum_eq_iff (by rw [hlen]; omega) (by rw [hlen]; omega),
    ← hfield]
  simp only [ipv4Verdict, if_neg (UInt32.not_lt.mpr hlong), hversion, UInt8.not_lt.mpr hwords,
    if_neg (UInt32.not_lt.mpr hfits), ne_eq, not_true_eq_false, or_self, ↓reduceIte]
  split
  · rename_i hne
    exact iff_of_false (fun h ↦ h rfl) hne
  · rename_i heq
    refine iff_of_true ?_ (not_not.mp heq)
    split
    · simp
    · split <;> simp

/-- A header that stores its checksum natively is valid exactly if the two bytes of the checksum
are equal. -/
theorem onesSum_sent_iff {ip : Ipv4Header} (hip : ip.checksum = 0) :
    onesSum (beWords { ip with checksum := ipv4Checksum ip.bytes }.bytes) = 65535 ↔
      swapBytes (headerComplement ip.bytes) = headerComplement ip.bytes := by
  have hself : zeroChecksum ip.bytes = ip.bytes := by
    rw [zeroChecksum_bytes, ← hip]
  generalize hsent : { ip with checksum := ipv4Checksum ip.bytes } = sent
  have hlen : sent.bytes.length = 20 := sent.length_bytes
  have hzero : zeroChecksum sent.bytes = ip.bytes := by
    rw [zeroChecksum_bytes, ← hsent]
    exact congrArg Ipv4Header.bytes (by rw [← hip])
  have hcode : ipv4Checksum (zeroChecksum sent.bytes) = u16 sent.bytes 10 := by
    have hfield := congrArg Ipv4Header.checksum (sent.ofBytes_bytes [])
    rw [List.append_nil] at hfield
    rw [hzero, ← show sent.checksum = ipv4Checksum ip.bytes by rw [← hsent]]
    exact hfield.symm
  have hcomplement : headerComplement sent.bytes = headerComplement ip.bytes := by
    rw [headerComplement, headerComplement, hzero, hself]
  have hle : headerComplement ip.bytes ≤ 65535 := Nat.sub_le ..
  rw [ipv4Checksum_eq_iff (by omega) (by omega), hcomplement] at hcode
  rw [onesSum_header_iff (by omega), hcomplement, hcode]
  generalize headerComplement ip.bytes = c at *
  simp only [swapBytes]
  omega

/-- The IPv4 header in a frame. -/
theorem drop_ipv4Frame (srcMac destMac : Mac) (srcIp dstIp : UInt32) (protocol : UInt8)
    (payload : List UInt8) :
    ((ethernetFrame srcMac destMac ethTypeIpv4
      (ipv4Packet srcIp dstIp protocol payload)).drop 24).take 20 =
      (ipv4HeaderSent srcIp dstIp protocol (20 + UInt32.ofNat payload.length)).bytes := by
  rw [ethernetFrame, ← List.append_assoc, List.drop_left' (by simp), ipv4Packet,
    List.take_left' (Ipv4Header.length_bytes _)]

/-- `ipv4_handle` accepts the checksum of a received header as the Internet does exactly when
`ReceivedAlike` holds of the header, and the header that `ipv4_send` puts on the wire is valid
exactly when the two bytes of its checksum are equal. -/
theorem ipv4_checksum_agreement (σ : Node) :
    (∀ (data : Nat) (len : UInt32),
      (Ipv4Header.ofBytes (readBytes σ.rxBuffers data 20)).Framed len →
      ∃ verdict, (ipv4Decode data len).run σ = some (verdict, σ) ∧
        ((verdict ≠ .error .badChecksum ↔
            onesSum (beWords (receivedHeader σ.rxBuffers data)) = 65535) ↔
          ReceivedAlike (receivedHeader σ.rxBuffers data))) ∧
    ∀ (L : Ledger) (held : List Region), L.Holds σ held →
      ∀ (dstIp : UInt32) (protocol : UInt8) (ptr : Pointer) (payload : List UInt8),
      ptr.Denotes σ.heap.mem (held ++ L.regions) payload → payload.length ≤ 65515 →
      let c := headerComplement
        (ipv4Header σ.aetherIp dstIp protocol (20 + UInt32.ofNat payload.length)).bytes
      ∃ σ' events, (ipv4Send dstIp protocol ptr (UInt32.ofNat payload.length)).run σ =
          some ((), σ') ∧
        σ'.log = events ++ σ.log ∧
        (.noMemory ∈ events ∨ .ringFull ∈ events ∨ ∃ frame, .transmitted frame ∈ events) ∧
        ∀ frame, .transmitted frame ∈ events →
          (onesSum (beWords ((frame.drop 24).take 20)) = 65535 ↔ swapBytes c = c) := by
  constructor
  · intro data len hframed
    refine ⟨_, ipv4Decode_run σ data len, ?_⟩
    have hge := Ipv4Header.headerLen_ge (UInt8.not_lt.mpr hframed.2.2.1)
    have hlow : 12 ≤ (receivedHeader σ.rxBuffers data).length := by
      rw [receivedHeader, length_readBytes]
      omega
    rw [ipv4Verdict_checksum hframed, onesSum_header_iff hlow, ReceivedAlike]
    -- the rest is arithmetic of the two byte orders
    generalize headerComplement (receivedHeader σ.rxBuffers data) = c
    generalize checksumField (receivedHeader σ.rxBuffers data) = f
    simp only [swapBytes]
    omega
  · intro L held h dstIp protocol ptr payload hptr hlen c
    obtain ⟨_, σ', hrun, L', e, -, -, ⟨heap, stats, vq, rfl⟩, he⟩ :=
      ipv4Send_spec h dstIp protocol ptr payload hptr (by omega)
    refine ⟨_, [e], hrun, rfl, ?_, fun frame hframe ↦ ?_⟩
    · rcases he with rfl | rfl | rfl
      · exact .inl List.mem_cons_self
      · exact .inr (.inl List.mem_cons_self)
      · exact .inr (.inr ⟨_, List.mem_cons_self⟩)
    · obtain rfl := List.mem_singleton.mp hframe
      obtain rfl := Event.transmitted.inj (he.resolve_left nofun |>.resolve_left nofun)
      rw [drop_ipv4Frame, ← onesSum_sent_iff rfl]
      rfl

/-- The header of a packet of 40 bytes from 10.0.2.2 to 10.0.2.15, its checksum in network
order. -/
def Ipv4Header.samplePeer (id checksum : UInt16) : Ipv4Header :=
  { ipv4Header 0x0A000202 0x0A00020F ipProtoTcp 40 with
    id := htons id
    checksum := htons checksum }

/-- A node that is not initialised yet, with the peer's packet in its receive buffers. -/
def Node.sampleReceived (id checksum : UInt16) : Node :=
  .boot (fun _ ↦ 0) (writeBytes (fun _ ↦ 0) 0 (Ipv4Header.samplePeer id checksum).bytes) gatewayMac
    0x0A00020F 0

/-- A valid header whose checksum is 0x62BF is rejected. -/
theorem ipv4_checksum_rejects :
    (Ipv4Header.ofBytes (readBytes (Node.sampleReceived 1 0x62BF).rxBuffers 0 20)).Framed 40 ∧
    onesSum (beWords (receivedHeader (Node.sampleReceived 1 0x62BF).rxBuffers 0)) = 65535 ∧
    (ipv4Decode 0 40).run (Node.sampleReceived 1 0x62BF) =
      some (.error .badChecksum, Node.sampleReceived 1 0x62BF) := by
  refine ⟨?_, by decide +kernel, ?_⟩
  · rw [Ipv4Header.Framed]
    decide +kernel
  · rw [ipv4Decode_run]
    congr 2

/-- A valid header whose checksum is 0x6262 is accepted. -/
theorem ipv4_checksum_agreement_equal_bytes : ∃ verdict,
    (ipv4Decode 0 40).run (Node.sampleReceived 0x5E 0x6262) =
      some (verdict, Node.sampleReceived 0x5E 0x6262) ∧
    (verdict ≠ .error .badChecksum ↔
      onesSum (beWords (receivedHeader (Node.sampleReceived 0x5E 0x6262).rxBuffers 0)) =
        65535) := by
  obtain ⟨verdict, hrun, hiff⟩ := (ipv4_checksum_agreement (Node.sampleReceived 0x5E 0x6262)).1 0 40
    (by rw [Ipv4Header.Framed]; decide +kernel)
  exact ⟨verdict, hrun, hiff.mpr (by rw [ReceivedAlike]; decide +kernel)⟩

/-! ## The TCP segment -/

/-- The pseudo-header of a segment, in network order. -/
def pseudoHeader (srcIp dstIp : UInt32) (len : Nat) : List UInt8 :=
  beBytes 4 srcIp.toNat ++ (beBytes 4 dstIp.toNat ++ (0 :: ipProtoTcp :: beBytes 2 len))

/-- The sum over a segment and its pseudo-header. -/
def internetSum (srcIp dstIp : UInt32) (segment : List UInt8) : Nat :=
  (beWords (pseudoHeader srcIp dstIp segment.length ++ segment)).sum

/-- The segment's checksum is the one that TCP prescribes. -/
def InternetValid (srcIp dstIp : UInt32) (segment : List UInt8) : Prop :=
  onesSum (beWords (pseudoHeader srcIp dstIp segment.length ++ segment)) = 65535

/-- The words of a 32-bit number in network order are its halves. -/
theorem beWords_beBytes_four (x : UInt32) :
    beWords (beBytes 4 x.toNat) = [x.toNat / 65536, x.toNat % 65536] := by
  have hx := x.toNat_lt
  simp only [beBytes, leBytes, List.reverse_cons, List.reverse_nil, List.nil_append,
    List.cons_append, beWords, UInt8.toNat_ofNat']
  congr 1
  · omega
  · congr 1
    omega

theorem beWords_beBytes_two {n : Nat} (hn : n < 65536) : beWords (beBytes 2 n) = [n] := by
  simp only [beBytes, leBytes, List.reverse_cons, List.reverse_nil, List.nil_append,
    List.cons_append, beWords, UInt8.toNat_ofNat']
  congr 1
  omega

theorem internetSum_eq (srcIp dstIp : UInt32) {segment : List UInt8}
    (h : segment.length < 65536) : internetSum srcIp dstIp segment =
      addressSum srcIp dstIp + 6 + segment.length + (beWords segment).sum := by
  have hproto : beWords [0, ipProtoTcp] = [6] := rfl
  rw [internetSum, pseudoHeader, show 0 :: ipProtoTcp :: beBytes 2 segment.length =
    [0, ipProtoTcp] ++ beBytes 2 segment.length from rfl, beWords_append (by simp),
    beWords_append (by simp), beWords_append (by simp), beWords_append (by simp),
    beWords_beBytes_four, beWords_beBytes_four, hproto, beWords_beBytes_two h, addressSum]
  simp only [List.sum_append, List.sum_cons, List.sum_nil]
  omega

/-- A segment is valid exactly when the sum is a multiple of `65535`. -/
theorem internetValid_iff (srcIp dstIp : UInt32) {segment : List UInt8}
    (h : segment.length < 65536) :
    InternetValid srcIp dstIp segment ↔ 65535 ∣ internetSum srcIp dstIp segment := by
  have hsum := internetSum_eq srcIp dstIp h
  rw [InternetValid, onesSum_eq beWords_le, norm_eq_max, ← internetSum]
  omega

/-- The code's sum is the prescribed one with exchanged bytes, but for the addresses. -/
theorem tcpWordSum_modEq (srcIp dstIp : UInt32) {segment : List UInt8}
    (h : segment.length < 65536) :
    tcpWordSum srcIp dstIp segment + 255 * addressSum srcIp dstIp ≡
      256 * internetSum srcIp dstIp segment [MOD 65535] := by
  have hwords := leWords_modEq segment
  rw [tcpWordSum, internetSum_eq srcIp dstIp h]
  rw [Nat.ModEq] at hwords ⊢
  omega

/-- The condition under which the code's test of a received segment is the prescribed one. -/
def AcceptedAlike (srcIp dstIp : UInt32) (segment : List UInt8) : Prop :=
  257 ∣ addressSum srcIp dstIp ∨ ¬ 65535 ∣ internetSum srcIp dstIp segment ∧
    ¬ internetSum srcIp dstIp segment ≡ 65280 * addressSum srcIp dstIp [MOD 65535]

theorem tcpValidateChecksum_alike (srcIp dstIp : UInt32) {segment : List UInt8}
    (h : segment.length < 65536) :
    (tcpValidateChecksum srcIp dstIp segment = true ↔ InternetValid srcIp dstIp segment) ↔
      AcceptedAlike srcIp dstIp segment := by
  have hsum := tcpWordSum_modEq srcIp dstIp h
  rw [tcpValidateChecksum_iff srcIp dstIp h, internetValid_iff srcIp dstIp h, AcceptedAlike]
  rw [Nat.ModEq] at hsum ⊢
  omega

/-- A segment that the code accepts is valid exactly if the addresses do not matter. -/
theorem internetValid_of_dvd (srcIp dstIp : UInt32) {segment : List UInt8}
    (h : segment.length < 65536) (hvalid : 65535 ∣ tcpWordSum srcIp dstIp segment) :
    InternetValid srcIp dstIp segment ↔ 257 ∣ addressSum srcIp dstIp := by
  have hsum := tcpWordSum_modEq srcIp dstIp h
  rw [internetValid_iff srcIp dstIp h]
  rw [Nat.ModEq] at hsum
  omega

/-- `tcp_validate_checksum` accepts a segment as TCP prescribes exactly when `AcceptedAlike` holds
of it, and what `tcp_send_segment` and `tcp_send_rst` send is valid exactly when 257 divides the sum
of the halves of the addresses. -/
theorem tcp_checksum_agreement (srcIp dstIp : UInt32) :
    (∀ segment : List UInt8, 20 ≤ segment.length → segment.length ≤ 65515 →
      ((tcpValidateChecksum srcIp dstIp segment = true ↔ InternetValid srcIp dstIp segment) ↔
        AcceptedAlike srcIp dstIp segment)) ∧
    (∀ (σ : Node) (conns : List (Nat × Conn)), σ.InOrder → σ.connections = some conns →
      ∀ (p : Nat) (c : Conn), (p, c) ∈ conns →
      ∀ (flags : UInt8) (payload : List UInt8), payload.length ≤ 65495 →
      ∃ σ' events, (tcpSendSegment p flags payload).run σ = some ((), σ') ∧
        σ'.log = events ++ σ.log ∧
        (.noMemory ∈ events ∨ ∃ bytes, .handed p c bytes ∈ events) ∧
        ∀ q d bytes, .handed q d bytes ∈ events →
          (InternetValid c.localIp c.remoteIp bytes ↔
            257 ∣ addressSum c.localIp c.remoteIp)) ∧
    ∀ (σ : Node), σ.InOrder → ∀ (srcPort dstPort : UInt16) (seq ack : UInt32),
      ∃ σ' events, (tcpSendRst srcIp dstIp srcPort dstPort seq ack).run σ = some ((), σ') ∧
        σ'.log = events ++ σ.log ∧ (∃ bytes, .reset srcIp dstIp bytes ∈ events) ∧
        ∀ a b bytes, .reset a b bytes ∈ events →
          (InternetValid srcIp dstIp bytes ↔ 257 ∣ addressSum srcIp dstIp) := by
  refine ⟨fun segment _ hlen ↦ tcpValidateChecksum_alike srcIp dstIp (by omega), ?_, ?_⟩
  · intro σ conns hσ hconns p c hc flags payload hlen
    obtain ⟨L, hL⟩ := hσ
    obtain rfl : (σ.server L).conns = conns := by
      rw [hL.connections_eq] at hconns
      exact Option.some.inj hconns
    have hvalid : InternetValid c.localIp c.remoteIp (tcpSegment c flags payload) ↔
        257 ∣ addressSum c.localIp c.remoteIp :=
      internetValid_of_dvd _ _ (by rw [length_tcpSegment]; omega)
        (dvd_tcpWordSum c.localIp c.remoteIp (c.header flags) payload rfl (by omega))
    obtain ⟨_, σ', hrun, L', -, -, hserver⟩ :=
      tcpSendSegment_spec hL hc flags payload (hlen.trans (by omega))
    rcases hserver with hserver | ⟨e, he, hserver⟩
    · exact ⟨σ', [.noMemory], hrun, congrArg Server.log hserver, .inl List.mem_cons_self, by simp⟩
    · refine ⟨σ', [e, .handed p c (tcpSegment c flags payload)], hrun,
        congrArg Server.log hserver, .inr ⟨_, List.mem_cons_of_mem _ List.mem_cons_self⟩,
        fun q d bytes hmem ↦ ?_⟩
      rcases List.mem_cons.mp hmem with rfl | hmem
      · rcases he with he | he | he <;> cases he
      · cases List.mem_singleton.mp hmem
        exact hvalid
  · intro σ hσ srcPort dstPort seq ack
    obtain ⟨L, hL⟩ := hσ
    have hdvd := dvd_tcpWordSum srcIp dstIp (rstHeader srcPort dstPort seq ack) [] rfl
      (Nat.zero_le _)
    simp only [List.append_nil] at hdvd
    have hvalid : InternetValid srcIp dstIp (rstSegment srcIp dstIp srcPort dstPort seq ack) ↔
        257 ∣ addressSum srcIp dstIp :=
      internetValid_of_dvd _ _ (by rw [length_rstSegment]; omega) hdvd
    obtain ⟨_, σ', hrun, L', -, -, e, he, hserver⟩ :=
      tcpSendRst_spec hL srcIp dstIp srcPort dstPort seq ack
    refine ⟨σ', [e, .reset srcIp dstIp (rstSegment srcIp dstIp srcPort dstPort seq ack)], hrun,
      congrArg Server.log hserver, ⟨_, List.mem_cons_of_mem _ List.mem_cons_self⟩,
      fun a b bytes hmem ↦ ?_⟩
    rcases List.mem_cons.mp hmem with rfl | hmem
    · cases he
    · cases List.mem_singleton.mp hmem
      exact hvalid

/-- A segment from 10.0.2.2 to 10.0.2.15 that the code's peer sends and the code accepts is not
valid. -/
theorem tcp_checksum_accepts :
    tcpValidateChecksum 0x0A000202 0x0A00020F (tcpSegment (.samplePeer 100 0) tcpFlagSyn []) =
      true ∧
    ¬ InternetValid 0x0A000202 0x0A00020F (tcpSegment (.samplePeer 100 0) tcpFlagSyn []) := by
  rw [InternetValid]
  decide +kernel

/-- Between 10.0.2.2 and 10.0.2.22 the code's test is the prescribed one. -/
theorem tcp_checksum_agreement_pair :
    tcpValidateChecksum 0x0A000202 0x0A000216 (tcpSegment (.samplePeer 100 0) tcpFlagSyn []) =
      true ↔
    InternetValid 0x0A000202 0x0A000216 (tcpSegment (.samplePeer 100 0) tcpFlagSyn []) :=
  ((tcp_checksum_agreement 0x0A000202 0x0A000216).1 (tcpSegment (.samplePeer 100 0) tcpFlagSyn [])
    (by simp) (by simp)).mpr (.inl (by decide))

end Aether.Ethernet
