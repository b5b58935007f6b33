import Aether.Common.ByteOrder
import Aether.Lib.OnesComplement

/-!
# Checksums of the network stack

`ipv4_checksum` of `ipv4.c` adds big-endian words; `tcp_checksum.c` adds native little-endian words
to a pseudo-header. Both fold a 32-bit accumulator and invert it. A buffer and a length that are
only read together are the list of the bytes they delimit.
-/

namespace Aether.Ethernet

open ByteMemory Common OnesComplement

/-- `IP_PROTO_TCP`. -/
def ipProtoTcp : UInt8 := 6

/-- The loop `while (sum >> 16) sum = (sum & 0xFFFF) + (sum >> 16)`. Two turns are enough for 32
bits (`foldCarries_done`), so the number of turns is never what ends it. -/
def foldCarries : Nat → UInt32 → UInt32
  | 0, sum => sum
  | turns + 1, sum =>
      if sum >>> 16 = 0 then sum else foldCarries turns ((sum &&& (0xFFFF : UInt32)) + (sum >>> 16))

/-- The words that `ipv4_checksum` adds to its accumulator. -/
def ipv4Accumulate : UInt32 → List UInt8 → UInt32
  | sum, [] => sum
  | sum, [a] => sum + (a.toUInt16 <<< 8).toUInt32
  | sum, a :: b :: rest => ipv4Accumulate (sum + ((a.toUInt16 <<< 8) ||| b.toUInt16).toUInt32) rest

/-- `ipv4_checksum`. -/
def ipv4Checksum (data : List UInt8) : UInt16 :=
  ~~~ (foldCarries 2 (ipv4Accumulate 0 data)).toUInt16

/-- The loop of `checksum_accumulate`: native 16-bit loads, and the last byte alone when the length
is odd. -/
def accumulateWords : UInt32 → List UInt8 → UInt32
  | sum, [] => sum
  | sum, [a] => sum + a.toUInt32
  | sum, a :: b :: rest => accumulateWords (sum + UInt32.ofNat (leNat [a, b])) rest

/-- `checksum_accumulate`. -/
def checksumAccumulate (data : List UInt8) : UInt32 := accumulateWords 0 data

/-- `checksum_finalize`. -/
def checksumFinalize (sum : UInt32) : UInt16 := ~~~ (foldCarries 2 sum).toUInt16

/-- `tcp_compute_checksum`. -/
def tcpComputeChecksum (srcIp dstIp : UInt32) (segment : List UInt8) : UInt16 :=
  let sum := (srcIp &&& (0xFFFF : UInt32)) + (srcIp >>> 16) + (dstIp &&& (0xFFFF : UInt32)) +
    (dstIp >>> 16)
  let sum := sum + (htons ipProtoTcp.toUInt16).toUInt32
  let sum := sum + (htons (UInt16.ofNat segment.length)).toUInt32
  checksumFinalize (sum + checksumAccumulate segment)

/-- `tcp_validate_checksum`. -/
def tcpValidateChecksum (srcIp dstIp : UInt32) (segment : List UInt8) : Bool :=
  tcpComputeChecksum srcIp dstIp segment == 0

/-! ## What the loops compute -/

/-- One turn of the folding loop. -/
theorem toNat_fold (sum : UInt32) :
    ((sum &&& (0xFFFF : UInt32)) + (sum >>> 16)).toNat = sum.toNat % 65536 + sum.toNat / 65536 := by
  have hsum := sum.toNat_lt
  have hlow : sum.toNat &&& 65535 = sum.toNat % 65536 := by simpa using and_mask sum.toNat 0 16
  simp only [UInt32.toNat_add, UInt32.toNat_and, UInt32.toNat_shiftRight, UInt32.reduceToNat,
    Nat.reduceMod, Nat.shiftRight_eq_div_pow, Nat.reducePow, hlow]
  omega

/-- The folding loop runs until the carries are gone. -/
theorem foldCarries_done (sum : UInt32) : foldCarries 2 sum >>> 16 = 0 := by
  have hsum := sum.toNat_lt
  have hcond : ∀ x : UInt32, x >>> 16 = 0 ↔ x.toNat < 65536 := fun x ↦ by
    rw [← UInt32.toNat_inj, UInt32.toNat_shiftRight]
    simp [Nat.shiftRight_eq_div_pow, Nat.div_eq_zero_iff]
  have hfirst := toNat_fold sum
  have hsecond := toNat_fold ((sum &&& (0xFFFF : UInt32)) + (sum >>> 16))
  simp only [foldCarries, hcond]
  split
  · assumption
  split
  · assumption
  · rw [hsecond, hfirst]
    omega

/-- The folded accumulator is the normalised sum. -/
theorem toNat_foldCarries (sum : UInt32) : (foldCarries 2 sum).toNat = norm sum.toNat := by
  have hnorm : ∀ turns sum, norm (foldCarries turns sum).toNat = norm sum.toNat := by
    intro turns
    induction turns with
    | zero => intro sum; rfl
    | succ turns ih =>
        intro sum
        rw [foldCarries]
        split
        · rfl
        · rw [ih, toNat_fold, norm_fold]
  have hdone := congrArg UInt32.toNat (foldCarries_done sum)
  rw [UInt32.toNat_shiftRight] at hdone
  simp only [UInt32.reduceToNat, Nat.reduceMod, Nat.shiftRight_eq_div_pow, Nat.reducePow] at hdone
  rw [← hnorm 2 sum, norm_of_le (by omega)]

/-- Inverting the folded accumulator complements the normalised sum. -/
theorem toNat_finalize (sum : UInt32) :
    (~~~ (foldCarries 2 sum).toUInt16).toNat = 65535 - norm sum.toNat := by
  have hle := norm_le sum.toNat
  rw [UInt16.toNat_not, UInt32.toNat_toUInt16, toNat_foldCarries, UInt16.size,
    Nat.mod_eq_of_lt (by omega)]

theorem toNat_ipv4Accumulate (sum : UInt32) (data : List UInt8) :
    (ipv4Accumulate sum data).toNat = (sum.toNat + (beWords data).sum) % 2 ^ 32 := by
  fun_induction ipv4Accumulate sum data with
  | case1 sum => simp [beWords]
  | case2 sum a =>
      have := a.toNat_lt
      have hword : (a.toUInt16 <<< 8).toUInt32.toNat = 256 * a.toNat := by
        simp [Nat.shiftLeft_eq]
        omega
      rw [UInt32.toNat_add, hword, beWords, List.sum_singleton]
  | case3 sum a b rest ih =>
      have := a.toNat_lt
      have := b.toNat_lt
      have hword :
          ((a.toUInt16 <<< 8) ||| b.toUInt16).toUInt32.toNat = 256 * a.toNat + b.toNat := by
        simp only [UInt16.toNat_toUInt32, UInt16.toNat_or, UInt16.toNat_shiftLeft,
          UInt8.toNat_toUInt16, UInt16.reduceToNat, Nat.reduceMod, Nat.shiftLeft_eq,
          Nat.reducePow]
        rw [or_eq_add 8 (by omega) (by omega)]
        omega
      rw [ih, UInt32.toNat_add, hword, beWords, List.sum_cons]
      omega

theorem toNat_accumulateWords (sum : UInt32) (data : List UInt8) :
    (accumulateWords sum data).toNat = (sum.toNat + (leWords data).sum) % 2 ^ 32 := by
  fun_induction accumulateWords sum data with
  | case1 sum => simp [leWords]
  | case2 sum a => simp [leWords]
  | case3 sum a b rest ih =>
      have := a.toNat_lt
      have := b.toNat_lt
      have hword : (UInt32.ofNat (leNat [a, b])).toNat = a.toNat + 256 * b.toNat := by
        rw [UInt32.toNat_ofNat']
        simp only [leNat]
        omega
      rw [ih, UInt32.toNat_add, hword, leWords, List.sum_cons]
      omega

/-! ## The two checksums -/

/-- `ipv4_checksum` is the complement of the one's complement sum of the big-endian words. -/
theorem toNat_ipv4Checksum {data : List UInt8} (h : data.length ≤ 65535) :
    (ipv4Checksum data).toNat = 65535 - onesSum (beWords data) := by
  have hle := sum_beWords_le data
  rw [ipv4Checksum, toNat_finalize, toNat_ipv4Accumulate, onesSum_eq beWords_le,
    UInt32.toNat_zero, Nat.zero_add, Nat.mod_eq_of_lt (by omega)]

/-- The sum of the four 16-bit halves of two addresses. -/
def addressSum (srcIp dstIp : UInt32) : Nat :=
  srcIp.toNat % 65536 + srcIp.toNat / 65536 + dstIp.toNat % 65536 + dstIp.toNat / 65536

/-- What `tcp_compute_checksum` adds up: the halves of the addresses as they are, the protocol and
the length with their bytes exchanged, and the little-endian words of the segment. -/
def tcpWordSum (srcIp dstIp : UInt32) (segment : List UInt8) : Nat :=
  addressSum srcIp dstIp + 256 * 6 + (segment.length % 256 * 256 + segment.length / 256) +
    (leWords segment).sum

/-- `tcp_compute_checksum` is the complement of the normalised sum. -/
theorem toNat_tcpComputeChecksum (srcIp dstIp : UInt32) {segment : List UInt8}
    (h : segment.length < 65536) :
    (tcpComputeChecksum srcIp dstIp segment).toNat =
      65535 - norm (tcpWordSum srcIp dstIp segment) := by
  have hsrc := srcIp.toNat_lt
  have hdst := dstIp.toNat_lt
  have hwords := sum_leWords_le segment
  have hlow : ∀ x : UInt32, x.toNat &&& 65535 = x.toNat % 65536 := fun x ↦ by
    simpa using and_mask x.toNat 0 16
  have hlen : (UInt16.ofNat segment.length).toNat = segment.length :=
    UInt16.toNat_ofNat_of_lt' h
  rw [tcpComputeChecksum, checksumFinalize, toNat_finalize, tcpWordSum, addressSum]
  congr 2
  simp only [UInt32.toNat_add, UInt32.toNat_and, UInt32.toNat_shiftRight, UInt32.reduceToNat,
    Nat.reduceMod, Nat.shiftRight_eq_div_pow, Nat.reducePow, hlow, checksumAccumulate,
    toNat_accumulateWords, UInt16.toNat_toUInt32, toNat_htons, hlen, UInt8.toNat_toUInt16,
    ipProtoTcp, UInt8.reduceToNat, UInt32.toNat_zero]
  omega

/-- `tcp_validate_checksum` accepts exactly the segments whose sum is a multiple of `65535`. -/
theorem tcpValidateChecksum_iff (srcIp dstIp : UInt32) {segment : List UInt8}
    (h : segment.length < 65536) :
    tcpValidateChecksum srcIp dstIp segment = true ↔
      65535 ∣ tcpWordSum srcIp dstIp segment := by
  have hpos : tcpWordSum srcIp dstIp segment ≠ 0 := by
    simp only [tcpWordSum]
    omega
  have hle := norm_le (tcpWordSum srcIp dstIp segment)
  have hmax := norm_eq_max (n := tcpWordSum srcIp dstIp segment)
  rw [tcpValidateChecksum, beq_iff_eq, ← UInt16.toNat_inj, toNat_tcpComputeChecksum srcIp dstIp h,
    UInt16.toNat_zero]
  constructor
  · intro h0
    exact (hmax.mp (by omega)).2
  · intro hdvd
    have := hmax.mpr ⟨hpos, hdvd⟩
    omega

end Aether.Ethernet
