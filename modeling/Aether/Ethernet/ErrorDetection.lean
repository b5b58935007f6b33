import Aether.Ethernet.Checksum

/-!
# What the checksums are good for

The checksum of `tcp_checksum.c` adds native words and that of `ipv4.c` adds big-endian ones;
`checksums_agree` says that they differ by the order of two bytes. `checksum_detects_errors` says
which changes of one word a TCP checksum shows: all but the exchange of the two representations of
zero.
-/

namespace Aether.Ethernet

open Common OnesComplement

/-! ## Byte order -/

/-- The accumulator of `checksum_accumulate` is the sum of the words. -/
theorem toNat_checksumAccumulate {data : List UInt8} (h : data.length ≤ 65535) :
    (checksumAccumulate data).toNat = (leWords data).sum := by
  have hle := sum_leWords_le data
  rw [checksumAccumulate, toNat_accumulateWords, UInt32.toNat_zero, Nat.zero_add]
  exact Nat.mod_eq_of_lt (by omega)

/-- The accumulator of `ipv4_checksum` is the sum of the words. -/
theorem toNat_ipv4Accumulate_zero {data : List UInt8} (h : data.length ≤ 65535) :
    (ipv4Accumulate 0 data).toNat = (beWords data).sum := by
  have hle := sum_beWords_le data
  rw [toNat_ipv4Accumulate, UInt32.toNat_zero, Nat.zero_add]
  exact Nat.mod_eq_of_lt (by omega)

/-- When no carry is left, further turns of the folding loop change nothing. -/
theorem foldCarries_stop {sum : UInt32} (h : sum >>> 16 = 0) (turns : Nat) :
    foldCarries turns sum = sum := by
  cases turns with
  | zero => rfl
  | succ turns => rw [foldCarries, if_pos h]

/-- The folding loop ends within two turns. -/
theorem foldCarries_ends (sum : UInt32) (turns : Nat) :
    foldCarries (2 + turns) sum = foldCarries 2 sum := by
  have hsplit : ∀ m sum, foldCarries (m + turns) sum = foldCarries turns (foldCarries m sum) := by
    intro m
    induction m with
    | zero =>
        intro sum
        rw [Nat.zero_add, foldCarries]
    | succ m ih =>
        intro sum
        rw [Nat.succ_add, foldCarries, foldCarries]
        split
        · rename_i hdone
          exact (foldCarries_stop hdone turns).symm
        · exact ih _
  rw [hsplit]
  exact foldCarries_stop (foldCarries_done sum) turns

/-- The one's complement sum of native words is the byte swap of that of big-endian words. -/
theorem norm_leWords (data : List UInt8) :
    norm (leWords data).sum = swapBytes (norm (beWords data).sum) :=
  norm_swap (leWords_modEq data) (sum_leWords_eq_zero_iff data)

/-- For every byte string of at most 65535 bytes: neither accumulator overflows, both folding loops
end within two turns, and `checksum_finalize(checksum_accumulate(d))` is the byte swap of
`ipv4_checksum(d)`. -/
theorem checksums_agree (data : List UInt8) (h : data.length ≤ 65535) :
    (checksumAccumulate data).toNat = (leWords data).sum ∧
    (ipv4Accumulate 0 data).toNat = (beWords data).sum ∧
    (∀ sum turns, foldCarries (2 + turns) sum = foldCarries 2 sum ∧
      foldCarries 2 sum >>> 16 = 0) ∧
    checksumFinalize (checksumAccumulate data) = htons (ipv4Checksum data) := by
  have hle := toNat_checksumAccumulate h
  have hbe := toNat_ipv4Accumulate_zero h
  refine ⟨hle, hbe, fun sum turns ↦ ⟨foldCarries_ends sum turns, foldCarries_done sum⟩, ?_⟩
  rw [← UInt16.toNat_inj, toNat_htons]
  show (~~~ (foldCarries 2 (checksumAccumulate data)).toUInt16).toNat =
    swapBytes (~~~ (foldCarries 2 (ipv4Accumulate 0 data)).toUInt16).toNat
  rw [toNat_finalize, toNat_finalize, hle, hbe, swapBytes_complement (norm_le _), norm_leWords]

/-- Three bytes. -/
theorem checksums_agree_odd :
    checksumFinalize (checksumAccumulate [0x12, 0x34, 0x56]) =
      htons (ipv4Checksum [0x12, 0x34, 0x56]) :=
  (checksums_agree [0x12, 0x34, 0x56] (by decide)).2.2.2

/-! ## Changing one word -/

section Words

variable {srcIp dstIp : UInt32} {pre post : List UInt8} {a b a' b' : UInt8}

/-- The words before, at and after an aligned pair of bytes. -/
theorem sum_leWords_pair (heven : 2 ∣ pre.length) :
    (leWords (pre ++ a :: b :: post)).sum =
      (leWords pre).sum + (leWords post).sum + (a.toNat + 256 * b.toNat) := by
  rw [leWords_append heven, leWords, List.sum_append, List.sum_cons]
  omega

/-- The words before a last byte, and that byte. -/
theorem sum_leWords_last (heven : 2 ∣ pre.length) :
    (leWords (pre ++ [a])).sum = (leWords pre).sum + a.toNat := by
  rw [leWords_append heven, leWords, List.sum_append, List.sum_singleton]

/-- A pair of bytes holds one of the two zeros of one's complement arithmetic, and the other pair
the other. -/
def ZerosExchanged (a b a' b' : UInt8) : Prop :=
  a = 0 ∧ b = 0 ∧ a' = 255 ∧ b' = 255 ∨ a = 255 ∧ b = 255 ∧ a' = 0 ∧ b' = 0

/-- After a change of one aligned word the checksum is right again if and only if one zero was
replaced by the other. -/
theorem validate_pair (hlen : (pre ++ a :: b :: post).length < 65536) (heven : 2 ∣ pre.length)
    (hvalid : tcpValidateChecksum srcIp dstIp (pre ++ a :: b :: post) = true)
    (hne : ¬ (a' = a ∧ b' = b)) :
    tcpValidateChecksum srcIp dstIp (pre ++ a' :: b' :: post) = true ↔
      ZerosExchanged a b a' b' := by
  have hlen' : (pre ++ a' :: b' :: post).length = (pre ++ a :: b :: post).length := by simp
  rw [tcpValidateChecksum_iff _ _ hlen] at hvalid
  rw [tcpValidateChecksum_iff _ _ (hlen' ▸ hlen)]
  unfold tcpWordSum at hvalid ⊢
  rw [sum_leWords_pair heven] at hvalid
  rw [sum_leWords_pair heven, hlen']
  have ha := a.toNat_lt
  have hb := b.toNat_lt
  have ha' := a'.toNat_lt
  have hb' := b'.toNat_lt
  unfold ZerosExchanged
  simp only [← UInt8.toNat_inj] at hne ⊢
  simp only [UInt8.reduceToNat]
  generalize addressSum srcIp dstIp + 256 * 6 + _ = header at hvalid ⊢
  generalize (leWords pre).sum + (leWords post).sum = rest at hvalid ⊢
  have hword : a.toNat + 256 * b.toNat ≡ a'.toNat + 256 * b'.toNat [MOD 65535] ↔
      65535 ∣ header + (rest + (a'.toNat + 256 * b'.toNat)) := by
    unfold Nat.ModEq
    omega
  rw [← hword, word_modEq_iff (by omega) (by omega)]
  omega

/-- A change of the last byte of a segment of odd length makes the checksum wrong. -/
theorem validate_last (hlen : (pre ++ [a]).length < 65536) (heven : 2 ∣ pre.length)
    (hvalid : tcpValidateChecksum srcIp dstIp (pre ++ [a]) = true) (hne : a' ≠ a) :
    tcpValidateChecksum srcIp dstIp (pre ++ [a']) = false := by
  have hlen' : (pre ++ [a']).length = (pre ++ [a]).length := by simp
  rw [tcpValidateChecksum_iff _ _ hlen] at hvalid
  rw [← Bool.not_eq_true, tcpValidateChecksum_iff _ _ (hlen' ▸ hlen)]
  unfold tcpWordSum at hvalid ⊢
  rw [sum_leWords_last heven] at hvalid
  rw [sum_leWords_last heven, hlen']
  have ha := a.toNat_lt
  have ha' := a'.toNat_lt
  rw [ne_eq, ← UInt8.toNat_inj] at hne
  omega

end Words

/-- The bit of the given weight is flipped. -/
def flipBit (k : Nat) (x : UInt8) : UInt8 := x ^^^ (1 <<< UInt8.ofNat k)

/-- A flipped bit makes another byte. -/
theorem flipBit_ne {k : Nat} (hk : k < 8) (x : UInt8) : flipBit k x ≠ x := by
  intro heq
  have hbit : (1 : UInt8) <<< UInt8.ofNat k = 0 := by
    have hxor : x ^^^ (1 <<< UInt8.ofNat k) = x ^^^ 0 := heq.trans UInt8.xor_zero.symm
    exact (UInt8.xor_right_inj x).mp hxor
  have hne : ∀ k < 8, (1 : UInt8) <<< UInt8.ofNat k ≠ 0 := by decide
  exact hne k hk hbit

/-- The change of a single byte makes the checksum wrong. -/
theorem validate_byte {srcIp dstIp : UInt32} {pre post : List UInt8} {a a' : UInt8}
    (hlen : (pre ++ a :: post).length < 65536)
    (hvalid : tcpValidateChecksum srcIp dstIp (pre ++ a :: post) = true) (hne : a' ≠ a) :
    tcpValidateChecksum srcIp dstIp (pre ++ a' :: post) = false := by
  by_cases heven : 2 ∣ pre.length
  · cases post with
    | nil => exact validate_last hlen heven hvalid hne
    | cons b post =>
        rw [← Bool.not_eq_true, validate_pair hlen heven hvalid fun hsame ↦ hne hsame.1]
        rintro (⟨-, rfl, -, hb⟩ | ⟨-, rfl, -, hb⟩)
        · exact absurd hb (by decide)
        · exact absurd hb (by decide)
  · -- the byte is the second one of its word
    obtain rfl | ⟨front, c, rfl⟩ := List.eq_nil_or_concat pre
    · exact absurd (Nat.dvd_zero 2) heven
    · have hfront : 2 ∣ front.length := by
        rw [List.concat_eq_append, List.length_append, List.length_singleton] at heven
        omega
      rw [List.concat_append] at hlen hvalid
      rw [List.concat_append, ← Bool.not_eq_true,
        validate_pair hlen hfront hvalid fun hsame ↦ hne hsame.2]
      rintro (⟨rfl, -, hc, -⟩ | ⟨rfl, -, hc, -⟩)
      · exact absurd hc (by decide)
      · exact absurd hc (by decide)

/-- For every address pair and every segment that `tcp_validate_checksum` accepts: after a change of
one aligned word it accepts again if and only if one zero of one's complement arithmetic was
replaced by the other; after a change of the lone last byte, or a flip of any bit, it rejects. -/
theorem checksum_detects_errors (srcIp dstIp : UInt32) (segment : List UInt8)
    (hlen : segment.length ≤ 65535)
    (hvalid : tcpValidateChecksum srcIp dstIp segment = true) :
    (∀ pre a b post a' b', segment = pre ++ a :: b :: post → 2 ∣ pre.length →
      ¬ (a' = a ∧ b' = b) →
      (tcpValidateChecksum srcIp dstIp (pre ++ a' :: b' :: post) = true ↔
        ZerosExchanged a b a' b')) ∧
    (∀ pre a a', segment = pre ++ [a] → 2 ∣ pre.length → a' ≠ a →
      tcpValidateChecksum srcIp dstIp (pre ++ [a']) = false) ∧
    (∀ i < segment.length, ∀ k < 8,
      tcpValidateChecksum srcIp dstIp (segment.modify i (flipBit k)) = false) := by
  refine ⟨?_, ?_, ?_⟩
  · rintro pre a b post a' b' rfl heven hne
    exact validate_pair (Nat.lt_succ_of_le hlen) heven hvalid hne
  · rintro pre a a' rfl heven hne
    exact validate_last (Nat.lt_succ_of_le hlen) heven hvalid hne
  · intro i hi k hk
    obtain ⟨pre, a, post, hsegment, -, hflipped⟩ := List.exists_of_modify (flipBit k) hi
    rw [hflipped]
    rw [hsegment] at hlen hvalid
    exact validate_byte (Nat.lt_succ_of_le hlen) hvalid (flipBit_ne hk a)

/-- A header of zeros between two zero addresses, with the checksum that belongs to it. -/
theorem checksum_detects_errors_zeros :
    tcpValidateChecksum 0 0
      ((List.replicate 16 0 ++ [0xFF, 0xE5, 0, 0] : List UInt8).modify 3 (flipBit 5)) = false :=
  (checksum_detects_errors 0 0 (List.replicate 16 0 ++ [0xFF, 0xE5, 0, 0]) (by decide)
    (by decide)).2.2 3 (by decide) 5 (by decide)

end Aether.Ethernet
