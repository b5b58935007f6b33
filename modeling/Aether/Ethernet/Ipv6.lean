import Aether.Common.ByteOrder
import Aether.Drivers.Uart
import Aether.Lib.Ipv6Text

/-!
# Printed IPv6 addresses

`print_ipv6`: the search for the run of zero groups to compress and the loop that prints the groups
around it. What it prints is a text form of the address that a parser reads back.
-/

namespace Aether.Ethernet

open Ascii Common Drivers Ipv6Text

/-- An IPv6 address, `uint8_t[16]`. -/
structure Ipv6Addr where
  bytes : List UInt8
  length : bytes.length = 16
  deriving DecidableEq

/-! ## The printer -/

/-- The array `words`. -/
def ipv6Words (addr : Ipv6Addr) : List UInt16 :=
  (List.range 8).map fun i ↦
    ((addr.bytes.getD (i * 2) 0).toUInt16 <<< 8) ||| (addr.bytes.getD (i * 2 + 1) 0).toUInt16

/-- The loop `while (j < 8 && words[j] == 0) j++;`, with so many turns left. -/
def zeroRunEnd (words : List UInt16) : Nat → Nat → Option Nat
  | 0, _ => none
  | turns + 1, j => if j < 8 ∧ words.getD j 0 = 0 then zeroRunEnd words turns (j + 1) else some j

/-- The search for the longest run: `best_start` and `best_len`. -/
def searchLoop (words : List UInt16) : Nat → Nat → Int → Nat → Option (Int × Nat)
  | 0, _, _, _ => none
  | turns + 1, i, bestStart, bestLen =>
      if i < 8 then
        if words.getD i 0 = 0 then do
          let j ← zeroRunEnd words 9 i
          let len := j - i
          if len > bestLen then searchLoop words turns j i len
          else searchLoop words turns j bestStart bestLen
        else searchLoop words turns (i + 1) bestStart bestLen
      else some (bestStart, bestLen)

/-- The loop that prints. -/
def printLoop (words : List UInt16) (bestStart : Int) (bestLen : Nat) :
    Nat → Nat → Option (List UInt8)
  | 0, _ => none
  | turns + 1, i =>
      if i < 8 then
        if (i : Int) = bestStart then
          (printLoop words bestStart bestLen turns (i + (bestLen - 1) + 1)).map
            (uartPuts (text "::") ++ ·)
        else
          let colon := if i ≠ 7 ∧ (i : Int) + 1 ≠ bestStart then [58] else []
          (printLoop words bestStart bestLen turns (i + 1)).map
            (uartPrintHex16 (words.getD i 0) ++ colon ++ ·)
      else some []

/-- `print_ipv6`. -/
def printIpv6 (addr : Ipv6Addr) : Option (List UInt8) := do
  let words := ipv6Words addr
  let (bestStart, bestLen) ← searchLoop words 9 0 (-1) 0
  let bestStart := if bestLen < 2 then -1 else bestStart
  printLoop words bestStart bestLen 9 0

/-! ## Runs of zero groups -/

/-- The groups from `start` on are zero, `len` of them. -/
def ZeroRun (words : List UInt16) (start len : Nat) : Prop :=
  start + len ≤ words.length ∧ ∀ k < len, words.getD (start + k) 0 = 0

/-- The leftmost of the longest runs of at least two zero groups. -/
structure CompressedRun (words : List UInt16) (start len : Nat) : Prop where
  run : ZeroRun words start len
  two : 2 ≤ len
  longest : ∀ s l, ZeroRun words s l → l ≤ len
  leftmost : ∀ s, ZeroRun words s len → start ≤ s

section Search

variable {words : List UInt16} {i turns bestLen : Nat} {bestStart : Int}

/-- A run that begins at a group that is not zero is empty. -/
theorem ZeroRun.eq_zero {start len : Nat} (h : ZeroRun words start len)
    (hne : words.getD start 0 ≠ 0) : len = 0 := by
  by_contra hlen
  exact hne (h.2 0 (Nat.pos_of_ne_zero hlen))

/-- The inner loop finds the end of the run. -/
theorem zeroRunEnd_spec (words : List UInt16) (hi : i ≤ 8) (hturns : 8 - i < turns) :
    ∃ j, zeroRunEnd words turns i = some j ∧ i ≤ j ∧ j ≤ 8 ∧
      (∀ k, i ≤ k → k < j → words.getD k 0 = 0) ∧ (j < 8 → words.getD j 0 ≠ 0) := by
  induction turns generalizing i with
  | zero => omega
  | succ turns ih =>
      rw [zeroRunEnd]
      by_cases hgo : i < 8 ∧ words.getD i 0 = 0
      · obtain ⟨j, hj, hij, hle, hzero, hstop⟩ := ih (i := i + 1) (by omega) (by omega)
        rw [if_pos hgo]
        refine ⟨j, hj, by omega, hle, fun k hk hkj ↦ ?_, hstop⟩
        rcases Nat.eq_or_lt_of_le hk with rfl | hlt
        · exact hgo.2
        · exact hzero k hlt hkj
      · rw [if_neg hgo]
        exact ⟨i, rfl, le_rfl, hi, fun k hk hki ↦ by omega, fun hlt hzero ↦ hgo ⟨hlt, hzero⟩⟩

/-- What the search knows when it has come to group `i`: no run that begins before is longer than
the best, which is the leftmost of its length. -/
structure Searched (words : List UInt16) (i : Nat) (bestStart : Int) (bestLen : Nat) : Prop where
  bound : ∀ s l, s < i → ZeroRun words s l → l ≤ bestLen
  best : 0 < bestLen → ∃ s : Nat, bestStart = s ∧ s < i ∧ ZeroRun words s bestLen ∧
    ∀ s', ZeroRun words s' bestLen → s ≤ s'

/-- One run further. -/
theorem Searched.skip {j : Nat} (h : Searched words i bestStart bestLen) (hij : i < j)
    (hrun : ∀ s l, i ≤ s → s < j → ZeroRun words s l → l ≤ bestLen) :
    Searched words j bestStart bestLen where
  bound s l hs hzero := by
    by_cases hsi : s < i
    · exact h.bound s l hsi hzero
    · exact hrun s l (Nat.not_lt.mp hsi) hs hzero
  best hpos := by
    obtain ⟨s, hs, hlt, hzero, hleft⟩ := h.best hpos
    exact ⟨s, hs, hlt.trans hij, hzero, hleft⟩

/-- A longer run is the leftmost of its length. -/
theorem Searched.take {j : Nat} (h : Searched words i bestStart bestLen) (hij : i < j)
    (hrun : ∀ s l, i ≤ s → s < j → ZeroRun words s l → l ≤ j - i) (hlen : bestLen < j - i)
    (hzero : ZeroRun words i (j - i)) : Searched words j i (j - i) where
  bound s l hs hl := by
    by_cases hsi : s < i
    · exact (h.bound s l hsi hl).trans hlen.le
    · exact hrun s l (Nat.not_lt.mp hsi) hs hl
  best _ := by
    refine ⟨i, rfl, hij, hzero, fun s' hs' ↦ ?_⟩
    by_contra hlt
    exact absurd (h.bound s' _ (Nat.not_le.mp hlt) hs') (Nat.not_le.mpr hlen)

/-- The search goes through all groups. -/
theorem searchLoop_spec (hlength : words.length = 8) (hturns : 8 - i < turns)
    (h : Searched words i bestStart bestLen) :
    ∃ s l i', searchLoop words turns i bestStart bestLen = some (s, l) ∧ 8 ≤ i' ∧
      Searched words i' s l := by
  induction turns generalizing i bestStart bestLen with
  | zero => omega
  | succ turns ih =>
      rw [searchLoop]
      by_cases hi : i < 8
      · rw [if_pos hi]
        by_cases hzero : words.getD i 0 = 0
        · rw [if_pos hzero]
          have hnine : 8 - i < 9 := by omega
          obtain ⟨j, hj, hij, hle, hzeros, hstop⟩ := zeroRunEnd_spec words hi.le hnine
          have hlt : i < j := by
            rcases Nat.eq_or_lt_of_le hij with rfl | hlt
            · exact absurd hzero (hstop hi)
            · exact hlt
          -- a run that begins in this one ends with it
          have hrun : ∀ s l, i ≤ s → s < j → ZeroRun words s l → l ≤ j - i := by
            intro s l his hsj hl
            by_contra hlong
            have hend : j < 8 := by
              have := hl.1
              omega
            have hinside := hl.2 (j - s) (by omega)
            rw [Nat.add_sub_of_le hsj.le] at hinside
            exact hstop hend hinside
          rw [hj, Option.bind_eq_bind, Option.bind_some]
          dsimp only
          split
          · rename_i hlonger
            refine ih (by omega) (h.take hlt hrun hlonger ⟨by omega, fun k hk ↦ ?_⟩)
            exact hzeros (i + k) (by omega) (by omega)
          · rename_i hshorter
            refine ih (by omega) (h.skip hlt fun s l his hsj hl ↦ ?_)
            exact (hrun s l his hsj hl).trans (Nat.not_lt.mp hshorter)
        · rw [if_neg hzero]
          refine ih (by omega) (h.skip (Nat.lt_succ_self i) fun s l his hsi hl ↦ ?_)
          obtain rfl : s = i := by omega
          exact (hl.eq_zero hzero).le.trans (Nat.zero_le bestLen)
      · rw [if_neg hi]
        exact ⟨bestStart, bestLen, i, rfl, Nat.not_lt.mp hi, h⟩

/-- Where the search ends it knows all runs. -/
theorem Searched.compressedRun (h : Searched words i bestStart bestLen) (hlength : words.length = 8)
    (hi : 8 ≤ i) (htwo : 2 ≤ bestLen) :
    ∃ s : Nat, bestStart = s ∧ CompressedRun words s bestLen := by
  obtain ⟨s, hs, -, hzero, hleft⟩ := h.best (by omega)
  refine ⟨s, hs, hzero, htwo, fun s' l hl ↦ ?_, hleft⟩
  by_cases hs' : s' < i
  · exact h.bound s' l hs' hl
  · have := hl.1
    omega

theorem Searched.no_run (h : Searched words i bestStart bestLen) (hlength : words.length = 8)
    (hi : 8 ≤ i) (hshort : bestLen < 2) (s l : Nat) : ¬ CompressedRun words s l := by
  intro hrun
  have hinside := hrun.run.1
  have htwo := hrun.two
  have hbound := h.bound s l (by omega) hrun.run
  omega

end Search

/-! ## The text -/

section Printing

variable {words : List UInt16} {i turns : Nat}

/-- The UART prints a group as four digits. -/
theorem uartPrintHex16_eq (w : UInt16) : uartPrintHex16 w = fourDigits w := by
  have hdigit : ∀ d < 16, (text "0123456789abcdef").getD d 0 = hexChar d := by decide +kernel
  have hnibble : ∀ k : UInt16, k.toNat < 16 →
      ((w >>> k) &&& 0xF).toNat = w.toNat / 2 ^ k.toNat % 16 := by
    intro k hk
    rw [UInt16.toNat_and, UInt16.toNat_shiftRight, Nat.mod_eq_of_lt hk, Nat.shiftRight_eq_div_pow]
    exact Nat.and_two_pow_sub_one_eq_mod _ 4
  have hshift (k : UInt16) (hk : k.toNat < 16) :
      (text "0123456789abcdef").getD ((w >>> k) &&& 0xF).toNat 0 =
        hexChar (w.toNat / 2 ^ k.toNat % 16) := by
    rw [hnibble k hk, hdigit _ (Nat.mod_lt _ (by decide))]
  simp only [uartPrintHex16, fourDigits, List.map_cons, List.map_nil, hshift 12 (by decide),
    hshift 8 (by decide), hshift 4 (by decide), hshift 0 (by decide)]
  simp

theorem drop_words (hlength : words.length = 8) (hi : i < 8) :
    words.drop i = words.getD i 0 :: words.drop (i + 1) := by
  have hlt : i < words.length := by omega
  rw [List.drop_eq_getElem_cons hlt, List.getD_eq_getElem _ _ hlt]

/-- Behind the compressed run the groups are printed to the end. -/
theorem printLoop_tail (hlength : words.length = 8) {bestStart : Int} (bestLen : Nat) (hi : i ≤ 8)
    (hturns : 8 - i < turns) (hbehind : bestStart < i) :
    printLoop words bestStart bestLen turns i = some (joined (words.drop i)) := by
  induction turns generalizing i with
  | zero => omega
  | succ turns ih =>
      rw [printLoop]
      by_cases hlt : i < 8
      · rw [if_pos hlt, if_neg (by omega), ih (by omega) (by omega) (by omega), Option.map_some,
          drop_words hlength hlt, uartPrintHex16_eq]
        by_cases hlast : i = 7
        · subst hlast
          rw [if_neg (by omega), List.drop_of_length_le (by omega : words.length ≤ 7 + 1),
            joined_singleton]
          exact congrArg some (by simp [joined])
        · rw [if_pos (by omega), drop_words (i := i + 1) hlength (by omega), joined_cons_cons,
            List.append_assoc, List.singleton_append]
      · obtain rfl : i = 8 := by omega
        rw [if_neg hlt, List.drop_of_length_le hlength.le]
        rfl

/-- Up to the compressed run the groups are printed, then the double colon and what is behind. -/
theorem printLoop_head (hlength : words.length = 8) {start len : Nat} (htwo : 2 ≤ len)
    (hinside : start + len ≤ 8) (hi : i ≤ start) (hturns : 8 - i < turns) :
    printLoop words start len turns i = some (joined ((words.drop i).take (start - i)) ++
      58 :: 58 :: joined (words.drop (start + len))) := by
  induction turns generalizing i with
  | zero => omega
  | succ turns ih =>
      rw [printLoop, if_pos (by omega)]
      by_cases hstart : i = start
      · subst hstart
        have htail : printLoop words i len turns (i + len) = some (joined (words.drop (i + len))) :=
          printLoop_tail hlength len (by omega) (by omega) (by omega)
        have hnext : i + (len - 1) + 1 = i + len := by omega
        rw [if_pos rfl, hnext, htail, Nat.sub_self]
        rfl
      · rw [if_neg (by omega), ih (by omega) (by omega), Option.map_some,
          drop_words (i := i) hlength (by omega), uartPrintHex16_eq]
        by_cases hbefore : i + 1 = start
        · have hone : start - i = 0 + 1 := by omega
          have hnone : start - (i + 1) = 0 := by omega
          rw [if_neg (by omega), hone, hnone, List.take_succ_cons, List.take_zero,
            joined_singleton]
          exact congrArg some (by simp [joined])
        · have hmore : start - i = start - (i + 1 + 1) + 1 + 1 := by omega
          have hmore' : start - (i + 1) = start - (i + 1 + 1) + 1 := by omega
          rw [if_pos (by omega), hmore, hmore', drop_words (i := i + 1) hlength (by omega),
            List.take_succ_cons, List.take_succ_cons, List.take_succ_cons, joined_cons_cons]
          simp

end Printing

/-! ## What the text denotes -/

theorem length_ipv6Words (addr : Ipv6Addr) : (ipv6Words addr).length = 8 := by simp [ipv6Words]

/-- A group is two bytes of the address. -/
theorem bytes_of_word (a b : UInt8) :
    [(((a.toUInt16 <<< 8) ||| b.toUInt16) >>> 8).toUInt8,
      ((a.toUInt16 <<< 8) ||| b.toUInt16).toUInt8] = [a, b] := by
  have ha := a.toNat_lt
  have hb := b.toNat_lt
  have hword : ((a.toUInt16 <<< 8) ||| b.toUInt16).toNat = a.toNat * 256 + b.toNat := by
    simp only [UInt16.toNat_or, UInt16.toNat_shiftLeft, UInt8.toNat_toUInt16, UInt16.reduceToNat,
      Nat.shiftLeft_eq, Nat.reduceMod, Nat.reducePow]
    rw [Nat.mod_eq_of_lt (by omega), or_eq_add 8 (by omega) (by omega)]
  congr 1
  · apply UInt8.toNat_inj.mp
    simp only [UInt16.toNat_toUInt8, UInt16.toNat_shiftRight, hword, UInt16.reduceToNat,
      Nat.shiftRight_eq_div_pow, Nat.reduceMod, Nat.reducePow]
    omega
  · congr 1
    apply UInt8.toNat_inj.mp
    rw [UInt16.toNat_toUInt8, hword]
    omega

/-- Pair by pair a list of even length is itself. -/
theorem flatMap_pairs {bytes : List UInt8} {n : Nat} (h : bytes.length = 2 * n) :
    (List.range n).flatMap (fun i ↦ [bytes.getD (i * 2) 0, bytes.getD (i * 2 + 1) 0]) = bytes := by
  induction n generalizing bytes with
  | zero => exact (List.length_eq_zero_iff.mp h).symm
  | succ n ih =>
      obtain ⟨a, bytes, rfl⟩ := List.exists_cons_of_length_pos (by omega : 0 < bytes.length)
      rw [List.length_cons] at h
      obtain ⟨b, bytes, rfl⟩ := List.exists_cons_of_length_pos (by omega : 0 < bytes.length)
      rw [List.length_cons] at h
      rw [List.range_succ_eq_map, List.flatMap_cons, List.flatMap_map]
      have hshift (i : Nat) : (i + 1) * 2 = i * 2 + 1 + 1 := by omega
      have hrest : bytes.length = 2 * n := by omega
      simp only [Nat.succ_eq_add_one, hshift, List.getD_cons_succ, Nat.zero_mul, Nat.zero_add,
        List.getD_cons_zero, ih hrest]
      rfl

/-- The groups are the address. -/
theorem toBytes_ipv6Words (addr : Ipv6Addr) : toBytes (ipv6Words addr) = addr.bytes := by
  rw [toBytes, ipv6Words, List.flatMap_map]
  simp only [bytes_of_word]
  exact flatMap_pairs addr.length

/-- A list is what is around a run of zeros, with the zeros in between. -/
theorem ZeroRun.eq_append {words : List UInt16} {start len : Nat} (h : ZeroRun words start len) :
    words.take start ++ List.replicate len 0 ++ words.drop (start + len) = words := by
  have hzeros : (words.drop start).take len = List.replicate len 0 := by
    refine List.ext_getElem ?_ fun k hk _ ↦ ?_
    · rw [List.length_take, List.length_drop, List.length_replicate]
      have := h.1
      omega
    · rw [List.length_take] at hk
      have hzero := h.2 k (by omega)
      rw [List.getD_eq_getElem _ _ (by have := h.1; omega)] at hzero
      rw [List.getElem_take, List.getElem_drop, List.getElem_replicate, hzero]
  rw [← hzeros, List.append_assoc, ← List.drop_drop, List.take_append_drop, List.take_append_drop]

/-- The text that `print_ipv6` emits denotes the address. It is the eight groups of four digits with
single colons between them or, where there is a run of at least two zero groups, the groups around
one double colon in the place of the leftmost of the longest such runs. -/
theorem printIpv6_denotes (addr : Ipv6Addr) :
    ∃ out, printIpv6 addr = some out ∧ parse out = some addr.bytes ∧
      ((∃ start len, CompressedRun (ipv6Words addr) start len ∧
          out = joined ((ipv6Words addr).take start) ++ text "::" ++
            joined ((ipv6Words addr).drop (start + len))) ∨
        ((∀ start len, ¬ CompressedRun (ipv6Words addr) start len) ∧
          out = joined (ipv6Words addr))) := by
  have hlength := length_ipv6Words addr
  have hbytes := toBytes_ipv6Words addr
  have hstart : Searched (ipv6Words addr) 0 (-1) 0 :=
    ⟨fun _ _ hs ↦ absurd hs (Nat.not_lt_zero _), fun h ↦ absurd h (Nat.lt_irrefl 0)⟩
  have hturns : 8 - 0 < 9 := by decide
  obtain ⟨bestStart, bestLen, i, hsearch, hi, hall⟩ := searchLoop_spec hlength hturns hstart
  have hprint : printIpv6 addr =
      printLoop (ipv6Words addr) (if bestLen < 2 then -1 else bestStart) bestLen 9 0 := by
    rw [printIpv6, hsearch]
    rfl
  rw [hprint]
  by_cases hshort : bestLen < 2
  · refine ⟨joined (ipv6Words addr), ?_, ?_, .inr ⟨hall.no_run hlength hi hshort, rfl⟩⟩
    · rw [if_pos hshort]
      exact printLoop_tail hlength bestLen (by omega) (by omega) (by omega)
    · rw [parse_joined hlength, hbytes]
  · obtain ⟨start, rfl, hrun⟩ := hall.compressedRun hlength hi (Nat.not_lt.mp hshort)
    have hinside : start + bestLen ≤ 8 := hlength ▸ hrun.run.1
    have hhigh : ((ipv6Words addr).take start).length = start := by
      rw [List.length_take]
      omega
    have hlow : ((ipv6Words addr).drop (start + bestLen)).length = 8 - (start + bestLen) := by
      rw [List.length_drop, hlength]
    refine ⟨_, ?_, ?_, .inl ⟨start, bestLen, hrun, rfl⟩⟩
    · rw [if_neg hshort, printLoop_head hlength hrun.two hinside (by omega) (by omega)]
      simp [text]
    · have hmissing : 8 - start - (8 - (start + bestLen)) = bestLen := by omega
      have htext : text "::" = [58, 58] := by decide
      have htwo := hrun.two
      rw [htext, List.append_assoc, List.cons_append, List.singleton_append,
        parse_joined_double (by omega), hhigh, hlow, hmissing, hrun.run.eq_append, hbytes]

end Aether.Ethernet
