import Aether.Lib.ByteMemory
import Mathlib.Algebra.BigOperators.Group.List.Basic
import Mathlib.Data.Nat.ModEq
import Mathlib.Tactic.Ring

/-!
# One's complement sums of 16-bit words

The addition that Internet checksums are defined with: a carry out of bit 15 is added back in at
bit 0. A sum of any number of words is their ordinary sum reduced modulo `65535` to the range
`1..65535`, or zero when every word is zero. Exchanging the two bytes of each word multiplies the
sum by 256.
-/

namespace OnesComplement

open ByteMemory

/-- Addition of 16-bit words with end-around carry. -/
def onesAdd (a b : Nat) : Nat := if a + b < 65536 then a + b else a + b - 65535

/-- The one's complement sum of a list of words. -/
def onesSum (ws : List Nat) : Nat := ws.foldl onesAdd 0

/-- The representative of `n` modulo `65535` that a one's complement sum takes. -/
def norm (n : Nat) : Nat := if n = 0 then 0 else (n - 1) % 65535 + 1

/-- The words of a byte string, most significant byte first, the last one padded with a zero
byte. -/
def beWords : List UInt8 → List Nat
  | [] => []
  | [a] => [256 * a.toNat]
  | a :: b :: rest => (256 * a.toNat + b.toNat) :: beWords rest

/-- The words of a byte string, least significant byte first, the last one padded with a zero
byte. -/
def leWords : List UInt8 → List Nat
  | [] => []
  | [a] => [a.toNat]
  | a :: b :: rest => (a.toNat + 256 * b.toNat) :: leWords rest

/-! ## Sums -/

theorem norm_of_le {n : Nat} (h : n ≤ 65535) : norm n = n := by
  rw [norm]
  split <;> omega

theorem norm_le (n : Nat) : norm n ≤ 65535 := by
  rw [norm]
  split <;> omega

/-- Adding a word keeps the sum normalised. -/
theorem onesAdd_norm (n : Nat) {w : Nat} (hw : w ≤ 65535) :
    onesAdd (norm n) w = norm (n + w) := by
  simp only [onesAdd, norm]
  split <;> split <;> split <;> omega

/-- The one's complement sum is the normalised ordinary sum. -/
theorem onesSum_eq {ws : List Nat} (h : ∀ w ∈ ws, w ≤ 65535) : onesSum ws = norm ws.sum := by
  have hfold : ∀ n, ws.foldl onesAdd (norm n) = norm (n + ws.sum) := by
    induction ws with
    | nil => simp
    | cons w ws ih =>
        intro n
        rw [List.foldl_cons, onesAdd_norm n (h w List.mem_cons_self),
          ih fun v hv ↦ h v (List.mem_cons_of_mem w hv), List.sum_cons, Nat.add_assoc]
  have h := hfold 0
  rwa [norm_of_le (Nat.zero_le _), Nat.zero_add] at h

/-- Normalisation keeps the residue. -/
theorem norm_modEq (n : Nat) : norm n ≡ n [MOD 65535] := by
  rw [norm, Nat.ModEq]
  split <;> omega

/-- Adding the complement of a sum to it gives all ones. -/
theorem dvd_add_complement (n : Nat) : 65535 ∣ n + (65535 - norm n) := by
  have hle := norm_le n
  have hmod := norm_modEq n
  rw [Nat.ModEq] at hmod
  omega

/-- A sum is all ones exactly when it is a positive multiple of `65535`. -/
theorem norm_eq_max {n : Nat} : norm n = 65535 ↔ n ≠ 0 ∧ 65535 ∣ n := by
  rw [norm]
  split <;> omega

/-- Folding the high half of a number into the low one keeps its normalised value. -/
theorem norm_fold (n : Nat) : norm (n % 65536 + n / 65536) = norm n := by
  simp only [norm]
  split <;> split <;> omega

/-! ## Exchanging bytes -/

/-- A 16-bit word with its bytes exchanged. -/
def swapBytes (n : Nat) : Nat := n % 256 * 256 + n / 256

/-- Complementing and exchanging bytes commute. -/
theorem swapBytes_complement {n : Nat} (h : n ≤ 65535) :
    swapBytes (65535 - n) = 65535 - swapBytes n := by
  unfold swapBytes
  omega

/-- The one's complement sum of words with exchanged bytes is the sum with exchanged bytes. -/
theorem norm_swap {m n : Nat} (hmod : m ≡ 256 * n [MOD 65535]) (hzero : m = 0 ↔ n = 0) :
    norm m = swapBytes (norm n) := by
  have hle := norm_le n
  have hm := (norm_modEq m).trans hmod
  have hn := norm_modEq n
  have hpos : norm m = 0 ↔ norm n = 0 := by
    unfold norm
    split <;> split <;> omega
  have hle' := norm_le m
  unfold swapBytes
  unfold Nat.ModEq at hm hn
  omega

/-- Two 16-bit words have the same residue only when they are equal or the two zeros of one's
complement arithmetic. -/
theorem word_modEq_iff {v w : Nat} (hv : v ≤ 65535) (hw : w ≤ 65535) :
    v ≡ w [MOD 65535] ↔ v = w ∨ v = 0 ∧ w = 65535 ∨ v = 65535 ∧ w = 0 := by
  unfold Nat.ModEq
  omega

/-! ## Words of byte strings -/

theorem beWords_le {bs : List UInt8} : ∀ w ∈ beWords bs, w ≤ 65535 := by
  fun_induction beWords bs with
  | case1 => simp
  | case2 a =>
      have := a.toNat_lt
      simp
      omega
  | case3 a b rest ih =>
      have := a.toNat_lt
      have := b.toNat_lt
      simp only [List.mem_cons, forall_eq_or_imp]
      exact ⟨by omega, ih⟩

/-- The words of a string whose first part has even length are those of the parts. -/
theorem beWords_append {xs : List UInt8} (h : 2 ∣ xs.length) (ys : List UInt8) :
    beWords (xs ++ ys) = beWords xs ++ beWords ys := by
  fun_induction beWords xs with
  | case1 => rfl
  | case2 a => simp at h
  | case3 a b rest ih =>
      rw [List.cons_append, List.cons_append, beWords, ih, List.cons_append]
      simp only [List.length_cons] at h
      omega

theorem leWords_append {xs : List UInt8} (h : 2 ∣ xs.length) (ys : List UInt8) :
    leWords (xs ++ ys) = leWords xs ++ leWords ys := by
  fun_induction leWords xs with
  | case1 => rfl
  | case2 a => simp at h
  | case3 a b rest ih =>
      rw [List.cons_append, List.cons_append, leWords, ih, List.cons_append]
      simp only [List.length_cons] at h
      omega

/-- A stored 16-bit word is one little-endian word. -/
theorem leWords_leBytes {w : Nat} (hw : w < 65536) : leWords (leBytes 2 w) = [w] := by
  have hlow : (UInt8.ofNat w).toNat = w % 256 := UInt8.toNat_ofNat'
  have hhigh : (UInt8.ofNat (w / 256)).toNat = w / 256 :=
    UInt8.toNat_ofNat_of_lt' (by rw [UInt8.size]; omega)
  simp only [leBytes, leWords, hlow, hhigh]
  congr 1
  omega

/-- Exchanging the bytes of every word multiplies the sum by 256. -/
theorem leWords_modEq (bs : List UInt8) :
    (leWords bs).sum ≡ 256 * (beWords bs).sum [MOD 65535] := by
  fun_induction beWords bs with
  | case1 => rfl
  | case2 a =>
      simp only [leWords, List.sum_cons, List.sum_nil, Nat.add_zero, Nat.ModEq]
      omega
  | case3 a b rest ih =>
      simp only [leWords, List.sum_cons, Nat.mul_add, Nat.ModEq] at *
      omega

/-- Both sums are zero when all bytes are. -/
theorem sum_leWords_eq_zero_iff (bs : List UInt8) :
    (leWords bs).sum = 0 ↔ (beWords bs).sum = 0 := by
  fun_induction beWords bs with
  | case1 => exact .rfl
  | case2 a =>
      simp only [leWords, List.sum_cons, List.sum_nil]
      omega
  | case3 a b rest ih =>
      simp only [leWords, List.sum_cons]
      omega

/-- A sum of 16-bit words is bounded by their number. -/
theorem sum_leWords_le (bs : List UInt8) : (leWords bs).sum ≤ 65535 * ((bs.length + 1) / 2) := by
  fun_induction leWords bs with
  | case1 => simp
  | case2 a =>
      have := a.toNat_lt
      simp
      omega
  | case3 a b rest ih =>
      have := a.toNat_lt
      have := b.toNat_lt
      simp only [List.sum_cons, List.length_cons] at *
      omega

theorem sum_beWords_le (bs : List UInt8) : (beWords bs).sum ≤ 65535 * ((bs.length + 1) / 2) := by
  fun_induction beWords bs with
  | case1 => simp
  | case2 a =>
      have := a.toNat_lt
      simp
      omega
  | case3 a b rest ih =>
      have := a.toNat_lt
      have := b.toNat_lt
      simp only [List.sum_cons, List.length_cons] at *
      omega

end OnesComplement
