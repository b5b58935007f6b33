import Aether.Lib.ByteMemory
import Mathlib.Data.Nat.Bitwise

/-!
# Byte-order conversion

`htons`, `htonl` and their inverses from `common/utils.c`. The machine is little-endian, so a
converted value stored natively appears in memory in network order: `leBytes_htons` and
`leBytes_htonl` say this for stores, `toNat_htons_leNat` and `toNat_htonl_leNat` for loads.
-/

namespace Aether.Common

open ByteMemory

/-- `htons`; also `ntohs`, its inverse, and `__builtin_bswap16`. -/
def htons (x : UInt16) : UInt16 := ((x &&& 0x00FF) <<< 8) ||| ((x &&& 0xFF00) >>> 8)

/-- `ntohs`. -/
def ntohs (x : UInt16) : UInt16 := htons x

/-- `htonl`; also `ntohl`, its inverse, and `__builtin_bswap32`. -/
def htonl (x : UInt32) : UInt32 :=
  ((x &&& 0x000000FF) <<< 24) ||| ((x &&& 0x0000FF00) <<< 8) |||
    ((x &&& 0x00FF0000) >>> 8) ||| ((x &&& 0xFF000000) >>> 24)

/-- `ntohl`. -/
def ntohl (x : UInt32) : UInt32 := htonl x

/-! ## What the masks and shifts compute -/

/-- Masking with `n` ones from bit `i` up keeps those bits in place. -/
theorem and_mask (x i n : Nat) : x &&& ((2 ^ n - 1) <<< i) = x / 2 ^ i % 2 ^ n * 2 ^ i := by
  apply Nat.eq_of_testBit_eq
  intro j
  rw [← Nat.shiftLeft_eq (x / 2 ^ i % 2 ^ n) i, ← Nat.shiftRight_eq_div_pow]
  simp only [Nat.testBit_and, Nat.testBit_shiftLeft, Nat.testBit_two_pow_sub_one,
    Nat.testBit_mod_two_pow, Nat.testBit_shiftRight]
  by_cases h : i ≤ j
  · simp [h, Bool.and_comm]
  · simp [h]

/-- Numbers without a common bit are joined by addition. -/
theorem or_eq_add {a b : Nat} (i : Nat) (ha : 2 ^ i ∣ a) (hb : b < 2 ^ i) : a ||| b = a + b := by
  obtain ⟨c, rfl⟩ := ha
  exact (Nat.two_pow_add_eq_or_of_lt hb c).symm

/-- `htons` exchanges the two bytes. -/
theorem toNat_htons (x : UInt16) : (htons x).toNat = x.toNat % 256 * 256 + x.toNat / 256 := by
  have hx := x.toNat_lt
  have hlow : x.toNat &&& 255 = x.toNat % 256 := by simpa using and_mask x.toNat 0 8
  have hhigh : x.toNat &&& 65280 = x.toNat / 256 * 256 := by
    rw [show 65280 = (2 ^ 8 - 1) <<< 8 by rfl, and_mask]
    omega
  simp only [htons, UInt16.toNat_or, UInt16.toNat_shiftLeft, UInt16.toNat_shiftRight,
    UInt16.toNat_and, UInt16.reduceToNat, hlow, hhigh, Nat.shiftLeft_eq,
    Nat.shiftRight_eq_div_pow, Nat.reduceMod, Nat.reducePow]
  rw [or_eq_add 8 (by omega) (by omega)]
  omega

/-- Four bytes at their places in a word are joined by addition. -/
theorem or_bytes {a b c d : Nat} (hb : b < 2 ^ 8) (hc : c < 2 ^ 8) (hd : d < 2 ^ 8) :
    a * 2 ^ 24 ||| b * 2 ^ 16 ||| c * 2 ^ 8 ||| d =
      a * 2 ^ 24 + b * 2 ^ 16 + c * 2 ^ 8 + d := by
  have hab : a * 2 ^ 24 ||| b * 2 ^ 16 = a * 2 ^ 24 + b * 2 ^ 16 :=
    or_eq_add 24 (by omega) (by omega)
  have habc : a * 2 ^ 24 + b * 2 ^ 16 ||| c * 2 ^ 8 = a * 2 ^ 24 + b * 2 ^ 16 + c * 2 ^ 8 :=
    or_eq_add 16 (by omega) (by omega)
  rw [hab, habc]
  exact or_eq_add 8 (by omega) (by omega)

/-- `htonl` reverses the four bytes. -/
theorem toNat_htonl (x : UInt32) :
    (htonl x).toNat = x.toNat % 2 ^ 8 * 2 ^ 24 + x.toNat / 2 ^ 8 % 2 ^ 8 * 2 ^ 16 +
      x.toNat / 2 ^ 16 % 2 ^ 8 * 2 ^ 8 + x.toNat / 2 ^ 24 := by
  have hx := x.toNat_lt
  have h0 : (x.toNat &&& 255) <<< 24 % 2 ^ 32 = x.toNat % 2 ^ 8 * 2 ^ 24 := by
    rw [show 255 = (2 ^ 8 - 1) <<< 0 by rfl, and_mask, Nat.shiftLeft_eq]
    omega
  have h1 : (x.toNat &&& 65280) <<< 8 % 2 ^ 32 = x.toNat / 2 ^ 8 % 2 ^ 8 * 2 ^ 16 := by
    rw [show 65280 = (2 ^ 8 - 1) <<< 8 by rfl, and_mask, Nat.shiftLeft_eq]
    omega
  have h2 : (x.toNat &&& 16711680) >>> 8 = x.toNat / 2 ^ 16 % 2 ^ 8 * 2 ^ 8 := by
    rw [show 16711680 = (2 ^ 8 - 1) <<< 16 by rfl, and_mask, Nat.shiftRight_eq_div_pow]
    omega
  have h3 : (x.toNat &&& 4278190080) >>> 24 = x.toNat / 2 ^ 24 := by
    rw [show 4278190080 = (2 ^ 8 - 1) <<< 24 by rfl, and_mask, Nat.shiftRight_eq_div_pow]
    omega
  simp only [htonl, UInt32.toNat_or, UInt32.toNat_shiftLeft, UInt32.toNat_shiftRight,
    UInt32.toNat_and, UInt32.reduceToNat, Nat.reduceMod]
  rw [h0, h1, h2, h3]
  exact or_bytes (by omega) (by omega) (by omega)

/-! ## Network order in memory -/

/-- A 16-bit value loaded natively and converted is the number its bytes denote in network
order. -/
theorem toNat_htons_leNat {bs : List UInt8} (h : bs.length = 2) :
    (htons (UInt16.ofNat (leNat bs))).toNat = beNat bs := by
  match bs, h with
  | [a, b], _ =>
      have ha := a.toNat_lt
      have hb := b.toNat_lt
      rw [toNat_htons, UInt16.toNat_ofNat']
      simp only [leNat, beNat, List.reverse_cons, List.reverse_nil, List.nil_append,
        List.cons_append]
      omega

/-- A 32-bit value loaded natively and converted is the number its bytes denote in network
order. -/
theorem toNat_htonl_leNat {bs : List UInt8} (h : bs.length = 4) :
    (htonl (UInt32.ofNat (leNat bs))).toNat = beNat bs := by
  match bs, h with
  | [a, b, c, d], _ =>
      have ha := a.toNat_lt
      have hb := b.toNat_lt
      have hc := c.toNat_lt
      have hd := d.toNat_lt
      have hword : leNat [a, b, c, d] % 2 ^ 32 =
          a.toNat + 2 ^ 8 * b.toNat + 2 ^ 16 * c.toNat + 2 ^ 24 * d.toNat := by
        simp only [leNat]
        omega
      have h1 : (leNat [a, b, c, d] % 2 ^ 32) / 2 ^ 8 % 2 ^ 8 = b.toNat := by omega
      have h2 : (leNat [a, b, c, d] % 2 ^ 32) / 2 ^ 16 % 2 ^ 8 = c.toNat := by omega
      have h3 : (leNat [a, b, c, d] % 2 ^ 32) / 2 ^ 24 = d.toNat := by omega
      rw [toNat_htonl, UInt32.toNat_ofNat', h1, h2, h3, hword]
      simp only [beNat, leNat, List.reverse_cons, List.reverse_nil, List.nil_append,
        List.cons_append]
      omega

/-- A 16-bit value is the one its two bytes denote. -/
theorem ofNat_leNat_leBytes_two (x : UInt16) : UInt16.ofNat (leNat (leBytes 2 x.toNat)) = x := by
  rw [leNat_leBytes, show 256 ^ 2 = 2 ^ 16 by rfl, Nat.mod_eq_of_lt x.toNat_lt]
  exact UInt16.ofNat_toNat

/-- A 32-bit value is the one its four bytes denote. -/
theorem ofNat_leNat_leBytes_four (x : UInt32) : UInt32.ofNat (leNat (leBytes 4 x.toNat)) = x := by
  rw [leNat_leBytes, show 256 ^ 4 = 2 ^ 32 by rfl, Nat.mod_eq_of_lt x.toNat_lt]
  exact UInt32.ofNat_toNat

/-- Stored natively, a converted 16-bit value appears most significant byte first. -/
theorem leBytes_htons (x : UInt16) : leBytes 2 (htons x).toNat = beBytes 2 x.toNat := by
  have h := toNat_htons_leNat (length_leBytes 2 x.toNat)
  rw [ofNat_leNat_leBytes_two] at h
  rw [h, beNat]
  exact leBytes_leNat (leBytes 2 x.toNat).reverse

/-- Stored natively, a converted 32-bit value appears most significant byte first. -/
theorem leBytes_htonl (x : UInt32) : leBytes 4 (htonl x).toNat = beBytes 4 x.toNat := by
  have h := toNat_htonl_leNat (length_leBytes 4 x.toNat)
  rw [ofNat_leNat_leBytes_four] at h
  rw [h, beNat]
  exact leBytes_leNat (leBytes 4 x.toNat).reverse

/-- `ntohs` inverts `htons`. -/
@[simp] theorem ntohs_htons (x : UInt16) : ntohs (htons x) = x := by
  apply UInt16.toNat_inj.mp
  have h := toNat_htons_leNat (length_leBytes 2 (htons x).toNat)
  rw [ofNat_leNat_leBytes_two, leBytes_htons, beNat_beBytes] at h
  rw [ntohs, h]
  exact Nat.mod_eq_of_lt x.toNat_lt

/-- `ntohl` inverts `htonl`. -/
@[simp] theorem ntohl_htonl (x : UInt32) : ntohl (htonl x) = x := by
  apply UInt32.toNat_inj.mp
  have h := toNat_htonl_leNat (length_leBytes 4 (htonl x).toNat)
  rw [ofNat_leNat_leBytes_four, leBytes_htonl, beNat_beBytes] at h
  rw [ntohl, h]
  exact Nat.mod_eq_of_lt x.toNat_lt

end Aether.Common
