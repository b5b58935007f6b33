import Aether.Common.Decimals

/-!
# The UART

What the printing functions of `uart.c` put into the data register, byte by byte.
-/

namespace Aether.Drivers

open Ascii Common

/-- `uart_puts`. A carriage return goes before each line feed. -/
def uartPuts (str : List UInt8) : List UInt8 := str.flatMap fun c ↦ if c = 10 then [13, c] else [c]

/-- `uart_put_int`, with an array of 12 digits. A store past its end is `none`. -/
def uartPutInt (n : UInt32) : Option (List UInt8) :=
  if n = 0 then some [48] else (digitLoop 12 n.toNat).map backwards

/-- `uart_print_hex16`. -/
def uartPrintHex16 (val : UInt16) : List UInt8 :=
  ([12, 8, 4, 0] : List UInt16).map fun i ↦
    (text "0123456789abcdef").getD ((val >>> i) &&& 0xF).toNat 0

/-- `uart_put_hex_byte`. -/
def uartPutHexByte (byte : UInt8) : List UInt8 :=
  [(byte >>> 4) &&& 0xF, byte &&& 0xF].map fun d ↦ (text "0123456789ABCDEF").getD d.toNat 0

/-- `uart_put_hex`. -/
def uartPutHex (n : UInt64) : List UInt8 :=
  uartPuts (text "0x") ++
    ([60, 56, 52, 48, 44, 40, 36, 32, 28, 24, 20, 16, 12, 8, 4, 0] : List UInt64).map fun i ↦
      (text "0123456789ABCDEF").getD ((n >>> i) &&& 0xF).toNat 0

/-- `uart_print_ip`. -/
def uartPrintIp (ip : UInt32) : Option (List UInt8) := do
  let a ← uartPutInt ((ip >>> 24) &&& 0xFF)
  let b ← uartPutInt ((ip >>> 16) &&& 0xFF)
  let c ← uartPutInt ((ip >>> 8) &&& 0xFF)
  let d ← uartPutInt (ip &&& 0xFF)
  pure (a ++ [46] ++ b ++ [46] ++ c ++ [46] ++ d)

/-- `uart_put_int` prints the decimal of its argument. -/
theorem uartPutInt_eq (n : UInt32) : uartPutInt n = some (decimal n.toNat) := by
  rw [uartPutInt]
  by_cases hzero : n = 0
  · rw [if_pos hzero, hzero]
    rfl
  · rw [if_neg hzero]
    exact digitLoop_backwards (toNat_pos_of_ne_zero hzero) (n.toNat_lt.trans (by decide))

@[simp] theorem length_uartPutHex (n : UInt64) : (uartPutHex n).length = 18 := rfl

/-- A number is the one with its sixteen hexadecimal digits. -/
theorem eq_of_nibbles {n m : UInt64}
    (h : ∀ k < 16, n.toNat / 16 ^ k % 16 = m.toNat / 16 ^ k % 16) : n = m := by
  have hlow : ∀ k ≤ 16, n.toNat % 16 ^ k = m.toNat % 16 ^ k := by
    intro k
    induction k with
    | zero => simp [Nat.mod_one]
    | succ k ih =>
        intro hk
        rw [Nat.mod_pow_succ, Nat.mod_pow_succ, ih (Nat.le_of_succ_le hk), h k hk]
  have hn := n.toNat_lt
  have hm := m.toNat_lt
  have hall := hlow 16 le_rfl
  rw [Nat.mod_eq_of_lt (by omega), Nat.mod_eq_of_lt (by omega)] at hall
  exact UInt64.toNat_inj.mp hall

/-- The digits of two numbers are different unless the numbers are the same. -/
theorem uartPutHex_injective : Function.Injective uartPutHex := by
  intro n m h
  have htable : ∀ d < 16, ∀ e < 16, (text "0123456789ABCDEF").getD d 0 =
      (text "0123456789ABCDEF").getD e 0 → d = e := by
    decide +kernel
  have hnibble : ∀ (w : UInt64), ∀ k < 16,
      ((w >>> UInt64.ofNat (4 * k)) &&& 0xF).toNat = w.toNat / 16 ^ k % 16 := by
    intro w k hk
    have hshift : (UInt64.ofNat (4 * k)).toNat = 4 * k :=
      UInt64.toNat_ofNat_of_lt' (by rw [UInt64.size]; omega)
    rw [UInt64.toNat_and, UInt64.toNat_shiftRight, hshift, Nat.mod_eq_of_lt (by omega),
      Nat.shiftRight_eq_div_pow, Nat.pow_mul]
    exact Nat.and_two_pow_sub_one_eq_mod _ 4
  have hdigits := List.map_inj_left.mp (List.append_cancel_left h)
  refine eq_of_nibbles fun k hk ↦ ?_
  have hmem : UInt64.ofNat (4 * k) ∈
      ([60, 56, 52, 48, 44, 40, 36, 32, 28, 24, 20, 16, 12, 8, 4, 0] : List UInt64) := by
    revert k
    decide
  have hdigit := hdigits _ hmem
  rw [hnibble n k hk, hnibble m k hk] at hdigit
  exact htable _ (Nat.mod_lt _ (by decide)) _ (Nat.mod_lt _ (by decide)) hdigit

end Aether.Drivers
