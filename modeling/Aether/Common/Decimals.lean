import Aether.Lib.Ascii
import Aether.Lib.ByteMemory

/-!
# Decimals in `utils.c`

`ltoa`, which fills in the digits of a number from a computed end backwards, and the digit loop that
`str_append_kv_int`, `utoa_dec` and `uart_put_int` have in common, which stores them in a local
array from the last to the first. A store past the end of an array, and a loop that is out of turns,
is `none`.
-/

namespace Aether.Common

open ByteMemory Ascii

/-! ## Digits in a local array -/

/-- The loop `while (value > 0) { buf[i++] = (value % 10) + '0'; value /= 10; }` on an array with
room for `room` more digits: the digits that it stores. -/
def digitLoop : Nat → Nat → Option (List UInt8)
  | 0, value => if value > 0 then none else some []
  | room + 1, value =>
      if value > 0 then (digitLoop room (value / 10)).map (UInt8.ofNat (value % 10 + 48) :: ·)
      else some []

/-- What the loop stores is the decimal from its last digit to its first, if it fits. -/
theorem digitLoop_eq (room : Nat) {value : Nat} (h : 0 < value) :
    digitLoop room value = if value < 10 ^ room then some (decimal value).reverse else none := by
  induction room generalizing value with
  | zero => rw [digitLoop, if_pos h, if_neg (by omega)]
  | succ room ih =>
      have hdigit : UInt8.ofNat (value % 10 + 48) = digit (value % 10) := by
        rw [digit, Nat.add_comm]
      rw [digitLoop, if_pos h, hdigit]
      by_cases hsmall : value < 10
      · have hzero : value / 10 = 0 := Nat.div_eq_of_lt hsmall
        have hdone : digitLoop room 0 = some [] := by cases room <;> rfl
        have hfits : value < 10 ^ (room + 1) :=
          hsmall.trans_le (Nat.le_self_pow (Nat.succ_ne_zero room) 10)
        rw [hzero, hdone, if_pos hfits, decimal_of_lt hsmall, Nat.mod_eq_of_lt hsmall]
        rfl
      · have hten : 10 ≤ value := Nat.not_lt.mp hsmall
        have hfits : value / 10 < 10 ^ room ↔ value < 10 ^ (room + 1) := by
          rw [Nat.pow_succ, Nat.div_lt_iff_lt_mul (by decide)]
        rw [ih (by omega), reverse_decimal_of_le hten]
        by_cases hroom : value < 10 ^ (room + 1)
        · rw [if_pos (hfits.mpr hroom), if_pos hroom, Option.map_some]
        · rw [if_neg (hfits.not.mpr hroom), if_neg hroom, Option.map_none]

/-- The array from its last element to its first, `buf[len - j - 1]` for each `j`. -/
def backwards (buf : List UInt8) : List UInt8 :=
  (List.range buf.length).map fun j ↦ buf.getD (buf.length - j - 1) 0

theorem backwards_eq (buf : List UInt8) : backwards buf = buf.reverse := by
  refine List.ext_getElem (by simp [backwards]) fun i hi hi' ↦ ?_
  rw [backwards, List.length_map, List.length_range] at hi
  simp only [backwards, List.getElem_map, List.getElem_range, List.getElem_reverse]
  rw [List.getD_eq_getElem _ _ (by omega)]
  congr 1
  omega

/-- Stored from the last digit to the first and read backwards, a number is its decimal. -/
theorem digitLoop_backwards {room value : Nat} (hpos : 0 < value) (hfits : value < 10 ^ room) :
    (digitLoop room value).map backwards = some (decimal value) := by
  rw [digitLoop_eq room hpos, if_pos hfits, Option.map_some, backwards_eq, List.reverse_reverse]

/-- `utoa_dec`, with an array of 16 digits. The bytes that it stores at `buf`. -/
def utoaDec (value : UInt32) : Option (List UInt8) :=
  if value = 0 then some [48] else (digitLoop 16 value.toNat).map backwards

theorem toNat_pos_of_ne_zero {value : UInt32} (h : value ≠ 0) : 0 < value.toNat :=
  Nat.pos_of_ne_zero fun hzero ↦ h (UInt32.toNat_inj.mp hzero)

/-- `utoa_dec` stores the decimal. -/
theorem utoaDec_eq (value : UInt32) : utoaDec value = some (decimal value.toNat) := by
  rw [utoaDec]
  by_cases hzero : value = 0
  · rw [if_pos hzero, hzero]
    rfl
  · rw [if_neg hzero]
    exact digitLoop_backwards (toNat_pos_of_ne_zero hzero) (value.toNat_lt.trans (by decide))

/-! ## `ltoa` -/

/-- The first loop of `ltoa`, which finds where the digits end. -/
def ltoaEnd : Nat → UInt64 → Nat → Option Nat
  | 0, _, _ => none
  | turns + 1, tmp, p =>
      let p := p + 1
      let tmp := tmp / 10
      if tmp ≠ 0 then ltoaEnd turns tmp p else some p

/-- The second loop of `ltoa`, which stores the digits backwards. -/
def ltoaFill : Nat → UInt64 → Nat → Memory → Option Memory
  | 0, _, _, _ => none
  | turns + 1, num, p, m =>
      let m := writeBytes m p [(num % 10 + 48).toUInt8]
      let p := p - 1
      let num := num / 10
      if num ≠ 0 then ltoaFill turns num p m else some m

/-- `ltoa`: where the terminator is, and the memory. A number of 64 bits has at most 20 digits. -/
def ltoa (num : UInt64) (str : Nat) (m : Memory) : Option (Nat × Memory) := do
  let p ← ltoaEnd 20 num str
  let m := writeBytes m p [0]
  let m ← ltoaFill 20 num (p - 1) m
  pure (p, m)

section Ltoa

variable {num : UInt64} {turns : Nat}

theorem toNat_div_ten (num : UInt64) : (num / 10).toNat = num.toNat / 10 := by
  rw [UInt64.toNat_div]
  rfl

/-- The loops go on as long as there are digits left. -/
theorem div_ten_eq_zero (num : UInt64) : num / 10 = 0 ↔ num.toNat < 10 := by
  rw [← UInt64.toNat_inj, toNat_div_ten]
  show num.toNat / 10 = 0 ↔ _
  omega

theorem lastDigit_eq (num : UInt64) : (num % 10 + 48).toUInt8 = digit (num.toNat % 10) := by
  apply UInt8.toNat_inj.mp
  rw [toNat_digit (Nat.mod_lt _ (by decide)), UInt64.toNat_toUInt8, UInt64.toNat_add,
    UInt64.toNat_mod]
  simp only [UInt64.reduceToNat]
  omega

/-- The first loop counts the digits. -/
theorem ltoaEnd_eq (h : (decimal num.toNat).length ≤ turns) (p : Nat) :
    ltoaEnd turns num p = some (p + (decimal num.toNat).length) := by
  induction turns generalizing num p with
  | zero => exact absurd (List.length_eq_zero_iff.mp (Nat.le_zero.mp h)) (decimal_ne_nil _)
  | succ turns ih =>
      rw [ltoaEnd]
      by_cases hsmall : num.toNat < 10
      · rw [if_neg (not_not.mpr ((div_ten_eq_zero num).mpr hsmall)), decimal_of_lt hsmall]
        rfl
      · have hlength : (decimal num.toNat).length = (decimal (num / 10).toNat).length + 1 := by
          rw [decimal_of_le (Nat.not_lt.mp hsmall), toNat_div_ten, List.length_append,
            List.length_singleton]
        rw [if_pos ((div_ten_eq_zero num).not.mpr hsmall), ih (by omega), hlength]
        congr 1
        omega

/-- The second loop stores the decimal, its last digit first. -/
theorem ltoaFill_eq (h : (decimal num.toNat).length ≤ turns) (str : Nat) (m : Memory) :
    ltoaFill turns num (str + (decimal num.toNat).length - 1) m =
      some (writeBytes m str (decimal num.toNat)) := by
  induction turns generalizing num m with
  | zero => exact absurd (List.length_eq_zero_iff.mp (Nat.le_zero.mp h)) (decimal_ne_nil _)
  | succ turns ih =>
      rw [ltoaFill, lastDigit_eq]
      by_cases hsmall : num.toNat < 10
      · rw [if_neg (not_not.mpr ((div_ten_eq_zero num).mpr hsmall)), decimal_of_lt hsmall,
          Nat.mod_eq_of_lt hsmall]
        rfl
      · have hsplit : decimal num.toNat =
            decimal (num / 10).toNat ++ [digit (num.toNat % 10)] := by
          rw [decimal_of_le (Nat.not_lt.mp hsmall), toNat_div_ten]
        have hlength : (decimal num.toNat).length = (decimal (num / 10).toNat).length + 1 := by
          rw [hsplit, List.length_append, List.length_singleton]
        have hpos := List.length_pos_of_ne_nil (decimal_ne_nil (num / 10).toNat)
        rw [if_pos ((div_ten_eq_zero num).not.mpr hsmall), hlength, Nat.add_sub_assoc (by omega),
          Nat.add_sub_cancel, ih (by omega), writeBytes_comm _ (.inr le_rfl), writeBytes_append,
          ← hsplit]

/-- `ltoa` stores the decimal and a terminator, and returns where that is. -/
theorem ltoa_eq (num : UInt64) (str : Nat) (m : Memory) :
    ltoa num str m = some (str + (decimal num.toNat).length,
      writeBytes m str (decimal num.toNat ++ [0])) := by
  have hlength : (decimal num.toNat).length ≤ 20 :=
    (length_decimal_le (by decide)).mpr (num.toNat_lt.trans (by decide))
  rw [ltoa, ltoaEnd_eq hlength, Option.bind_eq_bind, Option.bind_some]
  dsimp only
  rw [ltoaFill_eq hlength, Option.bind_eq_bind, Option.bind_some,
    writeBytes_comm _ (.inr le_rfl), writeBytes_append]
  rfl

end Ltoa

end Aether.Common
