import Mathlib.Algebra.Group.Nat.Defs
import Mathlib.Data.List.Basic

/-!
# ASCII text

Text as bytes, strings with a terminator, the canonical decimal of a number, and the number that a
string of digits stands for.
-/

namespace Ascii

/-- The characters of a string. -/
def text (s : String) : List UInt8 := s.toList.map fun c ↦ UInt8.ofNat c.toNat

/-- The ASCII digit for `d`. -/
def digit (d : Nat) : UInt8 := UInt8.ofNat (48 + d)

/-- The byte is an ASCII digit. -/
def IsDigit (b : UInt8) : Prop := 48 ≤ b ∧ b ≤ 57

instance instDecidableIsDigit (b : UInt8) : Decidable (IsDigit b) :=
  inferInstanceAs (Decidable (_ ∧ _))

/-- The canonical decimal of a number. -/
def decimal (n : Nat) : List UInt8 := (Nat.toDigits 10 n).map fun c ↦ UInt8.ofNat c.toNat

/-- The number that a string of digits stands for. -/
def number (digits : List UInt8) : Nat := digits.foldl (fun v b ↦ 10 * v + (b.toNat - 48)) 0

/-- The value of a hexadecimal digit. -/
def hexDigit (c : UInt8) : Option Nat :=
  if 48 ≤ c ∧ c ≤ 57 then some (c.toNat - 48)
  else if 97 ≤ c ∧ c ≤ 102 then some (c.toNat - 87)
  else if 65 ≤ c ∧ c ≤ 70 then some (c.toNat - 55)
  else none

/-! ## C strings -/

/-- The characters of a C string, without the terminator. -/
structure CString where
  chars : List UInt8
  nonzero : 0 ∉ chars
  deriving DecidableEq

/-- The byte at an index, with what is in memory behind the terminator. -/
def CString.at (s : CString) (behind : Nat → UInt8) (i : Nat) : UInt8 :=
  (s.chars ++ [0]).getD i (behind i)

/-- A string constant. -/
def CString.of (s : String) (h : 0 ∉ text s) : CString := ⟨text s, h⟩

/-- The string at the start of an array. -/
def CString.ofBytes (bs : List UInt8) : CString where
  chars := bs.takeWhile (· ≠ 0)
  nonzero h := absurd (List.all_eq_true.mp List.all_takeWhile 0 h) (by decide)

theorem CString.chars_ofBytes {bs : List UInt8} (h : 0 ∉ bs) :
    (ofBytes (bs ++ [0])).chars = bs := by
  have hall : ∀ b ∈ bs, decide (b ≠ 0) = true := by
    intro b hb
    exact decide_eq_true fun hzero ↦ h (hzero ▸ hb)
  show (bs ++ [0]).takeWhile (· ≠ 0) = bs
  rw [List.takeWhile_append_of_pos hall]
  exact List.append_nil bs

/-! ## Decimals -/

/-- What holds of the numbers below ten and of a number whenever it holds of its tenth holds of all
numbers. -/
theorem tenths_induction {P : Nat → Prop} (small : ∀ n < 10, P n)
    (step : ∀ n, 10 ≤ n → P (n / 10) → P n) (n : Nat) : P n := by
  by_cases h : n < 10
  · exact small n h
  · exact step n (Nat.not_lt.mp h) (tenths_induction small step (n / 10))
termination_by n
decreasing_by omega

section Digits

variable {d n : Nat}

theorem toNat_digit (h : d < 10) : (digit d).toNat = 48 + d :=
  UInt8.toNat_ofNat_of_lt' (by rw [UInt8.size]; omega)

theorem isDigit_digit (h : d < 10) : IsDigit (digit d) := by
  have hnat := toNat_digit h
  rw [IsDigit, UInt8.le_iff_toNat_le, UInt8.le_iff_toNat_le, hnat]
  simp only [UInt8.reduceToNat]
  omega

theorem ofNat_digitChar (h : d < 10) : UInt8.ofNat d.digitChar.toNat = digit d := by
  revert d
  decide

/-- A number below ten is its own digit. -/
theorem decimal_of_lt (h : n < 10) : decimal n = [digit n] := by
  rw [decimal, Nat.toDigits_of_lt_base h, List.map_singleton, ofNat_digitChar h]

/-- The last digit is the remainder by ten. -/
theorem decimal_of_le (h : 10 ≤ n) : decimal n = decimal (n / 10) ++ [digit (n % 10)] := by
  rw [decimal, Nat.toDigits_of_base_le (by decide) h, List.map_append, List.map_singleton,
    ofNat_digitChar (Nat.mod_lt n (by decide)), decimal]

theorem decimal_ne_nil (n : Nat) : decimal n ≠ [] := by
  rw [decimal, Ne, List.map_eq_nil_iff]
  exact Nat.toDigits_ne_nil

theorem isDigit_of_mem_decimal (n : Nat) : ∀ b ∈ decimal n, IsDigit b := by
  induction n using tenths_induction with
  | small n hn =>
      intro b hb
      rw [decimal_of_lt hn, List.mem_singleton] at hb
      exact hb ▸ isDigit_digit hn
  | step n hn ih =>
      intro b hb
      rw [decimal_of_le hn, List.mem_append, List.mem_singleton] at hb
      rcases hb with hb | rfl
      · exact ih b hb
      · exact isDigit_digit (Nat.mod_lt n (by decide))

theorem zero_notMem_decimal (n : Nat) : 0 ∉ decimal n := fun h ↦
  absurd (isDigit_of_mem_decimal n 0 h) (by decide)

theorem number_concat (digits : List UInt8) (b : UInt8) :
    number (digits ++ [b]) = 10 * number digits + (b.toNat - 48) := by
  simp [number]

/-- Reading a decimal gives the number back. -/
theorem number_decimal (n : Nat) : number (decimal n) = n := by
  induction n using tenths_induction with
  | small n hn => simp [decimal_of_lt hn, number, toNat_digit hn]
  | step n hn ih =>
      rw [decimal_of_le hn, number_concat, ih, toNat_digit (Nat.mod_lt n (by decide))]
      omega

/-- There is no leading zero. -/
theorem head?_decimal (h : n ≠ 0) : (decimal n).head? ≠ some (digit 0) := by
  induction n using tenths_induction with
  | small n hn =>
      rw [decimal_of_lt hn, List.head?_cons, Ne, Option.some.injEq]
      intro hzero
      have := congrArg UInt8.toNat hzero
      rw [toNat_digit hn, toNat_digit (by decide)] at this
      omega
  | step n hn ih =>
      rw [decimal_of_le hn, List.head?_append_of_ne_nil _ (decimal_ne_nil _)]
      exact ih (by omega)

theorem length_decimal_le {k : Nat} (hk : 0 < k) : (decimal n).length ≤ k ↔ n < 10 ^ k := by
  rw [decimal, List.length_map]
  exact Nat.length_toDigits_le_iff (by decide) hk

/-- The digits from the last to the first. -/
theorem reverse_decimal_of_le (h : 10 ≤ n) :
    (decimal n).reverse = digit (n % 10) :: (decimal (n / 10)).reverse := by
  rw [decimal_of_le h, List.reverse_append, List.reverse_singleton, List.singleton_append]

end Digits

end Ascii
