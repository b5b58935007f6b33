import Aether.Kernel.Telemetry

/-!
# Keys and values

`str_append` and `str_append_kv_int`, which append a member of a JSON object to a string. The digits
of the value are stored from the last to the first and then reversed in place.
-/

namespace Aether.Kernel

open ByteMemory Ascii Common

/-! ## Appending -/

/-- The loop `while (*str) str++;`, with so many turns left. -/
def strEnd : Nat → Nat → Memory → Option Nat
  | 0, _, _ => none
  | turns + 1, str, m => if m str ≠ 0 then strEnd turns (str + 1) m else some str

/-- `str_append`. No string for `data` is `NULL`. -/
def strAppend (turns str : Nat) (data : Option CString) (m : Memory) : Option Memory :=
  match data with
  | none => some m
  | some data =>
      if str = 0 then some m
      else do
        let str ← strEnd turns str m
        let (str, m) := copyLoop data.chars str m
        pure (writeBytes m str [0])

/-- So many turns of the loop that reverses the digits in `buf`. -/
def swapLoop (buf : List UInt8) : Nat → List UInt8
  | 0 => buf
  | j + 1 =>
      let swapped := swapLoop buf j
      let tmp := swapped.getD j 0
      (swapped.set j (swapped.getD (buf.length - j - 1) 0)).set (buf.length - j - 1) tmp

/-- The digits in `buf` before they are reversed. -/
def storeDigits (value : UInt64) : Option (List UInt8) :=
  if value = 0 then some [48] else digitLoop 21 value.toNat

/-- The array `buf` up to its terminator. There is no room for one behind 21 digits. -/
def kvDigits (value : UInt64) : Option (List UInt8) := do
  let buf ← storeDigits value
  let buf := swapLoop buf (buf.length / 2)
  if buf.length < 21 then some (buf ++ [0]) else none

/-- `str_append_kv_int`. -/
def strAppendKvInt (turns str : Nat) (key : Option CString) (value : UInt64) (m : Memory) :
    Option Memory := do
  let m ← strAppend turns str (some (.of "\"" (by decide))) m
  let m ← strAppend turns str key m
  let m ← strAppend turns str (some (.of "\":" (by decide))) m
  let buf ← kvDigits value
  let m ← strAppend turns str (some (.ofBytes buf)) m
  strAppend turns str (some (.of "," (by decide))) m

/-! ## The digits -/

section Digits

variable {buf : List UInt8} {j : Nat}

@[simp] theorem length_swapLoop (buf : List UInt8) (j : Nat) :
    (swapLoop buf j).length = buf.length := by
  induction j with
  | zero => rfl
  | succ j ih => rw [swapLoop, List.length_set, List.length_set, ih]

theorem getD_set {i : Nat} (hi : i < buf.length) (b : UInt8) (t : Nat) :
    (buf.set i b).getD t 0 = if t = i then b else buf.getD t 0 := by
  rw [List.getD_eq_getElem?_getD, List.getElem?_set]
  by_cases ht : t = i
  · subst ht
    rw [if_pos rfl, if_pos rfl, if_pos hi]
    rfl
  · rw [if_neg (Ne.symm ht), if_neg ht, List.getD_eq_getElem?_getD]

/-- After `j` turns the first and the last `j` digits have changed places. -/
theorem getD_swapLoop (hj : j ≤ buf.length / 2) (t : Nat) (ht : t < buf.length) :
    (swapLoop buf j).getD t 0 =
      if t < j ∨ buf.length - j ≤ t then buf.getD (buf.length - 1 - t) 0 else buf.getD t 0 := by
  induction j generalizing t with
  | zero => rw [if_neg (by omega), swapLoop]
  | succ j ih =>
      -- the two digits of this turn are still where they were
      have hfirst := ih (by omega) j (by omega)
      have hlast := ih (by omega) (buf.length - j - 1) (by omega)
      rw [if_neg (by omega)] at hfirst hlast
      have hlength := length_swapLoop buf j
      rw [swapLoop, getD_set (by rw [List.length_set]; omega), getD_set (by omega), hfirst, hlast]
      by_cases hhigh : t = buf.length - j - 1
      · have hother : buf.length - 1 - t = j := by omega
        rw [if_pos hhigh, if_pos (by omega), hother]
      by_cases hlow : t = j
      · have hother : buf.length - 1 - t = buf.length - j - 1 := by omega
        rw [if_neg hhigh, if_pos hlow, if_pos (by omega), hother]
      · have hcases : (t < j + 1 ∨ buf.length - (j + 1) ≤ t) ↔
            (t < j ∨ buf.length - j ≤ t) := by
          omega
        rw [if_neg hhigh, if_neg hlow, ih (by omega) t ht, if_congr hcases rfl rfl]

/-- The loop reverses the digits. -/
theorem swapLoop_eq (buf : List UInt8) : swapLoop buf (buf.length / 2) = buf.reverse := by
  refine List.ext_getElem (by simp) fun t ht ht' ↦ ?_
  rw [length_swapLoop] at ht
  have hswap := getD_swapLoop (le_refl (buf.length / 2)) t ht
  have hsides : (if t < buf.length / 2 ∨ buf.length - buf.length / 2 ≤ t then
      buf.getD (buf.length - 1 - t) 0 else buf.getD t 0) = buf.getD (buf.length - 1 - t) 0 := by
    split
    · rfl
    · -- what is left is the digit in the middle
      have hmiddle : buf.length - 1 - t = t := by omega
      rw [hmiddle]
  rw [hsides, List.getD_eq_getElem _ _ (by rwa [length_swapLoop]),
    List.getD_eq_getElem _ _ (by omega)] at hswap
  rw [hswap, List.getElem_reverse]

/-- The digits are those of the decimal. -/
theorem kvDigits_eq (value : UInt64) : kvDigits value = some (decimal value.toNat ++ [0]) := by
  have hlength : (decimal value.toNat).length < 21 :=
    Nat.lt_succ_of_le ((length_decimal_le (by decide)).mpr (value.toNat_lt.trans (by decide)))
  have hbuf : storeDigits value = some (decimal value.toNat).reverse := by
    rw [storeDigits]
    by_cases hzero : value = 0
    · rw [if_pos hzero, hzero]
      rfl
    · have hpos : 0 < value.toNat :=
        Nat.pos_of_ne_zero fun h ↦ hzero (UInt64.toNat_inj.mp h)
      rw [if_neg hzero, digitLoop_eq 21 hpos, if_pos (value.toNat_lt.trans (by decide))]
  rw [kvDigits, hbuf, Option.bind_eq_bind, Option.bind_some]
  dsimp only
  rw [swapLoop_eq, List.reverse_reverse, if_pos hlength]

end Digits

/-! ## The string -/

section Appending

variable {turns str : Nat} {m : Memory}

/-- The string `s` is at `str`. -/
def StringAt (m : Memory) (str : Nat) (s : List UInt8) : Prop :=
  readBytes m str (s.length + 1) = s ++ [0]

/-- The terminator is found. -/
theorem strEnd_eq {s : List UInt8} (hs : 0 ∉ s) (hturns : s.length < turns)
    (h : StringAt m str s) : strEnd turns str m = some (str + s.length) := by
  induction s generalizing turns str with
  | nil =>
      obtain ⟨turns, rfl⟩ := Nat.exists_eq_succ_of_ne_zero (Nat.ne_of_gt hturns)
      have hend : m str = 0 := List.head_eq_of_cons_eq h
      rw [strEnd, if_neg (not_not.mpr hend)]
      rfl
  | cons c s ih =>
      rw [List.length_cons] at hturns
      obtain ⟨turns, rfl⟩ := Nat.exists_eq_succ_of_ne_zero (by omega : turns ≠ 0)
      rw [List.mem_cons, not_or] at hs
      have hfirst : m str = c := List.head_eq_of_cons_eq h
      have hrest : StringAt m (str + 1) s := List.tail_eq_of_cons_eq h
      rw [strEnd, hfirst, if_pos (Ne.symm hs.1), ih hs.2 (by omega) hrest, List.length_cons]
      congr 1
      omega

/-- What is appended to a string to which `t` has been appended. -/
theorem strAppend_eq {s : CString} {t : List UInt8} (hstr : str ≠ 0) (h : StringAt m str s.chars)
    (ht : 0 ∉ t) (hturns : s.chars.length + t.length < turns) (data : CString) :
    strAppend turns str (some data) (writeBytes m (str + s.chars.length) (t ++ [0])) =
      some (writeBytes m (str + s.chars.length) (t ++ data.chars ++ [0])) := by
  have hzero : 0 ∉ s.chars ++ t := by
    rw [List.mem_append, not_or]
    exact ⟨s.nonzero, ht⟩
  have hnow : StringAt (writeBytes m (str + s.chars.length) (t ++ [0])) str (s.chars ++ t) := by
    have hbehind := read_write_same m (str + s.chars.length) (t ++ [0])
    rw [List.length_append, List.length_singleton] at hbehind
    rw [StringAt, List.length_append, Nat.add_assoc, readBytes_add, hbehind,
      read_write_outside _ _ _ _ _ (.inl le_rfl), (readBytes_append h).1, List.append_assoc]
  have hlength : (s.chars ++ t).length < turns := by rwa [List.length_append]
  have hend := strEnd_eq hzero hlength hnow
  rw [strAppend, if_neg hstr, hend, Option.bind_eq_bind, Option.bind_some, copyLoop_eq]
  dsimp only
  rw [writeBytes_append, List.length_append, ← Nat.add_assoc,
    write_over_terminator _ _ _ _ (by simp), List.append_assoc]
  rfl

/-- `str_append_kv_int` appends the key, the decimal of the value and a comma. -/
theorem strAppendKvInt_eq {s : CString} (hstr : str ≠ 0) (h : StringAt m str s.chars)
    (key : CString) (value : UInt64) :
    ∃ turns, strAppendKvInt turns str (some key) value m = some (writeBytes m
      (str + s.chars.length)
      (text "\"" ++ key.chars ++ text "\":" ++ decimal value.toNat ++ text "," ++ [0])) := by
  have hself : writeBytes m (str + s.chars.length) ([] ++ [0]) = m :=
    writeBytes_eq_self.mpr (readBytes_append h).2
  have hdigits : (CString.ofBytes (decimal value.toNat ++ [0])).chars = decimal value.toNat :=
    CString.chars_ofBytes (zero_notMem_decimal value.toNat)
  let quote : CString := .of "\"" (by decide)
  let colon : CString := .of "\":" (by decide)
  let comma : CString := .of "," (by decide)
  let digits : CString := .ofBytes (decimal value.toNat ++ [0])
  let turns := s.chars.length + (key.chars.length + digits.chars.length + 10)
  -- each call finds what those before it have appended
  have happend (t : List UInt8) (data : CString) (ht : 0 ∉ t)
      (hlen : t.length < key.chars.length + digits.chars.length + 10) :
      strAppend turns str (some data) (writeBytes m (str + s.chars.length) (t ++ [0])) =
        some (writeBytes m (str + s.chars.length) (t ++ data.chars ++ [0])) :=
    strAppend_eq hstr h ht (by omega) data
  have hmore {t : List UInt8} (data : CString) (ht : 0 ∉ t) : 0 ∉ t ++ data.chars := by
    rw [List.mem_append, not_or]
    exact ⟨ht, data.nonzero⟩
  have hquote : quote.chars.length = 1 := by decide
  have hcolon : colon.chars.length = 2 := by decide
  have h₁ := hmore quote List.not_mem_nil
  have h₂ := hmore key h₁
  have h₃ := hmore colon h₂
  have h₄ := hmore digits h₃
  have r₁ := happend [] quote List.not_mem_nil (by simp)
  have r₂ := happend _ key h₁ (by simp only [List.length_append, List.length_nil, hquote]; omega)
  have r₃ := happend _ colon h₂ (by simp only [List.length_append, List.length_nil, hquote]; omega)
  have r₄ := happend _ digits h₃
    (by simp only [List.length_append, List.length_nil, hquote, hcolon]; omega)
  have r₅ := happend _ comma h₄
    (by simp only [List.length_append, List.length_nil, hquote, hcolon]; omega)
  rw [hself] at r₁
  refine ⟨turns, ?_⟩
  rw [strAppendKvInt, kvDigits_eq, Option.bind_eq_bind, r₁, Option.bind_some, Option.bind_eq_bind,
    r₂, Option.bind_some, r₃, Option.bind_some, Option.bind_some, r₄, Option.bind_some, r₅, hdigits]
  rfl

end Appending

end Aether.Kernel
