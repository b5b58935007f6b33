import Aether.Lib.Ascii

/-!
# JSON

A parser for JSON texts in ASCII, and objects whose members are natural numbers, printed without
spaces: the parser gives their members back.
-/

namespace Json

open Ascii

/-- A JSON value. A string is the sequence of its UTF-16 code units, and a number is its significand
times a power of ten. -/
inductive Value where
  | null
  | bool (b : Bool)
  | number (significand exponent : Int)
  | string (units : List UInt16)
  | array (elements : List Value)
  | object (members : List (List UInt16 × Value))

/-- What a parser for `α` makes of a text: a value and what remains, or nothing. -/
abbrev Parser (α : Type) := List UInt8 → Option (α × List UInt8)

/-! ## The parser -/

/-- The four characters that may stand between tokens. -/
def isSpace (c : UInt8) : Bool := c = 32 || c = 9 || c = 10 || c = 13

/-- The text from its next token on. -/
def skipSpace (text : List UInt8) : List UInt8 := text.dropWhile isSpace

/-- The text after the character `c`. -/
def expect (c : UInt8) (text : List UInt8) : Option (List UInt8) :=
  match skipSpace text with
  | [] => none
  | c' :: rest => if c' = c then some rest else none

/-- A sign and digits, as in an exponent. -/
def signedDigits (text : List UInt8) : Option (Int × List UInt8) :=
  let negative := text.head? = some 45
  let unsigned := if negative ∨ text.head? = some 43 then text.tail else text
  let digits := unsigned.takeWhile fun c ↦ IsDigit c
  if digits = [] then none
  else some (if negative then -(Ascii.number digits : Int) else Ascii.number digits,
    unsigned.dropWhile fun c ↦ IsDigit c)

/-- The fraction of a number, its digits. -/
def fraction (text : List UInt8) : Option (List UInt8 × List UInt8) :=
  if text.head? = some 46 then
    let digits := text.tail.takeWhile fun c ↦ IsDigit c
    if digits = [] then none else some (digits, text.tail.dropWhile fun c ↦ IsDigit c)
  else some ([], text)

/-- The exponent of a number. -/
def exponent (text : List UInt8) : Option (Int × List UInt8) :=
  if text.head? = some 101 ∨ text.head? = some 69 then signedDigits text.tail
  else some (0, text)

/-- A number. Its integer part has no leading zero. -/
def number : Parser Value := fun text ↦ do
  let negative := text.head? = some 45
  let unsigned := if negative then text.tail else text
  let integer := unsigned.takeWhile fun c ↦ IsDigit c
  if integer = [] ∨ (integer.head? = some 48 ∧ integer ≠ [48]) then none
  else
    let (fractional, rest) ← fraction (unsigned.dropWhile fun c ↦ IsDigit c)
    let (e, rest) ← exponent rest
    let significand : Int := Ascii.number (integer ++ fractional)
    some (.number (if negative then -significand else significand) (e - fractional.length), rest)

/-- The code unit that a character stands for behind a backslash. -/
def escape (c : UInt8) : Option UInt16 :=
  ([(34, 34), (92, 92), (47, 47), (98, 8), (102, 12), (110, 10), (114, 13), (116, 9)] :
    List (UInt8 × UInt16)).lookup c

/-- The rest of a string, behind its first quote. -/
def stringBody : Parser (List UInt16)
  | [] => none
  | c :: rest =>
      if c = 34 then some ([], rest)
      else if c = 92 then
        match rest with
        | [] => none
        | e :: rest =>
            if e = 117 then
              match rest with
              | h₃ :: h₂ :: h₁ :: h₀ :: rest => do
                  let unit := 4096 * (← hexDigit h₃) + 256 * (← hexDigit h₂) +
                    16 * (← hexDigit h₁) + (← hexDigit h₀)
                  let (units, rest) ← stringBody rest
                  some (UInt16.ofNat unit :: units, rest)
              | _ => none
            else do
              let unit ← escape e
              let (units, rest) ← stringBody rest
              some (unit :: units, rest)
      else if 32 ≤ c ∧ c < 128 then do
        let (units, rest) ← stringBody rest
        some (c.toUInt16 :: units, rest)
      else none

/-- The elements of an array, up to its closing bracket. -/
def elements (value : Parser Value) : Nat → Parser (List Value)
  | 0, _ => none
  | fuel + 1, text => do
      let (v, rest) ← value text
      match skipSpace rest with
      | [] => none
      | c :: rest =>
          if c = 44 then do
            let (vs, rest) ← elements value fuel rest
            some (v :: vs, rest)
          else if c = 93 then some ([v], rest)
          else none

/-- The members of an object, up to its closing brace. -/
def members (value : Parser Value) : Nat → Parser (List (List UInt16 × Value))
  | 0, _ => none
  | fuel + 1, text => do
      let (key, rest) ← stringBody (← expect 34 text)
      let (v, rest) ← value (← expect 58 rest)
      match skipSpace rest with
      | [] => none
      | c :: rest =>
          if c = 44 then do
            let (ms, rest) ← members value fuel rest
            some ((key, v) :: ms, rest)
          else if c = 125 then some ([(key, v)], rest)
          else none

/-- A literal name. -/
def literal (name : List UInt8) (v : Value) : Parser Value := fun text ↦
  if name <+: text then some (v, text.drop name.length) else none

/-- A value. The fuel bounds how deep values are nested and how many stand side by side. -/
def value : Nat → Parser Value
  | 0, _ => none
  | fuel + 1, text =>
      match skipSpace text with
      | [] => none
      | c :: rest =>
          -- the first character tells what follows
          if c = 123 then
            match expect 125 rest with
            | some rest => some (.object [], rest)
            | none => (members (value fuel) fuel rest).map fun r ↦ (.object r.1, r.2)
          else if c = 91 then
            match expect 93 rest with
            | some rest => some (.array [], rest)
            | none => (elements (value fuel) fuel rest).map fun r ↦ (.array r.1, r.2)
          else if c = 34 then (stringBody rest).map fun r ↦ (.string r.1, r.2)
          else if c = 116 then literal (Ascii.text "true") (.bool true) (c :: rest)
          else if c = 102 then literal (Ascii.text "false") (.bool false) (c :: rest)
          else if c = 110 then literal (Ascii.text "null") .null (c :: rest)
          else number (c :: rest)

/-- The value that a whole text denotes. Every value and every level of nesting takes up a
character, so that the fuel suffices. -/
def parse (text : List UInt8) : Option Value :=
  match value (text.length + 1) text with
  | some (v, rest) => if skipSpace rest = [] then some v else none
  | none => none

/-! ## Objects of natural numbers -/

/-- A member without spaces. -/
def member (m : List UInt8 × Nat) : List UInt8 := 34 :: (m.1 ++ 34 :: 58 :: decimal m.2)

/-- An object without spaces, with `m` as its first member. -/
def compact (m : List UInt8 × Nat) (ms : List (List UInt8 × Nat)) : List UInt8 :=
  123 :: (member m ++ (ms.flatMap fun m ↦ 44 :: member m) ++ [125])

/-- A member's value. -/
def memberValue (m : List UInt8 × Nat) : List UInt16 × Value :=
  (m.1.map UInt8.toUInt16, .number m.2 0)

/-- The characters need no escape in a string. -/
def Plain (key : List UInt8) : Prop := ∀ c ∈ key, 32 ≤ c ∧ c < 128 ∧ c ≠ 34 ∧ c ≠ 92

section Objects

variable {c : UInt8} {n fuel : Nat} {rest : List UInt8}

theorem ne_of_isDigit {d : UInt8} (h : IsDigit d) (hc : ¬ IsDigit c) : d ≠ c := by
  rintro rfl
  exact hc h

/-- A token that begins with a digit is not preceded by space. -/
theorem skipSpace_of_isDigit (h : IsDigit c) : skipSpace (c :: rest) = c :: rest := by
  have hspace : isSpace c = false := by
    simp [isSpace, ne_of_isDigit h (by decide : ¬ IsDigit 32),
      ne_of_isDigit h (by decide : ¬ IsDigit 9), ne_of_isDigit h (by decide : ¬ IsDigit 10),
      ne_of_isDigit h (by decide : ¬ IsDigit 13)]
  simp [skipSpace, hspace]

/-- The digits of a decimal are read up to the end. -/
theorem span_decimal (n : Nat) (hc : ¬ IsDigit c) :
    (decimal n ++ c :: rest).takeWhile (fun c ↦ IsDigit c) = decimal n ∧
      (decimal n ++ c :: rest).dropWhile (fun c ↦ IsDigit c) = c :: rest := by
  have hdigits : ∀ b ∈ decimal n, decide (IsDigit b) = true :=
    fun b hb ↦ decide_eq_true (isDigit_of_mem_decimal n b hb)
  rw [List.takeWhile_append_of_pos hdigits, List.dropWhile_append_of_pos hdigits]
  simp [hc]

/-- A decimal is not signed. -/
theorem head?_decimal_append (n : Nat) (hc : ¬ IsDigit c) :
    (decimal n ++ rest).head? ≠ some c := by
  obtain ⟨d, ds, hd⟩ := List.exists_cons_of_ne_nil (decimal_ne_nil n)
  have hdigit := isDigit_of_mem_decimal n d (hd ▸ List.mem_cons_self)
  rw [hd, List.cons_append, List.head?_cons, Ne, Option.some.injEq]
  exact ne_of_isDigit hdigit hc

/-- A decimal is read as its number. -/
theorem number_decimal_append (n : Nat) (hdigit : ¬ IsDigit c) (hpoint : c ≠ 46)
    (he : c ≠ 101) (hE : c ≠ 69) :
    number (decimal n ++ c :: rest) = some (.number n 0, c :: rest) := by
  obtain ⟨htake, hdrop⟩ :
      (decimal n ++ c :: rest).takeWhile (fun c ↦ IsDigit c) = decimal n ∧
        (decimal n ++ c :: rest).dropWhile (fun c ↦ IsDigit c) = c :: rest :=
    span_decimal n hdigit
  have hsign : (decimal n ++ c :: rest).head? ≠ some 45 := head?_decimal_append n (by decide)
  have hlead : ¬ (decimal n = [] ∨ ((decimal n).head? = some 48 ∧ decimal n ≠ [48])) := by
    rintro (hnil | ⟨hzero, hmore⟩)
    · exact decimal_ne_nil n hnil
    · by_cases hn : n = 0
      · exact hmore (hn ▸ decimal_of_lt (by decide))
      · exact head?_decimal hn hzero
  have hfraction : fraction (c :: rest) = some ([], c :: rest) := if_neg (by simpa using hpoint)
  have hexponent : exponent (c :: rest) = some (0, c :: rest) := if_neg (by simp [he, hE])
  simp only [number, hsign, ↓reduceIte, htake, hdrop, hlead, hfraction]
  simp [hexponent, Ascii.number_decimal]

/-- So is it where a value is expected. -/
theorem value_decimal_append (n : Nat) (hdigit : ¬ IsDigit c) (hpoint : c ≠ 46)
    (he : c ≠ 101) (hE : c ≠ 69) :
    value (fuel + 1) (decimal n ++ c :: rest) = some (.number n 0, c :: rest) := by
  rw [← number_decimal_append n hdigit hpoint he hE]
  obtain ⟨d, ds, hd⟩ := List.exists_cons_of_ne_nil (decimal_ne_nil n)
  have hdd := isDigit_of_mem_decimal n d (hd ▸ List.mem_cons_self)
  rw [hd, List.cons_append, value, skipSpace_of_isDigit hdd]
  simp [ne_of_isDigit hdd (by decide : ¬ IsDigit 123), ne_of_isDigit hdd (by decide : ¬ IsDigit 91),
    ne_of_isDigit hdd (by decide : ¬ IsDigit 34), ne_of_isDigit hdd (by decide : ¬ IsDigit 116),
    ne_of_isDigit hdd (by decide : ¬ IsDigit 102), ne_of_isDigit hdd (by decide : ¬ IsDigit 110)]

/-- A string without escapes is read up to its closing quote. -/
theorem stringBody_plain {key : List UInt8} (h : Plain key) :
    stringBody (key ++ 34 :: rest) = some (key.map UInt8.toUInt16, rest) := by
  induction key with
  | nil =>
      rw [stringBody.eq_def]
      rfl
  | cons c key ih =>
      obtain ⟨hlow, hhigh, hquote, hback⟩ := h c List.mem_cons_self
      rw [List.cons_append, stringBody.eq_def]
      dsimp only
      rw [if_neg hquote, if_neg hback, if_pos ⟨hlow, hhigh⟩,
        ih fun c' hc' ↦ h c' (List.mem_cons_of_mem c hc')]
      rfl

/-- The first member is read up to the character behind it. -/
theorem members_member (m : List UInt8 × Nat) (hplain : Plain m.1) (turns : Nat)
    (hc : c = 44 ∨ c = 125) :
    members (value (fuel + 1)) (turns + 1) (member m ++ c :: rest) =
      if c = 44 then do
        let (ms, rest) ← members (value (fuel + 1)) turns rest
        some (memberValue m :: ms, rest)
      else some ([memberValue m], rest) := by
  have hkey : expect 34 (member m ++ c :: rest) =
      some (m.1 ++ 34 :: 58 :: (decimal m.2 ++ c :: rest)) := by
    simp [expect, member, skipSpace, isSpace]
  have hcolon : expect 58 (58 :: (decimal m.2 ++ c :: rest)) = some (decimal m.2 ++ c :: rest) := by
    simp [expect, skipSpace, isSpace]
  have hvalue : value (fuel + 1) (decimal m.2 ++ c :: rest) =
      some (.number m.2 0, c :: rest) := by
    rcases hc with rfl | rfl
    · exact value_decimal_append m.2 (by decide) (by decide) (by decide) (by decide)
    · exact value_decimal_append m.2 (by decide) (by decide) (by decide) (by decide)
  have hspace : skipSpace (c :: rest) = c :: rest := by
    rcases hc with rfl | rfl <;> rfl
  simp only [members, hkey, Option.bind_eq_bind, Option.bind_some, stringBody_plain hplain, hcolon,
    hvalue, hspace]
  rcases hc with rfl | rfl <;> rfl

/-- The members are read up to the closing brace. -/
theorem members_compact (m : List UInt8 × Nat) (ms : List (List UInt8 × Nat)) {turns : Nat}
    (hturns : ms.length < turns) (hplain : ∀ m' ∈ m :: ms, Plain m'.1) :
    members (value (fuel + 1)) turns
        (member m ++ ((ms.flatMap fun m ↦ 44 :: member m) ++ 125 :: rest)) =
      some ((m :: ms).map memberValue, rest) := by
  induction ms generalizing m turns with
  | nil =>
      obtain ⟨turns, rfl⟩ := Nat.exists_eq_succ_of_ne_zero (by omega : turns ≠ 0)
      exact members_member m (hplain m List.mem_cons_self) turns (.inr rfl)
  | cons m' ms ih =>
      obtain ⟨turns, rfl⟩ := Nat.exists_eq_succ_of_ne_zero (by omega : turns ≠ 0)
      have hfewer : ms.length < turns := by simpa using hturns
      have hrest := ih m' hfewer fun k hk ↦ hplain k (List.mem_cons_of_mem m hk)
      rw [List.flatMap_cons, List.cons_append, List.cons_append, List.append_assoc,
        members_member m (hplain m List.mem_cons_self) turns (.inl rfl), if_pos rfl, hrest]
      rfl

theorem length_le_members (ms : List (List UInt8 × Nat)) :
    ms.length ≤ (ms.flatMap fun m ↦ 44 :: member m).length := by
  induction ms with
  | nil => exact Nat.le_refl 0
  | cons m ms ih =>
      rw [List.flatMap_cons, List.length_append, List.length_cons, List.length_cons]
      omega

/-- An object of natural numbers is read as its members. -/
theorem parse_compact (m : List UInt8 × Nat) (ms : List (List UInt8 × Nat))
    (hplain : ∀ m' ∈ m :: ms, Plain m'.1) :
    parse (compact m ms) = some (.object ((m :: ms).map memberValue)) := by
  have hlong : ms.length + 1 < (compact m ms).length := by
    have hmembers := length_le_members ms
    simp only [compact, List.length_cons, List.length_append]
    omega
  obtain ⟨fuel, hfuel⟩ : ∃ fuel, (compact m ms).length = fuel + 1 :=
    Nat.exists_eq_succ_of_ne_zero (by omega)
  have hclose : expect 125 (member m ++ ((ms.flatMap fun m ↦ 44 :: member m) ++ [125])) = none := by
    simp [expect, member, skipSpace, isSpace]
  have hbody : members (value (fuel + 1)) (fuel + 1)
      (member m ++ ((ms.flatMap fun m ↦ 44 :: member m) ++ [125])) =
        some ((m :: ms).map memberValue, []) :=
    members_compact m ms (by omega) hplain
  have hvalue : value (fuel + 1 + 1) (compact m ms) =
      some (.object ((m :: ms).map memberValue), []) := by
    have hspace : skipSpace (compact m ms) = compact m ms := by
      simp [skipSpace, isSpace, compact]
    rw [value, hspace, compact, List.append_assoc]
    dsimp only
    rw [if_pos rfl, hclose, hbody]
    rfl
  rw [parse, hfuel, hvalue]
  rfl

end Objects

end Json
