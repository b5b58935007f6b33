import Aether.Lib.Ascii
import Mathlib.Data.List.Basic

/-!
# IPv6 addresses as text

A parser for the text form of an address: eight groups of hexadecimal digits with colons between
them, or fewer groups around one double colon, which stands for the zero groups that are missing.
-/

namespace Ipv6Text

open Ascii

/-! ## The parser -/

/-- The value of a group: one to four hexadecimal digits. -/
def group (digits : List UInt8) : Option UInt16 :=
  if digits = [] ∨ 4 < digits.length then none
  else (digits.mapM hexDigit).map fun ds ↦ UInt16.ofNat (ds.foldl (fun v d ↦ 16 * v + d) 0)

/-- Groups with single colons between them, or none at all. -/
def groups (text : List UInt8) : Option (List UInt16) :=
  if text = [] then some [] else (text.splitOn 58).mapM group

/-- The text before and after its first double colon. -/
def splitDouble : List UInt8 → Option (List UInt8 × List UInt8)
  | [] => none
  | c :: rest =>
      if c = 58 ∧ rest.head? = some 58 then some ([], rest.tail)
      else (splitDouble rest).map fun r ↦ (c :: r.1, r.2)

/-- The groups in network order. -/
def toBytes (words : List UInt16) : List UInt8 :=
  words.flatMap fun w : UInt16 ↦ [(w >>> 8).toUInt8, w.toUInt8]

/-- The sixteen bytes of the address that a text denotes. -/
def parse (text : List UInt8) : Option (List UInt8) :=
  match splitDouble text with
  | none => do
      let words ← groups text
      if words.length = 8 then some (toBytes words) else none
  | some (front, back) => do
      let high ← groups front
      let low ← groups back
      if high.length + low.length < 8 then
        some (toBytes (high ++ List.replicate (8 - high.length - low.length) 0 ++ low))
      else none

/-! ## Groups of four digits -/

/-- A lower-case hexadecimal digit. -/
def hexChar (d : Nat) : UInt8 := if d < 10 then UInt8.ofNat (48 + d) else UInt8.ofNat (87 + d)

/-- The group as four digits. -/
def fourDigits (w : UInt16) : List UInt8 :=
  [w.toNat / 4096 % 16, w.toNat / 256 % 16, w.toNat / 16 % 16, w.toNat % 16].map hexChar

/-- Groups of four digits with single colons between them. -/
def joined (words : List UInt16) : List UInt8 := [58].intercalate (words.map fourDigits)

section Groups

variable {w : UInt16} {words : List UInt16} {rest : List UInt8}

theorem hexDigit_hexChar : ∀ d < 16, hexDigit (hexChar d) = some d := by decide

theorem hexChar_ne_colon : ∀ d < 16, hexChar d ≠ 58 := by decide

/-- There is no colon in a group. -/
theorem ne_colon_of_mem_fourDigits {c : UInt8} (h : c ∈ fourDigits w) : c ≠ 58 := by
  obtain ⟨d, hd, rfl⟩ := List.mem_map.mp h
  refine hexChar_ne_colon d ?_
  simp only [List.mem_cons, List.not_mem_nil, or_false] at hd
  omega

/-- A group is read back. -/
theorem group_fourDigits (w : UInt16) : group (fourDigits w) = some w := by
  have hw := w.toNat_lt
  have h₃ := hexDigit_hexChar (w.toNat / 4096 % 16) (by omega)
  have h₂ := hexDigit_hexChar (w.toNat / 256 % 16) (by omega)
  have h₁ := hexDigit_hexChar (w.toNat / 16 % 16) (by omega)
  have h₀ := hexDigit_hexChar (w.toNat % 16) (by omega)
  have hvalue : 16 * (16 * (16 * (w.toNat / 4096 % 16) + w.toNat / 256 % 16) +
      w.toNat / 16 % 16) + w.toNat % 16 = w.toNat := by
    omega
  simp [group, fourDigits, h₃, h₂, h₁, h₀, hvalue]

theorem joined_cons_cons (w w' : UInt16) (words : List UInt16) :
    joined (w :: w' :: words) = fourDigits w ++ 58 :: joined (w' :: words) := by
  rw [joined, List.map_cons, List.map_cons, List.intercalate_cons_cons, joined, List.map_cons,
    List.append_assoc, List.singleton_append]

theorem joined_singleton (w : UInt16) : joined [w] = fourDigits w := by
  rw [joined, List.map_singleton, List.intercalate_singleton]

/-- The first group comes first. -/
theorem exists_joined_cons (w : UInt16) (words : List UInt16) :
    ∃ more, joined (w :: words) = fourDigits w ++ more := by
  cases words with
  | nil => exact ⟨[], by rw [joined_singleton, List.append_nil]⟩
  | cons w' words => exact ⟨_, joined_cons_cons w w' words⟩

theorem mapM_group (words : List UInt16) : (words.map fourDigits).mapM group = some words := by
  induction words with
  | nil => rfl
  | cons w words ih => simp [group_fourDigits, ih]

/-- Groups are read back. -/
theorem groups_joined (words : List UInt16) : groups (joined words) = some words := by
  cases words with
  | nil => rfl
  | cons w words =>
      have hsplit : (joined (w :: words)).splitOn 58 = (w :: words).map fourDigits := by
        refine List.splitOn_intercalate 58 (fun digits hdigits hcolon ↦ ?_) (by simp)
        obtain ⟨w', -, rfl⟩ := List.mem_map.mp hdigits
        exact ne_colon_of_mem_fourDigits hcolon rfl
      have hne : joined (w :: words) ≠ [] := by
        obtain ⟨more, hmore⟩ := exists_joined_cons w words
        simp [hmore, fourDigits]
      rw [groups, if_neg hne, hsplit, mapM_group]

/-- A group is skipped in the search for a double colon. -/
theorem splitDouble_fourDigits (w : UInt16) (rest : List UInt8) :
    splitDouble (fourDigits w ++ rest) =
      (splitDouble rest).map fun r ↦ (fourDigits w ++ r.1, r.2) := by
  have hskip : ∀ digits : List UInt8, (∀ c ∈ digits, c ≠ 58) → splitDouble (digits ++ rest) =
      (splitDouble rest).map fun r ↦ (digits ++ r.1, r.2) := by
    intro digits hdigits
    induction digits with
    | nil => simp
    | cons c digits ih =>
        have hc : ¬ (c = 58 ∧ (digits ++ rest).head? = some 58) :=
          fun h ↦ hdigits c List.mem_cons_self h.1
        rw [List.cons_append, splitDouble, if_neg hc,
          ih fun c' hc' ↦ hdigits c' (List.mem_cons_of_mem c hc'), Option.map_map]
        rfl
  exact hskip _ fun c hc ↦ ne_colon_of_mem_fourDigits hc

/-- The colon between two groups does not begin a double colon. -/
theorem splitDouble_colon (w : UInt16) (words : List UInt16) (rest : List UInt8) :
    splitDouble (58 :: (joined (w :: words) ++ rest)) =
      (splitDouble (joined (w :: words) ++ rest)).map fun r ↦ (58 :: r.1, r.2) := by
  obtain ⟨more, hmore⟩ := exists_joined_cons w words
  have hfirst : hexChar (w.toNat / 4096 % 16) ≠ 58 := hexChar_ne_colon _ (by omega)
  rw [splitDouble, if_neg]
  simp [hmore, fourDigits, hfirst]

/-- There is no double colon in groups. -/
theorem splitDouble_joined (words : List UInt16) : splitDouble (joined words) = none := by
  induction words with
  | nil => rfl
  | cons w words ih =>
      cases words with
      | nil =>
          rw [joined_singleton, ← List.append_nil (fourDigits w), splitDouble_fourDigits]
          rfl
      | cons w' words =>
          have hcolon := splitDouble_colon w' words []
          rw [List.append_nil, ih] at hcolon
          rw [joined_cons_cons, splitDouble_fourDigits, hcolon]
          rfl

/-- The first double colon is the one behind the groups. -/
theorem splitDouble_joined_append (words : List UInt16) (rest : List UInt8) :
    splitDouble (joined words ++ 58 :: 58 :: rest) = some (joined words, rest) := by
  induction words with
  | nil => rfl
  | cons w words ih =>
      cases words with
      | nil =>
          rw [joined_singleton, splitDouble_fourDigits]
          simp [splitDouble]
      | cons w' words =>
          rw [joined_cons_cons, List.append_assoc, List.cons_append, splitDouble_fourDigits,
            splitDouble_colon, ih]
          rfl

end Groups

/-- Eight groups are an address. -/
theorem parse_joined {words : List UInt16} (h : words.length = 8) :
    parse (joined words) = some (toBytes words) := by
  rw [parse, splitDouble_joined]
  simp [groups_joined, h]

/-- Groups around a double colon are an address with zero groups in its place. -/
theorem parse_joined_double {high low : List UInt16} (h : high.length + low.length < 8) :
    parse (joined high ++ 58 :: 58 :: joined low) =
      some (toBytes (high ++ List.replicate (8 - high.length - low.length) 0 ++ low)) := by
  rw [parse, splitDouble_joined_append]
  simp [groups_joined, h]

end Ipv6Text
