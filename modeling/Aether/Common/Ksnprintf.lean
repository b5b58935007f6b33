import Aether.Common.Decimals

/-!
# Bounded formatting

`ksnprintf`. The characters that it puts out are a prefix of the full expansion of its format; the
ones that it reads are those of the format, unless the scan comes to a `%` that is the last of them.
-/

namespace Aether.Common

open ByteMemory Ascii

/-- A variable argument. -/
inductive VaArg where
  | unsigned (val : UInt32)
  | int (val : Int32)
  | string (str : CString)
  deriving DecidableEq

/-- `va_arg(args, unsigned int)`. -/
def vaUnsigned : List VaArg → Option (UInt32 × List VaArg)
  | .unsigned val :: args => some (val, args)
  | _ => none

/-- `va_arg(args, int)`. -/
def vaInt : List VaArg → Option (Int32 × List VaArg)
  | .int val :: args => some (val, args)
  | _ => none

/-- `va_arg(args, char*)`. -/
def vaString : List VaArg → Option (CString × List VaArg)
  | .string str :: args => some (str, args)
  | _ => none

/-! ## The code -/

/-- The variables `dst` and `remaining`, and the memory. -/
structure Output where
  dst : Nat
  remaining : UInt32
  mem : Memory

/-- `*dst++ = c; remaining--;` -/
def Output.put (o : Output) (c : UInt8) : Output where
  dst := o.dst + 1
  remaining := o.remaining - 1
  mem := writeBytes o.mem o.dst [c]

/-- A loop that copies characters as long as there is room. -/
def Output.copy (o : Output) : List UInt8 → Output
  | [] => o
  | c :: rest => if o.remaining > 0 then (o.put c).copy rest else o

/-- What is done for the character behind a `%`, and the arguments that are left. -/
def convert (c : UInt8) (args : List VaArg) (o : Output) : Option (List VaArg × Output) :=
  -- `u`
  if c = 117 then do
    let (val, args) ← vaUnsigned args
    let num ← utoaDec val
    pure (args, o.copy num)
  -- `d`, where the negation of the least number is that number again
  else if c = 100 then do
    let (val, args) ← vaInt args
    let o := if val < 0 then if o.remaining > 0 then o.put 45 else o else o
    let val := if val < 0 then -val else val
    let num ← utoaDec val.toUInt32
    pure (args, o.copy num)
  -- `s`
  else if c = 115 then do
    let (str, args) ← vaString args
    pure (args, o.copy str.chars)
  else pure (args, o)

/-- The loop over the format, with so many turns left: the output, and the indices at which the
format is read. -/
def scanLoop (fmt : CString) (behind : Nat → UInt8) :
    Nat → Nat → List VaArg → Output → Option (Output × List Nat)
  | 0, _, _, _ => none
  | turns + 1, i, args, o =>
      let c := fmt.at behind i
      if c ≠ 0 ∧ o.remaining > 0 then
        if c ≠ 37 then
          (scanLoop fmt behind turns (i + 1) args (o.put c)).map fun r ↦ (r.1, i :: r.2)
        else do
          -- whatever is behind the `%` is skipped, a terminator too
          let (args, o) ← convert (fmt.at behind (i + 1)) args o
          (scanLoop fmt behind turns (i + 1 + 1) args o).map fun r ↦ (r.1, i :: (i + 1) :: r.2)
      else some (o, [i])

/-- What a call of `ksnprintf` returns, the memory behind it, and where it read the format. -/
structure KsnprintfResult where
  ret : Int32
  mem : Memory
  reads : List Nat

/-- `ksnprintf`. The format and the strings are objects of their own, which `out` is no part of. -/
def ksnprintf (turns : Nat) (out : Nat) (outSize : UInt32) (fmt : CString) (behind : Nat → UInt8)
    (args : List VaArg) (m : Memory) : Option KsnprintfResult :=
  if out = 0 ∨ outSize = 0 then some { ret := 0, mem := m, reads := [] }
  else do
    let (o, reads) ← scanLoop fmt behind turns 0 args
      { dst := out, remaining := outSize - 1, mem := m }
    pure { ret := Int32.ofInt ((o.dst : Int) - out), mem := writeBytes o.mem o.dst [0], reads }

/-! ## The full expansion -/

/-- The decimal of an integer, with its sign. -/
def intDecimal (n : Int) : List UInt8 := if n < 0 then 45 :: decimal n.natAbs else decimal n.natAbs

/-- What a directive stands for, and the arguments behind it. An unknown one stands for nothing. -/
def directiveText (c : UInt8) (args : List VaArg) : Option (List UInt8 × List VaArg) :=
  if c = 117 then (vaUnsigned args).map fun r ↦ (decimal r.1.toNat, r.2)
  else if c = 100 then (vaInt args).map fun r ↦ (intDecimal r.1.toInt, r.2)
  else if c = 115 then (vaString args).map fun r ↦ (r.1.chars, r.2)
  else some ([], args)

/-- The full expansion of a format, if the arguments match it. -/
def expand : List UInt8 → List VaArg → Option (List UInt8)
  | [], _ => some []
  | [c], _ => if c = 37 then some [] else some [c]
  | c :: d :: rest, args =>
      if c = 37 then (directiveText d args).bind fun r ↦ (expand rest r.2).map (r.1 ++ ·)
      else (expand (d :: rest) args).map (c :: ·)

/-- The last character of the format is a `%` that begins a directive. -/
def EndsOpen : List UInt8 → Prop
  | [] => False
  | [c] => c = 37
  | c :: d :: rest => if c = 37 then EndsOpen rest else EndsOpen (d :: rest)

/-! ## Copying with limited room -/

section Copying

variable {o : Output} {cs : List UInt8}

theorem toNat_pos {n : UInt32} : n > 0 ↔ 0 < n.toNat := UInt32.lt_iff_toNat_lt

theorem not_pos_iff {n : UInt32} : ¬ n > 0 ↔ n = 0 := by
  rw [toNat_pos, Nat.not_lt, Nat.le_zero]
  exact ⟨fun h ↦ UInt32.toNat_inj.mp h, fun h ↦ h ▸ rfl⟩

theorem toNat_sub_one {n : UInt32} (h : 0 < n.toNat) : (n - 1).toNat = n.toNat - 1 :=
  UInt32.toNat_sub_of_le n 1 (UInt32.le_iff_toNat_le.mpr h)

/-- A character takes one place of the room. -/
theorem toNat_remaining_put (c : UInt8) (h : o.remaining > 0) :
    (o.put c).remaining.toNat + 1 = o.remaining.toNat := by
  have hpos := toNat_pos.mp h
  have hsub : (o.put c).remaining.toNat = o.remaining.toNat - 1 := toNat_sub_one hpos
  omega

@[simp] theorem copy_nil (o : Output) : o.copy [] = o := rfl

/-- Without room nothing is copied. -/
theorem copy_full (h : o.remaining = 0) : o.copy cs = o := by
  cases cs with
  | nil => rfl
  | cons c cs => rw [Output.copy, h, if_neg (by decide)]

theorem copy_cons {c : UInt8} (h : o.remaining > 0) : o.copy (c :: cs) = (o.put c).copy cs := by
  rw [Output.copy, if_pos h]

theorem copy_append (o : Output) (cs ds : List UInt8) :
    o.copy (cs ++ ds) = (o.copy cs).copy ds := by
  induction cs generalizing o with
  | nil => rfl
  | cons c cs ih =>
      by_cases hroom : o.remaining > 0
      · rw [List.cons_append, copy_cons hroom, copy_cons hroom, ih]
      · have hfull := not_pos_iff.mp hroom
        rw [copy_full hfull, copy_full hfull, copy_full hfull]

theorem toNat_remaining_copy (o : Output) (cs : List UInt8) :
    (o.copy cs).remaining.toNat = o.remaining.toNat - cs.length := by
  induction cs generalizing o with
  | nil => rfl
  | cons c cs ih =>
      by_cases hroom : o.remaining > 0
      · have hput := toNat_remaining_put c hroom
        rw [copy_cons hroom, ih, List.length_cons]
        omega
      · rw [Output.copy, if_neg hroom]
        rw [toNat_pos] at hroom
        omega

/-- What is copied is the prefix that fits. -/
theorem copy_eq (o : Output) (cs : List UInt8) :
    (o.copy cs).dst = o.dst + (cs.take o.remaining.toNat).length ∧
      (o.copy cs).mem = writeBytes o.mem o.dst (cs.take o.remaining.toNat) := by
  have hnothing (o : Output) : writeBytes o.mem o.dst [] = o.mem := writeBytes_eq_self.mpr rfl
  induction cs generalizing o with
  | nil => exact ⟨by simp, by rw [List.take_nil, hnothing, copy_nil]⟩
  | cons c cs ih =>
      by_cases hroom : o.remaining > 0
      · obtain ⟨hdst, hmem⟩ := ih (o.put c)
        rw [copy_cons hroom, hdst, hmem, ← toNat_remaining_put c hroom, List.take_succ_cons]
        refine ⟨?_, writeBytes_append o.mem o.dst [c] _⟩
        show o.dst + 1 + _ = o.dst + (_ + 1)
        omega
      · have hzero : o.remaining.toNat = 0 := Nat.eq_zero_of_not_pos (toNat_pos.not.mp hroom)
        rw [Output.copy, if_neg hroom, hzero]
        exact ⟨rfl, (hnothing o).symm⟩

end Copying

/-! ## One directive -/

section Signs

variable {val : Int32}

theorem neg_iff : val < 0 ↔ val.toInt < 0 := Int32.lt_iff_toInt_lt

/-- Two's complement. -/
theorem toInt_eq (val : Int32) : val.toInt =
    if 2 * val.toUInt32.toNat < 2 ^ 32 then (val.toUInt32.toNat : Int)
    else (val.toUInt32.toNat : Int) - (2 ^ 32 : Nat) :=
  BitVec.toInt_eq_toNat_cond _

/-- The magnitude of a negative number, that of the least one too. -/
theorem toNat_neg (h : val < 0) : (-val).toUInt32.toNat = val.toInt.natAbs := by
  have hnat : (-val).toUInt32.toNat = (2 ^ 32 - val.toUInt32.toNat) % 2 ^ 32 := BitVec.toNat_neg _
  have hint := toInt_eq val
  have hlt := val.toUInt32.toNat_lt
  rw [neg_iff] at h
  split at hint <;> omega

theorem toNat_of_nonneg (h : ¬ val < 0) : val.toUInt32.toNat = val.toInt.natAbs := by
  have hint := toInt_eq val
  have hlt := val.toUInt32.toNat_lt
  rw [neg_iff] at h
  split at hint <;> omega

end Signs

/-- A directive puts out what fits of its text. -/
theorem convert_eq (c : UInt8) (args : List VaArg) (o : Output) :
    convert c args o = (directiveText c args).map fun r ↦ (r.2, o.copy r.1) := by
  rw [convert, directiveText]
  by_cases hu : c = 117
  · rw [if_pos hu, if_pos hu]
    rcases hva : vaUnsigned args with _ | ⟨val, args⟩
    · rfl
    · simp [utoaDec_eq]
  by_cases hd : c = 100
  · rw [if_neg hu, if_pos hd, if_neg hu, if_pos hd]
    rcases hva : vaInt args with _ | ⟨val, args⟩
    · rfl
    · -- the sign is copied like a string of one character
      by_cases hneg : val < 0
      · have hsign : intDecimal val.toInt = [45] ++ decimal (-val).toUInt32.toNat := by
          rw [intDecimal, if_pos (neg_iff.mp hneg), toNat_neg hneg]
          rfl
        have hput : (if o.remaining > 0 then o.put 45 else o) = o.copy [45] := rfl
        simp only [Option.bind_eq_bind, Option.bind_some, if_pos hneg, utoaDec_eq, hput,
          Option.map_some, hsign, copy_append]
        rfl
      · have hsign : intDecimal val.toInt = decimal val.toUInt32.toNat := by
          rw [intDecimal, if_neg (neg_iff.not.mp hneg), toNat_of_nonneg hneg]
        simp only [Option.bind_eq_bind, Option.bind_some, if_neg hneg, utoaDec_eq,
          Option.map_some, hsign]
        rfl
  by_cases hs : c = 115
  · rw [if_neg hu, if_neg hd, if_pos hs, if_neg hu, if_neg hd, if_pos hs]
    rcases hva : vaString args with _ | ⟨str, args⟩
    · rfl
    · simp
  · rw [if_neg hu, if_neg hd, if_neg hs, if_neg hu, if_neg hd, if_neg hs]
    rfl

/-! ## The scan of the format -/

section Scan

variable {fmt : CString} {behind : Nat → UInt8} {turns i : Nat} {args : List VaArg} {o : Output}

theorem at_length (fmt : CString) (behind : Nat → UInt8) :
    fmt.at behind fmt.chars.length = 0 := by
  rw [CString.at, List.getD_append_right _ _ _ _ le_rfl, Nat.sub_self]
  rfl

theorem at_append {front rest : List UInt8} {c : UInt8} (h : fmt.chars = front ++ c :: rest) :
    fmt.at behind front.length = c := by
  rw [CString.at, h, List.append_assoc, List.getD_append_right _ _ _ _ le_rfl, Nat.sub_self]
  rfl

theorem at_append_succ {front rest : List UInt8} {c d : UInt8}
    (h : fmt.chars = front ++ c :: d :: rest) : fmt.at behind (front.length + 1) = d := by
  have h' : fmt.chars = (front ++ [c]) ++ d :: rest := by rw [h, List.append_assoc]; rfl
  have hlength : front.length + 1 = (front ++ [c]).length := by rw [List.length_append]; rfl
  rw [hlength, at_append h']

theorem ne_zero_of_append {front rest : List UInt8} {c : UInt8}
    (h : fmt.chars = front ++ c :: rest) : c ≠ 0 := by
  rintro rfl
  exact fmt.nonzero (h ▸ List.mem_append_right _ List.mem_cons_self)

/-- The scan stops at the terminator and where there is no more room. -/
theorem scanLoop_stop (h : fmt.at behind i = 0 ∨ o.remaining = 0) :
    scanLoop fmt behind (turns + 1) i args o = some (o, [i]) := by
  rw [scanLoop]
  refine if_neg fun hgo ↦ ?_
  rcases h with h | h
  · exact hgo.1 h
  · exact absurd (h ▸ hgo.2) (by decide)

/-- A character that is no `%` is copied. -/
theorem scanLoop_char {c : UInt8} (hat : fmt.at behind i = c) (hzero : c ≠ 0) (hne : c ≠ 37)
    (hroom : o.remaining > 0) :
    scanLoop fmt behind (turns + 1) i args o =
      (scanLoop fmt behind turns (i + 1) args (o.put c)).map fun r ↦ (r.1, i :: r.2) := by
  rw [scanLoop, hat]
  dsimp only
  rw [if_pos ⟨hzero, hroom⟩, if_pos hne]

/-- What fits of the text of a directive is put out. -/
theorem scanLoop_directive {d : UInt8} {t : List UInt8} {args' : List VaArg}
    (hat : fmt.at behind i = 37) (hnext : fmt.at behind (i + 1) = d) (hroom : o.remaining > 0)
    (htext : directiveText d args = some (t, args')) :
    scanLoop fmt behind (turns + 1) i args o =
      (scanLoop fmt behind turns (i + 1 + 1) args' (o.copy t)).map
        fun r ↦ (r.1, i :: (i + 1) :: r.2) := by
  rw [scanLoop, hat, hnext]
  dsimp only
  rw [if_pos ⟨by decide, hroom⟩, if_neg (by decide), convert_eq, htext]
  rfl

/-- The first index that is read. -/
theorem mem_reads {r : Output × List Nat} (h : scanLoop fmt behind turns i args o = some r) :
    i ∈ r.2 := by
  cases turns with
  | zero => cases h
  | succ turns =>
      rw [scanLoop] at h
      dsimp only at h
      split at h
      · split at h
        · obtain ⟨r', -, rfl⟩ := Option.map_eq_some_iff.mp h
          exact List.mem_cons_self
        · obtain ⟨r'', -, h⟩ := Option.bind_eq_some_iff.mp h
          obtain ⟨r', -, rfl⟩ := Option.map_eq_some_iff.mp h
          exact List.mem_cons_self
      · cases h
        exact List.mem_cons_self

/-- A format is empty, or begins with a character, or is a lone `%`, or begins with a directive. -/
theorem format_induction {P : List UInt8 → Prop} (nil : P [])
    (char : ∀ c rest, c ≠ 37 → P rest → P (c :: rest)) (last : P [37])
    (directive : ∀ d rest, P rest → P (37 :: d :: rest)) : ∀ format, P format
  | [] => nil
  | c :: rest => by
      by_cases hc : c = 37
      · subst hc
        cases rest with
        | nil => exact last
        | cons d rest => exact directive d rest (format_induction nil char last directive rest)
      · exact char c rest hc (format_induction nil char last directive rest)

theorem expand_char {c : UInt8} (h : c ≠ 37) (rest : List UInt8) (args : List VaArg) :
    expand (c :: rest) args = (expand rest args).map (c :: ·) := by
  cases rest with
  | nil => simp [expand, h]
  | cons d rest => rw [expand, if_neg h]

theorem expand_directive (d : UInt8) (rest : List UInt8) (args : List VaArg) :
    expand (37 :: d :: rest) args =
      (directiveText d args).bind fun r ↦ (expand rest r.2).map (r.1 ++ ·) := by
  rw [expand, if_pos rfl]

theorem endsOpen_char {c : UInt8} (h : c ≠ 37) (rest : List UInt8) :
    EndsOpen (c :: rest) ↔ EndsOpen rest := by
  cases rest with
  | nil => exact ⟨fun hc ↦ absurd hc h, False.elim⟩
  | cons d rest => rw [EndsOpen, if_neg h]

theorem endsOpen_directive (d : UInt8) (rest : List UInt8) :
    EndsOpen (37 :: d :: rest) ↔ EndsOpen rest := by
  rw [EndsOpen, if_pos rfl]

/-- Without room the scan stops where it is. -/
theorem scanLoop_full {front rest full : List UInt8} (hfmt : fmt.chars = front ++ rest)
    (hfull : o.remaining = 0) :
    ∃ reads, scanLoop fmt behind (turns + 1) front.length args o = some (o.copy full, reads) ∧
      ∀ i ∈ reads, i ≤ fmt.chars.length := by
  refine ⟨[front.length], ?_, fun i hi ↦ ?_⟩
  · rw [scanLoop_stop (.inr hfull), copy_full hfull]
  · rw [List.mem_singleton.mp hi, hfmt, List.length_append]
    exact Nat.le_add_right _ _

/-- A format that ends in an open directive ends in `%`. -/
theorem getLast?_of_endsOpen {format : List UInt8} (h : EndsOpen format) :
    format.getLast? = some 37 := by
  induction format using format_induction with
  | nil => exact h.elim
  | char c rest hc ih =>
      have hrest := ih ((endsOpen_char hc rest).mp h)
      rw [List.getLast?_cons, hrest]
      rfl
  | last => rfl
  | directive d rest ih =>
      have hrest := ih ((endsOpen_directive d rest).mp h)
      rw [List.getLast?_cons, List.getLast?_cons, hrest]
      rfl

/-- The scan puts out what fits of the full expansion, and reads no further than the terminator if
it does not come to a `%` at the end. -/
theorem scanLoop_spec (behind : Nat → UInt8) {rest : List UInt8} :
    ∀ {front full : List UInt8} {turns : Nat} {args : List VaArg} {o : Output},
    fmt.chars = front ++ rest → rest.length ≤ turns →
    expand rest args = some full → ¬ EndsOpen rest ∨ o.remaining.toNat ≤ full.length →
    ∃ reads, scanLoop fmt behind (turns + 1) front.length args o = some (o.copy full, reads) ∧
      ∀ i ∈ reads, i ≤ fmt.chars.length := by
  induction rest using format_induction with
  | nil =>
      intro front full turns args o hfmt _ hexpand _
      obtain rfl : [] = full := Option.some.inj hexpand
      have hend : fmt.at behind front.length = 0 := by
        rw [← at_length fmt behind, hfmt, List.append_nil]
      exact ⟨[front.length], by rw [scanLoop_stop (.inl hend), copy_nil], by simp [hfmt]⟩
  | char c rest hc ih =>
      intro front full turns args o hfmt hturns hexpand hend
      by_cases hroom : o.remaining > 0
      · rw [expand_char hc] at hexpand
        obtain ⟨tail, htail, rfl⟩ := Option.map_eq_some_iff.mp hexpand
        rw [List.length_cons] at hturns
        obtain ⟨turns, rfl⟩ := Nat.exists_eq_succ_of_ne_zero (by omega : turns ≠ 0)
        have hput := toNat_remaining_put c hroom
        rw [endsOpen_char hc, List.length_cons] at hend
        have hfmt' : fmt.chars = (front ++ [c]) ++ rest := by rw [hfmt, List.append_assoc]; rfl
        have hend' : ¬ EndsOpen rest ∨ (o.put c).remaining.toNat ≤ tail.length :=
          hend.imp_right fun h ↦ by omega
        obtain ⟨reads, hscan, hreads⟩ := ih hfmt' (Nat.le_of_succ_le_succ hturns) htail hend'
        rw [List.length_append, List.length_singleton] at hscan
        refine ⟨front.length :: reads, ?_, ?_⟩
        · rw [scanLoop_char (at_append hfmt) (ne_zero_of_append hfmt) hc hroom, hscan,
            copy_cons hroom]
          rfl
        · rw [List.forall_mem_cons]
          exact ⟨by simp [hfmt], hreads⟩
      · exact scanLoop_full hfmt (not_pos_iff.mp hroom)
  | last =>
      intro front full turns args o hfmt _ hexpand hend
      obtain rfl : [] = full := by simpa [expand] using hexpand
      rcases hend with hend | hend
      · exact absurd rfl hend
      · exact scanLoop_full hfmt (UInt32.toNat_inj.mp (Nat.le_zero.mp hend))
  | directive d rest ih =>
      intro front full turns args o hfmt hturns hexpand hend
      by_cases hroom : o.remaining > 0
      · rw [expand_directive] at hexpand
        obtain ⟨⟨t, args'⟩, htext, hexpand⟩ := Option.bind_eq_some_iff.mp hexpand
        obtain ⟨tail, htail, rfl⟩ := Option.map_eq_some_iff.mp hexpand
        rw [List.length_cons, List.length_cons] at hturns
        obtain ⟨turns, rfl⟩ := Nat.exists_eq_succ_of_ne_zero (by omega : turns ≠ 0)
        have hcopy := toNat_remaining_copy o t
        rw [endsOpen_directive, List.length_append] at hend
        dsimp only at hend htail
        have hfmt' : fmt.chars = (front ++ [37, d]) ++ rest := by
          rw [hfmt, List.append_assoc]
          rfl
        have hend' : ¬ EndsOpen rest ∨ (o.copy t).remaining.toNat ≤ tail.length :=
          hend.imp_right fun h ↦ by omega
        have hturns' : rest.length ≤ turns := by omega
        obtain ⟨reads, hscan, hreads⟩ := ih hfmt' hturns' htail hend'
        have hlength : (front ++ [37, d]).length = front.length + 1 + 1 := List.length_append
        rw [hlength] at hscan
        refine ⟨front.length :: (front.length + 1) :: reads, ?_, ?_⟩
        · rw [scanLoop_directive (at_append hfmt) (at_append_succ hfmt) hroom htext, hscan,
            copy_append]
          rfl
        · rw [List.forall_mem_cons, List.forall_mem_cons]
          exact ⟨by simp [hfmt], by simp [hfmt], hreads⟩
      · exact scanLoop_full hfmt (not_pos_iff.mp hroom)

/-- Where the scan comes to a `%` at the end with room left, it reads behind the terminator. -/
theorem scanLoop_behind {rest : List UInt8} : ∀ {front full : List UInt8} {turns : Nat}
    {args : List VaArg} {o : Output} {r : Output × List Nat}, fmt.chars = front ++ rest →
    expand rest args = some full → EndsOpen rest → full.length < o.remaining.toNat →
    scanLoop fmt behind turns front.length args o = some r → fmt.chars.length + 1 ∈ r.2 := by
  induction rest using format_induction with
  | nil =>
      intro front full turns args o r _ _ hopen
      exact hopen.elim
  | char c rest hc ih =>
      intro front full turns args o r hfmt hexpand hopen hroom hscan
      rw [expand_char hc] at hexpand
      obtain ⟨tail, htail, rfl⟩ := Option.map_eq_some_iff.mp hexpand
      rw [List.length_cons] at hroom
      have hpos : o.remaining > 0 := toNat_pos.mpr (by omega)
      have hput := toNat_remaining_put c hpos
      cases turns with
      | zero => cases hscan
      | succ turns =>
          rw [scanLoop_char (at_append hfmt) (ne_zero_of_append hfmt) hc hpos] at hscan
          obtain ⟨r', hrest, rfl⟩ := Option.map_eq_some_iff.mp hscan
          have hfront : (front ++ [c]).length = front.length + 1 := List.length_append
          rw [← hfront] at hrest
          refine List.mem_cons_of_mem _ (ih ?_ htail ((endsOpen_char hc rest).mp hopen) ?_ hrest)
          · rw [hfmt, List.append_assoc]
            rfl
          · omega
  | last =>
      intro front full turns args o r hfmt hexpand _ hroom hscan
      have hpos : o.remaining > 0 := toNat_pos.mpr (by omega)
      have hlength : fmt.chars.length = front.length + 1 := by rw [hfmt, List.length_append]; rfl
      have hend : fmt.at behind (front.length + 1) = 0 := by rw [← hlength, at_length]
      have htext : directiveText 0 args = some ([], args) := rfl
      cases turns with
      | zero => cases hscan
      | succ turns =>
          -- the terminator is taken for an unknown directive, the next turn is behind it
          rw [scanLoop_directive (at_append hfmt) hend hpos htext] at hscan
          obtain ⟨r', hrest, rfl⟩ := Option.map_eq_some_iff.mp hscan
          rw [hlength]
          exact List.mem_cons_of_mem _ (List.mem_cons_of_mem _ (mem_reads hrest))
  | directive d rest ih =>
      intro front full turns args o r hfmt hexpand hopen hroom hscan
      rw [expand_directive] at hexpand
      obtain ⟨⟨t, args'⟩, htext, hexpand⟩ := Option.bind_eq_some_iff.mp hexpand
      obtain ⟨tail, htail, rfl⟩ := Option.map_eq_some_iff.mp hexpand
      rw [List.length_append] at hroom
      dsimp only at hroom htail
      have hpos : o.remaining > 0 := toNat_pos.mpr (by omega)
      have hcopy := toNat_remaining_copy o t
      cases turns with
      | zero => cases hscan
      | succ turns =>
          rw [scanLoop_directive (at_append hfmt) (at_append_succ hfmt) hpos htext] at hscan
          obtain ⟨r', hrest, rfl⟩ := Option.map_eq_some_iff.mp hscan
          have hfront : (front ++ [37, d]).length = front.length + 1 + 1 := List.length_append
          rw [← hfront] at hrest
          refine List.mem_cons_of_mem _ (List.mem_cons_of_mem _
            (ih ?_ htail ((endsOpen_directive d rest).mp hopen) ?_ hrest))
          · rw [hfmt, List.append_assoc]
            rfl
          · omega

end Scan

/-! ## A whole call -/

section Call

variable {out turns : Nat} {outSize : UInt32} {fmt : CString} {args : List VaArg}
  {full : List UInt8}

/-- How many characters of the expansion fit before the terminator. -/
def shownLength (outSize : UInt32) (full : List UInt8) : Nat := min full.length (outSize.toNat - 1)

/-- What a call owes: it writes only the array, stores the prefix of the expansion that fits and a
terminator, and returns how long that is. -/
structure Formatted (out : Nat) (outSize : UInt32) (full : List UInt8) (m : Memory)
    (r : KsnprintfResult) : Prop where
  inside : ∀ a, a < out ∨ out + outSize.toNat ≤ a → r.mem a = m a
  stored : readBytes r.mem out (shownLength outSize full + 1) =
    full.take (shownLength outSize full) ++ [0]
  nonzero : 0 ∉ full.take (shownLength outSize full)
  ret : r.ret.toInt = shownLength outSize full

/-- There is no terminator in the text of a directive. -/
theorem zero_notMem_directiveText {c : UInt8} {t : List UInt8} {args' : List VaArg}
    (h : directiveText c args = some (t, args')) : 0 ∉ t := by
  rw [directiveText] at h
  split at h
  · obtain ⟨r, -, hr⟩ := Option.map_eq_some_iff.mp h
    cases hr
    exact zero_notMem_decimal _
  split at h
  · obtain ⟨r, -, hr⟩ := Option.map_eq_some_iff.mp h
    cases hr
    rw [intDecimal]
    split
    · rw [List.mem_cons, not_or]
      exact ⟨by decide, zero_notMem_decimal _⟩
    · exact zero_notMem_decimal _
  split at h
  · obtain ⟨r, -, hr⟩ := Option.map_eq_some_iff.mp h
    cases hr
    exact r.1.nonzero
  · cases h
    exact List.not_mem_nil

/-- There is no terminator in an expansion. -/
theorem zero_notMem_expand {format : List UInt8} : ∀ {args : List VaArg} {full : List UInt8},
    0 ∉ format → expand format args = some full → 0 ∉ full := by
  induction format using format_induction with
  | nil =>
      intro args full _ hexpand
      cases hexpand
      exact List.not_mem_nil
  | char c rest hc ih =>
      intro args full hformat hexpand
      rw [expand_char hc] at hexpand
      obtain ⟨tail, htail, rfl⟩ := Option.map_eq_some_iff.mp hexpand
      rw [List.mem_cons, not_or] at hformat ⊢
      exact ⟨hformat.1, ih hformat.2 htail⟩
  | last =>
      intro args full _ hexpand
      obtain rfl : [] = full := by simpa [expand] using hexpand
      exact List.not_mem_nil
  | directive d rest ih =>
      intro args full hformat hexpand
      rw [expand_directive] at hexpand
      obtain ⟨⟨t, args'⟩, htext, hexpand⟩ := Option.bind_eq_some_iff.mp hexpand
      obtain ⟨tail, htail, rfl⟩ := Option.map_eq_some_iff.mp hexpand
      rw [List.mem_cons, List.mem_cons, not_or, not_or] at hformat
      rw [List.mem_append, not_or]
      exact ⟨zero_notMem_directiveText htext, ih hformat.2.2 htail⟩

/-- A call that the scan of which does not come to a `%` at the end. -/
theorem ksnprintf_eq (hout : out ≠ 0) (hsize : outSize ≠ 0)
    (hexpand : expand fmt.chars args = some full)
    (hend : ¬ EndsOpen fmt.chars ∨ outSize.toNat - 1 ≤ full.length) (behind : Nat → UInt8)
    (m : Memory) :
    ∃ reads, ksnprintf (fmt.chars.length + 1) out outSize fmt behind args m =
        some { ret := Int32.ofInt (shownLength outSize full),
               mem := writeBytes m out (full.take (shownLength outSize full) ++ [0]), reads } ∧
      ∀ i ∈ reads, i ≤ fmt.chars.length := by
  have hpos := toNat_pos_of_ne_zero hsize
  have hroom : (outSize - 1).toNat = outSize.toNat - 1 := toNat_sub_one hpos
  let o : Output := { dst := out, remaining := outSize - 1, mem := m }
  have hend' : ¬ EndsOpen fmt.chars ∨ o.remaining.toNat ≤ full.length :=
    hend.imp_right fun h ↦ by rwa [hroom]
  have hfmt : fmt.chars = [] ++ fmt.chars := rfl
  obtain ⟨reads, hscan, hreads⟩ := scanLoop_spec behind hfmt le_rfl hexpand hend'
  obtain ⟨hdst, hmem⟩ := copy_eq o full
  have htake : full.take o.remaining.toNat = full.take (shownLength outSize full) := by
    rw [hroom, shownLength, Nat.min_comm, List.take_eq_take_min]
  have hlength : (full.take (shownLength outSize full)).length = shownLength outSize full := by
    rw [List.length_take, shownLength]
    omega
  refine ⟨reads, ?_, hreads⟩
  rw [ksnprintf, if_neg (not_or.mpr ⟨hout, hsize⟩), Option.bind_eq_bind]
  rw [List.length_nil] at hscan
  rw [hscan, Option.bind_some]
  dsimp only
  have hlen : (o.dst + shownLength outSize full : Nat) - (out : Int) =
      shownLength outSize full := by
    show (out + shownLength outSize full : Nat) - (out : Int) = _
    omega
  rw [hdst, hmem, htake, writeBytes_append, hlength, hlen]
  rfl

/-- Such a call does what it owes where the length is one of an `int`. -/
theorem formatted_of_lt (hsize : outSize ≠ 0) (hfull : 0 ∉ full)
    (hshort : shownLength outSize full < 2 ^ 31) (m : Memory) (reads : List Nat) :
    Formatted out outSize full m
      { ret := Int32.ofInt (shownLength outSize full),
        mem := writeBytes m out (full.take (shownLength outSize full) ++ [0]), reads } := by
  have hpos := toNat_pos_of_ne_zero hsize
  have hlength : (full.take (shownLength outSize full) ++ [0]).length =
      shownLength outSize full + 1 := by
    rw [List.length_append, List.length_take, List.length_singleton, shownLength]
    omega
  have hfits : shownLength outSize full + 1 ≤ outSize.toNat := by
    rw [shownLength]
    omega
  refine ⟨fun a ha ↦ writeBytes_outside _ _ _ _ ?_, ?_, ?_, ?_⟩
  · rw [hlength]
    omega
  · rw [← hlength]
    exact read_write_same m out _
  · exact fun h ↦ hfull (List.mem_of_mem_take h)
  · exact Int32.toInt_ofInt_of_le (by omega) (by omega)

end Call

/-- A call of `ksnprintf` with an array, a format that does not end in an open directive and
arguments that match it writes only the array, stores the prefix of the full expansion that fits
with a terminator and returns its length, if and only if that length is one of an `int`: the array
has at most `2 ^ 31` bytes or the expansion fewer characters. -/
theorem ksnprintf_bounded {out : Nat} (hout : out ≠ 0) {outSize : UInt32} (hsize : 1 ≤ outSize)
    {fmt : CString} (hfmt : ¬ EndsOpen fmt.chars) {args : List VaArg} {full : List UInt8}
    (hexpand : expand fmt.chars args = some full) (behind : Nat → UInt8) (m : Memory) :
    (∃ turns r, ksnprintf turns out outSize fmt behind args m = some r ∧
        Formatted out outSize full m r) ↔
      outSize.toNat ≤ 2 ^ 31 ∨ full.length < 2 ^ 31 := by
  have hpos : 1 ≤ outSize.toNat := UInt32.le_iff_toNat_le.mp hsize
  have hne : outSize ≠ 0 := by
    rintro rfl
    exact absurd hpos (by decide)
  have hshort : shownLength outSize full < 2 ^ 31 ↔
      outSize.toNat ≤ 2 ^ 31 ∨ full.length < 2 ^ 31 := by
    rw [shownLength]
    omega
  rw [← hshort]
  constructor
  · rintro ⟨turns, r, -, h⟩
    have hret := h.ret
    have hlt := r.ret.toInt_lt
    omega
  · intro h
    obtain ⟨reads, hrun, -⟩ := ksnprintf_eq hout hne hexpand (.inl hfmt) behind m
    exact ⟨_, _, hrun, formatted_of_lt hne (zero_notMem_expand fmt.nonzero hexpand) h m reads⟩

/-- A format with a number, cut off after four characters. -/
theorem ksnprintf_bounded_number :
    (∃ turns r, ksnprintf turns 4096 5 (CString.of "n=%d" (by decide)) (fun _ ↦ 0) [.int (-120)]
          (fun _ ↦ 0) = some r ∧ Formatted 4096 5 (text "n=-120") (fun _ ↦ 0) r) ↔
      (5 : UInt32).toNat ≤ 2 ^ 31 ∨ (text "n=-120").length < 2 ^ 31 :=
  ksnprintf_bounded (by decide) (by decide)
    (mt getLast?_of_endsOpen (by decide +kernel)) (by decide +kernel) (fun _ ↦ 0) (fun _ ↦ 0)

/-- A string of `2 ^ 31` characters. -/
def longString : CString where
  chars := List.replicate (2 ^ 31) 97
  nonzero h := absurd (List.eq_of_mem_replicate h) (by decide)

/-- With a string of `2 ^ 31` characters and an array that has room for it, the length that is
returned is negative. -/
theorem ksnprintf_negative :
    expand (text "%s") [.string longString] = some longString.chars ∧ ¬ EndsOpen (text "%s") ∧
      (∃ turns r, ksnprintf turns 4096 0x80000001 (CString.of "%s" (by decide)) (fun _ ↦ 0)
        [.string longString] (fun _ ↦ 0) = some r ∧ r.ret = -2147483648) ∧
      ¬ ∃ turns r, ksnprintf turns 4096 0x80000001 (CString.of "%s" (by decide)) (fun _ ↦ 0)
        [.string longString] (fun _ ↦ 0) = some r ∧
          Formatted 4096 0x80000001 longString.chars (fun _ ↦ 0) r := by
  have hformat : text "%s" = [37, 115] := by decide
  have hexpand (str : CString) : expand (text "%s") [.string str] = some str.chars := by
    rw [hformat, expand_directive]
    simp [directiveText, vaString, expand]
  have hclosed : ¬ EndsOpen (text "%s") := mt getLast?_of_endsOpen (by decide)
  have hshown : shownLength 0x80000001 longString.chars = 2 ^ 31 := by
    rw [shownLength, longString, List.length_replicate]
    rfl
  refine ⟨hexpand longString, hclosed, ?_, ?_⟩
  · have hout : 4096 ≠ 0 := by decide
    have hsize : (0x80000001 : UInt32) ≠ 0 := by decide
    have hformat' : expand (CString.of "%s" (by decide)).chars [.string longString] =
        some longString.chars :=
      hexpand longString
    obtain ⟨reads, hrun, -⟩ := ksnprintf_eq hout hsize hformat' (.inl hclosed) (fun _ ↦ 0)
      (fun _ ↦ 0)
    refine ⟨_, _, hrun, ?_⟩
    rw [hshown]
    rfl
  · rintro ⟨turns, r, -, h⟩
    have hret := h.ret
    have hlt := r.ret.toInt_lt
    rw [hshown] at hret
    omega

/-- A call the scan of which comes to a `%` at the end with room left reads behind the format. -/
theorem ksnprintf_behind {turns out : Nat} {outSize : UInt32} {fmt : CString} {args : List VaArg}
    {full : List UInt8} {behind : Nat → UInt8} {m : Memory} {r : KsnprintfResult} (hout : out ≠ 0)
    (hsize : outSize ≠ 0) (hexpand : expand fmt.chars args = some full)
    (hopen : EndsOpen fmt.chars) (hroom : full.length < outSize.toNat - 1)
    (hrun : ksnprintf turns out outSize fmt behind args m = some r) :
    fmt.chars.length + 1 ∈ r.reads := by
  rw [ksnprintf, if_neg (not_or.mpr ⟨hout, hsize⟩)] at hrun
  obtain ⟨⟨o, reads⟩, hscan, hrun⟩ := Option.bind_eq_some_iff.mp hrun
  obtain rfl := Option.some.inj hrun
  have hremaining : (outSize - 1).toNat = outSize.toNat - 1 := toNat_sub_one (by omega)
  have hfmt : fmt.chars = [] ++ fmt.chars := rfl
  refine scanLoop_behind hfmt hexpand hopen ?_ hscan
  show full.length < (outSize - 1).toNat
  omega

/-- A call of `ksnprintf` with arguments that match its format ends and reads the format no further
than its terminator, if and only if there is nothing to write, or the format does not end in an open
directive, or the array is full before the scan comes to it. -/
theorem ksnprintf_reads_inside {out : Nat} {outSize : UInt32} {fmt : CString} {args : List VaArg}
    {full : List UInt8} (hexpand : expand fmt.chars args = some full) (behind : Nat → UInt8)
    (m : Memory) :
    (∃ turns r, ksnprintf turns out outSize fmt behind args m = some r ∧
        ∀ i ∈ r.reads, i ≤ fmt.chars.length) ↔
      out = 0 ∨ outSize = 0 ∨ ¬ EndsOpen fmt.chars ∨ outSize.toNat - 1 ≤ full.length := by
  by_cases hnothing : out = 0 ∨ outSize = 0
  · have hrun : ksnprintf 0 out outSize fmt behind args m =
        some { ret := 0, mem := m, reads := [] } := by
      rw [ksnprintf, if_pos hnothing]
    exact iff_of_true ⟨_, _, hrun, fun i hi ↦ absurd hi List.not_mem_nil⟩
      (hnothing.imp_right .inl)
  · obtain ⟨hout, hsize⟩ := not_or.mp hnothing
    constructor
    · rintro ⟨turns, r, hrun, hreads⟩
      refine .inr (.inr ?_)
      by_contra hopen
      obtain ⟨hopen, hroom⟩ := not_or.mp hopen
      have hbehind := hreads _ (ksnprintf_behind hout hsize hexpand (not_not.mp hopen)
        (Nat.not_le.mp hroom) hrun)
      omega
    · rintro (h | h | h)
      · exact absurd h hout
      · exact absurd h hsize
      · obtain ⟨reads, hrun, hreads⟩ := ksnprintf_eq hout hsize hexpand h behind m
        exact ⟨_, _, hrun, hreads⟩

/-- An unknown directive before the end of the format. -/
theorem ksnprintf_reads_inside_unknown :
    (∃ turns r, ksnprintf turns 4096 8 (CString.of "a%%b" (by decide)) (fun _ ↦ 0) [] (fun _ ↦ 0) =
        some r ∧ ∀ i ∈ r.reads, i ≤ (text "a%%b").length) ↔
      4096 = 0 ∨ (8 : UInt32) = 0 ∨ ¬ EndsOpen (text "a%%b") ∨
        (8 : UInt32).toNat - 1 ≤ (text "ab").length :=
  ksnprintf_reads_inside (by decide +kernel) (fun _ ↦ 0) (fun _ ↦ 0)

/-- With the format `%` and room for a character, the scan reads behind the terminator. -/
theorem ksnprintf_reads_behind :
    expand (text "%") [] = some [] ∧
      ¬ ∃ turns r, ksnprintf turns 4096 2 (CString.of "%" (by decide)) (fun _ ↦ 0) [] (fun _ ↦ 0) =
        some r ∧ ∀ i ∈ r.reads, i ≤ (text "%").length := by
  have hexpand : expand (CString.of "%" (by decide)).chars [] = some [] := by decide +kernel
  refine ⟨hexpand, ?_⟩
  rintro ⟨turns, r, hrun, hreads⟩
  have hopen : EndsOpen (text "%") := show EndsOpen [37] from rfl
  have hbehind := ksnprintf_behind (by decide) (by decide) hexpand hopen (by decide) hrun
  exact absurd (hreads _ hbehind) (by decide +kernel)

end Aether.Common
