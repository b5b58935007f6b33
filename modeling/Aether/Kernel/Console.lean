import Mathlib.Data.List.DropRight
import Mathlib.Data.UInt

/-!
# Function keys at the console

The input automaton of `kernel_main`. It keeps the number of a control sequence in a static variable
that only a `~` clears, so an aborted sequence leaves its digits behind. `function_keys_recognised`
says for which input the keys are recognised all the same, and nothing else is.
-/

namespace Aether.Kernel

/-- `kernel_mode_t`. -/
inductive KernelMode where
  | portal
  | confirmShutdown
  | netStats
  | debug
  deriving DecidableEq

/-- The variables of the input automaton: `esc_state`, the 32 bits of the static `int num`, and
`current_mode`. -/
structure Console where
  escState : Nat
  num : UInt32
  currentMode : KernelMode
  deriving DecidableEq

namespace Console

/-- At the start of the main loop. -/
def boot : Console := ⟨0, 0, .portal⟩

/-- `c >= '0' && c <= '9'`. -/
def isDigit (c : UInt8) : Bool := 0x30 ≤ c && c ≤ 0x39

/-- `num * 10 + (c - '0')`. -/
def pushDigit (num : UInt32) (c : UInt8) : UInt32 := num * 10 + (c - 0x30).toUInt32

/-- The `switch (num)` after a `~`. -/
def numMode (num : UInt32) (mode : KernelMode) : KernelMode :=
  if num = 18 then .confirmShutdown else if num = 21 then .netStats else mode

/-- What `kernel_main` does with the next byte. -/
def input (s : Console) (c : UInt8) : Console :=
  if c = 0x1B then { s with escState := 1 }
  else if s.escState = 1 then
    if c = 0x5B then { s with escState := 2 }
    else if c = 0x4F then { s with escState := 20 }
    else { s with escState := 0 }
  else if s.escState = 20 then
    { s with escState := 0, currentMode := if c = 0x50 then .debug else s.currentMode }
  -- a sequence that ends in any other way leaves `num` as it is
  else if s.escState = 2 then
    if isDigit c then { s with num := pushDigit s.num c }
    else if c = 0x7E then ⟨0, 0, numMode s.num s.currentMode⟩
    else { s with escState := 0 }
  else { s with escState := 0 }

/-- The automaton after a byte stream. -/
def feed (s : Console) (bytes : List UInt8) : Console := bytes.foldl input s

theorem feed_append (s : Console) (u v : List UInt8) : s.feed (u ++ v) = (s.feed u).feed v :=
  List.foldl_append

end Console

/-- The keys that the console handles. -/
inductive FunctionKey where
  | f1
  | f7
  | f10
  deriving DecidableEq

namespace FunctionKey

/-- The bytes that a terminal sends: `ESC O P`, `ESC [ 1 8 ~` and `ESC [ 2 1 ~`. -/
def bytes : FunctionKey → List UInt8
  | f1 => [0x1B, 0x4F, 0x50]
  | f7 => [0x1B, 0x5B, 0x31, 0x38, 0x7E]
  | f10 => [0x1B, 0x5B, 0x32, 0x31, 0x7E]

/-- The mode that the key selects. -/
def mode : FunctionKey → KernelMode
  | f1 => .debug
  | f7 => .confirmShutdown
  | f10 => .netStats

end FunctionKey

namespace Console

/-! ## Pressing a key -/

/-- `ESC O P` selects the debug mode in any state. -/
theorem feed_f1 (s : Console) : (s.feed FunctionKey.f1.bytes).currentMode = .debug := rfl

/-- The digits of a sequence are added to what is left in `num`. -/
theorem feed_f7 (s : Console) : (s.feed FunctionKey.f7.bytes).currentMode =
    numMode (pushDigit (pushDigit s.num 0x31) 0x38) s.currentMode := rfl

theorem feed_f10 (s : Console) : (s.feed FunctionKey.f10.bytes).currentMode =
    numMode (pushDigit (pushDigit s.num 0x32) 0x31) s.currentMode := rfl

/-- Two digits after a left-over number. -/
theorem pushDigit_two (num : UInt32) (c d : UInt8) : pushDigit (pushDigit num c) d =
    num * 100 + ((c - 0x30).toUInt32 * 10 + (d - 0x30).toUInt32) := by
  unfold pushDigit
  grind

/-- Left-over digits never make one number of the `switch` into the other. -/
theorem hundred_add_ne (num : UInt32) : num * 100 + 18 ≠ 21 ∧ num * 100 + 21 ≠ 18 := by
  simp only [ne_eq, ← UInt32.toNat_inj, UInt32.toNat_add, UInt32.toNat_mul, UInt32.reduceToNat]
  omega

/-- After `18` the number is 18 if and only if nothing that counts was left. -/
theorem numMode_f7 (num : UInt32) (mode : KernelMode) :
    numMode (pushDigit (pushDigit num 0x31) 0x38) mode =
      if num * 100 = 0 then .confirmShutdown else mode := by
  rw [pushDigit_two]
  show numMode (num * 100 + 18) mode = _
  unfold numMode
  rw [if_neg (hundred_add_ne num).1]
  refine if_congr ?_ rfl rfl
  constructor <;> intro h <;> grind

/-- After `21` the number is 21 if and only if nothing that counts was left. -/
theorem numMode_f10 (num : UInt32) (mode : KernelMode) :
    numMode (pushDigit (pushDigit num 0x32) 0x31) mode =
      if num * 100 = 0 then .netStats else mode := by
  rw [pushDigit_two]
  show numMode (num * 100 + 21) mode = _
  unfold numMode
  rw [if_neg (hundred_add_ne num).2]
  refine if_congr ?_ rfl rfl
  constructor <;> intro h <;> grind

/-- A key that is pressed after any input selects its mode if and only if it is `ESC O P`, nothing
that counts is left in `num`, or the mode is selected already. -/
theorem feed_key (s : Console) (key : FunctionKey) :
    (s.feed key.bytes).currentMode = key.mode ↔
      key = .f1 ∨ s.num * 100 = 0 ∨ s.currentMode = key.mode := by
  cases key with
  | f1 => exact iff_of_true (feed_f1 s) (.inl rfl)
  | f7 =>
      rw [feed_f7, numMode_f7]
      show (if _ then KernelMode.confirmShutdown else _) = KernelMode.confirmShutdown ↔ _
      split <;> simp [FunctionKey.mode, *]
  | f10 =>
      rw [feed_f10, numMode_f10]
      show (if _ then KernelMode.netStats else _) = KernelMode.netStats ↔ _
      split <;> simp [FunctionKey.mode, *]

/-! ## What selects a mode -/

/-- The digits at the end of a byte stream. -/
def typed (u : List UInt8) : List UInt8 := u.rtakeWhile isDigit

/-- The decimal digits of a number. -/
def numeral (num : UInt32) : List UInt8 :=
  (Nat.toDigits 10 num.toNat).map fun digit ↦ UInt8.ofNat digit.toNat

/-- The two digits of a key at the end of a stream. -/
theorem typed_pair (w : List UInt8) {c d : UInt8} (hc : isDigit c = true) (hd : isDigit d = true) :
    typed (w ++ [0x1B, 0x5B, c, d]) = [c, d] := by
  have hsplit : w ++ [0x1B, 0x5B, c, d] = w ++ [0x1B] ++ [0x5B] ++ [c] ++ [d] := by simp
  unfold typed
  rw [hsplit, List.rtakeWhile_concat_pos _ _ _ hd, List.rtakeWhile_concat_pos _ _ _ hc,
    List.rtakeWhile_concat_neg _ _ _ (by decide)]
  rfl

/-- What the state says about the bytes that led to it. -/
structure Reads (u : List UInt8) (s : Console) : Prop where
  escape : s.escState = 1 → [0x1B] <:+ u
  letter : s.escState = 20 → [0x1B, 0x4F] <:+ u
  sequence : s.escState = 2 → [0x1B, 0x5B] ++ typed u <:+ u
  number : s.escState = 2 → ∃ stale, s.num = (typed u).foldl pushDigit stale

section Reads

variable {u : List UInt8} {s : Console} {num : UInt32} {mode : KernelMode}

/-- A state that is not inside a key says nothing. -/
theorem Reads.idle : Reads u ⟨0, num, mode⟩ := by
  constructor <;> intro h <;> cases h

/-- After an `ESC`. -/
theorem Reads.escaped (h : [0x1B] <:+ u) : Reads u ⟨1, num, mode⟩ where
  escape _ := h
  letter h := by cases h
  sequence h := by cases h
  number h := by cases h

/-- After `ESC O`. -/
theorem Reads.lettered (h : [0x1B, 0x4F] <:+ u) : Reads u ⟨20, num, mode⟩ where
  escape h := by cases h
  letter _ := h
  sequence h := by cases h
  number h := by cases h

/-- After `ESC [` and digits. -/
theorem Reads.sequenced (h : [0x1B, 0x5B] ++ typed u <:+ u)
    (hnum : ∃ stale, num = (typed u).foldl pushDigit stale) : Reads u ⟨2, num, mode⟩ where
  escape h := by cases h
  letter h := by cases h
  sequence _ := h
  number _ := hnum

/-- The next byte keeps the state in step with the bytes. -/
theorem Reads.input (h : Reads u s) (c : UInt8) : Reads (u ++ [c]) (s.input c) := by
  unfold Console.input
  split
  · rename_i hc
    rw [hc]
    exact .escaped (List.suffix_append u _)
  split
  · rename_i hstate
    obtain ⟨w, rfl⟩ := h.escape hstate
    split
    · rename_i hc
      -- the number of the new sequence starts with what an aborted one left
      have hnone : typed (w ++ [0x1B] ++ [c]) = [] := by
        unfold typed
        rw [hc]
        exact List.rtakeWhile_concat_neg _ _ _ (by decide)
      refine .sequenced ?_ ⟨s.num, ?_⟩
      · rw [hnone, hc]
        exact ⟨w, by simp⟩
      · rw [hnone]
        rfl
    split
    · rename_i hc
      rw [hc]
      exact .lettered ⟨w, by simp⟩
    · exact .idle
  split
  · exact .idle
  split
  · rename_i hstate
    split
    · rename_i hdigit
      have htyped : typed (u ++ [c]) = typed u ++ [c] := List.rtakeWhile_concat_pos _ _ _ hdigit
      rw [hstate]
      refine .sequenced ?_ ?_
      · obtain ⟨w, hw⟩ := h.sequence hstate
        refine ⟨w, ?_⟩
        rw [htyped, ← List.append_assoc, ← List.append_assoc, List.append_assoc w, hw]
      · obtain ⟨stale, hnum⟩ := h.number hstate
        refine ⟨stale, ?_⟩
        rw [htyped, List.foldl_append, ← hnum]
        rfl
    split
    · exact .idle
    · exact .idle
  · exact .idle

end Reads

/-- The state after any stream is in step with it. -/
theorem reads_feed (u : List UInt8) : Reads u (boot.feed u) := by
  induction u using List.reverseRecOn with
  | nil => exact .idle
  | append_singleton u c ih =>
      rw [feed_append]
      exact ih.input c

/-- A byte that changes the mode ends one of the two forms of key sequences. -/
theorem input_changes {s : Console} {c : UInt8}
    (hmode : (s.input c).currentMode ≠ s.currentMode) :
    s.escState = 20 ∧ c = 0x50 ∨
      s.escState = 2 ∧ c = 0x7E ∧ numMode s.num s.currentMode ≠ s.currentMode := by
  unfold input at hmode
  split at hmode
  · exact absurd rfl hmode
  split at hmode
  · split at hmode
    · exact absurd rfl hmode
    split at hmode
    · exact absurd rfl hmode
    · exact absurd rfl hmode
  split at hmode
  · rename_i hstate
    by_cases hc : c = 0x50
    · exact .inl ⟨hstate, hc⟩
    · rw [if_neg hc] at hmode
      exact absurd rfl hmode
  split at hmode
  · rename_i hstate
    split at hmode
    · exact absurd rfl hmode
    split at hmode
    · rename_i hc
      exact .inr ⟨hstate, hc, hmode⟩
    · exact absurd rfl hmode
  · exact absurd rfl hmode

/-- Only 18 and 21 change the mode. -/
theorem numMode_changes {num : UInt32} {mode : KernelMode} (h : numMode num mode ≠ mode) :
    num = 18 ∨ num = 21 := by
  unfold numMode at h
  by_cases h18 : num = 18
  · exact .inl h18
  · rw [if_neg h18] at h
    by_cases h21 : num = 21
    · exact .inr h21
    · rw [if_neg h21] at h
      exact absurd rfl h

theorem numeral_f7 : numeral 18 = [0x31, 0x38] := by decide

theorem numeral_f10 : numeral 21 = [0x32, 0x31] := by decide

/-- A control sequence that ends here was typed as the number it is taken for. -/
def Literal (u : List UInt8) (c : UInt8) : Prop :=
  (boot.feed u).escState = 2 → c = 0x7E →
    numMode (boot.feed u).num (boot.feed u).currentMode ≠ (boot.feed u).currentMode →
    typed u = numeral (boot.feed u).num

/-- The byte does not change the mode, or completes one of the keys. -/
def Completes (u : List UInt8) (c : UInt8) : Prop :=
  ((boot.feed u).input c).currentMode ≠ (boot.feed u).currentMode →
    ∃ key : FunctionKey, key.bytes <:+ u ++ [c]

/-- The last bytes before the one that ends a key. -/
theorem suffix_of_key {u : List UInt8} (ks : List UInt8) {c d : UInt8}
    (h : ks ++ [d] <:+ u ++ [c]) : ks <:+ u ∧ d = c := by
  obtain ⟨w, hw⟩ := h
  rw [← List.append_assoc] at hw
  obtain ⟨hw, hd⟩ := List.append_inj' hw rfl
  exact ⟨⟨w, hw⟩, List.singleton_inj.mp hd⟩

/-- A byte that completes a key or changes nothing does so if and only if control sequences are
taken for the numbers that were typed. -/
theorem completes_iff (u : List UInt8) (c : UInt8) : Completes u c ↔ Literal u c := by
  have hreads := reads_feed u
  constructor
  · rintro hcompletes hstate rfl hmode
    have hchange : ((boot.feed u).input 0x7E).currentMode ≠ (boot.feed u).currentMode := by
      unfold input
      rw [if_neg (by decide), if_neg (by rw [hstate]; decide), if_neg (by rw [hstate]; decide),
        if_pos hstate, if_neg (by decide), if_pos rfl]
      exact hmode
    obtain ⟨stale, hnum⟩ := hreads.number hstate
    -- each key leaves its own number, stale digits in front of it
    obtain ⟨key, hkey⟩ := hcompletes hchange
    cases key with
    | f1 => exact absurd (suffix_of_key [0x1B, 0x4F] hkey).2 (by decide)
    | f7 =>
        obtain ⟨⟨w, rfl⟩, -⟩ := suffix_of_key [0x1B, 0x5B, 0x31, 0x38] hkey
        rw [typed_pair w (by decide) (by decide)] at hnum ⊢
        rcases numMode_changes hmode with h18 | h21
        · rw [h18, numeral_f7]
        · rw [h21] at hnum
          exact absurd ((pushDigit_two stale 0x31 0x38).symm.trans hnum.symm) (hundred_add_ne _).1
    | f10 =>
        obtain ⟨⟨w, rfl⟩, -⟩ := suffix_of_key [0x1B, 0x5B, 0x32, 0x31] hkey
        rw [typed_pair w (by decide) (by decide)] at hnum ⊢
        rcases numMode_changes hmode with h18 | h21
        · rw [h18] at hnum
          exact absurd ((pushDigit_two stale 0x32 0x31).symm.trans hnum.symm) (hundred_add_ne _).2
        · rw [h21, numeral_f10]
  · intro hliteral hchange
    rcases input_changes hchange with ⟨hstate, rfl⟩ | ⟨hstate, rfl, hmode⟩
    · obtain ⟨w, rfl⟩ := hreads.letter hstate
      exact ⟨.f1, w, by simp [FunctionKey.bytes]⟩
    · have htyped := hliteral hstate rfl hmode
      obtain ⟨w, hw⟩ := hreads.sequence hstate
      rw [htyped] at hw
      rcases numMode_changes hmode with h18 | h21
      · rw [h18, numeral_f7] at hw
        exact ⟨.f7, w, by rw [← hw]; simp [FunctionKey.bytes]⟩
      · rw [h21, numeral_f10] at hw
        exact ⟨.f10, w, by rw [← hw]; simp [FunctionKey.bytes]⟩

end Console

/-- For every byte stream: a key that is pressed after it selects its mode if and only if the key is
`ESC O P`, no number that counts is left over, or the mode is selected already; and the next byte
changes the mode only to complete a key if and only if it does not end a sequence that is taken for
another number than was typed. -/
theorem function_keys_recognised (u : List UInt8) :
    (∀ key : FunctionKey, (Console.boot.feed (u ++ key.bytes)).currentMode = key.mode ↔
      key = .f1 ∨ (Console.boot.feed u).num * 100 = 0 ∨
        (Console.boot.feed u).currentMode = key.mode) ∧
    (∀ c, Console.Completes u c ↔ Console.Literal u c) := by
  refine ⟨fun key ↦ ?_, Console.completes_iff u⟩
  rw [Console.feed_append]
  exact Console.feed_key _ key

/-- After `ESC [ 5 x` the key F7 does nothing; and `ESC [ 0 1 8 ~` selects a mode. -/
theorem function_keys_residue :
    (Console.boot.feed ([0x1B, 0x5B, 0x35, 0x78] ++ FunctionKey.f7.bytes)).currentMode = .portal ∧
    ¬ Console.Completes [0x1B, 0x5B, 0x30, 0x31, 0x38] 0x7E := by
  refine ⟨by decide, ?_⟩
  intro hcompletes
  have hnone : ¬ ∃ key : FunctionKey, key.bytes <:+ [0x1B, 0x5B, 0x30, 0x31, 0x38, 0x7E] := by
    rintro ⟨key, hkey⟩
    cases key with
    | f1 => exact absurd hkey (by decide)
    | f7 => exact absurd hkey (by decide)
    | f10 => exact absurd hkey (by decide)
  exact hnone (hcompletes (by decide))

end Aether.Kernel
