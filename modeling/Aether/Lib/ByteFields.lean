import Aether.Lib.ByteMemory

/-!
# Fields of packed structures

A packed structure is the concatenation of its fields' little-endian bytes. `u8`, `u16` and
`u32` read a field at an offset of a byte string. The simp lemmas find a field in a concatenation
by skipping the parts before it, so that decoding an encoded structure is one call of `simp`.
-/

namespace ByteMemory

/-- The `n`-byte little-endian word at offset `i` of a byte string. -/
def word (bs : List UInt8) (i n : Nat) : Nat := leNat ((bs.drop i).take n)

/-- The `uint8_t` at offset `i`. -/
def u8 (bs : List UInt8) (i : Nat) : UInt8 := UInt8.ofNat (word bs i 1)

/-- The `uint16_t` at offset `i`. -/
def u16 (bs : List UInt8) (i : Nat) : UInt16 := UInt16.ofNat (word bs i 2)

/-- The `uint32_t` at offset `i`. -/
def u32 (bs : List UInt8) (i : Nat) : UInt32 := UInt32.ofNat (word bs i 4)

/-- A word after the first part of a concatenation is a word of the rest. -/
theorem word_append {xs ys : List UInt8} {i n : Nat} (h : xs.length ≤ i) :
    word (xs ++ ys) i n = word ys (i - xs.length) n := by
  rw [word, word, List.drop_append, List.drop_eq_nil_of_le h, List.nil_append]

/-- The word at the start of a concatenation. -/
theorem word_leBytes_append (n v : Nat) (ys : List UInt8) :
    word (leBytes n v ++ ys) 0 n = v % 256 ^ n := by
  rw [word, List.drop_zero, List.take_left' (length_leBytes n v), leNat_leBytes]

/-- The bytes of a field. -/
theorem leBytes_u16 {bs : List UInt8} {i : Nat} (h : i + 2 ≤ bs.length) :
    leBytes 2 (u16 bs i).toNat = (bs.drop i).take 2 := by
  have hlen : ((bs.drop i).take 2).length = 2 := by simp; omega
  have hlt := leNat_lt ((bs.drop i).take 2)
  rw [hlen] at hlt
  have hbytes := leBytes_leNat ((bs.drop i).take 2)
  rw [hlen] at hbytes
  rw [u16, word, UInt16.toNat_ofNat_of_lt' (by exact hlt), hbytes]

/-- A load from memory is a word of any read that covers it. -/
theorem load_eq_word (m : Memory) (a : Nat) {i n k : Nat} (h : i + n ≤ k) :
    load n m (a + i) = word (readBytes m a k) i n := by
  rw [word, drop_readBytes m a (by omega), take_readBytes m (a + i) (by omega), load]

section Skip

variable {xs ys : List UInt8} {i : Nat}

@[simp] theorem u8_append (h : xs.length ≤ i) : u8 (xs ++ ys) i = u8 ys (i - xs.length) := by
  rw [u8, word_append h, u8]

@[simp] theorem u16_append (h : xs.length ≤ i) : u16 (xs ++ ys) i = u16 ys (i - xs.length) := by
  rw [u16, word_append h, u16]

@[simp] theorem u32_append (h : xs.length ≤ i) : u32 (xs ++ ys) i = u32 ys (i - xs.length) := by
  rw [u32, word_append h, u32]

end Skip

@[simp] theorem u8_head (x : UInt8) (ys : List UInt8) : u8 (leBytes 1 x.toNat ++ ys) 0 = x := by
  rw [u8, word_leBytes_append, Nat.mod_eq_of_lt (by exact x.toNat_lt), UInt8.ofNat_toNat]

@[simp] theorem u16_head (x : UInt16) (ys : List UInt8) :
    u16 (leBytes 2 x.toNat ++ ys) 0 = x := by
  rw [u16, word_leBytes_append, Nat.mod_eq_of_lt (by exact x.toNat_lt), UInt16.ofNat_toNat]

@[simp] theorem u32_head (x : UInt32) (ys : List UInt8) :
    u32 (leBytes 4 x.toNat ++ ys) 0 = x := by
  rw [u32, word_leBytes_append, Nat.mod_eq_of_lt (by exact x.toNat_lt), UInt32.ofNat_toNat]

end ByteMemory
