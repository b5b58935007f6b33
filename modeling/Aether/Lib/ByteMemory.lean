import Mathlib.Data.List.GetD
import Mathlib.Tactic.Ring

/-!
# Byte-addressed memory

A memory is a total map from addresses to bytes. `readBytes` and `writeBytes` move whole byte
strings, and `load` and `store` move little-endian words of any width. The lemmas are the
read-over-write algebra: what a write changes (`read_write_same`), what it leaves alone
(`read_write_outside`), and `Agree`, the frame condition that two memories coincide on a range.
-/

namespace ByteMemory

/-! ## Little-endian words -/

/-- The `n` low bytes of `v`, least significant first. -/
def leBytes : Nat → Nat → List UInt8
  | 0, _ => []
  | n + 1, v => UInt8.ofNat v :: leBytes n (v / 256)

/-- The number whose little-endian bytes are given. -/
def leNat : List UInt8 → Nat
  | [] => 0
  | b :: bs => b.toNat + 256 * leNat bs

/-- The number whose big-endian bytes are given. -/
def beNat (bs : List UInt8) : Nat := leNat bs.reverse

/-- The `n` low bytes of `v`, most significant first. -/
def beBytes (n v : Nat) : List UInt8 := (leBytes n v).reverse

@[simp] theorem length_leBytes (n v : Nat) : (leBytes n v).length = n := by
  induction n generalizing v with
  | zero => rfl
  | succ n ih => simp [leBytes, ih]

@[simp] theorem length_beBytes (n v : Nat) : (beBytes n v).length = n := by
  simp [beBytes]

/-- Decoding inverts encoding, up to the width of the word. -/
theorem leNat_leBytes (n v : Nat) : leNat (leBytes n v) = v % 256 ^ n := by
  induction n generalizing v with
  | zero => simp [leBytes, leNat, Nat.mod_one]
  | succ n ih =>
      have hbyte : (UInt8.ofNat v).toNat = v % 256 := UInt8.toNat_ofNat'
      rw [leBytes, leNat, ih, hbyte, pow_succ, mul_comm (256 ^ n), Nat.mod_mul]

/-- Big-endian decoding inverts big-endian encoding. -/
theorem beNat_beBytes (n v : Nat) : beNat (beBytes n v) = v % 256 ^ n := by
  rw [beNat, beBytes, List.reverse_reverse, leNat_leBytes]

/-- A string of `n` bytes denotes a number below `256 ^ n`. -/
theorem leNat_lt (bs : List UInt8) : leNat bs < 256 ^ bs.length := by
  induction bs with
  | nil => simp [leNat]
  | cons b bs ih =>
      have hb := b.toNat_lt
      rw [leNat, List.length_cons, pow_succ]
      omega

/-- Encoding inverts decoding. -/
theorem leBytes_leNat (bs : List UInt8) : leBytes bs.length (leNat bs) = bs := by
  induction bs with
  | nil => rfl
  | cons b bs ih =>
      have hb := b.toNat_lt
      have hdiv : (b.toNat + 256 * leNat bs) / 256 = leNat bs := by omega
      have hbyte : UInt8.ofNat (b.toNat + 256 * leNat bs) = b := by
        apply UInt8.toNat_inj.mp
        rw [UInt8.toNat_ofNat']
        omega
      rw [List.length_cons, leNat, leBytes, hbyte, hdiv, ih]

/-! ## Reading and writing byte strings -/

/-- A memory: one byte at every address. -/
abbrev Memory := Nat → UInt8

/-- The `n` bytes starting at address `a`. -/
def readBytes (m : Memory) (a : Nat) : Nat → List UInt8
  | 0 => []
  | n + 1 => m a :: readBytes m (a + 1) n

/-- The memory with the byte string `bs` written at address `a`. -/
def writeBytes (m : Memory) (a : Nat) (bs : List UInt8) : Memory :=
  fun x ↦ if a ≤ x ∧ x < a + bs.length then bs.getD (x - a) 0 else m x

@[simp] theorem length_readBytes (m : Memory) (a n : Nat) : (readBytes m a n).length = n := by
  induction n generalizing a with
  | zero => rfl
  | succ n ih => simp [readBytes, ih]

/-- A read of `n + k` bytes is a read of `n` followed by a read of `k`. -/
theorem readBytes_add (m : Memory) (a n k : Nat) :
    readBytes m a (n + k) = readBytes m a n ++ readBytes m (a + n) k := by
  induction n generalizing a with
  | zero => simp [readBytes]
  | succ n ih =>
      rw [Nat.succ_add, readBytes, readBytes, ih, List.cons_append,
        show a + 1 + n = a + (n + 1) by omega]

/-- A read of a concatenation reads its parts. -/
theorem readBytes_append {m : Memory} {a k : Nat} {xs ys : List UInt8}
    (h : readBytes m a (xs.length + k) = xs ++ ys) :
    readBytes m a xs.length = xs ∧ readBytes m (a + xs.length) k = ys := by
  rw [readBytes_add] at h
  exact List.append_inj h (length_readBytes m a xs.length)

/-- A read depends only on the bytes it reads. -/
theorem readBytes_congr {m m' : Memory} {a b n : Nat}
    (h : ∀ i < n, m' (b + i) = m (a + i)) : readBytes m' b n = readBytes m a n := by
  induction n generalizing a b with
  | zero => rfl
  | succ n ih =>
      have hhead : m' b = m a := by simpa using h 0 (by omega)
      have htail : readBytes m' (b + 1) n = readBytes m (a + 1) n := by
        apply ih
        intro i hi
        have := h (i + 1) (by omega)
        rwa [show b + 1 + i = b + (i + 1) by omega, show a + 1 + i = a + (i + 1) by omega]
      rw [readBytes, readBytes, hhead, htail]

/-- The byte at position `i` of a read. -/
theorem getD_readBytes (m : Memory) (a n i : Nat) (hi : i < n) :
    (readBytes m a n).getD i 0 = m (a + i) := by
  induction n generalizing a i with
  | zero => omega
  | succ n ih =>
      cases i with
      | zero => simp [readBytes]
      | succ i =>
          rw [readBytes, List.getD_cons_succ, ih (a + 1) i (by omega),
            show a + 1 + i = a + (i + 1) by omega]

/-- A prefix of a read is a shorter read. -/
theorem take_readBytes (m : Memory) (a : Nat) {n k : Nat} (h : k ≤ n) :
    (readBytes m a n).take k = readBytes m a k := by
  obtain ⟨d, rfl⟩ := Nat.exists_eq_add_of_le h
  rw [readBytes_add, List.take_left' (length_readBytes m a k)]

/-- A read past its first `k` bytes is a read further on. -/
theorem drop_readBytes (m : Memory) (a : Nat) {n k : Nat} (h : k ≤ n) :
    (readBytes m a n).drop k = readBytes m (a + k) (n - k) := by
  obtain ⟨d, rfl⟩ := Nat.exists_eq_add_of_le h
  rw [readBytes_add, List.drop_left' (length_readBytes m a k), Nat.add_sub_cancel_left]

/-- A byte outside the written range is untouched. -/
theorem writeBytes_outside (m : Memory) (a : Nat) (bs : List UInt8) (x : Nat)
    (h : x < a ∨ a + bs.length ≤ x) : writeBytes m a bs x = m x := by
  have hx : ¬ (a ≤ x ∧ x < a + bs.length) := by omega
  simp [writeBytes, hx]

/-- A byte inside the written range is the one written. -/
theorem writeBytes_inside (m : Memory) (a : Nat) (bs : List UInt8) (i : Nat)
    (h : i < bs.length) : writeBytes m a bs (a + i) = bs.getD i 0 := by
  simp [writeBytes, h]

/-- Reading back exactly what was written. -/
theorem read_write_same (m : Memory) (a : Nat) (bs : List UInt8) :
    readBytes (writeBytes m a bs) a bs.length = bs := by
  apply List.ext_getElem (by simp)
  intro i hi _
  have hi' : i < bs.length := by simpa using hi
  have h := getD_readBytes (writeBytes m a bs) a bs.length i hi'
  rw [writeBytes_inside m a bs i hi'] at h
  rwa [List.getD_eq_getElem _ _ hi, List.getD_eq_getElem _ _ hi'] at h

/-- A read disjoint from the written range sees the old memory. -/
theorem read_write_outside (m : Memory) (a : Nat) (bs : List UInt8) (b n : Nat)
    (h : b + n ≤ a ∨ a + bs.length ≤ b) :
    readBytes (writeBytes m a bs) b n = readBytes m b n :=
  readBytes_congr fun i hi ↦ writeBytes_outside m a bs (b + i) (by omega)

/-- Two adjacent writes are one write of the concatenation. -/
theorem writeBytes_append (m : Memory) (a : Nat) (bs cs : List UInt8) :
    writeBytes (writeBytes m a bs) (a + bs.length) cs = writeBytes m a (bs ++ cs) := by
  funext x
  by_cases hlow : x < a
  · rw [writeBytes_outside _ _ _ _ (.inl (by omega)), writeBytes_outside _ _ _ _ (.inl hlow),
      writeBytes_outside _ _ _ _ (.inl hlow)]
  obtain ⟨i, rfl⟩ := Nat.exists_eq_add_of_le (Nat.le_of_not_lt hlow)
  by_cases hfst : i < bs.length
  · rw [writeBytes_outside _ _ _ _ (.inl (by omega)), writeBytes_inside _ _ _ _ hfst,
      writeBytes_inside _ _ _ _ (by simp; omega), List.getD_append _ _ _ _ hfst]
  obtain ⟨j, rfl⟩ := Nat.exists_eq_add_of_le (Nat.le_of_not_lt hfst)
  by_cases hsnd : j < cs.length
  · rw [← Nat.add_assoc, writeBytes_inside _ _ _ _ hsnd, Nat.add_assoc,
      writeBytes_inside _ _ _ _ (by simp; omega), List.getD_append_right _ _ _ _ (by omega),
      Nat.add_sub_cancel_left]
  · rw [writeBytes_outside _ _ _ _ (.inr (by omega)), writeBytes_outside _ _ _ _ (.inr (by omega)),
      writeBytes_outside _ _ _ _ (.inr (by simp; omega))]

/-- A write over an earlier one of the same extent replaces it. -/
theorem writeBytes_over (m : Memory) (a : Nat) {bs cs : List UInt8} (h : bs.length = cs.length) :
    writeBytes (writeBytes m a bs) a cs = writeBytes m a cs := by
  funext x
  simp only [writeBytes, h]
  split <;> rfl

/-- Writing back what was read changes nothing. -/
theorem write_read_same (m : Memory) (a n : Nat) : writeBytes m a (readBytes m a n) = m := by
  funext x
  by_cases hx : a ≤ x ∧ x < a + n
  · obtain ⟨i, rfl⟩ := Nat.exists_eq_add_of_le hx.1
    rw [writeBytes_inside _ _ _ _ (by simp; omega), getD_readBytes _ _ _ _ (by omega)]
  · exact writeBytes_outside _ _ _ _ (by simp; omega)

/-- A write changes nothing exactly when its bytes are already there. -/
theorem writeBytes_eq_self {m : Memory} {a : Nat} {bs : List UInt8} :
    writeBytes m a bs = m ↔ readBytes m a bs.length = bs := by
  constructor
  · intro h
    have := read_write_same m a bs
    rwa [h] at this
  · intro h
    have := write_read_same m a bs.length
    rwa [h] at this

/-- Writes to ranges that do not overlap commute. -/
theorem writeBytes_comm (m : Memory) {a b : Nat} {bs cs : List UInt8}
    (h : a + bs.length ≤ b ∨ b + cs.length ≤ a) :
    writeBytes (writeBytes m a bs) b cs = writeBytes (writeBytes m b cs) a bs := by
  funext x
  simp only [writeBytes]
  split <;> split <;> first | rfl | omega

/-- Overwriting the middle part of a written string. -/
theorem writeBytes_patch (m : Memory) (a : Nat) (xs ys ys' zs : List UInt8)
    (h : ys.length = ys'.length) :
    writeBytes (writeBytes m a (xs ++ (ys ++ zs))) (a + xs.length) ys' =
      writeBytes m a (xs ++ (ys' ++ zs)) := by
  rw [← writeBytes_append, ← writeBytes_append, ← writeBytes_append, ← writeBytes_append,
    writeBytes_comm _ (.inr (by omega)), writeBytes_over _ _ h, h]

/-! ## Words -/

/-- The little-endian `n`-byte word at address `a`. -/
def load (n : Nat) (m : Memory) (a : Nat) : Nat := leNat (readBytes m a n)

/-- The memory with the low `n` bytes of `v` stored little-endian at address `a`. -/
def store (n : Nat) (m : Memory) (a v : Nat) : Memory := writeBytes m a (leBytes n v)

/-- Loading back a stored word, truncated to its width. -/
theorem load_store_same (n : Nat) (m : Memory) (a v : Nat) :
    load n (store n m a v) a = v % 256 ^ n := by
  have h := read_write_same m a (leBytes n v)
  rw [length_leBytes] at h
  rw [load, store, h, leNat_leBytes]

/-- Storing back a loaded word changes nothing. -/
theorem store_load_same (n : Nat) (m : Memory) (a : Nat) : store n m a (load n m a) = m := by
  have h := leBytes_leNat (readBytes m a n)
  rw [length_readBytes] at h
  rw [store, load, h, write_read_same]

/-- A load disjoint from a write sees the old memory. -/
theorem load_write_outside (n : Nat) (m : Memory) (a : Nat) (bs : List UInt8) (b : Nat)
    (h : b + n ≤ a ∨ a + bs.length ≤ b) : load n (writeBytes m a bs) b = load n m b := by
  rw [load, read_write_outside m a bs b n h, load]

/-- A load disjoint from a store sees the old memory. -/
theorem load_store_outside (n k : Nat) (m : Memory) (a v b : Nat)
    (h : b + k ≤ a ∨ a + n ≤ b) : load k (store n m a v) b = load k m b :=
  load_write_outside k m a (leBytes n v) b (by simpa using h)

/-! ## Frames -/

/-- The two memories coincide on the `n` bytes from `a` on. -/
def Agree (a n : Nat) (m m' : Memory) : Prop := ∀ i < n, m' (a + i) = m (a + i)

/-- A memory agrees with itself. -/
theorem Agree.refl (a n : Nat) (m : Memory) : Agree a n m m := fun _ _ ↦ rfl

/-- Agreement composes. -/
theorem Agree.trans {a n : Nat} {m m' m'' : Memory} (h : Agree a n m m')
    (h' : Agree a n m' m'') : Agree a n m m'' :=
  fun i hi ↦ (h' i hi).trans (h i hi)

/-- Agreement on a range gives agreement on every part of it. -/
theorem Agree.mono {a n b k : Nat} {m m' : Memory} (h : Agree a n m m')
    (hlow : a ≤ b) (hhigh : b + k ≤ a + n) : Agree b k m m' := by
  intro i hi
  have := h (b - a + i) (by omega)
  rwa [show a + (b - a + i) = b + i by omega] at this

/-- Reads on a range of agreement coincide. -/
theorem Agree.readBytes {a n : Nat} {m m' : Memory} (h : Agree a n m m') :
    readBytes m' a n = readBytes m a n :=
  readBytes_congr h

/-- Loads on a range of agreement coincide. -/
theorem Agree.load {a n : Nat} {m m' : Memory} (h : Agree a n m m') :
    load n m' a = load n m a :=
  congrArg leNat h.readBytes

/-- A write agrees with the old memory on every range disjoint from it. -/
theorem agree_writeBytes (m : Memory) (a : Nat) (bs : List UInt8) (b n : Nat)
    (h : b + n ≤ a ∨ a + bs.length ≤ b) : Agree b n m (writeBytes m a bs) :=
  fun i hi ↦ writeBytes_outside m a bs (b + i) (by omega)

/-- A store agrees with the old memory on every range disjoint from it. -/
theorem agree_store (n : Nat) (m : Memory) (a v b k : Nat) (h : b + k ≤ a ∨ a + n ≤ b) :
    Agree b k m (store n m a v) :=
  agree_writeBytes m a (leBytes n v) b k (by simpa using h)

end ByteMemory
