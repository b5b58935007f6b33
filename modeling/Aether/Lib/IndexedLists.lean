import Mathlib.Data.List.Basic
import Mathlib.Data.Nat.ModEq
import Mathlib.Logic.Function.Basic

/-!
# Lists and queues threaded through arrays

Two ways of keeping a sequence inside an array. `follow` reads a list threaded through a link
array, starting at a head index. `window` reads a circular buffer from a free-running index that is
reduced modulo the number of slots at every access. `slots` names the slots of a circular buffer
whose indices are 16-bit words, for any number of slots.
-/

namespace IndexedLists

variable {ι α : Type*}

/-! ## Lists threaded through links -/

/-- The first `n` indices met by following `next` from `i`. -/
def follow (next : ι → ι) : ι → Nat → List ι
  | _, 0 => []
  | i, n + 1 => i :: follow next (next i) n

@[simp] theorem length_follow (next : ι → ι) (i : ι) (n : Nat) :
    (follow next i n).length = n := by
  induction n generalizing i with
  | zero => rfl
  | succ n ih => simp [follow, ih]

/-- Links that are not on the list do not matter. -/
theorem follow_congr {next next' : ι → ι} {i : ι} {n : Nat}
    (h : ∀ j ∈ follow next i n, next' j = next j) : follow next' i n = follow next i n := by
  induction n generalizing i with
  | zero => rfl
  | succ n ih =>
      have hi : next' i = next i := h i List.mem_cons_self
      rw [follow, follow, hi, ih fun j hj ↦ h j (List.mem_cons_of_mem i hj)]

/-! ## Circular buffers -/

/-- The contents of `k` consecutive slots of a ring of `n` slots, from index `start` on. -/
def window (ring : Nat → α) (n : Nat) : Nat → Nat → List α
  | _, 0 => []
  | start, k + 1 => ring (start % n) :: window ring n (start + 1) k

@[simp] theorem length_window (ring : Nat → α) (n start k : Nat) :
    (window ring n start k).length = k := by
  induction k generalizing start with
  | zero => rfl
  | succ k ih => simp [window, ih]

/-- Only the residue of the start index matters. -/
theorem window_mod (ring : Nat → α) {n start start' : Nat} (h : start % n = start' % n)
    (k : Nat) : window ring n start k = window ring n start' k := by
  induction k generalizing start start' with
  | zero => rfl
  | succ k ih =>
      have hnext : (start + 1) % n = (start' + 1) % n := by
        rw [Nat.add_mod, h, ← Nat.add_mod]
      rw [window, window, h, ih hnext]

/-- A slot outside the window does not matter. -/
theorem window_update (ring : Nat → α) {n start k slot : Nat} (x : α)
    (h : ∀ j < k, (start + j) % n ≠ slot) :
    window (Function.update ring slot x) n start k = window ring n start k := by
  induction k generalizing start with
  | zero => rfl
  | succ k ih =>
      have hhead : start % n ≠ slot := h 0 (Nat.succ_pos k)
      rw [window, window, Function.update_of_ne hhead, ih]
      intro j hj
      have := h (j + 1) (Nat.succ_lt_succ hj)
      rwa [show start + 1 + j = start + (j + 1) by omega]

/-- Slots at different distances below the ring's size from the same start differ. -/
theorem slot_ne {n start j k : Nat} (hjk : j < k) (hk : k < n) :
    (start + j) % n ≠ (start + k) % n := by
  intro h
  have hmod : j % n = k % n := Nat.ModEq.add_left_cancel' start h
  rw [Nat.mod_eq_of_lt (by omega), Nat.mod_eq_of_lt hk] at hmod
  omega

/-- Writing the slot after the window appends to it while the ring has room. -/
theorem window_push (ring : Nat → α) {n start k : Nat} (x : α) (h : k < n) :
    window (Function.update ring ((start + k) % n) x) n start (k + 1) =
      window ring n start k ++ [x] := by
  have hsnoc : ∀ (ring : Nat → α) (start k : Nat),
      window ring n start (k + 1) = window ring n start k ++ [ring ((start + k) % n)] := by
    intro ring start k
    induction k generalizing start with
    | zero => rfl
    | succ k ih =>
        rw [window, ih, window, List.cons_append, show start + 1 + k = start + (k + 1) by omega]
  rw [hsnoc, Function.update_self, window_update ring x fun j hj ↦ slot_ne hj h]

/-! ## Circular buffers with 16-bit indices -/

/-- The slots that the indices from `a` up to `b` name in a ring of `n` slots. -/
def slots (n : Nat) (a b : UInt16) : List Nat :=
  (List.range (b - a).toNat).map fun j ↦ (a + UInt16.ofNat j).toNat % n

@[simp] theorem length_slots (n : Nat) (a b : UInt16) : (slots n a b).length = (b - a).toNat := by
  simp [slots]

@[simp] theorem slots_self (n : Nat) (a : UInt16) : slots n a a = [] := by
  simp [slots]

/-- Two indices are as far apart as they can be told to be. -/
theorem toNat_sub_succ {a b : UInt16} (h : (b - a).toNat < 2 ^ 16 - 1) :
    (b + 1 - a).toNat = (b - a).toNat + 1 := by
  rw [show b + 1 - a = b - a + 1 by grind, UInt16.toNat_add]
  exact Nat.mod_eq_of_lt (by simp only [UInt16.reduceToNat]; omega)

/-- One index more names one slot more. -/
theorem slots_succ {n : Nat} {a b : UInt16} (h : (b - a).toNat < 2 ^ 16 - 1) :
    slots n a (b + 1) = slots n a b ++ [b.toNat % n] := by
  rw [slots, toNat_sub_succ h, List.range_succ, List.map_append, List.map_cons, List.map_nil,
    UInt16.ofNat_toNat, show a + (b - a) = b by grind]
  rfl

/-- Different indices have a slot between them. -/
theorem slots_of_ne {n : Nat} {a b : UInt16} (hne : a ≠ b) :
    slots n a b = a.toNat % n :: slots n (a + 1) b := by
  have hpos : (b - a).toNat ≠ 0 := by
    intro hzero
    have hlast := a.toNat_lt
    have hnext := b.toNat_lt
    refine hne (UInt16.toNat_inj.mp ?_)
    rw [UInt16.toNat_sub] at hzero
    omega
  have hpred : (b - (a + 1)).toNat = (b - a).toNat - 1 := by
    have hlt := (b - a).toNat_lt
    rw [show b - (a + 1) = b - a - 1 by grind, UInt16.toNat_sub]
    simp only [UInt16.reduceToNat]
    omega
  rw [slots, slots, hpred, show (b - a).toNat = (b - a).toNat - 1 + 1 by omega,
    List.range_succ_eq_map, List.map_cons, List.map_map, Nat.add_sub_cancel]
  congr 1
  · simp
  · refine List.map_congr_left fun j _ ↦ ?_
    show (a + UInt16.ofNat (j + 1)).toNat % n = (a + 1 + UInt16.ofNat j).toNat % n
    rw [UInt16.ofNat_add, show a + (UInt16.ofNat j + UInt16.ofNat 1) =
      a + 1 + UInt16.ofNat j by grind]

/-- The slots are slots of the ring. -/
theorem lt_of_mem_slots {n : Nat} (hn : 0 < n) {a b : UInt16} {slot : Nat}
    (h : slot ∈ slots n a b) : slot < n := by
  obtain ⟨j, -, rfl⟩ := List.mem_map.mp h
  exact Nat.mod_lt _ hn

/-- While the ring has room, the next slot is not among them, if the number of slots divides the
number of indices. -/
theorem slot_notMem_slots {n : Nat} {a b : UInt16} (hdvd : n ∣ 2 ^ 16)
    (hroom : (b - a).toNat < n) : b.toNat % n ∉ slots n a b := by
  intro hmem
  obtain ⟨j, hj, hslot⟩ := List.mem_map.mp hmem
  have hj := List.mem_range.mp hj
  have hdistance := (b - a).toNat_lt
  have hindex : (a + UInt16.ofNat j).toNat % n = (a.toNat + j) % n := by
    rw [UInt16.toNat_add, UInt16.toNat_ofNat_of_lt' (by rw [UInt16.size]; omega),
      Nat.mod_mod_of_dvd _ hdvd]
  have hnext : b.toNat % n = (a.toNat + (b - a).toNat) % n := by
    have hsum : (a.toNat + (b - a).toNat) % 2 ^ 16 = b.toNat := by
      have hlast := a.toNat_lt
      have hb := b.toNat_lt
      rw [UInt16.toNat_sub]
      omega
    rw [← hsum, Nat.mod_mod_of_dvd _ hdvd]
  rw [hindex, hnext] at hslot
  exact slot_ne hj hroom hslot

end IndexedLists
