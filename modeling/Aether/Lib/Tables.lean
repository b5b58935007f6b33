import Mathlib.Data.List.Nodup

/-!
# Tables as lists of pairs

Looking up a key after an entry was changed or dropped, and lookup as membership when no key
occurs twice.
-/

namespace Tables

variable {α β : Type} [DecidableEq α]

/-- Changing the entries of one key. -/
theorem lookup_modify (table : List (α × β)) (p q : α) (f : β → β) :
    (table.map fun e ↦ if e.1 = p then (e.1, f e.2) else e).lookup q =
      if q = p then (table.lookup q).map f else table.lookup q := by
  induction table with
  | nil => simp
  | cons e rest ih =>
      obtain ⟨r, b⟩ := e
      rw [List.map_cons]
      by_cases hqr : q = r
      · subst hqr
        by_cases hqp : q = p
        · simp [hqp]
        · simp [hqp]
      · have hne : (q == r) = false := beq_eq_false_iff_ne.mpr hqr
        by_cases hrp : r = p
        · subst hrp
          simp only [↓reduceIte, List.lookup_cons, hne, ih, hqr]
        · simp only [hrp, ↓reduceIte, List.lookup_cons, hne, ih]

/-- Dropping the entries of one key. -/
theorem lookup_drop (table : List (α × β)) (p q : α) :
    (table.filter fun e ↦ e.1 ≠ p).lookup q = if q = p then none else table.lookup q := by
  induction table with
  | nil => simp
  | cons e rest ih =>
      obtain ⟨r, b⟩ := e
      by_cases hrp : r = p
      · subst hrp
        rw [List.filter_cons_of_neg (by simp), ih, List.lookup_cons]
        by_cases hqr : q = r
        · simp [hqr]
        · simp [hqr, beq_eq_false_iff_ne.mpr hqr]
      · rw [List.filter_cons_of_pos (by simp [hrp]), List.lookup_cons, List.lookup_cons, ih]
        by_cases hqr : q = r
        · subst hqr
          simp [hrp]
        · simp [beq_eq_false_iff_ne.mpr hqr]

/-- When no key occurs twice, lookup finds exactly the entries. -/
theorem lookup_eq_some {table : List (α × β)} (h : (table.map Prod.fst).Nodup) {p : α} {b : β} :
    table.lookup p = some b ↔ (p, b) ∈ table := by
  induction table with
  | nil => simp
  | cons e rest ih =>
      obtain ⟨r, c⟩ := e
      obtain ⟨hfresh, hrest⟩ := List.nodup_cons.mp h
      rw [List.lookup_cons, List.mem_cons]
      by_cases hpr : p = r
      · subst hpr
        have hnot : (p, b) ∉ rest := fun hmem ↦ hfresh (List.mem_map.mpr ⟨(p, b), hmem, rfl⟩)
        simp [hnot, eq_comm]
      · simp [hpr, beq_eq_false_iff_ne.mpr hpr, ih hrest]

end Tables
