import Mathlib.Data.List.Induction
import Mathlib.Data.List.Nodup

/-!
# First come, first served

A table with a fixed number of places, in which a key takes the next free place when it first comes
and keeps it, and every later value of the key replaces the one before. `table` says what such a
table holds in terms of what came, `put` how it changes.
-/

namespace FirstCome

variable {κ α : Type} [DecidableEq κ]

/-- The keys in the order in which they first came. -/
def arrivals (history : List (κ × α)) : List κ := (history.map Prod.fst).eraseDups

/-- The value that came last with a key. -/
def latest (history : List (κ × α)) (k : κ) : Option α := history.reverse.lookup k

/-- What a table with `n` places holds after the history. -/
def table (n : Nat) (history : List (κ × α)) : List (κ × α) :=
  ((arrivals history).take n).filterMap fun k ↦ (latest history k).map (k, ·)

/-- A key comes with a value. -/
def put (n : Nat) (k : κ) (a : α) (entries : List (κ × α)) : List (κ × α) :=
  if k ∈ entries.map Prod.fst then entries.map fun e ↦ if e.1 = k then (k, a) else e
  else if entries.length < n then entries ++ [(k, a)]
  else entries

section Histories

variable {history : List (κ × α)} {k : κ} {a : α} {n : Nat}

theorem mem_arrivals : k ∈ arrivals history ↔ k ∈ history.map Prod.fst := List.mem_eraseDups

theorem nodup_eraseDups (l : List κ) : l.eraseDups.Nodup := by
  induction l using List.reverseRecOn with
  | nil => exact List.nodup_nil
  | append_singleton l k ih =>
      rw [List.eraseDups_append, List.removeAll]
      refine ih.append ?_ ?_
      · by_cases hk : k ∈ l <;> simp [hk, List.eraseDups_cons]
      · intro k' hold hnew
        simp only [List.mem_eraseDups, List.mem_filter] at hold hnew
        simp [hold] at hnew

theorem nodup_arrivals (history : List (κ × α)) : (arrivals history).Nodup := nodup_eraseDups _

/-- A key that comes again changes nothing in the order. -/
theorem arrivals_concat_of_mem (h : k ∈ arrivals history) :
    arrivals (history ++ [(k, a)]) = arrivals history := by
  rw [mem_arrivals] at h
  rw [arrivals, List.map_append, List.eraseDups_append]
  simp [List.removeAll, arrivals, h]

/-- A new key comes last. -/
theorem arrivals_concat_of_not_mem (h : k ∉ arrivals history) :
    arrivals (history ++ [(k, a)]) = arrivals history ++ [k] := by
  rw [mem_arrivals] at h
  rw [arrivals, List.map_append, List.eraseDups_append]
  simp [List.removeAll, arrivals, h, List.eraseDups_cons]

theorem latest_concat (history : List (κ × α)) (k k' : κ) (a : α) :
    latest (history ++ [(k, a)]) k' = if k' = k then some a else latest history k' := by
  rw [latest, List.reverse_append, List.reverse_singleton, List.singleton_append,
    List.lookup_cons, latest]
  by_cases hk : k' = k
  · simp [hk]
  · simp [hk, beq_eq_false_iff_ne.mpr hk]

/-- Every key that came has a value. -/
theorem exists_latest (h : k ∈ arrivals history) : ∃ a, latest history k = some a := by
  rw [mem_arrivals] at h
  obtain ⟨e, he, rfl⟩ := List.mem_map.mp h
  rw [← Option.ne_none_iff_exists', latest, Ne, List.lookup_eq_none_iff]
  intro hnone
  exact absurd (hnone e (List.mem_reverse.mpr he)) (by simp)

/-! ## Tables -/

/-- The values are those that came last. -/
theorem latest_of_mem_table {e : κ × α} (h : e ∈ table n history) :
    latest history e.1 = some e.2 := by
  obtain ⟨k, -, hk⟩ := List.mem_filterMap.mp h
  obtain ⟨a, ha, rfl⟩ := Option.map_eq_some_iff.mp hk
  exact ha

/-- The keys of a list of entries made from keys that have a value. -/
theorem keys_filterMap (history : List (κ × α)) (keys : List κ)
    (h : ∀ k ∈ keys, k ∈ arrivals history) :
    (keys.filterMap fun k ↦ (latest history k).map (k, ·)).map Prod.fst = keys := by
  induction keys with
  | nil => rfl
  | cons k keys ih =>
      obtain ⟨a, ha⟩ := exists_latest (h k List.mem_cons_self)
      rw [List.filterMap_cons_some (by rw [ha, Option.map_some]), List.map_cons,
        ih fun k' hk' ↦ h k' (List.mem_cons_of_mem k hk')]

/-- The keys are those that came first. -/
theorem keys_table (n : Nat) (history : List (κ × α)) :
    (table n history).map Prod.fst = (arrivals history).take n :=
  keys_filterMap history _ fun _ hk ↦ List.mem_of_mem_take hk

theorem length_table (n : Nat) (history : List (κ × α)) :
    (table n history).length = min n (arrivals history).length := by
  rw [← List.length_map Prod.fst, keys_table, List.length_take]

theorem nodup_keys_table (n : Nat) (history : List (κ × α)) :
    ((table n history).map Prod.fst).Nodup := by
  rw [keys_table]
  exact (nodup_arrivals history).sublist (List.take_sublist _ _)

/-- The same keys, of which one has a new value. -/
theorem table_of_same_keys (a : α) (keys : List κ) (h : ∀ k' ∈ keys, k' ∈ arrivals history) :
    (keys.filterMap fun k' ↦ (latest (history ++ [(k, a)]) k').map (k', ·)) =
      (keys.filterMap fun k' ↦ (latest history k').map (k', ·)).map
        fun e ↦ if e.1 = k then (k, a) else e := by
  rw [List.map_filterMap]
  refine List.filterMap_congr fun k' hk' ↦ ?_
  obtain ⟨b, hb⟩ := exists_latest (h k' hk')
  rw [latest_concat, hb]
  by_cases hk : k' = k <;> simp [hk]

/-- Without the key among the entries its new value is not seen. -/
theorem map_of_not_mem {entries : List (κ × α)} (a : α) (h : k ∉ entries.map Prod.fst) :
    (entries.map fun e ↦ if e.1 = k then (k, a) else e) = entries := by
  refine (List.map_congr_left fun e he ↦ if_neg ?_).trans (List.map_id' entries)
  rintro rfl
  exact h (List.mem_map_of_mem he)

/-- The table of a longer history. -/
theorem table_concat (n : Nat) (history : List (κ × α)) (k : κ) (a : α) :
    table n (history ++ [(k, a)]) = put n k a (table n history) := by
  have hkeys : ∀ k' ∈ (arrivals history).take n, k' ∈ arrivals history :=
    fun k' hk' ↦ List.mem_of_mem_take hk'
  have hlength := length_table n history
  rw [put, keys_table]
  -- the key has come before, or it is the newest
  by_cases hk : k ∈ arrivals history
  · rw [table, arrivals_concat_of_mem hk, table_of_same_keys a _ hkeys, ← table]
    split
    · rfl
    · rename_i hout
      have hfull : ¬ (table n history).length < n := by
        intro hroom
        rw [List.take_of_length_le (by omega)] at hout
        exact hout hk
      rw [if_neg hfull, map_of_not_mem a (by rwa [keys_table])]
  · have hout : k ∉ (arrivals history).take n := fun hmem ↦ hk (hkeys k hmem)
    rw [table, arrivals_concat_of_not_mem hk, if_neg hout]
    split
    · have hroom : (arrivals history).length < n := by omega
      have hnew : (arrivals history ++ [k]).length ≤ n := by
        rw [List.length_append, List.length_singleton]
        omega
      have hlast : [k].filterMap (fun k' ↦ (latest (history ++ [(k, a)]) k').map (k', ·)) =
          [(k, a)] := by
        simp [latest_concat]
      have hall : (arrivals history).take n = arrivals history :=
        List.take_of_length_le (by omega)
      rw [hall] at hout
      rw [List.take_of_length_le hnew, List.filterMap_append, hlast,
        table_of_same_keys a _ fun _ h ↦ h,
        map_of_not_mem a (by rwa [keys_filterMap _ _ fun _ h ↦ h]), table, hall]
    · rw [List.take_append_of_le_length (by omega), table_of_same_keys a _ hkeys, ← table,
        map_of_not_mem a (by rwa [keys_table])]

end Histories

end FirstCome
