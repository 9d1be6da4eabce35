import Mathlib.Data.List.Basic
import Mathlib.Tactic.Cases

/-!
# Tables as lists of rows

A database table as the list of its rows, in the order of insertion, with a key read off each
row. `lookup` is a query by key that expects at most one row, `update` rewrites the row of a key
in place, and an insert is `rows ++ [row]`. Nothing here forces keys to be unique: where a table
has a unique key, that is a check its inserts make and an invariant of its users.

## Main results

* `lookup_eq_some_iff` — a query, where keys are unique
* `lookup_append_singleton` — a query after an insert
* `lookup_update` — a query after an update, of the same key or of another one
-/

namespace RowTable

variable {κ α : Type*} [DecidableEq κ] {key : α → κ} {rows : List α} {row r : α} {k : κ}

/-- The row with key `k`, if there is one. -/
def lookup (key : α → κ) (rows : List α) (k : κ) : Option α := rows.find? fun r => key r = k

/-- Rewrite the row that has the key of `row`. -/
def update (key : α → κ) (rows : List α) (row : α) : List α :=
  rows.map fun r => if key r = key row then row else r

@[simp] theorem lookup_nil (k : κ) : lookup key [] k = none := rfl

theorem lookup_cons (rows : List α) (row : α) (k : κ) :
    lookup key (row :: rows) k = if key row = k then some row else lookup key rows k := by
  by_cases h : key row = k <;> simp [lookup, h]

theorem key_of_lookup (h : lookup key rows k = some r) : key r = k := by
  simpa using List.find?_some h

theorem mem_of_lookup (h : lookup key rows k = some r) : r ∈ rows := List.mem_of_find?_eq_some h

theorem lookup_eq_none_iff : lookup key rows k = none ↔ ∀ r ∈ rows, key r ≠ k := by
  simp [lookup]

/-- Where keys are unique, the query finds the row with its key. -/
theorem lookup_eq_some_iff (hnodup : (rows.map key).Nodup) :
    lookup key rows k = some r ↔ r ∈ rows ∧ key r = k := by
  refine ⟨fun h => ⟨mem_of_lookup h, key_of_lookup h⟩, ?_⟩
  rintro ⟨hr, rfl⟩
  induction rows with
  | nil => exact absurd hr List.not_mem_nil
  | cons row rows ih =>
    obtain ⟨hrow, hnodup⟩ := List.nodup_cons.mp hnodup
    rw [lookup_cons]
    rcases List.mem_cons.mp hr with rfl | hr
    · exact if_pos rfl
    · have hne : key row ≠ key r := fun heq => hrow (heq ▸ List.mem_map_of_mem hr)
      rw [if_neg hne, ih hnodup hr]

/-- The inserted row is found under its key, unless an older row has that key already. -/
theorem lookup_append_singleton (rows : List α) (row : α) (k : κ) :
    lookup key (rows ++ [row]) k =
      (lookup key rows k).or (if key row = k then some row else none) := by
  rw [lookup, List.find?_append]
  by_cases h : key row = k <;> simp [lookup, h]

theorem lookup_append_self (h : lookup key rows (key row) = none) :
    lookup key (rows ++ [row]) (key row) = some row := by
  rw [lookup_append_singleton, h]
  simp

theorem lookup_append_of_ne (h : key row ≠ k) :
    lookup key (rows ++ [row]) k = lookup key rows k := by
  rw [lookup_append_singleton, if_neg h, Option.or_none]

/-- Rows with other keys are not found. -/
theorem lookup_append_of_forall_ne {rows' : List α} (h : ∀ r ∈ rows', key r ≠ k) :
    lookup key (rows ++ rows') k = lookup key rows k := by
  have hnone : lookup key rows' k = none := lookup_eq_none_iff.mpr h
  rw [lookup] at hnone
  rw [lookup, List.find?_append, hnone, Option.or_none, lookup]

/-- An update is seen by queries of its own key, if that key has a row, and by no others. -/
theorem lookup_update (rows : List α) (row : α) (k : κ) :
    lookup key (update key rows row) k =
      if key row = k then (lookup key rows k).map fun _ => row else lookup key rows k := by
  induction rows with
  | nil => simp [update]
  | cons r rows ih =>
    rw [show update key (r :: rows) row
        = (if key r = key row then row else r) :: update key rows row from rfl,
      lookup_cons, lookup_cons, ih]
    by_cases hr : key r = key row <;> by_cases hk : key row = k
    · simp [hr, hk]
    · simp [hr, hk]
    · simp [hk, show key r ≠ k from hk ▸ hr]
    · simp [hr, hk]

theorem lookup_update_self (h : lookup key rows (key row) = some r) :
    lookup key (update key rows row) (key row) = some row := by
  rw [lookup_update, if_pos rfl, h, Option.map_some]

theorem lookup_update_of_ne (h : key row ≠ k) :
    lookup key (update key rows row) k = lookup key rows k := by
  rw [lookup_update, if_neg h]

/-- The rows after an update: the new one, and those with other keys. -/
theorem mem_update (h : r ∈ update key rows row) : r = row ∨ r ∈ rows ∧ key r ≠ key row := by
  obtain ⟨r', hr', rfl⟩ := List.mem_map.mp h
  by_cases hk : key r' = key row
  · exact .inl (if_pos hk)
  · rw [if_neg hk]
    exact .inr ⟨hr', hk⟩

/-- An update leaves the list of keys alone. -/
@[simp] theorem map_key_update (rows : List α) (row : α) :
    (update key rows row).map key = rows.map key := by
  simp only [update, List.map_map]
  refine List.map_congr_left fun r _ => ?_
  by_cases h : key r = key row <;> simp [h]

end RowTable
