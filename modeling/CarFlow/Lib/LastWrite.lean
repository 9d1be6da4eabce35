import Mathlib.Data.List.Basic
import Mathlib.Data.List.Induction
import Mathlib.Tactic.Cases

/-!
# The last write wins

A list of writes in order, each to a key that is read off it. What a table of keys holds in the end
is the last write to each key, whatever was written to other keys in between, and whether the
writes are applied one after the other or collected in a dictionary first.

## Main results

* `last_append` — the last write of two lists of writes
* `foldl_write` — a table after some writes
* `mem_dict_iff` — a dictionary built from some writes
-/

namespace LastWrite

variable {κ α β : Type*} [DecidableEq κ] {key : α → κ} {xs ys : List α} {x y : α} {k : κ}

/-- The writes to a key. -/
def writesTo (key : α → κ) (xs : List α) (k : κ) : List α := xs.filter (key · = k)

/-- The last of them. -/
def last (key : α → κ) (xs : List α) (k : κ) : Option α := (writesTo key xs k).getLast?

@[simp] theorem writesTo_append : writesTo key (xs ++ ys) k = writesTo key xs k ++ writesTo key ys k
    := List.filter_append ..

theorem mem_writesTo : x ∈ writesTo key xs k ↔ x ∈ xs ∧ key x = k := by
  simp [writesTo]

/-- The writes to a key, when all of them are in one of some lists. -/
theorem writesTo_flatMap {ι : Type*} {is : List ι} {i : ι} {f : ι → List α} (hnodup : is.Nodup)
    (hothers : ∀ j ∈ is, j ≠ i → writesTo key (f j) k = []) (hnot : i ∉ is → f i = []) :
    writesTo key (is.flatMap f) k = writesTo key (f i) k := by
  induction is with
  | nil => rw [hnot List.not_mem_nil, List.flatMap_nil]
  | cons j is ih =>
    obtain ⟨hj, hnodup⟩ := List.nodup_cons.mp hnodup
    rw [List.flatMap_cons, writesTo_append]
    by_cases hij : j = i
    · subst hij
      -- the others have none
      have hnone : writesTo key (is.flatMap f) k = [] := by
        refine List.filter_eq_nil_iff.mpr fun x hx hk => ?_
        obtain ⟨j', hj', hx⟩ := List.mem_flatMap.mp hx
        have hne : j' ≠ j := fun h => hj (h ▸ hj')
        have hempty := hothers j' (List.mem_cons_of_mem _ hj') hne
        exact List.filter_eq_nil_iff.mp hempty x hx hk
      rw [hnone, List.append_nil]
    · rw [hothers j List.mem_cons_self hij, List.nil_append]
      refine ih hnodup (fun j' hj' => hothers j' (List.mem_cons_of_mem _ hj')) fun hi => hnot ?_
      simp [hi, Ne.symm hij]

@[simp] theorem last_nil : last key [] k = none := rfl

theorem last_append : last key (xs ++ ys) k = (last key ys k).or (last key xs k) := by
  rw [last, writesTo_append, List.getLast?_append, last, last]

theorem last_concat : last key (xs ++ [x]) k = if key x = k then some x else last key xs k := by
  rw [last_append]
  by_cases h : key x = k <;> simp [last, writesTo, h]

theorem last_eq_none_iff : last key xs k = none ↔ ∀ x ∈ xs, key x ≠ k := by
  simp [last, writesTo]

theorem mem_of_last (h : last key xs k = some x) : x ∈ xs ∧ key x = k :=
  mem_writesTo.mp (List.mem_of_getLast? h)

/-! ### Tables -/

/-- **A table after some writes** holds the last write to each key, and what it held before for
the other keys. -/
theorem foldl_write {write : (κ → β) → α → κ → β} {f : α → β}
    (hwrite : ∀ table x k, write table x k = if k = key x then f x else table k)
    (table : κ → β) (xs : List α) (k : κ) :
    xs.foldl write table k = (last key xs k).elim (table k) f := by
  induction xs using List.reverseRecOn with
  | nil => rfl
  | append_singleton xs x ih =>
    rw [List.foldl_concat, hwrite, ih, last_concat]
    by_cases h : key x = k
    · rw [if_pos h.symm, if_pos h]
      rfl
    · rw [if_neg (Ne.symm h), if_neg h]

/-! ### Dictionaries -/

/-- Set a key of a dictionary: in place if it is there, else at the end. -/
def set (d : List (κ × α)) (k : κ) (x : α) : List (κ × α) :=
  if k ∈ d.map Prod.fst then d.map fun e => if e.1 = k then (k, x) else e else d ++ [(k, x)]

/-- The dictionary of the last writes. -/
def dict (key : α → κ) (xs : List α) : List (κ × α) := xs.foldl (fun d x => set d (key x) x) []

theorem mem_set_iff {d : List (κ × α)} {e : κ × α} :
    e ∈ set d k x ↔ e = (k, x) ∨ e ∈ d ∧ e.1 ≠ k := by
  unfold set
  split
  · rename_i hk
    obtain ⟨e', he', rfl⟩ := List.mem_map.mp hk
    simp only [List.mem_map]
    constructor
    · rintro ⟨e'', he'', rfl⟩
      by_cases h : e''.1 = e'.1
      · exact .inl (if_pos h)
      · rw [if_neg h]
        exact .inr ⟨he'', h⟩
    · rintro (rfl | ⟨he, hne⟩)
      · exact ⟨e', he', if_pos rfl⟩
      · exact ⟨e, he, if_neg hne⟩
  · rename_i hk
    rw [List.mem_append, List.mem_singleton, or_comm]
    refine or_congr_right ⟨fun he => ⟨he, fun h => hk ?_⟩, And.left⟩
    exact h ▸ List.mem_map_of_mem he

/-- **The entries of the dictionary** are the last writes. -/
theorem mem_dict_iff : (k, x) ∈ dict key xs ↔ last key xs k = some x := by
  induction xs using List.reverseRecOn with
  | nil => simp [dict]
  | append_singleton xs y ih =>
    rw [dict, List.foldl_concat, ← dict, mem_set_iff, ih, last_concat]
    by_cases h : key y = k
    · subst h
      simp [eq_comm]
    · simp [h, Ne.symm h]

end LastWrite
