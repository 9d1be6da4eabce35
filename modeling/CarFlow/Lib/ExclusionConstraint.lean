import CarFlow.Lib.ProcessFamily

/-!
# A table with an exclusion constraint

Transactions that insert rows into a table side by side, at most one row each, under a constraint
that any two rows must satisfy: a unique key, or ranges that do not overlap. The database lets an
insert run only if its row is compatible both with the committed rows and with those that the other
unfinished transactions have inserted; an insert that conflicts with one of the latter waits.

`Exclusive R row? rows ts` is what it keeps that way: `R` holds between any two rows, those that are
committed and those that the transactions `ts` have inserted. There is one rule for each thing a
transaction does.

## Main results

* `Exclusive.start`, `Exclusive.idle`, `Exclusive.insert`, `Exclusive.commit`, `Exclusive.finish` —
  the rules
* `Exclusive.committed` — the committed rows satisfy the constraint
-/

variable {α τ : Type*} {R : α → α → Prop} {row? : τ → Option α} {rows : List α} {ts : List τ}
  {t t' : τ} {i : ℕ} {row : α}

/-- Any two rows satisfy the constraint, committed or not. -/
def Exclusive (R : α → α → Prop) (row? : τ → Option α) (rows : List α) (ts : List τ) : Prop :=
  (rows ++ ts.filterMap row?).Pairwise R

namespace Exclusive

theorem committed (h : Exclusive R row? rows ts) : rows.Pairwise R := (List.pairwise_append.mp h).1

theorem nil (h : rows.Pairwise R) : Exclusive R row? rows [] := by
  rwa [Exclusive, List.filterMap_nil, List.append_nil]

/-- A transaction starts. -/
theorem start (h : Exclusive R row? rows ts) (ht : row? t = none) :
    Exclusive R row? rows (ts ++ [t]) := by
  rwa [Exclusive, List.filterMap_append, List.filterMap_cons_none ht, List.filterMap_nil,
    List.append_nil]

/-- A transaction ends without its row. -/
theorem finish (h : Exclusive R row? rows ts) (i : ℕ) : Exclusive R row? rows (ts.eraseIdx i) := by
  refine List.Pairwise.sublist ?_ h
  exact (List.Sublist.refl rows).append ((List.eraseIdx_sublist ts i).filterMap row?)

/-- A transaction that has inserted nothing takes a step. -/
theorem idle (h : Exclusive R row? rows ts) (ht : row? t' = none) :
    Exclusive R row? rows (ts.set i t') := by
  cases hi : ts[i]? with
  | none =>
    rwa [List.set_eq_of_length_le (List.getElem?_eq_none_iff.mp hi)]
  | some t =>
    obtain ⟨pre, post, -, herase, hset⟩ := ProcessFamily.split hi
    have hrest := h.finish i
    rw [herase] at hrest
    rw [hset]
    unfold Exclusive at hrest ⊢
    rwa [List.filterMap_append, List.filterMap_cons_none ht, ← List.filterMap_append]

/-- A transaction inserts a row that is compatible with the others. -/
theorem insert (hsymm : ∀ r r', R r r' → R r' r) (h : Exclusive R row? rows ts)
    (hi : ts[i]? = some t) (ht : row? t' = some row) (hrows : ∀ r ∈ rows, R r row)
    (hothers : ∀ u ∈ ts.eraseIdx i, ∀ r ∈ row? u, R r row) :
    Exclusive R row? rows (ts.set i t') := by
  obtain ⟨pre, post, -, herase, hset⟩ := ProcessFamily.split hi
  have hrest := h.finish i
  rw [herase] at hrest hothers
  rw [hset]
  -- the new row may stand last, as `R` is symmetric
  have hperm : (rows ++ (pre ++ t' :: post).filterMap row?).Perm
      (rows ++ (pre ++ post).filterMap row? ++ [row]) := by
    rw [List.filterMap_append, List.filterMap_cons_some ht, List.filterMap_append,
      List.append_assoc]
    refine List.Perm.append_left rows ?_
    rw [List.append_assoc]
    exact List.Perm.append_left _ (List.perm_append_singleton row _).symm
  refine (List.Perm.pairwise_iff (fun {a b} => hsymm a b) hperm).mpr ?_
  refine List.pairwise_append.mpr ⟨hrest, List.pairwise_singleton R row, ?_⟩
  intro r hr r' hr'
  rw [List.mem_singleton.mp hr']
  rcases List.mem_append.mp hr with hr | hr
  · exact hrows r hr
  · obtain ⟨u, hu, hr⟩ := List.mem_filterMap.mp hr
    exact hothers u hu r hr

/-- A transaction commits its row. -/
theorem commit (hsymm : ∀ r r', R r r' → R r' r) (h : Exclusive R row? rows ts)
    (hi : ts[i]? = some t) (ht : row? t = some row) :
    Exclusive R row? (rows ++ [row]) (ts.eraseIdx i) := by
  obtain ⟨pre, post, rfl, herase, -⟩ := ProcessFamily.split hi
  rw [herase]
  have hperm : (rows ++ [row] ++ (pre ++ post).filterMap row?).Perm
      (rows ++ (pre ++ t :: post).filterMap row?) := by
    rw [List.filterMap_append, List.filterMap_append, List.filterMap_cons_some ht,
      List.append_assoc, List.singleton_append]
    exact List.Perm.append_left rows List.perm_middle.symm
  exact (List.Perm.pairwise_iff (fun {a b} => hsymm a b) hperm).mpr h

end Exclusive
