import CarFlow.Lib.OffsetPages
import Mathlib.Algebra.Order.Ring.Int

/-!
# Pages of a list route

The list routes take a `limit` and an `offset`, ask the database for one row more than the limit,
and return the offset of the next page if that row was there. Both numbers are any integers.

## Main results

* `page_eq` — a page, for a limit and an offset that are not negative
-/

namespace CarFlow

variable {α : Type}

/-- `SELECT … LIMIT limit OFFSET offset`. Postgres refuses negative numbers. -/
def limitOffset (rows : List α) (limit offset : ℤ) : Option (List α) :=
  if limit < 0 ∨ offset < 0 then none else some ((rows.drop offset.toNat).take limit.toNat)

/-- The slice `rows[:n]`: a negative `n` counts from the end. -/
def sliceTo (rows : List α) (n : ℤ) : List α :=
  if 0 ≤ n then rows.take n.toNat else rows.take (rows.length - n.natAbs)

/-- The response of a list route. -/
structure Page (α : Type) where
  items : List α
  nextOffset : Option ℤ
  deriving DecidableEq

/-- A list route, over the rows in the order of its query. -/
def page (rows : List α) (limit offset : ℤ) : Option (Page α) := do
  let found ← limitOffset rows (limit + 1) offset
  some {
    items := sliceTo found limit
    nextOffset := if (found.length : ℤ) > limit then some (offset + limit) else none }

/-- A page has rows of the table. -/
theorem mem_of_mem_page {rows : List α} {limit offset : ℤ} {body : Page α} {row : α}
    (h : page rows limit offset = some body) (hrow : row ∈ body.items) : row ∈ rows := by
  simp only [page, limitOffset, Option.bind_eq_bind, Option.bind_eq_some_iff,
    Option.ite_none_left_eq_some, Option.some.injEq] at h
  obtain ⟨found, ⟨-, rfl⟩, rfl⟩ := h
  unfold sliceTo at hrow
  split at hrow <;> exact List.mem_of_mem_drop (List.mem_of_mem_take (List.mem_of_mem_take hrow))

/-- **A page** has the rows from the offset on, and the next offset as long as there are more. -/
theorem page_eq (rows : List α) (limit offset : ℕ) :
    page rows limit offset = some {
      items := (rows.drop offset).take limit
      nextOffset := if offset + limit < rows.length then some ((offset + limit : ℕ) : ℤ)
        else none } := by
  have hfound : limitOffset rows ((limit : ℤ) + 1) offset =
      some ((rows.drop offset).take (limit + 1)) := by
    rw [limitOffset, if_neg (by omega)]
    rfl
  have hmore : (((rows.drop offset).take (limit + 1)).length : ℤ) > limit ↔
      offset + limit < rows.length := by
    rw [List.length_take, List.length_drop]
    omega
  rw [page, hfound]
  simp only [Option.bind_eq_bind, Option.bind_some, Option.some.injEq, Page.mk.injEq, hmore]
  constructor
  · rw [sliceTo, if_pos (Int.natCast_nonneg limit), Int.toNat_natCast, List.take_take]
    congr 1
    omega
  · push_cast
    rfl

end CarFlow
