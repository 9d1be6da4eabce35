import Mathlib.Data.List.Basic
import Mathlib.Tactic.Cases

/-!
# Offset pagination over a list that grows

A client reads a list page by page: it asks for the `limit` entries from an `offset` on, and then
moves the offset on by `limit`, until a page reaches the end. In between the list may gain entries
anywhere, as long as those it has keep their order: an entry then only ever moves to the right. It
may be read twice, but it is not skipped.

## Main results

* `Ahead.grow`, `Ahead.turn`, `Ahead.last` — what is to be read is read, or is still ahead
-/

namespace OffsetPages

variable {ι : Type*} {xs ys seen targets : List ι} {offset limit : ℕ}

/-- Each target has been seen, or is at the offset or beyond. -/
def Ahead (xs : List ι) (offset : ℕ) (seen targets : List ι) : Prop :=
  ∀ x ∈ targets, x ∈ seen ∨ x ∈ xs.drop offset

theorem Ahead.start (xs : List ι) : Ahead xs 0 [] xs := fun _ => .inr

/-- The list grows. -/
theorem Ahead.grow (h : Ahead xs offset seen targets) (hgrow : xs.Sublist ys) :
    Ahead ys offset seen targets :=
  fun x hx => (h x hx).imp_right fun hx => (hgrow.drop offset).subset hx

/-- A page is read. -/
theorem Ahead.turn (h : Ahead xs offset seen targets) (limit : ℕ) :
    Ahead xs (offset + limit) (seen ++ (xs.drop offset).take limit) targets := by
  intro x hx
  rcases h x hx with hx | hx
  · exact .inl (List.mem_append_left _ hx)
  · rw [← List.take_append_drop limit (xs.drop offset), List.drop_drop] at hx
    exact (List.mem_append.mp hx).imp_left (List.mem_append_right _)

/-- Nothing is ahead of a page that reaches the end. -/
theorem Ahead.last (h : Ahead xs offset seen targets) (hend : xs.length ≤ offset) :
    ∀ x ∈ targets, x ∈ seen := by
  intro x hx
  refine (h x hx).resolve_right fun hx => ?_
  rw [List.drop_eq_nil_of_le hend] at hx
  exact absurd hx List.not_mem_nil

end OffsetPages
