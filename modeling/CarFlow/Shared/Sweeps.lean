import CarFlow.Lib.TiedPages
import CarFlow.Shared.JwtAuth

/-!
# Reading a list page by page

A client asks a route for the offsets 0, `L`, `2 * L` and so on. The route sorts the rows and
responds with a page of them; which of the orders that the sort allows it takes may differ from
request to request. A request that is refused yields nothing.

## Main results

* `yieldsEach_iff` — when the responses yield each row exactly once
-/

namespace CarFlow

open TiedPages

section Sweeps

variable {α β : Type}

/-- The items of the first `m` responses, each over the rows as they are arranged then. -/
def sweepItems (route : List α → ℤ → ℤ → Except HttpException (List β)) (L : ℕ)
    (arrange : ℕ → List α) (m : ℕ) : List β :=
  (List.range m).flatMap fun k => (route (arrange k) L (k * L : ℕ)).toOption.getD []

/-- As soon as the responses cover the rows, they yield each exactly once, in whatever order each
request finds the rows. -/
def YieldsEach (before : α → α → Prop) (respond : α → β) (rows : List α) (L : ℕ)
    (route : List α → ℤ → ℤ → Except HttpException (List β)) : Prop :=
  ∀ arrange : ℕ → List α, (∀ k, Arranged before rows (arrange k)) → ∀ m, rows.length ≤ m * L →
    (sweepItems route L arrange m).Perm (rows.map respond)

variable {before : α → α → Prop} {respond : α → β} {rows xs : List α} {L : ℕ}
  {route : List α → ℤ → ℤ → Except HttpException (List β)} {accepted : ℕ → Bool}

/-- Rows with different responses can be told by them. -/
theorem perm_of_map_perm (hnodup : (rows.map respond).Nodup) (hsubset : xs ⊆ rows)
    (h : (xs.map respond).Perm (rows.map respond)) : xs.Perm rows := by
  have hxs : xs.Nodup := (h.nodup_iff.mpr hnodup).of_map respond
  refine (List.subperm_of_subset hxs hsubset).perm_of_length_le ?_
  rw [← List.length_map (f := respond), ← h.length_eq, List.length_map]

theorem sweep_subset {arrange : ℕ → List α} (h : ∀ k, Arranged before rows (arrange k)) (m : ℕ) :
    sweep accepted L arrange m ⊆ rows := by
  intro a ha
  obtain ⟨k, -, ha⟩ := List.mem_flatMap.mp ha
  split at ha
  · exact (h k).1.subset (List.mem_of_mem_drop (List.mem_of_mem_take ha))
  · exact absurd ha List.not_mem_nil

/-- **When the responses yield each row exactly once**, for a route that responds with the page at
the offsets it accepts. -/
theorem yieldsEach_iff [DecidableRel before] [Std.Total before] [IsTrans α before]
    (hnodup : (rows.map respond).Nodup) (hL : 0 < L)
    (hroute : ∀ xs k, (route xs L (k * L : ℕ)).toOption.getD [] =
      if accepted (k * L) then (pageAt L xs k).map respond else []) :
    YieldsEach before respond rows L route ↔
      (∀ k, k * L < rows.length → accepted (k * L)) ∧
        ∀ a ∈ rows, OnOnePage before rows L a := by
  have hitems (arrange : ℕ → List α) (m : ℕ) :
      sweepItems route L arrange m = (sweep accepted L arrange m).map respond := by
    rw [sweepItems, sweep, List.map_flatMap]
    congr 1
    funext k
    rw [hroute]
    split <;> rfl
  rw [← sweep_perm_iff (hnodup.of_map respond) hL]
  refine forall_congr' fun arrange => forall_congr' fun harrange => forall_congr' fun m =>
    forall_congr' fun _ => ?_
  rw [hitems]
  exact ⟨perm_of_map_perm hnodup (sweep_subset harrange m), fun h => h.map respond⟩

end Sweeps

end CarFlow
