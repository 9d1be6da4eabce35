import Mathlib.Data.List.Basic
import Mathlib.Tactic.Cases

/-!
# Interleavings of streams

A sequence of steps on a shared state is an interleaving of streams: each step belongs to one of
them, and what is observed of the state belongs to one of them too. If the steps of other streams
leave the observation alone, and what a step of the stream makes of it depends on it only, then the
observation at the end depends on the stream only, and not on how it was interleaved.

Steps are delivered with an identifier, possibly more than once. `firsts` keeps the first delivery
of each.

## Main results

* `observe_foldl` — **what is observed of a stream is what the stream alone makes of it**
* `firsts_concat` — one more delivery is a new step or a repetition
-/

universe u v w x

namespace Interleavings

variable {α : Type u} {σ : Type v} {ω : Type w} {ι : Type x}

/-! ### Observations -/

section Observations

variable (step : σ → α → σ) (observe : σ → ω) {concerns : α → Bool} {s s' : σ}

/-- **What is observed of a stream is what the stream alone makes of it.** -/
theorem observe_foldl
    (hframe : ∀ s a, concerns a = false → observe (step s a) = observe s)
    (hlocal : ∀ s s' a, concerns a = true → observe s = observe s' →
      observe (step s a) = observe (step s' a))
    (as : List α) (h : observe s = observe s') :
    observe (as.foldl step s) = observe ((as.filter concerns).foldl step s') := by
  induction as generalizing s s' with
  | nil => exact h
  | cons a as ih =>
    cases ha : concerns a with
    | true =>
      rw [List.filter_cons_of_pos ha]
      exact ih (hlocal s s' a ha h)
    | false =>
      rw [List.filter_cons_of_neg (by simp [ha])]
      exact ih ((hframe s a ha).trans h)

end Observations

/-! ### Repeated deliveries -/

section Firsts

variable [DecidableEq ι] (id : α → ι)

/-- The first delivery of each identifier. -/
def firsts : List α → List α
  | [] => []
  | a :: as => a :: (firsts as).filter fun a' => id a' ≠ id a

/-- One more delivery is a new step, or it repeats an identifier. -/
theorem firsts_concat (as : List α) (a : α) :
    firsts id (as ++ [a]) = firsts id as ++ if ∃ a' ∈ as, id a' = id a then [] else [a] := by
  induction as with
  | nil => simp [firsts]
  | cons x as ih =>
    rw [List.cons_append, firsts, firsts, ih, List.filter_append, List.cons_append]
    by_cases hx : id x = id a
    · by_cases hmem : ∃ a' ∈ as, id a' = id a <;> simp [hx, hmem]
    · have hx' : id a ≠ id x := fun h => hx h.symm
      by_cases hmem : ∃ a' ∈ as, id a' = id a <;> simp [hx, hx', hmem]

end Firsts

end Interleavings
