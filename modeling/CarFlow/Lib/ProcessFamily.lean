import Mathlib.Data.List.Basic
import Mathlib.Tactic.Cases

/-!
# Processes side by side

The processes that run on a shared state, as a list: a process starts at the end of it, takes
steps in place, and leaves. Nothing orders the processes otherwise.

An invariant of such a list has two parts: what holds of each process (`P`, which may depend on the
shared state), and what holds between any two of them (`R`, symmetric), such as that they do not
hold the same lock. `ProcessFamily P R` is both, with one rule for each way the list changes.

## Main results

* `ProcessFamily.start`, `ProcessFamily.step`, `ProcessFamily.finish` — the three rules
* `ProcessFamily.others` — what holds between a process and the rest
-/

variable {τ : Type*} {P P' : τ → Prop} {R : τ → τ → Prop} {ts : List τ} {t t' u : τ} {i : ℕ}

/-- Each process satisfies `P`, and each two satisfy `R`. -/
structure ProcessFamily (P : τ → Prop) (R : τ → τ → Prop) (ts : List τ) : Prop where
  each : ∀ t ∈ ts, P t
  apart : ts.Pairwise R

namespace ProcessFamily

/-- A process splits the list into the others before and after it. -/
theorem split (h : ts[i]? = some t) : ∃ pre post, ts = pre ++ t :: post ∧
    ts.eraseIdx i = pre ++ post ∧ ∀ t', ts.set i t' = pre ++ t' :: post := by
  obtain ⟨hi, rfl⟩ := List.getElem?_eq_some_iff.mp h
  refine ⟨ts.take i, ts.drop (i + 1), ?_, List.eraseIdx_eq_take_drop_succ .., fun t' => ?_⟩
  · rw [← List.drop_eq_getElem_cons, List.take_append_drop]
  · rw [List.set_eq_take_append_cons_drop, if_pos hi]

theorem nil : ProcessFamily P R [] := ⟨by simp, .nil⟩

/-- A process starts. -/
theorem start (h : ProcessFamily P R ts) (ht : P t) (hR : ∀ u ∈ ts, R u t) :
    ProcessFamily P R (ts ++ [t]) := by
  refine ⟨fun u hu => ?_, List.pairwise_append.mpr ⟨h.apart, List.pairwise_singleton R t, ?_⟩⟩
  · rcases List.mem_append.mp hu with hu | hu
    · exact h.each u hu
    · rwa [List.mem_singleton.mp hu]
  · intro u hu v hv
    rw [List.mem_singleton.mp hv]
    exact hR u hu

/-- A process and the others. -/
theorem others (h : ProcessFamily P R ts) (hsymm : ∀ t u, R t u → R u t) (hi : ts[i]? = some t) :
    ∀ u ∈ ts.eraseIdx i, R t u := by
  obtain ⟨pre, post, rfl, herase, -⟩ := split hi
  obtain ⟨-, hpost, hpre⟩ := List.pairwise_append.mp h.apart
  rw [herase]
  intro u hu
  rcases List.mem_append.mp hu with hu | hu
  · exact hsymm u t (hpre u hu t List.mem_cons_self)
  · exact (List.pairwise_cons.mp hpost).1 u hu

theorem mem_of_mem_eraseIdx (hu : u ∈ ts.eraseIdx i) : u ∈ ts :=
  (List.eraseIdx_sublist ts i).mem hu

/-- A process is the one that takes a step, or one of the others. -/
theorem eq_or_mem_eraseIdx (hi : ts[i]? = some t) (hu : u ∈ ts) : u = t ∨ u ∈ ts.eraseIdx i := by
  obtain ⟨pre, post, rfl, herase, -⟩ := split hi
  rw [herase]
  rcases List.mem_append.mp hu with hu | hu
  · exact .inr (List.mem_append_left _ hu)
  · exact (List.mem_cons.mp hu).imp_right (List.mem_append_right _)

/-- The others are still there after its step. -/
theorem mem_set_of_mem_eraseIdx (hi : ts[i]? = some t) (hu : u ∈ ts.eraseIdx i) :
    u ∈ ts.set i t' := by
  obtain ⟨pre, post, -, herase, hset⟩ := split hi
  rw [herase] at hu
  rw [hset]
  rcases List.mem_append.mp hu with hu | hu
  · exact List.mem_append_left _ hu
  · exact List.mem_append_right _ (List.mem_cons_of_mem _ hu)

/-- A process leaves, and the shared state changes with it. -/
theorem finish (h : ProcessFamily P R ts) (i : ℕ) (hP : ∀ u ∈ ts.eraseIdx i, P u → P' u) :
    ProcessFamily P' R (ts.eraseIdx i) :=
  ⟨fun u hu => hP u hu (h.each u (mem_of_mem_eraseIdx hu)),
    h.apart.sublist (List.eraseIdx_sublist ts i)⟩

/-- A process takes a step, and the shared state changes with it. -/
theorem step (h : ProcessFamily P R ts) (hsymm : ∀ t u, R t u → R u t) (hi : ts[i]? = some t)
    (hP : ∀ u ∈ ts.eraseIdx i, P u → P' u) (ht : P' t') (hR : ∀ u ∈ ts.eraseIdx i, R t' u) :
    ProcessFamily P' R (ts.set i t') := by
  obtain ⟨pre, post, rfl, herase, hset⟩ := split hi
  rw [herase] at hP hR
  rw [hset]
  obtain ⟨hpre, hpost, hcross⟩ := List.pairwise_append.mp h.apart
  obtain ⟨-, hpost⟩ := List.pairwise_cons.mp hpost
  refine ⟨fun u hu => ?_, List.pairwise_append.mpr ⟨hpre, List.pairwise_cons.mpr ⟨?_, hpost⟩, ?_⟩⟩
  · rcases List.mem_append.mp hu with hu | hu
    · exact hP u (List.mem_append_left _ hu) (h.each u (List.mem_append_left _ hu))
    · rcases List.mem_cons.mp hu with rfl | hu
      · exact ht
      · exact hP u (List.mem_append_right _ hu)
          (h.each u (List.mem_append_right _ (List.mem_cons_of_mem _ hu)))
  · exact fun u hu => hR u (List.mem_append_right _ hu)
  · intro u hu v hv
    rcases List.mem_cons.mp hv with rfl | hv
    · exact hsymm _ u (hR u (List.mem_append_left _ hu))
    · exact hcross u hu v (List.mem_cons_of_mem _ hv)

end ProcessFamily
