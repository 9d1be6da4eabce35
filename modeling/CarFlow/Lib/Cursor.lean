import Mathlib.Data.List.Basic
import Mathlib.Tactic.Cases

/-!
# Following a cursor

A client reads a list page by page: it asks for the page at a cursor, and goes on with the cursor
that came with the page, until none comes. Here `follow fetch n c` is what it has after at most `n`
requests from `c` on, or `none` if a request fails or it is not done by then.

## Main results

* `exists_follow` — the client ends, with all that is ahead of its first cursor
* `follow_eq_none` — the client never ends
-/

namespace Cursor

variable {κ α β : Type*} {fetch : κ → Option (List α × Option κ)}

/-- The items of the pages from a cursor on, within a number of requests. -/
def follow (fetch : κ → Option (List α × Option κ)) : ℕ → κ → Option (List α)
  | 0, _ => none
  | requests + 1, c => (fetch c).bind fun body =>
    match body.2 with
    | none => some body.1
    | some next => (follow fetch requests next).map (body.1 ++ ·)

theorem follow_last {c : κ} {items : List α} (h : fetch c = some (items, none)) (requests : ℕ) :
    follow fetch (requests + 1) c = some items := by
  rw [follow, h]
  rfl

theorem follow_next {c next : κ} {items : List α} (h : fetch c = some (items, some next))
    (requests : ℕ) :
    follow fetch (requests + 1) c = (follow fetch requests next).map (items ++ ·) := by
  rw [follow, h]
  rfl

variable (fetch) in
/-- **The client ends** if each page is the first part of what is ahead, and what is ahead of the
next cursor is the other part and measures less. -/
theorem exists_follow (Good : κ → Prop) (ahead : κ → List α) (measure : κ → ℕ)
    (h : ∀ c, Good c → fetch c = some (ahead c, none) ∨ ∃ items next,
      fetch c = some (items, some next) ∧ Good next ∧ measure next < measure c ∧
        ahead c = items ++ ahead next)
    {c : κ} (hc : Good c) : ∃ requests, follow fetch requests c = some (ahead c) := by
  induction hm : measure c using Nat.strongRecOn generalizing c with
  | ind m ih =>
    rcases h c hc with hlast | ⟨items, next, hfetch, hnext, hless, hahead⟩
    · exact ⟨1, follow_last hlast 0⟩
    · obtain ⟨requests, hrest⟩ := ih _ (hm ▸ hless) hnext rfl
      exact ⟨requests + 1, by rw [follow_next hfetch, hrest, Option.map_some, ← hahead]⟩

variable (fetch) in
/-- **The client never ends** if a page at a bad cursor always leads to another bad cursor. -/
theorem follow_eq_none (Bad : κ → Prop)
    (h : ∀ c, Bad c → ∀ body, fetch c = some body → ∃ next, body.2 = some next ∧ Bad next)
    (requests : ℕ) {c : κ} (hc : Bad c) : follow fetch requests c = none := by
  induction requests generalizing c with
  | zero => rfl
  | succ requests ih =>
    cases hfetch : fetch c with
    | none => rw [follow, hfetch, Option.bind_none]
    | some body =>
      obtain ⟨next, hnext, hbad⟩ := h c hc body hfetch
      rw [follow_next (hfetch.trans (congrArg some (Prod.ext rfl hnext))), ih hbad, Option.map_none]

/-- What is done to each item can be done at the end. -/
theorem follow_map (f : α → β) (requests : ℕ) (c : κ) :
    follow (fun c => (fetch c).map fun body => (body.1.map f, body.2)) requests c =
      (follow fetch requests c).map (List.map f) := by
  induction requests generalizing c with
  | zero => rfl
  | succ requests ih =>
    cases hfetch : fetch c with
    | none => simp only [follow, hfetch, Option.map_none, Option.bind_none]
    | some body =>
      obtain ⟨items, next⟩ := body
      cases next with
      | none => simp only [follow, hfetch, Option.map_some, Option.bind_some]
      | some next =>
        simp only [follow, hfetch, Option.map_some, Option.bind_some, ih, Option.map_map]
        congr 1
        funext rest
        exact (List.map_append ..).symm

end Cursor
