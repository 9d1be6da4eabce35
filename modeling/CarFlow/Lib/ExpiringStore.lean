import Mathlib.Algebra.Order.Ring.Int
import Mathlib.Logic.Function.Basic

/-!
# Stores whose entries expire

A key-value store that forgets an entry some time after it was written, like a cache with a time to
live. `Written P ttl store` says that what the store still holds satisfied `P` when it was written:
with a `P` that stays true this is an invariant of every use of the store, and what is read was
written less than the time to live before.

## Main results

* `Written.set`, `Written.get` — the rules for writing and reading
-/

/-- The entries, each with the time from which it is gone. -/
structure ExpiringStore (κ ν : Type*) where
  entry : κ → Option (ν × ℤ) := fun _ => none

namespace ExpiringStore

variable {κ ν : Type*} [DecidableEq κ] {P Q : κ → ν → ℤ → Prop} {store : ExpiringStore κ ν}
  {now ttl : ℤ} {k : κ} {v : ν}

/-- Read an entry. -/
def get (store : ExpiringStore κ ν) (now : ℤ) (k : κ) : Option ν :=
  match store.entry k with
  | none => none
  | some (v, expires) => if now < expires then some v else none

/-- Write an entry. -/
def set (store : ExpiringStore κ ν) (now ttl : ℤ) (k : κ) (v : ν) : ExpiringStore κ ν :=
  { entry := Function.update store.entry k (some (v, now + ttl)) }

/-- Every entry satisfied `P` when it was written, that time included. -/
def Written (P : κ → ν → ℤ → Prop) (ttl : ℤ) (store : ExpiringStore κ ν) : Prop :=
  ∀ k v expires, store.entry k = some (v, expires) → P k v (expires - ttl)

omit [DecidableEq κ] in
theorem written_empty : Written P ttl ({} : ExpiringStore κ ν) := fun _ _ _ h => by cases h

omit [DecidableEq κ] in
theorem Written.mono (h : Written P ttl store) (hPQ : ∀ k v time, P k v time → Q k v time) :
    Written Q ttl store :=
  fun k v expires hv => hPQ _ _ _ (h k v expires hv)

theorem Written.set (h : Written P ttl store) (hP : P k v now) :
    Written P ttl (store.set now ttl k v) := by
  intro k' v' expires hv
  by_cases hk : k' = k
  · subst hk
    simp only [ExpiringStore.set, Function.update_self, Option.some.injEq] at hv
    cases hv
    rwa [Int.add_sub_cancel]
  · simp only [ExpiringStore.set, Function.update_of_ne hk] at hv
    exact h k' v' expires hv

omit [DecidableEq κ] in
/-- **What is read was written less than the time to live before.** -/
theorem Written.get (h : Written P ttl store) (hget : store.get now k = some v) :
    ∃ time, now < time + ttl ∧ P k v time := by
  unfold ExpiringStore.get at hget
  split at hget
  · cases hget
  · rename_i expires hv
    obtain ⟨hlt, he⟩ := Option.ite_none_right_eq_some.mp hget
    cases he
    exact ⟨expires - ttl, by omega, h k _ expires hv⟩

end ExpiringStore
