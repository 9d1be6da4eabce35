import Mathlib.Tactic.Cases

/-!
# Inverting computations that may raise

What it means for an `Except` computation to return, one lemma for each way of building one. As
simp lemmas they turn `f x = .ok r`, for an `f` in `do` notation, into the existence of the
intermediate results.

`x.map f = y.map f` says that two computations raise the same exception or return results that look
the same to `f`: `map_bind_congr` is the rule for sequences.
-/

namespace Except

universe u v w

variable {ε : Type u} {ε' : Type w} {α β : Type v}

@[simp] theorem bind_eq_ok_iff {x : Except ε α} {f : α → Except ε β} {b : β} :
    (x >>= f) = .ok b ↔ ∃ a, x = .ok a ∧ f a = .ok b := by
  cases x <;> simp [bind, Except.bind]

@[simp] theorem map_eq_ok_iff {x : Except ε α} {f : α → β} {b : β} :
    f <$> x = .ok b ↔ ∃ a, x = .ok a ∧ f a = b := by
  cases x <;> simp [Functor.map, Except.map]

@[simp] theorem pure_eq_ok_iff {a b : α} : (pure a : Except ε α) = .ok b ↔ a = b := by
  simp [pure, Except.pure]

@[simp] theorem throw_eq_ok_iff {e : ε} {a : α} : (throw e : Except ε α) = .ok a ↔ False := by
  simp [throw, throwThe, MonadExceptOf.throw]

@[simp] theorem mapError_eq_ok_iff {f : ε → ε'} {x : Except ε α} {a : α} :
    x.mapError f = .ok a ↔ x = .ok a := by
  cases x <;> simp [Except.mapError]

theorem toOption_eq_some_iff {x : Except ε α} {a : α} : x.toOption = some a ↔ x = .ok a := by
  cases x <;> simp [Except.toOption]

/-- An exception is raised by the first part of a sequence or, after that returned, by the
second. -/
theorem bind_eq_error_iff {x : Except ε α} {f : α → Except ε β} {e : ε} :
    (x >>= f) = .error e ↔ x = .error e ∨ ∃ a, x = .ok a ∧ f a = .error e := by
  cases x <;> simp [bind, Except.bind]

theorem mapError_eq_error_iff {f : ε → ε'} {x : Except ε α} {e : ε'} :
    x.mapError f = .error e ↔ ∃ e', x = .error e' ∧ f e' = e := by
  cases x <;> simp [Except.mapError]

theorem eq_error_of_map_eq {f : α → β} {x y : Except ε α} {e : ε} (h : x.map f = y.map f)
    (hx : x = .error e) : y = .error e := by
  subst hx
  cases y with
  | error e' => exact congrArg Except.error (Except.error.inj h).symm
  | ok a => cases h

/-- Two sequences look the same if their first parts do, and if the second parts do after first
parts that look the same. -/
theorem map_bind_congr {α β γ δ : Type v} {f : β → γ} {g : α → δ} {x y : Except ε α}
    {k l : α → Except ε β} (h : x.map g = y.map g)
    (hkl : ∀ a a', g a = g a' → (k a).map f = (l a').map f) :
    (x >>= k).map f = (y >>= l).map f := by
  cases x with
  | error e =>
    cases y with
    | error e' => exact congrArg Except.error (Except.error.inj h)
    | ok a' => cases h
  | ok a =>
    cases y with
    | error e' => cases h
    | ok a' => exact hkl a a' (Except.ok.inj h)

end Except
