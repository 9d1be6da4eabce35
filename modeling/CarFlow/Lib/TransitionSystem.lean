import Mathlib.Logic.Relation
import Mathlib.Tactic.Cases

/-!
# Guarded transition systems

A system here is an initial state together with an executable, guarded step function: `step s a`
is `some s'` when the action `a` is enabled in `s` and leads to `s'`, and `none` when it is not.
All nondeterminism (a scheduler, a network, an external service) lives in the choice of actions.

## Runs under a condition

Many properties hold of the runs of a system only as long as no step takes a certain branch.
`ReachableWhere ok` collects the states of the runs all of whose steps satisfy `ok`, a condition
on the state *before* the step and on the action. `Exec` keeps the whole run, so that a condition
can be shown to be exactly the right one: see `Exec.forall_iff`.

## Main results

* `Reachable.invariant`, `ReachableWhere.invariant` — the induction rules
* `Reachable.simulates` — simulation, step by step or with stuttering
* `reachable_of_run`, `exec_of_run` — reachability and runs by evaluation
* `Exec.forall_iff`, `Exec.forall_iff_where` — when each step keeps a property exactly if a
  condition holds, a whole run keeps the property exactly if the condition holds throughout
-/

universe u v

/-- An initial state and a guarded, executable step function. -/
structure TransitionSystem (σ : Type u) (α : Type v) where
  /-- The state every run starts in. -/
  init : σ
  /-- The state after an action, if the action is enabled. -/
  step : σ → α → Option σ

namespace TransitionSystem

variable {σ : Type u} {α : Type v} (S : TransitionSystem σ α)

/-! ### Reachable states

Invariants and the paths between states. `ReachableWhere` restricts the steps of a run by a
condition on the state before each, and is what a result with a condition is stated over. -/

/-- The states of all runs. -/
inductive Reachable : σ → Prop
  | init : Reachable S.init
  | step {s s' : σ} {a : α} : Reachable s → S.step s a = some s' → Reachable s'

/-- The states of the runs whose steps all satisfy `ok`. -/
inductive ReachableWhere (ok : σ → α → Prop) : σ → Prop
  | init : ReachableWhere ok S.init
  | step {s s' : σ} {a : α} :
      ReachableWhere ok s → ok s a → S.step s a = some s' → ReachableWhere ok s'

/-- Some sequence of actions leads from the first state to the second. -/
def Leads : σ → σ → Prop := Relation.ReflTransGen fun s s' => ∃ a, S.step s a = some s'

/-- Some sequence of actions that satisfy `ok` does. -/
def LeadsWhere (ok : α → Prop) : σ → σ → Prop :=
  Relation.ReflTransGen fun s s' => ∃ a, ok a ∧ S.step s a = some s'

variable {S}

theorem ReachableWhere.reachable {ok : σ → α → Prop} {s : σ} (h : S.ReachableWhere ok s) :
    S.Reachable s := by
  induction h with
  | init => exact .init
  | step _ _ hstep ih => exact .step ih hstep

theorem ReachableWhere.mono {ok ok' : σ → α → Prop} (hok : ∀ s a, ok s a → ok' s a) {s : σ}
    (h : S.ReachableWhere ok s) : S.ReachableWhere ok' s := by
  induction h with
  | init => exact .init
  | step _ ha hstep ih => exact .step ih (hok _ _ ha) hstep

/-- **Invariants.** What holds initially and is kept by every step holds of every reachable
state. The step may use that the state before it is reachable. -/
theorem Reachable.invariant (P : σ → Prop) (hinit : P S.init)
    (hstep : ∀ s a s', S.Reachable s → P s → S.step s a = some s' → P s') {s : σ}
    (h : S.Reachable s) : P s := by
  induction h with
  | init => exact hinit
  | step hr hs ih => exact hstep _ _ _ hr ih hs

/-- **Invariants of the runs under a condition.** -/
theorem ReachableWhere.invariant {ok : σ → α → Prop} (P : σ → Prop) (hinit : P S.init)
    (hstep : ∀ s a s', S.Reachable s → P s → ok s a → S.step s a = some s' → P s') {s : σ}
    (h : S.ReachableWhere ok s) : P s := by
  induction h with
  | init => exact hinit
  | step hr hok hs ih => exact hstep _ _ _ hr.reachable ih hok hs

theorem Reachable.leads {s s' : σ} (h : S.Reachable s) (hl : S.Leads s s') : S.Reachable s' := by
  induction hl with
  | refl => exact h
  | tail _ hstep ih =>
    obtain ⟨a, ha⟩ := hstep
    exact .step ih ha

theorem LeadsWhere.leads {ok : α → Prop} {s s' : σ} (h : S.LeadsWhere ok s s') : S.Leads s s' := by
  induction h with
  | refl => exact .refl
  | tail _ hstep ih =>
    obtain ⟨a, -, ha⟩ := hstep
    exact .tail ih ⟨a, ha⟩

/-- What every step keeps, a sequence of steps keeps. -/
theorem Leads.stable (P : σ → Prop)
    (hstep : ∀ s a s', S.Reachable s → P s → S.step s a = some s' → P s') {s s' : σ}
    (h : S.Reachable s) (hP : P s) (hl : S.Leads s s') : P s' := by
  induction hl with
  | refl => exact hP
  | tail hl' hstep' ih =>
    obtain ⟨a, ha⟩ := hstep'
    exact hstep _ _ _ (h.leads hl') ih ha

/-- **Simulation.** If each step is matched by steps of another system, perhaps by none, then a
reachable state is an image of a reachable one. -/
theorem Reachable.simulates {τ : Type u} {β : Type v} {T : TransitionSystem τ β} (f : σ → τ)
    (hinit : f S.init = T.init)
    (hstep : ∀ s a s', S.Reachable s → S.step s a = some s' → T.Leads (f s) (f s')) {s : σ}
    (h : S.Reachable s) : T.Reachable (f s) := by
  induction h with
  | init => exact hinit ▸ .init
  | step hr hs ih => exact ih.leads (hstep _ _ _ hr hs)

theorem leads_of_step {s s' : σ} {a : α} (h : S.step s a = some s') : S.Leads s s' :=
  .single ⟨a, h⟩

/-! ### Runs by evaluation -/

variable (S) in
/-- Take the actions of a list one after the other; `none` if one of them is not enabled. -/
def run (s : σ) (as : List α) : Option σ := as.foldlM S.step s

theorem run_cons_iff {s s' : σ} {a : α} {as : List α} :
    S.run s (a :: as) = some s' ↔ ∃ s₁, S.step s a = some s₁ ∧ S.run s₁ as = some s' :=
  Option.bind_eq_some_iff

theorem reachable_of_run {s s' : σ} {as : List α} (h : S.Reachable s)
    (hr : S.run s as = some s') : S.Reachable s' := by
  induction as generalizing s with
  | nil =>
    obtain rfl : s = s' := by simpa [run] using hr
    exact h
  | cons a as ih =>
    simp only [run, List.foldlM_cons, Option.bind_eq_bind, Option.bind_eq_some_iff] at hr
    obtain ⟨t, ht, hr⟩ := hr
    exact ih (.step h ht) hr

/-! ### Whole runs

A run with all its states, for results that say exactly in which runs something holds throughout. -/

variable (S) in
/-- `Exec s tr s'`: a run from `s` to `s'`. The list holds its steps in order, each as the state
before the step and the action taken there. -/
inductive Exec (s : σ) : List (σ × α) → σ → Prop
  | nil : Exec s [] s
  | snoc {tr : List (σ × α)} {s' s'' : σ} {a : α} :
      Exec s tr s' → S.step s' a = some s'' → Exec s (tr ++ [(s', a)]) s''

theorem Exec.reachable {tr : List (σ × α)} {s : σ} (h : S.Exec S.init tr s) : S.Reachable s := by
  induction h with
  | nil => exact .init
  | snoc _ hstep ih => exact .step ih hstep

theorem Exec.reachableWhere {ok : σ → α → Prop} {tr : List (σ × α)} {s : σ}
    (h : S.Exec S.init tr s) (hok : ∀ x ∈ tr, ok x.1 x.2) : S.ReachableWhere ok s := by
  induction h with
  | nil => exact .init
  | snoc _ hstep ih =>
    exact .step (ih fun x hx => hok x (List.mem_append_left _ hx))
      (hok _ (List.mem_append_right _ List.mem_cons_self)) hstep

theorem Exec.trans {tr tr' : List (σ × α)} {s s' s'' : σ} (h : S.Exec s tr s')
    (h' : S.Exec s' tr' s'') : S.Exec s (tr ++ tr') s'' := by
  induction h' with
  | nil => rwa [List.append_nil]
  | snoc _ hstep ih =>
    rw [← List.append_assoc]
    exact ih.snoc hstep

variable (S) in
/-- The steps of the run that takes the actions of a list, as far as they are enabled. -/
def steps (s : σ) : List α → List (σ × α)
  | [] => []
  | a :: as => (s, a) :: match S.step s a with
    | none => []
    | some s' => steps s' as

theorem exec_steps {s s' : σ} {as : List α} (hr : S.run s as = some s') :
    S.Exec s (S.steps s as) s' := by
  induction as generalizing s with
  | nil =>
    obtain rfl : s = s' := by simpa [run] using hr
    exact .nil
  | cons a as ih =>
    simp only [run, List.foldlM_cons, Option.bind_eq_bind, Option.bind_eq_some_iff] at hr
    obtain ⟨t, ht, hr⟩ := hr
    rw [steps, ht]
    exact (Exec.nil.snoc ht).trans (ih hr)

theorem map_snd_steps {s s' : σ} {as : List α} (hr : S.run s as = some s') :
    (S.steps s as).map Prod.snd = as := by
  induction as generalizing s with
  | nil => rfl
  | cons a as ih =>
    simp only [run, List.foldlM_cons, Option.bind_eq_bind, Option.bind_eq_some_iff] at hr
    obtain ⟨t, ht, hr⟩ := hr
    rw [steps, ht, List.map_cons, ih hr]

/-- The run that takes the actions of a list. -/
theorem exec_of_run {s s' : σ} {as : List α} (hr : S.run s as = some s') :
    ∃ tr, S.Exec s tr s' ∧ tr.map Prod.snd = as :=
  ⟨S.steps s as, exec_steps hr, map_snd_steps hr⟩

/-- The states a run goes through: before each of its steps, and at its end. -/
def Throughout (P : σ → Prop) (tr : List (σ × α)) (s : σ) : Prop := (∀ x ∈ tr, P x.1) ∧ P s

/-- A run that ends without a property does not have it throughout. -/
theorem not_throughout {P : σ → Prop} (tr : List (σ × α)) {s : σ} (h : ¬ P s) :
    ¬ Throughout P tr s :=
  fun hthroughout => h hthroughout.2

theorem throughout_snoc {P : σ → Prop} {tr : List (σ × α)} {s s' : σ} {a : α} :
    Throughout P (tr ++ [(s, a)]) s' ↔ Throughout P tr s ∧ P s' := by
  simp only [Throughout, List.mem_append, List.mem_singleton]
  constructor
  · rintro ⟨h, h'⟩
    exact ⟨⟨fun x hx => h x (.inl hx), h (s, a) (.inr rfl)⟩, h'⟩
  · rintro ⟨⟨h, hs⟩, h'⟩
    refine ⟨fun x hx => ?_, h'⟩
    rcases hx with hx | rfl
    · exact h x hx
    · exact hs

/-- **An exact condition**, for the runs all of whose steps satisfy `side`. If from a state with
`P` a step leads to a state with `P` exactly when it satisfies `ok`, then a run has `P` throughout
exactly when all its steps satisfy `ok`. -/
theorem Exec.forall_iff_where (side : σ → α → Prop) (P : σ → Prop) (ok : σ → α → Prop)
    (hinit : P S.init)
    (hstep : ∀ s a s', S.ReachableWhere side s → side s a → P s → S.step s a = some s' →
      (P s' ↔ ok s a))
    {tr : List (σ × α)} {s : σ} (h : S.Exec S.init tr s) (hside : ∀ x ∈ tr, side x.1 x.2) :
    Throughout P tr s ↔ ∀ x ∈ tr, ok x.1 x.2 := by
  induction h with
  | nil => simp [Throughout, hinit]
  | snoc hr hs ih =>
    rename_i tr s' s'' a
    have hside' : ∀ x ∈ tr, side x.1 x.2 := fun x hx => hside x (List.mem_append_left _ hx)
    have hlast : P s' → (P s'' ↔ ok s' a) := fun hP =>
      hstep _ _ _ (hr.reachableWhere hside')
        (hside _ (List.mem_append_right _ List.mem_cons_self)) hP hs
    rw [throughout_snoc]
    simp only [List.mem_append, List.mem_singleton]
    constructor
    · rintro ⟨hth, hP⟩ x (hx | rfl)
      · exact (ih hside').mp hth x hx
      · exact (hlast hth.2).mp hP
    · intro hok
      have hth : Throughout P tr s' := (ih hside').mpr fun x hx => hok x (.inl hx)
      exact ⟨hth, (hlast hth.2).mpr (hok _ (.inr rfl))⟩

/-- The same for all runs. -/
theorem Exec.forall_iff (P : σ → Prop) (ok : σ → α → Prop) (hinit : P S.init)
    (hstep : ∀ s a s', S.Reachable s → P s → S.step s a = some s' → (P s' ↔ ok s a))
    {tr : List (σ × α)} {s : σ} (h : S.Exec S.init tr s) :
    Throughout P tr s ↔ ∀ x ∈ tr, ok x.1 x.2 :=
  h.forall_iff_where (fun _ _ => True) P ok hinit
    (fun s a s' hr _ => hstep s a s' hr.reachable) fun _ _ => True.intro

end TransitionSystem
