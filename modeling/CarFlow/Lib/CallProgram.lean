import Mathlib.Data.List.Nodup
import Mathlib.Tactic.Cases

/-!
# Programs that call a service which remembers its answers

A `CallProgram` is a computation interrupted by calls to an external service, with a continuation
for each reply. The service identifies a call by an idempotency key and remembers the first reply
to each key: a call whose key it knows is answered from memory and does nothing, any other call is
carried out, with a reply chosen by the service, and remembered. The memory is therefore also the
list of everything the service ever carried out.

## Crashes

The caller may crash between any two calls and start the program again; the service's memory
survives. If the program never uses a key twice, and none that was known before, then the memory
is always what it was before the first attempt, followed by the calls of the attempt that got
furthest: that is `respond_of_upto`. An attempt that gets to the end has made exactly those calls,
so crashes leave no trace.

## Main results

* `path_run` — a run follows a path; the paths are what specifications talk about
* `Upto.split`, `Upto.path` — programs are deterministic but for the replies
* `respond_of_upto` — **crashes leave no trace**: what a call of any attempt does to the memory
* `nodup_respond`, `length_filter_le_one` — a key is carried out at most once
* `respond_filter`, `respond_filter_of_not` — callers with keys of their own do not see each other
-/

universe u v w x y

/-- A computation that calls a service: a result, or a call and what to do with the reply. -/
inductive CallProgram (γ : Type u) (ρ : Type v) (α : Type w) : Type (max u v w)
  | done (result : α)
  | call (request : γ) (next : ρ → CallProgram γ ρ α)

namespace CallProgram

variable {γ : Type u} {ρ : Type v} {α : Type w} {β : Type y} {κ : Type x}

/-- Run a program on replies that depend on the call only. -/
def run (oracle : γ → ρ) : CallProgram γ ρ α → α
  | done a => a
  | call c next => (next (oracle c)).run oracle

@[simp] theorem run_done (oracle : γ → ρ) (a : α) :
    (done a : CallProgram γ ρ α).run oracle = a := rfl

@[simp] theorem run_call (oracle : γ → ρ) (c : γ) (next : ρ → CallProgram γ ρ α) :
    (call c next).run oracle = (next (oracle c)).run oracle := rfl

/-- A path through the program: the calls made and their replies, and the result. -/
inductive Path : CallProgram γ ρ α → List (γ × ρ) → α → Prop
  | done (a : α) : Path (done a) [] a
  | call {c : γ} {next : ρ → CallProgram γ ρ α} {r : ρ} {tr : List (γ × ρ)} {a : α} :
      Path (next r) tr a → Path (call c next) ((c, r) :: tr) a

theorem path_done_iff {a b : α} {tr : List (γ × ρ)} :
    Path (done a : CallProgram γ ρ α) tr b ↔ tr = [] ∧ b = a := by
  constructor
  · rintro ⟨⟩
    exact ⟨rfl, rfl⟩
  · rintro ⟨rfl, rfl⟩
    exact .done _

theorem path_call_iff {c : γ} {next : ρ → CallProgram γ ρ α} {a : α} {tr : List (γ × ρ)} :
    Path (call c next) tr a ↔ ∃ r tr', tr = (c, r) :: tr' ∧ Path (next r) tr' a := by
  constructor
  · rintro (_ | h)
    exact ⟨_, _, rfl, h⟩
  · rintro ⟨r, tr', rfl, h⟩
    exact .call h

/-- A run is along a path. -/
theorem path_run (oracle : γ → ρ) (p : CallProgram γ ρ α) :
    ∃ tr, Path p tr (p.run oracle) ∧ ∀ e ∈ tr, e.2 = oracle e.1 := by
  induction p with
  | done a => exact ⟨[], .done a, by simp⟩
  | call c next ih =>
    obtain ⟨tr, hp, htr⟩ := ih (oracle c)
    refine ⟨(c, oracle c) :: tr, .call hp, fun e he => ?_⟩
    rcases List.mem_cons.mp he with rfl | he
    · rfl
    · exact htr e he

/-- The calls of a run, with their replies. -/
def trace (oracle : γ → ρ) : CallProgram γ ρ α → List (γ × ρ)
  | done _ => []
  | call c next => (c, oracle c) :: (next (oracle c)).trace oracle

theorem path_trace (oracle : γ → ρ) (p : CallProgram γ ρ α) :
    Path p (p.trace oracle) (p.run oracle) := by
  induction p with
  | done a => exact .done a
  | call c next ih => exact .call (ih (oracle c))

/-! ### Getting part of the way

Where a program is after some calls. Two runs that have seen the same replies are at the same place,
so a program that starts again walks along what is already known. -/

/-- Forget part of the result. -/
def map (f : α → β) : CallProgram γ ρ α → CallProgram γ ρ β
  | done a => done (f a)
  | call c next => call c fun r => (next r).map f

/-- `Upto p tr q`: the program `p` makes the calls of `tr`, with those replies, and then is at
`q`. -/
inductive Upto : CallProgram γ ρ α → List (γ × ρ) → CallProgram γ ρ α → Prop
  | refl (p : CallProgram γ ρ α) : Upto p [] p
  | call {c : γ} {next : ρ → CallProgram γ ρ α} {r : ρ} {tr : List (γ × ρ)}
      {q : CallProgram γ ρ α} : Upto (next r) tr q → Upto (call c next) ((c, r) :: tr) q

variable {p q q' : CallProgram γ ρ α} {tr tr' : List (γ × ρ)} {c : γ}
  {next : ρ → CallProgram γ ρ α}

theorem Upto.snoc (h : Upto p tr (.call c next)) (r : ρ) : Upto p (tr ++ [(c, r)]) (next r) := by
  induction tr generalizing p with
  | nil =>
    cases h
    exact .call (.refl _)
  | cons e tr ih =>
    cases h with
    | call h => exact .call (ih h)

theorem Upto.path {a : α} (h : Upto p tr (.done a)) : Path p tr a := by
  induction tr generalizing p with
  | nil =>
    cases h
    exact .done a
  | cons e tr ih =>
    cases h with
    | call h => exact .call (ih h)

theorem Upto.map (f : α → β) (h : Upto p tr q) : Upto (p.map f) tr (q.map f) := by
  induction h with
  | refl => exact .refl _
  | call _ ih => exact .call ih

/-- A longer attempt passes through where a shorter one with the same replies is. -/
theorem Upto.split (h : Upto p tr q) (h' : Upto p (tr ++ tr') q') : Upto q tr' q' := by
  induction h with
  | refl => exact h'
  | call _ ih =>
    cases h' with
    | call h' => exact ih h'

theorem Upto.nil_of_done {a : α} (h : Upto (.done a) tr q) : tr = [] := by
  cases h
  rfl

/-- Every call of the program, on every path, satisfies `P`. -/
def Calls (P : γ → Prop) : CallProgram γ ρ α → Prop
  | done _ => True
  | call c next => P c ∧ ∀ r, (next r).Calls P

theorem Calls.of_map {P : γ → Prop} (f : α → β) (h : (p.map f).Calls P) : p.Calls P := by
  induction p with
  | done => trivial
  | call c next ih => exact ⟨h.1, fun r => ih r (h.2 r)⟩

/-- A run makes no other calls. -/
theorem Calls.trace {P : γ → Prop} (hp : p.Calls P) (oracle : γ → ρ) :
    ∀ e ∈ p.trace oracle, P e.1 := by
  induction p with
  | done a => exact fun e he => (by cases he)
  | call c next ih => exact List.forall_mem_cons.mpr ⟨hp.1, ih _ (hp.2 _)⟩

theorem Calls.upto {P : γ → Prop} (hp : p.Calls P) (h : Upto p tr q) :
    q.Calls P ∧ ∀ e ∈ tr, P e.1 := by
  induction h with
  | refl => exact ⟨hp, by simp⟩
  | call _ ih =>
    obtain ⟨hq, htr⟩ := ih (hp.2 _)
    exact ⟨hq, List.forall_mem_cons.mpr ⟨hp.1, htr⟩⟩

/-- No path uses a key twice, or a key that satisfies `used`. -/
def Distinct (key : γ → κ) : CallProgram γ ρ α → (κ → Prop) → Prop
  | done _, _ => True
  | call c next, used => ¬ used (key c) ∧
    ∀ r, (next r).Distinct key fun k => used k ∨ k = key c

/-- A call that is reached has a key that was not used on the way. -/
theorem Distinct.upto {key : γ → κ} {used : κ → Prop} (hp : p.Distinct key used)
    (h : Upto p tr (.call c next)) : ¬ used (key c) ∧ ∀ e ∈ tr, key e.1 ≠ key c := by
  induction tr generalizing p used with
  | nil =>
    cases h
    exact ⟨hp.1, by simp⟩
  | cons e tr ih =>
    cases h with
    | call h =>
      obtain ⟨hused, htr⟩ := ih (hp.2 _) h
      refine ⟨fun hu => hused (.inl hu), List.forall_mem_cons.mpr ⟨fun he => ?_, htr⟩⟩
      exact hused (.inr he.symm)

/-! ### The service

The service keeps its reply to a key, and gives it again. A first call with a key is answered as the
service likes. -/

section Service

variable [DecidableEq κ] (key : γ → κ)

/-- The remembered reply to a key. -/
def remembered (memory : List (γ × ρ)) (k : κ) : Option ρ :=
  (memory.find? fun e => key e.1 = k).map (·.2)

/-- One call: answered from memory if the key is known, carried out and remembered otherwise. The
`outcome` is what the service replies in the second case. -/
def respond (memory : List (γ × ρ)) (c : γ) (outcome : ρ) : ρ × List (γ × ρ) :=
  match remembered key memory (key c) with
  | some r => (r, memory)
  | none => (outcome, memory ++ [(c, outcome)])

variable {key} {memory : List (γ × ρ)} {c : γ} {outcome r : ρ}

theorem respond_of_remembered (h : remembered key memory (key c) = some r) :
    respond key memory c outcome = (r, memory) := by
  rw [respond, h]

theorem respond_of_new (h : remembered key memory (key c) = none) :
    respond key memory c outcome = (outcome, memory ++ [(c, outcome)]) := by
  rw [respond, h]

theorem remembered_eq_none_iff {k : κ} :
    remembered key memory k = none ↔ ∀ e ∈ memory, key e.1 ≠ k := by
  simp [remembered]

theorem remembered_append (memory new : List (γ × ρ)) (k : κ) :
    remembered key (memory ++ new) k = (remembered key memory k).or (remembered key new k) := by
  simp only [remembered, List.find?_append]
  cases List.find? (fun e => key e.1 = k) memory <;> simp

/-- **A key is carried out at most once.** -/
theorem nodup_respond (h : (memory.map fun e => key e.1).Nodup) (c : γ) (outcome : ρ) :
    ((respond key memory c outcome).2.map fun e => key e.1).Nodup := by
  cases hr : remembered key memory (key c) with
  | some r => rwa [respond_of_remembered hr]
  | none =>
    rw [respond_of_new hr, List.map_append, List.nodup_append]
    refine ⟨h, by simp, fun a ha b hb he => ?_⟩
    obtain ⟨e, hm, rfl⟩ := List.mem_map.mp ha
    obtain rfl : b = key c := by simpa using hb
    exact remembered_eq_none_iff.mp hr e hm he

/-- Only the call itself is ever added. -/
theorem mem_respond {e : γ × ρ} (h : e ∈ (respond key memory c outcome).2) :
    e ∈ memory ∨ e.1 = c := by
  cases hr : remembered key memory (key c) with
  | some r =>
    rw [respond_of_remembered hr] at h
    exact .inl h
  | none =>
    rw [respond_of_new hr] at h
    rcases List.mem_append.mp h with h | h
    · exact .inl h
    · exact .inr (congrArg Prod.fst (List.mem_singleton.mp h))

omit [DecidableEq κ] in
/-- So at most one call with a given key is in the memory. -/
theorem length_filter_le_one {P : γ × ρ → Bool} (k : κ)
    (h : (memory.map fun e => key e.1).Nodup) (hP : ∀ e ∈ memory, P e → key e.1 = k) :
    (memory.filter P).length ≤ 1 := by
  have hnodup : ((memory.filter P).map fun e => key e.1).Nodup :=
    h.sublist (List.filter_sublist.map _)
  have hall : ∀ j ∈ (memory.filter P).map fun e => key e.1, j = k := by
    intro j hj
    obtain ⟨e, he, rfl⟩ := List.mem_map.mp hj
    obtain ⟨hm, hp⟩ := List.mem_filter.mp he
    exact hP e hm hp
  have hlen : ((memory.filter P).map fun e => key e.1).length ≤ 1 := by
    rw [List.eq_replicate_of_mem hall] at hnodup ⊢
    rw [List.length_replicate]
    exact List.nodup_replicate.mp hnodup
  rwa [List.length_map] at hlen

/-! ### Attempts -/

/-- **Crashes leave no trace.** Let the memory be what it was before the first attempt, followed by
the calls of the attempt that got furthest, and let an attempt that got as far as `tr` make its
next call. Then the reply and the memory after are as if that attempt had been the only one. -/
theorem respond_of_upto {memory₀ : List (γ × ρ)}
    (hp : p.Distinct key fun k => ∃ e ∈ memory₀, key e.1 = k) (h : Upto p tr (.call c next))
    (h' : Upto p (tr ++ tr') q') (outcome : ρ) :
    ∃ r tr'' q'', respond key (memory₀ ++ (tr ++ tr')) c outcome =
        (r, memory₀ ++ (tr ++ [(c, r)] ++ tr'')) ∧ Upto p (tr ++ [(c, r)] ++ tr'') q'' := by
  obtain ⟨hused, htr⟩ := hp.upto h
  have hnew : remembered key (memory₀ ++ tr) (key c) = none := by
    refine remembered_eq_none_iff.mpr fun e he => ?_
    rcases List.mem_append.mp he with he | he
    · exact fun hk => hused ⟨e, he, hk⟩
    · exact htr e he
  cases tr' with
  | nil =>
    -- this is the furthest attempt, and the call is carried out
    refine ⟨outcome, [], next outcome, ?_, by simpa using h.snoc outcome⟩
    rw [respond_of_new (by simpa using hnew)]
    simp
  | cons e tr'' =>
    -- another attempt has made the call before
    obtain ⟨c', r⟩ := e
    have hsplit := h.split h'
    cases hsplit with
    | call hrest =>
      refine ⟨r, tr'', q', ?_, by simpa using h'⟩
      have hknown : remembered key (memory₀ ++ (tr ++ (c, r) :: tr'')) (key c) = some r := by
        rw [← List.append_assoc, remembered_append, hnew, Option.none_or]
        simp [remembered]
      rw [respond_of_remembered hknown]
      simp

/-! ### Callers with keys of their own -/

theorem remembered_filter {P : κ → Bool} {k : κ} (hk : P k) :
    remembered key (memory.filter fun e => P (key e.1)) k = remembered key memory k := by
  rw [remembered, remembered, List.find?_filter]
  congr 2
  funext e
  by_cases he : key e.1 = k <;> simp [he, hk]

/-- The callers a key belongs to see all of a call ... -/
theorem respond_filter {P : κ → Bool} {c : γ} (hP : P (key c)) (outcome : ρ) :
    respond key (memory.filter fun e => P (key e.1)) c outcome =
      ((respond key memory c outcome).1,
        (respond key memory c outcome).2.filter fun e => P (key e.1)) := by
  cases hr : remembered key memory (key c) with
  | some r => rw [respond_of_remembered hr, respond_of_remembered ((remembered_filter hP).trans hr)]
  | none =>
    rw [respond_of_new hr, respond_of_new ((remembered_filter hP).trans hr), List.filter_append]
    simp [hP]

/-- ... and all others nothing. -/
theorem respond_filter_of_not {P : κ → Bool} {c : γ} (hP : ¬ P (key c)) (outcome : ρ) :
    ((respond key memory c outcome).2.filter fun e => P (key e.1)) =
      memory.filter fun e => P (key e.1) := by
  cases hr : remembered key memory (key c) with
  | some r => rw [respond_of_remembered hr]
  | none =>
    rw [respond_of_new hr, List.filter_append]
    simp [hP]

end Service

end CallProgram
