import CarFlow.Shared.Idempotency
import Mathlib.Data.List.Forall2

/-!
# Retries of one request

A client sends one request again and again under one `Idempotency-Key`, each attempt after the end
of the one before it, until it has an answer. The service keeps all it does in its own Postgres
(auth, listing and booking do), so an attempt is one transaction: the lookup of the guard, what
`build` writes, the row of `store`, and the commit.

## One attempt

* `build` writes what it likes, may roll its session back (the handlers do, before they raise), and
  returns a response or raises;
* `store` inserts the row of the key and commits;
* the attempt may be **cut off** before, between and after all of these, which drops the session.

Other requests, under other keys, commit their transactions at any time.

## The log

`log` holds what becomes visible outside, in order: transactions that are committed, answers that
are given, attempts that end without one. It has one entry for each step of the run that shows
anything, and the database is the fold of what it says was committed.

What `build` does is up to the run: `buildWrites` and `buildBody` read it off the actions of the
attempt, and what is committed and answered is compared with that.

## Main results

* `RetriesOk.step` — the invariant: as long as nothing is committed the key is free, and afterwards
  the key answers
* `exists_commit_of_log` — a commit is that of an attempt, with all that its `build` wrote and the
  body that it returned
* `retries_exactly_once` — the attempts of a run are some errors, and then perhaps one commit of
  effects and row together, and after it nothing but the stored response
-/

namespace CarFlow

/-! ### Attempts -/

/-- What a transaction leaves: its writes to the tables of the domain and its rows of
`idempotency_keys`. -/
structure WriteSet (ω : Type) where
  writes : List ω
  rows : List IdempotencyRow
  deriving DecidableEq

/-- The database of a service. -/
structure Database (δ : Type) where
  tables : δ
  keys : List IdempotencyRow

/-- An attempt under way: where it is, and what `build` has written in its session. -/
structure Attempt (ω : Type) where
  phase : Phase
  writes : List ω := []

/-- What becomes visible outside. -/
inductive Visible (ω : Type)
  /-- An attempt has committed. -/
  | committed (t : WriteSet ω)
  /-- Another request has. -/
  | other (t : WriteSet ω)
  | answered (answer : Answer)
  /-- An attempt has ended without an answer. -/
  | cut
  deriving DecidableEq

/-- A service and a client that retries. Nothing reads the log. -/
structure Retries (δ ω : Type) where
  db : Database δ
  attempt : Option (Attempt ω) := none
  log : List (Visible ω) := []

inductive RetryAction (ω : Type)
  /-- The client sends the request. -/
  | attempt
  | write (w : ω)
  | rollback
  | advance (step : RequestStep)
  | commit
  | respond
  | cut
  | other (t : WriteSet ω)

section Steps

variable {δ ω : Type} (apply : δ → ω → δ)

/-- The database after a transaction. -/
def Database.commit (db : Database δ) (t : WriteSet ω) : Database δ where
  tables := t.writes.foldl apply db.tables
  keys := db.keys ++ t.rows

variable (hash : List UInt8 → String) (request : Request)

/-- One step. -/
def retryStep (s : Retries δ ω) : RetryAction ω → Option (Retries δ ω)
  | .attempt =>
    match s.attempt with
    | none => some { s with attempt := some { phase := guardPhase hash s.db.keys request } }
    | some _ => none
  | .write w => do
    let t ← s.attempt
    match t.phase with
    | .guarded => some { s with attempt := some { t with writes := t.writes ++ [w] } }
    | _ => none
  | .rollback => do
    let t ← s.attempt
    match t.phase with
    | .guarded => some { s with attempt := some { t with writes := [] } }
    | _ => none
  | .advance step => do
    let t ← s.attempt
    let phase ← nextPhase hash s.db.keys [] { request, phase := t.phase } step
    some { s with attempt := some { t with phase } }
  | .commit => do
    let t ← s.attempt
    match t.phase with
    | .inserted responseBody =>
      let transaction := { writes := t.writes, rows := [request.row hash responseBody] }
      some {
        db := s.db.commit apply transaction
        attempt := some { phase := .finished (.response responseBody request.statusCode) }
        log := s.log ++ [.committed transaction] }
    | .lost _ row =>
      let transaction := { writes := t.writes, rows := [] }
      some {
        db := s.db.commit apply transaction
        attempt := some { phase := .finished (.response row.responseBody row.statusCode) }
        log := s.log ++ [.committed transaction] }
    | _ => none
  | .respond => do
    let t ← s.attempt
    match t.phase with
    | .finished answer => some { s with attempt := none, log := s.log ++ [.answered answer] }
    | _ => none
  | .cut => do
    let _ ← s.attempt
    some { s with attempt := none, log := s.log ++ [.cut] }
  | .other t =>
    if t.rows.any (·.slot = request.slot) then none
    else some { s with db := s.db.commit apply t, log := s.log ++ [.other t] }

/-- The attempts at a request, on a service that has stored no key yet. -/
def retries (tables : δ) : TransitionSystem (Retries δ ω) (RetryAction ω) where
  init := { db := { tables, keys := [] } }
  step := retryStep apply hash request

end Steps

/-- The ways a step can go. -/
inductive RetryStep {δ ω : Type} (apply : δ → ω → δ) (hash : List UInt8 → String)
    (request : Request) (s : Retries δ ω) : RetryAction ω → Retries δ ω → Prop
  | sent (hnone : s.attempt = none) : RetryStep apply hash request s .attempt
      { s with attempt := some { phase := guardPhase hash s.db.keys request } }
  | wrote (w : ω) (t : Attempt ω) (ht : s.attempt = some t) (hphase : t.phase = .guarded) :
      RetryStep apply hash request s (.write w)
        { s with attempt := some { t with writes := t.writes ++ [w] } }
  | rolledBack (t : Attempt ω) (ht : s.attempt = some t) (hphase : t.phase = .guarded) :
      RetryStep apply hash request s .rollback
        { s with attempt := some { t with writes := [] } }
  | advanced (step : RequestStep) (t : Attempt ω) (phase : Phase) (ht : s.attempt = some t)
      (hphase : nextPhase hash s.db.keys [] { request, phase := t.phase } step = some phase) :
      RetryStep apply hash request s (.advance step) { s with attempt := some { t with phase } }
  | committed (t : Attempt ω) (body : String) (ht : s.attempt = some t)
      (hphase : t.phase = .inserted body) :
      RetryStep apply hash request s .commit {
        db := s.db.commit apply ⟨t.writes, [request.row hash body]⟩
        attempt := some { phase := .finished (.response body request.statusCode) }
        log := s.log ++ [.committed ⟨t.writes, [request.row hash body]⟩] }
  | committedLost (t : Attempt ω) (body : String) (row : IdempotencyRow) (ht : s.attempt = some t)
      (hphase : t.phase = .lost body row) :
      RetryStep apply hash request s .commit {
        db := s.db.commit apply ⟨t.writes, []⟩
        attempt := some { phase := .finished (.response row.responseBody row.statusCode) }
        log := s.log ++ [.committed ⟨t.writes, []⟩] }
  | responded (t : Attempt ω) (answer : Answer) (ht : s.attempt = some t)
      (hphase : t.phase = .finished answer) : RetryStep apply hash request s .respond
      { s with attempt := none, log := s.log ++ [.answered answer] }
  | cutOff : RetryStep apply hash request s .cut
      { s with attempt := none, log := s.log ++ [.cut] }
  | other (t : WriteSet ω) (hslot : ∀ row ∈ t.rows, row.slot ≠ request.slot) :
      RetryStep apply hash request s (.other t)
        { s with db := s.db.commit apply t, log := s.log ++ [.other t] }

section Retries

variable {δ ω : Type} {apply : δ → ω → δ} {hash : List UInt8 → String} {request : Request}
  {s s' : Retries δ ω} {a : RetryAction ω} {tables : δ}

theorem retryStep_cases (h : retryStep apply hash request s a = some s') :
    RetryStep apply hash request s a s' := by
  cases a with
  | attempt =>
    simp only [retryStep] at h
    split at h
    · rename_i hnone
      cases h
      exact .sent hnone
    · cases h
  | write w =>
    simp only [retryStep, Option.bind_eq_bind, Option.bind_eq_some_iff] at h
    obtain ⟨t, ht, h⟩ := h
    split at h
    · rename_i hphase
      cases h
      exact .wrote w t ht hphase
    · cases h
  | rollback =>
    simp only [retryStep, Option.bind_eq_bind, Option.bind_eq_some_iff] at h
    obtain ⟨t, ht, h⟩ := h
    split at h
    · rename_i hphase
      cases h
      exact .rolledBack t ht hphase
    · cases h
  | advance step =>
    simp only [retryStep, Option.bind_eq_bind, Option.bind_eq_some_iff] at h
    obtain ⟨t, ht, phase, hphase, h⟩ := h
    cases h
    exact .advanced step t phase ht hphase
  | commit =>
    simp only [retryStep, Option.bind_eq_bind, Option.bind_eq_some_iff] at h
    obtain ⟨t, ht, h⟩ := h
    split at h
    · rename_i body hphase
      cases h
      exact .committed t body ht hphase
    · rename_i body row hphase
      cases h
      exact .committedLost t body row ht hphase
    · cases h
  | respond =>
    simp only [retryStep, Option.bind_eq_bind, Option.bind_eq_some_iff] at h
    obtain ⟨t, ht, h⟩ := h
    split at h
    · rename_i answer hphase
      cases h
      exact .responded t answer ht hphase
    · cases h
  | cut =>
    simp only [retryStep, Option.bind_eq_bind, Option.bind_eq_some_iff] at h
    obtain ⟨t, -, h⟩ := h
    cases h
    exact .cutOff
  | other t =>
    simp only [retryStep] at h
    split at h
    · cases h
    · rename_i hslot
      cases h
      exact .other t (by simpa using hslot)

/-! ### The invariant -/

/-- Something that happens while nothing is committed. -/
def Visible.Fails : Visible ω → Prop
  | .committed _ => False
  | .answered (.response _ _) => False
  | _ => True

/-- Something that happens after the commit: if it is an answer, it is the stored one. -/
def Visible.Replays (request : Request) (body : String) : Visible ω → Prop
  | .committed _ => False
  | .answered answer => answer = .response body request.statusCode
  | _ => True

/-- An attempt with a free key. -/
def Phase.Open : Phase → Prop
  | .conflicted _ => False
  | .lost _ _ => False
  | .finished (.response _ _) => False
  | _ => True

/-- **The invariant.** -/
inductive RetriesOk (hash : List UInt8 → String) (request : Request) (s : Retries δ ω) : Prop
  /-- Nothing is committed. -/
  | free (hkey : findRow s.db.keys request.slot = none) (hlog : ∀ x ∈ s.log, x.Fails)
      (hattempt : ∀ t, s.attempt = some t → t.phase.Open)
  /-- One attempt has committed. -/
  | stored (writes : List ω) (body : String) (before after : List (Visible ω))
      (hkey : findRow s.db.keys request.slot = some (request.row hash body))
      (hlog : s.log = before ++ .committed ⟨writes, [request.row hash body]⟩ :: after)
      (hbefore : ∀ x ∈ before, x.Fails) (hafter : ∀ x ∈ after, x.Replays request body)
      (hattempt : ∀ t, s.attempt = some t →
        t.phase = .finished (.response body request.statusCode))

theorem guardPhase_of_free {keys : List IdempotencyRow} (h : findRow keys request.slot = none) :
    guardPhase hash keys request = .guarded := by
  rw [guardPhase, h]

theorem guardPhase_of_stored {keys : List IdempotencyRow} {body : String}
    (h : findRow keys request.slot = some (request.row hash body)) :
    guardPhase hash keys request = .finished (.response body request.statusCode) := by
  rw [guardPhase, h]
  exact if_neg (not_not_intro rfl)

/-- With a free key, an attempt does not lose a race for it. -/
theorem Phase.Open.next {keys : List IdempotencyRow} {phase phase' : Phase} {step : RequestStep}
    (hkey : findRow keys request.slot = none) (h : phase.Open)
    (hnext : nextPhase hash keys [] { request, phase } step = some phase') : phase'.Open := by
  cases step with
  | build outcome =>
    simp only [nextPhase] at hnext
    split at hnext
    · obtain rfl := Option.some.inj hnext
      cases outcome <;> trivial
    · cases hnext
  | insert =>
    simp only [nextPhase, hkey] at hnext
    split at hnext
    · split at hnext
      · cases hnext
      · obtain rfl := Option.some.inj hnext
        trivial
    · cases hnext
  | select =>
    simp only [nextPhase] at hnext
    split at hnext
    · exact h.elim
    · cases hnext

/-- What an advance finishes without a response: a build that raises, or a lost race. -/
theorem raises_of_nextPhase {keys : List IdempotencyRow} {phase : Phase} {step : RequestStep}
    {answer : Answer}
    (h : nextPhase hash keys [] { request, phase } step = some (.finished answer)) :
    (∃ statusCode detail, step = .build (.raises statusCode detail)) ∨
      ∃ body, phase = .conflicted body := by
  cases step with
  | build outcome =>
    simp only [nextPhase] at h
    split at h
    · cases outcome with
      | returns body => cases h
      | raises statusCode detail => exact .inl ⟨statusCode, detail, rfl⟩
    · cases h
  | insert =>
    simp only [nextPhase] at h
    split at h
    · split at h
      · cases h
      · split at h <;> cases h
    · cases h
  | select =>
    simp only [nextPhase] at h
    split at h
    · rename_i _ body
      exact .inr ⟨body, rfl⟩
    · cases h

/-- No attempt loses a race for its key. -/
theorem RetriesOk.not_lost (h : RetriesOk hash request s) {t : Attempt ω} (ht : s.attempt = some t)
    (body : String) : t.phase ≠ .conflicted body ∧ ∀ row, t.phase ≠ .lost body row := by
  cases h with
  | free _ _ hattempt =>
    have hopen := hattempt t ht
    constructor
    · intro hphase
      rw [hphase] at hopen
      exact hopen
    · intro row hphase
      rw [hphase] at hopen
      exact hopen
  | stored _ _ _ _ _ _ _ _ hattempt =>
    rw [hattempt t ht]
    simp

/-- **Every step keeps the invariant.** -/
theorem RetriesOk.step (h : RetriesOk hash request s)
    (hstep : RetryStep apply hash request s a s') : RetriesOk hash request s' := by
  have hsnoc {log : List (Visible ω)} {P : Visible ω → Prop} {x : Visible ω}
      (hlog : ∀ y ∈ log, P y) (hx : P x) : ∀ y ∈ log ++ [x], P y :=
    List.forall_mem_append.mpr ⟨hlog, List.forall_mem_singleton.mpr hx⟩
  have hlost {t : Attempt ω} (ht : s.attempt = some t) := h.not_lost ht
  cases h with
  | free hkey hlog hattempt =>
    cases hstep with
    | sent hnone =>
      refine .free hkey hlog fun t ht => ?_
      obtain rfl := Option.some.inj ht
      rw [guardPhase_of_free hkey]
      trivial
    | wrote w t ht hphase =>
      refine .free hkey hlog fun u hu => ?_
      obtain rfl := Option.some.inj hu
      exact hattempt t ht
    | rolledBack t ht hphase =>
      refine .free hkey hlog fun u hu => ?_
      obtain rfl := Option.some.inj hu
      exact hattempt t ht
    | advanced step t phase ht hphase =>
      refine .free hkey hlog fun u hu => ?_
      obtain rfl := Option.some.inj hu
      exact (hattempt t ht).next hkey hphase
    | committed t body ht hphase =>
      refine .stored t.writes body s.log [] (findRow_append_self hkey) rfl hlog (by simp)
        fun u hu => ?_
      obtain rfl := Option.some.inj hu
      rfl
    | committedLost t body row ht hphase => exact absurd hphase ((hlost ht body).2 row)
    | responded t answer ht hphase =>
      have hopen := hattempt t ht
      rw [hphase] at hopen
      refine .free hkey (hsnoc hlog ?_) (by simp)
      cases answer with
      | response body statusCode => exact hopen
      | httpException statusCode detail => trivial
    | cutOff => exact .free hkey (hsnoc hlog trivial) (by simp)
    | other t hslot =>
      exact .free ((RowTable.lookup_append_of_forall_ne hslot).trans hkey) (hsnoc hlog trivial)
        hattempt
  | stored writes body before after hkey hlog hbefore hafter hattempt =>
    have hmore (x : Visible ω) : s.log ++ [x] =
        before ++ .committed ⟨writes, [request.row hash body]⟩ :: (after ++ [x]) := by
      rw [hlog, List.append_assoc, List.cons_append]
    -- an attempt that starts now only replays
    have hfinished {t : Attempt ω} (ht : s.attempt = some t) {phase : Phase}
        (hphase : t.phase = phase) : phase = .finished (.response body request.statusCode) :=
      hphase.symm.trans (hattempt t ht)
    cases hstep with
    | sent hnone =>
      refine .stored writes body before after hkey hlog hbefore hafter fun t ht => ?_
      obtain rfl := Option.some.inj ht
      exact guardPhase_of_stored hkey
    | wrote w t ht hphase => cases hfinished ht hphase
    | rolledBack t ht hphase => cases hfinished ht hphase
    | advanced step t phase ht hphase =>
      rw [hattempt t ht] at hphase
      cases step <;> cases hphase
    | committed t body' ht hphase => cases hfinished ht hphase
    | committedLost t body' row ht hphase => exact absurd hphase ((hlost ht body').2 row)
    | responded t answer ht hphase =>
      cases hfinished ht hphase
      exact .stored writes body before _ hkey (hmore _) hbefore (hsnoc hafter rfl) (by simp)
    | cutOff =>
      exact .stored writes body before _ hkey (hmore _) hbefore (hsnoc hafter trivial) (by simp)
    | other t hslot =>
      exact .stored writes body before _ ((RowTable.lookup_append_of_forall_ne hslot).trans hkey)
        (hmore _) hbefore (hsnoc hafter trivial) hattempt

theorem retriesOk_of_reachable (h : (retries apply hash request tables).Reachable s) :
    RetriesOk hash request s := by
  refine h.invariant (RetriesOk hash request) (.free rfl ?_ ?_) fun _ _ _ _ hok hstep =>
    hok.step (retryStep_cases hstep)
  · exact fun x hx => (by cases hx)
  · exact fun t ht => (by cases ht)

/-! ### What an attempt does -/

/-- What `build` has written in its session after an action. A session is dropped with its attempt,
and emptied by a rollback. -/
def RetryAction.writesAfter (writes : List ω) : RetryAction ω → List ω
  | .attempt | .rollback => []
  | .write w => writes ++ [w]
  | _ => writes

/-- What `build` has returned after an action. -/
def RetryAction.bodyAfter (body : Option String) : RetryAction ω → Option String
  | .attempt => none
  | .advance (.build (.returns responseBody)) => some responseBody
  | _ => body

/-- What `build` has written in the last attempt of a run. -/
def buildWrites (run : List (Retries δ ω × RetryAction ω)) : List ω :=
  (run.map Prod.snd).foldl RetryAction.writesAfter []

/-- What it has returned there. -/
def buildBody (run : List (Retries δ ω × RetryAction ω)) : Option String :=
  (run.map Prod.snd).foldl RetryAction.bodyAfter none

variable {run : List (Retries δ ω × RetryAction ω)}

theorem buildWrites_snoc (run : List (Retries δ ω × RetryAction ω)) (s : Retries δ ω)
    (a : RetryAction ω) : buildWrites (run ++ [(s, a)]) = a.writesAfter (buildWrites run) := by
  simp [buildWrites]

theorem buildBody_snoc (run : List (Retries δ ω × RetryAction ω)) (s : Retries δ ω)
    (a : RetryAction ω) : buildBody (run ++ [(s, a)]) = a.bodyAfter (buildBody run) := by
  simp [buildBody]

/-- The session of an attempt holds what its `build` has written and returned. -/
structure Attempt.Follows (t : Attempt ω) (run : List (Retries δ ω × RetryAction ω)) : Prop where
  writes : t.phase.Open → t.writes = buildWrites run
  body : ∀ body, t.phase = .built body ∨ t.phase = .inserted body → buildBody run = some body

/-- An advance of an attempt that has not lost a race. -/
theorem Attempt.Follows.advance {t : Attempt ω} (h : t.Follows run) (hopen : t.phase.Open)
    {keys : List IdempotencyRow} {step : RequestStep} {phase : Phase}
    (hnext : nextPhase hash keys [] { request, phase := t.phase } step = some phase) :
    Attempt.Follows { t with phase } (run ++ [(s, .advance step)]) := by
  constructor
  · intro _
    rw [buildWrites_snoc]
    exact h.writes hopen
  · intro body hbody
    rw [buildBody_snoc]
    cases step with
    | build outcome =>
      simp only [nextPhase] at hnext
      split at hnext
      · obtain rfl := Option.some.inj hnext
        cases outcome with
        | returns responseBody =>
          rcases hbody with hbody | hbody
          · cases hbody
            rfl
          · cases hbody
        | raises => rcases hbody with hbody | hbody <;> cases hbody
      · cases hnext
    | insert =>
      simp only [nextPhase] at hnext
      split at hnext
      · rename_i responseBody hphase
        split at hnext
        · cases hnext
        · split at hnext <;> obtain rfl := Option.some.inj hnext
          · rcases hbody with hbody | hbody <;> cases hbody
          · rcases hbody with hbody | hbody
            · cases hbody
            · cases hbody
              exact h.body _ (.inl hphase)
      · cases hnext
    | select =>
      simp only [nextPhase] at hnext
      split at hnext
      · rename_i hphase
        rw [hphase] at hopen
        exact hopen.elim
      · cases hnext

/-- **An attempt holds in its session what its `build` did.** -/
theorem follows_of_exec (h : (retries apply hash request tables).Exec
      (retries apply hash request tables).init run s) {t : Attempt ω} (ht : s.attempt = some t) :
    t.Follows run := by
  induction h generalizing t with
  | nil => cases ht
  | snoc hexec hstep ih =>
    have hok := retriesOk_of_reachable hexec.reachable
    cases retryStep_cases hstep with
    | sent hnone =>
      obtain rfl := Option.some.inj ht
      refine ⟨fun _ => by rw [buildWrites_snoc]; rfl, fun body hbody => ?_⟩
      cases hok with
      | free hkey =>
        rw [guardPhase_of_free hkey] at hbody
        rcases hbody with hbody | hbody <;> cases hbody
      | stored _ _ _ _ hkey =>
        rw [guardPhase_of_stored hkey] at hbody
        rcases hbody with hbody | hbody <;> cases hbody
    | wrote w u hu hphase =>
      obtain rfl := Option.some.inj ht
      constructor
      · intro hopen
        rw [buildWrites_snoc, ← (ih hu).writes hopen]
        rfl
      · intro body hbody
        rw [buildBody_snoc]
        exact (ih hu).body body hbody
    | rolledBack u hu hphase =>
      obtain rfl := Option.some.inj ht
      refine ⟨fun _ => by rw [buildWrites_snoc]; rfl, fun body hbody => ?_⟩
      rw [buildBody_snoc]
      exact (ih hu).body body hbody
    | advanced step u phase hu hphase =>
      obtain rfl := Option.some.inj ht
      cases hok with
      | free _ _ hattempt => exact (ih hu).advance (hattempt u hu) hphase
      | stored _ _ _ _ _ _ _ _ hattempt =>
        rw [hattempt u hu] at hphase
        cases step <;> cases hphase
    | committed u body hu hphase =>
      obtain rfl := Option.some.inj ht
      refine ⟨fun hopen => hopen.elim, fun body' hbody => ?_⟩
      rcases hbody with hbody | hbody <;> cases hbody
    | committedLost u body row hu hphase => exact absurd hphase ((hok.not_lost hu body).2 row)
    | responded | cutOff => cases ht
    | other u hslot =>
      obtain ⟨hwrites, hbody⟩ := ih ht
      exact ⟨fun hopen => by rw [buildWrites_snoc, hwrites hopen]; rfl,
        fun body h => by rw [buildBody_snoc, hbody body h]; rfl⟩

/-! ### What is committed -/

/-- The ways to split a list that has grown by one. -/
theorem split_snoc {α : Type} {log before after : List α} {x y : α}
    (h : log ++ [y] = before ++ x :: after) :
    before = log ∧ x = y ∨ ∃ after', after = after' ++ [y] ∧ log = before ++ x :: after' := by
  rcases List.eq_nil_or_concat after with rfl | ⟨after', z, rfl⟩
  · obtain ⟨hlog, hy⟩ := List.append_inj' h rfl
    exact .inl ⟨hlog.symm, (List.cons.inj hy).1.symm⟩
  · rw [List.concat_eq_append, ← List.cons_append, ← List.append_assoc] at h
    obtain ⟨hlog, hy⟩ := List.append_inj' h rfl
    obtain ⟨rfl, -⟩ := List.cons.inj hy
    exact .inr ⟨after', List.concat_eq_append, hlog⟩

/-- **A commit is that of an attempt**: with all that its `build` wrote, and the row of the body
that it returned. -/
theorem exists_commit_of_log (h : (retries apply hash request tables).Exec
      (retries apply hash request tables).init run s) {before after : List (Visible ω)}
    {t : WriteSet ω} (hlog : s.log = before ++ .committed t :: after) :
    ∃ pre x post body, run = pre ++ (x, .commit) :: post ∧ x.log = before ∧
      buildBody pre = some body ∧ t = ⟨buildWrites pre, [request.row hash body]⟩ := by
  induction h generalizing after with
  | nil => cases before <;> cases hlog
  | @snoc run s s' a hexec hstep ih =>
    have hearlier {after : List (Visible ω)} (hlog : s.log = before ++ .committed t :: after) :
        ∃ pre x post body, run ++ [(s, a)] = pre ++ (x, .commit) :: post ∧ x.log = before ∧
          buildBody pre = some body ∧ t = ⟨buildWrites pre, [request.row hash body]⟩ := by
      obtain ⟨pre, x, post, body, rfl, h⟩ := ih hlog
      exact ⟨pre, x, post ++ [(s, a)], body, by simp, h⟩
    have hshown {y : Visible ω} (hy : ∀ u, y ≠ .committed u)
        (hlog : s.log ++ [y] = before ++ .committed t :: after) :
        ∃ after', s.log = before ++ .committed t :: after' := by
      rcases split_snoc hlog with ⟨-, rfl⟩ | ⟨after', -, hlog⟩
      · exact absurd rfl (hy t)
      · exact ⟨after', hlog⟩
    cases retryStep_cases hstep with
    | sent | wrote | rolledBack | advanced => exact hearlier hlog
    | committed u body hu hphase =>
      have hfollows := follows_of_exec hexec hu
      have hopen : u.phase.Open := by rw [hphase]; trivial
      rcases split_snoc hlog with ⟨rfl, ht⟩ | ⟨after', -, hlog⟩
      · obtain rfl := Visible.committed.inj ht
        exact ⟨run, s, [], body, rfl, rfl, hfollows.body body (.inr hphase),
          by rw [hfollows.writes hopen]⟩
      · exact hearlier hlog
    | committedLost u body row hu hphase =>
      exact absurd hphase (((retriesOk_of_reachable hexec.reachable).not_lost hu body).2 row)
    | responded | cutOff | other =>
      obtain ⟨after', hlog⟩ := hshown (fun u h => by cases h) hlog
      exact hearlier hlog

/-! ### What is visible -/

/-- The writes that an entry of the log says were committed. -/
def Visible.writes : Visible ω → List ω
  | .committed t | .other t => t.writes
  | .answered _ | .cut => []

/-- And the rows of `idempotency_keys`. -/
def Visible.rows : Visible ω → List IdempotencyRow
  | .committed t | .other t => t.rows
  | .answered _ | .cut => []

/-- The steps that show something. -/
def RetryAction.isVisible : RetryAction ω → Bool
  | .commit | .respond | .cut | .other _ => true
  | .attempt | .write _ | .rollback | .advance _ => false

/-- What they show. -/
def RetryAction.Shows : RetryAction ω → Visible ω → Prop
  | .commit, .committed _ => True
  | .respond, .answered _ => True
  | .cut, .cut => True
  | .other t, .other u => t = u
  | _, _ => False

/-- The log has one entry for each step that shows something. -/
structure LogOk (apply : δ → ω → δ) (tables : δ) (run : List (Retries δ ω × RetryAction ω))
    (s : Retries δ ω) : Prop where
  shows : List.Forall₂ RetryAction.Shows ((run.map Prod.snd).filter RetryAction.isVisible) s.log
  /-- The database is what the committed transactions have made of it. -/
  tables : s.db.tables = (s.log.flatMap Visible.writes).foldl apply tables
  keys : s.db.keys = s.log.flatMap Visible.rows

theorem logOk_of_exec (h : (retries apply hash request tables).Exec
      (retries apply hash request tables).init run s) : LogOk apply tables run s := by
  induction h with
  | nil => exact ⟨.nil, rfl, rfl⟩
  | @snoc run s s' a hexec hstep ih =>
    have hhidden (ha : a.isVisible = false) {attempt : Option (Attempt ω)} :
        LogOk apply tables (run ++ [(s, a)]) { s with attempt } :=
      ⟨by simpa [ha] using ih.shows, ih.tables, ih.keys⟩
    have hshown (x : Visible ω) (ha : a.isVisible = true) (hx : a.Shows x)
        {attempt : Option (Attempt ω)} {db : Database δ}
        (htables : db.tables = x.writes.foldl apply s.db.tables)
        (hkeys : db.keys = s.db.keys ++ x.rows) :
        LogOk apply tables (run ++ [(s, a)]) ⟨db, attempt, s.log ++ [x]⟩ := by
      refine ⟨?_, ?_, ?_⟩
      · rw [List.map_append, List.filter_append, List.map_singleton, List.filter_singleton, ha]
        exact List.rel_append ih.shows (.cons hx .nil)
      · rw [htables, ih.tables]
        simp
      · rw [hkeys, ih.keys]
        simp
    cases retryStep_cases hstep with
    | sent | wrote | rolledBack | advanced => exact hhidden rfl
    | committed | committedLost => exact hshown (.committed _) rfl trivial rfl rfl
    | responded t answer => exact hshown (.answered answer) rfl trivial rfl (List.append_nil _).symm
    | cutOff => exact hshown .cut rfl trivial rfl (List.append_nil _).symm
    | other t => exact hshown (.other t) rfl rfl rfl rfl

/-! ### Retries -/

/-- **Sequential retries are exactly-once.** In every run of attempts, however they are cut off, the
database is what the log says was committed, and the log is one of two: errors with the key still
free, or errors, then one commit, and after it only the stored response. The commit is that of an
attempt: all that its `build` has written, together with the row of the key, which stores the body
that this `build` has returned. -/
theorem retries_exactly_once (h : (retries apply hash request tables).Exec
      (retries apply hash request tables).init run s) :
    LogOk apply tables run s ∧
      ((findRow s.db.keys request.slot = none ∧ ∀ x ∈ s.log, x.Fails) ∨
        ∃ pre x post body after, run = pre ++ (x, .commit) :: post ∧ buildBody pre = some body ∧
          findRow s.db.keys request.slot = some
            ⟨request.consumerId, request.key, hash request.body, body, request.statusCode⟩ ∧
          s.log = x.log ++ .committed ⟨buildWrites pre,
            [⟨request.consumerId, request.key, hash request.body, body, request.statusCode⟩]⟩ ::
              after ∧
          (∀ y ∈ x.log, y.Fails) ∧ ∀ y ∈ after, y.Replays request body) := by
  refine ⟨logOk_of_exec h, ?_⟩
  cases retriesOk_of_reachable h.reachable with
  | free hkey hlog hattempt => exact .inl ⟨hkey, hlog⟩
  | stored writes body before after hkey hlog hbefore hafter hattempt =>
    obtain ⟨pre, x, post, body', hrun, rfl, hbody, ht⟩ := exists_commit_of_log h hlog
    obtain ⟨rfl, hrow⟩ := WriteSet.mk.inj ht
    obtain rfl : body = body' :=
      congrArg IdempotencyRow.responseBody (List.head_eq_of_cons_eq hrow)
    exact .inr ⟨pre, x, post, body, after, hrun, hbody, hkey, hlog, hbefore, hafter⟩

/-- Of four attempts the first raises after a write, the second is cut off after its insert, the
third before its answer, and the fourth is answered. -/
def sampleAttempts : List (RetryAction ℕ) :=
  [.attempt, .write 1, .rollback, .advance (.build (.raises 409 "conflict")), .respond,
    .attempt, .write 2, .advance (.build (.returns "second")), .advance .insert, .cut,
    .other ⟨[10], []⟩,
    .attempt, .write 3, .write 4, .advance (.build (.returns "third")), .advance .insert, .commit,
    .cut, .attempt, .respond]

/-- The two writes of the third attempt are committed, and its body is the answer. -/
theorem retries_exactly_once_sampleAttempts :
    ∃ s run, (retries (· + ·) (fun _ => "") sampleRequest 0).Exec
        (retries (· + ·) (fun _ => "") sampleRequest 0).init run s ∧
      s.db.tables = 17 ∧
      s.log = [.answered (.httpException 409 "conflict"), .cut, .other ⟨[10], []⟩,
        .committed ⟨[3, 4], [⟨"host", "k", "", "third", 201⟩]⟩, .cut,
        .answered (.response "third" 201)] ∧
      LogOk (· + ·) 0 run s ∧
      ∃ pre x post, run = pre ++ (x, .commit) :: post ∧ buildWrites pre = [3, 4] ∧
        buildBody pre = some "third" := by
  have hend : ((retries (· + ·) (fun _ => "") sampleRequest 0).run
      (retries (· + ·) (fun _ => "") sampleRequest 0).init sampleAttempts).map (fun s =>
        (s.db.tables, s.log)) =
      some (17, [.answered (.httpException 409 "conflict"), .cut, .other ⟨[10], []⟩,
        .committed ⟨[3, 4], [⟨"host", "k", "", "third", 201⟩]⟩, .cut,
        .answered (.response "third" 201)]) := by decide
  obtain ⟨s, hrun, hs⟩ := Option.map_eq_some_iff.mp hend
  obtain ⟨htables, hlog⟩ := Prod.mk.inj hs
  have hexec := TransitionSystem.exec_steps hrun
  obtain ⟨hok, ⟨-, hfails⟩ | ⟨pre, x, post, body, after, hpre, hbody, -, hcommit, -, -⟩⟩ :=
    retries_exactly_once hexec
  · exact absurd (hfails (.committed ⟨[3, 4], [⟨"host", "k", "", "third", 201⟩]⟩)
      (by rw [hlog]; decide)) id
  · refine ⟨s, _, hexec, htables, hlog, hok, pre, x, post, hpre, ?_⟩
    have hmem : Visible.committed ⟨buildWrites pre, [⟨"host", "k", "", body, 201⟩]⟩ ∈ s.log :=
      hcommit ▸ List.mem_append_right _ List.mem_cons_self
    obtain ⟨hwrites, rfl⟩ : buildWrites pre = [3, 4] ∧ body = "third" := by
      simpa [hlog] using hmem
    exact ⟨hwrites, hbody⟩

end Retries

end CarFlow
